/-
  Almanac.Proofs.Broker.Settling

  How far a settlement reaches. It names one unsettled delivery, by its tag. Alone it concerns this
  delivery, and with `multiple` all that the same consumer holds in the same queue under tags up to
  it (`Covered`). Discarding takes exactly these out of the queue (`Queue.Drops`), and returning
  puts exactly these in front of what waits there (`Queue.TakesBack`); nothing else of the queue
  changes.

  A return ends in a dispatch. As long as no consumer of the queue has closed its stream, the
  dispatch only goes on from there (`Dispatching.Extends`): whatever was unsettled stays so, and
  what is added has new tags.
-/
import Almanac.Proofs.Broker.DeliveryTags
import Almanac.Proofs.Broker.Leaving

namespace Almanac.Broker

variable {β : Type}

/-! ## What is covered -/

/-- The deliveries that a settlement concerns which names the delivery `u` by its tag. -/
def Covered (tag : Nat) (u : Unacked β) (multiple : Bool) (e : Nat × Unacked β) : Prop :=
  match multiple with
  | false => e = (tag, u)
  | true => e.2.owner = u.owner ∧ e.1 ≤ tag

namespace Queue

variable {q r : Queue β} {covered : Nat × Unacked β → Prop}

/-- One queue is the other without some unsettled deliveries. -/
structure Drops (q : Queue β) (covered : Nat × Unacked β → Prop) (r : Queue β) : Prop where
  /-- What stays keeps its order. -/
  sublist : r.unacked.Sublist q.unacked
  stays : ∀ e ∈ q.unacked, e ∈ r.unacked ↔ ¬covered e
  rest : r = { q with unacked := r.unacked }

/-- One queue is the other with some unsettled deliveries back in front, the oldest first. -/
structure TakesBack (q : Queue β) (covered : Nat × Unacked β → Prop) (r : Queue β) : Prop where
  sublist : r.unacked.Sublist q.unacked
  stays : ∀ e ∈ q.unacked, e ∈ r.unacked ↔ ¬covered e
  front : ∃ back : List (Nat × Unacked β), back.Sublist q.unacked ∧
    (∀ e ∈ q.unacked, e ∈ back ↔ covered e) ∧
    r.ready = back.map (fun e => again e.2) ++ q.ready
  rest : r = { q with ready := r.ready, unacked := r.unacked }

variable {p : Nat → Unacked β → Bool}

theorem drops_discardIf (h : ∀ e ∈ q.unacked, p e.1 e.2 = true ↔ covered e) :
    q.Drops covered (q.discardIf p) := by
  refine ⟨List.filter_sublist, ?_, rfl⟩
  intro e he
  rw [← h e he]
  simp [discardIf, he]

theorem takesBack_requeueIf (h : ∀ e ∈ q.unacked, p e.1 e.2 = true ↔ covered e) :
    q.TakesBack covered (q.requeueIf p) := by
  refine ⟨?_, ?_, ⟨q.unacked.filter fun e => p e.1 e.2, List.filter_sublist, ?_, ?_⟩, rfl⟩
  · rw [requeueIf_unacked]
    exact List.filter_sublist
  · intro e he
    rw [← h e he, requeueIf_unacked]
    simp [he]
  · intro e he
    rw [← h e he, List.mem_filter]
    simp [he]
  · exact requeueIf_ready q p

end Queue

/-! ## A dispatch that nobody has left -/

namespace Dispatching

variable {d e f : Dispatching β}

/-- Every consumer of the queue has a stream that is open. -/
def Attended (d : Dispatching β) : Prop :=
  ∀ r ∈ d.queue.consumers, r.stream < d.streams.length ∧ ¬d.streams.Closed r.stream

/-- From one point of a dispatch to a later one, messages leave the ready list at its front and
    new deliveries are opened; nothing else happens to the queue. -/
structure Extends (d e : Dispatching β) : Prop where
  lastTag : d.lastTag ≤ e.lastTag
  length : e.streams.length = d.streams.length
  closed : ∀ id, e.streams.Closed id ↔ d.streams.Closed id
  settings : e.queue.settings = d.queue.settings
  consumers : e.queue.consumers = d.queue.consumers
  ready : e.queue.ready <:+ d.queue.ready
  unacked : ∃ opened, e.queue.unacked = d.queue.unacked ++ opened ∧
    ∀ x ∈ opened, d.lastTag < x.1

theorem Extends.refl (d : Dispatching β) : d.Extends d where
  lastTag := Nat.le_refl _
  length := rfl
  closed _ := Iff.rfl
  settings := rfl
  consumers := rfl
  ready := List.suffix_rfl
  unacked := ⟨[], (List.append_nil _).symm, by simp⟩

theorem Extends.trans (hde : d.Extends e) (hef : e.Extends f) : d.Extends f where
  lastTag := Nat.le_trans hde.lastTag hef.lastTag
  length := hef.length.trans hde.length
  closed id := (hef.closed id).trans (hde.closed id)
  settings := hef.settings.trans hde.settings
  consumers := hef.consumers.trans hde.consumers
  ready := hef.ready.trans hde.ready
  unacked := by
    obtain ⟨first, hfirst, hnew⟩ := hde.unacked
    obtain ⟨second, hsecond, hlater⟩ := hef.unacked
    refine ⟨first ++ second, by rw [hsecond, hfirst, List.append_assoc], ?_⟩
    intro x hx
    rcases List.mem_append.mp hx with hx | hx
    · exact hnew x hx
    · have hlt := hlater x hx
      have hle := hde.lastTag
      omega

theorem Extends.attended (h : d.Extends e) (hd : d.Attended) : e.Attended := by
  intro r hr
  rw [h.consumers] at hr
  rw [h.length, h.closed]
  exact hd r hr

/-- Where every stream is open, a round hands its message out. -/
theorem Round.extends (hround : Round d e) (hd : d.Attended) : d.Extends e := by
  cases hround with
  | @lost message ready index consumer hready hindex hconsumer hoffer =>
      obtain ⟨hlt, hopen⟩ := hd consumer (List.mem_of_getElem? hconsumer)
      exact absurd (Streams.closed_of_offer hlt hoffer) hopen
  | @handed message ready index consumer streams hready hindex hconsumer hoffer =>
      refine ⟨Nat.le_succ _, Streams.offer_length hoffer, Streams.closed_offer hoffer, rfl, rfl,
        ⟨[message], hready.symm⟩, ?_⟩
      cases hauto : consumer.autoAck with
      | true => exact ⟨[], by simp [afterHandOut, hauto], by simp⟩
      | false => exact ⟨[(d.lastTag + 1, ⟨consumer.tag, message⟩)],
          by simp [afterHandOut, hauto], by simp⟩

theorem run_extends (hd : d.Attended) : d.Extends d.run :=
  run_preserves (P := d.Extends)
    (fun _ _ hround h => h.trans (hround.extends (h.attended hd))) d (.refl d)

end Dispatching

/-! ## Settling -/

namespace State

variable {s t : State β} {name : String}

/-- Of two states, the second one has the queues of the first one under the same names, and all but
    the one of `name` are the same. -/
structure SameBut (s t : State β) (name : String) : Prop where
  connected : t.connected = s.connected
  asked : t.asked = s.asked
  names : t.queues.keys = s.queues.keys
  others : ∀ other, other ≠ name → t.queue? other = s.queue? other

theorem keys_setQueue {q : Queue β} (hq : s.queue? name = some q) (r : Queue β) :
    (s.queues.insert name r).keys = s.queues.keys := by
  have hname : name ∈ s.queues.keys := by
    by_contra hnone
    rw [← Table.get?_eq_none_iff] at hnone
    simp [queue?, hnone] at hq
  rw [Table.keys_insert, if_pos hname]

theorem sameBut_setQueue {q : Queue β} (hq : s.queue? name = some q) (r : Queue β) :
    s.SameBut (s.setQueue name r) name where
  connected := rfl
  asked := rfl
  names := keys_setQueue hq r
  others other hother := by rw [queue?_setQueue, if_neg (Ne.symm hother)]

theorem sameBut_deliver {q : Queue β} (hq : s.queue? name = some q) (r : Queue β) :
    s.SameBut (s.deliver name r) name where
  connected := rfl
  asked := rfl
  names := keys_setQueue hq _
  others other hother := by rw [queue?_deliver, if_neg (Ne.symm hother)]

/-- In the queue that has the delivery unsettled, the condition of a settlement holds of what is
    covered. -/
theorem Sound.covers_iff (hs : s.Sound) {q : Queue β} (hq : s.queue? name = some q) {tag : Nat}
    {u : Unacked β} (hu : (tag, u) ∈ q.unacked) (multiple : Bool) :
    ∀ e ∈ q.unacked, covers tag multiple u.owner e.1 e.2 = true ↔ Covered tag u multiple e := by
  intro e he
  cases multiple with
  | false =>
      simp only [covers, Covered, Bool.false_eq_true, if_false, beq_iff_eq]
      constructor
      · intro htag
        exact hs.unacked_inj hq he hu htag
      · rintro rfl
        rfl
  | true =>
      simp only [covers, Covered, if_true, Bool.and_eq_true, decide_eq_true_eq, beq_iff_eq]
      exact and_comm

theorem Sound.lookup_unacked (hs : s.Sound) {q : Queue β} (hq : s.queue? name = some q) {tag : Nat}
    {u : Unacked β} (hu : (tag, u) ∈ q.unacked) : q.unacked.lookup tag = some u := by
  cases hlookup : q.unacked.lookup tag with
  | none => exact absurd (List.lookup_eq_none_iff.mp hlookup _ hu) (by simp)
  | some v =>
      obtain ⟨before, after, heq, -⟩ := List.lookup_eq_some_iff.mp hlookup
      have hv : (tag, v) ∈ q.unacked := by simp [heq]
      have hsame := hs.unacked_inj hq hv hu rfl
      rw [(Prod.mk.inj hsame).2]

/-- What is left of a queue after some deliveries were returned and handed out again, while its
    consumers listen. -/
theorem Sound.extends_requeueIf (hs : s.Sound) {q : Queue β} (hq : s.queue? name = some q)
    (hopen : ∀ r ∈ q.consumers, ¬s.streams.Closed r.stream) (p : Nat → Unacked β → Bool) :
    (s.dispatching (q.requeueIf p)).Extends (s.dispatching (q.requeueIf p)).run := by
  apply Dispatching.run_extends
  intro r hr
  exact ⟨(hs.queue name q hq).fed r hr, hopen r hr⟩

end State

open State

/-- Settling an unsettled delivery of a connected broker, at every point of every run. An
    acknowledgement, and a rejection without return, takes out of the queue of the delivery exactly
    what the settlement covers; what waits there, the consumers and the counters stay. A rejection
    with return puts exactly the same deliveries back in front of their queue, and dispatches it;
    if no consumer of the queue has closed its stream, the dispatch takes from the front of what
    waits then, leaves the consumers and everything that is still unsettled, and opens deliveries
    under new tags only. No other queue changes. -/
theorem settlement_covers_exactly {calls : List (Call β)} {name : String} {q : Queue β} {tag : Nat}
    {u : Unacked β} (hconnected : (run calls).connected = true)
    (hq : (run calls).queue? name = some q) (hu : (tag, u) ∈ q.unacked) (multiple : Bool) :
    (∃ r, q.Drops (Covered tag u multiple) r ∧
      (run calls).ack tag multiple = (.ok (), (run calls).setQueue name r) ∧
      (run calls).nack tag multiple false = (.ok (), (run calls).setQueue name r) ∧
      (run calls).SameBut ((run calls).setQueue name r) name) ∧
    (∃ r t, q.TakesBack (Covered tag u multiple) r ∧
      (run calls).nack tag multiple true = (.ok (), t) ∧
      t = ((run calls).setQueue name r).dispatch name ∧ (run calls).SameBut t name ∧
      ((∀ c ∈ q.consumers, ¬(run calls).streams.Closed c.stream) →
        ∃ q', t.queue? name = some q' ∧ q'.settings = q.settings ∧ q'.consumers = q.consumers ∧
          q'.ready <:+ r.ready ∧
          ∃ opened, q'.unacked = r.unacked ++ opened ∧
            ∀ e ∈ opened, (run calls).lastTag < e.1)) := by
  have hs := run_sound calls
  have hholder := hs.holder?_of_lookup hq (hs.lookup_unacked hq hu)
  have hcovers := hs.covers_iff hq hu multiple
  constructor
  · refine ⟨q.discardIf (covers tag multiple u.owner), Queue.drops_discardIf hcovers, ?_, ?_,
      sameBut_setQueue hq _⟩
    · exact settle_of_holder? hconnected hholder multiple .discard
    · exact settle_of_holder? hconnected hholder multiple .discard
  · refine ⟨q.requeueIf (covers tag multiple u.owner), _, Queue.takesBack_requeueIf hcovers,
      settle_of_holder? hconnected hholder multiple .requeue, (setQueue_dispatch _ _ _).symm,
      sameBut_deliver hq _, ?_⟩
    intro hopen
    have hextends := hs.extends_requeueIf hq hopen (covers tag multiple u.owner)
    have hafter : ((run calls).deliver name (q.requeueIf (covers tag multiple u.owner))).queue? name
        = some ((run calls).dispatching (q.requeueIf (covers tag multiple u.owner))).run.queue := by
      rw [queue?_deliver, if_pos rfl]
    exact ⟨_, hafter, hextends.settings, hextends.consumers, hextends.ready, hextends.unacked⟩

/-- Two consumers of one queue hold two deliveries each, and a third one holds one of another
    queue. -/
def threeHolders : List (Call String) :=
  [.start, .declare { name := "q" }, .declare { name := "other" },
    .consume { queue := "q", consumer := "a" }, .consume { queue := "q", consumer := "b" },
    .consume { queue := "other", consumer := "c" }, .publish { routingKey := "q" } "m",
    .publish { routingKey := "q" } "n", .publish { routingKey := "other" } "x",
    .publish { routingKey := "q" } "o", .publish { routingKey := "q" } "p"]

/-- Their queue. -/
def heldQueue : Queue String where
  settings := { name := "q" }
  consumers := [⟨"a", false, false, 0⟩, ⟨"b", false, false, 1⟩]
  cursor := 2
  unacked := [(1, ⟨"a", ⟨"m", "application/json", "q", false⟩⟩),
    (2, ⟨"b", ⟨"n", "application/json", "q", false⟩⟩),
    (4, ⟨"a", ⟨"o", "application/json", "q", false⟩⟩),
    (5, ⟨"b", ⟨"p", "application/json", "q", false⟩⟩)]

/-- The first consumer acknowledges both of its deliveries by the tag of the later one, and the
    second one keeps the delivery between them. The same holds when the first consumer returns them
    instead. -/
theorem threeHolders_settled :
    ∃ r t, (run threeHolders).queue? "q" = some heldQueue ∧
      (run threeHolders).ack 4 true = (.ok (), (run threeHolders).setQueue "q" r) ∧
      (1, ⟨"a", ⟨"m", "application/json", "q", false⟩⟩) ∉ r.unacked ∧
      (2, ⟨"b", ⟨"n", "application/json", "q", false⟩⟩) ∈ r.unacked ∧
      (run threeHolders).nack 4 true true = (.ok (), t) ∧
      ∃ q, t.queue? "q" = some q ∧
        (2, ⟨"b", ⟨"n", "application/json", "q", false⟩⟩) ∈ q.unacked := by
  have hconnected : (run threeHolders).connected = true := by cbv
  have hq : (run threeHolders).queue? "q" = some heldQueue := by cbv
  have hu : (4, ⟨"a", ⟨"o", "application/json", "q", false⟩⟩) ∈ heldQueue.unacked := by
    simp [heldQueue]
  have hopen : ∀ c ∈ heldQueue.consumers, ¬(run threeHolders).streams.Closed c.stream := by
    have hflags : (run threeHolders).streams.map (·.closed) = [false, false, false] := by cbv
    rintro c - ⟨stream, hstream, hclosed⟩
    have hflag : stream.closed ∈ (run threeHolders).streams.map (·.closed) :=
      List.mem_map_of_mem (List.mem_of_getElem? hstream)
    simp [hflags, hclosed] at hflag
  obtain ⟨⟨r, hdrops, hack, -, -⟩, ⟨back, t, hback, hnack, -, -, hdispatched⟩⟩ :=
    settlement_covers_exactly hconnected hq hu true
  obtain ⟨q, hafter, -, -, -, opened, hopened, -⟩ := hdispatched hopen
  refine ⟨r, t, hq, hack, ?_, ?_, hnack, q, hafter, ?_⟩
  · rw [hdrops.stays _ (by simp [heldQueue])]
    simp [Covered]
  · rw [hdrops.stays _ (by simp [heldQueue])]
    simp [Covered]
  · rw [hopened, List.mem_append, hback.stays _ (by simp [heldQueue])]
    simp [Covered]

end Almanac.Broker
