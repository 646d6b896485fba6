/-
  Almanac.Proofs.Broker.Leaving

  What a consumer takes along when it leaves. It closes its stream, which changes no queue, and
  then it cancels by the name of its queue and its tag. A cancellation ends every registration
  of that queue with that tag; the registrations with another tag, and those of other queues,
  stay, and so does what is outstanding with them (`cancel_ends`, `cancel_spares`).

  The dispatch at the end of a cancellation is like any other: a consumer that has closed its
  own stream by then may be swept out (`Sweeps`).

  A consumer can outlive its registration, by a stop of the broker or by such a sweep, and its tag
  be given to another consumer in the meantime. When it is dropped at last, it takes the
  registration of the other one along (`staleDrop_ends_other`).
-/
import Almanac.Proofs.Broker.Registered
import Mathlib

namespace Almanac.Broker

variable {β : Type}

/-! ## Closed streams -/

namespace Streams

variable {streams after : Streams β}

/-- A stream is there, and takes nothing any more. -/
def Closed (streams : Streams β) (id : Nat) : Prop :=
  ∃ stream, streams[id]? = some stream ∧ stream.closed = true

/-- A stream that is there and takes nothing is closed. -/
theorem closed_of_offer {id : Nat} {d : Delivery β} (hlt : id < streams.length)
    (h : streams.offer id d = none) : streams.Closed id := by
  have hstream : streams[id]? = some streams[id] := List.getElem?_eq_getElem hlt
  rw [offer, hstream] at h
  refine ⟨streams[id], hstream, ?_⟩
  by_contra hopen
  simp [hopen] at h

/-- A delivery neither closes nor opens a stream. -/
theorem closed_offer {id : Nat} {d : Delivery β} (h : streams.offer id d = some after)
    (other : Nat) : after.Closed other ↔ streams.Closed other := by
  obtain ⟨stream, hstream, hopen, rfl⟩ := offer_eq_some h
  obtain ⟨hlt, hget⟩ := List.getElem?_eq_some_iff.mp hstream
  unfold Closed
  rw [List.getElem?_set]
  by_cases heq : id = other
  · subst heq
    simp [hlt, hget, hopen]
  · simp [heq]

end Streams

/-! ## What a dispatch sweeps out -/

namespace Dispatching

variable {d e f : Dispatching β}

/-- From one point of a dispatch to a later one, only consumers with closed streams go, and only
    what was outstanding under their tags goes back. -/
structure Sweeps (d e : Dispatching β) : Prop where
  length : e.streams.length = d.streams.length
  closed : ∀ id, e.streams.Closed id ↔ d.streams.Closed id
  consumers : e.queue.consumers ⊆ d.queue.consumers
  stays : ∀ r ∈ d.queue.consumers, r ∈ e.queue.consumers ∨ d.streams.Closed r.stream
  outstanding : ∀ x ∈ d.queue.unacked, x ∈ e.queue.unacked ∨
    ∃ r ∈ d.queue.consumers, r.tag = x.2.owner ∧ d.streams.Closed r.stream

theorem Sweeps.refl (d : Dispatching β) : d.Sweeps d where
  length := rfl
  closed _ := Iff.rfl
  consumers := List.Subset.refl _
  stays _ hr := Or.inl hr
  outstanding _ hx := Or.inl hx

theorem Sweeps.trans (hde : d.Sweeps e) (hef : e.Sweeps f) : d.Sweeps f where
  length := hef.length.trans hde.length
  closed id := (hef.closed id).trans (hde.closed id)
  consumers := List.Subset.trans hef.consumers hde.consumers
  stays r hr := by
    rcases hde.stays r hr with hmid | hclosed
    · exact (hef.stays r hmid).imp_right (hde.closed r.stream).mp
    · exact Or.inr hclosed
  outstanding x hx := by
    rcases hde.outstanding x hx with hmid | hgone
    · refine (hef.outstanding x hmid).imp_right ?_
      rintro ⟨r, hr, htag, hclosed⟩
      exact ⟨r, hde.consumers hr, htag, (hde.closed r.stream).mp hclosed⟩
    · exact Or.inr hgone

/-- One round of a dispatch in which every consumer has a stream. -/
theorem Round.sweeps (hround : Round d e)
    (hfed : ∀ r ∈ d.queue.consumers, r.stream < d.streams.length) : d.Sweeps e := by
  cases hround with
  | @lost message ready index consumer hready hindex hconsumer hoffer =>
      have hmem : consumer ∈ d.queue.consumers := List.mem_of_getElem? hconsumer
      have hclosed := Streams.closed_of_offer (hfed consumer hmem) hoffer
      refine ⟨rfl, fun _ => Iff.rfl, List.eraseIdx_subset, fun r hr => ?_, fun x hx => ?_⟩
      · by_cases hsame : r = consumer
        · exact Or.inr (hsame ▸ hclosed)
        · -- Another consumer stands at another place.
          obtain ⟨i, hi⟩ := List.mem_iff_getElem?.mp hr
          have hplace : i ≠ index := by
            rintro rfl
            exact hsame (Option.some.inj (hi.symm.trans hconsumer))
          exact Or.inl (List.mem_eraseIdx_iff_getElem?.mpr ⟨i, hplace, hi⟩)
      · by_cases howner : x.2.owner = consumer.tag
        · exact Or.inr ⟨consumer, hmem, howner.symm, hclosed⟩
        · left
          rw [afterLoss, Queue.dropConsumerAt, Queue.requeueIf_unacked]
          exact List.mem_filter.mpr ⟨hx, by simpa using howner⟩
  | @handed message ready index consumer streams hready hindex hconsumer hoffer =>
      refine ⟨Streams.offer_length hoffer, Streams.closed_offer hoffer, List.Subset.refl _,
        fun r hr => Or.inl hr, fun x hx => Or.inl ?_⟩
      rw [afterHandOut]
      split
      · exact hx
      · exact List.mem_append_left _ hx

/-- A dispatch in which every consumer has a stream. -/
theorem run_sweeps (d : Dispatching β)
    (hfed : ∀ r ∈ d.queue.consumers, r.stream < d.streams.length) : d.Sweeps d.run := by
  refine run_preserves (P := fun e => d.Sweeps e) (fun e f hround hde => ?_) d (Sweeps.refl d)
  refine hde.trans (hround.sweeps fun r hr => ?_)
  rw [hde.length]
  exact hfed r (hde.consumers hr)

end Dispatching

/-! ## Cancelling -/

namespace Queue

variable {q : Queue β} {tag : String}

theorem mem_without_consumers {r : Registration} :
    r ∈ (q.without tag).consumers ↔ r ∈ q.consumers ∧ r.tag ≠ tag := by
  rw [without, requeueIf_consumers, List.mem_filter, bne_iff_ne]

theorem mem_without_unacked {x : Nat × Unacked β} :
    x ∈ (q.without tag).unacked ↔ x ∈ q.unacked ∧ x.2.owner ≠ tag := by
  rw [without, requeueIf_unacked, List.mem_filter]
  simp

end Queue

namespace State

variable {s : State β} {name tag : String} {r : Registration}

/-- A message is outstanding with a consumer of a queue, under a delivery tag. -/
def Outstanding (s : State β) (name : String) (r : Registration) (e : Nat × Unacked β) : Prop :=
  ∃ q, s.queue? name = some q ∧ e ∈ q.unacked ∧ e.2.owner = r.tag

/-- A consumer that was registered at `s` is not any more at `t`, and nothing that was outstanding
    with it still is. -/
def Ends (s t : State β) (name : String) (r : Registration) : Prop :=
  ¬t.Registered name r ∧ ∀ e, s.Outstanding name r e → ¬t.Outstanding name r e

/-- A consumer that was registered at `s` still is at `t`, with what was outstanding with it, as
    far as no consumer of its tag had closed its stream. -/
def Spares (s t : State β) (name : String) (r : Registration) : Prop :=
  (t.Registered name r ∨ s.streams.Closed r.stream) ∧
    ∀ e, s.Outstanding name r e → t.Outstanding name r e ∨
      ∃ r', s.Registered name r' ∧ r'.tag = r.tag ∧ s.streams.Closed r'.stream

/-- Closing a stream concerns no queue. -/
theorem closeStream_queues (s : State β) (c : Consumer) : (s.closeStream c).queues = s.queues := by
  unfold closeStream
  split <;> rfl

/-- A delivery tag stands for one delivery. -/
theorem Sound.unacked_inj (hs : s.Sound) {q : Queue β} (hq : s.queue? name = some q)
    {x y : Nat × Unacked β} (hx : x ∈ q.unacked) (hy : y ∈ q.unacked) (h : x.1 = y.1) :
    x = y := by
  have hnodup : q.tags.Nodup := (hs.queue name q hq).ascending.imp Nat.ne_of_lt
  exact List.inj_on_of_nodup_map hnodup hx hy h

/-- A cancellation that finds its tag removes the queue, or delivers it without the tag. -/
theorem cancel_of_registered (htag : r.tag = tag) (hr : s.Registered name r) :
    ∃ q, s.queue? name = some q ∧
      (s.cancel name tag = { s with queues := s.queues.erase name } ∨
        s.cancel name tag = s.deliver name (q.without tag)) := by
  obtain ⟨q, hq, hmem⟩ := hr
  refine ⟨q, hq, ?_⟩
  -- The queue without the tag has fewer consumers.
  have hshorter : ((q.without tag).consumers.length == q.consumers.length) = false := by
    have hlt : (q.consumers.filter (·.tag != tag)).length < q.consumers.length :=
      List.length_filter_lt_length_iff_exists.mpr ⟨r, hmem, by simp [htag]⟩
    exact beq_false_of_ne (Nat.ne_of_lt hlt)
  rw [cancel_eq, hq]
  dsimp only
  rw [hshorter, if_neg Bool.false_ne_true]
  split
  · exact Or.inl rfl
  · exact Or.inr rfl

/-- What was outstanding under a tag is so no more after the queue was delivered without it. -/
theorem Sound.notMem_unacked (hs : s.Sound) {q : Queue β} (hq : s.queue? name = some q)
    {e : Nat × Unacked β} (he : e ∈ q.unacked) (howner : e.2.owner = tag) :
    e ∉ (s.dispatching (q.without tag)).run.queue.unacked := by
  intro hafter
  have hissued : e.1 ≤ s.lastTag :=
    (hs.queue name q hq).issued e.1 (List.mem_map.mpr ⟨e, he, rfl⟩)
  -- The dispatch gives out new delivery tags, so this one would have to be kept.
  rcases (s.dispatching (q.without tag)).run_tags (List.mem_map.mpr ⟨e, hafter, rfl⟩) with
    hold | hnew
  · obtain ⟨x, hx, hsame⟩ := List.mem_map.mp hold
    obtain ⟨hin, hnot⟩ := Queue.mem_without_unacked.mp hx
    obtain rfl := hs.unacked_inj hq hin he hsame
    exact hnot howner
  · have hlate : s.lastTag < e.1 := hnew
    omega

/-- A cancellation ends all registrations with its tag, and nothing stays outstanding with
    them. -/
theorem cancel_ends (hs : s.Sound) (htag : r.tag = tag) (hr : s.Registered name r) :
    s.Ends (s.cancel name tag) name r := by
  obtain ⟨q, hq, heq | heq⟩ := cancel_of_registered htag hr
  · have hnone : (s.cancel name tag).queue? name = none := by
      rw [heq, queue?, Table.get?_erase, if_pos rfl]
    constructor
    · rintro ⟨q', hq', -⟩
      simp [hnone] at hq'
    · rintro e - ⟨q', hq', -⟩
      simp [hnone] at hq'
  · have hafter : (s.cancel name tag).queue? name =
        some (s.dispatching (q.without tag)).run.queue := by
      rw [heq, queue?_deliver, if_pos rfl]
    constructor
    · rintro ⟨q', hq', hmem⟩
      obtain rfl := Option.some.inj (hafter.symm.trans hq')
      have hkept : r ∈ (q.without tag).consumers :=
        (s.dispatching (q.without tag)).run_consumers_sublist.mem hmem
      exact (Queue.mem_without_consumers.mp hkept).2 htag
    · rintro e ⟨q₀, hq₀, he, howner⟩ ⟨q', hq', he', -⟩
      obtain rfl := Option.some.inj (hq.symm.trans hq₀)
      obtain rfl := Option.some.inj (hafter.symm.trans hq')
      exact hs.notMem_unacked hq he (howner.trans htag) he'

/-- Delivering a queue without a tag spares its consumers of other tags. If they have closed their
    streams, the dispatch may sweep them out. -/
theorem spares_deliver (hs : s.Sound) {q : Queue β} (hq : s.queue? name = some q)
    (htag : r.tag ≠ tag) (hr : s.Registered name r) :
    s.Spares (s.deliver name (q.without tag)) name r := by
  have hafter : (s.deliver name (q.without tag)).queue? name =
      some (s.dispatching (q.without tag)).run.queue := by
    rw [queue?_deliver, if_pos rfl]
  have hsweeps : (s.dispatching (q.without tag)).Sweeps (s.dispatching (q.without tag)).run :=
    Dispatching.run_sweeps _ fun r hr =>
      (hs.queue name q hq).fed r (Queue.mem_without_consumers.mp hr).1
  constructor
  · obtain ⟨q', hq', hmem⟩ := hr
    obtain rfl := Option.some.inj (hq.symm.trans hq')
    have hstay : r ∈ (q.without tag).consumers := Queue.mem_without_consumers.mpr ⟨hmem, htag⟩
    exact (hsweeps.stays r hstay).imp_left fun h => ⟨_, hafter, h⟩
  · rintro e ⟨q', hq', he, howner⟩
    obtain rfl := Option.some.inj (hq.symm.trans hq')
    have hstay : e ∈ (q.without tag).unacked :=
      Queue.mem_without_unacked.mpr ⟨he, howner ▸ htag⟩
    rcases hsweeps.outstanding e hstay with hkept | ⟨r', hr', htag', hclosed⟩
    · exact Or.inl ⟨_, hafter, hkept, howner⟩
    · have hbefore : s.Registered name r' := ⟨q, hq, (Queue.mem_without_consumers.mp hr').1⟩
      exact Or.inr ⟨r', hbefore, htag'.trans howner, hclosed⟩

/-- A cancellation leaves the consumers of other queues and of other tags alone, but for those that
    have closed their streams. -/
theorem cancel_spares (hs : s.Sound) {other : String} (hother : other ≠ name ∨ r.tag ≠ tag)
    (hr : s.Registered other r) : s.Spares (s.cancel name tag) other r := by
  have hsame (h : (s.cancel name tag).queue? other = s.queue? other) :
      s.Spares (s.cancel name tag) other r := by
    refine ⟨Or.inl ?_, fun e he => Or.inl ?_⟩
    · rwa [Registered, h]
    · rwa [Outstanding, h]
  rcases cancel_cases s name tag with heq | ⟨q, hq, ⟨hlast, -, heq⟩ | heq⟩
  · exact hsame (by rw [heq])
  · by_cases hname : other = name
    · -- The queue goes only if nobody with another tag is registered.
      subst hname
      obtain ⟨q', hq', hmem⟩ := hr
      obtain rfl := Option.some.inj (hq.symm.trans hq')
      have htag : r.tag ≠ tag := hother.resolve_left (fun h => h rfl)
      have hstay : r ∈ (q.without tag).consumers := Queue.mem_without_consumers.mpr ⟨hmem, htag⟩
      simp [hlast] at hstay
    · exact hsame (by rw [heq, queue?, Table.get?_erase, if_neg (Ne.symm hname)]; rfl)
  · by_cases hname : other = name
    · subst hname
      rw [heq]
      exact spares_deliver hs hq (hother.resolve_left (fun h => h rfl)) hr
    · exact hsame (by rw [heq, queue?_deliver, if_neg (Ne.symm hname)])

end State

/-! ## Dropping a consumer -/

open State

variable {calls : List (Call β)} {c : Consumer}

/-- What a consumer takes along when it leaves, at any time after it was handed out. Its
    stream tells it from all other consumers that were ever handed out, and every registration
    is that of one of them; the one with its stream is its own. Closing the stream touches no
    queue. The cancellation then ends another consumer's registration, and returns all that is
    outstanding with it, if that consumer is on the same queue under the same tag. Any other
    consumer stays, with what is outstanding with it, or has closed its own stream. So no other
    consumer that still listens is ended exactly when none on the queue has the tag. -/
theorem leaving_ends_tag (hc : Issued calls c) :
    (∀ d, Issued calls d → d.stream = c.stream → d = c) ∧
    (∀ name r, (run calls).Registered name r → Issued calls ⟨r.tag, name, r.stream⟩) ∧
    (∀ name r, (run calls).Registered name r → r.stream = c.stream →
      name = c.queue ∧ r.tag = c.tag) ∧
    ((run calls).closeStream c).queues = (run calls).queues ∧
    (∀ name r, (run calls).Registered name r → r.stream ≠ c.stream →
      (name = c.queue → r.tag = c.tag →
        (run calls).Ends ((run calls).cancel c.queue c.tag) name r) ∧
      (name ≠ c.queue ∨ r.tag ≠ c.tag →
        (run calls).Spares ((run calls).cancel c.queue c.tag) name r)) ∧
    ((∀ name r, (run calls).Registered name r → r.stream ≠ c.stream →
        ¬(run calls).streams.Closed r.stream →
        ((run calls).cancel c.queue c.tag).Registered name r) ↔
      ∀ r, (run calls).Registered c.queue r → r.stream ≠ c.stream →
        ¬(run calls).streams.Closed r.stream → r.tag ≠ c.tag) := by
  have hs := run_sound calls
  refine ⟨fun d hd => issued_inj hc hd, fun name r => issued_of_registered,
    fun name r hr => hc.own hr, closeStream_queues _ c, fun name r hr hne => ⟨?_, ?_⟩, ?_⟩
  · rintro rfl htag
    exact cancel_ends hs htag hr
  · intro hother
    exact cancel_spares hs hother hr
  · constructor
    · intro hspared r hr hne hopen htag
      obtain ⟨hgone, -⟩ := cancel_ends hs htag hr
      exact hgone (hspared c.queue r hr hne hopen)
    · intro hunique name r hr hne hopen
      have hother : name ≠ c.queue ∨ r.tag ≠ c.tag := by
        by_cases hname : name = c.queue
        · subst hname
          exact Or.inr (hunique r hr hne hopen)
        · exact Or.inl hname
      obtain ⟨hstays, -⟩ := cancel_spares hs hother hr
      exact hstays.resolve_right hopen

/-- A consumer outlives a stop of the broker, and its tag is given to another one, which is
    then handed a message. -/
def staleDrop : List (Call String) :=
  [.start, .declare { name := "q" }, .consume { queue := "q", consumer := "t" }, .stop, .start,
    .consume { queue := "q", consumer := "t" }, .publish { routingKey := "q" } "m",
    .close ⟨"t", "q", 0⟩]

/-- The old consumer is dropped: the registration of the new one goes, and its message waits
    again. -/
theorem staleDrop_ends_other :
    Issued staleDrop ⟨"t", "q", 0⟩ ∧ Issued staleDrop ⟨"t", "q", 1⟩ ∧
      ∃ r : Registration, r.stream = 1 ∧ (run staleDrop).Registered "q" r ∧
        ¬(run staleDrop).streams.Closed 1 ∧
        (∃ e, (run staleDrop).Outstanding "q" r e) ∧
        ¬((run staleDrop).cancel "q" "t").Registered "q" r ∧
        ∀ e, ¬((run staleDrop).cancel "q" "t").Outstanding "q" r e := by
  have hbefore : (run staleDrop).queue? "q" =
      some { settings := { name := "q" }, ready := [], consumers := [⟨"t", false, false, 1⟩],
             cursor := 1,
             unacked := [(1, ⟨"t", ⟨"m", "application/json", "q", false⟩⟩)] } := by cbv
  have hstreams : (run staleDrop).streams[1]? =
      some { closed := false,
             waiting := [⟨⟨"m", "application/json", "q", false⟩, 1⟩] } := by cbv
  have hafter : ((run staleDrop).cancel "q" "t").queue? "q" =
      some { settings := { name := "q" }, ready := [⟨"m", "application/json", "q", true⟩],
             consumers := [], cursor := 1, unacked := [] } := by cbv
  refine ⟨⟨staleDrop.take 2, _, staleDrop.drop 3, rfl, by cbv⟩,
    ⟨staleDrop.take 5, _, staleDrop.drop 6, rfl, by cbv⟩, ⟨"t", false, false, 1⟩, rfl,
    ⟨_, hbefore, List.mem_singleton.mpr rfl⟩, ?_, ⟨_, _, hbefore, List.mem_singleton.mpr rfl, rfl⟩,
    ?_, ?_⟩
  · rintro ⟨stream, hstream, hclosed⟩
    obtain rfl := Option.some.inj (hstreams.symm.trans hstream)
    simp at hclosed
  · rintro ⟨q, hq, hr⟩
    obtain rfl := Option.some.inj (hafter.symm.trans hq)
    simp at hr
  · rintro e ⟨q, hq, he, -⟩
    obtain rfl := Option.some.inj (hafter.symm.trans hq)
    simp at he

/-- Two consumers of different tags; the one that was handed the message stays. -/
def twoTags : List (Call String) :=
  [.start, .declare { name := "q" }, .consume { queue := "q", consumer := "t" },
    .consume { queue := "q", consumer := "u" }, .publish { routingKey := "q" } "m",
    .publish { routingKey := "q" } "n", .close ⟨"t", "q", 0⟩]

/-- A consumer that leaves does not end one of another tag. -/
theorem twoTags_spares :
    Issued twoTags ⟨"t", "q", 0⟩ ∧
      (run twoTags).Registered "q" ⟨"u", false, false, 1⟩ ∧
      ((run twoTags).cancel "q" "t").Registered "q" ⟨"u", false, false, 1⟩ := by
  have hc : Issued twoTags ⟨"t", "q", 0⟩ :=
    ⟨twoTags.take 2, _, twoTags.drop 3, rfl, by cbv⟩
  have hstreams : (run twoTags).streams[1]? =
      some { closed := false,
             waiting := [⟨⟨"n", "application/json", "q", false⟩, 2⟩] } := by cbv
  have hbefore : (run twoTags).queue? "q" =
      some { settings := { name := "q" }, ready := [],
             consumers := [⟨"t", false, false, 0⟩, ⟨"u", false, false, 1⟩], cursor := 2,
             unacked := [(1, ⟨"t", ⟨"m", "application/json", "q", false⟩⟩),
               (2, ⟨"u", ⟨"n", "application/json", "q", false⟩⟩)] } := by cbv
  have hopen : ¬(run twoTags).streams.Closed 1 := by
    rintro ⟨stream, hstream, hclosed⟩
    obtain rfl := Option.some.inj (hstreams.symm.trans hstream)
    simp at hclosed
  have hr : (run twoTags).Registered "q" ⟨"u", false, false, 1⟩ :=
    ⟨_, hbefore, List.mem_cons_of_mem _ (List.mem_singleton.mpr rfl)⟩
  obtain ⟨-, -, -, -, hothers, -⟩ := leaving_ends_tag hc
  obtain ⟨-, hspares⟩ := hothers "q" _ hr (by decide)
  obtain ⟨hstays, -⟩ := hspares (Or.inr (by decide))
  exact ⟨hc, hr, hstays.resolve_right hopen⟩

end Almanac.Broker
