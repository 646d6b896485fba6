/-
  Almanac.Proofs.Broker.FirstInFirstOut

  First deliveries are first-in first-out. Over a run whose bodies are numbered by their calls,
  everything that waits and everything that was handed out is in order (`State.Ordered`); a call
  goes on from there by what its journal hands out (`Ordered.perform`).

  This holds within a call as well. `State.Begins` lists the dispatches that a call begins, and
  every round of such a dispatch finds the queue in two blocks. Whatever a call hands out was in
  front of its queue at one of these points (`front_of_journalOf`).
-/
import Almanac.Proofs.Broker.Blocks
import Almanac.Proofs.Broker.Conservation
import Almanac.Proofs.Broker.Recorded

namespace Almanac.Broker

variable {β : Type}

namespace State

variable {s s' : State (Nat × β)} {handed : List (Delivery (Nat × β))} {n n' : Nat}

/-! ## All queues -/

/-- What waits in the queues is in order, and so is what has been handed out, with numbers of calls
    that have been made. -/
structure Ordered (s : State (Nat × β)) (handed : List (Delivery (Nat × β))) (n : Nat) :
    Prop where
  queue : s.Each (Queue.Ordered handed n)
  first : FirstInOrder handed
  known : ∀ x ∈ handed, x.number < n

namespace Ordered

theorem fresh : ({} : State (Nat × β)).Ordered [] 0 where
  queue := Each.fresh
  first before d after h := by simp at h
  known x hx := by simp at hx

theorem congr (h : s.Ordered handed n) (hqueues : s'.queues = s.queues) : s'.Ordered handed n where
  queue := h.queue.congr hqueues
  first := h.first
  known := h.known

theorem mono (h : s.Ordered handed n) (hn : n ≤ n') : s.Ordered handed n' where
  queue name q hq := by
    have hsame : q.Ordered (handed ++ []) n' := (h.queue name q hq).extend hn (by simp)
    rwa [List.append_nil] at hsame
  first := h.first
  known x hx := Nat.lt_of_lt_of_le (h.known x hx) hn

theorem setQueue (h : s.Ordered handed n) {name : String} {r : Queue (Nat × β)}
    (hr : r.Ordered handed n) : (s.setQueue name r).Ordered handed n where
  queue := h.queue.setQueue hr
  first := h.first
  known := h.known

/-- Dispatching a queue that is in order. -/
theorem deliver (h : s.Ordered handed n) (hs : s.Sound) (hn : n ≤ n') {name : String}
    {r : Queue (Nat × β)} (hsound : r.Sound name s.lastTag s.streams.length)
    (hr : r.Ordered handed n') :
    (s.deliver name r).Ordered (handed ++ handedIn (s.dispatching r).journal) n' := by
  have hknown : ∀ x ∈ handed, x.number < n' := (h.mono hn).known
  have hstart : (s.dispatching r).Orderly name handed n' := ⟨hsound, hr, h.first, hknown⟩
  have hend := hstart.run
  refine ⟨?_, hend.first, hend.known⟩
  intro other q hq
  rw [queue?_deliver] at hq
  split at hq
  · obtain rfl := Option.some.inj hq
    exact hend.queue
  · next hother =>
    -- What was handed out has another routing key than what waits here.
    refine (h.queue other q hq).extend hn ?_
    intro x hx m hm hkey
    have hname := Dispatching.routingKey_of_handedIn (d := s.dispatching r) hsound hx
    have hlabel : m.label ∈ q.labels :=
      List.mem_append_left _ (List.mem_map.mpr ⟨m, hm, rfl⟩)
    have hmine : m.routingKey = other := (hs.queue other q hq).keyed _ hlabel
    exact hother (hname.symm.trans (hkey.trans hmine))

theorem requeue (h : s.Ordered handed n) (hs : s.Sound) {name : String} {q : Queue (Nat × β)}
    (hq : s.queue? name = some q) (p : Nat → Unacked (Nat × β) → Bool) :
    (s.deliver name (q.requeueIf p)).Ordered
      (handed ++ handedIn (s.dispatching (q.requeueIf p)).journal) n :=
  h.deliver hs (Nat.le_refl n) ((hs.queue name q hq).requeueIf p)
    ((h.queue name q hq).requeueIf h.known p)

/-! ## The calls -/

theorem stop (h : s.Ordered handed n) (hs : s.Sound) : s.stop.Ordered handed n := by
  unfold State.stop
  split
  · refine ⟨?_, h.first, h.known⟩
    intro name r hr
    -- What is there after a stop was there before, and has been abandoned.
    have hmem := (List.mem_filter.mp (Table.mem_of_get? hr)).1
    obtain ⟨⟨name', q⟩, hq, heq⟩ := List.mem_map.mp hmem
    obtain ⟨rfl, rfl⟩ := Prod.mk.inj heq
    exact (h.queue name' q (Table.get?_of_mem hs.names hq)).abandoned h.known
  · exact h

theorem declare (h : s.Ordered handed n) (settings : QueueSettings) :
    (s.declare settings).2.Ordered handed n := by
  unfold State.declare
  split
  · exact h
  · split
    · exact h
    · exact h.setQueue (.empty settings)

theorem publish (h : s.Ordered handed n) (hs : s.Sound) (settings : PublishSettings)
    {body : Nat × β} (hbody : body.1 = n) :
    (s.publish settings body).2.Ordered
      (handed ++ handedIn (s.journalOf (.publish settings body))) (n + 1) := by
  by_cases hroutes : s.routes settings = true
  · obtain ⟨hconnected, hexchange, q, hq⟩ := routes_iff.mp hroutes
    rw [journalOf, if_pos hroutes, hq, publish_routed body hconnected hexchange hq]
    exact h.deliver hs (Nat.le_succ n) ((hs.queue _ q hq).push rfl)
      ((h.queue _ q hq).push h.known rfl hbody)
  · have hidle : s.routes settings = false := by simpa using hroutes
    rw [journalOf, if_neg hroutes, publish_unrouted body hidle]
    simpa [handedIn] using h.mono (Nat.le_succ n)

theorem consume (h : s.Ordered handed n) (hs : s.Sound) (settings : ConsumeSettings) :
    (s.consume settings).2.Ordered
      (handed ++ handedIn (s.journalOf (.consume settings))) n := by
  rw [journalOf]
  rcases consume_cases s settings with ⟨e, k, heq⟩ | ⟨q, hconnected, hq, hadmits⟩
  · rw [heq]
    have hsame : ({ s with asked := k } : State (Nat × β)).Ordered handed n := h.congr rfl
    simpa [handedIn] using hsame
  · rw [consume_admitted hconnected hq hadmits, hq]
    have hsame : s.withStream.Ordered handed n := h.congr rfl
    exact hsame.deliver hs.withStream (Nat.le_refl n) (hs.joined hq)
      ((h.queue _ q hq).congr rfl rfl)

theorem settle (h : s.Ordered handed n) (hs : s.Sound) (tag : Nat) (multiple : Bool)
    (how : Settlement) :
    (s.settle tag multiple how).2.Ordered
      (handed ++ handedIn (s.journalOfSettle tag multiple how)) n := by
  rcases settle_cases s tag multiple how with
    ⟨heq, hnone⟩ | ⟨name, q, owner, hconnected, hholder, heq⟩
  · have hempty : s.journalOfSettle tag multiple how = [] := by
      rcases hnone with hclosed | hnone
      · simp [journalOfSettle, hclosed]
      · simp [journalOfSettle, hnone]
    rw [heq, hempty]
    simpa [handedIn] using h
  · obtain ⟨hq, -⟩ := holder?_eq_some hs.names hholder
    rw [heq, journalOfSettle, if_pos hconnected, hholder]
    cases how with
    | requeue =>
        dsimp only
        rw [handedIn_returned_append]
        exact h.requeue hs hq _
    | discard =>
        dsimp only
        rw [handedIn_settled, List.append_nil]
        exact h.setQueue ((h.queue name q hq).discardIf _)

theorem recoverQueue (h : s.Ordered handed n) (hs : s.Sound) (name : String) :
    (s.recoverQueue name).Ordered (handed ++ handedIn (s.journalOfReturn name)) n := by
  rw [journalOfReturn, recoverQueue_eq]
  cases hq : s.queue? name with
  | none => simpa [handedIn] using h
  | some q =>
      dsimp only
      rw [handedIn_returned_append]
      exact h.requeue hs hq _

theorem recoverIn (h : s.Ordered handed n) (hs : s.Sound) (order : List String) :
    (s.recoverIn order).Ordered (handed ++ handedIn (s.journalOf (.recover order))) n := by
  rw [journalOf, State.recoverIn]
  split
  · next hconnected =>
    clear hconnected
    induction order generalizing s handed with
    | nil => simpa [journalOfRecover, handedIn] using h
    | cons name order ih =>
        have hrest := ih (h.recoverQueue hs name) (hs.recoverQueue name)
        rwa [List.append_assoc, ← handedIn_append] at hrest
  · simpa [handedIn] using h

theorem cancel (h : s.Ordered handed n) (hs : s.Sound) (name tag : String) :
    (s.cancel name tag).Ordered (handed ++ handedIn (s.journalOfCancel name tag)) n := by
  rw [journalOfCancel, cancel_eq]
  cases hq : s.queue? name with
  | none => simpa [handedIn] using h
  | some q =>
      dsimp only
      split
      · simpa [handedIn] using h
      · rw [handedIn_returned_append]
        split
        · have hgone : ({ s with queues := s.queues.erase name } : State (Nat × β)).Ordered
              handed n := ⟨h.queue.erase name, h.first, h.known⟩
          simpa [handedIn] using hgone
        · exact h.deliver hs (Nat.le_refl n) ((hs.queue name q hq).without tag)
            ((h.queue name q hq).without h.known tag)

/-- Every call keeps the order, with what its journal hands out. -/
theorem perform (h : s.Ordered handed n) (hs : s.Sound) {c : Call (Nat × β)}
    (hnumber : ∀ settings body, c = .publish settings body → body.1 = n) :
    (s.perform c).Ordered (handed ++ handedIn (s.journalOf c)) (n + 1) := by
  have hn := Nat.le_succ n
  have hquiet (hqueues : (s.perform c).queues = s.queues) (hjournal : s.journalOf c = []) :
      (s.perform c).Ordered (handed ++ handedIn (s.journalOf c)) (n + 1) := by
    rw [hjournal]
    simpa [handedIn] using (h.congr hqueues).mono hn
  cases c with
  | start => exact hquiet rfl rfl
  | stop =>
      have hstop := (h.stop hs).mono hn
      rw [State.perform, journalOf]
      split
      · simpa using hstop
      · simpa [handedIn] using hstop
  | declare settings =>
      rw [State.perform]
      simpa [journalOf, handedIn] using (h.declare settings).mono hn
  | publish settings body => exact h.publish hs settings (hnumber settings body rfl)
  | consume settings => exact (h.consume hs settings).mono hn
  | ack tag multiple => exact (h.settle hs tag multiple .discard).mono hn
  | nack tag multiple requeue => exact (h.settle hs tag multiple _).mono hn
  | recover order => exact (h.recoverIn hs order).mono hn
  | receive c =>
      refine hquiet ?_ rfl
      rcases receive_cases s c with ⟨heq, -⟩ | ⟨stream, d, waiting, -, -, heq⟩
      · rw [State.perform, heq]
      · rw [State.perform, heq]
  | close c =>
      refine hquiet ?_ rfl
      rw [State.perform, closeStream]
      split <;> rfl
  | cancel name tag => exact (h.cancel hs name tag).mono hn

end Ordered

/-- A numbered call publishes under its number. -/
theorem number_of_map (c : Call β) (n : Nat) (settings : PublishSettings) (body : Nat × β)
    (h : (c.map fun body => (n, body)) = .publish settings body) : body.1 = n := by
  cases c with
  | publish settings' body' =>
      obtain ⟨-, rfl⟩ := Call.publish.inj h
      rfl
  | _ => simp [Call.map] at h

/-- At every point of a numbered run, everything is in order. -/
theorem run_ordered (calls : List (Call β)) :
    (run (numbered calls)).Ordered (handedIn (journal (numbered calls))) calls.length := by
  induction calls using List.reverseRecOn with
  | nil => exact Ordered.fresh
  | append_singleton calls c ih =>
      rw [numbered_concat, run_concat, journal_concat, handedIn_append, List.length_append]
      exact ih.perform (run_sound _) (number_of_map c _)

/-! ## Within a call -/

/-- The dispatches that a call begins. -/
inductive Begins (s : State β) : Call β → Dispatching β → Prop
  | published {settings : PublishSettings} {body : β} {q : Queue β}
      (hconnected : s.connected = true) (hexchange : settings.exchange.isEmpty = true)
      (hq : s.queue? settings.routingKey = some q) :
      Begins s (.publish settings body)
        (s.dispatching { q with ready := q.ready ++ [message settings body] })
  | consumed {settings : ConsumeSettings} {q : Queue β} (hconnected : s.connected = true)
      (hq : s.queue? settings.queue = some q) (hadmits : q.admits settings = true) :
      Begins s (.consume settings)
        (s.withStream.dispatching
          { q with consumers := q.consumers ++ [s.registration q settings] })
  | returned {tag : Nat} {multiple : Bool} {name : String} {q : Queue β} {owner : String}
      (hconnected : s.connected = true) (hholder : s.holder? tag = some (name, q, owner)) :
      Begins s (.nack tag multiple true)
        (s.dispatching (q.requeueIf (covers tag multiple owner)))
  /-- By then the queues in front of it have been recovered. -/
  | recovered {first rest : List String} {name : String} {q : Queue β}
      (hconnected : s.connected = true) (hq : (s.recoverIn first).queue? name = some q) :
      Begins s (.recover (first ++ name :: rest))
        ((s.recoverIn first).dispatching (q.requeueIf fun _ _ => true))
  | cancelled {name tag : String} {q : Queue β} (hq : s.queue? name = some q)
      (hgoes : (q.without tag).consumers.length ≠ q.consumers.length)
      (hstays : ((q.without tag).consumers.isEmpty && q.settings.autoDelete) = false) :
      Begins s (.cancel name tag) (s.dispatching (q.without tag))

/-- A call begins its dispatches with queues that are in order. -/
theorem Begins.orderly (h : s.Ordered handed n) (hs : s.Sound) {c : Call (Nat × β)}
    {d : Dispatching (Nat × β)} (hbegins : s.Begins c d)
    (hnumber : ∀ settings body, c = .publish settings body → body.1 = n) :
    ∃ name handed', d.Orderly name handed' (n + 1) := by
  have hmono := h.mono (Nat.le_succ n)
  cases hbegins with
  | @published settings body q hconnected hexchange hq =>
      refine ⟨_, handed, (hs.queue _ q hq).push rfl, ?_, h.first, hmono.known⟩
      exact (h.queue _ q hq).push h.known rfl (hnumber settings body rfl)
  | @consumed settings q hconnected hq hadmits =>
      exact ⟨_, handed, hs.joined hq, (hmono.queue _ q hq).congr rfl rfl, h.first, hmono.known⟩
  | @returned tag multiple name q owner hconnected hholder =>
      obtain ⟨hq, -⟩ := holder?_eq_some hs.names hholder
      exact ⟨name, handed, (hs.queue name q hq).requeueIf _,
        (hmono.queue name q hq).requeueIf hmono.known _, h.first, hmono.known⟩
  | @recovered first rest name q hconnected hq =>
      -- The broker is as after a recovery of the queues in front.
      have hearlier := hmono.recoverIn hs first
      have hsound : (s.recoverIn first).Sound := hs.perform (.recover first)
      exact ⟨name, _, (hsound.queue name q hq).requeueIf fun _ _ => true,
        (hearlier.queue name q hq).requeueIf hearlier.known fun _ _ => true, hearlier.first,
        hearlier.known⟩
  | @cancelled name tag q hq hgoes hstays =>
      exact ⟨name, handed, (hs.queue name q hq).without tag,
        (hmono.queue name q hq).without hmono.known tag, h.first, hmono.known⟩

/-- At every point of a call, the queue that is dispatched is in order. -/
theorem Begins.orderly_later (h : s.Ordered handed n) (hs : s.Sound) {c : Call (Nat × β)}
    {d e : Dispatching (Nat × β)} (hbegins : s.Begins c d)
    (hnumber : ∀ settings body, c = .publish settings body → body.1 = n)
    (hpath : Relation.ReflTransGen Dispatching.Round d e) :
    ∃ name handed', e.Orderly name handed' (n + 1) := by
  induction hpath with
  | refl => exact hbegins.orderly h hs hnumber
  | tail _ hround ih =>
      obtain ⟨name, handed', horderly⟩ := ih
      exact ⟨name, hround.orderly horderly⟩

/-- A delivery was in front of its queue at some point of a call. -/
def InFront (s : State β) (c : Call β) (x : Delivery β) (rest : List (Message β)) : Prop :=
  ∃ d e, s.Begins c d ∧ Relation.ReflTransGen Dispatching.Round d e ∧
    e.queue.ready = x.toMessage :: rest

theorem Begins.inFront {s : State β} {c : Call β} {d : Dispatching β} (hbegins : s.Begins c d)
    {x : Delivery β} (hx : x ∈ handedIn d.journal) : ∃ rest, s.InFront c x rest := by
  obtain ⟨e, rest, hpath, hfront⟩ := Dispatching.front_of_handedIn hx
  exact ⟨rest, d, e, hbegins, hpath, hfront⟩

theorem front_of_recover {s : State β} (hconnected : s.connected = true) {x : Delivery β}
    (first rest : List String)
    (hx : x ∈ handedIn ((s.recoverIn first).journalOfRecover rest)) :
    ∃ waiting, s.InFront (.recover (first ++ rest)) x waiting := by
  induction rest generalizing first with
  | nil => simp [journalOfRecover, handedIn] at hx
  | cons name rest ih =>
      rw [journalOfRecover, handedIn_append] at hx
      rcases List.mem_append.mp hx with hx | hx
      · rw [journalOfReturn] at hx
        cases hq : (s.recoverIn first).queue? name with
        | none => simp [hq, handedIn] at hx
        | some q =>
            rw [hq] at hx
            dsimp only at hx
            rw [handedIn_returned_append] at hx
            exact (Begins.recovered hconnected hq).inFront hx
      · -- One more queue has been recovered.
        have hmore : (s.recoverIn first).recoverQueue name = s.recoverIn (first ++ [name]) := by
          simp [recoverIn, hconnected]
        rw [hmore] at hx
        have hlater := ih (first ++ [name]) hx
        rwa [List.append_assoc, List.singleton_append] at hlater

/-- Only a return hands anything out. -/
theorem front_of_settle {s : State β} {tag : Nat} {multiple : Bool} {how : Settlement}
    {x : Delivery β} (hx : x ∈ handedIn (s.journalOfSettle tag multiple how)) :
    how = .requeue ∧ ∃ rest, s.InFront (.nack tag multiple true) x rest := by
  rw [journalOfSettle] at hx
  split at hx
  · next hconnected =>
    cases hholder : s.holder? tag with
    | none => simp [hholder, handedIn] at hx
    | some found =>
        obtain ⟨name, q, owner⟩ := found
        rw [hholder] at hx
        cases how with
        | discard => simp at hx
        | requeue =>
            dsimp only at hx
            rw [handedIn_returned_append] at hx
            exact ⟨rfl, (Begins.returned hconnected hholder).inFront hx⟩
  · simp [handedIn] at hx

/-- Whatever a call hands out was in front of its queue at some point of the call. -/
theorem front_of_journalOf {s : State β} {c : Call β} {x : Delivery β}
    (hx : x ∈ handedIn (s.journalOf c)) : ∃ rest, s.InFront c x rest := by
  cases c with
  | start => simp [journalOf, handedIn] at hx
  | stop =>
      rw [journalOf] at hx
      split at hx
      · simp at hx
      · simp [handedIn] at hx
  | declare settings => simp [journalOf, handedIn] at hx
  | publish settings body =>
      rw [journalOf] at hx
      split at hx
      · next hroutes =>
        obtain ⟨hconnected, hexchange, q, hq⟩ := routes_iff.mp hroutes
        rw [hq] at hx
        exact (Begins.published hconnected hexchange hq).inFront hx
      · simp [handedIn] at hx
  | consume settings =>
      rw [journalOf] at hx
      rcases consume_cases s settings with ⟨e, k, heq⟩ | ⟨q, hconnected, hq, hadmits⟩
      · simp [heq, handedIn] at hx
      · rw [consume_admitted hconnected hq hadmits, hq] at hx
        exact (Begins.consumed hconnected hq hadmits).inFront hx
  | ack tag multiple =>
      rw [journalOf] at hx
      have hreturn := (front_of_settle hx).1
      simp at hreturn
  | nack tag multiple requeue =>
      rw [journalOf] at hx
      cases requeue with
      | false =>
          have hreturn := (front_of_settle hx).1
          simp at hreturn
      | true => exact (front_of_settle hx).2
  | recover order =>
      rw [journalOf] at hx
      split at hx
      · next hconnected =>
        have hnone : s.recoverIn [] = s := by simp [recoverIn]
        exact front_of_recover hconnected [] order (by rwa [hnone])
      · simp [handedIn] at hx
  | receive c => simp [journalOf, handedIn] at hx
  | close c => simp [journalOf, handedIn] at hx
  | cancel name tag =>
      rw [journalOf, journalOfCancel] at hx
      cases hq : s.queue? name with
      | none => simp [hq, handedIn] at hx
      | some q =>
          rw [hq] at hx
          dsimp only at hx
          split at hx
          · simp [handedIn] at hx
          · next hgoes =>
            rw [handedIn_returned_append] at hx
            split at hx
            · simp [handedIn] at hx
            · next hstays =>
              have hcancelled := Begins.cancelled hq (by simpa using hgoes) (by simpa using hstays)
              exact hcancelled.inFront hx

end State

open State

/-- First deliveries are first-in first-out, over every run. The numbers of the calls tell the
    messages apart, and without them the run is the run itself.

    Between two calls, the messages of every queue wait in two blocks, and the ones in front are
    those that have been handed out before. In all that was handed out, a delivery says of itself
    whether its message has been handed out before; where it has not, it was published after all
    the messages of its queue that have been.

    The next call finds the queue that it dispatches in two blocks as well, before each round and
    after the last one. What it hands out was in front of the queue at one of these points, and if
    it has not been handed out before, all that waits behind it has not been either and was
    published later. -/
theorem first_deliveries_in_order (calls : List (Call β)) :
    (run (numbered calls)).map Prod.snd = run calls ∧
    (∀ name q, (run (numbered calls)).queue? name = some q → InBlocks q.ready ∧
      ∀ m ∈ q.ready, m.redelivered = true ↔ HandedOut (handedIn (journal (numbered calls))) m) ∧
    FirstInOrder (handedIn (journal (numbered calls))) ∧
    ∀ next : Call β,
      (∀ d e, (run (numbered calls)).Begins (next.map fun body => (calls.length, body)) d →
        Relation.ReflTransGen Dispatching.Round d e → InBlocks e.queue.ready) ∧
      ∀ x ∈ handedIn ((run (numbered calls)).journalOf
          (next.map fun body => (calls.length, body))),
        ∃ rest, (run (numbered calls)).InFront (next.map fun body => (calls.length, body)) x rest ∧
          (x.redelivered = false → ∀ m ∈ rest, m.redelivered = false ∧ x.number < m.number) := by
  have hs : (run (numbered calls)).Sound := run_sound _
  have hordered := run_ordered calls
  refine ⟨?_, ?_, hordered.first, ?_⟩
  · have hsame := run_numbered calls
    rwa [Ledger.run_state] at hsame
  · intro name q hq
    have horder := hordered.queue name q hq
    refine ⟨inBlocks_iff.mpr horder.blocks, ?_⟩
    intro m hm
    constructor
    · exact horder.repeated m hm
    · rintro ⟨d, hd, hlabel⟩
      obtain ⟨hkey, hsame⟩ := Message.number_eq_of_label hlabel
      by_contra hflag
      have hlt := horder.fresh m hm (by simpa using hflag) d hd hkey
      omega
  · intro next
    constructor
    · intro d e hbegins hpath
      obtain ⟨name, handed, horderly⟩ :=
        hbegins.orderly_later hordered hs (number_of_map next _) hpath
      exact inBlocks_iff.mpr horderly.queue.blocks
    · intro x hx
      obtain ⟨rest, hfront⟩ := front_of_journalOf hx
      refine ⟨rest, hfront, ?_⟩
      intro hflag
      obtain ⟨d, e, hbegins, hpath, hready⟩ := hfront
      obtain ⟨name, handed, horderly⟩ :=
        hbegins.orderly_later hordered hs (number_of_map next _) hpath
      exact horderly.queue.first hready hflag

/-- The message that came back stands in front of the other one, and a new consumer gets both in
    this order. -/
theorem leftBehind_first_in_order :
    ∃ q x rest, (run (numbered leftBehind)).queue? "q" = some q ∧
      q.ready.map (fun m => (m.number, m.redelivered)) = [(2, true), (6, false)] ∧
      InBlocks q.ready ∧ x.number = 6 ∧ x.redelivered = false ∧
      (run (numbered leftBehind)).InFront (.consume { queue := "q", consumer := "b" }) x rest ∧
      ∀ m ∈ rest, m.redelivered = false ∧ 6 < m.number := by
  obtain ⟨-, hqueues, -, hnext⟩ := first_deliveries_in_order leftBehind
  obtain ⟨-, hfront⟩ := hnext (.consume { queue := "q", consumer := "b" })
  have hq : ((run (numbered leftBehind)).queue? "q").map
      (fun q => q.ready.map fun m => (m.number, m.redelivered)) =
        some [(2, true), (6, false)] := by cbv
  obtain ⟨q, hsome, hready⟩ := Option.map_eq_some_iff.mp hq
  have hhanded : handedIn ((run (numbered leftBehind)).journalOf
      (.consume { queue := "q", consumer := "b" })) =
        [⟨⟨(2, "m"), "application/json", "q", true⟩, 2⟩,
          ⟨⟨(6, "n"), "application/json", "q", false⟩, 3⟩] := by cbv
  obtain ⟨rest, hinFront, hbehind⟩ := hfront ⟨⟨(6, "n"), "application/json", "q", false⟩, 3⟩
    (by rw [Call.map, hhanded]; simp)
  exact ⟨q, _, rest, hsome, hready, (hqueues "q" q hsome).1, rfl, rfl, hinFront, hbehind rfl⟩

end Almanac.Broker
