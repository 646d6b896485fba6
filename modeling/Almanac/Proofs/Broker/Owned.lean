/-
  Almanac.Proofs.Broker.Owned

  Every unsettled delivery belongs to a registered consumer (`Queue.OwnedBy`), and to one that
  acknowledges by hand (`Queue.Owned`). So a queue that has no consumers has nothing unsettled.
-/
import Almanac.Proofs.Broker.EachQueue
import Almanac.Proofs.Broker.Sound

namespace Almanac.Broker

variable {β : Type}

/-- Unsettled deliveries belong to registered consumers, and more is known of a consumer and the
    tags of its deliveries. -/
def Queue.OwnedBy (P : Registration → Nat → Prop) (q : Queue β) : Prop :=
  ∀ e ∈ q.unacked, ∃ c ∈ q.consumers, c.tag = e.2.owner ∧ P c e.1

/-- Unsettled deliveries went to consumers that are still there. -/
def Queue.Owned (q : Queue β) : Prop :=
  ∀ e ∈ q.unacked, ∃ c ∈ q.consumers, c.tag = e.2.owner ∧ c.autoAck = false

namespace Queue.OwnedBy

variable {P : Registration → Nat → Prop} {q r : Queue β}

theorem mono (hq : q.OwnedBy P) {P' : Registration → Nat → Prop} (h : ∀ c t, P c t → P' c t) :
    q.OwnedBy P' := by
  intro e he
  obtain ⟨c, hc, htag, hP⟩ := hq e he
  exact ⟨c, hc, htag, h c e.1 hP⟩

/-- A queue that holds fewer deliveries and keeps their owners. -/
theorem shrink (hq : q.OwnedBy P) (hunacked : ∀ e ∈ r.unacked, e ∈ q.unacked)
    (hconsumers : ∀ e ∈ r.unacked, ∀ c ∈ q.consumers, c.tag = e.2.owner → c ∈ r.consumers) :
    r.OwnedBy P := by
  intro e he
  obtain ⟨c, hc, htag, hP⟩ := hq e (hunacked e he)
  exact ⟨c, hconsumers e he c hc htag, htag, hP⟩

theorem requeueIf (hq : q.OwnedBy P) (p : Nat → Unacked β → Bool) : (q.requeueIf p).OwnedBy P := by
  refine hq.shrink (fun e he => ?_) fun _ _ _ hc _ => hc
  rw [Queue.requeueIf_unacked] at he
  exact (List.mem_filter.mp he).1

theorem discardIf (hq : q.OwnedBy P) (p : Nat → Unacked β → Bool) : (q.discardIf p).OwnedBy P :=
  hq.shrink (fun _ he => (List.mem_filter.mp he).1) fun _ _ _ hc _ => hc

theorem without (hq : q.OwnedBy P) (tag : String) : (q.without tag).OwnedBy P := by
  have hmem : ∀ e ∈ (q.without tag).unacked, e ∈ q.unacked ∧ e.2.owner ≠ tag := by
    intro e he
    rw [Queue.without, Queue.requeueIf_unacked] at he
    obtain ⟨hin, howner⟩ := List.mem_filter.mp he
    exact ⟨hin, by simpa using howner⟩
  -- Consumers with another tag are kept, and so are their deliveries.
  refine hq.shrink (fun e he => (hmem e he).1) fun e he c hc htag => ?_
  exact List.mem_filter.mpr ⟨hc, by simpa [htag] using (hmem e he).2⟩

/-- What a lost consumer had not settled goes back with it. -/
theorem afterLoss {d : Dispatching β} (hd : d.queue.OwnedBy P) {index : Nat}
    {consumer : Registration} (hconsumer : d.queue.consumers[index]? = some consumer) :
    (d.afterLoss index consumer).OwnedBy P := by
  have hmem : ∀ e ∈ (d.afterLoss index consumer).unacked,
      e ∈ d.queue.unacked ∧ e.2.owner ≠ consumer.tag := by
    intro e he
    rw [Dispatching.afterLoss, Queue.dropConsumerAt, Queue.requeueIf_unacked] at he
    obtain ⟨hin, howner⟩ := List.mem_filter.mp he
    exact ⟨hin, by simpa using howner⟩
  refine hd.shrink (fun e he => (hmem e he).1) fun e he c hc htag => ?_
  -- An owner of what stays is another consumer, so it is not the one that is erased.
  rw [Dispatching.afterLoss_consumers]
  obtain ⟨i, hi⟩ := List.mem_iff_getElem?.mp hc
  refine List.mem_eraseIdx_iff_getElem?.mpr ⟨i, fun heq => (hmem e he).2 ?_, hi⟩
  rw [heq, hconsumer, Option.some.injEq] at hi
  rw [← htag, hi]

/-- A delivery that is handed out belongs to the consumer that got it. -/
theorem afterHandOut {d : Dispatching β} (hd : d.queue.OwnedBy P) {index : Nat}
    {consumer : Registration} (hconsumer : d.queue.consumers[index]? = some consumer)
    (hP : consumer.autoAck = false → P consumer (d.lastTag + 1)) (message : Message β)
    (ready : List (Message β)) : (d.afterHandOut index consumer message ready).OwnedBy P := by
  intro e he
  cases hauto : consumer.autoAck
  · simp only [Dispatching.afterHandOut, hauto, Bool.false_eq_true, if_false] at he
    rcases List.mem_append.mp he with hold | hnew
    · exact hd e hold
    · rw [List.mem_singleton] at hnew
      subst hnew
      exact ⟨consumer, List.mem_of_getElem? hconsumer, rfl, hP hauto⟩
  · simp only [Dispatching.afterHandOut, hauto, if_true] at he
    exact hd e he

end Queue.OwnedBy

namespace Queue.Owned

variable {q r : Queue β}

/-- It is known of an owner that it acknowledges by hand. -/
theorem iff_ownedBy : q.Owned ↔ q.OwnedBy fun c _ => c.autoAck = false := Iff.rfl

theorem shrink (hq : q.Owned) (hunacked : ∀ e ∈ r.unacked, e ∈ q.unacked)
    (hconsumers : ∀ e ∈ r.unacked, ∀ c ∈ q.consumers, c.tag = e.2.owner → c ∈ r.consumers) :
    r.Owned :=
  (iff_ownedBy.mp hq).shrink hunacked hconsumers

theorem requeueIf (hq : q.Owned) (p : Nat → Unacked β → Bool) : (q.requeueIf p).Owned :=
  (iff_ownedBy.mp hq).requeueIf p

theorem discardIf (hq : q.Owned) (p : Nat → Unacked β → Bool) : (q.discardIf p).Owned :=
  (iff_ownedBy.mp hq).discardIf p

theorem without (hq : q.Owned) (tag : String) : (q.without tag).Owned :=
  (iff_ownedBy.mp hq).without tag

theorem run {d : Dispatching β} (hd : d.queue.Owned) : d.run.queue.Owned := by
  refine Dispatching.run_preserves (P := fun e => e.queue.Owned) ?_ d hd
  intro e f hround he
  rw [iff_ownedBy] at he ⊢
  cases hround with
  | lost hready hindex hconsumer hclosed => exact he.afterLoss hconsumer
  | handed hready hindex hconsumer hoffer => exact he.afterHandOut hconsumer (fun h => h) _ _

end Queue.Owned

/-- Every queue owns its unsettled deliveries. -/
def State.Owned (s : State β) : Prop := ∀ name q, s.queue? name = some q → q.Owned

/-- What is done to a queue takes no owner away, unless the deliveries go back. -/
theorem Queue.Owned.kept : Queue.Kept (Queue.Owned : Queue β → Prop) Queue.Owned where
  fresh _ e he := by simp at he
  abandoned q e he := by
    rw [Queue.abandoned, Queue.requeueIf_unacked] at he
    simp at he
  discard _ p hq := hq.discardIf p
  push _ _ hq := hq.shrink (fun _ he => he) fun _ _ _ hc _ => hc
  requeue _ p hq := hq.requeueIf p
  without _ tag hq := hq.without tag
  dispatch _ hd := hd.run

/-- Every call keeps deliveries with their owners. -/
theorem State.Owned.perform {s : State β} (hs : s.Owned) (hsound : s.Sound) (c : Call β) :
    (s.perform c).Owned := by
  refine Each.perform Queue.Owned.kept hs hsound.names c ?_
  intro settings q _ _ hq _
  exact (hs _ q hq).shrink (fun _ he => he) fun _ _ _ hc _ => List.mem_append_left _ hc

/-- Deliveries are with their owners at every point of every run. -/
theorem State.run_owned (calls : List (Call β)) : (State.run calls).Owned := by
  induction calls using List.reverseRecOn with
  | nil => exact State.Each.fresh
  | append_singleton calls c ih =>
      rw [State.run_concat]
      exact ih.perform (State.run_sound calls) c

/-- A queue without consumers has nothing unsettled. -/
theorem Queue.Owned.unacked_eq_nil {q : Queue β} (hq : q.Owned) (h : q.consumers = []) :
    q.unacked = [] := by
  rw [List.eq_nil_iff_forall_not_mem]
  intro e he
  obtain ⟨c, hc, -⟩ := hq e he
  rw [h] at hc
  simp at hc

end Almanac.Broker
