/-
  Almanac.Proofs.Broker.Drained

  A queue between two calls. Either nobody is registered with it or nothing waits in it
  (`Queue.Drained`), and what is unsettled is with consumers that are registered and acknowledge
  by hand (`Queue.Owned`). A call that adds a message, a consumer or a returned delivery ends in a
  dispatch, and a dispatch goes on until one of the two has run out; the other calls add neither
  (`Queue.Drained.kept`).
-/
import Almanac.Proofs.Broker.Owned
import Mathlib

namespace Almanac.Broker

variable {β : Type}

/-- No message waits in a queue that has a consumer. -/
def Queue.Drained (q : Queue β) : Prop := q.consumers ≠ [] → q.ready = []

/-- A dispatch leaves its queue drained. -/
theorem Dispatching.run_drained (d : Dispatching β) : d.run.queue.Drained := by
  intro hconsumers
  rcases d.run_finished with hready | hnobody
  · exact hready
  · exact absurd hnobody hconsumers

/-- Whatever is done to a queue, it is drained after its dispatch. -/
theorem Queue.Drained.kept : Queue.Kept (Queue.Drained : Queue β → Prop) fun _ => True where
  fresh _ hconsumers := absurd rfl hconsumers
  abandoned _ hconsumers := absurd rfl hconsumers
  discard _ _ hq := hq
  push _ _ _ := trivial
  requeue _ _ _ := trivial
  without _ _ _ := trivial
  dispatch d _ := d.run_drained

/-- Every queue is drained. -/
def State.Drained (s : State β) : Prop := ∀ name q, s.queue? name = some q → q.Drained

/-- Every call leaves the queues drained. -/
theorem State.Drained.perform {s : State β} (hs : s.Drained) (hsound : s.Sound) (c : Call β) :
    (s.perform c).Drained :=
  Each.perform Queue.Drained.kept hs hsound.names c fun _ _ _ _ _ _ => trivial

/-- The queues are drained at every point of every run. -/
theorem State.run_drained (calls : List (Call β)) : (State.run calls).Drained := by
  induction calls using List.reverseRecOn with
  | nil => exact State.Each.fresh
  | append_singleton calls c ih =>
      rw [State.run_concat]
      exact ih.perform (State.run_sound calls) c

/-! ## A queue between two calls -/

open State

/-- After every call of every run, a queue with a consumer has nothing waiting, and what is
    unsettled is with a consumer that is registered and acknowledges by hand. So a queue without
    consumers has nothing unsettled. -/
theorem queue_at_rest {calls : List (Call β)} {name : String} {q : Queue β}
    (hq : (run calls).queue? name = some q) :
    (q.consumers ≠ [] → q.ready = []) ∧
    (∀ e ∈ q.unacked, ∃ c ∈ q.consumers, c.tag = e.2.owner ∧ c.autoAck = false) ∧
    (q.consumers = [] → q.unacked = []) := by
  have hdrained : q.Drained := run_drained calls name q hq
  have howned : q.Owned := run_owned calls name q hq
  exact ⟨hdrained, howned, howned.unacked_eq_nil⟩

/-- Two messages wait until a consumer comes; a second consumer, which takes deliveries as
    acknowledged, gets the third. The first consumer returns what it holds, is handed it again
    together with the second one, and closes its stream without cancelling. -/
def closingHolder : List (Call String) :=
  [.start, .declare { name := "q" }, .publish { routingKey := "q" } "m",
    .publish { routingKey := "q" } "n", .consume { queue := "q", consumer := "a" },
    .consume { queue := "q", consumer := "b", autoAck := true },
    .publish { routingKey := "q" } "o", .nack 2 true true, .close ⟨"a", "q", 0⟩]

/-- The consumer that has closed its stream is registered still, and holds one delivery. -/
theorem closingHolder_at_rest :
    ∃ q, (run closingHolder).queue? "q" = some q ∧ q.consumers ≠ [] ∧ q.ready = [] ∧
      (4, ⟨"a", ⟨"m", "application/json", "q", true⟩⟩) ∈ q.unacked ∧
      ∃ c ∈ q.consumers, c.tag = "a" ∧ c.autoAck = false := by
  have hq : (run closingHolder).queue? "q" =
      some { settings := { name := "q" }, ready := [],
             consumers := [⟨"a", false, false, 0⟩, ⟨"b", true, false, 1⟩], cursor := 2,
             unacked := [(4, ⟨"a", ⟨"m", "application/json", "q", true⟩⟩)] } := by cbv
  obtain ⟨hready, howned, -⟩ := queue_at_rest hq
  have hsome : [(⟨"a", false, false, 0⟩ : Registration), ⟨"b", true, false, 1⟩] ≠ [] :=
    List.cons_ne_nil _ _
  exact ⟨_, hq, hsome, hready hsome, List.mem_singleton.mpr rfl,
    howned _ (List.mem_singleton.mpr rfl)⟩

end Almanac.Broker
