/-
  Almanac.Proofs.Broker.Terminating

  The dispatch loop ends on every queue, also on one that no run of the broker leads to. Consumers
  may share a tag, the cursor may stand anywhere, deliveries may be unsettled under tags that are
  still to be given out, and clients close and empty their streams without asking the broker, so
  they may do it between any two passes of the loop. `Pass` is one pass under these conditions.

  Neither consumers nor ready messages go down all the time. A pass that drops a consumer puts the
  message it took back in front, and all that the consumer held with it, so the ready messages
  become more (`Pass.dropped_or`). The pair of the two goes down in lexicographic order
  (`Pass.rank_lt`). No more than all messages of the queue can be ready, and these never become
  more; with that bound the pair folds into one number, the `budget`. It bounds how many passes
  there are and how many delivery tags they use up (`Pass.spends`).
-/
import Almanac.Proofs.Broker.Run
import Mathlib.Logic.Relation
import Mathlib.Tactic.ByContra

namespace Almanac.Broker

variable {β : Type}

/-- Returning deliveries makes the ready messages more by those that go back. -/
theorem Queue.requeueIf_ready_length (q : Queue β) (p : Nat → Unacked β → Bool) :
    (q.requeueIf p).ready.length = q.ready.length + q.unacked.countP fun (t, u) => p t u := by
  rw [requeueIf_ready, List.length_append, List.length_map, ← List.countP_eq_length_filter,
    Nat.add_comm]

/-- Returning deliveries leaves the number of messages as it is. -/
theorem Queue.requeueIf_length (q : Queue β) (p : Nat → Unacked β → Bool) :
    (q.requeueIf p).ready.length + (q.requeueIf p).unacked.length =
      q.ready.length + q.unacked.length := by
  have hlength := (q.requeueIf_labels_perm p).length_eq
  simpa only [labels, readyLabels, unackedLabels, List.length_append, List.length_map] using hlength

namespace Dispatching

/-! ## Passes -/

/-- What one pass of the loop can do to a queue in any state. The pass meets the streams as the
    clients have `left` them. Of what it writes down about a delivery only so much counts: there is
    one entry more at most, since one for a tag that is taken replaces the entry that was there. -/
inductive Pass : Dispatching β → Dispatching β → Prop
  /-- The stream of the consumer is closed: the consumer is dropped. -/
  | dropped {d : Dispatching β} {message ready index consumer} {left : Streams β}
      (hready : d.queue.ready = message :: ready)
      (hindex : index = d.queue.cursor % d.queue.consumers.length)
      (hconsumer : d.queue.consumers[index]? = some consumer)
      (hclosed : left.offer consumer.stream { message with tag := d.lastTag + 1 } = none) :
      Pass d ⟨d.lastTag + 1, left, d.afterLoss index consumer⟩
  /-- The message goes to the consumer. -/
  | handed {d : Dispatching β} {message ready index consumer} {left streams : Streams β}
      {unacked : List (Nat × Unacked β)}
      (hready : d.queue.ready = message :: ready)
      (hindex : index = d.queue.cursor % d.queue.consumers.length)
      (hconsumer : d.queue.consumers[index]? = some consumer)
      (hoffer : left.offer consumer.stream { message with tag := d.lastTag + 1 } = some streams)
      (hunacked : unacked.length ≤ d.queue.unacked.length + 1) :
      Pass d ⟨d.lastTag + 1, streams, { d.queue with cursor := index + 1, ready, unacked }⟩

/-- A round of a dispatch is a pass before which the clients do nothing. -/
theorem Round.pass {d e : Dispatching β} (h : Round d e) : Pass d e := by
  cases h with
  | lost hready hindex hconsumer hclosed => exact Pass.dropped hready hindex hconsumer hclosed
  | @handed message ready index consumer streams hready hindex hconsumer hoffer =>
      refine Pass.handed hready hindex hconsumer hoffer ?_
      -- One that takes deliveries as acknowledged leaves no entry.
      split
      · omega
      · simp only [List.length_append, List.length_singleton]
        omega

/-- A queue with a message and a consumer has a pass to make, and no other queue has. -/
theorem exists_pass_iff (d : Dispatching β) : (∃ e, Pass d e) ↔ ¬d.Finished := by
  constructor
  · rintro ⟨e, hpass⟩ (hready | hconsumers)
    · cases hpass <;> simp_all
    · cases hpass <;> simp_all
  · intro hunfinished
    rcases run_cases d with ⟨hfin, -⟩ | ⟨e, hround, -⟩
    · exact (hunfinished hfin).elim
    · exact ⟨e, hround.pass⟩

/-! ## What goes down -/

/-- How many consumers there are, and how many ready messages. -/
def rank (d : Dispatching β) : Nat × Nat := (d.queue.consumers.length, d.queue.ready.length)

/-- A bound for the passes that are left: for every consumer that may be dropped, all messages may
    become ready again. -/
def budget (d : Dispatching β) : Nat :=
  d.queue.consumers.length * (d.queue.ready.length + d.queue.unacked.length + 1) +
    d.queue.ready.length

variable {d e : Dispatching β}

/-- A pass either drops a consumer, and then all that it held is ready again; or it keeps all
    consumers, and there is one ready message less. -/
theorem Pass.dropped_or (h : Pass d e) :
    (d.queue.consumers.length = e.queue.consumers.length + 1 ∧
      ∃ gone ∈ d.queue.consumers, e.queue.ready.length =
        d.queue.ready.length + d.queue.unacked.countP (·.2.owner == gone.tag)) ∨
    (d.queue.consumers = e.queue.consumers ∧
      d.queue.ready.length = e.queue.ready.length + 1) := by
  cases h with
  | @dropped message ready index consumer left hready hindex hconsumer hclosed =>
      obtain ⟨hlt, hget⟩ := List.getElem?_eq_some_iff.mp hconsumer
      refine Or.inl ⟨?_, consumer, List.mem_of_getElem hget, Queue.requeueIf_ready_length _ _⟩
      rw [afterLoss_consumers, List.length_eraseIdx, if_pos hlt]
      omega
  | handed hready hindex hconsumer hoffer hunacked =>
      refine Or.inr ⟨rfl, ?_⟩
      rw [hready, List.length_cons]

/-- No pass makes the messages of a queue more. -/
theorem Pass.messages_le (h : Pass d e) :
    e.queue.ready.length + e.queue.unacked.length ≤
      d.queue.ready.length + d.queue.unacked.length := by
  cases h with
  | dropped hready hindex hconsumer hclosed =>
      exact Nat.le_of_eq (Queue.requeueIf_length _ _)
  | handed hready hindex hconsumer hoffer hunacked =>
      rw [hready, List.length_cons]
      dsimp only
      omega

/-- Every pass takes away a consumer, or a ready message. -/
theorem Pass.rank_lt (h : Pass d e) : Prod.Lex (· < ·) (· < ·) e.rank d.rank := by
  rcases h.dropped_or with ⟨hconsumers, -⟩ | ⟨hconsumers, hready⟩
  · apply Prod.Lex.left
    omega
  · unfold rank
    rw [hconsumers]
    apply Prod.Lex.right
    omega

/-- Every pass counts the delivery tag up, and takes at least one from the budget. -/
theorem Pass.spends (h : Pass d e) : e.lastTag = d.lastTag + 1 ∧ e.budget < d.budget := by
  refine ⟨by cases h <;> rfl, ?_⟩
  have hmessages := h.messages_le
  -- The consumers that stay ask for no more than before.
  have hshare : e.queue.consumers.length *
        (e.queue.ready.length + e.queue.unacked.length + 1) ≤
      e.queue.consumers.length * (d.queue.ready.length + d.queue.unacked.length + 1) :=
    Nat.mul_le_mul_left _ (by omega)
  unfold budget
  rcases h.dropped_or with ⟨hconsumers, -⟩ | ⟨hconsumers, hready⟩
  · -- The share of the one that goes pays for all messages that can be ready after it.
    rw [hconsumers, Nat.succ_mul]
    omega
  · rw [hconsumers]
    omega

/-! ## Whole dispatches -/

/-- Tags and budget are in balance, however many passes there are. -/
theorem lastTag_add_budget_le (h : Relation.ReflTransGen Pass d e) :
    e.lastTag + e.budget ≤ d.lastTag + d.budget := by
  induction h with
  | refl => exact Nat.le_refl _
  | tail hpath hpass ih =>
      obtain ⟨htag, hbudget⟩ := hpass.spends
      omega

/-- As long as every step of a path is a pass, the budget pays for the steps. -/
theorem add_budget_le {path : Nat → Dispatching β} {n : Nat}
    (h : ∀ k < n, Pass (path k) (path (k + 1))) : n + (path n).budget ≤ (path 0).budget := by
  induction n with
  | zero => omega
  | succ n ih =>
      have hbefore := ih fun k hk => h k (by omega)
      have hlast := (h n (by omega)).spends.2
      omega

/-- No path goes on for longer than its budget. -/
theorem exists_not_pass (path : Nat → Dispatching β) :
    ∃ n ≤ (path 0).budget, ¬Pass (path n) (path (n + 1)) := by
  by_contra hendless
  have hall : ∀ k < (path 0).budget + 1, Pass (path k) (path (k + 1)) := by
    intro k hk
    by_contra hnot
    exact hendless ⟨k, by omega, hnot⟩
  have hpaid := add_budget_le hall
  omega

/-- A dispatch makes its rounds one after the other. -/
theorem rounds_run (d : Dispatching β) : Relation.ReflTransGen Round d d.run := by
  induction d using run_induction with
  | finished d hfin hrun => rw [hrun]
  | round d e hround hrun ih =>
      rw [hrun]
      exact Relation.ReflTransGen.head hround ih

end Dispatching

open Dispatching

/-- A dispatch begins with what the broker has, and puts back what is left of the queue. -/
theorem State.queue?_dispatch {s : State β} {name : String} {q : Queue β}
    (hq : s.queue? name = some q) :
    (s.dispatch name).queue? name = some (s.dispatching q).run.queue := by
  unfold dispatch
  rw [hq]
  exact (s.queue?_setQueue _ _ _).trans (if_pos rfl)

/-- The dispatch loop ends, whatever the queue holds and whatever the clients do to their streams
    while it is running. Every pass makes the pair of consumers and ready messages smaller, though
    one that drops a consumer makes the ready messages more by all that the consumer held. So no
    path of passes is longer than the budget of the queue, and a counter of delivery tags with so
    much room does not overflow. There is a pass to make as long as there are a consumer and a ready
    message. The dispatch of a broker is such a path to its end, after which no consumer is left, or
    no message is ready. -/
theorem dispatch_ends (d : Dispatching β) :
    (∀ e, Pass d e → Prod.Lex (· < ·) (· < ·)
      (e.queue.consumers.length, e.queue.ready.length)
      (d.queue.consumers.length, d.queue.ready.length)) ∧
    (∀ e, Pass d e → e.queue.consumers.length < d.queue.consumers.length →
      ∃ gone ∈ d.queue.consumers, e.queue.ready.length =
        d.queue.ready.length + d.queue.unacked.countP (·.2.owner == gone.tag)) ∧
    (∀ path : Nat → Dispatching β, path 0 = d →
      ∃ n ≤ d.budget, ¬Pass (path n) (path (n + 1))) ∧
    (∀ e, Relation.ReflTransGen Pass d e → e.lastTag + e.budget ≤ d.lastTag + d.budget) ∧
    ((¬∃ e, Pass d e) ↔ d.queue.consumers = [] ∨ d.queue.ready = []) ∧
    Relation.ReflTransGen Round d d.run ∧ Relation.ReflTransGen Pass d d.run ∧
    (d.run.queue.consumers = [] ∨ d.run.queue.ready = []) ∧
    ∀ (s : State β) (name : String), s.dispatching d.queue = d → s.queue? name = some d.queue →
      (s.dispatch name).queue? name = some d.run.queue := by
  refine ⟨fun e hpass => hpass.rank_lt, fun e hpass hlt => ?_, ?_,
    fun e hpath => lastTag_add_budget_le hpath, ?_, d.rounds_run,
    Relation.ReflTransGen.mono (fun _ _ hround => hround.pass) _ _ d.rounds_run,
    d.run_finished.symm, ?_⟩
  · rcases hpass.dropped_or with ⟨-, hheld⟩ | ⟨hconsumers, -⟩
    · exact hheld
    · rw [hconsumers] at hlt
      omega
  · rintro path rfl
    exact exists_not_pass path
  · rw [exists_pass_iff, not_not]
    exact or_comm
  · intro s name hbegin hq
    rw [State.queue?_dispatch hq, hbegin]

/-- No run leads to this queue: its two consumers share a tag, and the next tag to be given out is
    taken by a delivery that is listed behind one with a greater tag. The turn is with the consumer
    that has closed its stream. -/
def tangled : Dispatching String where
  lastTag := 3
  streams := [{ closed := true }, {}]
  queue :=
    { settings := { name := "q" }
      ready := [⟨"m", "text/plain", "q", false⟩]
      consumers := [⟨"t", false, false, 0⟩, ⟨"t", false, false, 1⟩]
      cursor := 4
      unacked :=
        [(9, ⟨"t", ⟨"n", "text/plain", "q", false⟩⟩), (4, ⟨"t", ⟨"o", "text/plain", "q", false⟩⟩)] }

/-- Its first pass makes one ready message three, and yet the dispatch ends. -/
theorem tangled_dispatch_ends :
    (∃ e, Pass tangled e ∧ e.queue.consumers.length = 1 ∧ e.queue.ready.length = 3 ∧
      Prod.Lex (· < ·) (· < ·) (e.queue.consumers.length, e.queue.ready.length) (2, 1)) ∧
    tangled.budget = 9 ∧ tangled.run.lastTag ≤ 12 ∧
    (tangled.run.queue.consumers = [] ∨ tangled.run.queue.ready = []) ∧
    (State.dispatch ⟨true, 3, 2, [("q", tangled.queue)], tangled.streams⟩ "q").queue? "q" =
      some tangled.run.queue := by
  obtain ⟨hdecreases, hgrows, -, htags, -, -, hpath, hends, hdispatch⟩ := dispatch_ends tangled
  have hpass : Pass tangled ⟨4, tangled.streams, tangled.afterLoss 0 ⟨"t", false, false, 0⟩⟩ :=
    Pass.dropped rfl rfl rfl rfl
  obtain ⟨gone, hgone, hready⟩ := hgrows _ hpass (by decide)
  have hshared : ∀ c ∈ tangled.queue.consumers, c.tag = "t" := by decide
  rw [hshared gone hgone] at hready
  refine ⟨⟨_, hpass, rfl, hready, hdecreases _ hpass⟩, rfl, ?_, hends, hdispatch _ "q" rfl rfl⟩
  have hroom := htags _ hpath
  have hbudget : tangled.budget = 9 := rfl
  have hlast : tangled.lastTag = 3 := rfl
  omega

end Almanac.Broker
