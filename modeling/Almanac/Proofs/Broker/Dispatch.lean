/-
  Almanac.Proofs.Broker.Dispatch

  A dispatch, round by round. `Round` says everything that one round can do: the next
  message goes to the consumer whose turn it is, or that consumer turns out to be gone.
  `run_preserves` lifts what every round keeps to the whole dispatch, and `run_finished`
  says where a dispatch ends.

  A message is known by its `label`, its routing key and its body; no operation changes
  these. `Queue.labels` are those of all messages that a queue holds, waiting or
  unsettled, and returning deliveries to the front of a queue only permutes them.
-/
import Almanac.Broker.Queue

namespace Almanac.Broker

variable {β : Type}

/-! ## What a queue holds -/

/-- What a message is known by. -/
def Message.label (m : Message β) : String × β := (m.routingKey, m.body)

namespace Queue

/-- The labels of the messages that wait in a queue. -/
def readyLabels (q : Queue β) : List (String × β) := q.ready.map Message.label

/-- The labels of the unsettled deliveries of a queue. -/
def unackedLabels (q : Queue β) : List (String × β) := q.unacked.map fun (_, u) => u.message.label

/-- The labels of all messages of a queue. -/
def labels (q : Queue β) : List (String × β) := q.readyLabels ++ q.unackedLabels

/-- The tags of the unsettled deliveries of a queue. -/
def tags (q : Queue β) : List Nat := q.unacked.map (·.1)

/-! ## Returning deliveries -/

theorem requeueIf_ready (q : Queue β) (p : Nat → Unacked β → Bool) :
    (q.requeueIf p).ready =
      (q.unacked.filter fun (t, u) => p t u).map (fun (_, u) => again u) ++ q.ready := by
  simp only [requeueIf, List.partition_eq_filter_filter]

theorem requeueIf_unacked (q : Queue β) (p : Nat → Unacked β → Bool) :
    (q.requeueIf p).unacked = q.unacked.filter fun (t, u) => !p t u := by
  simp only [requeueIf, List.partition_eq_filter_filter]
  rfl

@[simp] theorem requeueIf_consumers (q : Queue β) (p : Nat → Unacked β → Bool) :
    (q.requeueIf p).consumers = q.consumers := rfl

/-- Returning deliveries moves messages inside the queue and loses none. -/
theorem requeueIf_labels_perm (q : Queue β) (p : Nat → Unacked β → Bool) :
    (q.requeueIf p).labels.Perm q.labels := by
  -- The deliveries that go back and the ones that stay are all of them.
  have hsplit : ((q.unacked.filter fun (t, u) => p t u) ++
      q.unacked.filter fun (t, u) => !p t u).Perm q.unacked :=
    List.filter_append_perm _ _
  have hlabels := hsplit.map fun e : Nat × Unacked β => e.2.message.label
  rw [List.map_append] at hlabels
  simp only [labels, readyLabels, unackedLabels, requeueIf_ready, requeueIf_unacked,
    List.map_append, List.map_map]
  -- What goes back has moved across the ready messages.
  rw [List.append_assoc]
  exact (List.perm_append_comm_assoc _ _ _).trans (List.Perm.append_left _ hlabels)

/-- The queue without the unsettled deliveries that satisfy a condition. -/
def discardIf (q : Queue β) (p : Nat → Unacked β → Bool) : Queue β :=
  { q with unacked := q.unacked.filter fun (t, u) => !p t u }

/-- The queue without the consumers of a tag, and with what they held back in front. -/
def without (q : Queue β) (tag : String) : Queue β :=
  { q with consumers := q.consumers.filter (·.tag != tag) }.requeueIf fun _ u => u.owner == tag

theorem requeueIf_tags_sublist (q : Queue β) (p : Nat → Unacked β → Bool) :
    (q.requeueIf p).tags.Sublist q.tags := by
  rw [tags, requeueIf_unacked]
  exact List.Sublist.map _ List.filter_sublist

end Queue

/-! ## Streams -/

theorem Streams.offer_eq_some {streams after : Streams β} {id : Nat} {d : Delivery β}
    (h : streams.offer id d = some after) :
    ∃ stream, streams[id]? = some stream ∧ stream.closed = false ∧
      after = streams.set id { stream with waiting := stream.waiting ++ [d] } := by
  unfold Streams.offer at h
  split at h
  · simp at h
  · next stream hstream =>
    split at h
    · simp at h
    · next hopen =>
      exact ⟨stream, hstream, by simpa using hopen, (Option.some.inj h).symm⟩

theorem Streams.offer_length {streams after : Streams β} {id : Nat} {d : Delivery β}
    (h : streams.offer id d = some after) : after.length = streams.length := by
  obtain ⟨stream, -, -, rfl⟩ := offer_eq_some h
  exact List.length_set

/-! ## Rounds -/

namespace Dispatching

/-- The queue of a dispatch after its next message has been handed to a consumer. -/
def afterHandOut (d : Dispatching β) (index : Nat) (consumer : Registration)
    (message : Message β) (ready : List (Message β)) : Queue β :=
  { d.queue with
    cursor := index + 1
    ready
    unacked := if consumer.autoAck then d.queue.unacked
      else d.queue.unacked ++ [(d.lastTag + 1, ⟨consumer.tag, message⟩)] }

/-- The queue of a dispatch after the consumer whose turn it is has been found gone. -/
def afterLoss (d : Dispatching β) (index : Nat) (consumer : Registration) : Queue β :=
  ({ d.queue with cursor := index + 1 } : Queue β).dropConsumerAt index consumer

/-- What one round of a dispatch can do. -/
inductive Round : Dispatching β → Dispatching β → Prop
  /-- The stream of the consumer is closed: the consumer is dropped. -/
  | lost {d : Dispatching β} {message ready index consumer}
      (hready : d.queue.ready = message :: ready)
      (hindex : index = d.queue.cursor % d.queue.consumers.length)
      (hconsumer : d.queue.consumers[index]? = some consumer)
      (hclosed : d.streams.offer consumer.stream { message with tag := d.lastTag + 1 } = none) :
      Round d ⟨d.lastTag + 1, d.streams, d.afterLoss index consumer⟩
  /-- The message goes to the consumer. -/
  | handed {d : Dispatching β} {message ready index consumer streams}
      (hready : d.queue.ready = message :: ready)
      (hindex : index = d.queue.cursor % d.queue.consumers.length)
      (hconsumer : d.queue.consumers[index]? = some consumer)
      (hoffer : d.streams.offer consumer.stream { message with tag := d.lastTag + 1 } =
        some streams) :
      Round d ⟨d.lastTag + 1, streams, d.afterHandOut index consumer message ready⟩

/-- Nothing is left to hand out, or nobody to take it. -/
def Finished (d : Dispatching β) : Prop := d.queue.ready = [] ∨ d.queue.consumers = []

/-- A dispatch is finished, or makes a round and goes on. -/
theorem run_cases (d : Dispatching β) :
    (d.Finished ∧ d.run = d) ∨ ∃ e, Round d e ∧ d.run = e.run := by
  rw [Dispatching.run]
  split
  · next hready => exact Or.inl ⟨Or.inl hready, rfl⟩
  · next message ready hready =>
    dsimp only
    split
    · next hnone =>
      -- A turn modulo the number of consumers only misses when there are none.
      refine Or.inl ⟨Or.inr ?_, rfl⟩
      rw [List.getElem?_eq_none_iff] at hnone
      rcases Nat.eq_zero_or_pos d.queue.consumers.length with hzero | hpos
      · exact List.eq_nil_of_length_eq_zero hzero
      · have := Nat.mod_lt d.queue.cursor hpos
        omega
    · next consumer hconsumer =>
      split
      · next hclosed => exact Or.inr ⟨_, Round.lost hready rfl hconsumer hclosed, rfl⟩
      · next streams hoffer => exact Or.inr ⟨_, Round.handed hready rfl hconsumer hoffer, rfl⟩

/-- There is at most one round to make. -/
theorem Round.unique {d e e' : Dispatching β} (h : Round d e) (h' : Round d e') : e = e' := by
  cases h with
  | lost hready hindex hconsumer hclosed =>
      cases h' with
      | lost hready' hindex' hconsumer' hclosed' =>
          -- The consumer is the same, and its stream cannot be both open and closed.
          obtain rfl := hindex.trans hindex'.symm
          obtain rfl := Option.some.inj (hconsumer.symm.trans hconsumer')
          rfl
      | handed hready' hindex' hconsumer' hoffer' =>
          obtain rfl := hindex.trans hindex'.symm
          obtain rfl := Option.some.inj (hconsumer.symm.trans hconsumer')
          obtain ⟨rfl, rfl⟩ := List.cons.inj (hready.symm.trans hready')
          simp [hclosed] at hoffer'
  | handed hready hindex hconsumer hoffer =>
      cases h' with
      | lost hready' hindex' hconsumer' hclosed' =>
          obtain rfl := hindex.trans hindex'.symm
          obtain rfl := Option.some.inj (hconsumer.symm.trans hconsumer')
          obtain ⟨rfl, rfl⟩ := List.cons.inj (hready.symm.trans hready')
          simp [hclosed'] at hoffer
      | handed hready' hindex' hconsumer' hoffer' =>
          obtain rfl := hindex.trans hindex'.symm
          obtain rfl := Option.some.inj (hconsumer.symm.trans hconsumer')
          obtain ⟨rfl, rfl⟩ := List.cons.inj (hready.symm.trans hready')
          obtain rfl := Option.some.inj (hoffer.symm.trans hoffer')
          rfl

/-- A dispatch that can make a round is not finished. -/
theorem Round.not_finished {d e : Dispatching β} (h : Round d e) : ¬d.Finished := by
  rintro (hready | hconsumers)
  · cases h <;> simp_all
  · cases h <;> simp_all

theorem run_of_finished {d : Dispatching β} (h : d.Finished) : d.run = d := by
  rcases run_cases d with ⟨-, hrun⟩ | ⟨e, hround, -⟩
  · exact hrun
  · exact (hround.not_finished h).elim

theorem Round.run_eq {d e : Dispatching β} (h : Round d e) : d.run = e.run := by
  rcases run_cases d with ⟨hfin, -⟩ | ⟨e', hround, hrun⟩
  · exact (h.not_finished hfin).elim
  · rw [hrun, h.unique hround]

/-- Every round takes away a consumer, or a message that waits. -/
theorem Round.decreases {d e : Dispatching β} (h : Round d e) :
    e.queue.consumers.length < d.queue.consumers.length ∨
      e.queue.consumers.length = d.queue.consumers.length ∧
        e.queue.ready.length < d.queue.ready.length := by
  cases h with
  | lost hready hindex hconsumer hclosed =>
      -- The consumer was in the list, so the list gets shorter.
      obtain ⟨hlt, -⟩ := List.getElem?_eq_some_iff.mp hconsumer
      left
      simp only [afterLoss, Queue.dropConsumerAt, Queue.requeueIf_consumers, List.length_eraseIdx]
      rw [if_pos hlt]
      omega
  | handed hready hindex hconsumer hoffer =>
      right
      refine ⟨rfl, ?_⟩
      simp only [afterHandOut, hready, List.length_cons]
      omega

/-- Dispatches follow their rounds: what holds of a finished dispatch, and of one whose next
    round leads to where it holds, holds of all. -/
theorem run_induction {P : Dispatching β → Prop} (finished : ∀ d, d.Finished → d.run = d → P d)
    (round : ∀ d e, Round d e → d.run = e.run → P e → P d) (d : Dispatching β) : P d := by
  rcases run_cases d with ⟨hfin, hrun⟩ | ⟨e, hround, hrun⟩
  · exact finished d hfin hrun
  · exact round d e hround hrun (run_induction finished round e)
termination_by (d.queue.consumers.length, d.queue.ready.length)
decreasing_by
  rcases hround.decreases with h | ⟨h, h'⟩
  · exact Prod.Lex.left _ _ h
  · rw [h]
    exact Prod.Lex.right _ h'

/-- What every round keeps holds at the end of a dispatch. -/
theorem run_preserves {P : Dispatching β → Prop} (round : ∀ d e, Round d e → P d → P e)
    (d : Dispatching β) (h : P d) : P d.run := by
  induction d using run_induction with
  | finished d hfin hrun => rwa [hrun]
  | round d e hround hrun ih =>
      rw [hrun]
      exact ih (round d e hround h)

/-- A dispatch ends when nothing waits, or nobody is there to take it. -/
theorem run_finished (d : Dispatching β) : d.run.Finished := by
  induction d using run_induction with
  | finished d hfin hrun => rwa [hrun]
  | round d e hround hrun ih => rwa [hrun]

/-! ## What a round does to the messages and to the tags -/

theorem afterLoss_labels_perm (d : Dispatching β) (index : Nat) (consumer : Registration) :
    (d.afterLoss index consumer).labels.Perm d.queue.labels :=
  Queue.requeueIf_labels_perm _ _

theorem afterLoss_tags_sublist (d : Dispatching β) (index : Nat) (consumer : Registration) :
    (d.afterLoss index consumer).tags.Sublist d.queue.tags :=
  Queue.requeueIf_tags_sublist _ _

theorem afterLoss_consumers (d : Dispatching β) (index : Nat) (consumer : Registration) :
    (d.afterLoss index consumer).consumers = d.queue.consumers.eraseIdx index := rfl

theorem afterHandOut_tags (d : Dispatching β) (index : Nat) (consumer : Registration)
    (message : Message β) (ready : List (Message β)) :
    (d.afterHandOut index consumer message ready).tags =
      if consumer.autoAck then d.queue.tags else d.queue.tags ++ [d.lastTag + 1] := by
  unfold afterHandOut Queue.tags
  split <;> simp_all

/-- A message that has been handed out is still with the queue, unless its consumer takes
    deliveries as acknowledged. -/
theorem afterHandOut_labels_perm (d : Dispatching β) (index : Nat) (consumer : Registration)
    {message : Message β} {ready : List (Message β)} (hready : d.queue.ready = message :: ready) :
    ((d.afterHandOut index consumer message ready).labels ++
      if consumer.autoAck then [message.label] else []).Perm d.queue.labels := by
  cases hauto : consumer.autoAck
  · simp only [afterHandOut, Queue.labels, Queue.readyLabels, Queue.unackedLabels, hauto, hready,
      Bool.false_eq_true, if_false, List.append_nil, List.map_append, List.map_cons, List.map_nil,
      List.cons_append]
    rw [← List.append_assoc]
    exact List.perm_append_singleton _ _
  · simp only [afterHandOut, Queue.labels, Queue.readyLabels, Queue.unackedLabels, hauto, hready,
      if_true, List.map_cons, List.cons_append]
    exact List.perm_append_singleton _ _

/-! ## The tags of a whole dispatch -/

/-- A dispatch only counts delivery tags up. -/
theorem run_lastTag_le (d : Dispatching β) : d.lastTag ≤ d.run.lastTag := by
  refine run_preserves (P := fun e => d.lastTag ≤ e.lastTag) ?_ d (Nat.le_refl _)
  intro e f hround h
  cases hround <;> exact Nat.le_succ_of_le h

/-- A dispatch makes and ends no streams. -/
theorem run_streams_length (d : Dispatching β) : d.run.streams.length = d.streams.length := by
  refine run_preserves (P := fun e => e.streams.length = d.streams.length) ?_ d rfl
  intro e f hround h
  cases hround with
  | lost => exact h
  | handed hready hindex hconsumer hoffer => exact (Streams.offer_length hoffer).trans h

/-- A dispatch registers nobody. -/
theorem run_consumers_sublist (d : Dispatching β) :
    d.run.queue.consumers.Sublist d.queue.consumers := by
  refine run_preserves (P := fun e => e.queue.consumers.Sublist d.queue.consumers) ?_ d
    (List.Sublist.refl _)
  intro e f hround h
  cases hround with
  | lost => exact (List.eraseIdx_sublist _ _).trans h
  | handed => exact h

/-- A dispatch does not change the settings of its queue. -/
theorem run_settings (d : Dispatching β) : d.run.queue.settings = d.queue.settings := by
  refine run_preserves (P := fun e => e.queue.settings = d.queue.settings) ?_ d rfl
  intro e f hround h
  cases hround <;> exact h

/-- The tags under which a dispatch leaves deliveries unsettled were so before, or are new. -/
theorem run_tags (d : Dispatching β) {t : Nat} (ht : t ∈ d.run.queue.tags) :
    t ∈ d.queue.tags ∨ d.lastTag < t := by
  revert ht
  -- Tags are issued in order, so the bound for new ones has to be kept along.
  refine (run_preserves (P := fun e => d.lastTag ≤ e.lastTag ∧
    (t ∈ e.queue.tags → t ∈ d.queue.tags ∨ d.lastTag < t)) ?_ d ⟨Nat.le_refl _, Or.inl⟩).2
  intro e f hround ⟨hle, hold⟩
  cases hround with
  | lost => exact ⟨Nat.le_succ_of_le hle, fun ht => hold ((afterLoss_tags_sublist _ _ _).mem ht)⟩
  | handed =>
      refine ⟨Nat.le_succ_of_le hle, fun ht => ?_⟩
      rw [afterHandOut_tags] at ht
      split at ht
      · exact hold ht
      · rcases List.mem_append.mp ht with h | h
        · exact hold h
        · rw [List.mem_singleton] at h
          exact Or.inr (by omega)

end Dispatching

end Almanac.Broker
