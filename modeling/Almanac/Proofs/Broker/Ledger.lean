/-
  Almanac.Proofs.Broker.Ledger

  What becomes of messages. Beside the state of the broker a `Ledger` keeps what clients
  saw of a run: what was put into queues, what was settled, what went to consumers that
  take deliveries as acknowledged, and what was lost with a queue.

  The books are even when what was published is what the queues hold, was settled, was
  handed out for good, or was lost with its queue, each message as often as it was
  published. Here are the entries, and what a dispatch does to them.
-/
import Almanac.Proofs.Broker.Sound

namespace Almanac.Broker

variable {β : Type}

/-! ## Entries -/

/-- The labels of the deliveries of a queue that an acknowledgement of a tag covers. -/
def Queue.settledBy (q : Queue β) (tag : Nat) (multiple : Bool) : List (String × β) :=
  match q.unacked.lookup tag with
  | none => []
  | some u =>
    (q.unacked.filter fun (t, v) => State.covers tag multiple u.owner t v).map
      fun (_, v) => v.message.label

/-- The labels of what waits in a stream. -/
def Stream.labels (s : Stream β) : List (String × β) := s.waiting.map fun d => d.label

/-- The labels of what waits in the chosen streams. -/
def Streams.labelsIn (streams : Streams β) (chosen : Nat → Bool) : List (String × β) :=
  streams.zipIdx.flatMap fun e => if chosen e.2 then e.1.labels else []

namespace State

/-- What a call puts into a queue. -/
def publishedBy (s : State β) : Call β → List (String × β)
  | .publish settings body => if s.routes settings then [(settings.routingKey, body)] else []
  | _ => []

/-- What a call settles: an acknowledgement, or a rejection without return, settles what it
    covers in the queue that has its tag. -/
def settledBy (s : State β) : Call β → List (String × β)
  | .ack tag multiple | .nack tag multiple false =>
    if s.connected then s.queues.flatMap fun (_, q) => q.settledBy tag multiple else []
  | _ => []

/-- The stream that a call opens for a consumer that takes deliveries as acknowledged. -/
def automaticBy (s : State β) : Call β → List Nat
  | .consume settings =>
    match (s.consume settings).1 with
    | .ok c => if settings.autoAck then [c.stream] else []
    | .error _ => []
  | _ => []

/-- What a call takes from one of the given streams. -/
def takenBy (s : State β) (automatic : List Nat) : Call β → List (String × β)
  | .receive c =>
    match (s.receive c).1 with
    | .delivery d => if automatic.contains c.stream then [d.label] else []
    | _ => []
  | _ => []

/-- What goes with the queues that a call removes. -/
def lostBy (s : State β) (c : Call β) : List (String × β) :=
  (s.queues.filter fun e => ((s.perform c).queue? e.1).isNone).flatMap fun e => e.2.labels

/-- How many messages with a property the queues hold. -/
def count (p : String × β → Bool) (s : State β) : Nat :=
  Table.total (fun q => q.labels.countP p) s.queues

end State

/-- The state of the broker with the books of the run so far. -/
structure Ledger (β : Type) where
  state : State β := {}
  /-- What was put into a queue. -/
  published : List (String × β) := []
  /-- What was acknowledged, or rejected without return. -/
  settled : List (String × β) := []
  /-- The streams of consumers that take deliveries as acknowledged. -/
  automatic : List Nat := []
  /-- What such consumers have taken from their streams. -/
  taken : List (String × β) := []
  /-- What went with its queue. -/
  lost : List (String × β) := []

namespace Ledger

/-- Enters a call. -/
def enter (r : Ledger β) (c : Call β) : Ledger β where
  state := r.state.perform c
  published := r.published ++ r.state.publishedBy c
  settled := r.settled ++ r.state.settledBy c
  automatic := r.automatic ++ r.state.automaticBy c
  taken := r.taken ++ r.state.takenBy r.automatic c
  lost := r.lost ++ r.state.lostBy c

/-- The books of a run from a fresh broker. -/
def run (calls : List (Call β)) : Ledger β := calls.foldl enter {}

/-- What was handed to consumers that take deliveries as acknowledged: they have taken it, or it
    waits in their streams. -/
def handed (r : Ledger β) : List (String × β) :=
  r.taken ++ r.state.streams.labelsIn (r.automatic.contains ·)

@[simp] theorem run_nil : run ([] : List (Call β)) = {} := rfl

@[simp] theorem run_concat (calls : List (Call β)) (c : Call β) :
    run (calls ++ [c]) = (run calls).enter c := by
  simp [run]

/-- The books do not change what happens. -/
theorem run_state (calls : List (Call β)) : (run calls).state = State.run calls := by
  induction calls using List.reverseRecOn with
  | nil => rfl
  | append_singleton calls c ih =>
      rw [run_concat, State.run_concat, ← ih]
      rfl

end Ledger

/-! ## Streams -/

namespace Streams

variable {streams : Streams β} (p : String × β → Bool) (chosen : Nat → Bool)

/-- How much of the count of `labelsIn` one stream makes up. -/
def share (chosen : Nat → Bool) (i : Nat) (stream : Stream β) : Nat :=
  if chosen i then stream.labels.countP p else 0

/-- Changing one stream changes its share. -/
theorem countP_labelsIn_set {id : Nat} {old : Stream β} (h : streams[id]? = some old)
    (new : Stream β) :
    (labelsIn (streams.set id new) chosen).countP p + share p chosen id old =
      (streams.labelsIn chosen).countP p + share p chosen id new := by
  -- The place in the list moves along with the offset of the numbering.
  have hgeneral : ∀ (l : List (Stream β)) (id n : Nat), l[id]? = some old →
      (((l.set id new).zipIdx n).flatMap
          fun e => if chosen e.2 then e.1.labels else []).countP p + share p chosen (n + id) old =
        ((l.zipIdx n).flatMap
          fun e => if chosen e.2 then e.1.labels else []).countP p + share p chosen (n + id) new := by
    intro l
    induction l with
    | nil => intro id n h; simp at h
    | cons stream l ih =>
        intro id n h
        cases id with
        | zero =>
            simp only [List.getElem?_cons_zero, Option.some.injEq] at h
            subst h
            simp only [List.set_cons_zero, List.zipIdx_cons, List.flatMap_cons,
              List.countP_append, share, Nat.add_zero]
            cases chosen n
            · simp only [Bool.false_eq_true, if_false, List.countP_nil]
            · simp only [if_true]
              omega
        | succ id =>
            have := ih id (n + 1) (by simpa using h)
            have hplace : n + 1 + id = n + (id + 1) := by omega
            rw [hplace] at this
            simp only [List.set_cons_succ, List.zipIdx_cons, List.flatMap_cons,
              List.countP_append]
            omega
  have := hgeneral streams id 0 h
  simpa [labelsIn] using this

/-- A new stream is empty. -/
theorem countP_labelsIn_fresh :
    (labelsIn (streams ++ [Stream.fresh]) chosen).countP p = (streams.labelsIn chosen).countP p := by
  simp [labelsIn, List.zipIdx_append, Stream.fresh, Stream.labels]

/-- Only the choice among streams that exist matters. -/
theorem labelsIn_congr {chosen chosen' : Nat → Bool}
    (h : ∀ i < streams.length, chosen i = chosen' i) :
    streams.labelsIn chosen = streams.labelsIn chosen' := by
  unfold labelsIn
  rw [List.flatMap_def, List.flatMap_def]
  refine congrArg _ (List.map_congr_left fun e he => ?_)
  -- An entry of the numbered list has the number of a stream that exists.
  have hlt := (List.mem_zipIdx he).2.1
  rw [h e.2 (by omega)]

end Streams

/-! ## Deliveries -/

/-- Consumers that take deliveries as acknowledged are the ones with a chosen stream. -/
def Queue.Marked (chosen : Nat → Bool) (q : Queue β) : Prop :=
  ∀ c ∈ q.consumers, c.autoAck = chosen c.stream

/-- A round moves a message from the queue to an automatic consumer, or keeps it in the queue. -/
theorem Dispatching.Round.count {d e : Dispatching β} (hround : Round d e) {chosen : Nat → Bool}
    (hmarked : d.queue.Marked chosen) (p : String × β → Bool) :
    e.queue.labels.countP p + (e.streams.labelsIn chosen).countP p =
      d.queue.labels.countP p + (d.streams.labelsIn chosen).countP p := by
  cases hround with
  | @lost message ready index consumer hready hindex hconsumer hclosed =>
      rw [(d.afterLoss_labels_perm index consumer).countP_eq]
  | @handed message ready index consumer streams hready hindex hconsumer hoffer =>
      have hqueue := (d.afterHandOut_labels_perm index consumer hready).countP_eq p
      obtain ⟨stream, hstream, -, rfl⟩ := Streams.offer_eq_some hoffer
      have hstreams := Streams.countP_labelsIn_set p chosen hstream
        { stream with waiting := stream.waiting ++ [{ message with tag := d.lastTag + 1 }] }
      -- The stream counts if and only if its consumer is automatic.
      have hmark : consumer.autoAck = chosen consumer.stream :=
        hmarked consumer (List.mem_of_getElem? hconsumer)
      rw [List.countP_append, hmark] at hqueue
      simp only [Streams.share, Stream.labels, List.map_append, List.map_cons, List.map_nil,
        List.countP_append] at hstreams
      dsimp only
      cases hchosen : chosen consumer.stream
      · -- By hand: the message stays with the queue, and the stream does not count.
        simp only [hchosen, Bool.false_eq_true, if_false, List.countP_nil] at hqueue hstreams
        omega
      · -- Automatic: the message leaves the queue for a stream that counts.
        simp only [hchosen, if_true] at hqueue hstreams
        omega

theorem Dispatching.run_count {d : Dispatching β} {chosen : Nat → Bool}
    (hmarked : d.queue.Marked chosen) (p : String × β → Bool) :
    d.run.queue.labels.countP p + (d.run.streams.labelsIn chosen).countP p =
      d.queue.labels.countP p + (d.streams.labelsIn chosen).countP p := by
  -- Consumers only go, so the marks hold through the dispatch.
  refine (run_preserves (P := fun e => e.queue.Marked chosen ∧
    e.queue.labels.countP p + (e.streams.labelsIn chosen).countP p =
      d.queue.labels.countP p + (d.streams.labelsIn chosen).countP p) ?_ d ⟨hmarked, rfl⟩).2
  rintro e f hround ⟨hmark, heq⟩
  refine ⟨fun c hc => hmark c ?_, (hround.count hmark p).trans heq⟩
  cases hround with
  | lost => exact (List.eraseIdx_sublist _ _).mem hc
  | handed => exact hc

end Almanac.Broker
