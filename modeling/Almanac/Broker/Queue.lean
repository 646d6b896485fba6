/-
  Almanac.Broker.Queue

  One queue of the broker and the streams of its consumers.

  Messages wait in `ready`, in the order in which they will be handed out. `dispatch`
  hands them to the consumers in turn: each delivery gets the next delivery tag and goes
  to the stream of one consumer, and stays in `unacked` under its tag until it is
  settled, unless the consumer takes deliveries as acknowledged. A consumer whose stream
  turns out to be closed is dropped on the spot, and what it held goes back to the front.

  Bodies are of any type: the broker never looks at them.
-/
import Almanac.Broker.Error
import Almanac.Broker.Settings

namespace Almanac.Broker

variable {β : Type}

/-- A message in the broker. -/
structure Message (β : Type) where
  body : β
  contentType : String
  routingKey : String
  /-- It has been handed out before, without being settled. -/
  redelivered : Bool
deriving DecidableEq

/-- A message on its way to a consumer. -/
structure Delivery (β : Type) extends Message β where
  tag : Nat
deriving DecidableEq

/-- The stream of a consumer: what has been delivered and not been taken yet. -/
structure Stream (β : Type) where
  /-- The consumer takes nothing any more. -/
  closed : Bool := false
  waiting : List (Delivery β) := []
deriving DecidableEq

/-- The stream of a new consumer. -/
def Stream.fresh : Stream β := {}

/-- The streams of all consumers so far; a stream is known by its place. -/
abbrev Streams (β : Type) := List (Stream β)

/-- Puts a delivery into a stream, if the stream is open. -/
def Streams.offer (streams : Streams β) (id : Nat) (d : Delivery β) : Option (Streams β) :=
  match streams[id]? with
  | none => none
  | some stream =>
    if stream.closed then none
    else some (streams.set id { stream with waiting := stream.waiting ++ [d] })

/-- A registered consumer. -/
structure Registration where
  tag : String
  autoAck : Bool
  exclusive : Bool
  stream : Nat
deriving DecidableEq

/-- A delivery that has not been settled. -/
structure Unacked (β : Type) where
  /-- The tag of the consumer that got it. -/
  owner : String
  message : Message β
deriving DecidableEq

structure Queue (β : Type) where
  settings : QueueSettings
  ready : List (Message β) := []
  consumers : List Registration := []
  /-- The place of the consumer whose turn is next, modulo their number. -/
  cursor : Nat := 0
  /-- Unsettled deliveries by ascending tag. -/
  unacked : List (Nat × Unacked β) := []
deriving DecidableEq

namespace Queue

/-- A message as it goes back to its queue. -/
def again (u : Unacked β) : Message β := { u.message with redelivered := true }

/-- Returns the unsettled deliveries that satisfy a condition to the front of the queue, the
    oldest first. -/
def requeueIf (q : Queue β) (p : Nat → Unacked β → Bool) : Queue β :=
  let (back, kept) := q.unacked.partition fun (tag, u) => p tag u
  { q with ready := back.map (fun (_, u) => again u) ++ q.ready, unacked := kept }

/-- The queue without the consumer at a place, whose unsettled deliveries go back. -/
def dropConsumerAt (q : Queue β) (index : Nat) (gone : Registration) : Queue β :=
  { q with consumers := q.consumers.eraseIdx index }.requeueIf fun _ u => u.owner == gone.tag

/-- A queue whose consumers are gone, with everything they held. -/
def abandoned (q : Queue β) : Queue β :=
  { q with consumers := [] }.requeueIf fun _ _ => true

def admits (q : Queue β) (settings : ConsumeSettings) : Bool :=
  let locked := q.consumers.any (·.exclusive)
  let alone := settings.exclusive || q.settings.exclusive
  !(locked || (alone && !q.consumers.isEmpty))

/-- The tag that a new consumer of a queue gets: the one it asks for, if it asks for one that
    no other consumer of the queue has, and a generated one otherwise. -/
def tagFor (q : Queue β) (wanted generated : String) : String :=
  if wanted.isEmpty || q.consumers.any (·.tag == wanted) then generated else wanted

end Queue

/-- What changes while a queue is dispatched: the last delivery tag, the streams, the queue. -/
structure Dispatching (β : Type) where
  lastTag : Nat
  streams : Streams β
  queue : Queue β

/-- Hands ready messages to the consumers in turn, until none is left of either. -/
def Dispatching.run (d : Dispatching β) : Dispatching β :=
  match _hr : d.queue.ready with
  | [] => d
  | message :: ready =>
    let index := d.queue.cursor % d.queue.consumers.length
    match _hc : d.queue.consumers[index]? with
    | none => d
    | some consumer =>
      let tag := d.lastTag + 1
      let queue := { d.queue with cursor := index + 1 }
      match d.streams.offer consumer.stream { message with tag } with
      | none => Dispatching.run ⟨tag, d.streams, queue.dropConsumerAt index consumer⟩
      | some streams =>
        let unacked := if consumer.autoAck then queue.unacked
          else queue.unacked ++ [(tag, ⟨consumer.tag, message⟩)]
        Dispatching.run ⟨tag, streams, { queue with ready, unacked }⟩
termination_by (d.queue.consumers.length, d.queue.ready.length)
decreasing_by
  · have hlt : index < d.queue.consumers.length := (List.getElem?_eq_some_iff.mp _hc).1
    apply Prod.Lex.left
    simp only [Queue.dropConsumerAt, Queue.requeueIf, List.length_eraseIdx]
    rw [if_pos hlt]
    omega
  · have hr : d.queue.ready.length = ready.length + 1 := by rw [_hr]; rfl
    apply Prod.Lex.right'
    · exact Nat.le_refl _
    · show ready.length < d.queue.ready.length
      omega

end Almanac.Broker
