/-
  Almanac.Broker.State

  The broker as a whole: whether it is connected, its queues, the streams of its
  consumers, and two counters, one for delivery tags and one for consumers.

  Each request is a function of the state, with an answer. Requests other than `start`,
  `stop` and `cancel` are refused while the broker is not connected. A stop ends every
  consumer and returns what it held to its queue; a queue that is not durable goes with
  it. A consumer leaves in two steps: it closes its stream, and then it cancels its
  registration. Between the two the broker may still offer it a delivery, notice the
  closed stream, and drop the registration itself.
-/
import Almanac.Broker.Queue
import Almanac.Table

namespace Almanac.Broker

variable {β : Type}

/-- The state of a broker. -/
structure State (β : Type) where
  connected : Bool := false
  /-- The tag of the latest delivery. -/
  lastTag : Nat := 0
  /-- How many consumers have been asked for while connected. -/
  asked : Nat := 0
  queues : Table (Queue β) := []
  streams : Streams β := []
deriving DecidableEq, Inhabited

/-- What a client holds of its consumer. -/
structure Consumer where
  tag : String
  queue : String
  stream : Nat
deriving DecidableEq, Inhabited

/-- The tag of a consumer that did not ask for one, or asked for one that is taken. -/
def generatedTag (n : Nat) : String := "ctag-" ++ natText n

/-- What becomes of settled deliveries. -/
inductive Settlement
  | discard
  | requeue
deriving DecidableEq

/-- What a consumer finds in its stream. -/
inductive Received (β : Type)
  | delivery (d : Delivery β)
  /-- Nothing is there yet. -/
  | empty
  /-- Nothing will come any more. -/
  | ended

/-- The answer of a request with the state after it. -/
abbrev Outcome (β α : Type) := Except Error α × State β

namespace State

def name : String := "memory"

def queue? (s : State β) (name : String) : Option (Queue β) := s.queues.get? name

def setQueue (s : State β) (name : String) (q : Queue β) : State β :=
  { s with queues := s.queues.insert name q }

/-- Hands the ready messages of a queue to its consumers. -/
def dispatch (s : State β) (name : String) : State β :=
  match s.queue? name with
  | none => s
  | some q =>
    let d := Dispatching.run ⟨s.lastTag, s.streams, q⟩
    { s.setQueue name d.queue with lastTag := d.lastTag, streams := d.streams }

/-! ## Connecting -/

/-- Connects the broker. -/
def start (s : State β) : State β := { s with connected := true }

/-- Disconnects the broker, ends its consumers and removes queues that are not durable. -/
def stop (s : State β) : State β :=
  if s.connected then
    { s with
      connected := false
      queues := (s.queues.map fun (name, q) => (name, q.abandoned)).filter fun (_, q) =>
        q.settings.durable }
  else s

/-! ## Queues and consumers -/

/-- Makes a queue, unless there is one of that name. -/
def declare (s : State β) (settings : QueueSettings) : Outcome β Unit :=
  if !s.connected then (.error .notConnected, s)
  else match s.queue? settings.name with
    | some _ => (.ok (), s)
    | none => (.ok (), s.setQueue settings.name { settings })

/-- Registers a consumer on a queue, with a new stream. -/
def consume (s : State β) (settings : ConsumeSettings) : Outcome β Consumer :=
  if !s.connected then (.error .notConnected, s)
  else
    let s := { s with asked := s.asked + 1 }
    match s.queue? settings.queue with
    | none => (.error (.queueNotFound settings.queue), s)
    | some q =>
      if !q.admits settings then (.error (.exclusiveQueue settings.queue), s)
      else
        let tag := q.tagFor settings.consumer (generatedTag s.asked)
        let stream := s.streams.length
        let registration : Registration :=
          { tag, autoAck := settings.autoAck,
            exclusive := settings.exclusive || q.settings.exclusive, stream }
        let s := { s.setQueue settings.queue
            { q with consumers := q.consumers ++ [registration] } with
          streams := s.streams ++ [Stream.fresh] }
        (.ok { tag, queue := settings.queue, stream }, s.dispatch settings.queue)

/-- Ends the registrations with a tag on a queue and returns what they held. A queue that
    removes itself goes with its last consumer. -/
def cancel (s : State β) (name tag : String) : State β :=
  match s.queue? name with
  | none => s
  | some q =>
    let stay := q.consumers.filter (·.tag != tag)
    if stay.length == q.consumers.length then s
    else
      let q := { q with consumers := stay }.requeueIf fun _ u => u.owner == tag
      if stay.isEmpty && q.settings.autoDelete then { s with queues := s.queues.erase name }
      else (s.setQueue name q).dispatch name

/-- Closes the stream of a consumer: the first step of its leaving. -/
def closeStream (s : State β) (c : Consumer) : State β :=
  match s.streams[c.stream]? with
  | none => s
  | some stream => { s with streams := s.streams.set c.stream { stream with closed := true } }

def drop (s : State β) (c : Consumer) : State β := (s.closeStream c).cancel c.queue c.tag

/-- Whether a queue still has the consumer of a stream. -/
def feeds (s : State β) (stream : Nat) : Bool :=
  s.queues.any fun (_, q) => q.consumers.any (·.stream == stream)

/-- A consumer looks into its stream. What has been delivered is there to be taken even after
    its registration has ended. -/
def receive (s : State β) (c : Consumer) : Received β × State β :=
  match s.streams[c.stream]? with
  | none => (.ended, s)
  | some stream =>
    match stream.waiting with
    | d :: waiting =>
      (.delivery d, { s with streams := s.streams.set c.stream { stream with waiting } })
    | [] => (if !stream.closed && s.feeds c.stream then .empty else .ended, s)

/-! ## Messages -/

/-- Publishes a message. The default exchange puts it into the queue that its routing key
    names; one that reaches no queue is dropped, or refused if it is mandatory. -/
def publish (s : State β) (settings : PublishSettings) (body : β) : Outcome β Unit :=
  if !s.connected then (.error .notConnected, s)
  else
    let target := if settings.exchange.isEmpty then s.queue? settings.routingKey else none
    match target with
    | some q =>
      let message : Message β :=
        { body, contentType := settings.contentType, routingKey := settings.routingKey,
          redelivered := false }
      let s := s.setQueue settings.routingKey { q with ready := q.ready ++ [message] }
      (.ok (), s.dispatch settings.routingKey)
    | none =>
      if settings.mandatory then
        (.error (.unroutable settings.exchange settings.routingKey), s)
      else (.ok (), s)

/-- The queue with an unsettled delivery, its name, and the owner of the delivery. -/
def holder? (s : State β) (tag : Nat) : Option (String × Queue β × String) :=
  s.queues.findSome? fun (name, q) =>
    (q.unacked.lookup tag).map fun u => (name, q, u.owner)

/-- Settles a delivery, or with `multiple` every unsettled delivery of the same consumer up to
    it. Deliveries that are not discarded go back to the front of their queue. -/
def settle (s : State β) (tag : Nat) (multiple : Bool) (how : Settlement) : Outcome β Unit :=
  if !s.connected then (.error .notConnected, s)
  else match s.holder? tag with
    | none => (.error (.unknownDeliveryTag tag), s)
    | some (name, q, owner) =>
      let covered (t : Nat) (u : Unacked β) : Bool :=
        if multiple then decide (t ≤ tag) && u.owner == owner else t == tag
      match how with
      | .requeue => (.ok (), (s.setQueue name (q.requeueIf covered)).dispatch name)
      | .discard =>
        let unacked := q.unacked.filter fun (t, u) => !covered t u
        (.ok (), s.setQueue name { q with unacked })

/-- Acknowledges a delivery. -/
def ack (s : State β) (tag : Nat) (multiple : Bool) : Outcome β Unit :=
  s.settle tag multiple .discard

/-- Rejects a delivery. -/
def nack (s : State β) (tag : Nat) (multiple requeue : Bool) : Outcome β Unit :=
  s.settle tag multiple (if requeue then .requeue else .discard)

/-- Returns the unsettled deliveries of one queue to it and dispatches it again. -/
def recoverQueue (s : State β) (name : String) : State β :=
  match s.queue? name with
  | none => s
  | some q => (s.setQueue name (q.requeueIf fun _ _ => true)).dispatch name

/-- How many unsettled deliveries there are. -/
def outstanding (s : State β) : Nat := (s.queues.flatMap fun (_, q) => q.unacked).length

/-- Returns every unsettled delivery to its queue, one queue after the other, and answers how
    many there were. -/
def recover (s : State β) : Outcome β Nat :=
  if !s.connected then (.error .notConnected, s)
  else (.ok s.outstanding, (s.queues.map (·.1)).foldl recoverQueue s)

/-- How many messages of a queue wait. -/
def countReady (s : State β) (name : String) : Except Error Nat :=
  match s.queue? name with
  | some q => .ok q.ready.length
  | none => .error (.queueNotFound name)

/-- How many deliveries of a queue are unsettled. -/
def countUnacked (s : State β) (name : String) : Except Error Nat :=
  match s.queue? name with
  | some q => .ok q.unacked.length
  | none => .error (.queueNotFound name)

end State

/-! ## How they are shown -/

def Consumer.text (c : Consumer) : String :=
  "Consumer \x7b tag: " ++ quoted c.tag ++ ", queue: " ++ quoted c.queue ++ ", .. \x7d"

/-- The text of a delivery whose body has a number of bytes. -/
def Delivery.text (d : Delivery β) (size : Nat) : String :=
  "Delivery \x7b delivery_tag: " ++ natText d.tag ++ ", body_len: " ++ natText size
    ++ ", content_type: " ++ quoted d.contentType ++ ", routing_key: " ++ quoted d.routingKey
    ++ ", redelivered: " ++ (if d.redelivered then "true" else "false") ++ " \x7d"

end Almanac.Broker
