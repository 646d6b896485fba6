/-
  Almanac.Sender

  The sender takes notifications from the broker, one after the other. It counts each
  delivery, remembers the last message that it could read, and acknowledges the
  delivery, also one that it could not read, unless deliveries count as acknowledged
  from the start. It ends well when it is told to stop, and badly when it cannot
  register as a consumer or its stream ends by itself.
-/
import Almanac.Broker.Client
import Almanac.Notification
import Almanac.Service.Error

namespace Almanac

/-- A sender over a broker. -/
structure Sender (σ : Type) where
  settings : Broker.ConsumeSettings
  broker : Broker.Client σ
  /-- Whether it has been told to stop. -/
  stopRequested : Action σ Bool

namespace Sender

open Broker (Received Consumer Delivery)

variable {σ : Type}

/-- What a sender has done. -/
structure Tally where
  received : Nat := 0
  acked : Nat := 0
  ackFailures : Nat := 0
  /-- Deliveries that it could not read. -/
  malformed : Nat := 0
  lastMessage : Option Notification := none
deriving DecidableEq, Inhabited

namespace Tally

/-- Counts a delivery. -/
def read (t : Tally) (body : Bytes) : Tally :=
  let t := { t with received := t.received + 1 }
  match Notification.decode body with
  | .ok message => { t with lastMessage := some message }
  | .error _ => { t with malformed := t.malformed + 1 }

/-- Counts an acknowledgement. -/
def settled (t : Tally) (answer : Except Broker.Error Unit) : Tally :=
  match answer with
  | .ok () => { t with acked := t.acked + 1 }
  | .error _ => { t with ackFailures := t.ackFailures + 1 }

end Tally

/-- Where a sender is. -/
inductive Stage
  | registering
  | consuming (c : Consumer)
  | ended (outcome : Except Service.Error Unit)

/-- How a step went. -/
inductive Progress
  /-- There is nothing to do until something happens. -/
  | waits
  | moved (t : Tally) (stage : Stage)

variable (s : Sender σ)

def handle (t : Tally) (d : Delivery Bytes) : Action σ Tally := do
  let t := t.read d.body
  if s.settings.autoAck then return t
  else return t.settled (← s.broker.ack d.tag false)

def leave (t : Tally) (c : Consumer) (outcome : Except Service.Error Unit) : Action σ Progress := do
  s.broker.drop c
  return .moved t (.ended outcome)

/-- One step. A request to stop is seen before the stream is looked into, and looked for once
    more when the stream turns out to have ended. -/
def step (t : Tally) : Stage → Action σ Progress
  | .registering => do
    match ← s.broker.consume s.settings with
    | .ok c => return .moved t (.consuming c)
    | .error cause => return .moved t (.ended (.error (.consume s.settings.queue cause)))
  | .consuming c => do
    if ← s.stopRequested then s.leave t c (.ok ())
    else
      match ← s.broker.receive c with
      | .delivery d => return .moved (← s.handle t d) (.consuming c)
      | .empty => return .waits
      | .ended =>
        if ← s.stopRequested then s.leave t c (.ok ())
        else s.leave t c (.error (.consumerClosed s.settings.queue))
  | .ended _ => return .waits

end Sender

end Almanac
