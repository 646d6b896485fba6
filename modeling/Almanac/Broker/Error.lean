/-
  Almanac.Broker.Error

  Why the broker refuses a request.
-/
import Almanac.Text.Decimal
import Almanac.Text.Quoted

namespace Almanac.Broker

/-- An error of the broker. -/
inductive Error
  /-- The broker was not started, or has been stopped. -/
  | notConnected
  | queueNotFound (name : String)
  /-- The queue has a consumer that keeps others off. -/
  | exclusiveQueue (name : String)
  /-- A message that has to reach a queue reaches none. -/
  | unroutable (exchange routingKey : String)
  | unknownDeliveryTag (tag : Nat)
  /-- The connection broke. -/
  | closed (reason : String)
deriving DecidableEq, Repr

namespace Error

def text : Error → String
  | notConnected => "broker is not connected"
  | queueNotFound name => "queue not found: " ++ name
  | exclusiveQueue name => "queue " ++ name ++ " is locked by an exclusive consumer"
  | unroutable exchange routingKey =>
    "no queue bound for exchange " ++ quoted exchange ++ " with routing key " ++ quoted routingKey
  | unknownDeliveryTag tag => "unknown delivery tag " ++ natText tag
  | closed reason => "broker closed: " ++ reason

/-- Whether the error is about the connection and not about the request. -/
def isConnectionLoss : Error → Bool
  | notConnected => true
  | closed _ => true
  | _ => false

end Error

end Almanac.Broker
