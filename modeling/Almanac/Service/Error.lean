/-
  Almanac.Service.Error

  Why the service, or one of its components, fails.
-/
import Almanac.Broker.Error
import Almanac.Notification
import Almanac.Storage.Error

namespace Almanac.Service

/-- The parts that the service can run. -/
inductive Component
  | http
  | grpc
  | scheduler
  | sender
deriving DecidableEq, Repr, Inhabited

def Component.name : Component → String
  | http => "http"
  | grpc => "grpc"
  | scheduler => "scheduler"
  | sender => "sender"

/-- An error of the service. -/
inductive Error
  /-- The operating system refused something. -/
  | io (message : String)
  | storage (cause : StorageError)
  | broker (cause : Broker.Error)
  | wire (cause : WireError)
  /-- A component cannot listen on its address. -/
  | bind (component address message : String)
  /-- The sender cannot be registered as a consumer. -/
  | consume (queue : String) (cause : Broker.Error)
  /-- The stream of the sender ended although nobody stopped it. -/
  | consumerClosed (queue : String)
  | serve (component message : String)
  | config (message : String)

namespace Error

def text : Error → String
  | io message => "IO error: " ++ message
  | storage cause => "storage error: " ++ cause.text
  | broker cause => "broker error: " ++ cause.text
  | wire cause => "protocol error: " ++ cause.message ""
  | bind component address message =>
    "failed to bind " ++ component ++ " listener on " ++ address ++ ": " ++ message
  | consume queue cause => "failed to consume from queue " ++ queue ++ ": " ++ cause.text
  | consumerClosed queue => "consumer stream for queue " ++ queue ++ " closed unexpectedly"
  | serve component message => component ++ " server failed: " ++ message
  | config message => "Configuration error: " ++ message

end Error

end Almanac.Service
