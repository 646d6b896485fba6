/-
  Almanac.Broker.Client

  A broker as its users see it: a record of operations, each of them an action on a
  shared state.
-/
import Almanac.Action
import Almanac.Broker.State
import Almanac.Text.Bytes

namespace Almanac.Broker

/-- An action that may be refused by the broker. -/
abbrev ClientAction (σ α : Type) := Action σ (Except Error α)

/-- The operations of a broker over a state `σ`. -/
structure Client (σ : Type) where
  name : String
  start : ClientAction σ Unit
  stop : ClientAction σ Unit
  declare : QueueSettings → ClientAction σ Unit
  consume : ConsumeSettings → ClientAction σ Consumer
  publish : PublishSettings → Bytes → ClientAction σ Unit
  /-- Looks into the stream of a consumer. -/
  receive : Consumer → Action σ (Received Bytes)
  ack : (tag : Nat) → (multiple : Bool) → ClientAction σ Unit
  drop : Consumer → Action σ Unit

namespace Client

def memory : Client (State Bytes) where
  name := State.name
  start := Action.update fun s => (.ok (), s.start)
  stop := Action.update fun s => (.ok (), s.stop)
  declare settings := Action.update fun s => s.declare settings
  consume settings := Action.update fun s => s.consume settings
  publish settings body := Action.update fun s => s.publish settings body
  receive c := Action.update fun s => s.receive c
  ack tag multiple := Action.update fun s => s.ack tag multiple
  drop c := Action.update fun s => ((), s.drop c)

/-- The broker on a part of a larger state. -/
def zoom {σ τ : Type} (client : Client τ) (get : σ → τ) (set : τ → σ → σ) : Client σ where
  name := client.name
  start := Action.zoom get set client.start
  stop := Action.zoom get set client.stop
  declare settings := Action.zoom get set (client.declare settings)
  consume settings := Action.zoom get set (client.consume settings)
  publish settings body := Action.zoom get set (client.publish settings body)
  receive c := Action.zoom get set (client.receive c)
  ack tag multiple := Action.zoom get set (client.ack tag multiple)
  drop c := Action.zoom get set (client.drop c)

end Client

end Almanac.Broker
