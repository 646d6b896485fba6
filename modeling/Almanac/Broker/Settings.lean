/-
  Almanac.Broker.Settings

  What a client tells the broker when it declares a queue, registers as a consumer or
  publishes a message. Every setting has a default; together they describe one
  notification queue that is reached through the default exchange.
-/
import Almanac.Json.Record

namespace Almanac.Broker

open Json (Layout Scalar)

/-- The queue that carries notifications unless another is chosen. -/
def defaultQueue : String := "calendar.notifications"

structure QueueSettings where
  name : String := defaultQueue
  /-- Survives a stop of the broker. -/
  durable : Bool := true
  /-- Removed with its last consumer. -/
  autoDelete : Bool := false
  /-- Takes one consumer at a time. -/
  exclusive : Bool := false
deriving DecidableEq, Inhabited

structure ConsumeSettings where
  queue : String := defaultQueue
  /-- The tag asked for; the broker picks one when it is empty. -/
  consumer : String := "calendar-sender"
  /-- Deliveries count as acknowledged when they are handed out. -/
  autoAck : Bool := false
  /-- Keeps other consumers off the queue. -/
  exclusive : Bool := false
deriving DecidableEq, Inhabited

/-- Settings of a published message. -/
structure PublishSettings where
  /-- The empty exchange routes by queue name. -/
  exchange : String := ""
  routingKey : String := defaultQueue
  contentType : String := "application/json"
  /-- Fails instead of dropping a message that no queue takes. -/
  mandatory : Bool := false
deriving DecidableEq, Inhabited

/-! ## JSON -/

/-- The text of a field, or a default when it is missing. -/
def textOr (default : String) : Option Scalar → String
  | some (.text s) => s
  | _ => default

/-- The flag of a field, or a default when it is missing. -/
def flagOr (default : Bool) : Option Scalar → Bool
  | some (.flag b) => b
  | _ => default

def QueueSettings.layout : Layout QueueSettings where
  fields := [("name", .text), ("durable", .flag), ("auto_delete", .flag), ("exclusive", .flag)]
  parts q := [.text q.name, .flag q.durable, .flag q.autoDelete, .flag q.exclusive]
  build
    | [name, durable, autoDelete, exclusive] =>
      let d : QueueSettings := {}
      some { name := textOr d.name name, durable := flagOr d.durable durable,
             autoDelete := flagOr d.autoDelete autoDelete,
             exclusive := flagOr d.exclusive exclusive }
    | _ => none

def ConsumeSettings.layout : Layout ConsumeSettings where
  fields := [("queue", .text), ("consumer", .text), ("auto_ack", .flag), ("exclusive", .flag)]
  parts c := [.text c.queue, .text c.consumer, .flag c.autoAck, .flag c.exclusive]
  build
    | [queue, consumer, autoAck, exclusive] =>
      let d : ConsumeSettings := {}
      some { queue := textOr d.queue queue, consumer := textOr d.consumer consumer,
             autoAck := flagOr d.autoAck autoAck, exclusive := flagOr d.exclusive exclusive }
    | _ => none

def PublishSettings.layout : Layout PublishSettings where
  fields := [("exchange", .text), ("routing_key", .text), ("content_type", .text),
    ("mandatory", .flag)]
  parts p := [.text p.exchange, .text p.routingKey, .text p.contentType, .flag p.mandatory]
  build
    | [exchange, routingKey, contentType, mandatory] =>
      let d : PublishSettings := {}
      some { exchange := textOr d.exchange exchange, routingKey := textOr d.routingKey routingKey,
             contentType := textOr d.contentType contentType,
             mandatory := flagOr d.mandatory mandatory }
    | _ => none

end Almanac.Broker
