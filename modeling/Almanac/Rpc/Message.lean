/-
  Almanac.Rpc.Message

  The messages of the remote calls and their protobuf form. Users travel as they are;
  events and dates carry timestamps that may be missing or out of range, so reading
  them back as domain values can fail.
-/
import Almanac.Notification
import Almanac.Protobuf.Field
import Almanac.User

namespace Almanac.Rpc

open Protobuf

/-! ## Timestamps -/

/-- Seconds and nanoseconds since 1970, as 64 and 32 bits. -/
structure Timestamp where
  seconds : Int := 0
  nanos : Int := 0
deriving DecidableEq

namespace Timestamp

def ofInstant (t : Instant) : Timestamp := ⟨t.unixSeconds, t.frac⟩

def toInstant? (ts : Timestamp) : Option Instant :=
  if ts.nanos < 0 then none else Instant.ofUnix? ts.seconds ts.nanos.toNat

/-- Takes a field of a timestamp into account. -/
def merge (ts : Timestamp) (f : Field) : Option Timestamp :=
  match f.number, f.payload with
  | 1, .varint n => some { ts with seconds := toSigned 64 n }
  | 2, .varint n => some { ts with nanos := toSigned 32 n }
  | 1, _ => none
  | 2, _ => none
  | _, _ => some ts

def fields (ts : Timestamp) : List Field :=
  varintField 1 (ofSigned ts.seconds) ++ varintField 2 (ofSigned ts.nanos)

/-- Takes the bytes of a timestamp field into account, on top of an earlier one. -/
def mergePayload (level : Nat) (ts : Option Timestamp) : Payload → Option Timestamp
  | .bytes b => do (← fields? level b).foldlM merge (ts.getD {})
  | _ => none

def field (number : Nat) (ts : Option Timestamp) : List Field :=
  match ts with
  | some ts => [⟨number, .bytes (encodeFields ts.fields)⟩]
  | none => []

/-- The instant of a field that has to be there. -/
def required (name : String) (ts : Option Timestamp) : Except WireError Instant :=
  match ts with
  | none => .error (.missingField name)
  | some ts =>
    match ts.toInstant? with
    | some t => .ok t
    | none => .error (.invalidTimestamp name)

end Timestamp

/-! ## Messages -/

/-- How a message type is read and written. `merge` takes one field into account at a
    nesting level; unknown fields change nothing, known ones of a wrong type fail. -/
class Message (α : Type) where
  default : α
  merge : Nat → α → Field → Option α
  fields : α → List Field

def Message.decodeAt {α : Type} [Message α] (level : Nat) (s : Bytes) : Option α := do
  (← fields? level s).foldlM (merge level) default

def Message.decode {α : Type} [Message α] (s : Bytes) : Option α := decodeAt 0 s

def Message.encode {α : Type} [Message α] (m : α) : Bytes := encodeFields (fields m)

/-- A user, with the empty id for one that has none. -/
instance : Message User where
  default := { id := "", firstName := "", lastName := "", email := "", age := 0 }
  merge _ u f :=
    match f.number, f.payload with
    | 1, p => p.text?.map fun id => { u with id }
    | 2, p => p.text?.map fun firstName => { u with firstName }
    | 3, p => p.text?.map fun lastName => { u with lastName }
    | 4, p => p.text?.map fun email => { u with email }
    | 5, .varint n => some { u with age := n % 4294967296 }
    | 5, _ => none
    | _, _ => some u
  fields u := textField 1 u.id ++ textField 2 u.firstName ++ textField 3 u.lastName
    ++ textField 4 u.email ++ varintField 5 u.age

/-- An event whose times may be missing. -/
structure EventMessage where
  id : String := ""
  title : String := ""
  description : String := ""
  beginning : Option Timestamp := none
  finish : Option Timestamp := none
  notification : Option Timestamp := none
  userId : String := ""
deriving DecidableEq

instance : Message EventMessage where
  default := {}
  merge level e f :=
    let stamp (ts : Option Timestamp) := Timestamp.mergePayload (level + 1) ts f.payload
    match f.number with
    | 1 => f.payload.text?.map fun id => { e with id }
    | 2 => f.payload.text?.map fun title => { e with title }
    | 3 => f.payload.text?.map fun description => { e with description }
    | 4 => (stamp e.beginning).map fun ts => { e with beginning := some ts }
    | 5 => (stamp e.finish).map fun ts => { e with finish := some ts }
    | 6 => (stamp e.notification).map fun ts => { e with notification := some ts }
    | 7 => f.payload.text?.map fun userId => { e with userId }
    | _ => some e
  fields e := textField 1 e.id ++ textField 2 e.title ++ textField 3 e.description
    ++ Timestamp.field 4 e.beginning ++ Timestamp.field 5 e.finish
    ++ Timestamp.field 6 e.notification ++ textField 7 e.userId

/-- A message without content. -/
structure Void where
deriving DecidableEq

instance : Message Void where
  default := {}
  merge _ v _ := some v
  fields _ := []

structure Id where
  id : String := ""
deriving DecidableEq

instance : Message Id where
  default := {}
  merge _ i f := if f.number = 1 then f.payload.text?.map Id.mk else some i
  fields i := textField 1 i.id

/-- A list of messages. -/
structure Listing (α : Type) where
  items : List α
deriving DecidableEq

instance {α : Type} [Message α] : Message (Listing α) where
  default := ⟨[]⟩
  merge level l f :=
    match f.number, f.payload with
    | 1, .bytes b => (Message.decodeAt (level + 1) b).map fun item => ⟨l.items ++ [item]⟩
    | 1, _ => none
    | _, _ => some l
  fields l := l.items.map fun item => ⟨1, .bytes (Message.encode item)⟩

/-- The reference date of a windowed listing. -/
structure DateMessage where
  date : Option Timestamp := none
deriving DecidableEq

instance : Message DateMessage where
  default := {}
  merge level d f :=
    if f.number = 1 then
      (Timestamp.mergePayload (level + 1) d.date f.payload).map fun ts => ⟨some ts⟩
    else some d
  fields d := Timestamp.field 1 d.date

/-! ## Domain values -/

/-- The request for the window at an instant. -/
def DateMessage.ofInstant (t : Instant) : DateMessage := ⟨some (.ofInstant t)⟩

def DateMessage.reference (d : DateMessage) : Except WireError Instant :=
  Timestamp.required "date" d.date

def EventMessage.ofEvent (e : Event) : EventMessage where
  id := e.id
  title := e.title
  description := e.description
  beginning := some (.ofInstant e.beginning)
  finish := some (.ofInstant e.finish)
  notification := some (.ofInstant e.notification)
  userId := e.userId

/-- The new event of a message, whose id is ignored. -/
def EventMessage.toEventDraft (m : EventMessage) : Except WireError EventDraft := do
  let beginning ← Timestamp.required "beginning" m.beginning
  let finish ← Timestamp.required "finish" m.finish
  let notification ← Timestamp.required "notification" m.notification
  pure { title := m.title, description := m.description, beginning, finish, notification,
         userId := m.userId }

def EventMessage.toEvent (m : EventMessage) : Except WireError Event :=
  (m.toEventDraft).map (·.identified m.id)

end Almanac.Rpc
