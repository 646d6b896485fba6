/-
  Almanac.Notification

  The message that announces an event whose notification time has come, and its codec:
  JSON text of at most 64 KiB. `encode` and `decode` check the size against the same
  limit, so whatever the one writes the other reads.
-/
import Almanac.Event

namespace Almanac

/-- The announcement of an event. -/
structure Notification where
  id : String
  title : String
  description : String
  notification : Instant
deriving DecidableEq

def Event.announcement (e : Event) : Notification where
  id := e.id
  title := e.title
  description := e.description
  notification := e.notification

namespace Notification

open Json in
def layout : Layout Notification where
  fields := [("id", .text), ("title", .text), ("description", .text), ("notification", .instant)]
  parts n := [.text n.id, .text n.title, .text n.description, .instant n.notification]
  build
    | [some (.text id), some (.text title), some (.text description),
        some (.instant notification)] => some { id, title, description, notification }
    | _ => none

/-- The largest size of an encoded notification in bytes. -/
def maxSize : Nat := 65536

/-- What an encoded notification says it is. -/
def contentType : String := "application/json"

end Notification

/-- Faults of data on the wire. -/
inductive WireError
  | tooLarge (size limit : Nat)
  | json (fault : Json.Fault)
  | empty
  | missingField (name : String)
  | invalidTimestamp (field : String)
deriving DecidableEq

namespace WireError

/-- The text of a wire error; `detail` is the wording of a JSON fault. -/
def message (detail : String) : WireError → String
  | tooLarge size limit =>
    "message too large: " ++ natText size ++ " bytes (max: " ++ natText limit ++ ")"
  | json _ => "serialization failed: " ++ detail
  | empty => "empty message"
  | missingField name => "missing field: " ++ name
  | invalidTimestamp field => "invalid timestamp in field " ++ field

end WireError

namespace Notification

/-- The bytes of a notification, if they are not too many. -/
def encode (n : Notification) : Except WireError Bytes :=
  let body := layout.encode n
  if maxSize < body.length then .error (.tooLarge body.length maxSize) else .ok body

def decode (body : Bytes) : Except WireError Notification :=
  if body.isEmpty then .error .empty
  else if maxSize < body.length then .error (.tooLarge body.length maxSize)
  else match layout.decode body with
    | .ok n => .ok n
    | .error fault => .error (.json fault)

end Notification

end Almanac
