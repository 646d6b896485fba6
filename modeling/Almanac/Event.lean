/-
  Almanac.Event

  Calendar events, before and after they are stored, and their JSON forms. The strict
  form has every field; the lenient one may leave the description out.
-/
import Almanac.Json.Record

namespace Almanac

/-- An event that has not been stored yet. -/
structure EventDraft where
  title : String
  description : String
  beginning : Instant
  finish : Instant
  /-- When the owner is to be alerted. -/
  notification : Instant
  userId : String
deriving DecidableEq

/-- A stored event. -/
structure Event extends EventDraft where
  id : String
deriving DecidableEq

/-- The stored form under an id. -/
def EventDraft.identified (e : EventDraft) (id : String) : Event := { e with id }

/-- The event with its notification rounded down to the second. -/
def EventDraft.rounded (e : EventDraft) : EventDraft :=
  { e with notification := e.notification.floorSecond }

/-- The stored event with its notification rounded down to the second. -/
def Event.rounded (e : Event) : Event := e.toEventDraft.rounded.identified e.id

open Json in
def EventDraft.layout : Layout EventDraft where
  fields := [("title", .text), ("description", .text), ("beginning", .instant),
    ("finish", .instant), ("notification", .instant), ("userId", .text)]
  parts e := [.text e.title, .text e.description, .instant e.beginning, .instant e.finish,
    .instant e.notification, .text e.userId]
  build
    | [some (.text title), some (.text description), some (.instant beginning),
        some (.instant finish), some (.instant notification), some (.text userId)] =>
      some { title, description, beginning, finish, notification, userId }
    | _ => none

open Json in
/-- A new event in JSON whose description is empty when left out. -/
def EventDraft.lenientLayout : Layout EventDraft where
  fields := EventDraft.layout.fields
  parts := EventDraft.layout.parts
  build
    | title :: none :: rest => EventDraft.layout.build (title :: some (.text "") :: rest)
    | parts => EventDraft.layout.build parts

open Json in
/-- A layout with the id of the stored event in front. -/
def Event.layoutFrom (base : Layout EventDraft) : Layout Event where
  fields := ("id", .text) :: base.fields
  parts e := .text e.id :: base.parts e.toEventDraft
  build
    | some (.text id) :: rest => (base.build rest).map (·.identified id)
    | _ => none

def Event.layout : Json.Layout Event := Event.layoutFrom EventDraft.layout

/-- A stored event in JSON whose description is empty when left out. -/
def Event.lenientLayout : Json.Layout Event := Event.layoutFrom EventDraft.lenientLayout

end Almanac
