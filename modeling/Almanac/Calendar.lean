/-
  Almanac.Calendar

  The calendar in front of a storage. Events are checked before they are written: a
  title that is not blank, and a finish not before the beginning. Notifications are
  stored rounded down to the second. Every other call goes straight through.
-/
import Almanac.Storage.Backend
import Almanac.Text.Blank
import Almanac.Text.Quoted

namespace Almanac

/-- What is wrong with an event, if anything; the title is looked at first. -/
def EventDraft.fault? (e : EventDraft) : Option StorageError :=
  if isAllBlank e.title then some (.refused "event title must not be empty")
  else if e.finish < e.beginning then some (.refused "event finish precedes its beginning")
  else none

/-- The calendar over a storage. -/
structure Calendar (σ : Type) where
  storage : Storage σ

namespace Calendar

variable {σ : Type} (c : Calendar σ)

/-- The name of the storage. -/
def backend : String := c.storage.name

def text : String := "Calendar \x7b backend: " ++ quoted c.backend ++ " \x7d"

def createUser (u : UserDraft) : StorageAction σ String := c.storage.createUser u

def listUsers : StorageAction σ (List User) := c.storage.listUsers

def deleteUser (id : String) : StorageAction σ Unit := c.storage.deleteUser id

def createEvent (e : EventDraft) : StorageAction σ String :=
  match e.fault? with
  | some fault => refuse fault
  | none => c.storage.createEvent e.rounded

def listEvents : StorageAction σ (List Event) := c.storage.listEvents

/-- Puts an event in the place of the one with its id. -/
def updateEvent (e : Event) : StorageAction σ Unit :=
  match e.toEventDraft.fault? with
  | some fault => refuse fault
  | none => c.storage.updateEvent e.rounded

def deleteEvent (id : String) : StorageAction σ Unit := c.storage.deleteEvent id

/-- The events that begin on the day of an instant. -/
def eventsOfDay (t : Instant) : StorageAction σ (List Event) :=
  c.storage.eventsOfDay t

/-- The events that begin in the seven days from an instant. -/
def eventsOfWeek (t : Instant) : StorageAction σ (List Event) :=
  c.storage.eventsOfWeek t

/-- The events that begin in the month from an instant. -/
def eventsOfMonth (t : Instant) : StorageAction σ (List Event) :=
  c.storage.eventsOfMonth t

/-- The events with a notification in the second of an instant. -/
def eventsAt (t : Instant) : StorageAction σ (List Event) :=
  c.storage.eventsAt t

/-- The events with a notification second after `after` and not after `limit`. -/
def eventsDueBetween (after limit : Instant) : StorageAction σ (List Event) :=
  c.storage.eventsDueBetween after limit

def eventsBefore (t : Instant) : StorageAction σ (List Event) :=
  c.storage.eventsBefore t

end Calendar

end Almanac
