/-
  Almanac.Storage.Store

  Users and events in two tables keyed by id. Every listing is sorted, events by their
  beginning and then by id, users by id, so it depends only on what the tables hold.
-/
import Almanac.Event
import Almanac.Storage.Error
import Almanac.Table
import Almanac.Time.Window
import Almanac.User

namespace Almanac

/-- What an in-memory storage holds. -/
structure Store where
  users : Table User := []
  events : Table Event := []
deriving DecidableEq, Inhabited

def Event.listedBefore (a b : Event) : Bool :=
  a.beginning < b.beginning || (a.beginning == b.beginning && a.id ≤ b.id)

def User.listedBefore (a b : User) : Bool := a.id ≤ b.id

namespace Store

def createUser (s : Store) (id : String) (u : UserDraft) : Store :=
  { s with users := s.users.insert id (u.identified id) }

/-- All users by id. -/
def listUsers (s : Store) : List User := s.users.values.mergeSort User.listedBefore

def deleteUser (s : Store) (id : String) : Except StorageError Store :=
  if (s.users.get? id).isSome then .ok { s with users := s.users.erase id }
  else .error (.missing "user" id)

def createEvent (s : Store) (id : String) (e : EventDraft) : Store :=
  { s with events := s.events.insert id (e.identified id) }

/-- Puts an event in the place of the stored one with its id. -/
def updateEvent (s : Store) (e : Event) : Except StorageError Store :=
  if (s.events.get? e.id).isSome then .ok { s with events := s.events.insert e.id e }
  else .error (.missing "event" e.id)

def deleteEvent (s : Store) (id : String) : Except StorageError Store :=
  if (s.events.get? id).isSome then .ok { s with events := s.events.erase id }
  else .error (.missing "event" id)

/-- The events that satisfy a condition, in listing order. -/
def listWhere (s : Store) (p : Event → Bool) : List Event :=
  (s.events.values.filter p).mergeSort Event.listedBefore

def listEvents (s : Store) : List Event := s.listWhere fun _ => true

def eventsIn (s : Store) (w : Window) : List Event := s.listWhere fun e => w.contains e.beginning

/-- The events with a notification in the second of an instant. -/
def eventsAt (s : Store) (t : Instant) : List Event :=
  s.listWhere fun e => e.notification.floorSecond == t.floorSecond

/-- The events with a notification second after that of `after`, and not after that of `limit`. -/
def eventsDueBetween (s : Store) (after limit : Instant) : List Event :=
  s.listWhere fun e =>
    let second := e.notification.floorSecond
    decide (after.floorSecond < second) && decide (second ≤ limit.floorSecond)

def eventsBefore (s : Store) (t : Instant) : List Event :=
  s.listWhere fun e => decide (e.beginning < t)

end Store

end Almanac
