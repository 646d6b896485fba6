/-
  Almanac.Storage.Backend

  A storage as its users see it: a record of operations, each of them an action on a
  shared state. There are two of them here, one over a `Store` in memory and one for a
  database whose connections have been closed.
-/
import Almanac.Action
import Almanac.Storage.Identifier
import Almanac.Storage.Store

namespace Almanac

abbrev StorageAction (σ α : Type) := Action σ (Except StorageError α)

def refuse {σ α : Type} (e : StorageError) : StorageAction σ α := Action.answer (.error e)

/-- The operations of a storage over a state `σ`. -/
structure Storage (σ : Type) where
  name : String
  createUser : UserDraft → StorageAction σ String
  listUsers : StorageAction σ (List User)
  deleteUser : String → StorageAction σ Unit
  createEvent : EventDraft → StorageAction σ String
  listEvents : StorageAction σ (List Event)
  updateEvent : Event → StorageAction σ Unit
  deleteEvent : String → StorageAction σ Unit
  eventsIn : Window → StorageAction σ (List Event)
  eventsAt : Instant → StorageAction σ (List Event)
  eventsDueBetween : Instant → Instant → StorageAction σ (List Event)
  eventsBefore : Instant → StorageAction σ (List Event)

namespace Storage

variable {σ : Type}

/-- The events of a window that may not exist; asking for those of a window that would end
    before it starts is a fault of the caller and crashes. -/
def eventsOfWindow (storage : Storage σ) : Option Window → StorageAction σ (List Event)
  | some w => storage.eventsIn w
  | none => Action.crash Window.reversedMessage

/-- The events that begin on the day of an instant. -/
def eventsOfDay (storage : Storage σ) (t : Instant) : StorageAction σ (List Event) :=
  storage.eventsOfWindow (Window.day? t)

/-- The events that begin in the seven days from an instant. -/
def eventsOfWeek (storage : Storage σ) (t : Instant) : StorageAction σ (List Event) :=
  storage.eventsOfWindow (Window.week? t)

/-- The events that begin in the month from an instant. -/
def eventsOfMonth (storage : Storage σ) (t : Instant) : StorageAction σ (List Event) :=
  storage.eventsOfWindow (Window.month? t)

/-! ## In memory -/

/-- A store and the source of its ids. -/
structure MemoryState where
  store : Store := {}
  ids : IdSource := {}
deriving Inhabited

/-- An answer that only looks at the store. -/
def look {α : Type} (f : Store → α) : StorageAction MemoryState α :=
  Action.update fun s => (.ok (f s.store), s)

/-- A change of the store that may be refused, in which case the store stays as it is. -/
def change (f : Store → Except StorageError Store) : StorageAction MemoryState Unit :=
  Action.update fun s =>
    match f s.store with
    | .ok store => (.ok (), { s with store })
    | .error e => (.error e, s)

/-- A record put into the store under a new id. -/
def create (f : Store → String → Store) : StorageAction MemoryState String :=
  Action.update fun s =>
    let (id, ids) := s.ids.next
    (.ok id, { store := f s.store id, ids })

def memory : Storage MemoryState where
  name := "memory"
  createUser u := create fun s id => s.createUser id u
  listUsers := look Store.listUsers
  deleteUser id := change (·.deleteUser id)
  createEvent e := create fun s id => s.createEvent id e
  listEvents := look Store.listEvents
  updateEvent e := change (·.updateEvent e)
  deleteEvent id := change (·.deleteEvent id)
  eventsIn w := look (·.eventsIn w)
  eventsAt t := look (·.eventsAt t)
  eventsDueBetween after limit := look (·.eventsDueBetween after limit)
  eventsBefore t := look (·.eventsBefore t)

/-! ## A closed database -/

/-- The largest age a database row can hold. -/
def maxStoredAge : Nat := 2147483647

/-- What every operation on a closed connection pool answers. -/
def unreachable {α : Type} : StorageAction σ α := refuse DatabaseFault.poolClosed.toError

/-- A database whose connection pool is closed. Ages that no row can hold are refused before
    the database is asked. -/
def closedDatabase : Storage σ where
  name := "postgres"
  createUser u :=
    if maxStoredAge < u.age then
      refuse (.refused ("age " ++ natText u.age ++ " out of range"))
    else unreachable
  listUsers := unreachable
  deleteUser _ := unreachable
  createEvent _ := unreachable
  listEvents := unreachable
  updateEvent _ := unreachable
  deleteEvent _ := unreachable
  eventsIn _ := unreachable
  eventsAt _ := unreachable
  eventsDueBetween _ _ := unreachable
  eventsBefore _ := unreachable

/-! ## Other views of a storage -/

/-- The storage on a part of a larger state. -/
def zoom {τ : Type} (storage : Storage τ) (get : σ → τ) (set : τ → σ → σ) : Storage σ where
  name := storage.name
  createUser u := Action.zoom get set (storage.createUser u)
  listUsers := Action.zoom get set storage.listUsers
  deleteUser id := Action.zoom get set (storage.deleteUser id)
  createEvent e := Action.zoom get set (storage.createEvent e)
  listEvents := Action.zoom get set storage.listEvents
  updateEvent e := Action.zoom get set (storage.updateEvent e)
  deleteEvent id := Action.zoom get set (storage.deleteEvent id)
  eventsIn w := Action.zoom get set (storage.eventsIn w)
  eventsAt t := Action.zoom get set (storage.eventsAt t)
  eventsDueBetween after limit :=
    Action.zoom get set (storage.eventsDueBetween after limit)
  eventsBefore t := Action.zoom get set (storage.eventsBefore t)

end Storage

end Almanac
