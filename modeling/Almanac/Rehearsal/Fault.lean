/-
  Almanac.Rehearsal.Fault

  Faults that a rehearsal injects: a storage or a broker of which some operations fail,
  never return or crash, for as long as they are told to.
-/
import Almanac.Broker.Client
import Almanac.Storage.Backend

namespace Almanac.Rehearsal

/-- What an operation does in place of its work. -/
inductive Fault (ε : Type)
  | fail (error : ε)
  | hang
  | crash

/-- What a crash that was asked for says. -/
def crashMessage : String := "injected"

/-- The operations of a storage that can have a fault. -/
inductive StorageCall
  | createUser
  | listUsers
  | deleteUser
  | createEvent
  | listEvents
  | updateEvent
  | deleteEvent
  | eventsIn
  | eventsAt
  | eventsDueBetween
  | eventsBefore
deriving DecidableEq, Repr

/-- The operations of a broker that can have a fault. -/
inductive BrokerCall
  | start
  | stop
  | declare
  | consume
  | publish
deriving DecidableEq, Repr

/-- The faults of a rehearsal. -/
structure Faults where
  storage : StorageCall → Option (Fault StorageError) := fun _ => none
  /-- Faults of deleting single events, by their ids. -/
  deletions : Table (Fault StorageError) := []
  broker : BrokerCall → Option (Fault Broker.Error) := fun _ => none
  /-- A fault of publishing only hits bodies that contain this. -/
  marker : Bytes := []

/-- Whether a byte string contains another one. -/
def containsBytes (part : Bytes) : Bytes → Bool
  | [] => part.isEmpty
  | b :: bs => part.isPrefixOf (b :: bs) || containsBytes part bs

namespace Faults

/-- From now on an operation of the storage has this fault, or none. -/
def setStorage (f : Faults) (call : StorageCall) (fault : Option (Fault StorageError)) : Faults :=
  { f with storage := fun c => if c = call then fault else f.storage c }

/-- From now on deleting one event has this fault, or none of its own. -/
def setDeletion (f : Faults) (id : String) (fault : Option (Fault StorageError)) : Faults :=
  match fault with
  | some fault => { f with deletions := f.deletions.insert id fault }
  | none => { f with deletions := f.deletions.erase id }

/-- From now on an operation of the broker has this fault, or none. -/
def setBroker (f : Faults) (call : BrokerCall) (fault : Option (Fault Broker.Error)) : Faults :=
  { f with broker := fun c => if c = call then fault else f.broker c }

/-- The fault of deleting an event; one for that event comes before one for all. -/
def ofDeletion (f : Faults) (id : String) : Option (Fault StorageError) :=
  (f.deletions.get? id).or (f.storage .deleteEvent)

def ofPublishing (f : Faults) (body : Bytes) : Option (Fault Broker.Error) :=
  if containsBytes f.marker body then f.broker .publish else none

end Faults

variable {σ : Type}

def struck {ε α : Type} (fault : σ → Option (Fault ε)) (act : Action σ (Except ε α)) :
    Action σ (Except ε α) := do
  match ← Action.look fault with
  | none => act
  | some (.fail e) => return .error e
  | some .hang => Action.never
  | some .crash => Action.crash crashMessage

def faultyStorage (faults : σ → Faults) (s : Storage σ) : Storage σ :=
  let on {α : Type} (call : StorageCall) (act : StorageAction σ α) : StorageAction σ α :=
    struck (fun w => (faults w).storage call) act
  { name := s.name
    createUser := fun u => on .createUser (s.createUser u)
    listUsers := on .listUsers s.listUsers
    deleteUser := fun id => on .deleteUser (s.deleteUser id)
    createEvent := fun e => on .createEvent (s.createEvent e)
    listEvents := on .listEvents s.listEvents
    updateEvent := fun e => on .updateEvent (s.updateEvent e)
    deleteEvent := fun id => struck (fun w => (faults w).ofDeletion id) (s.deleteEvent id)
    eventsIn := fun window => on .eventsIn (s.eventsIn window)
    eventsAt := fun t => on .eventsAt (s.eventsAt t)
    eventsDueBetween := fun after limit =>
      on .eventsDueBetween (s.eventsDueBetween after limit)
    eventsBefore := fun t => on .eventsBefore (s.eventsBefore t) }

def faultyBroker (faults : σ → Faults) (b : Broker.Client σ) : Broker.Client σ :=
  let on {α : Type} (call : BrokerCall) (act : Broker.ClientAction σ α) :
      Broker.ClientAction σ α :=
    struck (fun w => (faults w).broker call) act
  { b with
    start := on .start b.start
    stop := on .stop b.stop
    declare := fun settings => on .declare (b.declare settings)
    consume := fun settings => on .consume (b.consume settings)
    publish := fun settings body =>
      struck (fun w => (faults w).ofPublishing body) (b.publish settings body) }

end Almanac.Rehearsal
