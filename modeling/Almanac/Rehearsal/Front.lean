/-
  Almanac.Rehearsal.Front

  Calls that are made in front of the tasks, one at a time. A call goes through the gate
  of the calendar, and while it waits there the clock moves and the tasks run. A call
  that gets no answer is given up after a minute.
-/
import Almanac.Http.Router
import Almanac.Rehearsal.Clock
import Almanac.Rpc.Service

namespace Almanac.Rehearsal

/-- How long a call may take, in milliseconds. -/
def callLimit : Nat := 60000

namespace World

/-- Lets the caller in front into the gate, or lets it wait for that as long as it has patience. -/
def awaitGate (a : Access) (w : World) : World :=
  let free (w : World) : Bool := w.gate.admits .front a
  if free w then w
  else pass free w.patience { w with gate := w.gate.wait .front a }

/-- A call that passes the gate. -/
def guarded {α : Type} (a : Access) (act : StorageAction World α) : StorageAction World α :=
  fun w =>
    let w := w.awaitGate a
    if !w.gate.admits .front a then (.error .never, w)
    else
      match act { w with gate := w.gate.enter .front a } with
      | (.error .never, w) => (.error .never, w)
      | (r, w) => (r, { w with gate := w.gate.leave .front })

/-- The storage behind the gate. -/
def guardedStorage (closed : Bool) : Storage World :=
  let s := storage closed
  { name := s.name
    createUser := fun u => guarded .write (s.createUser u)
    listUsers := guarded .read s.listUsers
    deleteUser := fun id => guarded .write (s.deleteUser id)
    createEvent := fun e => guarded .write (s.createEvent e)
    listEvents := guarded .read s.listEvents
    updateEvent := fun e => guarded .write (s.updateEvent e)
    deleteEvent := fun id => guarded .write (s.deleteEvent id)
    eventsIn := fun window => guarded .read (s.eventsIn window)
    eventsAt := fun t => guarded .read (s.eventsAt t)
    eventsDueBetween := fun after limit =>
      guarded .read (s.eventsDueBetween after limit)
    eventsBefore := fun t => guarded .read (s.eventsBefore t) }

def calendar (closed : Bool) : Calendar World := ⟨guardedStorage closed⟩

/-- One tick of a scheduler, made in front. -/
def tick (cell : Nat) (now : Instant) : Action World (Scheduler.Report × Scheduler.Tally) := do
  let w ← Action.look id
  let c := w.schedulers.getD cell {}
  let s : Scheduler World :=
    { settings := c.settings, calendar := calendar w.closedDatabase, broker := client }
  let (report, tally) ← s.tick c.tally now
  Action.modify fun w =>
    { w with schedulers := w.schedulers.modify cell fun c => { c with tally } }
  return (report, tally)

/-- Makes a call in front. A call without an answer is given up when the patience is at its end,
    and with it whatever the call held. -/
def front {α : Type} (act : Action World α) (w : World) : Except Stall α × World :=
  let w := { w with patience := w.clock + callLimit }
  match act w with
  | (.error .never, w) =>
    let w := w.pass (fun _ => false) w.patience
    (.error .never, { w with gate := w.gate.leave .front })
  | answer => answer

end World

end Almanac.Rehearsal
