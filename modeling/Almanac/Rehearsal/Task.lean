/-
  Almanac.Rehearsal.Task

  What the tasks in the background do. A step of a task changes the world, or there is no
  step because the task waits. A task that ends with an error sets off the shutdown
  signal if it is supervised; one that crashes does not.
-/
import Almanac.Rehearsal.World

namespace Almanac.Rehearsal

open Service (Component)
open Supervisor (Ending)

namespace World

/-- A task ends. -/
def finish (w : World) (i : Nat) (how : Ending) : World :=
  let w := w.setTask i fun t => { t with status := .ended how }
  let w := { w with gate := w.gate.leave (.task i) }
  match how, w.task? i with
  | .failed _, some t => if t.supervised then w.shutDown else w
  | _, _ => w

/-- A task is in a call that never returns. -/
def block (w : World) (i : Nat) : World := w.setTask i fun t => { t with status := .stuck }

/-! ## Schedulers -/

/-- The time so long after another one, if the clock can show it: it counts its seconds in 63
    bits. -/
def after? (w : World) (time wait : Nat) : Option Nat :=
  if (w.uptime + time + wait) / 1000 < 9223372036854775808 then some (time + wait) else none

/-- When the first tick of a scheduler that begins now is due, if it can begin: the interval must
    not be empty. -/
def firstAlarm? (w : World) (interval : Nat) : Option Nat :=
  if interval = 0 then none else w.after? w.clock interval

/-- As good as never: thirty years. -/
def farFuture : Nat := 946080000000

/-- When the tick after one that was due at `alarm` is due: an interval later, or an interval
    from now if it comes late by more than five milliseconds. If the clock cannot show the former,
    the tick is put off; without the latter there is none. -/
def nextAlarm? (w : World) (alarm interval : Nat) : Option Nat :=
  if alarm + 5 < w.clock then w.after? w.clock interval
  else (w.after? alarm interval).or (w.after? w.clock farFuture)

def scheduler (w : World) (settings : Scheduler.Settings) : Scheduler World :=
  { settings, calendar := ⟨storage w.closedDatabase⟩, broker := client }

/-- What the next call of a tick needs of the gate. -/
def accessOf (tick : Scheduler.Tick) : Scheduler.Stage → Option Access
  | .selectingDue => if tick.hasWindow then some .read else none
  | .selectingExpired => some .read
  | .purging (_ :: _) => some .write
  | _ => none

/-- Does what a tick does next. -/
def workOnTick (w : World) (i cell : Nat) (settings : Scheduler.Settings) (alarm : Option Nat)
    (tick : Scheduler.Tick) (stage : Scheduler.Stage) : World :=
  let inside := match accessOf tick stage with
    | some access => { w with gate := w.gate.enter (.task i) access }
    | none => w
  match (w.scheduler settings).step tick stage inside with
  | (.ok (tick, some stage), w) =>
    { w.setJob i (.scheduler cell alarm (some (tick, stage))) with gate := w.gate.leave (.task i) }
  | (.ok (tick, none), w) =>
    let schedulers := w.schedulers.modify cell fun c => { c with tally := tick.recorded c.tally }
    { w.setJob i (.scheduler cell alarm none) with schedulers, gate := w.gate.leave (.task i) }
  | (.error .never, w) => w.block i
  | (.error (.crash _), w) => w.finish i .crashed

/-- One step of a tick, if the gate lets it pass. -/
def stepTick (w : World) (i cell : Nat) (settings : Scheduler.Settings) (alarm : Option Nat)
    (tick : Scheduler.Tick) (stage : Scheduler.Stage) : Option World :=
  match accessOf tick stage with
  | none => some (w.workOnTick i cell settings alarm tick stage)
  | some access =>
    if w.gate.admits (.task i) access then some (w.workOnTick i cell settings alarm tick stage)
    else if w.gate.hasWaiting (.task i) then none
    else some { w with gate := w.gate.wait (.task i) access }

/-- One step of the loop of a scheduler. A request to end is seen between ticks, and before the
    next tick begins. -/
def stepScheduler (w : World) (i cell : Nat) (alarm : Option Nat)
    (tick : Option (Scheduler.Tick × Scheduler.Stage)) : Option World := do
  let c ← w.schedulers[cell]?
  let interval := c.settings.interval
  match tick, alarm with
  | some (tick, stage), _ => w.stepTick i cell c.settings alarm tick stage
  | none, none =>
    match w.firstAlarm? interval with
    | some alarm => some (w.setJob i (.scheduler cell (some alarm) none))
    | none => some (w.finish i .crashed)
  | none, some due =>
    if w.root.triggered || c.stop.triggered then some (w.finish i .clean)
    else if due ≤ w.clock then
      match w.nextAlarm? due interval with
      | some next =>
        let tick := Scheduler.Tick.begin c.settings c.tally w.wall
        some (w.setJob i (.scheduler cell (some next) (some (tick, .selectingDue))))
      | none => some (w.finish i .crashed)
    else none

/-! ## Senders -/

def stepSender (w : World) (i cell : Nat) (stage : Sender.Stage) : Option World := do
  let c ← w.senders[cell]?
  let stopRequested (w : World) : Bool :=
    w.root.triggered || (w.senders[cell]?.map (·.stop.triggered)).getD false
  let sender : Sender World :=
    { settings := c.settings, broker := client, stopRequested := Action.look stopRequested }
  match sender.step c.tally stage w with
  | (.ok .waits, _) => none
  | (.ok (.moved tally stage), w) =>
    let senders := w.senders.modify cell fun c => { c with tally }
    let w := { w.setJob i (.sender cell stage) with senders }
    match stage with
    | .ended (.ok ()) => some (w.finish i .clean)
    | .ended (.error cause) => some (w.finish i (.failed cause))
    | _ => some w
  | (.error .never, w) => some (w.block i)
  | (.error (.crash _), w) => some (w.finish i .crashed)

/-! ## Supervisors -/

/-- Ends a task by force. A sender leaves the broker. -/
def abort (w : World) (i : Nat) : World :=
  let w := w.setTask i fun t => { t with status := .aborted }
  let w := { w with gate := w.gate.leave (.task i) }
  match w.task? i with
  | some ⟨.sender _ (.consuming c), _, _⟩ => { w with broker := w.broker.drop c }
  | _ => w

def run? (w : World) (i : Nat) : Option Run :=
  match w.task? i with
  | some ⟨.supervisor run, _, _⟩ => some run
  | _ => none

/-- The task of a component of a supervisor. -/
def child? (w : World) (i : Nat) (c : Component) : Option Nat :=
  (w.run? i).bind fun run => run.children.lookup c

def bind (w : World) (c : Component) (a : Net.Address) : Except Service.Error Unit × World :=
  match a.bindFault? w.listeners with
  | some fault => (.error (.bind c.name a.text fault.text), w)
  | none => (.ok (), { w with listeners := w.listeners ++ [a] })

/-- Starts the task of a component of a supervisor. -/
def spawnChild (w : World) (i : Nat) (c : Component) : World :=
  match w.run? i with
  | none => w
  | some run =>
    let job : Job := match c with
      | .http | .grpc => .server false
      | .scheduler => .scheduler run.scheduler none none
      | .sender => .sender run.sender .registering
    let run := { run with children := run.children ++ [(c, w.tasks.length)] }
    (w.setJob i (.supervisor run)).spawn { job, supervised := true }

/-- Asks a component of a supervisor to end. -/
def stopChild (w : World) (i : Nat) (c : Component) : World :=
  match c, w.run? i with
  | .scheduler, some run => w.stopScheduler run.scheduler
  | .sender, some run => w.stopSender run.sender
  | _, _ =>
    match w.child? i c with
    | some child => w.setJob child (.server true)
    | none => w

/-- How the task of a component of a supervisor ended. -/
def childEnding (w : World) (i : Nat) (c : Component) : Option Ending := do
  let t ← w.task? (← w.child? i c)
  match t.status with
  | .ended how => some how
  | _ => none

def host (i : Nat) : Supervisor.Host World where
  broker := client
  bind c a := Action.update fun w => w.bind c a
  spawn c := Action.modify fun w => w.spawnChild i c
  stop c := Action.modify fun w => w.stopChild i c
  abort c := Action.modify fun w => ((w.child? i c).map w.abort).getD w
  ending c := Action.look fun w => w.childEnding i c
  shutdown := Action.look fun w => w.root.triggered
  clock := Action.look World.clock

def setPhase (w : World) (i : Nat) (phase : Supervisor.Phase) : World :=
  match w.run? i with
  | some run => w.setJob i (.supervisor { run with phase })
  | none => w

def stepSupervisor (w : World) (i : Nat) (run : Run) : Option World :=
  match Supervisor.step (host i) run.settings run.phase w with
  | (.ok none, _) => none
  | (.ok (some phase), w) =>
    let w := w.setPhase i phase
    match phase with
    | .ended (.ok _) => some (w.finish i .clean)
    | .ended (.error cause) => some (w.finish i (.failed cause))
    | _ => some w
  | (.error .never, w) => some (w.block i)
  | (.error (.crash _), w) => some (w.finish i .crashed)

/-! ## All tasks -/

/-- One step of a task, if it can make one. -/
def stepTask (w : World) (i : Nat) : Option World := do
  let t ← w.task? i
  if !t.isRunning then none
  else match t.job with
    | .server asked => if asked then some (w.finish i .clean) else none
    | .scheduler cell alarm tick => w.stepScheduler i cell alarm tick
    | .sender cell stage => w.stepSender i cell stage
    | .supervisor run => w.stepSupervisor i run

/-- One step of the first task that can make one. -/
def step (w : World) : Option World := (List.range w.tasks.length).findSome? w.stepTask

/-- When a task wants to be woken. -/
def Task.alarm? (t : Task) : Option Nat :=
  if !t.isRunning then none
  else match t.job with
    | .scheduler _ alarm none => alarm
    | .supervisor run => run.phase.deadline?
    | _ => none

/-- The next time after now at which a task wants to be woken. -/
def nextWake (w : World) : Option Nat :=
  ((w.tasks.filterMap Task.alarm?).filter (w.clock < ·)).min?

end World

end Almanac.Rehearsal
