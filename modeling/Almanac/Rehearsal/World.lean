/-
  Almanac.Rehearsal.World

  The world of a rehearsal: a storage and a broker with faults, the gate of the calendar,
  the shutdown signal, and the tasks in the background. Its clock stands still unless it
  is moved; the calendar clock shows the same instant all the time.

  The world itself is data; `Almanac.Rehearsal.Task` says what the tasks do.
-/
import Almanac.Net.Listener
import Almanac.Rehearsal.Fault
import Almanac.Rehearsal.Gate
import Almanac.Scheduler.Tick
import Almanac.Sender
import Almanac.Shutdown
import Almanac.Supervisor

namespace Almanac.Rehearsal

open Service (Component)

/-- A scheduler and the handle that stops it. -/
structure SchedulerCell where
  settings : Scheduler.Settings := {}
  tally : Scheduler.Tally := {}
  stop : Shutdown.Channel := {}
deriving Inhabited

/-- A sender and the handle that stops it. -/
structure SenderCell where
  settings : Broker.ConsumeSettings := {}
  tally : Sender.Tally := {}
  stop : Shutdown.Channel := {}
deriving Inhabited

/-- A run of a supervisor. -/
structure Run where
  settings : Supervisor.Settings
  phase : Supervisor.Phase := .starting
  /-- The places of its scheduler and its sender. -/
  scheduler : Nat
  sender : Nat
  children : List (Component × Nat) := []

/-- What a task does. -/
inductive Job
  /-- A server, until it is asked to end. -/
  | server (asked : Bool)
  /-- The loop of a scheduler: when its next tick is due, if it has begun, and the tick under
      way. -/
  | scheduler (cell : Nat) (alarm : Option Nat) (tick : Option (Scheduler.Tick × Scheduler.Stage))
  | sender (cell : Nat) (stage : Sender.Stage)
  | supervisor (run : Run)

/-- How a task is. -/
inductive Status
  | running
  /-- In a call that never returns. -/
  | stuck
  | ended (how : Supervisor.Ending)
  | aborted

/-- A task in the background. -/
structure Task where
  job : Job
  /-- A failure of it sets off the shutdown signal. -/
  supervised : Bool := false
  status : Status := .running

/-- Whether a task can still do something. -/
def Task.isRunning (t : Task) : Bool :=
  match t.status with
  | .running => true
  | _ => false

structure World where
  /-- Milliseconds since the world began. -/
  clock : Nat := 0
  /-- Milliseconds that the machine had been up by then. -/
  uptime : Nat := 86400000
  /-- What the calendar clock shows. -/
  wall : Instant
  /-- The storage is a database that cannot be reached. -/
  closedDatabase : Bool := false
  memory : Storage.MemoryState := {}
  broker : Broker.State Bytes := {}
  faults : Faults := {}
  gate : Gate := {}
  listeners : List Net.Address := []
  root : Shutdown.Channel := {}
  schedulers : List SchedulerCell := []
  senders : List SenderCell := []
  tasks : List Task := []
  /-- Until when the caller in front waits for an answer. -/
  patience : Nat := 0

namespace World

/-! ## Parts -/

/-- The storage without faults. -/
def bareStorage (closed : Bool) : Storage World :=
  if closed then Storage.closedDatabase
  else Storage.memory.zoom World.memory fun m w => { w with memory := m }

def storage (closed : Bool) : Storage World := faultyStorage World.faults (bareStorage closed)

/-- The broker without faults. -/
def bareBroker : Broker.Client World :=
  Broker.Client.memory.zoom World.broker fun b w => { w with broker := b }

def client : Broker.Client World := faultyBroker World.faults bareBroker

def task? (w : World) (i : Nat) : Option Task := w.tasks[i]?

def setTask (w : World) (i : Nat) (f : Task → Task) : World :=
  { w with tasks := w.tasks.modify i f }

/-- The world with the job of a task changed. -/
def setJob (w : World) (i : Nat) (job : Job) : World := w.setTask i fun t => { t with job }

def spawn (w : World) (t : Task) : World := { w with tasks := w.tasks ++ [t] }

/-- Adds a scheduler that does not run yet. -/
def addScheduler (w : World) (settings : Scheduler.Settings) : World :=
  { w with schedulers := w.schedulers ++ [{ settings }] }

/-- Adds a sender that does not run yet. -/
def addSender (w : World) (settings : Broker.ConsumeSettings) : World :=
  { w with senders := w.senders ++ [{ settings }] }

/-- Triggers the shutdown signal. -/
def shutDown (w : World) : World := { w with root := w.root.trigger }

def stopScheduler (w : World) (cell : Nat) : World :=
  { w with schedulers := w.schedulers.modify cell fun c => { c with stop := c.stop.trigger } }

def stopSender (w : World) (cell : Nat) : World :=
  { w with senders := w.senders.modify cell fun c => { c with stop := c.stop.trigger } }

/-- Runs a scheduler in the background. -/
def runScheduler (w : World) (cell : Nat) : World :=
  w.spawn { job := .scheduler cell none none }

/-- Runs a new sender in the background. -/
def runSender (w : World) (settings : Broker.ConsumeSettings) : World :=
  (w.addSender settings).spawn { job := .sender w.senders.length .registering }

/-- Runs a supervisor in the background, with a scheduler and a sender of its own. -/
def runSupervisor (w : World) (settings : Supervisor.Settings) : World :=
  let run : Run := { settings, scheduler := w.schedulers.length, sender := w.senders.length }
  ((w.addScheduler settings.scheduler).addSender settings.consume).spawn
    { job := .supervisor run }

end World

end Almanac.Rehearsal
