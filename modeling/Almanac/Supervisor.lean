/-
  Almanac.Supervisor

  The supervisor runs the components of the service under one shutdown signal. It starts
  the broker, declares the queue, binds the listeners and spawns the enabled components;
  a fault up to there stops the broker again and ends the run. Then it waits for the
  signal, and takes everything down in one fixed order, whatever fails on the way: each
  step has a time limit, a component that does not end in time is aborted, and the
  report says which components failed and which steps did.

  The supervisor is a machine over a `Host`, which knows how to carry out what it asks
  for. A step does one thing, or finds that it has to wait.
-/
import Almanac.Broker.Client
import Almanac.Net.Address
import Almanac.Scheduler.Tally
import Almanac.Service.Error

namespace Almanac.Supervisor

open Service (Component)

/-- Settings of a run. -/
structure Settings where
  http : Net.Address := ⟨Net.Host.loopback, 8080⟩
  grpc : Net.Address := ⟨Net.Host.loopback, 50051⟩
  scheduler : Scheduler.Settings := {}
  consume : Broker.ConsumeSettings := {}
  /-- The queue that is declared before anything runs. -/
  queue : Broker.QueueSettings := {}
  /-- How many milliseconds a step of the teardown may take. -/
  drain : Nat := 5000
  components : List Component := [.http, .grpc, .scheduler, .sender]
deriving DecidableEq, Inhabited

def Settings.enables (s : Settings) (c : Component) : Bool := s.components.contains c

/-- A component or a step of the teardown that went wrong. -/
structure Failure where
  component : String
  message : String
deriving DecidableEq, Inhabited

/-- How a run went. -/
structure Report where
  /-- Components that ended with an error. -/
  failures : List Failure := []
  /-- Steps of the teardown that failed or took too long. -/
  teardownErrors : List Failure := []
deriving DecidableEq, Inhabited

namespace Report

/-- Whether nothing went wrong. -/
def wentWell (r : Report) : Bool := r.failures.isEmpty && r.teardownErrors.isEmpty

/-- Adds a component that ended with an error. -/
def noteFailure (r : Report) (component message : String) : Report :=
  { r with failures := r.failures ++ [⟨component, message⟩] }

/-- Adds a step of the teardown that went wrong. -/
def noteTeardown (r : Report) (component message : String) : Report :=
  { r with teardownErrors := r.teardownErrors ++ [⟨component, message⟩] }

end Report

/-- How the task of a component ended. -/
inductive Ending
  | clean
  | failed (cause : Service.Error)
  | crashed

def crashMessage : String := "<panic>"

def Report.ended (r : Report) (c : Component) : Ending → Report
  | .clean => r
  | .failed cause => r.noteFailure c.name cause.text
  | .crashed => r.noteFailure c.name crashMessage

/-- What a supervisor asks of its surroundings. -/
structure Host (σ : Type) where
  broker : Broker.Client σ
  bind : Component → Net.Address → Action σ (Except Service.Error Unit)
  /-- Starts the task of a component. -/
  spawn : Component → Action σ Unit
  /-- Asks a component to end. -/
  stop : Component → Action σ Unit
  /-- Ends the task of a component by force. -/
  abort : Component → Action σ Unit
  /-- How the task of a component ended, if it has. -/
  ending : Component → Action σ (Option Ending)
  /-- Whether the shutdown signal has been given. -/
  shutdown : Action σ Bool
  /-- The time in milliseconds. -/
  clock : Action σ Nat

/-- A step of the teardown. -/
inductive Teardown
  /-- Asks a component to end. -/
  | stop (c : Component)
  /-- Waits for a component to end. -/
  | join (c : Component)
  | stopBroker
deriving DecidableEq

/-- The teardown. The servers are both asked to end before the first is waited for; the sender
    goes after the scheduler, and the broker goes last. -/
def teardown : List Teardown :=
  [.stop .http, .stop .grpc, .join .http, .join .grpc, .stop .scheduler, .join .scheduler,
   .stop .sender, .join .sender, .stopBroker]

/-- What is being waited for in the teardown. -/
inductive Awaiting
  /-- Nothing yet: the step has not begun. -/
  | nothing
  /-- The task of a component, until a time. -/
  | task (deadline : Nat)
  /-- An answer of the broker that will not come, until a time. -/
  | broker (deadline : Nat)
deriving DecidableEq

/-- Where a run is. -/
inductive Phase
  | starting
  | declaring
  /-- The servers that have no listener yet. -/
  | binding (servers : List Component)
  /-- The components that have not been spawned yet. -/
  | spawning (components : List Component)
  | watching
  | closing (steps : List Teardown) (awaiting : Awaiting) (report : Report)
  /-- The set-up failed, and the broker is to be stopped. -/
  | abandoning (cause : Service.Error)
  | ended (outcome : Except Service.Error Report)

/-- The time at which a phase stops waiting. -/
def Phase.deadline? : Phase → Option Nat
  | .closing _ (.task deadline) _ => some deadline
  | .closing _ (.broker deadline) _ => some deadline
  | _ => none

variable {σ : Type} (host : Host σ) (settings : Settings)

def Settings.address (c : Component) : Net.Address :=
  match c with
  | .http => settings.http
  | _ => settings.grpc

/-- The phase after the joining of a component began at a time, or was looked at again. -/
def joinStep (c : Component) (rest : List Teardown) (awaiting : Awaiting) (report : Report) :
    Action σ (Option Phase) := do
  if !settings.enables c then return some (.closing rest .nothing report)
  else
    match ← host.ending c with
    | some ending => return some (.closing rest .nothing (report.ended c ending))
    | none =>
      let now ← host.clock
      match awaiting with
      | .task deadline =>
        if deadline ≤ now then do
          host.abort c
          return some (.closing rest .nothing (report.noteTeardown c.name "drain timed out"))
        else return none
      | _ => return some (.closing (.join c :: rest) (.task (now + settings.drain)) report)

/-- Stops the broker, or waits on for an answer that will not come. -/
def stopBrokerStep (rest : List Teardown) (awaiting : Awaiting) (report : Report) :
    Action σ (Option Phase) := do
  let now ← host.clock
  match awaiting with
  | .broker deadline =>
    if deadline ≤ now then
      return some (.closing rest .nothing (report.noteTeardown "broker" "timed out"))
    else return none
  | _ =>
    match ← host.broker.stop.attempt with
    | .ok (.ok ()) => return some (.closing rest .nothing report)
    | .ok (.error cause) =>
      return some (.closing rest .nothing (report.noteTeardown "broker" cause.text))
    | .error .never =>
      return some (.closing (.stopBroker :: rest) (.broker (now + settings.drain)) report)
    | .error (.crash message) => Action.crash message

/-- One step of a run; nothing when it has to wait. -/
def step : Phase → Action σ (Option Phase)
  | .starting => do
    match ← host.broker.start with
    | .ok () => return some .declaring
    | .error cause => return some (.ended (.error (.broker cause)))
  | .declaring => do
    match ← host.broker.declare settings.queue with
    | .ok () => return some (.binding ([.http, .grpc].filter settings.enables))
    | .error cause => return some (.abandoning (.broker cause))
  | .binding (c :: servers) => do
    match ← host.bind c (settings.address c) with
    | .ok () => return some (.binding servers)
    | .error cause => return some (.abandoning cause)
  | .binding [] =>
    return some (.spawning ([.http, .grpc, .scheduler, .sender].filter settings.enables))
  | .spawning (c :: components) => do
    host.spawn c
    return some (.spawning components)
  | .spawning [] => return some .watching
  | .watching => do
    if ← host.shutdown then return some (.closing teardown .nothing {}) else return none
  | .closing (.stop c :: rest) _ report => do
    host.stop c
    return some (.closing rest .nothing report)
  | .closing (.join c :: rest) awaiting report => joinStep host settings c rest awaiting report
  | .closing (.stopBroker :: rest) awaiting report =>
    stopBrokerStep host settings rest awaiting report
  | .closing [] _ report => return some (.ended (.ok report))
  | .abandoning cause => do
    let _ ← host.broker.stop
    return some (.ended (.error cause))
  | .ended _ => return none

end Almanac.Supervisor
