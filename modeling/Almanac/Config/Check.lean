/-
  Almanac.Config.Check

  What a configuration means to the parts it configures: how the log is set up, the
  address of the database, and the settings of the supervisor. `validate` refuses what
  would only fail once the service runs; the first fault in the order of the checks is
  the one reported.
-/
import Almanac.Config.Settings
import Almanac.Logging.Settings
import Almanac.Supervisor
import Almanac.Text.Quoted

namespace Almanac.Config

/-! ## Faults -/

/-- Why a configuration is refused. -/
inductive Fault
  /-- Nobody knows the name of a level or a format. -/
  | unknownName (name : Logging.UnknownName)
  | notPositive (setting : String)
  | namelessQueue
  /-- The sender listens to another queue than the declared one. -/
  | otherQueue (consumed declared : String)
  /-- Messages do not reach the declared queue. -/
  | lostMessages (routingKey declared : String)
  | unknownHost (host : String) (cause : Net.LookupFault)
deriving DecidableEq, Repr

def Fault.text : Fault → String
  | unknownName name => name.text
  | notPositive setting => setting ++ " must be positive"
  | namelessQueue => "broker.queue.name must not be empty"
  | otherQueue consumed declared =>
    "broker.consume.queue " ++ quoted consumed ++ " is not the declared queue " ++ quoted declared
  | lostMessages routingKey declared =>
    "broker.publish.routing_key " ++ quoted routingKey
      ++ " does not reach queue " ++ quoted declared
  | unknownHost host cause => "cannot resolve " ++ host ++ ": " ++ cause.text

/-! ## Single sections -/

/-- How the log is set up; a level comes before a format. -/
def LogSection.logging (s : LogSection) : Except Logging.UnknownName Logging.Settings := do
  let level ← Logging.Level.parse s.level
  let format ← Logging.Format.parse s.format
  return { Logging.Settings.service with level, format }

/-- The address of the database: the one that was given, or one made of the parts. -/
def DatabaseSection.address (s : DatabaseSection) : String :=
  match s.url with
  | some url => url
  | none =>
    let account := if s.password.isEmpty then s.userName else s.userName ++ ":" ++ s.password
    "postgres://" ++ account ++ "@" ++ s.host ++ ":" ++ natText s.port ++ "/" ++ s.databaseName

def ServerSection.address (s : ServerSection) : Except Fault Net.Address :=
  match Net.lookup s.host with
  | .ok host => .ok ⟨host, UInt16.ofNat s.port⟩
  | .error cause => .error (.unknownHost s.host cause)

/-! ## The whole configuration -/

def refuseIf (condition : Bool) (fault : Fault) : Except Fault Unit :=
  if condition then .error fault else .ok ()

/-- Checks the settings that would otherwise fail only once the service runs. -/
def validate (c : Config) : Except Fault Unit := do
  let _ ← c.logger.logging.mapError Fault.unknownName
  refuseIf (c.scheduler.intervalSeconds == 0) (.notPositive "scheduler.interval_secs")
  refuseIf (c.scheduler.retentionMonths == 0) (.notPositive "scheduler.retention_months")
  refuseIf (c.drainSeconds == 0) (.notPositive "shutdown.drain_timeout_secs")
  refuseIf c.queue.name.isEmpty .namelessQueue
  refuseIf (c.consume.queue != c.queue.name) (.otherQueue c.consume.queue c.queue.name)
  refuseIf (c.publish.exchange.isEmpty && c.publish.routingKey != c.queue.name)
    (.lostMessages c.publish.routingKey c.queue.name)
  let _ ← c.http.address
  let _ ← c.grpc.address
  return ()

def schedulerSettings (c : Config) : Scheduler.Settings where
  interval := c.scheduler.intervalSeconds * 1000
  retentionMonths := c.scheduler.retentionMonths
  catchUp := c.scheduler.catchUpSeconds * 1000000000
  publish := c.publish

/-- The settings of the supervisor, which runs all components. -/
def supervisorSettings (c : Config) : Except Fault Supervisor.Settings := do
  let http ← c.http.address
  let grpc ← c.grpc.address
  return {
    http, grpc
    scheduler := c.schedulerSettings
    consume := c.consume
    queue := c.queue
    drain := c.drainSeconds * 1000 }

end Almanac.Config
