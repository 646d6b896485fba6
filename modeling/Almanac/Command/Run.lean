/-
  Almanac.Command.Run

  The commands. `execute` runs a whole command line in surroundings that hold the files,
  the environment and the service. The configuration is loaded before any command runs,
  so a file that cannot be read fails them all.
-/
import Almanac.Command.Load
import Almanac.Command.Usage

namespace Almanac.Command

/-- What a command line is run in. -/
structure Surroundings where
  /-- The variable of the environment that can name the configuration file. -/
  fallback : Option String
  /-- Where the configuration file is unless another is named. -/
  defaultFile : String
  /-- What a file holds, if it is there. -/
  file : String → Option Bytes
  /-- Runs the service until it has ended. -/
  service : Supervisor.Settings → Except Service.Error Supervisor.Report

/-- How a command line ended. -/
inductive Outcome
  | refused (cause : Refusal)
  /-- A command ran; it may have failed after some output. -/
  | ran (output : String) (failure : Option Error)

/-- The name and the version of the program. -/
def versionLine : String := "calendar 0.1.0\n"

/-- How to call the program. -/
def usageText : String :=
  "Usage: calendar [-c FILE] [--storage memory|sql] [-v] " ++
  "[serve | config dump | config validate | config path | version]\n"

namespace Outcome

def exitCode : Outcome → Nat
  | refused cause => cause.exitCode
  | ran _ none => 0
  | ran _ (some _) => 1

def output : Outcome → String
  | refused .version => versionLine
  | refused .help => usageText
  | refused _ => ""
  | ran output _ => output

/-- What is printed as an error. -/
def complaint : Outcome → String
  | refused .version | refused .help => ""
  | refused _ => usageText
  | ran _ none => ""
  | ran _ (some failure) => "error: " ++ failure.text ++ "\n"

end Outcome

/-- Opens the storage of a kind. No database can be reached from here. -/
def openStorage : Config.StorageChoice → Except Error Unit
  | .memory => .ok ()
  | .sql => .error (.storage ⟨.transport, "failed to connect to database", true⟩)

/-- Runs the service with a configuration and a kind of storage. It has to end without failures. -/
def serve (service : Supervisor.Settings → Except Service.Error Supervisor.Report) (config : Config)
    (storage : Config.StorageChoice) : Except Error Unit := do
  config.validate.mapError Error.ofFault
  let settings ← config.supervisorSettings.mapError Error.ofFault
  openStorage storage
  let report ← (service settings).mapError Error.service
  if report.wentWell then return ()
  else throw (.unclean (report.failures.length + report.teardownErrors.length))

/-- Sets up the log as the options or the configuration say. -/
def setUpLog (debug : Bool) (config : Config) : Except Error Unit := do
  let settings ←
    if debug then .ok Logging.Settings.debug
    else config.logger.logging.mapError fun name => Error.logging (.unknownName name)
  (Logging.setUp false settings).mapError Error.logging

/-- The outcome of a command that only prints when it succeeds. -/
def Outcome.ofResult : Except Error String → Outcome
  | .ok output => .ran output none
  | .error failure => .ran "" (some failure)

/-- Runs a command with the configuration that was loaded from a path. -/
def runCommand (s : Surroundings) (o : Options) (path : String) (config : Config) : Outcome :=
  match o.selected with
  | .serve => .ofResult do
    setUpLog o.debug config
    serve s.service config (o.storage.getD config.storage)
    return ""
  | .config .dump =>
    let head := "# config.toml (" ++ path ++ ")\n"
    match dump config with
    | .ok text => .ran (head ++ text ++ "\n") none
    | .error failure => .ran head (some failure)
  | .config .validate => .ofResult do
    config.validate.mapError Error.ofFault
    return "Configuration is valid.\n"
  | .config .path => .ran ("config: " ++ path ++ "\n") none
  | .version => .ran versionLine none

/-- The configuration that the options name, or the one in the default place. -/
def loadFor (s : Surroundings) (o : Options) : Except Error Config :=
  match o.config with
  | some path => load path (s.file path)
  | none => loadDefault s.defaultFile (s.file s.defaultFile)

/-- Runs a command line. -/
def execute (s : Surroundings) (args : List String) : Outcome :=
  match Options.read s.fallback args with
  | .error cause => .refused cause
  | .ok o =>
    match loadFor s o with
    | .error failure => .ran "" (some failure)
    | .ok config => runCommand s o (o.config.getD s.defaultFile) config

/-- The only file that a command line looks at. -/
def fileOf (fallback : Option String) (defaultFile : String) (args : List String) : String :=
  match Options.read fallback args with
  | .error _ => defaultFile
  | .ok o => o.config.getD defaultFile

/-- The default place of the configuration file, in the directory for configurations or the one
    that is usual in a home directory. -/
def defaultPlace (configHome home : Option String) : String :=
  let directory := match configHome.filter (·.startsWith "/"), home with
    | some directory, _ => directory
    | none, some home => home ++ "/.config"
    | none, none => "."
  directory ++ "/calendar/config.toml"

end Almanac.Command
