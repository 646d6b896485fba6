/-
  Almanac.Command.Usage

  The command line. Options stand in front of the subcommand. A value follows its option
  as the next argument, behind an equals sign, or right behind the letter of a short
  option. Each option comes once, and names are written in full.

  A value that stands in an argument of its own is looked at late: when the next option
  comes, or at the end, after the subcommand.
-/
import Almanac.Config.Settings

namespace Almanac.Command

open Config (StorageChoice)

/-- What can be done with the configuration. -/
inductive ConfigTask
  | dump
  | validate
  /-- Says where it comes from. -/
  | path
deriving DecidableEq, Repr, Inhabited

/-- A command. -/
inductive Selection
  | serve
  | config (task : ConfigTask)
  | version
deriving DecidableEq, Repr, Inhabited

/-- A command line. -/
structure Options where
  config : Option String := none
  /-- The kind of storage, in the place of the configured one. -/
  storage : Option StorageChoice := none
  debug : Bool := false
  command : Option Selection := none
deriving DecidableEq, Repr, Inhabited

/-- The command to run; the service, unless something else was said. -/
def Options.selected (o : Options) : Selection := o.command.getD .serve

/-- Why a command line does not lead to a command. -/
inductive Refusal
  | unknownArgument
  | invalidSubcommand
  /-- A value is missing, empty, or not one of those that are possible. -/
  | invalidValue
  /-- An option comes twice. -/
  | argumentConflict
  /-- A value was given to an option that takes none. -/
  | tooManyValues
  | missingSubcommand
  /-- Help was asked for. -/
  | help
  /-- The version was asked for. -/
  | version
deriving DecidableEq, Repr

/-- The exit code of a command line that does not lead to a command. -/
def Refusal.exitCode : Refusal → Nat
  | help | version => 0
  | _ => 2

/-! ## Commands and options -/

/-- Where in a command line an argument stands. -/
inductive Level
  /-- In front of all subcommands. -/
  | top
  /-- Behind the subcommand for configurations. -/
  | config
  /-- Behind a subcommand that has none of its own. -/
  | leaf
deriving DecidableEq

/-- The subcommand that shows help. -/
def helpName : String := "help"

/-- The subcommands that can follow, besides help. -/
def Level.commands : Level → List String
  | top => ["serve", "config", "version"]
  | config => ["dump", "validate", "path"]
  | leaf => []

def Level.subcommands (l : Level) : List String :=
  if l.commands.isEmpty then [] else l.commands ++ [helpName]

/-- Where an argument behind a subcommand stands. -/
def Level.below (l : Level) (name : String) : Level :=
  if l == .top && name == "config" then .config else .leaf

/-- The options with a value. -/
inductive Valued
  | config
  | storage
deriving DecidableEq, Repr

/-- The options. -/
inductive Flag
  | valued (v : Valued)
  | debug
  | help
  | version
deriving DecidableEq, Repr

def Level.longFlag? (l : Level) (name : String) : Option Flag :=
  if name == "help" then some .help
  else if l != .top then none
  else [("config", Flag.valued .config), ("storage", .valued .storage), ("debug", .debug),
    ("version", .version)].lookup name

def Level.shortFlag? (l : Level) (letter : Char) : Option Flag :=
  if letter == 'h' then some .help
  else if l != .top then none
  else [('c', Flag.valued .config), ('v', .debug), ('V', .version)].lookup letter

/-- What help that is asked for by a subcommand leads to, given the names behind it. -/
def Level.helpAbout (l : Level) : List String → Refusal
  | [] => .help
  | name :: names =>
    if l.subcommands.contains name then (l.below name).helpAbout names else .invalidSubcommand

/-! ## Reading -/

/-- Options that have been read. -/
structure Draft where
  options : Options := {}
  /-- An option whose value stands in an argument of its own, and the value if it has come. -/
  pending : Option (Valued × Option String) := none

namespace Draft

/-- Whether the next argument can be the value of an option. -/
def awaitsValue (d : Draft) : Bool :=
  match d.pending with
  | some (_, none) => true
  | _ => false

/-- Gives an option its value. -/
def assign (d : Draft) (v : Valued) (value : String) : Except Refusal Draft :=
  match v with
  | .config =>
    if d.options.config.isSome then .error .argumentConflict
    else if value.isEmpty then .error .invalidValue
    else .ok { d with options := { d.options with config := some value } }
  | .storage =>
    if d.options.storage.isSome then .error .argumentConflict
    else match StorageChoice.ofName? value with
      | none => .error .invalidValue
      | some kind => .ok { d with options := { d.options with storage := some kind } }

/-- Gives the pending option its value. -/
def settle (d : Draft) : Except Refusal Draft :=
  match d.pending with
  | none => .ok d
  | some (_, none) => .error .invalidValue
  | some (v, some value) => { d with pending := none }.assign v value

/-- Takes an option, with a value that is attached to it if there is one. -/
def take (d : Draft) (flag : Flag) (attached : Option String) : Except Refusal Draft := do
  match flag, attached with
  | .valued v, some value => (← d.settle).assign v value
  | .valued v, none => return { (← d.settle) with pending := some (v, none) }
  | _, some _ => throw .tooManyValues
  | .help, none => do
    let _ ← d.settle
    throw .help
  | .version, none => do
    let _ ← d.settle
    throw .version
  | .debug, none =>
    let d ← d.settle
    if d.options.debug then throw .argumentConflict
    else return { d with options := { d.options with debug := true } }

/-- Takes a long option, behind its two dashes. -/
def takeLong (l : Level) (d : Draft) (text : List Char) : Except Refusal Draft :=
  let name := String.ofList (text.takeWhile (· != '='))
  let attached := match text.dropWhile (· != '=') with
    | [] => none
    | _ :: value => some (String.ofList value)
  match l.longFlag? name with
  | none => .error .unknownArgument
  | some flag => d.take flag attached

/-- Takes short options, behind their dash. What stands behind the letter of an option with a value
    is its value. -/
def takeShorts (l : Level) (d : Draft) : List Char → Except Refusal Draft
  | [] => .ok d
  | letter :: rest =>
    match l.shortFlag? letter with
    | none => .error .unknownArgument
    | some (.valued v) =>
      d.take (.valued v) <| match rest with
        | [] => none
        | '=' :: value => some (String.ofList value)
        | value => some (String.ofList value)
    | some flag => do takeShorts l (← d.take flag none) rest

end Draft

/-- The arguments of a level up to its subcommand: the options, and the subcommand with the
    arguments behind it. -/
def readLevel (l : Level) (d : Draft) :
    List String → Except Refusal (Draft × Option (String × List String))
  | [] => .ok (d, none)
  | arg :: rest =>
    if !d.awaitsValue && l.subcommands.contains arg then
      if arg == helpName then .error (l.helpAbout rest) else .ok (d, some (arg, rest))
    else match arg.toList with
      | ['-', '-'] =>
        match rest with
        | [] => .ok (d, none)
        | stray :: _ =>
          if l.subcommands.contains stray || l.subcommands.isEmpty then .error .unknownArgument
          else .error .invalidSubcommand
      | '-' :: '-' :: text => do readLevel l (← d.takeLong l text) rest
      | '-' :: letter :: text => do readLevel l (← d.takeShorts l (letter :: text)) rest
      | _ =>
        match d.pending with
        | some (v, none) => readLevel l { d with pending := some (v, some arg) } rest
        | _ => .error (if l.subcommands.isEmpty then .unknownArgument else .invalidSubcommand)

/-- The arguments behind a subcommand that has none of its own. -/
def readLeaf (args : List String) : Except Refusal Unit := do
  let _ ← readLevel .leaf {} args
  return ()

/-- The command behind the subcommand for configurations. -/
def readConfigTask (args : List String) : Except Refusal ConfigTask := do
  match (← readLevel .config {} args).2 with
  | none => throw .missingSubcommand
  | some (name, rest) =>
    readLeaf rest
    return if name == "dump" then .dump else if name == "validate" then .validate else .path

/-- A command line. The configuration file can also be named by a variable of the environment. -/
def Options.read (fallback : Option String) (args : List String) : Except Refusal Options := do
  let (d, subcommand) ← readLevel .top {} args
  let command ← match subcommand with
    | none => pure none
    | some (name, rest) =>
      if name == "config" then (readConfigTask rest).map fun task => some (.config task)
      else do
        readLeaf rest
        pure (some (if name == "serve" then .serve else .version))
  let d ← d.settle
  let d ← match d.options.config, fallback with
    | none, some path => d.assign .config path
    | _, _ => pure d
  return { d.options with command }

end Almanac.Command
