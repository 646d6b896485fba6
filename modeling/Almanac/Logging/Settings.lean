/-
  Almanac.Logging.Settings

  How the log is set up: the level, the look of a line, and an optional filter in the
  place of the level. The log can be set up once.
-/
import Almanac.Logging.Filter

namespace Almanac.Logging

/-- Settings of the log. -/
structure Settings where
  level : Level := .info
  format : Format := .pretty
  /-- Lines name the place in the source. -/
  location : Bool := false
  /-- Lines name the module. -/
  target : Bool := true
  /-- Spans log when they begin and end. -/
  spanEvents : Bool := false
  filter : Option String := none
deriving DecidableEq, Repr

namespace Settings

/-- Long lines for a look at one problem. -/
def debug : Settings := { level := .debug, format := .compact, location := true }

/-- The settings of a service that runs for long. -/
def service : Settings := { format := .compact }

end Settings

/-- Why the log cannot be set up. -/
inductive Error
  | unknownName (name : UnknownName)
  | badFilter
  | alreadySet
deriving DecidableEq, Repr

def Error.text : Error → String
  | unknownName name => name.text
  | badFilter => "failed to parse env filter: invalid filter directive"
  | alreadySet =>
    "failed to set global tracing subscriber: "
      ++ "a global default trace dispatcher has already been set"

/-- Sets up the log, given whether it is set up already. -/
def setUp (isSet : Bool) (settings : Settings) : Except Error Unit :=
  match settings.filter.map Filter.parse? with
  | some none => .error .badFilter
  | _ => if isSet then .error .alreadySet else .ok ()

end Almanac.Logging
