/-
  Almanac.Logging.Level

  The levels and formats of the log, and their names. A level is known by its name in
  any case, or by a number from one for errors to five for traces.
-/
import Almanac.Text.Case
import Almanac.Text.Decimal

namespace Almanac.Logging

/-- How much is logged. -/
inductive Level
  | error
  | warn
  | info
  | debug
  | trace
deriving DecidableEq, Repr, Inhabited

/-- How log lines look. -/
inductive Format
  | pretty
  | compact
  | json
deriving DecidableEq, Repr, Inhabited

/-- A name that nobody knows. -/
structure UnknownName where
  /-- What it should have named. -/
  kind : String
  value : String
deriving DecidableEq, Repr

def UnknownName.text (u : UnknownName) : String := "unknown " ++ u.kind ++ ": " ++ u.value

/-- The number below 2^64 that a text writes, with or without a plus sign. -/
def wordText? (s : String) : Option Nat :=
  let digits := match s.toList with
    | '+' :: cs => cs
    | cs => cs
  if digits.isEmpty || !digits.all Char.isDigit then none
  else
    let n := digitsValue digits
    if n < 18446744073709551616 then some n else none

namespace Level

def all : List Level := [error, warn, info, debug, trace]

def name : Level → String
  | error => "ERROR"
  | warn => "WARN"
  | info => "INFO"
  | debug => "DEBUG"
  | trace => "TRACE"

def number : Level → Nat
  | error => 1
  | warn => 2
  | info => 3
  | debug => 4
  | trace => 5

/-- The level with a name or a number. -/
def ofText? (s : String) : Option Level :=
  match wordText? s with
  | some n => all.find? (·.number == n)
  | none => all.find? fun l => lowerAscii l.name == lowerAscii s

/-- The level with a name or a number, or the name as unknown. -/
def parse (s : String) : Except UnknownName Level :=
  match ofText? s with
  | some l => .ok l
  | none => .error ⟨"log level", s⟩

end Level

namespace Format

def name : Format → String
  | pretty => "Pretty"
  | compact => "Compact"
  | json => "Json"

/-- The format with a name, or the name as unknown. -/
def parse (s : String) : Except UnknownName Format :=
  match [pretty, compact, json].find? fun f => lowerAscii f.name == lowerAscii s with
  | some f => .ok f
  | none => .error ⟨"log format", s⟩

end Format

end Almanac.Logging
