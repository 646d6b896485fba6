/-
  Almanac.Toml.Printer

  Sections of settings as TOML. Each section stands under its header, with one setting
  a line and an empty line between sections. A string gets the quotes that need the
  fewest escapes: the first style that can show it as it is.
-/
import Almanac.Text.Decimal
import Almanac.Tree

namespace Almanac.Toml

/-! ## Strings -/

/-- How a string is written. -/
structure Style where
  /-- The mark around it; it is set three times around a long string. -/
  quote : Char
  /-- Line ends stand in the string as they are. -/
  long : Bool
deriving DecidableEq, Repr

namespace Style

/-- In double quotes, with escapes. -/
def basic : Style := ⟨'"', false⟩

/-- In single quotes, without escapes. -/
def literal : Style := ⟨'\'', false⟩

/-- Over several lines, in double quotes. -/
def longBasic : Style := ⟨'"', true⟩

/-- Over several lines, in single quotes. -/
def longLiteral : Style := ⟨'\'', true⟩

/-- The marks around a string. -/
def marks (s : Style) : List Char := List.replicate (if s.long then 3 else 1) s.quote

end Style

/-- Characters that only an escape can show. -/
def needsEscape (c : Char) : Bool :=
  (c.toNat < 0x20 && c != '\t' && c != '\n') || c.toNat == 0x7F

/-- The length of the longest run of a character, given the length of the run that ends here. -/
def longestRun (mark : Char) (here : Nat) : List Char → Nat
  | [] => here
  | c :: cs => if c == mark then longestRun mark (here + 1) cs else max here (longestRun mark 0 cs)

def styleOf (cs : List Char) : Style :=
  let breaks := cs.contains '\n'
  let doubles := longestRun '"' 0 cs
  let singles := longestRun '\'' 0 cs
  if cs.any needsEscape then if breaks then .longBasic else .basic
  else if !cs.contains '\\' && doubles == 0 && !breaks then .basic
  else if singles == 0 && !breaks then .literal
  else if !cs.contains '\\' && doubles ≤ 2 then .longBasic
  else if singles ≤ 2 then .longLiteral
  else if breaks then .longBasic
  else .basic

/-- The upper-case hexadecimal digit of a number below sixteen. -/
def upperHexDigit (n : Nat) : Char := if n < 10 then Char.ofNat (48 + n) else Char.ofNat (55 + n)

/-- The escape of a character other than a quote, if it has one. -/
def escape? (long : Bool) (c : Char) : Option (List Char) :=
  if c == '\\' then some ['\\', '\\']
  else if c == '\t' then some ['\\', 't']
  else if c == '\n' then if long then none else some ['\\', 'n']
  else if c == '\x08' then some ['\\', 'b']
  else if c == '\x0c' then some ['\\', 'f']
  else if c == '\r' then some ['\\', 'r']
  else if needsEscape c then
    some ['\\', 'u', '0', '0', upperHexDigit (c.toNat / 16), upperHexDigit (c.toNat % 16)]
  else none

/-- The inside of a string in double quotes. In a long string two quotes may stand side by side;
    `run` counts those right in front of here. -/
def escapeAll (long : Bool) (run : Nat) : List Char → List Char
  | [] => []
  | c :: cs =>
    if c == '"' then
      if long && run < 2 then '"' :: escapeAll long (run + 1) cs
      else '\\' :: '"' :: escapeAll long 0 cs
    else match escape? long c with
      | some escape => escape ++ escapeAll long 0 cs
      | none => c :: escapeAll long 0 cs

/-- A string in a style. A long string that holds a line end begins with one more. -/
def stringIn (style : Style) (cs : List Char) : List Char :=
  let lead := if style.long && cs.contains '\n' then ['\n'] else []
  let body := if style.quote == '"' then escapeAll style.long 0 cs else cs
  style.marks ++ lead ++ body ++ style.marks

def stringText (s : String) : List Char := stringIn (styleOf s.toList) s.toList

/-! ## Settings and sections -/

/-- A scalar that a file can hold; integers have 64 bits and a sign. -/
def scalarText? : Tree → Option (List Char)
  | .text s => some (stringText s)
  | .integer n =>
    if -9223372036854775808 ≤ n ∧ n ≤ 9223372036854775807 then some (intText n).toList else none
  | .flag b => some (if b then "true" else "false").toList
  | _ => none

/-- A section: the path in its header, and its settings. The names are bare. -/
structure Section where
  path : List String
  settings : List (String × Tree)

/-- A setting on a line of its own. -/
def settingText? (name : String) (value : Tree) : Option (List Char) := do
  some (name.toList ++ " = ".toList ++ (← scalarText? value) ++ ['\n'])

/-- Settings, line by line. -/
def settingsText? : List (String × Tree) → Option (List Char)
  | [] => some []
  | (name, value) :: rest => do some ((← settingText? name value) ++ (← settingsText? rest))

def Section.text? (s : Section) : Option (List Char) := do
  let settings ← settingsText? s.settings
  some ('[' :: (String.intercalate "." s.path).toList ++ [']', '\n'] ++ settings)

/-- Sections with an empty line between them, unless a setting cannot be written. -/
def sectionsText? : List Section → Option (List Char)
  | [] => some []
  | [s] => s.text?
  | s :: rest => do some ((← s.text?) ++ '\n' :: (← sectionsText? rest))

/-- A file of sections, unless a setting cannot be written. -/
def print? (sections : List Section) : Option String := (sectionsText? sections).map String.ofList

end Almanac.Toml
