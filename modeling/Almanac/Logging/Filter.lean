/-
  Almanac.Logging.Filter

  Log filters: directives with commas between them. A directive is a level, or a target
  with an optional level, `target[span{field=value}]=level`. A missing level means that
  everything passes.

  A directive is read character by character, without the blanks at its ends, by a
  machine whose states say what is being read and where it began. Pieces are cut from
  the directive as it was given, at the places the machine counted.
-/
import Almanac.Logging.Level
import Almanac.Text.Alphanumeric
import Almanac.Text.Blank
import Almanac.Text.Pieces

namespace Almanac.Logging

/-! ## Patterns of field values -/

/-- What a pattern may go on with. -/
inductive PatternPlace
  /-- Nothing to repeat stands before. -/
  | start
  /-- Something to repeat stands before. -/
  | operand
deriving DecidableEq

/-- Characters that stand for a class or a place behind a backslash. -/
def patternLetters : List Char :=
  ['d', 'D', 's', 'S', 'w', 'W', 'b', 'B', 'A', 'z', 't', 'n', 'r', 'f', 'v', 'a']

/-- Whether a character may stand behind a backslash. -/
def isPatternEscape (c : Char) : Bool :=
  patternLetters.contains c || (c.toNat < 128 && !c.isAlphanum && !isBlank c)

/-- Whether the rest of a pattern is well formed, with groups and classes still open. The pattern
    has no commas and no closing braces. -/
def isPatternRest (place : PatternPlace) (groups : Nat) : (classes : Nat) → List Char → Bool
  | 0, [] => groups == 0
  | _ + 1, [] => false
  | 0, '\\' :: c :: cs => isPatternEscape c && isPatternRest .operand groups 0 cs
  | 0, ['\\'] => false
  | 0, '(' :: '?' :: ':' :: cs => isPatternRest .start (groups + 1) 0 cs
  | 0, '(' :: cs => isPatternRest .start (groups + 1) 0 cs
  | 0, ')' :: cs => groups != 0 && isPatternRest .operand (groups - 1) 0 cs
  | 0, '[' :: '^' :: ']' :: cs => isPatternRest .operand groups 1 cs
  | 0, '[' :: ']' :: cs => isPatternRest .operand groups 1 cs
  | 0, '[' :: cs => isPatternRest .operand groups 1 cs
  | 0, '|' :: cs => isPatternRest .start groups 0 cs
  | 0, c :: cs =>
    if c == '*' || c == '+' || c == '?' then
      place == .operand && isPatternRest .operand groups 0 cs
    else if c == '\x7b' then false
    else isPatternRest .operand groups 0 cs
  | n + 1, '\\' :: c :: cs => isPatternEscape c && isPatternRest place groups (n + 1) cs
  | n + 1, '[' :: cs => isPatternRest place groups (n + 2) cs
  | n + 1, ']' :: cs => isPatternRest place groups n cs
  | n + 1, _ :: cs => isPatternRest place groups (n + 1) cs

/-- Whether a text that starts with a plus sign writes a number. -/
def isSignedNumber (s : String) : Bool :=
  match s.toList with
  | '+' :: cs =>
    let word := lowerAscii (String.ofList cs)
    let fraction := cs.dropWhile Char.isDigit
    let after := match fraction with
      | '.' :: r => r.dropWhile Char.isDigit
      | r => r
    let digits := (cs.length - after.length) - (if fraction.head? == some '.' then 1 else 0)
    let exponent := match after with
      | [] => true
      | e :: r =>
        let r := match r with
          | '+' :: r => r
          | '-' :: r => r
          | r => r
        (e == 'e' || e == 'E') && !r.isEmpty && r.all Char.isDigit
    word == "inf" || word == "infinity" || word == "nan" || (digits != 0 && exponent)
  | _ => false

/-- Whether a field can be compared with a value: a number, or a pattern. -/
def isFieldValue (s : String) : Bool := isSignedNumber s || isPatternRest .start 0 0 s.toList

/-! ## Directives -/

/-- A condition on a field of a span. -/
structure FieldMatch where
  name : String
  value : Option String
deriving DecidableEq, Repr

/-- A field name with an optional value behind the first equals sign; what stands behind a
    second one does not count. -/
def FieldMatch.parse? (s : List Char) : Option FieldMatch :=
  let name := String.ofList (s.takeWhile (· != '='))
  match s.dropWhile (· != '=') with
  | [] => some ⟨name, none⟩
  | _ :: rest =>
    let value := String.ofList (rest.takeWhile (· != '='))
    if isFieldValue value then some ⟨name, some value⟩ else none

/-- A directive; a missing level is that of a directive that lets nothing pass. -/
structure Directive where
  level : Option Level := some .trace
  target : Option String := none
  span : Option String := none
  fields : List FieldMatch := []
deriving DecidableEq, Repr, Inhabited

/-- The level that a name or a number from nought to five stands for; nothing passes at level
    `off`. An empty name is the level of errors. -/
def thresholdOfText? (s : String) : Option (Option Level) :=
  if s.isEmpty then some (some .error)
  else if lowerAscii s == "off" || wordText? s == some 0 then some none
  else (Level.ofText? s).map some

namespace Directive

/-- What is being read, and where it began. -/
inductive Reading
  | start
  | levelOrTarget (first : Nat)
  | span (first : Nat)
  | field (first : Nat)
  /-- Behind the fields of a span. -/
  | fields
  /-- Behind a span. -/
  | target
  | level (first : Nat)
deriving DecidableEq

/-- The characters of a text between two places. -/
def piece (given : List Char) (first last : Nat) : List Char :=
  (given.drop first).take (last - first)

/-- Adds a field, which must not be empty. -/
def withField? (d : Directive) (s : List Char) : Option Directive :=
  if s.isEmpty then none
  else (FieldMatch.parse? s).map fun f => { d with fields := d.fields ++ [f] }

/-- One step of the machine, at place `i` with character `c`. -/
def step? (given : List Char) (d : Directive) (reading : Reading) (i : Nat) (c : Char) :
    Option (Directive × Reading) :=
  match reading with
  | .start =>
    if c == '[' then some (d, .span (i + 1))
    else if c == '-' || c == ':' || c == '_' || isAlphanumeric c then some (d, .levelOrTarget i)
    else none
  | .levelOrTarget first =>
    let named := { d with target := some (String.ofList (piece given first i)) }
    if c == '=' then some (named, .level (i + 1))
    else if c == '[' then some (named, .span (i + 1))
    else some (d, reading)
  | .span first =>
    let name := piece given first i
    if c == ']' then some ({ d with span := some (String.ofList name) }, .target)
    else if c == '\x7b' then
      let span := if name.isEmpty then none else some (String.ofList name)
      some ({ d with span }, .field (i + 1))
    else some (d, reading)
  | .field first =>
    if c == '\x7d' then (d.withField? (piece given first i)).map fun d => (d, .fields)
    else some (d, reading)
  | .fields => if c == ']' then some (d, .target) else none
  | .target => if c == '=' then some (d, .level (i + 1)) else none
  | .level _ => some (d, reading)

/-- The directive when the text ends. -/
def finish? (given : List Char) (d : Directive) : Reading → Option Directive
  | .levelOrTarget first =>
    let word := String.ofList (given.drop first)
    match thresholdOfText? word with
    | some level => some { d with level, target := none }
    | none => some { d with level := some .trace, target := some word }
  | .level first =>
    let word := String.ofList (given.drop first)
    if word.isEmpty then some { d with level := some .trace }
    else (thresholdOfText? word).map fun level => { d with level }
  | .target => some d
  | _ => none

/-- Runs the machine from place `i` on. -/
def run (given : List Char) (d : Directive) (reading : Reading) (i : Nat) :
    List Char → Option Directive
  | [] => finish? given d reading
  | c :: cs =>
    match step? given d reading i c with
    | some (d, reading) => run given d reading (i + 1) cs
    | none => none

def parse? (s : String) : Option Directive :=
  let trimmed := ((skipBlank s.toList).reverse.dropWhile isBlank).reverse
  run s.toList {} .start 0 trimmed

end Directive

abbrev Filter := List Directive

/-- The filter with a text. Empty directives do not count. -/
def Filter.parse? (s : String) : Option Filter :=
  ((textPieces ',' s).filter (!·.isEmpty)).mapM Directive.parse?

end Almanac.Logging
