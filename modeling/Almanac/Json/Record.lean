/-
  Almanac.Json.Record

  Flat records in JSON. A `Layout` names the fields of a record type in their order,
  takes a record apart (`parts`) and puts one together (`build`); `encode` and
  `decode` work for every layout.

  A record is read from an object, whose unknown members are skipped, or from an array
  of its fields in order. Faults are reported in the order of the text.
-/
import Almanac.Json.Skip
import Almanac.Time.Notation

namespace Almanac.Json

/-! ## Field values -/

/-- The value of a field. -/
inductive Scalar
  | text (s : String)
  | natural (n : Nat)
  | flag (b : Bool)
  | instant (t : Instant)
  | date (d : Date)
deriving DecidableEq

/-- What a field holds. -/
inductive Kind
  | text
  | natural (limit : Nat)
  | flag
  | instant
  | date
deriving DecidableEq

/-- The fault of meeting something else than what was wanted: a broken scalar is reported
    as such, anything else is a mismatch. -/
def mismatch (s : Bytes) : Fault :=
  let verdict : Except Fault Unit := match s with
    | [] => .error .truncated
    | b :: rest =>
      if b == 34 then (readString rest).map fun _ => ()
      else if b == 110 then (expect nullWord.tail rest).map fun _ => ()
      else if b == 116 then (expect trueWord.tail rest).map fun _ => ()
      else if b == 102 then (expect falseWord.tail rest).map fun _ => ()
      else if b == 45 || isDigit b then (readNumber s).map fun _ => ()
      else if b == 91 || b == 123 then .ok ()
      else .error .malformed
  match verdict with
  | .ok _ => .mismatched
  | .error fault => fault

/-- A string, after blanks. -/
def readText (s : Bytes) : Except Fault (String × Bytes) :=
  match skipSpace s with
  | 34 :: rest => readString rest
  | s => .error (mismatch s)

/-- A string that `parse` accepts. -/
def readParsed {α : Type} (parse : String → Option α) (s : Bytes) : Except Fault (α × Bytes) := do
  let (text, rest) ← readText s
  match parse text with
  | some value => .ok (value, rest)
  | none => .error .mismatched

/-- A natural number up to `limit`, after blanks. -/
def readNatural (limit : Nat) (s : Bytes) : Except Fault (Nat × Bytes) :=
  match skipSpace s with
  | b :: rest =>
    if b == 45 || isDigit b then do
      match ← readNumber (b :: rest) with
      | (.natural n, rest) => if n ≤ limit then .ok (n, rest) else .error .mismatched
      | _ => .error .mismatched
    else .error (mismatch (b :: rest))
  | [] => .error .truncated

/-- A truth value, after blanks. -/
def readFlag (s : Bytes) : Except Fault (Bool × Bytes) :=
  match skipSpace s with
  | 116 :: rest => (expect trueWord.tail rest).map fun rest => (true, rest)
  | 102 :: rest => (expect falseWord.tail rest).map fun rest => (false, rest)
  | s => .error (mismatch s)

/-- A value of a kind, after blanks. -/
def Kind.read : Kind → Bytes → Except Fault (Scalar × Bytes)
  | .text, s => (readText s).map fun (v, rest) => (.text v, rest)
  | .natural limit, s => (readNatural limit s).map fun (v, rest) => (.natural v, rest)
  | .flag, s => (readFlag s).map fun (v, rest) => (.flag v, rest)
  | .instant, s => (readParsed Instant.parse? s).map fun (v, rest) => (.instant v, rest)
  | .date, s => (readParsed Date.parse? s).map fun (v, rest) => (.date v, rest)

/-! ## Layouts -/

/-- How a record type is laid out. `build` gets one entry for each field, `none` where the
    text had none, and fails when a field without a default is missing. -/
structure Layout (α : Type) where
  fields : List (String × Kind)
  parts : α → List Scalar
  build : List (Option Scalar) → Option α

/-! ## Writing -/

/-- The escaped form of one byte of a string. -/
def escapeByte (b : UInt8) : Bytes :=
  if b == 34 then [92, 34]
  else if b == 92 then [92, 92]
  else if b == 8 then [92, 98]
  else if b == 9 then [92, 116]
  else if b == 10 then [92, 110]
  else if b == 12 then [92, 102]
  else if b == 13 then [92, 114]
  else if b < 32 then asciiBytes ('\\' :: 'u' :: '0' :: '0' :: hexPair b)
  else [b]

def quote (s : String) : Bytes := 34 :: ((utf8 s).flatMap escapeByte ++ [34])

/-- A field value as JSON text. -/
def Scalar.encode : Scalar → Bytes
  | .text s => quote s
  | .natural n => asciiBytes (Nat.toDigits 10 n)
  | .flag b => if b then trueWord else falseWord
  | .instant t => quote t.text
  | .date d => quote d.text

/-- Members separated by commas. -/
def encodeMembers : List (String × Scalar) → Bytes
  | [] => []
  | [(name, value)] => quote name ++ 58 :: value.encode
  | (name, value) :: rest => quote name ++ 58 :: value.encode ++ 44 :: encodeMembers rest

/-- A record as JSON text without blanks, its fields in order. -/
def Layout.encode {α : Type} (layout : Layout α) (value : α) : Bytes :=
  123 :: encodeMembers ((layout.fields.map (·.1)).zip (layout.parts value)) ++ [125]

/-- Items separated by commas. -/
def encodeItems : List Bytes → Bytes
  | [] => []
  | [item] => item
  | item :: rest => item ++ 44 :: encodeItems rest

/-- A list of records as a JSON array. -/
def Layout.encodeList {α : Type} (layout : Layout α) (values : List α) : Bytes :=
  91 :: encodeItems (values.map layout.encode) ++ [93]

/-! ## Reading -/

/-- The colon between a name and its value. -/
def readColon (s : Bytes) : Except Fault Bytes :=
  match skipSpace s with
  | 58 :: rest => .ok rest
  | [] => .error .truncated
  | _ => .error .malformed

/-- The place and kind of the field with a name. -/
def findField (name : String) : List (String × Kind) → Option (Nat × Kind)
  | [] => none
  | (field, kind) :: fields =>
    if field == name then some (0, kind)
    else (findField name fields).map fun (i, kind) => (i + 1, kind)

/-- The members of an object from the first name on, and what follows the closing brace.
    A field that comes twice is a mismatch at its second name. -/
def readMembers (fields : List (String × Kind)) :
    Nat → List (Option Scalar) → Bytes → Except Fault (List (Option Scalar) × Bytes)
  | 0, _, _ => .error .truncated
  | fuel + 1, seen, s =>
    match skipSpace s with
    | [] => .error .truncated
    | 34 :: rest => do
      let (name, rest) ← readString rest
      let (seen, rest) ← match findField name fields with
        | none => do
          let rest ← skipValue (← readColon rest)
          pure (seen, rest)
        | some (i, kind) => do
          if (seen[i]?.getD none).isSome then throw .mismatched
          let rest ← readColon rest
          let (value, rest) ← kind.read rest
          pure (seen.set i (some value), rest)
      match skipSpace rest with
      | [] => .error .truncated
      | 44 :: rest => readMembers fields fuel seen rest
      | 125 :: rest => .ok (seen, rest)
      | _ => .error .malformed
    | _ => .error .malformed

/-- The items of an array after the first, one for each field left; `build` decides whether
    an early end leaves enough. -/
def readRest : List (String × Kind) → Bytes → Except Fault (List (Option Scalar) × Bytes)
  | [], s => .ok ([], s)
  | (name, kind) :: fields, s =>
    match skipSpace s with
    | [] => .error .truncated
    | 93 :: _ => .ok (((name, kind) :: fields).map fun _ => none, s)
    | 44 :: rest => do
      let (value, rest) ← match skipSpace rest with
        | [] => throw .truncated
        | _ => kind.read rest
      let (values, rest) ← readRest fields rest
      pure (some value :: values, rest)
    | _ => .error .malformed

/-- The items of an array whose bracket has been taken, up to its closing one. -/
def readItems (fields : List (String × Kind)) (s : Bytes) :
    Except Fault (List (Option Scalar) × Bytes) :=
  match fields with
  | [] => .ok ([], s)
  | (_, kind) :: others =>
    match skipSpace s with
    | [] => .error .truncated
    | 93 :: _ => .ok (fields.map fun _ => none, s)
    | _ => do
      let (value, rest) ← kind.read s
      let (values, rest) ← readRest others rest
      pure (some value :: values, rest)

/-- A record from the front of JSON text. -/
def Layout.read {α : Type} (layout : Layout α) (s : Bytes) : Except Fault (α × Bytes) := do
  match skipSpace s with
  | 123 :: rest =>
    let (seen, rest) ← match skipSpace rest with
      | 125 :: rest => pure (layout.fields.map fun _ => none, rest)
      | _ => readMembers layout.fields (rest.length + 1) (layout.fields.map fun _ => none) rest
    match layout.build seen with
    | some value => .ok (value, rest)
    | none => .error .mismatched
  | 91 :: rest =>
    let (seen, rest) ← readItems layout.fields rest
    match layout.build seen with
    | none => .error .mismatched
    | some value =>
      match skipSpace rest with
      | 93 :: rest => .ok (value, rest)
      | [] => .error .truncated
      | _ => .error .malformed
  | s => .error (mismatch s)

/-- A record that fills a whole JSON text, blanks aside. -/
def Layout.decode {α : Type} (layout : Layout α) (s : Bytes) : Except Fault α := do
  let (value, rest) ← layout.read s
  if (skipSpace rest).isEmpty then .ok value else .error .malformed

end Almanac.Json
