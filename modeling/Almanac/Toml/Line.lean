/-
  Almanac.Toml.Line

  The lines of a TOML file that say something: entries, headers of tables, and headers
  of the tables of a list. The value of an entry may itself go over many lines.
-/
import Almanac.Toml.Node
import Almanac.Toml.Scalar

namespace Almanac.Toml

/-! ## Lists and tables in braces -/

/-- The items of a list behind its bracket. Items may stand on lines of their own, and a comma may
    follow the last one. -/
def readItems (item : Reader Tree) : Nat → Reader (List Tree)
  | 0, _ => none
  | fuel + 1, cs => do
    match ← skipBlankLines cs with
    | ']' :: rest => some ([], rest)
    | cs =>
      let (value, rest) ← item cs
      match ← skipBlankLines rest with
      | ',' :: rest => do
        let (values, rest) ← readItems item fuel rest
        some (value :: values, rest)
      | ']' :: rest => some ([value], rest)
      | _ => none

/-- A key, an equals sign and a value. -/
def readEntry (value : Reader Tree) : Reader Entry := fun cs => do
  let ((path, key), rest) ← readKey cs
  let rest ← Net.readMark '=' rest
  let (value, rest) ← value (skipSpaces rest)
  some (⟨path, key, value⟩, rest)

/-- The entries of a table in braces from the first one on. No comma follows the last one. -/
def readEntries (value : Reader Tree) : Nat → Reader (List Entry)
  | 0, _ => none
  | fuel + 1, cs => do
    let (entry, rest) ← readEntry value cs
    match skipSpaces rest with
    | ',' :: rest => do
      let (entries, rest) ← readEntries value fuel rest
      some (entry :: entries, rest)
    | '\x7d' :: rest => some ([entry], rest)
    | _ => none

/-- A table behind its brace. -/
def readBraces (value : Reader Tree) : Reader Tree := fun cs => do
  let (entries, rest) ← match skipSpaces cs with
    | '\x7d' :: rest => some ([], rest)
    | cs => readEntries value (cs.length + 1) cs
  some (.table (treesOf (← fill [] entries)), rest)

/-- A value in which lists and tables are nested at most so deep. -/
def readValue : Nat → Reader Tree
  | 0 => readScalar
  | depth + 1 => fun cs =>
    match cs with
    | '[' :: rest =>
      (readItems (readValue depth) (rest.length + 1) rest).map fun (items, rest) =>
        (.list items, rest)
    | '\x7b' :: rest => readBraces (readValue depth) rest
    | _ => readScalar cs

/-! ## Lines -/

/-- A line that says something. -/
inductive Line
  | entry (e : Entry)
  /-- The header of a table: the path to it, and its key. -/
  | header (path : List String) (key : String)
  /-- The header of one more table in a list of tables. -/
  | item (path : List String) (key : String)
deriving Inhabited

/-- A key and the brackets that close a header. -/
def readHeaderKey (close : String) : Reader (List String × String) := fun cs => do
  let (key, rest) ← readKey cs
  some (key, ← readWord close rest)

/-- A line up to its end. -/
def readLine : Reader Line := fun cs => do
  let (line, rest) ← match cs with
    | '[' :: '[' :: rest =>
      (readHeaderKey "]]" rest).map fun ((path, key), rest) => (Line.item path key, rest)
    | '[' :: rest =>
      (readHeaderKey "]" rest).map fun ((path, key), rest) => (Line.header path key, rest)
    | _ => (readEntry (readValue (depthLimit - 1)) cs).map fun (e, rest) => (.entry e, rest)
  some (line, ← restOfLine? rest)

/-- The lines that say something. -/
def readLines : Nat → List Char → Option (List Line)
  | 0, _ => none
  | fuel + 1, cs =>
    let cs := skipSpaces cs
    match cs with
    | [] => some []
    | c :: _ =>
      if c == '#' || c == '\n' || c == '\r' then
        match restOfLine? cs with
        | some rest => readLines fuel rest
        | none => none
      else do
        let (line, rest) ← readLine cs
        some (line :: (← readLines fuel rest))

end Almanac.Toml
