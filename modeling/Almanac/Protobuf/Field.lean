/-
  Almanac.Protobuf.Field

  The fields of a protobuf message: a number and a payload each. `fields?` splits a
  message into its fields, `Field.encode` writes one back. Groups are recognised, and
  checked to be balanced, only to be passed over.
-/
import Almanac.Protobuf.Varint

namespace Almanac.Protobuf

/-- What a field carries. -/
inductive Payload
  | varint (n : Nat)
  | bytes (b : Bytes)
  /-- Four or eight bytes; no message here has such a field. -/
  | fixed
  /-- A group; no message here has one. -/
  | group
deriving DecidableEq

/-- A field of a message. -/
structure Field where
  number : Nat
  payload : Payload
deriving DecidableEq

/-- A field key: its number and its wire type. -/
def readKey (s : Bytes) : Option (Nat × Nat × Bytes) := do
  let (key, rest) ← readVarint s
  if key < 4294967296 ∧ 8 ≤ key then some (key / 8, key % 8, rest) else none

/-- The first `n` bytes and the others, if there are as many. -/
def splitBytes (n : Nat) (s : Bytes) : Option (Bytes × Bytes) :=
  if n ≤ s.length then some (s.splitAt n) else none

/-- Passes over the rest of the open groups, given by number with the innermost first; `depth`
    groups more may open. -/
def skipGroup : Nat → Nat → List Nat → Bytes → Option Bytes
  | _, _, [], s => some s
  | 0, _, _ :: _, _ => none
  | fuel + 1, depth, number :: outer, s => do
    let (inner, wire, rest) ← readKey s
    if wire = 4 then
      if inner = number then skipGroup fuel (depth + 1) outer rest else none
    else if depth = 0 then none
    else match wire with
      | 0 => do
        let (_, rest) ← readVarint rest
        skipGroup fuel depth (number :: outer) rest
      | 1 => do
        let (_, rest) ← splitBytes 8 rest
        skipGroup fuel depth (number :: outer) rest
      | 2 => do
        let (size, rest) ← readVarint rest
        let (_, rest) ← splitBytes size rest
        skipGroup fuel depth (number :: outer) rest
      | 3 => skipGroup fuel (depth - 1) (inner :: number :: outer) rest
      | 5 => do
        let (_, rest) ← splitBytes 4 rest
        skipGroup fuel depth (number :: outer) rest
      | _ => none

/-- One field from the front of a message whose groups may nest `depth` deep. -/
def readField (depth : Nat) (s : Bytes) : Option (Field × Bytes) := do
  let (number, wire, rest) ← readKey s
  match wire with
  | 0 => (readVarint rest).map fun (n, rest) => (⟨number, .varint n⟩, rest)
  | 1 => (splitBytes 8 rest).map fun (_, rest) => (⟨number, .fixed⟩, rest)
  | 2 => do
    let (size, rest) ← readVarint rest
    (splitBytes size rest).map fun (b, rest) => (⟨number, .bytes b⟩, rest)
  | 3 => (skipGroup rest.length (depth - 1) [number] rest).map fun rest =>
      (⟨number, .group⟩, rest)
  | 5 => (splitBytes 4 rest).map fun (_, rest) => (⟨number, .fixed⟩, rest)
  | _ => none

/-- The fields of a message, read with as much fuel as it has bytes. -/
def fieldsFrom (depth : Nat) : Nat → List Field → Bytes → Option (List Field)
  | _, acc, [] => some acc.reverse
  | 0, _, _ => none
  | fuel + 1, acc, s => do
    let (field, rest) ← readField depth s
    fieldsFrom depth fuel (field :: acc) rest

/-- How deep messages and groups may nest. -/
def maxDepth : Nat := 100

/-- The fields of a message that stands `level` messages deep. -/
def fields? (level : Nat) (s : Bytes) : Option (List Field) :=
  fieldsFrom (maxDepth - level) s.length [] s

/-- The bytes of a field; only varints and byte strings are ever written. -/
def Field.encode (f : Field) : Bytes :=
  match f.payload with
  | .varint n => encodeVarint (f.number * 8) ++ encodeVarint n
  | .bytes b => encodeVarint (f.number * 8 + 2) ++ encodeVarint b.length ++ b
  | .fixed => []
  | .group => []

def encodeFields (fs : List Field) : Bytes := fs.flatMap Field.encode

/-! ## Field values -/

def Payload.text? : Payload → Option String
  | .bytes b => ofUtf8? b
  | _ => none

/-- A field for a text, left out when it is empty. -/
def textField (number : Nat) (s : String) : List Field :=
  if s.isEmpty then [] else [⟨number, .bytes (utf8 s)⟩]

/-- A field for a number, left out when it is zero. -/
def varintField (number n : Nat) : List Field :=
  if n = 0 then [] else [⟨number, .varint n⟩]

end Almanac.Protobuf
