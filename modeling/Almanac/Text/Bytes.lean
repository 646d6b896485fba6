/-
  Almanac.Text.Bytes

  Byte strings and the texts they hold: `utf8` writes a text as bytes, `ofUtf8?`
  reads bytes that are valid UTF-8, and the two undo each other.
-/

namespace Almanac

abbrev Bytes := List UInt8

/-- The UTF-8 form of a text. -/
def utf8 (s : String) : Bytes := s.toUTF8.data.toList

/-- The text that bytes stand for, if they are valid UTF-8. -/
def ofUtf8? (bs : Bytes) : Option String := String.fromUTF8? ⟨bs.toArray⟩

/-- Reading the bytes of a text gives the text back. -/
theorem ofUtf8?_utf8 (s : String) : ofUtf8? (utf8 s) = some s := by
  have h : (⟨(utf8 s).toArray⟩ : ByteArray) = s.toUTF8 := by simp [utf8]
  unfold ofUtf8?
  have valid : s.toUTF8.IsValidUTF8 := s.isValidUTF8
  rw [h, String.fromUTF8?, dif_pos valid]
  rfl

/-- The bytes of characters below 128. -/
def asciiBytes (cs : List Char) : Bytes := cs.map fun c => UInt8.ofNat c.toNat

/-- The value of a hexadecimal digit. -/
def hexValue? (b : UInt8) : Option Nat :=
  let n := b.toNat
  if 48 ≤ n ∧ n ≤ 57 then some (n - 48)
  else if 65 ≤ n ∧ n ≤ 70 then some (n - 55)
  else if 97 ≤ n ∧ n ≤ 102 then some (n - 87)
  else none

/-- The lower-case hexadecimal digit of a number below sixteen. -/
def hexDigit (n : Nat) : Char := if n < 10 then Char.ofNat (48 + n) else Char.ofNat (87 + n)

/-- The two hexadecimal digits of a byte. -/
def hexPair (b : UInt8) : List Char := [hexDigit (b.toNat / 16), hexDigit (b.toNat % 16)]

def hexText (bs : Bytes) : String := String.ofList (bs.flatMap hexPair)

/-- The bytes that pairs of hexadecimal digits stand for. -/
def ofHex? (s : String) : Option Bytes := go [] (utf8 s)
where
  /-- Reads on from the digits left, the bytes read so far being in reverse. -/
  go (acc : Bytes) : Bytes → Option Bytes
    | [] => some acc.reverse
    | [_] => none
    | a :: b :: rest =>
      match hexValue? a, hexValue? b with
      | some x, some y => go (UInt8.ofNat (16 * x + y) :: acc) rest
      | _, _ => none

end Almanac
