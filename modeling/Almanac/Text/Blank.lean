/-
  Almanac.Text.Blank

  The white space characters of the Unicode property `White_Space`, and the
  trimming of blank ends of a text.
-/

namespace Almanac

/-- Whether a character has the property `White_Space`. -/
def isBlank (c : Char) : Bool :=
  let n := c.toNat
  (0x09 ≤ n && n ≤ 0x0D) || n == 0x20 || n == 0x85 || n == 0xA0 || n == 0x1680 ||
  (0x2000 ≤ n && n ≤ 0x200A) || n == 0x2028 || n == 0x2029 || n == 0x202F ||
  n == 0x205F || n == 0x3000

/-- A text without the blanks it starts with. -/
def skipBlank (cs : List Char) : List Char := cs.dropWhile isBlank

/-- Whether a text holds nothing but blanks. -/
def isAllBlank (s : String) : Bool := s.toList.all isBlank

end Almanac
