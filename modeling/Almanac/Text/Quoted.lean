/-
  Almanac.Text.Quoted

  A text in double quotes, as messages show it: quotes and backslashes get a
  backslash, a few controls a letter, and every other hidden character its number.
-/
import Almanac.Text.Printable

namespace Almanac

/-- The escape of a character by its number in hexadecimal. -/
def numberEscape (c : Char) : List Char :=
  '\\' :: 'u' :: '\x7b' :: Nat.toDigits 16 c.toNat ++ ['\x7d']

def quotedChar (c : Char) : List Char :=
  if c == '"' then ['\\', '"']
  else if c == '\\' then ['\\', '\\']
  else if c == '\t' then ['\\', 't']
  else if c == '\n' then ['\\', 'n']
  else if c == '\r' then ['\\', 'r']
  else if c.toNat == 0 then ['\\', '0']
  else if isPrintable c then [c]
  else numberEscape c

def quoted (s : String) : String :=
  String.ofList ('"' :: s.toList.flatMap quotedChar ++ ['"'])

end Almanac
