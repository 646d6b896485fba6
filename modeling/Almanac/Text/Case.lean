/-
  Almanac.Text.Case

  Names that do not tell upper from lower case among the ASCII letters.
-/

namespace Almanac

/-- A text with its ASCII letters in lower case. -/
def lowerAscii (s : String) : String := String.ofList (s.toList.map Char.toLower)

end Almanac
