/-
  Almanac.Text.Pieces

  The pieces of a text between separators. A separator at an end, or two in a row, leave an
  empty piece, so that there is always one piece more than there are separators.
-/

namespace Almanac

/-- The pieces of a row of characters between those that are separators. -/
def pieces (separator : Char) : List Char → List (List Char)
  | [] => [[]]
  | c :: cs =>
    if c == separator then [] :: pieces separator cs
    else match pieces separator cs with
      | [] => [[c]]
      | piece :: others => (c :: piece) :: others

def textPieces (separator : Char) (s : String) : List String :=
  (pieces separator s.toList).map String.ofList

end Almanac
