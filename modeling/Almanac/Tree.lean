/-
  Almanac.Tree

  Values that settings are read from, whatever text they stood in: scalars, lists, and
  tables of named values.
-/

namespace Almanac

/-- A value. Settings have no use for fractions and moments, so these carry nothing. -/
inductive Tree
  | null
  | text (s : String)
  | integer (n : Int)
  | fraction
  | moment
  | flag (b : Bool)
  | list (items : List Tree)
  | table (entries : List (String × Tree))
deriving Inhabited

end Almanac
