/-
  Almanac.Text.Ranges

  Sets of code points given as ascending ranges, both ends included.
-/

namespace Almanac

/-- Whether a code point lies in one of the ranges from index `low` up to `high`, which
    ascend; halves the span each time. -/
def inRanges (ranges : Array (Nat × Nat)) (n low high : Nat) : Bool :=
  if _h : low < high then
    let middle := (low + high) / 2
    match ranges[middle]? with
    | none => false
    | some (first, last) =>
      if n < first then inRanges ranges n low middle
      else if last < n then inRanges ranges n (middle + 1) high
      else true
  else false
termination_by high - low

end Almanac
