/-!
# Ranges of code points

Sets of characters as ranges of code points, which are searched by halving.
-/

namespace CodeAtlas.Text

/-- Consecutive code points, both ends included. -/
structure CodeRange where
  first : Nat
  last : Nat

/-- The number lies in one of the ranges between two indices, which are in order. -/
def inRanges (ranges : Array CodeRange) (n : Nat) : Nat → Nat → Nat → Bool
  | 0, _, _ => false
  | fuel + 1, low, high =>
    if low ≥ high then false
    else
      let middle := (low + high) / 2
      match ranges[middle]? with
      | none => false
      | some r =>
        if n < r.first then inRanges ranges n fuel low middle
        else if r.last < n then inRanges ranges n fuel (middle + 1) high
        else true

/-- The number lies in one of the ranges, which are in order. -/
def isInRanges (ranges : Array CodeRange) (n : Nat) : Bool :=
  inRanges ranges n (ranges.size + 1) 0 ranges.size

end CodeAtlas.Text
