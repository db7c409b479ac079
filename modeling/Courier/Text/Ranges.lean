/-!
# Ranges of code points

A property of characters is a table of ranges, ascending and disjoint. `inRanges` looks a
code point up by halving.
-/

namespace Courier.Text

/-- Whether `n` lies in one of the ranges with an index from `low` up to `high`, which
are ascending and disjoint. -/
def inRanges (ranges : Array (Nat × Nat)) (n low high : Nat) : Bool :=
  if low < high then
    let middle := low + (high - low) / 2
    match ranges[middle]? with
    | none => false
    | some (first, last) =>
      if n < first then inRanges ranges n low middle
      else if last < n then inRanges ranges n (middle + 1) high
      else true
  else false
termination_by high - low

end Courier.Text
