/-!
# Tables of code point ranges

A property of characters is a sorted table of stretches, each given by its first and last code point.
-/

namespace NodeLink.Text

/-- Whether `n` lies in one of the stretches `lo` to `hi - 1`, by halving. -/
def inRangesFrom (table : Array Nat) (n : Nat) : Nat → Nat → Nat → Bool
  | 0, _, _ => false
  | fuel + 1, lo, hi =>
    if hi ≤ lo then false
    else
      let mid := (lo + hi) / 2
      if n < table.getD (2 * mid) 0 then inRangesFrom table n fuel lo mid
      else if table.getD (2 * mid + 1) 0 < n then inRangesFrom table n fuel (mid + 1) hi
      else true

/-- Whether `n` lies in one of the stretches of the table. -/
def inRanges (table : Array Nat) (n : Nat) : Bool :=
  inRangesFrom table n (table.size + 1) 0 (table.size / 2)

end NodeLink.Text
