/-!
# Ranges of code points

Classes of characters are tables of ranges, lowest first.
-/

namespace Schemata.Text

/-- Whether `n` lies in one of the given ranges, which are in increasing order. -/
def inRanges (n : Nat) : List (Nat × Nat) → Bool
  | [] => false
  | (lo, hi) :: r => if n < lo then false else if n ≤ hi then true else inRanges n r

end Schemata.Text
