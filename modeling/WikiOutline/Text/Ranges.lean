/-
# Tables of characters

A set of characters is a list of closed ranges of code points in ascending
order; a map of characters is a list of runs, each with a first and a last code
point, a step from one to the next, and the distance to the image.

Key definitions: `Text.inRanges`, `Text.shiftBy?`.
-/

namespace WikiOutline

namespace Text

/-- A code point lies in one of the ranges. -/
def inRanges (ranges : List (Nat × Nat)) (n : Nat) : Bool :=
  ranges.any fun r => r.1 ≤ n && n ≤ r.2

/-- The image of a code point under the runs. -/
def shiftBy? (runs : List (Nat × Nat × Nat × Int)) (n : Nat) : Option Nat :=
  (runs.find? fun r => r.1 ≤ n && n ≤ r.2.1 && (n - r.1) % r.2.2.1 == 0).map
    fun r => ((n : Int) + r.2.2.2).toNat

end Text

end WikiOutline
