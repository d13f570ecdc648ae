/-! # Ranges of code points

    A class of characters beyond ASCII is a sorted list of inclusive ranges of
    code points; membership is a walk over the list. -/

namespace GoLayout

/-- An inclusive range of code points: the first and the last one. -/
abbrev CodeRange := Nat × Nat

/-- Does one of the ranges hold the code point? -/
def CodeRange.cover (ranges : List CodeRange) (n : Nat) : Bool :=
  ranges.any fun (first, last) => first ≤ n && n ≤ last

/-- The distance of the code point from the start of the first range that holds it. -/
def CodeRange.offset? (ranges : List CodeRange) (n : Nat) : Option Nat :=
  (ranges.find? fun (first, last) => first ≤ n && n ≤ last).map fun (first, _) => n - first

end GoLayout
