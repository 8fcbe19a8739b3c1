/-!
Sets of code points, written as lists of inclusive ranges.
-/
namespace TypeLattice.Text

/-- Whether `n` lies in one of the inclusive `ranges`. -/
def inRanges (ranges : List (Nat × Nat)) (n : Nat) : Bool :=
  ranges.any fun r => r.1 ≤ n && n ≤ r.2

end TypeLattice.Text
