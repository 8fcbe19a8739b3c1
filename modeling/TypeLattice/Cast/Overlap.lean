import TypeLattice.Cast

/-!
Weak overlap: whether two types may have a value in common. It is looser than a cast in either
direction and does not depend on the order of the two types.
-/
namespace TypeLattice

def Entry.mixedMeets (mixed other : Entry) : Bool :=
  match mixed.shape.kind with
  | .basic .nonEmptyMixed | .basic .nonNullNonEmptyMixed => other.flags.possiblyTruthy
  | .basic .nonNullMixed => other.shape.kind != .basic .null && other.shape.kind != .basic .never
  | _ => other.shape.kind != .basic .never

namespace Pool

/-- Whether two types overlap. There is no answer for an identifier of another pool, except that
`never` overlaps nothing at all. -/
def overlaps? (p : Pool) (id other : TypeId) : Option Bool :=
  match p.entry? id with
  | none => none
  | some a =>
    if a.shape.kind = .basic .never then some false
    else match p.entry? other with
      | none => none
      | some b =>
        if a.shape.kind.isMixed then some (a.mixedMeets b)
        else if b.flags.isMixed then some (b.mixedMeets a)
        else if b.shape.kind = .basic .never then some false
        else if a.flags.nullable && b.flags.nullable then some true
        else match p.cast? .strict id other with
          | some ⟨true, _⟩ => some true
          | some ⟨false, _⟩ => (p.cast? .strict other id).map Answer.holds
          | none => none

end Pool
end TypeLattice
