import TypeLattice.Proofs.Pool.Canonical
import TypeLattice.Proofs.Shape

/-!
The related types of a stored type are interned shapes. A canonical pool stores a shape once, so a
shape that an operation leaves as it is keeps its identifier.
-/
namespace TypeLattice.Pool

section Derived
variable {p : Pool} {id : TypeId} {s : TypeShape} (known : p.shape? id = some s)
include known

theorem derive?_of_shape? (f : TypeShape → TypeShape) :
    p.derive? id f = some (p.intern (f s)) := by
  rw [derive?, known]
  rfl

theorem derivePart?_of_shape? {f : TypeShape → Option TypeShape} {o : TypeShape}
    (found : f s = some o) :
    p.derivePart? id f = some (some (p.intern o).1, (p.intern o).2) := by
  rw [derivePart?, known, Option.map_some, found]

theorem derivePart?_of_none {f : TypeShape → Option TypeShape} (absent : f s = none) :
    p.derivePart? id f = some (none, p) := by
  rw [derivePart?, known, Option.map_some, absent]

section Canonical
variable (canonical : p.Canonical)
include canonical

/-- A shape that an operation leaves as it is keeps its identifier, and nothing is stored. -/
theorem derive?_same {f : TypeShape → TypeShape} (same : f s = s) :
    p.derive? id f = some (id, p) := by
  rw [derive?_of_shape? known, same, intern_of_shape? canonical known]

theorem derivePart?_same {f : TypeShape → Option TypeShape} (same : f s = some s) :
    p.derivePart? id f = some (some id, p) := by
  rw [derivePart?_of_shape? known same, intern_of_shape? canonical known]

end Canonical

end Derived
end TypeLattice.Pool
