import TypeLattice.Truth
import TypeLattice.TypeId

/-!
Pools of types. A pool holds every shape once, together with its flags, so that equal types have
equal identifiers. The fixed types are in no table: their identifier tells their shape.
-/
namespace TypeLattice

structure Entry where
  shape : TypeShape
  flags : Flags
  deriving DecidableEq, Repr

def Entry.of (s : TypeShape) : Entry := ⟨s, s.flags⟩

/-- The types that a pool holds beside the fixed ones. -/
structure Pool where
  table : Table TypeShape Entry

namespace Pool

def empty : Pool := ⟨.empty⟩

def size (p : Pool) : Nat := TypeId.fixed.length + p.table.size

def isEmpty (p : Pool) : Bool := p.size ≤ TypeId.fixed.length

/-- The entry of a type; an identifier from elsewhere has none. -/
def entry? (p : Pool) : TypeId → Option Entry
  | .basic b => some (.of ⟨.basic b, false⟩)
  | .nullableNonEmptyMixed => some (.of ⟨.basic .nonEmptyMixed, true⟩)
  | .interned n => p.table.get? n
  | .unassigned _ => none

/-- The identifier of a shape, which is brought into its canonical form first. -/
def intern (p : Pool) (s : TypeShape) : TypeId × Pool :=
  let c := s.canonical
  match c.fixed? with
  | some id => (id, p)
  | none =>
    let r := p.table.intern c (.of c)
    (.interned r.1, ⟨r.2⟩)

end Pool
end TypeLattice
