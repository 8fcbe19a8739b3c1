import TypeLattice.Shape
import TypeLattice.Name.Table
import TypeLattice.PackedId

/-!
Identifiers of types. Fifteen types are known to every pool, and each has an identifier of its
own: the basic kinds without null, and `?non-empty-mixed`. A pool numbers the types it adds.
-/
namespace TypeLattice

inductive TypeId where
  | basic (b : BasicKind)
  | nullableNonEmptyMixed
  /-- The type that a pool added after `n` others. -/
  | interned (n : Nat)
  /-- A packed word that no pool hands out. -/
  | unassigned (id : PackedId)
  deriving DecidableEq, Repr, Hashable

abbrev TypeShape := Shape NameId TypeId

namespace TypeId

/-- The types of every pool, in the order of their packed words. -/
def fixed : List TypeId :=
  [basic .mixed, basic .nonNullMixed, basic .nonEmptyMixed, nullableNonEmptyMixed,
   basic .nonNullNonEmptyMixed, basic .null, basic .never, basic .bool, basic .onlyTrue,
   basic .onlyFalse, basic .int, basic .nonZeroInt, basic .float, basic .string, basic .object]

def fixedIndex? (id : TypeId) : Option Nat := fixed.idxOf? id

/-- The age of a type in its pool. The element of an array is older than the array. -/
def age : TypeId → Nat
  | basic _ | nullableNonEmptyMixed | unassigned _ => 0
  | interned n => n + 1

/-- The name of a fixed type in capitals, as in `NON_ZERO_INT`. -/
def constantName? : TypeId → Option String
  | basic b => some (capitals b.keyword)
  | nullableNonEmptyMixed => some (capitals "nullable-non-empty-mixed")
  | interned _ | unassigned _ => none
where
  capitals (word : String) : String := word.map fun c => if c == '-' then '_' else c.toUpper

end TypeId

namespace Shape

/-- The fixed type of a canonical shape, if it has one. -/
def fixed? (s : TypeShape) : Option TypeId :=
  match s.kind, s.nullable with
  | .basic b, false => some (.basic b)
  | .basic .nonEmptyMixed, true => some .nullableNonEmptyMixed
  | _, _ => none

end Shape

namespace PackedId

/-- The type that a packed word stands for in every pool. -/
def toTypeId (id : PackedId) : TypeId := TypeId.fixed.getD id.bits.toNat (.unassigned id)

def isFixed (id : PackedId) : Bool := id.bits.toNat < TypeId.fixed.length

def showType (id : PackedId) : String :=
  match id.toTypeId.constantName? with
  | some name => s!"Idx::{name}"
  | none => s!"Idx(shard={id.shard.toNat}, local={id.place.toNat})"

end PackedId
end TypeLattice
