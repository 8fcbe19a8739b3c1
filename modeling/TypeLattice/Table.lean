import Std.Data.HashMap

/-!
Interning tables. A table numbers keys in the order of their first request and keeps one value
for each. The number of a key never changes, and a later value for a known key is dropped.
-/
namespace TypeLattice

structure Table (κ α : Type) [BEq κ] [Hashable κ] where
  values : Array α
  numbers : Std.HashMap κ Nat

namespace Table
variable {κ α : Type} [BEq κ] [Hashable κ]

def empty : Table κ α := ⟨#[], ∅⟩

def size (t : Table κ α) : Nat := t.values.size

def get? (t : Table κ α) (n : Nat) : Option α := t.values[n]?

def find? (t : Table κ α) (key : κ) : Option Nat := t.numbers[key]?

/-- The number of `key`, which takes the next free one when it is new. -/
def intern (t : Table κ α) (key : κ) (value : α) : Nat × Table κ α :=
  match t.find? key with
  | some n => (n, t)
  | none =>
    let n := t.values.size
    (n, ⟨t.values.push value, t.numbers.insert key n⟩)

end Table
end TypeLattice
