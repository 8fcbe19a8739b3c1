import TypeLattice.Proofs.Pool.Requests

/-!
Histories of pools. A pool that serves one request after another passes through every size on its
way, and at each size it knows the types up to that age. So of two types the older one was there
before the younger, in whatever way the pool was filled.
-/
namespace TypeLattice

theorem Table.size_intern_le {κ α : Type} [BEq κ] [Hashable κ] (t : Table κ α) (key : κ)
    (value : α) : (t.intern key value).2.size ≤ t.size + 1 := by
  cases found : t.find? key with
  | some n => rw [intern_known found]; exact Nat.le_succ t.size
  | none => rw [intern_new found]; simp [size]

namespace Pool

theorem size_intern_le (p : Pool) (s : TypeShape) :
    (p.intern s).2.table.size ≤ p.table.size + 1 := by
  simp only [intern]
  split
  · exact Nat.le_succ p.table.size
  · exact Table.size_intern_le _ _ _

theorem serve_passes {p : Pool} {n : Nat} (shapes : List TypeShape) (low : p.table.size ≤ n)
    (high : n ≤ (p.serve shapes).2.table.size) :
    ∃ front back, shapes = front ++ back ∧ (p.serve front).2.table.size = n := by
  induction shapes generalizing p with
  | nil => exact ⟨[], [], rfl, Nat.le_antisymm low high⟩
  | cons s shapes ih =>
    rcases Nat.eq_or_lt_of_le low with here | later
    · exact ⟨[], s :: shapes, rfl, here⟩
    · have next : (p.intern s).2.table.size ≤ n := Nat.le_trans (size_intern_le p s) later
      obtain ⟨front, back, rfl, size⟩ := ih next high
      exact ⟨s :: front, back, rfl, size⟩

/-- A type that some pool knows is known to all that have grown to its age. -/
theorem knows_of_age_le {p q : Pool} {id : TypeId} (known : q.Knows id)
    (reached : id.age ≤ p.table.size) : p.Knows id := by
  cases id with
  | basic | nullableNonEmptyMixed => exact ⟨_, rfl⟩
  | interned n =>
    obtain ⟨e, held⟩ := Table.get?_of_lt_size reached
    exact ⟨e.shape, shape?_of_held held⟩
  | unassigned =>
    obtain ⟨s, shape⟩ := known
    cases shape

/-- Whether a type was there before another, however the pool came about. -/
def Precedes (p : Pool) (id other : TypeId) : Prop :=
  ∀ shapes, (empty.serve shapes).2 = p → ∃ front back, shapes = front ++ back ∧
    (empty.serve front).2.Knows id ∧ ¬(empty.serve front).2.Knows other

theorem precedes_of_age_lt {p : Pool} {id other : TypeId} (known : p.Knows id)
    (known' : p.Knows other) (older : id.age < other.age) : p.Precedes id other := by
  rintro shapes rfl
  obtain ⟨t, shape⟩ := known'
  have inside := age_le_size shape
  -- just before the younger type is added the pool is as large as its age less one
  obtain ⟨n, age⟩ : ∃ n, other.age = n + 1 := ⟨other.age - 1, by omega⟩
  obtain ⟨front, back, same, size⟩ :=
    serve_passes (p := empty) (n := n) shapes (Nat.zero_le n) (by omega)
  refine ⟨front, back, same, knows_of_age_le known (by omega), ?_⟩
  rintro ⟨_, early⟩
  have := age_le_size early
  omega

/-- Whether a type is the element of an array. -/
def ElementOf (p : Pool) (elem id : TypeId) : Prop :=
  ∃ nonEmpty key nullable, p.shape? id = some ⟨.array nonEmpty key elem, nullable⟩

end Pool
end TypeLattice
