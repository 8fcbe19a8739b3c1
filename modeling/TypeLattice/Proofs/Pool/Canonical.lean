import TypeLattice.Proofs.Table
import TypeLattice.Pool.Narrowing

/-!
Canonical pools: every stored entry holds a canonical shape that no fixed type has, together with
the flags of that shape, and is filed under it. In such a pool `find?` and `shape?` undo each
other, so a shape has one identifier, and interning either finds it or takes the next free one.
-/
namespace TypeLattice

namespace Shape

@[simp] theorem canonical_canonical {ν τ : Type} (s : Shape ν τ) :
    s.canonical.canonical = s.canonical := by
  simp only [canonical, of]
  split <;> rfl

@[simp] theorem canonical_of {ν τ : Type} (kind : Kind ν τ) (nullable : Bool) :
    (of kind nullable).canonical = of kind nullable := canonical_canonical ⟨kind, nullable⟩

theorem fixed?_eq_some_iff {s : TypeShape} {id : TypeId} :
    s.fixed? = some id ↔
      (∃ b, id = .basic b ∧ s = ⟨.basic b, false⟩) ∨
      (id = .nullableNonEmptyMixed ∧ s = ⟨.basic .nonEmptyMixed, true⟩) := by
  obtain ⟨kind, nullable⟩ := s
  cases kind with
  | basic b => cases nullable <;> cases b <;> cases id <;> simp [fixed?, eq_comm]
  | instanceOf name => simp [fixed?]
  | array nonEmpty key elem => simp [fixed?]

end Shape

namespace Pool

def find? (p : Pool) (s : TypeShape) : Option TypeId :=
  match s.fixed? with
  | some id => some id
  | none => (p.table.find? s).map .interned

structure Canonical (p : Pool) : Prop where
  filed : Table.Filed Entry.shape p.table
  settled : ∀ n e, p.table.get? n = some e →
    e = .of e.shape ∧ e.shape.canonical = e.shape ∧ e.shape.fixed? = none

/-- A pool that knows at least the types of another, by the same identifiers. -/
def Extends (p q : Pool) : Prop := ∀ id e, p.entry? id = some e → q.entry? id = some e

theorem extends_refl (p : Pool) : Extends p p := fun _ _ known => known

theorem extends_trans {p q r : Pool} (first : Extends p q) (second : Extends q r) :
    Extends p r := fun id e known => second id e (first id e known)

theorem shape?_of_held {p : Pool} {id : TypeId} {e : Entry} (known : p.entry? id = some e) :
    p.shape? id = some e.shape :=
  Option.map_eq_some_iff.mpr ⟨e, known, rfl⟩

theorem extends_shape? {p q : Pool} (grown : Extends p q) {id : TypeId} {s : TypeShape}
    (known : p.shape? id = some s) : q.shape? id = some s := by
  obtain ⟨e, held, rfl⟩ := Option.map_eq_some_iff.mp known
  exact shape?_of_held (grown id e held)

/-- Whether a type is in a pool. -/
def Knows (p : Pool) (id : TypeId) : Prop := ∃ s, p.shape? id = some s

theorem empty_canonical : Canonical empty where
  filed := Table.empty_filed _
  settled := by
    intro n e held
    simp [empty, Table.empty, Table.get?] at held

theorem entry?_fixed (p : Pool) {s : TypeShape} {id : TypeId} (fixed : s.fixed? = some id) :
    p.entry? id = some (.of s) := by
  obtain ⟨b, rfl, rfl⟩ | ⟨rfl, rfl⟩ := Shape.fixed?_eq_some_iff.mp fixed <;> rfl

theorem entry?_cases {p : Pool} {id : TypeId} {e : Entry} (known : p.entry? id = some e) :
    (e = .of e.shape ∧ e.shape.fixed? = some id) ∨
      ∃ n, id = .interned n ∧ p.table.get? n = some e := by
  cases id with
  | basic b => cases known; exact Or.inl ⟨rfl, rfl⟩
  | nullableNonEmptyMixed => cases known; exact Or.inl ⟨rfl, rfl⟩
  | interned n => exact Or.inr ⟨n, rfl, known⟩
  | unassigned _ => cases known

theorem shape?_of_kind {p : Pool} {id : TypeId} {entry : Entry} {kind : Kind NameId TypeId}
    (known : p.entry? id = some entry) (same : entry.shape.kind = kind) :
    p.shape? id = some ⟨kind, entry.shape.nullable⟩ := by
  rw [shape?, known, ← same]
  rfl

section Canonical
variable {p : Pool} (canonical : Canonical p)
include canonical

theorem entry?_eq_of {id : TypeId} {e : Entry} (known : p.entry? id = some e) :
    e = .of e.shape := by
  rcases entry?_cases known with ⟨own, _⟩ | ⟨n, _, held⟩
  · exact own
  · exact (canonical.settled n e held).1

theorem entry?_of_shape? {id : TypeId} {s : TypeShape} (known : p.shape? id = some s) :
    p.entry? id = some (.of s) := by
  obtain ⟨e, held, rfl⟩ := Option.map_eq_some_iff.mp known
  rw [held]
  exact congrArg some (entry?_eq_of canonical held)

/-- `find?` undoes `shape?` and the other way round. -/
theorem shape?_eq_some_iff {id : TypeId} {s : TypeShape} :
    p.shape? id = some s ↔ s.canonical = s ∧ p.find? s = some id := by
  constructor
  · intro known
    obtain ⟨e, held, rfl⟩ := Option.map_eq_some_iff.mp known
    rcases entry?_cases held with ⟨_, fixed⟩ | ⟨n, rfl, stored⟩
    · refine ⟨?_, by simp only [find?, fixed]⟩
      rcases Shape.fixed?_eq_some_iff.mp fixed with ⟨b, _, shape⟩ | ⟨_, shape⟩
      · rw [shape]; simp [Shape.canonical, Shape.of]
      · rw [shape]; rfl
    · obtain ⟨_, settled, free⟩ := canonical.settled n e stored
      have found := (canonical.filed e.shape n).mpr ⟨e, stored, rfl⟩
      exact ⟨settled, by simp only [find?, free, found, Option.map_some]⟩
  · rintro ⟨settled, found⟩
    simp only [find?] at found
    split at found
    · rename_i fixed
      cases found
      exact shape?_of_held (entry?_fixed p fixed)
    · obtain ⟨n, number, rfl⟩ := Option.map_eq_some_iff.mp found
      obtain ⟨e, stored, keyed⟩ := (canonical.filed s n).mp number
      exact Option.map_eq_some_iff.mpr ⟨e, stored, keyed⟩

theorem shape?_injective {id other : TypeId} {s : TypeShape} (left : p.shape? id = some s)
    (right : p.shape? other = some s) : id = other := by
  have first := ((shape?_eq_some_iff canonical).mp left).2
  have second := ((shape?_eq_some_iff canonical).mp right).2
  exact Option.some.inj (first.symm.trans second)

theorem intern_known {id : TypeId} {s : TypeShape} (known : p.shape? id = some s.canonical) :
    p.intern s = (id, p) := by
  have found := ((shape?_eq_some_iff canonical).mp known).2
  simp only [find?] at found
  split at found
  · rename_i fixed
    cases found
    simp only [intern, fixed]
  · rename_i free
    obtain ⟨n, number, rfl⟩ := Option.map_eq_some_iff.mp found
    simp only [intern, free, Table.intern_known number]

theorem intern_of_shape? {id : TypeId} {s : TypeShape} (known : p.shape? id = some s) :
    p.intern s = (id, p) := by
  apply intern_known canonical
  rw [((shape?_eq_some_iff canonical).mp known).1]
  exact known

theorem intern_canonical (s : TypeShape) : Canonical (p.intern s).2 := by
  cases fixed : s.canonical.fixed? with
  | some id => simp only [intern, fixed]; exact canonical
  | none =>
    simp only [intern, fixed]
    refine ⟨Table.intern_filed canonical.filed rfl, ?_⟩
    intro n e held
    rcases Table.get?_intern_cases held with old | ⟨_, _, rfl⟩
    · exact canonical.settled n e old
    · exact ⟨rfl, s.canonical_canonical, fixed⟩

/-- The identifier that is given out stands for the canonical form of the request. -/
theorem shape?_intern (s : TypeShape) :
    (p.intern s).2.shape? (p.intern s).1 = some s.canonical := by
  cases fixed : s.canonical.fixed? with
  | some id =>
    simp only [intern, fixed]
    exact shape?_of_held (entry?_fixed p fixed)
  | none =>
    simp only [intern, fixed]
    obtain ⟨e, held, keyed⟩ := Table.intern_number_holds canonical.filed
      (rfl : Entry.shape (.of s.canonical) = s.canonical)
    exact Option.map_eq_some_iff.mpr ⟨e, held, keyed⟩

theorem shape?_intern_own {s : TypeShape} (own : s.canonical = s) :
    (p.intern s).2.shape? (p.intern s).1 = some s := by
  have stored := shape?_intern canonical s
  rw [own] at stored
  exact stored

end Canonical

theorem extends_intern (p : Pool) (s : TypeShape) : Extends p (p.intern s).2 := by
  intro id e known
  simp only [intern]
  split
  · exact known
  · cases id with
    | interned n => exact Table.get?_intern known _ _
    | basic _ | nullableNonEmptyMixed | unassigned _ => exact known

/-- What a pool knows after a request is what it knew before, or the type it just added. -/
theorem shape?_intern_cases {p : Pool} {s known : TypeShape} {id : TypeId}
    (h : (p.intern s).2.shape? id = some known) :
    p.shape? id = some known ∨ (id = .interned p.table.size ∧ known = s.canonical) := by
  simp only [intern] at h
  split at h
  · exact Or.inl h
  · obtain ⟨e, held, rfl⟩ := Option.map_eq_some_iff.mp h
    cases id with
    | interned n =>
      rcases Table.get?_intern_cases held with old | ⟨_, rfl, rfl⟩
      · exact Or.inl (shape?_of_held old)
      · exact Or.inr ⟨rfl, rfl⟩
    | basic _ | nullableNonEmptyMixed | unassigned _ => exact Or.inl h

theorem age_le_size {p : Pool} {id : TypeId} {s : TypeShape} (known : p.shape? id = some s) :
    id.age ≤ p.table.size := by
  obtain ⟨e, held, _⟩ := Option.map_eq_some_iff.mp known
  cases id with
  | interned n => exact Table.get?_lt_size held
  | basic _ | nullableNonEmptyMixed | unassigned _ => exact Nat.zero_le _

end Pool
end TypeLattice
