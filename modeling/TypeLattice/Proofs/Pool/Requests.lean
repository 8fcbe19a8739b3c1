import TypeLattice.Proofs.Pool.Canonical
import TypeLattice.Proofs.Table.Keys

/-!
Pools that serve one request after another. What a canonical pool holds beside the fixed types is
what it held before and the canonical shapes it was asked for, each of them once.
-/
namespace TypeLattice

/-- A shape that was asked for, and the identifier it was answered with. -/
structure Request where
  shape : TypeShape
  answer : TypeId
  deriving DecidableEq, Repr

/-- The canonical shapes of requests that no fixed type has. -/
def Request.added (served : List Request) : Finset TypeShape :=
  ((served.map fun q => q.shape.canonical).filter fun s => s.fixed?.isNone).toFinset

theorem Request.added_append (front back : List Request) :
    added (front ++ back) = added front ∪ added back := by
  simp only [added, List.map_append, List.filter_append, List.toFinset_append]

namespace Pool

def serve (p : Pool) : List TypeShape → List Request × Pool
  | [] => ([], p)
  | s :: shapes =>
    let r := p.intern s
    let t := r.2.serve shapes
    (⟨s, r.1⟩ :: t.1, t.2)

theorem serve_shapes (p : Pool) (shapes : List TypeShape) :
    (p.serve shapes).1.map Request.shape = shapes := by
  induction shapes generalizing p with
  | nil => rfl
  | cons s shapes ih => rw [serve, List.map_cons, ih]

theorem serve_append (p : Pool) (front back : List TypeShape) :
    p.serve (front ++ back) =
      ((p.serve front).1 ++ ((p.serve front).2.serve back).1, ((p.serve front).2.serve back).2) := by
  induction front generalizing p with
  | nil => rfl
  | cons s front ih => simp only [List.cons_append, serve, ih]

theorem serve_extends (p : Pool) (shapes : List TypeShape) : Extends p (p.serve shapes).2 := by
  induction shapes generalizing p with
  | nil => exact extends_refl p
  | cons s shapes ih => exact extends_trans (extends_intern p s) (ih _)

theorem serve_canonical {p : Pool} (canonical : Canonical p) (shapes : List TypeShape) :
    Canonical (p.serve shapes).2 := by
  induction shapes generalizing p with
  | nil => exact canonical
  | cons s shapes ih => exact ih (intern_canonical canonical s)

theorem serve_answers {p : Pool} (canonical : Canonical p) (shapes : List TypeShape) :
    ∀ q ∈ (p.serve shapes).1, (p.serve shapes).2.shape? q.answer = some q.shape.canonical := by
  induction shapes generalizing p with
  | nil => intro q member; cases member
  | cons s shapes ih =>
    intro q member
    rcases List.mem_cons.mp member with rfl | later
    · exact extends_shape? (serve_extends _ shapes) (shape?_intern canonical s)
    · exact ih (intern_canonical canonical s) q later

theorem serve_answer_iff {p : Pool} (canonical : Canonical p) (shapes : List TypeShape)
    {q r : Request} (asked : q ∈ (p.serve shapes).1) (asked' : r ∈ (p.serve shapes).1) :
    q.answer = r.answer ↔ q.shape.canonical = r.shape.canonical := by
  have left := serve_answers canonical shapes q asked
  have right := serve_answers canonical shapes r asked'
  constructor
  · intro same
    rw [same] at left
    exact Option.some.inj (left.symm.trans right)
  · intro same
    rw [same] at left
    exact shape?_injective (serve_canonical canonical shapes) left right

def stored (p : Pool) : Finset TypeShape := (p.table.values.toList.map Entry.shape).toFinset

theorem stored_eq_keys (p : Pool) : p.stored = p.table.keys Entry.shape := rfl

theorem stored_empty : empty.stored = ∅ := rfl

theorem stored_card {p : Pool} (canonical : Canonical p) : p.stored.card = p.table.size :=
  Table.card_keys canonical.filed

theorem stored_intern {p : Pool} (canonical : Canonical p) (s : TypeShape) :
    (p.intern s).2.stored = p.stored ∪ Request.added [⟨s, (p.intern s).1⟩] := by
  cases fixed : s.canonical.fixed? with
  | some id => simp [intern, fixed, Request.added]
  | none =>
    have own : Entry.shape (.of s.canonical) = s.canonical := rfl
    have grown := Table.keys_intern canonical.filed own
    have one (id : TypeId) : Request.added [⟨s, id⟩] = {s.canonical} := by
      simp [Request.added, fixed]
    simp only [intern, fixed, stored_eq_keys, grown, one]
    rw [Finset.insert_eq, Finset.union_comm]

theorem stored_serve {p : Pool} (canonical : Canonical p) (shapes : List TypeShape) :
    (p.serve shapes).2.stored = p.stored ∪ Request.added (p.serve shapes).1 := by
  induction shapes generalizing p with
  | nil => simp [serve, Request.added]
  | cons s shapes ih =>
    rw [serve, ih (intern_canonical canonical s), stored_intern canonical, Finset.union_assoc,
      ← Request.added_append, List.singleton_append]

theorem size_eq_stored {p : Pool} (canonical : Canonical p) : p.size = 15 + p.stored.card := by
  rw [stored_card canonical]
  rfl

theorem size_serve_empty (shapes : List TypeShape) :
    (empty.serve shapes).2.size = 15 + (Request.added (empty.serve shapes).1).card := by
  rw [size_eq_stored (serve_canonical empty_canonical shapes), stored_serve empty_canonical,
    stored_empty, Finset.empty_union]

end Pool
end TypeLattice
