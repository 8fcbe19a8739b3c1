import TypeLattice.Proofs.Operation

/-!
Canonical interning over whole runs. Whatever is asked of a fresh pool, and however its name table
was filled before, equal types have equal identifiers at all times, the stored flags are right, and
the pool grows by the new canonical shapes only.
-/
namespace TypeLattice.Registry

theorem runs_intern_canonically (names : NameTable) (ops : List Operation) :
    let start : Registry := ⟨names, .empty⟩
    let pool := (start.after ops).pool
    let served := start.served ops
    (∀ s, (pool.intern s).2.shape? (pool.intern s).1 = some (.of s.kind s.nullable)) ∧
    (∀ q ∈ served, ∀ r ∈ served, q.answer = r.answer ↔ q.shape.canonical = r.shape.canonical) ∧
    (∀ q ∈ served, ∀ id ∈ TypeId.fixed, pool.shape? id = some q.shape.canonical → q.answer = id) ∧
    (∀ id s, pool.shape? id = some s → pool.intern s = (id, pool)) ∧
    (∀ id e, pool.entry? id = some e →
      e.flags = e.shape.flags ∧ e.flags.nullable = e.shape.allowsNull) ∧
    pool.size = 15 + (Request.added served).card ∧
    ∀ before op later, ops = before ++ op :: later →
      ∀ id, (op.run (start.after before)).1 = .ok (some id) → ∃ q ∈ served,
        (op.requests (start.after before)).getLast? = some q.shape ∧ q.answer = id := by
  intro start pool served
  have run : pool = (Pool.empty.serve (start.requests ops)).2 := after_pool start ops
  have canonical : pool.Canonical := after_canonical names ops
  have answers : ∀ q ∈ served, pool.shape? q.answer = some q.shape.canonical :=
    run ▸ Pool.serve_answers Pool.empty_canonical _
  refine ⟨Pool.shape?_intern canonical, ?_, ?_, ?_, ?_, ?_, ?_⟩
  · intro q asked r asked'
    exact Pool.serve_answer_iff Pool.empty_canonical _ asked asked'
  · intro q asked id _ known
    exact Pool.shape?_injective canonical (answers q asked) known
  · intro id s known
    exact Pool.intern_of_shape? canonical known
  · intro id e known
    rw [Pool.entry?_eq_of canonical known]
    exact ⟨rfl, rfl⟩
  · rw [run]
    exact Pool.size_serve_empty _
  · rintro before op later rfl id returned
    exact returned_is_answer start before op later id returned

end TypeLattice.Registry
