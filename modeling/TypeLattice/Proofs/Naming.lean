import TypeLattice.Proofs.Names.Identity
import TypeLattice.Proofs.Operation
import TypeLattice.Proofs.Terms

/-!
The name table of a registry. Each operation comes down to some names that it asks the table for,
so the table goes through a run of its own, and what holds of all runs of a name table holds of the
names of every registry.
-/
namespace TypeLattice

/-- The names that an operation asks the name table for, in order. -/
def Operation.names : Operation → List String
  | internName name => [name]
  | classOf name => if Name.isQualified name.toList then [name] else []
  | parse text =>
    match TypeTerm.read text.toList with
    | .ok a => a.names
    | .error f => f.complete.elim [] TypeTerm.names
  | intern _ | instanceOf _ _ | array _ _ _ | classNamed _ => []
  | withNullable _ _ | truthy _ | objects _ | arrays _ => []

namespace Registry

theorem names_add (a : WrittenType) (reg : Registry) :
    (reg.add a).2.names = (reg.names.serve a.names).2 := by
  induction a with
  | basic nullable b => exact names_internMarked reg nullable _
  | instanceOf nullable name =>
    rw [add_instanceOf, names_internMarked]
    rfl
  | array nullable nonEmpty key elem ih =>
    rw [add_array, names_internMarked]
    exact ih

theorem names_run (op : Operation) (reg : Registry) :
    (op.run reg).2.names = (reg.names.serve op.names).2 := by
  cases op with
  | internName name => rfl
  | intern s => rfl
  | instanceOf kind nullable => rfl
  | array nonEmpty key elem => rfl
  | classNamed name => rfl
  | classOf name =>
    rw [Operation.run_classOf, Operation.names]
    cases Name.isQualified name.toList <;> rfl
  | withNullable id nullable =>
    rw [Operation.run_withNullable]
    cases reg.pool.shape? id <;> rfl
  | truthy id =>
    rw [Operation.run_truthy]
    cases reg.pool.shape? id <;> rfl
  | objects id =>
    rw [Operation.run_objects]
    split
    · split <;> rfl
    · rfl
  | arrays id =>
    rw [Operation.run_arrays]
    split
    · split <;> rfl
    · rfl
  | parse text =>
    rw [Operation.run_parse, Operation.names]
    cases TypeTerm.read text.toList with
    | ok a => exact names_add a reg
    | error f =>
      rcases f with ⟨reason, rest, _ | a⟩
      · rfl
      · exact names_add a reg

/-- For its name table, a run is one long list of names. -/
theorem names_after (reg : Registry) (ops : List Operation) :
    (reg.after ops).names = (reg.names.serve (ops.flatMap Operation.names)).2 := by
  induction ops generalizing reg with
  | nil => rfl
  | cons op ops ih =>
    rw [List.flatMap_cons, NameTable.serve_append, ← names_run]
    exact ih (op.run reg).2

end Registry
end TypeLattice
