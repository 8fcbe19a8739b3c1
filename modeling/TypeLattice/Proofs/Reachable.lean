import TypeLattice.Proofs.Operation
import TypeLattice.Proofs.Registry.Closed

/-!
Registries that are reached from the empty one by operations on types and names they gave out
before. They are closed.
-/
namespace TypeLattice

/-- Whether the types and the names that an operation mentions come from the registry. -/
def Operation.Admissible (op : Operation) (reg : Registry) : Prop :=
  match op with
  | internName _ | classOf _ | parse _ => True
  | intern s => reg.Holds s.kind
  | instanceOf kind _ => reg.Holds kind
  | array nonEmpty key elem => reg.Holds (.array nonEmpty key elem)
  | classNamed name => reg.Holds (.instanceOf name)
  | withNullable id _ | truthy id | objects id | arrays id => ∃ s, reg.pool.shape? id = some s

namespace Registry

inductive Reachable : Registry → Prop where
  | fresh : Reachable empty
  | step {reg : Registry} (op : Operation) (reached : Reachable reg)
      (admissible : op.Admissible reg) : Reachable (op.run reg).2

theorem run_closed {reg : Registry} (closed : Closed reg) (op : Operation)
    (admissible : op.Admissible reg) : Closed (op.run reg).2 := by
  cases op with
  | internName name => exact internName_closed closed name
  | intern s => exact intern_closed closed admissible
  | instanceOf kind nullable => exact intern_closed closed admissible
  | array nonEmpty key elem => exact intern_closed closed admissible
  | classNamed name => exact intern_closed closed admissible
  | classOf name =>
    rw [Operation.run_classOf]
    split
    · exact intern_closed (internName_closed closed name) (holds_internName closed name)
    · exact closed
  | withNullable id nullable =>
    obtain ⟨s, known⟩ := admissible
    rw [Operation.run_withNullable, known]
    exact intern_closed closed (holds_withNullable (closed.parts id s known) nullable)
  | truthy id =>
    obtain ⟨s, known⟩ := admissible
    rw [Operation.run_truthy, known]
    exact intern_closed closed (holds_truthy (closed.parts id s known))
  | objects id =>
    obtain ⟨s, known⟩ := admissible
    rw [Operation.run_objects, known]
    dsimp only
    split
    · rename_i o found
      exact intern_closed closed (holds_objects (closed.parts id s known) found)
    · exact closed
  | arrays id =>
    obtain ⟨s, known⟩ := admissible
    rw [Operation.run_arrays, known]
    dsimp only
    split
    · rename_i a found
      exact intern_closed closed (holds_arrays (closed.parts id s known) found)
    · exact closed
  | parse text =>
    rw [Operation.run_parse]
    split
    · exact (add_closed closed _).1
    · rename_i f _
      cases f.complete with
      | none => exact closed
      | some a => exact (add_closed closed a).1

theorem reachable_closed {reg : Registry} (reached : Reachable reg) : Closed reg := by
  induction reached with
  | fresh => exact empty_closed
  | step op _ admissible ih => exact run_closed ih op admissible

theorem reachable_internClass {reg : Registry} (reached : Reachable reg) {name : String}
    (proper : Name.isQualified name.toList = true) : Reachable (reg.internClass name).2 := by
  have declared := Reachable.step (.classOf name) reached trivial
  rw [Operation.run_classOf, if_pos proper] at declared
  exact declared

end Registry
end TypeLattice
