import TypeLattice.Proofs.Pool.Related
import TypeLattice.Proofs.Reachable

/-!
Null is set exactly. A type to which null was added or from which it was taken away says so, and
says what it said before about its other values. Only the last write counts, so that writes that
lead from one kind to another and back come to the type that one write gives.
-/
namespace TypeLattice

namespace Pool

/-- What comes of setting null in a type: the type `other`, with the entry `e'`. -/
structure SetsNull (p : Pool) (id : TypeId) (e : Entry) (nullable : Bool) (other : TypeId)
    (next : Pool) (e' : Entry) : Prop where
  found : p.withNullable? id nullable = some (other, next)
  grown : Extends p next
  known : next.entry? other = some e'
  asAsked : e'.flags.nullable = nullable
  possiblyTruthy : e'.flags.possiblyTruthy = e.flags.possiblyTruthy
  possiblyFalse : e'.flags.possiblyFalse = e.flags.possiblyFalse
  /-- A class keeps its name, and an array its element and its key. -/
  parts : (∀ b, e.shape.kind ≠ .basic b) → e'.shape.kind = e.shape.kind
  unchanged : nullable = true → e.flags.nullable = true → other = id ∧ next = p
  lastWins : ∀ later, Registry.Reachable later → Extends next later.pool → ∀ again,
    ∃ last final, later.pool.withNullable? other again = some (last, final) ∧
      later.pool.withNullable? id again = some (last, final)

section Canonical
variable {p : Pool} (canonical : p.Canonical) {id : TypeId} {s : TypeShape}
  (known : p.shape? id = some s)
include canonical known

/-- A type that already admits null is its own nullable form. -/
theorem withNullable?_of_allowsNull (null : s.allowsNull = true) :
    p.withNullable? id true = some (id, p) := by
  have own := ((shape?_eq_some_iff canonical).mp known).1
  exact derive?_same known canonical (Shape.withNullable_of_allowsNull own null)

theorem setsNull_intern (nullable : Bool) :
    p.SetsNull id (.of s) nullable (p.intern (s.withNullable nullable)).1
      (p.intern (s.withNullable nullable)).2 (.of (s.withNullable nullable)) := by
  have found := derive?_of_shape? known fun s => s.withNullable nullable
  have held := shape?_intern_own canonical (s.canonical_withNullable nullable)
  have whole := intern_canonical canonical (s.withNullable nullable)
  constructor
  case found => exact found
  case grown => exact extends_intern p _
  case known => exact entry?_of_shape? whole held
  case asAsked => exact s.allowsNull_withNullable nullable
  case possiblyTruthy => exact s.allowsTruthy_withNullable nullable
  case possiblyFalse => exact s.allowsFalse_withNullable nullable
  case parts => exact fun parts => Shape.kind_withNullable_of_parts parts nullable
  case unchanged =>
    rintro rfl null
    have same := Option.some.inj
      (found.symm.trans (withNullable?_of_allowsNull canonical known null))
    exact ⟨congrArg Prod.fst same, congrArg Prod.snd same⟩
  case lastWins =>
    intro later _ grown again
    have first := extends_shape? (extends_trans (extends_intern p _) grown) known
    have second := extends_shape? grown held
    refine ⟨_, _, ?_, derive?_of_shape? first _⟩
    rw [← s.withNullable_withNullable nullable again]
    exact derive?_of_shape? second _

end Canonical
end Pool

namespace Registry

theorem reachable_withNullable {reg : Registry} (reached : Reachable reg) {id : TypeId}
    {s : TypeShape} (known : reg.pool.shape? id = some s) (nullable : Bool) :
    Reachable ⟨reg.names, (reg.pool.intern (s.withNullable nullable)).2⟩ := by
  have run := Reachable.step (.withNullable id nullable) reached ⟨s, known⟩
  rw [Operation.run_withNullable, known] at run
  exact run

/-- Setting null gives a type that admits null just as was asked, and that is the same whatever was
set before. Beside null it says of its values what the given type says. -/
theorem null_is_set_exactly {reg : Registry} (reached : Reachable reg) {id : TypeId} {e : Entry}
    (known : reg.pool.entry? id = some e) (nullable : Bool) :
    ∃ other next e', reg.pool.SetsNull id e nullable other next e' ∧
      Reachable ⟨reg.names, next⟩ := by
  have canonical := (reachable_closed reached).canonical
  have shape := Pool.shape?_of_held known
  rw [Pool.entry?_eq_of canonical known]
  have sets := Pool.setsNull_intern canonical shape nullable
  exact ⟨_, _, _, sets, reachable_withNullable reached shape nullable⟩

/-- A nullable user without null is the user again. -/
theorem user_loses_null_again :
    let user := empty.internClass "User"
    ∃ other next e', user.2.pool.withNullable? user.1 true = some (other, next) ∧
      next.entry? other = some e' ∧ e'.flags.nullable = true ∧
      next.withNullable? other false = some (user.1, next) := by
  intro user
  have reached : Reachable user.2 := reachable_internClass .fresh (by decide)
  have canonical := (reachable_closed reached).canonical
  let s : TypeShape := .of (.instanceOf (empty.internName "User").1) false
  have known : user.2.pool.shape? user.1 = some s := Pool.shape?_intern Pool.empty_canonical s
  obtain ⟨other, next, e', sets, whole⟩ :=
    null_is_set_exactly reached (Pool.entry?_of_shape? canonical known) true
  refine ⟨other, next, e', sets.found, sets.known, sets.asAsked, ?_⟩
  have bare : next.withNullable? user.1 false = some (user.1, next) :=
    Pool.derive?_same (Pool.extends_shape? sets.grown known) (reachable_closed whole).canonical rfl
  obtain ⟨last, final, first, second⟩ := sets.lastWins _ whole (Pool.extends_refl _) false
  exact first.trans (second.symm.trans bare)

end Registry
end TypeLattice
