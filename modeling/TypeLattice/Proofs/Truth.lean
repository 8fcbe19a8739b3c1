import TypeLattice.Proofs.Registry.Building
import TypeLattice.Proofs.Cast
import TypeLattice.Proofs.Terms.Truth

/-!
The stored answers about null and truth. They were computed from one level of a type when it was
stored, and they are right about all its values, however deep the type is nested.
-/
namespace TypeLattice.Registry
open TypeExpr (wrapTimes)

/-- The flags of a stored type describe its values, whatever classes are below each other. -/
theorem flags_tell_the_truth {reg : Registry} (reached : Reachable reg) {id : TypeId} {e : Entry}
    (known : reg.pool.entry? id = some e) :
    ∃ a, reg.pool.term? id = some a ∧ ∀ below, e.flags.Describe (a.contains below) := by
  have closed := reachable_closed reached
  have shape := Pool.shape?_of_held known
  obtain ⟨a, stored⟩ := term?_of_shape? closed shape
  obtain ⟨s, same, shows⟩ := Pool.shows_of_term? stored
  cases shape.symm.trans same
  refine ⟨a, stored, ?_⟩
  intro below
  rw [Pool.entry?_eq_of closed.canonical known]
  change e.shape.flags.Describe _
  rw [Shape.flags_of_shows shows]
  exact TypeTerm.flags_describe (Pool.term?_flagsSettled closed.canonical stored)

/-- Lists of users with at least one of them are truthy, and none of them is `false`. -/
theorem filled_lists_of_users_are_truthy :
    let user := empty.internClass "User"
    let users := wrapTimes true .int 1 user
    ∃ a, users.2.pool.term? users.1 = some a ∧
      (∀ v, a.contains sameClass v = true → v.isTruthy = true) ∧
      a.contains sameClass (.bool false) = false := by
  intro user users
  have reached : Reachable user.2 := reachable_internClass .fresh (by decide)
  have single := term?_internClass empty_closed "User"
  obtain ⟨reached', _, stored⟩ := wrapTimes_stored reached single true .int 1
  obtain ⟨elem, shape, _⟩ := Pool.term?_eq_array.mp stored
  have known := Pool.entry?_of_shape? (reachable_closed reached').canonical shape
  obtain ⟨a, held, describe⟩ := flags_tell_the_truth reached' known
  refine ⟨a, held, (describe sameClass).alwaysTruthy rfl, ?_⟩
  rw [← Bool.not_eq_true]
  intro member
  cases (describe sameClass).possiblyFalse.mpr member

end TypeLattice.Registry
