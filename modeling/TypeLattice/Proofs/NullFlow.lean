import TypeLattice.Proofs.CastLaws
import TypeLattice.Proofs.Registry.Building
import TypeLattice.Proofs.Terms.NullFlow

/-!
The option that lets null flow anywhere. A type casts under it to what the same type without null
casts to when the option is off, whatever the target, the other option and the declared classes are.
-/
namespace TypeLattice
open TypeTerm (CastRules)

/-- Whether two verdicts are found and are the same. -/
def SameVerdict (verdict verdict' : Option Bool) : Prop :=
  ∃ holds, verdict = some holds ∧ verdict' = some holds

namespace Pool

/-- Whether `source` casts with null flowing anywhere just as `erased` does without. -/
structure NullFlowsAs (p : Pool) (source erased : TypeId) : Prop where
  casts : ∀ target, p.Knows target → ∀ c : CastOptions,
    SameVerdict (p.verdict? (.cast (some (c.withNullFlow true))) source target)
      (p.verdict? (.cast (some (c.withNullFlow false))) erased target)
  nonNullCasts : ∀ target, p.Knows target → ∀ c : CastOptions,
    SameVerdict (p.verdict? (.castNonNull (some (c.withNullFlow true))) source target)
      (p.verdict? (.castNonNull (some (c.withNullFlow false))) erased target)
  declaredCasts : ∀ target, p.Knows target → ∀ (c : CastOptions) (resolver : Resolver),
    SameVerdict ((p.castDeclared? (c.withNullFlow true) resolver source target).map Answer.holds)
      ((p.castDeclared? (c.withNullFlow false) resolver erased target).map Answer.holds)

section Verdicts
variable {p : Pool} (canonical : p.Canonical) {source erased target : TypeId}
  {a b : TypeTerm NameId} (stored : p.term? source = some a)
  (stored' : p.term? erased = some a.eraseNull) (right : p.term? target = some b)
include canonical stored stored' right

theorem cast_eraseNull (c : CastOptions) :
    SameVerdict (p.verdict? (.cast (some (c.withNullFlow true))) source target)
      (p.verdict? (.cast (some (c.withNullFlow false))) erased target) := by
  refine ⟨_, verdict?_of_term? canonical _ stored right, ?_⟩
  rw [verdict?_of_term? canonical _ stored' right]
  exact congrArg some (TypeTerm.cast_eraseNull (.ofConfig (some c)) a b)

theorem castNonNull_eraseNull (c : CastOptions) :
    SameVerdict (p.verdict? (.castNonNull (some (c.withNullFlow true))) source target)
      (p.verdict? (.castNonNull (some (c.withNullFlow false))) erased target) := by
  refine ⟨_, verdict?_of_term? canonical _ stored right, ?_⟩
  rw [verdict?_of_term? canonical _ stored' right]
  exact congrArg some (TypeTerm.castNonNull_eraseNull (.ofConfig (some c)) a b)

/-- The mixed kinds keep their shape, so the answer by truthiness is given to both or to none. -/
theorem castDeclared_eraseNull (c : CastOptions) (resolver : Resolver) :
    SameVerdict ((p.castDeclared? (c.withNullFlow true) resolver source target).map Answer.holds)
      ((p.castDeclared? (c.withNullFlow false) resolver erased target).map Answer.holds) := by
  refine ⟨_, castDeclared?_of_term? canonical _ resolver stored right, ?_⟩
  rw [castDeclared?_of_term? canonical _ resolver stored' right,
    TypeTerm.isBasic_nonEmptyMixed_eraseNull]
  have same := TypeTerm.cast_eraseNull (Rules.onTrees ⟨some c, some resolver⟩) a b
  exact congrArg (fun holds => some (if a.isBasic .nonEmptyMixed then b.allowsTruthy else holds))
    same

end Verdicts

end Pool

namespace Registry

theorem closed_nullFlowsAs {reg : Registry} (closed : Closed reg) {source erased : TypeId}
    {a : TypeTerm NameId} (stored : reg.pool.term? source = some a)
    (stored' : reg.pool.term? erased = some a.eraseNull) :
    reg.pool.NullFlowsAs source erased := by
  constructor
  case casts =>
    intro target known c
    obtain ⟨b, right⟩ := term?_of_knows closed known
    exact Pool.cast_eraseNull closed.canonical stored stored' right c
  case nonNullCasts =>
    intro target known c
    obtain ⟨b, right⟩ := term?_of_knows closed known
    exact Pool.castNonNull_eraseNull closed.canonical stored stored' right c
  case declaredCasts =>
    intro target known c resolver
    obtain ⟨b, right⟩ := term?_of_knows closed known
    exact Pool.castDeclared_eraseNull closed.canonical stored stored' right c resolver

/-- To let null flow anywhere is to take it out of the source. The source without null can be built,
and wherever it is, the two cast alike. -/
theorem null_flow_is_erasure {reg : Registry} (reached : Reachable reg) {source : TypeId}
    (known : reg.pool.Knows source) :
    ∃ a, reg.pool.term? source = some a ∧
      (∃ next erased, Reachable next ∧ Extends reg next ∧
        next.pool.term? erased = some a.eraseNull) ∧
      ∀ next erased, Reachable next → Extends reg next →
        next.pool.term? erased = some a.eraseNull → next.pool.NullFlowsAs source erased := by
  have closed := reachable_closed reached
  obtain ⟨a, stored⟩ := term?_of_knows closed known
  refine ⟨a, stored, ?_, ?_⟩
  · have settled := TypeTerm.flagsSettled_eraseNull (Pool.term?_flagsSettled closed.canonical stored)
    refine exists_stored reached settled ?_
    rw [TypeTerm.names_eraseNull]
    exact term?_names_known closed stored
  · intro next erased reached' grown stored'
    exact closed_nullFlowsAs (reachable_closed reached') (Pool.term?_extends grown.pool stored)
      stored'

open TypeExpr (wrapTimes) in
theorem null_lists_flow_as_never_lists :
    let nulls := wrapTimes false .mixed 2 (.basic .null, empty)
    let nevers := wrapTimes false .mixed 2 (.basic .never, nulls.2)
    Reachable nevers.2 ∧ nevers.2.pool.NullFlowsAs nulls.1 nevers.1 := by
  intro nulls nevers
  have fixed (b : BasicKind) : empty.pool.term? (.basic b) = some (.basic false b) :=
    Pool.term?_eq_basic.mpr rfl
  obtain ⟨reached, _, left, right⟩ :=
    wrapTimes_both .fresh (fixed .null) (fixed .never) false false .mixed .mixed 2 2
  obtain ⟨a, stored, _, alike⟩ := null_flow_is_erasure reached (Pool.shape?_of_term? left)
  cases left.symm.trans stored
  exact ⟨reached, alike _ _ reached (extends_refl _) right⟩

end Registry
end TypeLattice
