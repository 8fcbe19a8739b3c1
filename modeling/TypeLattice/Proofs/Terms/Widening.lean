import TypeLattice.Proofs.Terms.Cast

/-!
Rules that allow more. Null, scalars and classes are asked about where a cast would otherwise fail,
so a cast under some rules is also one under rules that allow more.
-/
namespace TypeLattice.TypeTerm
variable {ν : Type}

/-- Whether rules allow at least what others do. What they say of a class and itself does not
matter. -/
structure CastRules.Within (r q : CastRules ν) : Prop where
  nullFlows : r.nullFlows = true → q.nullFlows = true
  scalarsFlow : r.scalarsFlow = true → q.scalarsFlow = true
  below : ∀ sub sup, r.below sub sup = true → sub = sup ∨ q.below sub sup = true

/-- A default that holds more often. -/
theorem getD_of_imp {answer? : Option Bool} {x y : Bool} (step : x = true → y = true)
    (holds : answer?.getD x = true) : answer?.getD y = true := by
  cases answer? with
  | some answer => exact holds
  | none => exact step holds

variable {r q : CastRules ν} (within : r.Within q)
include within

/-- More rules do no more than to take back a refusal. -/
theorem nullAnswer?_within (a b : TypeTerm ν) :
    nullAnswer? r a b = some false ∨ nullAnswer? q a b = nullAnswer? r a b := by
  -- away from the mixed kinds null is guarded in one way
  have guarded (c : TypeTerm ν) :
      (if c.allowsNull && !b.allowsNull && !r.nullFlows then some false else none) = some false ∨
      (if c.allowsNull && !b.allowsNull && !q.nullFlows then some false else none) =
        (if c.allowsNull && !b.allowsNull && !r.nullFlows then some false else none) := by
    cases flows : r.nullFlows with
    | true => right; rw [within.nullFlows flows]
    | false => cases c.allowsNull <;> cases b.allowsNull <;> simp
  cases a with
  | basic nullable c => cases c <;> first | exact guarded _ | exact Or.inr rfl
  | instanceOf | array => exact guarded _

theorem castBasic_within {nullable : Bool} {c : BasicKind} {b : TypeTerm ν}
    (holds : castBasic r nullable c b = true) : castBasic q nullable c b = true := by
  by_cases scalar : c.isScalar = true
  · rw [castBasic_scalar _ scalar] at holds ⊢
    refine getD_of_imp ?_ holds
    intro structural
    cases b with
    | basic _ d =>
      rw [Bool.or_eq_true, Bool.and_eq_true] at structural ⊢
      exact structural.imp_right (And.imp_left within.scalarsFlow)
    | instanceOf | array => exact structural
  · cases c with
    | null =>
      simp only [castBasic, Bool.or_eq_true] at holds ⊢
      exact holds.imp_left within.nullFlows
    | mixed | nonNullMixed | nonEmptyMixed | nonNullNonEmptyMixed | never | object => exact holds
    | bool | onlyTrue | onlyFalse | int | nonZeroInt | float | string => exact absurd rfl scalar

variable [DecidableEq ν]

theorem cast_of_castNonNull {a b : TypeTerm ν}
    (structural : castNonNull r a b = true → castNonNull q a b = true) (holds : cast r a b = true) :
    cast q a b = true := by
  unfold cast at holds ⊢
  rcases nullAnswer?_within within a b with refused | same
  · rw [refused] at holds
    cases holds
  · rw [same]
    exact getD_of_imp structural holds

theorem castNonNull_within {a b : TypeTerm ν} (holds : castNonNull r a b = true) :
    castNonNull q a b = true := by
  induction a generalizing b with
  | basic nullable c => exact castBasic_within within holds
  | instanceOf nullable sub =>
    cases b with
    | basic _ d => cases d <;> exact holds
    | array => exact holds
    | instanceOf _ sup =>
      simp only [castNonNull_instanceOf, Bool.or_eq_true, decide_eq_true_eq] at holds ⊢
      exact holds.elim Or.inl (within.below sub sup)
  | array nullable nonEmpty key elem ih =>
    cases b with
    | basic _ d => cases d <;> exact holds
    | instanceOf => exact holds
    | array _ nonEmpty' key' elem' =>
      rw [castNonNull_array, Bool.and_eq_true] at holds ⊢
      exact ⟨holds.1, cast_of_castNonNull within ih holds.2⟩

theorem cast_within {a b : TypeTerm ν} (holds : cast r a b = true) : cast q a b = true :=
  cast_of_castNonNull within (castNonNull_within within) holds

end TypeLattice.TypeTerm
