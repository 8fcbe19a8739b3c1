import TypeLattice.Proofs.Terms.Cast

/-!
Null that flows anywhere. The rules look at that option in two places, where null is guarded and at
the kind `null` itself. Taken together the two say that the source is compared as if it had no null
in it, at any depth of arrays.
-/
namespace TypeLattice.TypeTerm
variable {ν : Type}

/-- A type without null. Nothing is left of `null`, and the mixed kinds stay as they are. -/
def eraseNull : TypeTerm ν → TypeTerm ν
  | basic _ .null => basic false .never
  | basic nullable b => basic (b.isMixed && nullable) b
  | instanceOf _ name => instanceOf false name
  | array _ nonEmpty key elem => array false nonEmpty key elem.eraseNull

@[simp] theorem names_eraseNull (a : TypeTerm ν) : a.eraseNull.names = a.names := by
  induction a with
  | basic nullable b => cases b <;> rfl
  | instanceOf => rfl
  | array nullable nonEmpty key elem ih => exact ih

theorem flagsSettled_eraseNull {a : TypeTerm ν} (settled : a.FlagsSettled) :
    a.eraseNull.FlagsSettled := by
  induction a with
  | basic nullable b =>
    cases b with
    | null => nofun
    | _ => exact fun marked => settled (Bool.and_eq_true_iff.mp marked).2
  | instanceOf => trivial
  | array nullable nonEmpty key elem ih => exact ih settled

@[simp] theorem isMixed_eraseNull (a : TypeTerm ν) : a.eraseNull.kind.isMixed = a.kind.isMixed := by
  cases a with
  | basic nullable b => cases b <;> rfl
  | instanceOf | array => rfl

theorem eraseNull_of_mixed {a : TypeTerm ν} (mixed : a.kind.isMixed = true) : a.eraseNull = a := by
  cases a with
  | basic nullable b => cases b <;> first | rfl | cases mixed
  | instanceOf | array => cases mixed

theorem allowsNull_eraseNull {a : TypeTerm ν} (plain : a.kind.isMixed = false) :
    a.eraseNull.allowsNull = false := by
  cases a with
  | basic nullable b => cases b <;> first | rfl | cases plain
  | instanceOf | array => rfl

@[simp] theorem allowsTruthy_eraseNull (a : TypeTerm ν) :
    a.eraseNull.allowsTruthy = a.allowsTruthy := by
  cases a with
  | basic nullable b => cases b <;> rfl
  | instanceOf | array => rfl

@[simp] theorem isBasic_nonEmptyMixed_eraseNull (a : TypeTerm ν) :
    a.eraseNull.isBasic .nonEmptyMixed = a.isBasic .nonEmptyMixed := by
  cases a with
  | basic nullable b => cases b <;> rfl
  | instanceOf | array => rfl

@[simp] theorem takesAsMixed?_eraseNull (target source : TypeTerm ν) :
    target.takesAsMixed? source.eraseNull = target.takesAsMixed? source := by
  cases target with
  | basic nullable b => cases b <;> simp only [takesAsMixed?, allowsTruthy_eraseNull]
  | instanceOf | array => rfl

def CastRules.withNullFlow (r : CastRules ν) (flows : Bool) : CastRules ν :=
  { r with nullFlows := flows }

section Casts
variable (r : CastRules ν)

/-- A guard that lets null pass does as much as one that finds no null. -/
theorem nullAnswer?_eraseNull (a b : TypeTerm ν) :
    nullAnswer? (r.withNullFlow false) a.eraseNull b = nullAnswer? (r.withNullFlow true) a b := by
  by_cases mixed : a.kind.isMixed = true
  · rw [eraseNull_of_mixed mixed]
    cases a with
    | basic nullable c => cases c <;> first | rfl | cases mixed
    | instanceOf | array => cases mixed
  · rw [Bool.not_eq_true] at mixed
    have mixed' : a.eraseNull.kind.isMixed = false := by rw [isMixed_eraseNull, mixed]
    rw [nullAnswer?_of_plain _ mixed', nullAnswer?_of_plain _ mixed, allowsNull_eraseNull mixed]
    simp [CastRules.withNullFlow]

variable [DecidableEq ν]

theorem castNonNull_eraseNull (a b : TypeTerm ν) :
    castNonNull (r.withNullFlow false) a.eraseNull b = castNonNull (r.withNullFlow true) a b := by
  induction a generalizing b with
  | basic nullable c =>
    cases c <;> rfl
  | instanceOf nullable sub =>
    rfl
  | array nullable nonEmpty key elem ih =>
    have mixed := takesAsMixed?_eraseNull b (array nullable nonEmpty key elem)
    rw [eraseNull] at mixed ⊢
    simp only [castNonNull, mixed, ih, nullAnswer?_eraseNull]

theorem cast_eraseNull (a b : TypeTerm ν) :
    cast (r.withNullFlow false) a.eraseNull b = cast (r.withNullFlow true) a b := by
  rw [cast, cast, nullAnswer?_eraseNull, castNonNull_eraseNull]

end Casts

end TypeLattice.TypeTerm
