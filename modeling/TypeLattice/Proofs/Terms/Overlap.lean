import TypeLattice.Proofs.Terms.Cast

/-!
Weak overlap of trees. It looks for a mixed kind on either side first, and so it does not matter
which of the two types comes first. A strict cast in one direction makes two types overlap, unless
null is all that gets through it: `?non-empty-mixed` casts to a type without truthy values because
both admit null, and its overlap is a matter of truthy values alone.
-/
namespace TypeLattice.TypeTerm
variable {ν : Type} [DecidableEq ν] {a b : TypeTerm ν}

/-! ### The order of the two types -/

omit [DecidableEq ν] in
theorem isBasic_never_of_mixed (mixed : a.kind.isMixed = true) : a.isBasic .never = false := by
  cases a with
  | basic flag c => cases c <;> first | rfl | cases mixed
  | instanceOf | array => rfl

omit [DecidableEq ν] in
/-- A kind that settles null has one tree only. -/
theorem isBasic_iff_of_inherent (settled : a.FlagsSettled) {c : BasicKind}
    (inherent : c.inherentNull? ≠ none) : a.isBasic c = true ↔ a = basic false c := by
  constructor
  · intro same
    cases a with
    | basic flag d =>
      obtain rfl : d = c := beq_iff_eq.mp same
      cases flag with
      | false => rfl
      | true => exact absurd (settled rfl) inherent
    | instanceOf | array => cases same
  · rintro rfl
    exact beq_self_eq_true c

omit [DecidableEq ν] in
theorem isBasic_never_iff (settled : a.FlagsSettled) :
    a.isBasic .never = true ↔ a = basic false .never :=
  isBasic_iff_of_inherent settled nofun

omit [DecidableEq ν] in
theorem mixedMeets_of_never (a : TypeTerm ν) (never : b.isBasic .never = true) :
    a.mixedMeets b = false := by
  cases b with
  | basic flag d =>
    obtain rfl : d = .never := beq_iff_eq.mp never
    cases a with
    | basic flag c => cases c <;> rfl
    | instanceOf | array => rfl
  | instanceOf | array => cases never

omit [DecidableEq ν] in
theorem mixedMeets_of_mixed (mixed : a.kind.isMixed = true) (mixed' : b.kind.isMixed = true) :
    a.mixedMeets b = true := by
  cases a with
  | basic flag c =>
    cases b with
    | basic flag' d => cases c <;> cases mixed <;> cases d <;> first | rfl | cases mixed'
    | instanceOf | array => cases mixed'
  | instanceOf | array => cases mixed

theorem overlaps_of_mixed (mixed : a.kind.isMixed = true) : a.overlaps b = a.mixedMeets b := by
  rw [overlaps, isBasic_never_of_mixed mixed, mixed]
  rfl

theorem overlaps_of_mixed_right (plain : a.kind.isMixed = false) (mixed : b.kind.isMixed = true) :
    a.overlaps b = b.mixedMeets a := by
  rw [overlaps, plain, mixed]
  cases never : a.isBasic .never with
  | true => rw [mixedMeets_of_never b never]; rfl
  | false => rfl

theorem overlaps_of_plain (plain : a.kind.isMixed = false) (plain' : b.kind.isMixed = false) :
    a.overlaps b = (!a.isBasic .never && !b.isBasic .never &&
      (a.allowsNull && b.allowsNull || cast (.ofConfig none) a b ||
        cast (.ofConfig none) b a)) := by
  rw [overlaps, plain, plain']
  cases a.isBasic .never <;> cases b.isBasic .never <;>
    cases a.allowsNull && b.allowsNull <;> rfl

theorem overlaps_comm (a b : TypeTerm ν) : a.overlaps b = b.overlaps a := by
  cases mixed : a.kind.isMixed <;> cases mixed' : b.kind.isMixed
  · rw [overlaps_of_plain mixed mixed', overlaps_of_plain mixed' mixed]
    ac_rfl
  · rw [overlaps_of_mixed_right mixed mixed', overlaps_of_mixed mixed']
  · rw [overlaps_of_mixed mixed, overlaps_of_mixed_right mixed' mixed]
  · rw [overlaps_of_mixed mixed, overlaps_of_mixed mixed', mixedMeets_of_mixed mixed mixed',
      mixedMeets_of_mixed mixed' mixed]

theorem overlaps_never (a : TypeTerm ν) (never : b.isBasic .never = true) :
    a.overlaps b = false := by
  rw [overlaps_comm, overlaps, never]
  rfl

theorem overlaps_self (full : a.isBasic .never = false) : a.overlaps a = true := by
  cases mixed : a.kind.isMixed with
  | true => rw [overlaps_of_mixed mixed, mixedMeets_of_mixed mixed mixed]
  | false => rw [overlaps_of_plain mixed mixed, cast_self, full]; simp

/-! ### Casts and overlap -/

/-- `?non-empty-mixed` and a type that has null and no truthy value. -/
def NullOnly (a b : TypeTerm ν) : Prop :=
  a = basic true .nonEmptyMixed ∧ b.allowsNull = true ∧ b.allowsTruthy = false

omit [DecidableEq ν] in
theorem allowsNull_not_truthy_iff (settled : b.FlagsSettled) :
    b.allowsNull = true ∧ b.allowsTruthy = false ↔
      b = basic false .null ∨ b = basic true .onlyFalse := by
  constructor
  · rintro ⟨null, noTruth⟩
    cases b with
    | basic flag d =>
      cases d with
      | never => cases null
      | null =>
        cases flag with
        | false => exact Or.inl rfl
        | true => cases settled rfl
      | onlyFalse => exact Or.inr (congrArg (basic · .onlyFalse) null)
      | _ => cases noTruth
    | instanceOf | array => cases noTruth
  · rintro (rfl | rfl) <;> exact ⟨rfl, rfl⟩

/-- A truthy mixed target takes a source by whether that has a truthy value. -/
theorem castNonNull_of_takes {r : CastRules ν} (plain : a.kind.isMixed = false)
    (notNull : a.isBasic .null = false) (full : a.isBasic .never = false) {holds : Bool}
    (takes : b.takesAsMixed? a = some holds) : castNonNull r a b = holds := by
  cases a with
  | basic flag c =>
    cases c with
    | mixed | nonNullMixed | nonEmptyMixed | nonNullNonEmptyMixed => cases plain
    | null => cases notNull
    | never => cases full
    | _ => simp only [castNonNull, castBasic, takes, Option.getD_some]
  | instanceOf | array => simp only [castNonNull, takes, Option.getD_some]

theorem overlaps_of_cast_mixed (full' : b.isBasic .never = false) (mixed : a.kind.isMixed = true)
    (holds : cast (.ofConfig none) a b = true) : a.overlaps b = true ∨ NullOnly a b := by
  rw [overlaps_of_mixed mixed]
  cases a with
  | basic flag c =>
    cases c with
    | nonEmptyMixed =>
      have answer : (b.allowsTruthy || (flag && b.allowsNull)) = true := holds
      cases truthy : b.allowsTruthy with
      | true => exact Or.inl truthy
      | false =>
        rw [truthy, Bool.false_or, Bool.and_eq_true] at answer
        exact Or.inr ⟨congrArg (basic · .nonEmptyMixed) answer.1, answer.2, truthy⟩
    | mixed => exact Or.inl (congrArg (!·) full')
    | nonNullMixed | nonNullNonEmptyMixed => exact Or.inl holds
    | _ => cases mixed
  | instanceOf | array => cases mixed

theorem overlaps_of_cast_to_mixed (full : a.isBasic .never = false)
    (plain : a.kind.isMixed = false) (mixed : b.kind.isMixed = true)
    (holds : cast (.ofConfig none) a b = true) : a.overlaps b = true ∨ NullOnly b a := by
  obtain ⟨null, structural⟩ := (cast_eq_true_iff_of_plain plain).mp holds
  rw [overlaps_of_mixed_right plain mixed]
  have truthy (notNull : a.isBasic .null = false) {answer : Bool}
      (takes : b.takesAsMixed? a = some answer) : answer = true :=
    (castNonNull_of_takes plain notNull full takes).symm.trans structural
  have own (isNull : a.isBasic .null = true) : a.allowsNull = true ∧ a.allowsTruthy = false := by
    cases a with
    | basic flag c =>
      obtain rfl : c = .null := beq_iff_eq.mp isNull
      exact ⟨rfl, rfl⟩
    | instanceOf | array => cases isNull
  cases b with
  | basic flag d =>
    cases isNull : a.isBasic .null with
    | false =>
      left
      cases d with
      | mixed => exact congrArg (!·) full
      | nonNullMixed =>
        have answer : (!a.isBasic .null && !a.isBasic .never) = true := by rw [isNull, full]; rfl
        exact answer
      | nonEmptyMixed | nonNullNonEmptyMixed => exact truthy isNull rfl
      | _ => cases mixed
    | true =>
      obtain ⟨ownNull, noTruth⟩ := own isNull
      have taken := (null ownNull).resolve_right nofun
      cases d with
      | mixed => exact Or.inl (congrArg (!·) full)
      | nonEmptyMixed => exact Or.inr ⟨congrArg (basic · .nonEmptyMixed) taken, ownNull, noTruth⟩
      | nonNullMixed | nonNullNonEmptyMixed => cases taken
      | _ => cases mixed
  | instanceOf | array => cases mixed

/-- A strict cast between types that are not `never` makes them overlap, unless only null goes
through. -/
theorem overlaps_of_cast (full : a.isBasic .never = false) (full' : b.isBasic .never = false)
    (holds : cast (.ofConfig none) a b = true) :
    a.overlaps b = true ∨ NullOnly a b ∨ NullOnly b a := by
  cases mixed : a.kind.isMixed with
  | true => exact (overlaps_of_cast_mixed full' mixed holds).imp_right Or.inl
  | false =>
    cases mixed' : b.kind.isMixed with
    | true => exact (overlaps_of_cast_to_mixed full mixed mixed' holds).imp_right Or.inr
    | false =>
      rw [overlaps_of_plain mixed mixed', full, full', holds]
      simp

/-- Such a pair casts, since null goes through, and does not overlap. -/
theorem cast_of_nullOnly (only : NullOnly a b) :
    cast (.ofConfig none) a b = true ∧ a.overlaps b = false := by
  obtain ⟨rfl, null, noTruth⟩ := only
  have answer : (b.allowsTruthy || b.allowsNull) = true := by rw [null, Bool.or_true]
  exact ⟨answer, noTruth⟩

end TypeLattice.TypeTerm
