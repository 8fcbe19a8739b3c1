import TypeLattice.Proofs.Terms.Narrowing
import TypeLattice.Proofs.Terms.Overlap

/-!
Casts between a tree and its related trees. The parts of a type cast to it and the type casts to
what it is with null, under any rules. Taking the truthy part keeps casts, as long as scalars do not
flow freely: whatever truthy values get through a cast get through between the truthy parts.
-/
namespace TypeLattice.TypeTerm
variable {ν : Type}

/-! ### The outermost level -/

theorem shape_ofShape (s : Shape ν (TypeTerm ν)) : (ofShape s).shape = s := by
  obtain ⟨kind, nullable⟩ := s
  cases kind <;> rfl

theorem allowsNull_truthy (a : TypeTerm ν) : a.truthy.allowsNull = false := by
  rw [allowsNull, truthy, shape_ofShape, Shape.allowsNull_truthy]

theorem allowsTruthy_truthy (a : TypeTerm ν) : a.truthy.allowsTruthy = a.allowsTruthy := by
  have same := a.shape.allowsTruthy_truthy
  rw [← shape_ofShape a.shape.truthy] at same
  exact same

theorem truthy_instanceOf (nullable : Bool) (name : ν) :
    (instanceOf nullable name).truthy = instanceOf false name := rfl

theorem truthy_array (nullable nonEmpty : Bool) (key : ArrayKey) (elem : TypeTerm ν) :
    (array nullable nonEmpty key elem).truthy = array false true key elem := by
  cases nonEmpty <;> rfl

/-- The truthy part of a type that is not mixed is neither mixed nor null. -/
theorem truthy_plain {a : TypeTerm ν} (plain : a.kind.isMixed = false) :
    a.truthy.kind.isMixed = false ∧ a.truthy.isBasic .null = false := by
  cases a with
  | basic nullable b => cases b <;> first | exact ⟨rfl, rfl⟩ | cases plain
  | instanceOf => exact ⟨rfl, rfl⟩
  | array => rw [truthy_array]; exact ⟨rfl, rfl⟩

/-- The truthy part of a mixed target asks for truthiness alone. -/
theorem takesAsMixed?_truthy {b : TypeTerm ν} (mixed : b.kind.isMixed = true) (a : TypeTerm ν) :
    b.truthy.takesAsMixed? a = some a.allowsTruthy := by
  cases b with
  | basic nullable d => cases d <;> cases nullable <;> first | rfl | cases mixed
  | instanceOf | array => cases mixed

variable [DecidableEq ν] {r : CastRules ν} {a b : TypeTerm ν}

/-! ### Up and down -/

theorem cast_never (r : CastRules ν) (nullable : Bool) (b : TypeTerm ν) :
    cast r (basic nullable .never) b = true := rfl

theorem cast_nonEmptyMixed (r : CastRules ν) (b : TypeTerm ν) :
    cast r (basic false .nonEmptyMixed) b = b.allowsTruthy := Bool.or_false _

theorem cast_withNullable_false (r : CastRules ν) (a : TypeTerm ν) :
    cast r (a.withNullable false) a = true := by
  cases a with
  | basic nullable b => cases b <;> rfl
  | instanceOf nullable name =>
    rw [withNullable_instanceOf, cast_eq_true_iff_of_plain rfl, castNonNull_instanceOf]
    exact ⟨nofun, by simp⟩
  | array nullable nonEmpty key elem =>
    rw [withNullable_array, cast_array, key.admits_self, cast_self]
    cases nonEmpty <;> rfl

theorem cast_withNullable_true (r : CastRules ν) (a : TypeTerm ν) :
    cast r a (a.withNullable true) = true := by
  cases a with
  | basic nullable b =>
    cases b with
    | null =>
      rw [cast_eq_true_iff_of_plain rfl]
      exact ⟨fun _ => Or.inl rfl, Bool.or_true r.nullFlows⟩
    | _ => cases nullable <;> rfl
  | instanceOf nullable name =>
    rw [withNullable_instanceOf, cast_eq_true_iff_of_plain rfl, castNonNull_instanceOf]
    exact ⟨fun _ => Or.inl rfl, by simp⟩
  | array nullable nonEmpty key elem =>
    rw [withNullable_array, cast_eq_true_iff_of_plain rfl, castNonNull_array, key.admits_self,
      cast_self]
    exact ⟨fun _ => Or.inl rfl, by simp⟩

theorem cast_truthy (r : CastRules ν) (a : TypeTerm ν) : cast r a.truthy a = true := by
  cases a with
  | basic nullable b => cases b <;> cases nullable <;> rfl
  | instanceOf nullable name => exact cast_withNullable_false r (instanceOf nullable name)
  | array nullable nonEmpty key elem =>
    rw [truthy_array, cast_array, key.admits_self, cast_self]
    rfl

theorem cast_objects? {o : TypeTerm ν} (r : CastRules ν) (found : a.objects? = some o) :
    cast r o a = true := by
  cases a with
  | basic nullable b => cases b <;> cases found <;> rfl
  | instanceOf nullable name =>
    cases found
    exact cast_withNullable_false r (instanceOf nullable name)
  | array => cases found

theorem cast_arrays? {o : TypeTerm ν} (r : CastRules ν) (found : a.arrays? = some o) :
    cast r o a = true := by
  cases a with
  | basic nullable b => cases b <;> cases found <;> rfl
  | instanceOf => cases found
  | array nullable nonEmpty key elem =>
    cases found
    exact cast_withNullable_false r (array nullable nonEmpty key elem)

/-! ### Truthy parts of casts -/

omit [DecidableEq ν] in
theorem isMixed_of_takes {holds : Bool} (takes : b.takesAsMixed? a = some holds) :
    b.kind.isMixed = true := by
  cases b with
  | basic nullable d => cases d <;> first | rfl | cases takes
  | instanceOf | array => cases takes

omit [DecidableEq ν] in
theorem isBasic_never_of_allowsTruthy (truth : a.allowsTruthy = true) :
    a.isBasic .never = false := by
  cases a with
  | basic nullable c => cases c <;> first | rfl | cases truth
  | instanceOf | array => rfl

section Plain
variable (plain : a.kind.isMixed = false) (truth : a.allowsTruthy = true)
include plain truth

theorem castNonNull_truthy_of_mixed (mixed : b.kind.isMixed = true) :
    castNonNull r a.truthy b.truthy = true := by
  obtain ⟨pure, notNull⟩ := truthy_plain plain
  have truth' : a.truthy.allowsTruthy = true := a.allowsTruthy_truthy.trans truth
  have takes := takesAsMixed?_truthy mixed a.truthy
  rw [castNonNull_of_takes pure notNull (isBasic_never_of_allowsTruthy truth') takes, truth']

section Arrows
variable (scalars : r.scalarsFlow = false)
include scalars

theorem castNonNull_truthy_of_arrow (arrow : Arrow r a b) :
    castNonNull r a.truthy b.truthy = true := by
  cases arrow with
  | never | null => cases truth
  | mixed _ takes => exact castNonNull_truthy_of_mixed plain truth (isMixed_of_takes takes)
  | @scalar nullable nullable' c d scalar flows =>
    have widens : c.widens d = true := by
      refine flows.resolve_right ?_
      rw [scalars]
      nofun
    -- what is left of `bool` and of `int` is part of what is left of each wider kind
    cases c <;> cases scalar <;> cases truth <;> cases d <;> cases widens <;> rfl
  | object => rfl
  | instanceOf nullable nullable' below =>
    rw [truthy_instanceOf, truthy_instanceOf, castNonNull_instanceOf]
    simpa using below
  | array nullable nullable' filled admits inner =>
    rw [truthy_array, truthy_array, castNonNull_array, admits, inner]
    rfl

theorem castNonNull_truthy (holds : castNonNull r a b = true) :
    castNonNull r a.truthy b.truthy = true := by
  cases a with
  | basic nullable c =>
    cases c with
    | mixed | nonNullMixed | nonEmptyMixed | nonNullNonEmptyMixed => cases plain
    | null | never | onlyFalse => cases truth
    | object =>
      cases b with
      | basic nullable' d =>
        cases d with
        | mixed | nonNullMixed | nonEmptyMixed | nonNullNonEmptyMixed =>
          exact castNonNull_truthy_of_mixed plain truth rfl
        | object => rfl
        | _ => cases holds
      | instanceOf => rfl
      | array => cases holds
    | _ => exact castNonNull_truthy_of_arrow plain truth scalars (arrow_of_scalar rfl holds)
  | instanceOf => exact castNonNull_truthy_of_arrow plain truth scalars (arrow_of_instanceOf holds)
  | array => exact castNonNull_truthy_of_arrow plain truth scalars (arrow_of_array holds)

/-- A truthy part has no null, so the cast between truthy parts is one of structure. -/
theorem cast_truthy_of_plain (holds : cast r a b = true) : cast r a.truthy b.truthy = true := by
  refine (cast_eq_true_iff_of_plain (truthy_plain plain).1).mpr ⟨?_, ?_⟩
  · rw [allowsNull_truthy]
    nofun
  · exact castNonNull_truthy plain truth scalars ((cast_eq_true_iff_of_plain plain).mp holds).2

end Arrows
end Plain

/-- Taking the truthy part keeps casts, except from the types that cast to some without truthy
values though they have truthy values: `mixed`, `non-null-mixed`, and, by its null,
`?non-empty-mixed`. -/
theorem cast_truthy_truthy (scalars : r.scalarsFlow = false) (noMixed : a.isBasic .mixed = false)
    (noNonNull : a.isBasic .nonNullMixed = false) (noNull : a ≠ basic true .nonEmptyMixed)
    (holds : cast r a b = true) : cast r a.truthy b.truthy = true := by
  cases truth : a.allowsTruthy with
  | false =>
    rw [truthy_of_not_allowsTruthy truth]
    exact cast_never r false _
  | true =>
    cases mixed : a.kind.isMixed with
    | false => exact cast_truthy_of_plain mixed truth scalars holds
    | true =>
      -- a truthy mixed source only asks whether its target has a truthy value
      cases a with
      | basic nullable c =>
        cases c with
        | nonEmptyMixed =>
          cases nullable with
          | true => exact absurd rfl noNull
          | false =>
            rw [cast_nonEmptyMixed] at holds
            exact (cast_nonEmptyMixed r b.truthy).trans (b.allowsTruthy_truthy.trans holds)
        | nonNullNonEmptyMixed => exact b.allowsTruthy_truthy.trans holds
        | mixed => cases noMixed
        | nonNullMixed => cases noNonNull
        | _ => cases mixed
      | instanceOf | array => cases mixed

end TypeLattice.TypeTerm
