import TypeLattice.Narrowing
import TypeLattice.Truth

/-!
Laws of the related shapes. Null is set as a field is: the last write wins, and what the shape says
of other values stays. The truthy part, the objects and the arrays of a shape have no null and are
their own part of that sort. All of them are canonical.
-/
namespace TypeLattice.Shape
variable {ν τ : Type}

theorem canonical_withNullable (s : Shape ν τ) (nullable : Bool) :
    (s.withNullable nullable).canonical = s.withNullable nullable := by
  obtain ⟨kind, flag⟩ := s
  cases kind with
  | basic b => cases b <;> cases nullable <;> rfl
  | instanceOf | array => cases nullable <;> rfl

theorem canonical_truthy (s : Shape ν τ) : s.truthy.canonical = s.truthy := by
  obtain ⟨kind, flag⟩ := s
  cases kind with
  | basic b => cases b <;> cases flag <;> rfl
  | instanceOf => rfl
  | array nonEmpty key elem => cases nonEmpty <;> rfl

theorem canonical_objects? {s o : Shape ν τ} (found : s.objects? = some o) : o.canonical = o := by
  obtain ⟨kind, flag⟩ := s
  cases kind with
  | basic b => cases b <;> cases found <;> rfl
  | instanceOf => cases found; rfl
  | array => cases found

theorem canonical_arrays? {s o : Shape ν τ} {any : τ} (found : s.arrays? any = some o) :
    o.canonical = o := by
  obtain ⟨kind, flag⟩ := s
  cases kind with
  | basic b => cases b <;> cases found <;> rfl
  | instanceOf => cases found
  | array => cases found; rfl

variable (s : Shape ν τ)

/-! ### Null -/

@[simp] theorem allowsNull_withNullable (nullable : Bool) :
    (s.withNullable nullable).allowsNull = nullable := by
  obtain ⟨kind, flag⟩ := s
  cases kind with
  | basic b => cases b <;> cases nullable <;> rfl
  | instanceOf | array => cases nullable <;> rfl

/-- The last write of null wins, also where the first one changed the kind. -/
@[simp] theorem withNullable_withNullable (first last : Bool) :
    (s.withNullable first).withNullable last = s.withNullable last := by
  obtain ⟨kind, flag⟩ := s
  cases kind with
  | basic b => cases b <;> cases first <;> cases last <;> rfl
  | instanceOf | array => cases first <;> cases last <;> rfl

theorem withNullable_of_allowsNull {s : Shape ν τ} (own : s.canonical = s)
    (null : s.allowsNull = true) : s.withNullable true = s := by
  obtain ⟨kind, flag⟩ := s
  cases kind with
  | basic b => cases b <;> cases flag <;> first | rfl | exact own | cases null
  | instanceOf | array => cases flag <;> first | rfl | cases null

@[simp] theorem allowsTruthy_withNullable (nullable : Bool) :
    (s.withNullable nullable).kind.allowsTruthy = s.kind.allowsTruthy := by
  obtain ⟨kind, flag⟩ := s
  cases kind with
  | basic b => cases b <;> cases nullable <;> rfl
  | instanceOf | array => cases nullable <;> rfl

@[simp] theorem allowsFalse_withNullable (nullable : Bool) :
    (s.withNullable nullable).kind.allowsFalse = s.kind.allowsFalse := by
  obtain ⟨kind, flag⟩ := s
  cases kind with
  | basic b => cases b <;> cases nullable <;> rfl
  | instanceOf | array => cases nullable <;> rfl

/-- Setting null can only change a basic kind. -/
theorem kind_withNullable_of_parts {s : Shape ν τ} (parts : ∀ b, s.kind ≠ .basic b)
    (nullable : Bool) : (s.withNullable nullable).kind = s.kind := by
  obtain ⟨kind, flag⟩ := s
  cases kind with
  | basic b => exact absurd rfl (parts b)
  | instanceOf | array => cases nullable <;> rfl

/-! ### Parts -/

@[simp] theorem truthy_truthy : s.truthy.truthy = s.truthy := by
  obtain ⟨kind, flag⟩ := s
  cases kind with
  | basic b => cases b <;> cases flag <;> rfl
  | instanceOf => rfl
  | array nonEmpty key elem => cases nonEmpty <;> rfl

@[simp] theorem allowsNull_truthy : s.truthy.allowsNull = false := by
  obtain ⟨kind, flag⟩ := s
  cases kind with
  | basic b => cases b <;> cases flag <;> rfl
  | instanceOf => rfl
  | array nonEmpty key elem => cases nonEmpty <;> rfl

@[simp] theorem allowsTruthy_truthy : s.truthy.kind.allowsTruthy = s.kind.allowsTruthy := by
  obtain ⟨kind, flag⟩ := s
  cases kind with
  | basic b => cases b <;> cases flag <;> rfl
  | instanceOf => rfl
  | array nonEmpty key elem => cases nonEmpty <;> rfl

theorem truthy_of_not_allowsTruthy {s : Shape ν τ} (none : s.kind.allowsTruthy = false) :
    s.truthy = basic .never := by
  obtain ⟨kind, flag⟩ := s
  cases kind with
  | basic b => cases b <;> first | rfl | cases none
  | instanceOf | array => cases none

theorem truthy_eq_never_iff : s.truthy = basic .never ↔ s.kind.allowsTruthy = false := by
  constructor
  · intro never
    rw [← s.allowsTruthy_truthy, never]
    rfl
  · exact truthy_of_not_allowsTruthy

/-- The objects among objects are all of them, and null is not among them. -/
theorem objects?_settles {s o : Shape ν τ} (found : s.objects? = some o) :
    o.objects? = some o ∧ o.allowsNull = false := by
  obtain ⟨kind, flag⟩ := s
  cases kind with
  | basic b => cases b <;> cases found <;> exact ⟨rfl, rfl⟩
  | instanceOf => cases found; exact ⟨rfl, rfl⟩
  | array => cases found

theorem arrays?_settles {s o : Shape ν τ} {any : τ} (found : s.arrays? any = some o) :
    o.arrays? any = some o ∧ o.allowsNull = false := by
  obtain ⟨kind, flag⟩ := s
  cases kind with
  | basic b => cases b <;> cases found <;> exact ⟨rfl, rfl⟩
  | instanceOf => cases found
  | array => cases found; exact ⟨rfl, rfl⟩

end TypeLattice.Shape
