import TypeLattice.Proofs.Shape
import TypeLattice.Proofs.Terms.Values

/-!
The related types of a tree, and which values they have. Adding or taking away null changes nothing
else, the objects and the arrays of a type are those among its values, and so are the truthy values,
but for `float` and `string`, whose truthy part keeps every value except null.
-/
namespace TypeLattice

namespace Value
variable {ν : Type}

def isObject : Value ν → Bool
  | object _ => true
  | _ => false

def isArray : Value ν → Bool
  | array _ => true
  | _ => false

theorem eq_null_of_isNull {v : Value ν} (null : v.isNull = true) : v = .null := by
  cases v with
  | null => rfl
  | _ => cases null

end Value

theorem BasicKind.contains_null_kind {ν : Type} (v : Value ν) :
    BasicKind.null.contains v = v.isNull := by
  cases v <;> rfl

theorem BasicKind.contains_never_kind {ν : Type} (v : Value ν) :
    BasicKind.never.contains v = false := by
  cases v <;> rfl

namespace TypeTerm
variable {ν : Type}

/-- The tree with a given outermost level. -/
def ofShape : Shape ν (TypeTerm ν) → TypeTerm ν
  | ⟨.basic b, nullable⟩ => basic nullable b
  | ⟨.instanceOf name, nullable⟩ => instanceOf nullable name
  | ⟨.array nonEmpty key elem, nullable⟩ => array nullable nonEmpty key elem

def withNullable (a : TypeTerm ν) (nullable : Bool) : TypeTerm ν :=
  ofShape (a.shape.withNullable nullable)

def truthy (a : TypeTerm ν) : TypeTerm ν := ofShape a.shape.truthy

def objects? (a : TypeTerm ν) : Option (TypeTerm ν) := a.shape.objects?.map ofShape

def arrays? (a : TypeTerm ν) : Option (TypeTerm ν) := (a.shape.arrays? any).map ofShape

theorem withNullable_instanceOf (flag nullable : Bool) (name : ν) :
    (instanceOf flag name).withNullable nullable = instanceOf nullable name := by
  cases nullable <;> rfl

theorem withNullable_array (flag nullable nonEmpty : Bool) (key : ArrayKey) (elem : TypeTerm ν) :
    (array flag nonEmpty key elem).withNullable nullable = array nullable nonEmpty key elem := by
  cases nullable <;> rfl

theorem truthy_of_not_allowsTruthy {a : TypeTerm ν} (none : a.allowsTruthy = false) :
    a.truthy = basic false .never :=
  congrArg ofShape (Shape.truthy_of_not_allowsTruthy (s := a.shape) none)

section Values
variable [DecidableEq ν] {below : ν → ν → Bool} {v : Value ν}

theorem contains_basic_of_full (full : v.isNull = false) (nullable : Bool) (b : BasicKind) :
    (basic nullable b).contains below v = b.contains v := by
  simp [contains, full]

theorem contains_withNullable (a : TypeTerm ν) (nullable : Bool) (v : Value ν) :
    (a.withNullable nullable).contains below v =
      if v.isNull then nullable else a.contains below v := by
  by_cases null : v.isNull = true
  · rw [if_pos null, Value.eq_null_of_isNull null]
    cases a with
    | basic flag b => cases b <;> cases nullable <;> rfl
    | instanceOf | array => cases nullable <;> rfl
  · have full : v.isNull = false := Bool.eq_false_iff.mpr null
    rw [if_neg null]
    cases a with
    | basic flag b =>
      rw [contains_basic_of_full full]
      cases b with
      | null | never =>
        cases nullable <;>
          simp [withNullable, shape, kind, Shape.withNullable, Shape.basic, ofShape,
            contains_basic_of_full full, BasicKind.contains_null_kind,
            BasicKind.contains_never_kind, full]
      | _ =>
        cases nullable <;>
          simp [withNullable, shape, kind, Shape.withNullable, Shape.basic, ofShape,
            contains_basic_of_full full, BasicKind.contains, full]
    | instanceOf flag name => simp [withNullable_instanceOf, contains, full]
    | array flag nonEmpty key elem => simp [withNullable_array, contains, full]

theorem contains_withNullable_true_iff (a : TypeTerm ν) (v : Value ν) :
    (a.withNullable true).contains below v = true ↔ a.contains below v = true ∨ v = .null := by
  rw [contains_withNullable]
  cases v <;> simp [Value.isNull]

theorem contains_withNullable_false_iff (a : TypeTerm ν) (v : Value ν) :
    (a.withNullable false).contains below v = true ↔ a.contains below v = true ∧ v ≠ .null := by
  rw [contains_withNullable]
  cases v <;> simp [Value.isNull]

/-! ### Truthy values -/

omit [DecidableEq ν] in
/-- The truthy part of a float or a string is the type without null. -/
theorem truthy_of_wide {a : TypeTerm ν}
    (wide : a.isBasic .float = true ∨ a.isBasic .string = true) :
    a.truthy = a.withNullable false := by
  cases a with
  | basic flag b => cases b <;> rcases wide with wide | wide <;> first | rfl | cases wide
  | instanceOf | array => rcases wide with wide | wide <;> cases wide

theorem contains_truthy_null (a : TypeTerm ν) : a.truthy.contains below .null = false := by
  cases a with
  | basic flag b => cases b <;> cases flag <;> rfl
  | instanceOf => rfl
  | array flag nonEmpty key elem => cases nonEmpty <;> rfl

theorem contains_truthy {a : TypeTerm ν} (narrow : a.isBasic .float = false)
    (narrow' : a.isBasic .string = false) (v : Value ν) :
    a.truthy.contains below v = (v.isTruthy && a.contains below v) := by
  by_cases null : v.isNull = true
  · rw [Value.eq_null_of_isNull null, contains_truthy_null]
    rfl
  · have full : v.isNull = false := Bool.eq_false_iff.mpr null
    cases a with
    | basic flag b =>
      rw [contains_basic_of_full full]
      cases b with
      | float => cases narrow
      | string => cases narrow'
      | mixed | nonNullMixed | nonEmptyMixed | nonNullNonEmptyMixed =>
        cases flag <;>
          simp [truthy, shape, kind, Shape.truthy, Shape.withNullable, Shape.basic, ofShape,
            TypeTerm.nullable, contains_basic_of_full full, BasicKind.contains, full]
      | _ => cases v <;> simp [truthy, shape, kind, Shape.truthy, Shape.withNullable, Shape.basic,
          ofShape, contains, BasicKind.contains, Value.isTruthy]
    | instanceOf flag name =>
      cases v <;> simp [truthy, shape, kind, Shape.truthy, Shape.withNullable, ofShape, contains,
        Value.isTruthy, Value.isNull]
    | array flag nonEmpty key elem =>
      cases nonEmpty <;> cases v <;>
        simp [truthy, shape, kind, Shape.truthy, Shape.withNullable, ofShape, contains,
          Value.isTruthy, Value.isNull]

theorem contains_of_contains_truthy {a : TypeTerm ν} (member : a.truthy.contains below v = true) :
    a.contains below v = true := by
  by_cases wide : a.isBasic .float = true ∨ a.isBasic .string = true
  · rw [truthy_of_wide wide, contains_withNullable_false_iff] at member
    exact member.1
  · simp only [not_or, Bool.not_eq_true] at wide
    rw [contains_truthy wide.1 wide.2, Bool.and_eq_true] at member
    exact member.2

theorem contains_truthy_of_isTruthy {a : TypeTerm ν} (member : a.contains below v = true)
    (truth : v.isTruthy = true) : a.truthy.contains below v = true := by
  by_cases wide : a.isBasic .float = true ∨ a.isBasic .string = true
  · rw [truthy_of_wide wide, contains_withNullable_false_iff]
    refine ⟨member, ?_⟩
    rintro rfl
    cases truth
  · simp only [not_or, Bool.not_eq_true] at wide
    rw [contains_truthy wide.1 wide.2, member, truth]
    rfl

/-! ### Objects and arrays -/

theorem contains_object (v : Value ν) : (basic false .object).contains below v = v.isObject := by
  cases v <;> rfl

theorem contains_array_of_any (nonEmpty : Bool) (v : Value ν) :
    (array false nonEmpty .mixed any).contains below v =
      (v.isArray && (!nonEmpty || v.isTruthy)) := by
  cases v with
  | array entries =>
    have all (entry : EntryKey × Value ν) :
      (ArrayKey.mixed.allows entry.1 && any.contains below entry.2) = true := rfl
    simp [contains, all, Value.isArray, Value.isTruthy, Value.isNull]
  | _ => rfl

theorem contains_objects? {a o : TypeTerm ν} (found : a.objects? = some o) (v : Value ν) :
    o.contains below v = (v.isObject && a.contains below v) := by
  cases a with
  | basic flag b =>
    cases b with
    | mixed | nonNullMixed | nonEmptyMixed | nonNullNonEmptyMixed | object =>
      obtain rfl : basic false .object = o := Option.some.inj found
      rw [contains_object]
      cases v <;> simp [contains, BasicKind.contains, Value.isObject, Value.isNull, Value.isTruthy]
    | _ => cases found
  | instanceOf flag name =>
    obtain rfl : instanceOf false name = o := Option.some.inj found
    cases v <;> simp [contains, Value.isObject, Value.isNull]
  | array => cases found

theorem isObject_of_objects?_none {a : TypeTerm ν} (absent : a.objects? = none)
    (member : a.contains below v = true) : v.isObject = false := by
  cases v with
  | object name =>
    cases a with
    | basic flag b =>
      rw [contains_basic_of_full rfl] at member
      cases b with
      | mixed | nonNullMixed | nonEmptyMixed | nonNullNonEmptyMixed | object => cases absent
      | _ => cases member
    | instanceOf => cases absent
    | array flag => cases flag <;> cases member
  | _ => rfl

theorem contains_arrays? {a o : TypeTerm ν} (found : a.arrays? = some o) (v : Value ν) :
    o.contains below v = (v.isArray && a.contains below v) := by
  cases a with
  | basic flag b =>
    cases b with
    | mixed | nonNullMixed =>
      obtain rfl : array false false .mixed any = o := Option.some.inj found
      rw [contains_array_of_any]
      cases v <;> simp [contains, BasicKind.contains, Value.isArray, Value.isNull]
    | nonEmptyMixed | nonNullNonEmptyMixed =>
      obtain rfl : array false true .mixed any = o := Option.some.inj found
      rw [contains_array_of_any]
      cases v <;> simp [contains, BasicKind.contains, Value.isArray, Value.isNull]
    | _ => cases found
  | instanceOf => cases found
  | array flag nonEmpty key elem =>
    obtain rfl : array false nonEmpty key elem = o := Option.some.inj found
    cases v <;> simp [contains, Value.isArray, Value.isNull]

theorem isArray_of_arrays?_none {a : TypeTerm ν} (absent : a.arrays? = none)
    (member : a.contains below v = true) : v.isArray = false := by
  cases v with
  | array entries =>
    cases a with
    | basic flag b =>
      rw [contains_basic_of_full rfl] at member
      cases b with
      | mixed | nonNullMixed | nonEmptyMixed | nonNullNonEmptyMixed => cases absent
      | _ => cases member
    | instanceOf flag => cases flag <;> cases member
    | array => cases absent
  | _ => rfl

end Values
end TypeTerm
end TypeLattice
