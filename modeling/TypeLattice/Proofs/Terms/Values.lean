import TypeLattice.Proofs.Terms.Order

/-!
The values that types stand for, and that a strict cast keeps them: what belongs to the source of
the cast belongs to its target.

Every integer is a value of `float` as well, since integers widen. Which classes an object belongs
to is left to a relation between classes.
-/
namespace TypeLattice

/-- The key of an array entry. -/
inductive EntryKey where
  | int (n : Int)
  | string (s : String)

inductive Value (ν : Type) where
  | null
  | bool (b : Bool)
  | int (n : Int)
  /-- A floating-point number, as its 64 bits. -/
  | float (bits : UInt64)
  | string (s : String)
  | object (name : ν)
  | array (entries : List (EntryKey × Value ν))

namespace Value
variable {ν : Type}

def isNull : Value ν → Bool
  | null => true
  | _ => false

/-- Whether a value counts as true. Both floating-point zeros count as false. -/
def isTruthy : Value ν → Bool
  | null => false
  | bool b => b
  | int n => n != 0
  | float bits => bits &&& 0x7FFFFFFFFFFFFFFF != 0
  | string s => s != "" && s != "0"
  | object _ => true
  | array entries => !entries.isEmpty

end Value

/-- Whether an entry may have a key. No entry is allowed where no key is known. -/
def ArrayKey.allows : ArrayKey → EntryKey → Bool
  | mixed, _ | int, .int _ | string, .string _ => true
  | _, _ => false

def BasicKind.contains {ν : Type} (b : BasicKind) (v : Value ν) : Bool :=
  match b, v with
  | .mixed, _ | .null, .null | .bool, .bool _ | .int, .int _ | .float, .float _ | .float, .int _
  | .string, .string _ | .object, .object _ => true
  | .nonNullMixed, v => !v.isNull
  | .nonEmptyMixed, v | .nonNullNonEmptyMixed, v => v.isTruthy
  | .onlyTrue, .bool value => value
  | .onlyFalse, .bool value => !value
  | .nonZeroInt, .int n => n != 0
  | _, _ => false

namespace TypeTerm
variable {ν : Type} [DecidableEq ν]

/-- Whether a value belongs to a type, where an object of a class belongs to that class and to those
`below` puts above it. -/
def contains (below : ν → ν → Bool) : TypeTerm ν → Value ν → Bool
  | basic nullable b, v => (nullable && v.isNull) || b.contains v
  | instanceOf nullable name, v => (nullable && v.isNull) || match v with
    | .object own => own == name || below own name
    | _ => false
  | array nullable nonEmpty key elem, v => (nullable && v.isNull) || match v with
    | .array entries => (!nonEmpty || !entries.isEmpty) &&
        entries.all fun entry => key.allows entry.1 && elem.contains below entry.2
    | _ => false

/-- Whether no truthy mixed kind occurs in a type. -/
def Definite (a : TypeTerm ν) : Prop :=
  ∀ b ∈ a.basics, b ≠ .nonEmptyMixed ∧ b ≠ .nonNullNonEmptyMixed

variable {below : ν → ν → Bool}

theorem contains_null {a : TypeTerm ν} (settled : a.FlagsSettled) :
    a.contains below .null = a.allowsNull := by
  cases a with
  | basic nullable b =>
    cases nullable with
    | false => cases b <;> rfl
    | true =>
      have free := settled rfl
      cases b <;> first | rfl | cases free
  | instanceOf nullable name => cases nullable <;> rfl
  | array nullable nonEmpty key elem => cases nullable <;> rfl

end TypeTerm

/-! ### Casts keep values -/

theorem ArrayKey.allows_of_admits {key key' : ArrayKey} {k : EntryKey}
    (admits : key'.admits key = true) (allowed : key.allows k = true) : key'.allows k = true := by
  cases key' <;> cases key <;> cases admits <;> cases k <;> cases allowed <;> rfl

theorem BasicKind.contains_of_widens {ν : Type} {b c : BasicKind} {v : Value ν}
    (widens : b.widens c = true) (member : b.contains v = true) : c.contains v = true := by
  cases b <;> cases c <;> cases widens <;> first
    | exact member
    | cases v <;> first | rfl | cases member

namespace TypeTerm
variable {ν : Type} [DecidableEq ν] {r : CastRules ν} {below : ν → ν → Bool} {a b : TypeTerm ν}

theorem contains_of_takesAsMixed? {v : Value ν} (definite : b.Definite) (full : v.isNull = false)
    (takes : b.takesAsMixed? a = some true) : b.contains below v = true := by
  cases b with
  | basic nullable c =>
    have pure := definite c (List.mem_singleton_self c)
    cases c with
    | mixed => simp [contains, BasicKind.contains]
    | nonNullMixed => simp [contains, BasicKind.contains, full]
    | nonEmptyMixed => exact absurd rfl pure.1
    | nonNullNonEmptyMixed => exact absurd rfl pure.2
    | _ => cases takes
  | instanceOf | array => cases takes

/-- Rules that loosen nothing, and that relate classes only as the transitive `below` does. -/
structure CastRules.StrictIn (r : CastRules ν) (below : ν → ν → Bool) : Prop where
  nulls : r.nullFlows = false
  scalars : r.scalarsFlow = false
  under : ∀ x y, r.below x y = true → below x y = true
  trans : ∀ x y z, below x y = true → below y z = true → below x z = true

section Elements
variable (strict : r.StrictIn below) (definite : b.Definite) (settled' : b.FlagsSettled)
  (elements : ∀ nullable nonEmpty key x, a = array nullable nonEmpty key x →
    ∀ y w, y.Definite → y.FlagsSettled → cast r x y = true → x.contains below w = true →
      y.contains below w = true)
include strict definite settled' elements

/-- Values other than null go along strict arrows, if the elements of arrays do along casts. -/
theorem contains_of_arrow {v : Value ν} (full : v.isNull = false) (arrow : Arrow r a b)
    (member : a.contains below v = true) : b.contains below v = true := by
  cases arrow with
  | never nullable =>
    rw [contains, full, Bool.and_false, Bool.false_or] at member
    cases member
  | null nullable =>
    rw [contains, full, Bool.and_false, Bool.false_or] at member
    cases v with
    | null => cases full
    | _ => cases member
  | mixed _ takes => exact contains_of_takesAsMixed? definite full takes
  | scalar nullable nullable' _ flows =>
    rcases flows with widens | ⟨flows, _⟩
    · simp only [contains, full, Bool.and_false, Bool.false_or] at member ⊢
      exact BasicKind.contains_of_widens widens member
    · rw [strict.scalars] at flows
      cases flows
  | object nullable nullable' name =>
    simp only [contains, full, Bool.and_false, Bool.false_or] at member ⊢
    cases v <;> first | rfl | cases member
  | @instanceOf nullable nullable' sub sup step =>
    simp only [contains, full, Bool.and_false, Bool.false_or] at member ⊢
    cases v with
    | object own =>
      simp only [Bool.or_eq_true, beq_iff_eq] at member ⊢
      rcases step with rfl | step
      · exact member
      · rcases member with rfl | member
        · exact Or.inr (strict.under _ _ step)
        · exact Or.inr (strict.trans _ _ _ member (strict.under _ _ step))
    | _ => cases member
  | @array nullable nullable' nonEmpty nonEmpty' key key' elem elem' filled admits inner =>
    simp only [contains, full, Bool.and_false, Bool.false_or] at member ⊢
    cases v with
    | array entries =>
      simp only [Bool.and_eq_true, Bool.or_eq_true, Bool.not_eq_true', List.all_eq_true]
        at member ⊢
      obtain ⟨filled', allowed⟩ := member
      constructor
      · cases nonEmpty' with
        | false => exact Or.inl rfl
        | true =>
          rw [filled rfl] at filled'
          exact Or.inr (filled'.resolve_left nofun)
      · intro entry held
        obtain ⟨allows, inside⟩ := allowed entry held
        exact ⟨ArrayKey.allows_of_admits admits allows,
          elements _ _ _ _ rfl elem' entry.2 definite settled' inner inside⟩
    | _ => cases member

theorem contains_of_cast_of_elements (plain : a.Plain) (settled : a.FlagsSettled)
    (holds : cast r a b = true) {v : Value ν} (member : a.contains below v = true) :
    b.contains below v = true := by
  obtain ⟨null, form⟩ := (cast_eq_true_iff plain).mp holds
  cases v with
  | null =>
    rw [contains_null settled] at member
    rw [contains_null settled']
    refine (null member).resolve_right ?_
    rw [strict.nulls]
    nofun
  | _ =>
    have arrow := arrow_of_castNonNull plain form
    exact contains_of_arrow strict definite settled' elements rfl arrow member

end Elements

/-- What belongs to the source of a strict cast belongs to its target. -/
theorem contains_of_cast (strict : r.StrictIn below) (plain : a.Plain) (settled : a.FlagsSettled)
    (definite : b.Definite) (settled' : b.FlagsSettled) (holds : cast r a b = true) {v : Value ν}
    (member : a.contains below v = true) : b.contains below v = true := by
  induction a generalizing b v with
  | basic | instanceOf =>
    refine contains_of_cast_of_elements strict definite settled' ?_ plain settled holds member
    rintro _ _ _ _ ⟨⟩
  | array nullable nonEmpty key elem ih =>
    refine contains_of_cast_of_elements strict definite settled' ?_ plain settled holds member
    rintro _ _ _ _ ⟨⟩ y w definite settled' inner held
    exact ih plain settled definite settled' inner held

end TypeTerm
end TypeLattice
