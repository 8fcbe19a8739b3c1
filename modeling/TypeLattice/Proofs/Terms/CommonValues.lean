import TypeLattice.Proofs.Terms.Narrowing
import TypeLattice.Proofs.Terms.Overlap

/-!
Overlap and the values that two types share, among null, scalars and arrays of them. A cast is
inclusion there, if no array in its source is bound to be empty: single values tell kinds, keys and
elements apart. So two types with a common value overlap where both have null, or where one of them
has all values of the other. Two scalars without null always do.
-/
namespace TypeLattice

namespace ArrayKey
variable {key key' : ArrayKey}

theorem exists_allows (kept : key ≠ .empty) : ∃ k, key.allows k = true := by
  cases key with
  | empty => exact absurd rfl kept
  | int | mixed => exact ⟨.int 0, rfl⟩
  | string => exact ⟨.string "", rfl⟩

theorem admits_of_allows (kept : key ≠ .empty)
    (keys : ∀ k, key.allows k = true → key'.allows k = true) : key'.admits key = true := by
  have number := keys (.int 0)
  have text := keys (.string "")
  cases key <;> cases key' <;> first
    | rfl
    | exact absurd rfl kept
    | simp [allows] at number text

end ArrayKey

namespace BasicKind
variable {ν : Type} {b c : BasicKind} {v : Value ν}

theorem exists_contains (ν : Type) (scalar : b.isScalar = true) :
    ∃ v : Value ν, v.isNull = false ∧ v.isArray = false ∧ b.contains v = true := by
  cases b with
  | bool | onlyTrue => exact ⟨.bool true, rfl, rfl, rfl⟩
  | onlyFalse => exact ⟨.bool false, rfl, rfl, rfl⟩
  | int | nonZeroInt | float => exact ⟨.int 1, rfl, rfl, rfl⟩
  | string => exact ⟨.string "", rfl, rfl, rfl⟩
  | _ => cases scalar

theorem isArray_of_scalar_contains (scalar : b.isScalar = true) (member : b.contains v = true) :
    v.isArray = false := by
  cases b <;> cases scalar <;> cases v <;> first | rfl | cases member

/-- One scalar kind is part of another if its values are: six values tell all kinds apart. -/
theorem widens_of_contains (scalar : b.isScalar = true) (plain : c.isMixed = false)
    (values : ∀ v : Value ν, v.isNull = false → b.contains v = true → c.contains v = true) :
    b.widens c = true := by
  have yes := values (.bool true) rfl
  have no := values (.bool false) rfl
  have zero := values (.int 0) rfl
  have one := values (.int 1) rfl
  have fraction := values (.float 0) rfl
  have text := values (.string "") rfl
  cases b <;> cases scalar <;> cases c <;> cases plain <;> first
    | rfl
    | simp [contains] at yes no zero one fraction text

/-- Of two scalar kinds that share a value one is part of the other. -/
theorem widens_of_common (scalar : b.isScalar = true) (scalar' : c.isScalar = true)
    (member : b.contains v = true) (member' : c.contains v = true) :
    b.widens c = true ∨ c.widens b = true := by
  cases b <;> cases scalar <;> cases c <;> cases scalar' <;> first
    | exact .inl rfl
    | exact .inr rfl
    | cases v <;> simp_all [contains]

end BasicKind

namespace TypeTerm
variable {ν : Type}

/-- Whether a type is built from `never`, null, scalars and arrays alone. -/
def Concrete (a : TypeTerm ν) : Prop := a.Plain ∧ a.names = []

theorem concrete_basic (nullable : Bool) {b : BasicKind} (pure : b.isMixed = false ∧ b ≠ .object) :
    (basic nullable b : TypeTerm ν).Concrete :=
  ⟨fun _ member => List.mem_singleton.mp member ▸ pure, rfl⟩

/-- Whether all arrays in a type can be filled: there are keys for them, and elements. -/
def Populated : TypeTerm ν → Prop
  | basic _ _ | instanceOf _ _ => True
  | array _ _ key elem => key ≠ .empty ∧ elem.isBasic .never = false ∧ elem.Populated

theorem definite_of_plain {a : TypeTerm ν} (plain : a.Plain) : a.Definite := by
  intro b member
  obtain ⟨pure, _⟩ := plain b member
  constructor
  · rintro rfl
    cases pure
  · rintro rfl
    cases pure

variable [DecidableEq ν]

def Within (below : ν → ν → Bool) (a b : TypeTerm ν) : Prop :=
  ∀ v, a.contains below v = true → b.contains below v = true

variable {below : ν → ν → Bool} {r : CastRules ν} {a b : TypeTerm ν}

theorem contains_entry (nullable nonEmpty : Bool) (key : ArrayKey) (elem : TypeTerm ν)
    (k : EntryKey) (w : Value ν) :
    (array nullable nonEmpty key elem).contains below (.array [(k, w)]) = true ↔
      key.allows k = true ∧ elem.contains below w = true := by
  simp [contains, Value.isNull]

theorem contains_nil (nullable nonEmpty : Bool) (key : ArrayKey) (elem : TypeTerm ν) :
    (array nullable nonEmpty key elem).contains below (.array []) = !nonEmpty := by
  simp [contains, Value.isNull]

theorem isArray_of_contains {nullable nonEmpty : Bool} {key : ArrayKey} {elem : TypeTerm ν}
    {v : Value ν} (full : v.isNull = false)
    (member : (array nullable nonEmpty key elem).contains below v = true) : v.isArray = true := by
  cases v with
  | null => cases full
  | array => rfl
  | _ => simp [contains, Value.isNull] at member

/-- Beside null a basic type only has the values of a scalar. -/
theorem scalar_of_contains {nullable : Bool} {c : BasicKind}
    (plain : (basic nullable c : TypeTerm ν).Plain) {v : Value ν} (full : v.isNull = false)
    (member : (basic nullable c).contains below v = true) :
    c.isScalar = true ∧ c.contains v = true ∧ v.isArray = false := by
  rw [contains_basic_of_full full] at member
  obtain rfl | rfl | scalar := kind_of_plain_basic plain
  · cases member
  · rw [BasicKind.contains_null_kind, full] at member
    cases member
  · exact ⟨scalar, member, BasicKind.isArray_of_scalar_contains scalar member⟩

theorem isBasic_never_of_contains (settled : a.FlagsSettled) {v : Value ν}
    (member : a.contains below v = true) : a.isBasic .never = false := by
  rw [← Bool.not_eq_true, isBasic_never_iff settled]
  rintro rfl
  cases member

/-! ### Casts and inclusion -/

theorem exists_contains (below : ν → ν → Bool) (concrete : a.Concrete) (populated : a.Populated)
    (full : a.isBasic .never = false) : ∃ v, a.contains below v = true := by
  induction a with
  | basic nullable c =>
    obtain rfl | rfl | scalar := kind_of_plain_basic concrete.1
    · cases full
    · exact ⟨.null, by simp [contains, BasicKind.contains]⟩
    · obtain ⟨v, single, _, member⟩ := BasicKind.exists_contains ν scalar
      exact ⟨v, (contains_basic_of_full single nullable c).trans member⟩
  | instanceOf nullable name => cases concrete.2
  | array nullable nonEmpty key elem ih =>
    obtain ⟨kept, inhabited, inner⟩ := populated
    obtain ⟨k, allowed⟩ := ArrayKey.exists_allows kept
    obtain ⟨w, member⟩ := ih concrete inner inhabited
    exact ⟨.array [(k, w)], (contains_entry nullable nonEmpty key elem k w).mpr ⟨allowed, member⟩⟩

theorem arrow_of_scalar_within {nullable : Bool} {c : BasicKind} (scalar : c.isScalar = true)
    (concrete : b.Concrete) (within : (basic nullable c).Within below b) :
    Arrow r (basic nullable c) b := by
  cases b with
  | basic nullable' d =>
    have values (v : Value ν) (full : v.isNull = false) (member : c.contains v = true) :
        d.contains v = true := by
      have inside := within v ((contains_basic_of_full full nullable c).trans member)
      rwa [contains_basic_of_full full] at inside
    have widens := BasicKind.widens_of_contains scalar (plain_basic concrete.1).1 values
    exact .scalar nullable nullable' scalar (.inl widens)
  | instanceOf => cases concrete.2
  | array nullable' nonEmpty key elem =>
    obtain ⟨v, full, single, member⟩ := BasicKind.exists_contains ν scalar
    have inside := within v ((contains_basic_of_full full nullable c).trans member)
    rw [isArray_of_contains full inside] at single
    cases single

/-- The elements go into those of the target if they cast to the types that have all of them. -/
theorem arrow_of_array_within {nullable nonEmpty : Bool} {key : ArrayKey} {elem : TypeTerm ν}
    (settled : b.FlagsSettled) (concrete : elem.Concrete) (concrete' : b.Concrete)
    (populated : (array nullable nonEmpty key elem).Populated)
    (elements : ∀ y, y.FlagsSettled → y.Concrete → elem.Within below y → cast r elem y = true)
    (within : (array nullable nonEmpty key elem).Within below b) :
    Arrow r (array nullable nonEmpty key elem) b := by
  obtain ⟨kept, inhabited, inner⟩ := populated
  obtain ⟨w, held⟩ := exists_contains below concrete inner inhabited
  obtain ⟨k, allowed⟩ := ArrayKey.exists_allows kept
  have inside (k : EntryKey) (w : Value ν) (allowed : key.allows k = true)
      (held : elem.contains below w = true) : b.contains below (.array [(k, w)]) = true :=
    within _ ((contains_entry nullable nonEmpty key elem k w).mpr ⟨allowed, held⟩)
  cases b with
  | basic nullable' d =>
    obtain ⟨_, _, single⟩ := scalar_of_contains concrete'.1 rfl (inside k w allowed held)
    cases single
  | instanceOf => cases concrete'.2
  | array nullable' nonEmpty' key' elem' =>
    refine .array nullable nullable' ?_ ?_ ?_
    · intro required
      have empty := within (.array [])
      rw [contains_nil, contains_nil, required] at empty
      cases nonEmpty with
      | true => rfl
      | false => cases empty rfl
    · refine ArrayKey.admits_of_allows kept ?_
      intro k allowed
      exact ((contains_entry nullable' nonEmpty' key' elem' k w).mp (inside k w allowed held)).1
    · refine elements elem' settled concrete' ?_
      intro w held
      exact ((contains_entry nullable' nonEmpty' key' elem' k w).mp (inside k w allowed held)).2

theorem cast_of_arrow_within (settled : a.FlagsSettled) (settled' : b.FlagsSettled)
    (plain : a.Plain) (plain' : b.Plain) (within : a.Within below b) (arrow : Arrow r a b) :
    cast r a b = true := by
  refine (cast_eq_true_iff plain).mpr ⟨?_, castNonNull_of_arrow arrow plain'⟩
  intro own
  have taken := within .null ((contains_null settled).trans own)
  exact .inl ((contains_null settled').symm.trans taken)

/-- A type casts to the types that have all its values. -/
theorem cast_of_within (settled : a.FlagsSettled) (settled' : b.FlagsSettled)
    (concrete : a.Concrete) (concrete' : b.Concrete) (populated : a.Populated)
    (within : a.Within below b) : cast r a b = true := by
  induction a generalizing b with
  | basic nullable c =>
    refine cast_of_arrow_within settled settled' concrete.1 concrete'.1 within ?_
    obtain rfl | rfl | scalar := kind_of_plain_basic concrete.1
    · exact .never nullable b
    · have taken := within .null (contains_null settled)
      exact .null nullable (.inl ((contains_null settled').symm.trans taken))
    · exact arrow_of_scalar_within scalar concrete' within
  | instanceOf nullable name => cases concrete.2
  | array nullable nonEmpty key elem ih =>
    refine cast_of_arrow_within settled settled' concrete.1 concrete'.1 within ?_
    refine arrow_of_array_within settled' concrete concrete' populated ?_ within
    intro y settled' concrete' within
    exact ih settled settled' concrete concrete' populated.2.2 within

theorem within_of_cast (trans : ∀ x y z, below x y = true → below y z = true → below x z = true)
    (settled : a.FlagsSettled) (settled' : b.FlagsSettled) (concrete : a.Concrete)
    (concrete' : b.Concrete) (holds : cast (.ofConfig none) a b = true) : a.Within below b := by
  intro v member
  have strict : (CastRules.ofConfig none).StrictIn below := ⟨rfl, rfl, nofun, trans⟩
  exact contains_of_cast strict concrete.1 settled (definite_of_plain concrete'.1) settled' holds
    member

/-! ### Overlap of types with a common value -/

theorem cast_of_widens {nullable nullable' : Bool} {c d : BasicKind} (scalar : c.isScalar = true)
    (plain : (basic nullable c : TypeTerm ν).Plain)
    (plain' : (basic nullable' d : TypeTerm ν).Plain)
    (noNull : (basic nullable c : TypeTerm ν).allowsNull = false) (widens : c.widens d = true) :
    cast r (basic nullable c) (basic nullable' d) = true := by
  refine (cast_eq_true_iff plain).mpr ⟨?_, castNonNull_of_arrow ?_ plain'⟩
  · rw [noNull]
    nofun
  · exact .scalar nullable nullable' scalar (.inl widens)

section Common
variable (settled : a.FlagsSettled) (settled' : b.FlagsSettled) (concrete : a.Concrete)
  (concrete' : b.Concrete) {v : Value ν} (member : a.contains below v = true)
  (member' : b.contains below v = true)
include settled settled' concrete concrete' member member'

theorem overlaps_iff_of_common : a.overlaps b = true ↔
    (a.allowsNull = true ∧ b.allowsNull = true) ∨
      cast (.ofConfig none) a b = true ∨ cast (.ofConfig none) b a = true := by
  rw [overlaps_of_plain (isMixed_of_plain concrete.1) (isMixed_of_plain concrete'.1),
    isBasic_never_of_contains settled member, isBasic_never_of_contains settled' member']
  simp [or_assoc]

theorem overlaps_scalar_of_common (noNull : a.allowsNull = false) (noNull' : b.allowsNull = false)
    (noArray : a.keys = []) : a.overlaps b = true := by
  have full : v.isNull = false := by
    rw [← Bool.not_eq_true]
    intro null
    rw [Value.eq_null_of_isNull null, contains_null settled, noNull] at member
    cases member
  have overlap := overlaps_iff_of_common settled settled' concrete concrete' member member'
  cases a with
  | basic nullable c =>
    obtain ⟨scalar, own, single⟩ := scalar_of_contains concrete.1 full member
    cases b with
    | basic nullable' d =>
      obtain ⟨scalar', own', _⟩ := scalar_of_contains concrete'.1 full member'
      have widens := BasicKind.widens_of_common scalar scalar' own own'
      exact overlap.mpr (.inr (widens.imp (cast_of_widens scalar concrete.1 concrete'.1 noNull)
        (cast_of_widens scalar' concrete'.1 concrete.1 noNull')))
    | instanceOf => cases concrete'.2
    | array =>
      rw [isArray_of_contains full member'] at single
      cases single
  | instanceOf => cases concrete.2
  | array => cases noArray

/-- Without null, types with a common value overlap unless both are arrays. -/
theorem overlaps_of_common (noNull : a.allowsNull = false) (noNull' : b.allowsNull = false)
    (noArrays : a.keys = [] ∨ b.keys = []) : a.overlaps b = true := by
  rcases noArrays with noArray | noArray
  · exact overlaps_scalar_of_common settled settled' concrete concrete' member member' noNull
      noNull' noArray
  · rw [overlaps_comm]
    exact overlaps_scalar_of_common settled' settled concrete' concrete member' member noNull'
      noNull noArray

end Common

end TypeTerm
end TypeLattice
