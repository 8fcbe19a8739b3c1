import TypeLattice.Proofs.Terms.Narrowing

/-!
What a type says about null and about truth, compared with its values. There are eight falsey
values, so whether a type may be falsey is whether one of the eight belongs to it.
-/
namespace TypeLattice

namespace Value
variable {ν : Type}

/-- All falsey values. The float zeros differ in their sign bit. -/
def falsey : List (Value ν) :=
  [null, bool false, int 0, float 0, float 0x8000000000000000, string "", string "0", array []]

theorem magnitude_eq_zero_iff (bits : UInt64) :
    bits &&& 0x7FFFFFFFFFFFFFFF = 0 ↔ bits = 0 ∨ bits = 0x8000000000000000 := by
  have low : (bits &&& 0x7FFFFFFFFFFFFFFF).toNat = bits.toNat % 2 ^ 63 :=
    Nat.and_two_pow_sub_one_eq_mod bits.toNat 63
  have bound := bits.toNat_lt
  simp only [← UInt64.toNat_inj, low, UInt64.reduceToNat]
  omega

theorem mem_falsey_iff (v : Value ν) : v ∈ falsey ↔ v.isTruthy = false := by
  cases v with
  | float bits => simp [falsey, isTruthy, magnitude_eq_zero_iff]
  | string s => simp [falsey, isTruthy, Decidable.or_iff_not_imp_left]
  | _ => simp [falsey, isTruthy]

end Value

/-- Whether flags say of the values of a type what is the case. -/
structure Flags.Describe {ν : Type} (f : Flags) (member : Value ν → Bool) : Prop where
  nullable : f.nullable = true ↔ member .null = true
  possiblyFalse : f.possiblyFalse = true ↔ member (.bool false) = true
  possiblyFalsey : f.possiblyFalsey = true ↔ ∃ v, member v = true ∧ v.isTruthy = false
  possiblyTruthy : (∃ v, member v = true ∧ v.isTruthy = true) → f.possiblyTruthy = true
  alwaysTruthy : f.alwaysTruthy = true → ∀ v, member v = true → v.isTruthy = true

namespace TypeTerm
variable {ν : Type} [DecidableEq ν] {below : ν → ν → Bool} {a : TypeTerm ν}

theorem contains_false (a : TypeTerm ν) :
    a.contains below (.bool false) = a.kind.allowsFalse := by
  cases a with
  | basic nullable b => cases nullable <;> cases b <;> rfl
  | instanceOf nullable | array nullable => cases nullable <;> rfl

/-- Apart from null, a type has a falsey value if its kind allows one. -/
theorem any_falsey_contains (below : ν → ν → Bool) (settled : a.FlagsSettled) :
    Value.falsey.any (a.contains below) = (a.allowsNull || a.kind.allowsFalsey) := by
  rw [Value.falsey, List.any_cons, contains_null settled]
  cases a with
  | basic nullable b => cases nullable <;> cases b <;> rfl
  | instanceOf nullable => cases nullable <;> rfl
  | array nullable nonEmpty => cases nullable <;> cases nonEmpty <;> rfl

theorem exists_falsey_iff (below : ν → ν → Bool) (settled : a.FlagsSettled) :
    (a.allowsNull || a.kind.allowsFalsey) = true ↔
      ∃ v, a.contains below v = true ∧ v.isTruthy = false := by
  rw [← any_falsey_contains below settled, List.any_eq_true]
  simp only [Value.mem_falsey_iff, and_comm]

theorem allowsTruthy_of_contains {v : Value ν} (member : a.contains below v = true)
    (truth : v.isTruthy = true) : a.allowsTruthy = true := by
  rw [← Bool.not_eq_false]
  intro none
  -- the truthy part would have to be `never`, and `v` belongs to it
  have inside := contains_truthy_of_isTruthy member truth
  rw [truthy_of_not_allowsTruthy none, contains_basic_of_full] at inside
  · cases inside
  · cases v <;> first | rfl | cases truth

theorem flags_describe (settled : a.FlagsSettled) : a.shape.flags.Describe (a.contains below) := by
  have falsey := exists_falsey_iff below settled
  constructor
  case nullable => exact (Bool.eq_iff_iff.mp (contains_null settled)).symm
  case possiblyFalse => exact (Bool.eq_iff_iff.mp a.contains_false).symm
  case possiblyFalsey => exact falsey
  case possiblyTruthy =>
    rintro ⟨v, member, truth⟩
    exact allowsTruthy_of_contains member truth
  case alwaysTruthy =>
    intro always v member
    have none : (a.allowsNull || a.kind.allowsFalsey) = false :=
      (Bool.not_eq_true' _).mp (Bool.and_eq_true_iff.mp always).2
    rw [← Bool.not_eq_false]
    intro lie
    rw [falsey.mpr ⟨v, member, lie⟩] at none
    cases none

end TypeTerm
end TypeLattice
