import Mathlib.Algebra.Group.Nat.Defs
import TypeLattice.TypeId

/-!
Packed identifiers as pairs of a shard and a place. Read as a number, an identifier is its shard
times 2^28 and then its place, so a pair of small numbers fills the word without an overlap and is
read back from it, and every word is such a pair.
-/
namespace TypeLattice.PackedId

theorem toNat_shard (id : PackedId) : id.shard.toNat = id.bits.toNat / 2 ^ 28 := by
  rw [shard, UInt32.toNat_shiftRight, Nat.shiftRight_eq_div_pow]
  rfl

theorem toNat_place (id : PackedId) : id.place.toNat = id.bits.toNat % 2 ^ 28 := by
  rw [place, UInt32.toNat_and]
  exact Nat.and_two_pow_sub_one_eq_mod _ 28

theorem shard_lt (id : PackedId) : id.shard.toNat < 16 := by
  have := id.bits.toNat_lt
  rw [toNat_shard]
  omega

theorem place_lt (id : PackedId) : id.place.toNat < 2 ^ 28 := by
  rw [toNat_place]
  exact Nat.mod_lt _ (by decide)

theorem ext_toNat {id other : PackedId} (same : id.bits.toNat = other.bits.toNat) :
    id = other := by
  cases id
  cases other
  exact congrArg mk (UInt32.toNat_inj.mp same)

section InRange
variable {shard place : UInt32} (low : shard.toNat < 16) (inside : place.toNat < 2 ^ 28)
include low inside

/-- No bit of the shard is lost, and none of the place lies over it. -/
theorem toNat_ofShardLocal :
    (ofShardLocal shard place).bits.toNat = shard.toNat * 2 ^ 28 + place.toNat := by
  have shifted : (shard <<< 28).toNat = shard.toNat <<< 28 := by
    rw [UInt32.toNat_shiftLeft]
    change shard.toNat <<< 28 % 2 ^ 32 = shard.toNat <<< 28
    rw [Nat.shiftLeft_eq]
    omega
  rw [ofShardLocal, UInt32.toNat_or, shifted, ← Nat.shiftLeft_add_eq_or_of_lt inside,
    Nat.shiftLeft_eq]

theorem shard_ofShardLocal : (ofShardLocal shard place).shard = shard := by
  apply UInt32.toNat_inj.mp
  rw [toNat_shard, toNat_ofShardLocal low inside]
  omega

theorem place_ofShardLocal : (ofShardLocal shard place).place = place := by
  apply UInt32.toNat_inj.mp
  rw [toNat_place, toNat_ofShardLocal low inside]
  omega

end InRange

theorem ofShardLocal_shard_place (id : PackedId) : ofShardLocal id.shard id.place = id := by
  apply ext_toNat
  rw [toNat_ofShardLocal id.shard_lt id.place_lt, toNat_shard, toNat_place]
  omega

theorem isFixed_iff (id : PackedId) :
    id.isFixed = true ↔ id.shard = 0 ∧ id.place.toNat < 15 := by
  have low : id.shard = 0 ↔ id.bits.toNat / 2 ^ 28 = 0 := by
    rw [← UInt32.toNat_inj, toNat_shard]
    rfl
  have few : TypeId.fixed.length = 15 := rfl
  rw [isFixed, decide_eq_true_iff, few, low, toNat_place]
  omega

/-- A word of 32 bits is a shard below 16 and a place below 2^28, in exactly one way. Types and
names are packed alike. The fixed types are the first fifteen places of the first shard. -/
theorem packing_is_bijective :
    (∀ shard place : UInt32, shard.toNat < 16 → place.toNat < 2 ^ 28 →
      (ofShardLocal shard place).bits.toNat = shard.toNat * 2 ^ 28 + place.toNat ∧
      (ofShardLocal shard place).shard = shard ∧ (ofShardLocal shard place).place = place) ∧
    (∀ id : PackedId, id.shard.toNat < 16 ∧ id.place.toNat < 2 ^ 28 ∧
      ofShardLocal id.shard id.place = id) ∧
    (∀ shard place shard' place' : UInt32, shard.toNat < 16 → place.toNat < 2 ^ 28 →
      shard'.toNat < 16 → place'.toNat < 2 ^ 28 →
      ofShardLocal shard place = ofShardLocal shard' place' → shard = shard' ∧ place = place') ∧
    ∀ id : PackedId, id.isFixed = true ↔ id.shard = 0 ∧ id.place.toNat < 15 := by
  refine ⟨?_, ?_, ?_, isFixed_iff⟩
  · intro shard place low inside
    exact ⟨toNat_ofShardLocal low inside, shard_ofShardLocal low inside,
      place_ofShardLocal low inside⟩
  · intro id
    exact ⟨id.shard_lt, id.place_lt, ofShardLocal_shard_place id⟩
  · intro shard place shard' place' low inside low' inside' same
    have shards := congrArg PackedId.shard same
    have places := congrArg PackedId.place same
    rw [shard_ofShardLocal low inside, shard_ofShardLocal low' inside'] at shards
    rw [place_ofShardLocal low inside, place_ofShardLocal low' inside'] at places
    exact ⟨shards, places⟩

end TypeLattice.PackedId
