import TypeLattice.Proofs.Terms.Overlap
import TypeLattice.Proofs.Wrapping

/-!
Weak overlap of stored types: a symmetric relation that `never` has no part in, and that every
strict cast makes hold. Where it does not, null is all that the cast lets through, and that happens
between `?non-empty-mixed` and two other types.
-/
namespace TypeLattice

namespace Pool

/-- `?non-empty-mixed` on the one side, and on the other `null` or `?false`. -/
def MeetsInNull (p : Pool) (id other : TypeId) : Prop :=
  id = .nullableNonEmptyMixed ∧
    (other = .basic .null ∨ p.shape? other = some ⟨.basic .onlyFalse, true⟩)

/-- Whether the overlap of two types follows from a cast between them, in whichever order they come,
but for the types that have nothing but null in common. -/
structure OverlapRelaxesCasts (p : Pool) : Prop where
  symm : ∀ id other, p.Knows id → p.Knows other →
    ∃ holds, p.overlaps? id other = some holds ∧ p.overlaps? other id = some holds
  never : ∀ id, p.Knows id →
    p.overlaps? id (.basic .never) = some false ∧ p.overlaps? (.basic .never) id = some false
  self : ∀ id, p.Knows id → id ≠ .basic .never → p.overlaps? id id = some true
  casts : ∀ id other, p.Knows id → p.Knows other → id ≠ .basic .never → other ≠ .basic .never →
    p.Casts none id other ∨ p.Casts none other id →
    (p.overlaps? id other = some true ↔ ¬(p.MeetsInNull id other ∨ p.MeetsInNull other id))
  nullOnly : ∀ id other, p.MeetsInNull id other →
    p.Casts none id other ∧ p.overlaps? id other = some false

section Stored
variable {p : Pool} (canonical : p.Canonical) {id other : TypeId} {a b : TypeTerm NameId}
  (left : p.term? id = some a) (right : p.term? other = some b)
include canonical left

/-- A kind that settles null is that of a fixed type alone. -/
theorem eq_basic_iff {c : BasicKind} (inherent : c.inherentNull? ≠ none) :
    id = .basic c ↔ a.isBasic c = true := by
  rw [TypeTerm.isBasic_iff_of_inherent (term?_flagsSettled canonical left) inherent]
  exact term?_eq_iff canonical left (term?_eq_basic.mpr rfl)

theorem eq_never_iff : id = .basic .never ↔ a.isBasic .never = true :=
  eq_basic_iff canonical left nofun

include right

theorem meetsInNull_iff : p.MeetsInNull id other ↔ a.NullOnly b := by
  have null : other = .basic .null ↔ b = .basic false .null :=
    term?_eq_iff canonical right (term?_eq_basic.mpr rfl)
  have onlyFalse : p.shape? other = some ⟨.basic .onlyFalse, true⟩ ↔
      b = .basic true .onlyFalse := by
    rw [← term?_eq_basic, right, Option.some.injEq]
  rw [MeetsInNull, TypeTerm.NullOnly, eq_nullableNonEmptyMixed_iff canonical left, null, onlyFalse,
    TypeTerm.allowsNull_not_truthy_iff (term?_flagsSettled canonical right)]

theorem overlaps_iff_of_cast (full : id ≠ .basic .never) (full' : other ≠ .basic .never)
    (casts : p.Casts none id other ∨ p.Casts none other id) :
    p.overlaps? id other = some true ↔ ¬(p.MeetsInNull id other ∨ p.MeetsInNull other id) := by
  rw [ne_eq, eq_never_iff canonical left, Bool.not_eq_true] at full
  rw [ne_eq, eq_never_iff canonical right, Bool.not_eq_true] at full'
  rw [casts_iff canonical none left right, casts_iff canonical none right left] at casts
  rw [overlaps?_of_term? canonical left right, Option.some.injEq,
    meetsInNull_iff canonical left right, meetsInNull_iff canonical right left]
  constructor
  · rintro overlap (only | only)
    · rw [(TypeTerm.cast_of_nullOnly only).2] at overlap
      cases overlap
    · rw [TypeTerm.overlaps_comm, (TypeTerm.cast_of_nullOnly only).2] at overlap
      cases overlap
  · intro more
    rcases casts with holds | holds
    · exact (TypeTerm.overlaps_of_cast full full' holds).resolve_right more
    · rw [TypeTerm.overlaps_comm]
      exact (TypeTerm.overlaps_of_cast full' full holds).resolve_right fun only => more only.symm

end Stored
end Pool

namespace Registry

/-- Overlap is symmetric and looser than a strict cast in either direction. Only `?non-empty-mixed`
does not overlap everything that it casts to: not `null`, and not `?false`. -/
theorem overlap_relaxes_casts {reg : Registry} (reached : Reachable reg) :
    reg.pool.OverlapRelaxesCasts := by
  have closed := reachable_closed reached
  have canonical := closed.canonical
  constructor
  case symm =>
    intro id other known known'
    obtain ⟨a, left⟩ := term?_of_knows closed known
    obtain ⟨b, right⟩ := term?_of_knows closed known'
    refine ⟨a.overlaps b, Pool.overlaps?_of_term? canonical left right, ?_⟩
    rw [Pool.overlaps?_of_term? canonical right left, TypeTerm.overlaps_comm]
  case never =>
    intro id known
    obtain ⟨a, left⟩ := term?_of_knows closed known
    have bottom : reg.pool.term? (.basic .never) = some (.basic false .never) :=
      Pool.term?_eq_basic.mpr rfl
    rw [Pool.overlaps?_of_term? canonical left bottom,
      Pool.overlaps?_of_term? canonical bottom left,
      TypeTerm.overlaps_comm (.basic false .never), TypeTerm.overlaps_never a rfl]
    exact ⟨rfl, rfl⟩
  case self =>
    intro id known full
    obtain ⟨a, stored⟩ := term?_of_knows closed known
    rw [ne_eq, Pool.eq_never_iff canonical stored, Bool.not_eq_true] at full
    rw [Pool.overlaps?_of_term? canonical stored stored, TypeTerm.overlaps_self full]
  case casts =>
    intro id other known known'
    obtain ⟨a, left⟩ := term?_of_knows closed known
    obtain ⟨b, right⟩ := term?_of_knows closed known'
    exact Pool.overlaps_iff_of_cast canonical left right
  case nullOnly =>
    intro id other meets
    have known' : reg.pool.Knows other := by
      rcases meets.2 with rfl | shape
      · exact ⟨_, rfl⟩
      · exact ⟨_, shape⟩
    obtain ⟨b, right⟩ := term?_of_knows closed known'
    have left : reg.pool.term? id = some (.basic true .nonEmptyMixed) := by
      rw [meets.1]
      exact Pool.term?_eq_basic.mpr rfl
    obtain ⟨holds, apart⟩ :=
      TypeTerm.cast_of_nullOnly ((Pool.meetsInNull_iff canonical left right).mp meets)
    rw [Pool.casts_iff canonical none left right,
      Pool.overlaps?_of_term? canonical left right, apart]
    exact ⟨holds, rfl⟩

theorem user_overlaps_object :
    let user := empty.internClass "User"
    Reachable user.2 ∧
      user.2.pool.overlaps? user.1 (.basic .object) = some true ∧
      user.2.pool.overlaps? (.basic .object) user.1 = some true ∧
      user.2.pool.overlaps? .nullableNonEmptyMixed (.basic .null) = some false := by
  intro user
  have reached : Reachable user.2 := reachable_internClass .fresh (by decide)
  have canonical := (reachable_closed reached).canonical
  have left := term?_internClass empty_closed "User"
  have right : user.2.pool.term? (.basic .object) = some (.basic false .object) :=
    Pool.term?_eq_basic.mpr rfl
  have laws := overlap_relaxes_casts reached
  have known : user.2.pool.Knows user.1 := Pool.shape?_of_term? left
  have object : user.2.pool.Knows (.basic .object) := ⟨_, rfl⟩
  have casts : user.2.pool.Casts none user.1 (.basic .object) :=
    (Pool.casts_iff canonical none left right).mpr rfl
  have full : user.1 ≠ .basic .never := by
    rw [ne_eq, Pool.eq_never_iff canonical left]
    nofun
  have more : ¬(user.2.pool.MeetsInNull user.1 (.basic .object) ∨
      user.2.pool.MeetsInNull (.basic .object) user.1) := by
    rw [Pool.meetsInNull_iff canonical left right, Pool.meetsInNull_iff canonical right left]
    rintro (⟨mixed, _⟩ | ⟨mixed, _⟩) <;> cases mixed
  have overlap := (laws.casts _ _ known object full nofun (.inl casts)).mpr more
  refine ⟨reached, overlap, ?_, (laws.nullOnly _ _ ⟨rfl, .inl rfl⟩).2⟩
  obtain ⟨holds, forth, back⟩ := laws.symm _ _ known object
  rw [overlap] at forth
  cases forth
  exact back

end Registry
end TypeLattice
