import TypeLattice.Proofs.Overlap
import TypeLattice.Proofs.Terms.CommonValues

/-!
Which common values weak overlap finds, among null, scalars and arrays of them. Overlap asks for a
cast in one direction, which is about all values of the one type. So it finds a common value where
one type includes the other, and it misses `true` between `?true` and `bool`, since null stands in
the way of the one cast and `false` in the way of the other.
-/
namespace TypeLattice
open TypeExpr (wrapTimes)

namespace Pool

/-- Where overlap holds for two types that have a common value: if both have null or one casts to
the other, which is to say that it has all its values. Of two types without null one does if they
are not both arrays. -/
structure OverlapOfCommon (p : Pool) (below : NameId → NameId → Bool) (id other : TypeId)
    (a b : TypeTerm NameId) : Prop where
  casts : p.overlaps? id other = some true ↔
    (a.allowsNull = true ∧ b.allowsNull = true) ∨ p.Casts none id other ∨ p.Casts none other id
  includes : p.overlaps? id other = some true →
    (a.allowsNull = true ∧ b.allowsNull = true) ∨ a.Within below b ∨ b.Within below a
  included : (a.Populated ∧ a.Within below b) ∨ (b.Populated ∧ b.Within below a) →
    p.overlaps? id other = some true
  scalars : a.allowsNull = false → b.allowsNull = false → a.keys = [] ∨ b.keys = [] →
    p.overlaps? id other = some true

/-- Two types of null, scalars and arrays that have a common value and do not overlap. -/
def MissesCommon (p : Pool) (id other : TypeId) : Prop :=
  p.overlaps? id other = some false ∧ ∃ a b v, p.term? id = some a ∧ p.term? other = some b ∧
    a.Concrete ∧ b.Concrete ∧ a.contains sameClass v = true ∧ b.contains sameClass v = true

end Pool

namespace Registry

/-- Two types of null, scalars and arrays that have a common value overlap if both have null or if
one of them has all values of the other, where no array is bound to be empty. -/
theorem common_values_overlap {reg : Registry} (reached : Reachable reg) {id other : TypeId}
    (known : reg.pool.Knows id) (known' : reg.pool.Knows other) :
    ∃ a b, reg.pool.term? id = some a ∧ reg.pool.term? other = some b ∧
      (a.Concrete → b.Concrete → ∀ (h : Hierarchy) v, a.contains h.isSubclass v = true →
        b.contains h.isSubclass v = true →
        reg.pool.OverlapOfCommon h.isSubclass id other a b) := by
  have closed := reachable_closed reached
  have canonical := closed.canonical
  obtain ⟨a, left⟩ := term?_of_knows closed known
  obtain ⟨b, right⟩ := term?_of_knows closed known'
  have settled := Pool.term?_flagsSettled canonical left
  have settled' := Pool.term?_flagsSettled canonical right
  refine ⟨a, b, left, right, ?_⟩
  intro concrete concrete' h v member member'
  have trans : ∀ x y z, h.isSubclass x y = true → h.isSubclass y z = true →
      h.isSubclass x z = true := fun _ _ _ => h.isSubclass_trans
  have overlap := TypeTerm.overlaps_iff_of_common settled settled' concrete concrete' member member'
  have answer : reg.pool.overlaps? id other = some true ↔ a.overlaps b = true := by
    rw [Pool.overlaps?_of_term? canonical left right, Option.some.injEq]
  constructor
  case casts =>
    rw [answer, overlap, Pool.casts_iff canonical none left right,
      Pool.casts_iff canonical none right left]
  case includes =>
    rw [answer, overlap]
    refine Or.imp_right (Or.imp ?_ ?_)
    · exact TypeTerm.within_of_cast trans settled settled' concrete concrete'
    · exact TypeTerm.within_of_cast trans settled' settled concrete' concrete
  case included =>
    rw [answer, overlap]
    refine fun inclusion => .inr (inclusion.imp ?_ ?_)
    · rintro ⟨populated, within⟩
      exact TypeTerm.cast_of_within settled settled' concrete concrete' populated within
    · rintro ⟨populated, within⟩
      exact TypeTerm.cast_of_within settled' settled concrete' concrete populated within
  case scalars =>
    rw [answer]
    exact TypeTerm.overlaps_of_common settled settled' concrete concrete' member member'

theorem lists_of_counts_overlap_lists_of_floats :
    let counts := wrapTimes true .int 1 (.basic .nonZeroInt, empty)
    let floats := wrapTimes false .mixed 1 (.basic .float, counts.2)
    floats.2.pool.overlaps? floats.1 counts.1 = some true := by
  intro counts floats
  have elem (b : BasicKind) : empty.pool.term? (.basic b) = some (.basic false b) :=
    Pool.term?_eq_basic.mpr rfl
  obtain ⟨reached, _, left, right⟩ :=
    wrapTimes_both .fresh (elem .nonZeroInt) (elem .float) true false .int .mixed 1 1
  obtain ⟨a, b, known, known', laws⟩ := common_values_overlap reached
    (Pool.shape?_of_term? right) (Pool.shape?_of_term? left)
  cases known.symm.trans right
  cases known'.symm.trans left
  let h : Hierarchy := ⟨[]⟩
  have shared := laws (TypeTerm.concrete_basic false (by decide))
    (TypeTerm.concrete_basic false (by decide)) h (.array [(.int 0, .int 1)]) rfl rfl
  exact shared.casts.mpr (.inr (.inr
    ((Pool.casts_iff (reachable_closed reached).canonical none left right).mpr rfl)))

/-- Overlap misses `true` between `?true` and `bool`, and the empty list between lists of integers
and lists of strings. -/
theorem common_values_missed :
    let narrow := empty.intern ⟨.basic .onlyTrue, true⟩
    let ints := wrapTimes false .mixed 1 (.basic .int, narrow.2)
    let strings := wrapTimes false .mixed 1 (.basic .string, ints.2)
    Reachable strings.2 ∧ strings.2.pool.MissesCommon narrow.1 (.basic .bool) ∧
      strings.2.pool.MissesCommon ints.1 strings.1 := by
  intro narrow ints strings
  have reached : Reachable narrow.2 := .step (.intern _) .fresh trivial
  have elem (b : BasicKind) : narrow.2.pool.term? (.basic b) = some (.basic false b) :=
    Pool.term?_eq_basic.mpr rfl
  obtain ⟨reached', grown, left, right⟩ :=
    wrapTimes_both reached (elem .int) (elem .string) false false .mixed .mixed 1 1
  have canonical := (reachable_closed reached').canonical
  have optional : strings.2.pool.term? narrow.1 = some (.basic true .onlyTrue) := by
    refine Pool.term?_extends grown.pool (Pool.term?_eq_basic.mpr ?_)
    exact Pool.shape?_intern Pool.empty_canonical _
  have bool : strings.2.pool.term? (.basic .bool) = some (.basic false .bool) :=
    Pool.term?_eq_basic.mpr rfl
  refine ⟨reached', ⟨?_, ?_⟩, ⟨?_, ?_⟩⟩
  · exact Pool.overlaps?_of_term? canonical optional bool
  · exact ⟨_, _, .bool true, optional, bool, TypeTerm.concrete_basic true (by decide),
      TypeTerm.concrete_basic false (by decide), rfl, rfl⟩
  · exact Pool.overlaps?_of_term? canonical left right
  · exact ⟨_, _, .array [], left, right, TypeTerm.concrete_basic false (by decide),
      TypeTerm.concrete_basic false (by decide), rfl, rfl⟩

end Registry
end TypeLattice
