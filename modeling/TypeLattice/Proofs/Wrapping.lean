import TypeLattice.Proofs.CastLaws
import TypeLattice.Proofs.Registry.Building

/-!
Casts between arrays that were put around two types. An array casts as its elements do. Where the
classes are declared this is the cast of the bare types as well, but for one: bare, the declared cast
of `?non-empty-mixed` leaves null aside, and inside an array it does not.
-/
namespace TypeLattice

namespace TypeTerm
variable {ν : Type}

theorem cast_wrapped [DecidableEq ν] (r : CastRules ν) (nonEmpty : Bool) (key : ArrayKey)
    (times : Nat) (a b : TypeTerm ν) :
    cast r (a.wrapped nonEmpty key times) (b.wrapped nonEmpty key times) = cast r a b := by
  induction times with
  | zero => rfl
  | succ times ih =>
    rw [wrapped_succ, wrapped_succ, cast_array, key.admits_self, ih]
    cases nonEmpty <;> rfl

theorem isBasic_wrapped {nonEmpty : Bool} {key : ArrayKey} {times : Nat} (wraps : 0 < times)
    (a : TypeTerm ν) (b : BasicKind) : (a.wrapped nonEmpty key times).isBasic b = false := by
  obtain ⟨inner, rfl⟩ := Nat.exists_eq_succ_of_ne_zero wraps.ne'
  rw [wrapped_succ]
  rfl

/-- Null is the one thing that a cast of `non-empty-mixed` looks at beside truthiness. -/
theorem cast_eq_declared_iff [DecidableEq ν] (r : CastRules ν) (a b : TypeTerm ν) :
    cast r a b = (if a.isBasic .nonEmptyMixed then b.allowsTruthy else cast r a b) ↔
      ¬(a = basic true .nonEmptyMixed ∧ b.allowsNull = true ∧ b.allowsTruthy = false) := by
  by_cases mixed : a.isBasic .nonEmptyMixed = true
  · obtain ⟨nullable, rfl⟩ : ∃ nullable, a = basic nullable .nonEmptyMixed := by
      cases a with
      | basic nullable c => exact ⟨nullable, congrArg (basic nullable) (beq_iff_eq.mp mixed)⟩
      | instanceOf | array => cases mixed
    have settled : cast r (basic nullable .nonEmptyMixed) b =
        (b.allowsTruthy || (nullable && b.allowsNull)) := rfl
    rw [if_pos mixed, settled]
    cases nullable <;> cases b.allowsNull <;> cases b.allowsTruthy <;> simp
  · rw [if_neg mixed]
    refine iff_of_true rfl ?_
    rintro ⟨rfl, _⟩
    exact mixed rfl

end TypeTerm

theorem Pool.eq_nullableNonEmptyMixed_iff {p : Pool} (canonical : p.Canonical) {id : TypeId}
    {a : TypeTerm NameId} (stored : p.term? id = some a) :
    id = .nullableNonEmptyMixed ↔ a = .basic true .nonEmptyMixed :=
  term?_eq_iff canonical stored (term?_eq_basic.mpr rfl)

namespace Registry
open TypeExpr (wrapTimes)

/-- With declared classes, two types that were wrapped alike cast to each other exactly if the bare
ones do, unless `?non-empty-mixed` is to flow into a type of null and no truthy value. -/
theorem wrapped_declared_casts {reg : Registry} (reached : Reachable reg) {source target : TypeId}
    {src dst : Entry} (known : reg.pool.entry? source = some src)
    (known' : reg.pool.entry? target = some dst) (config : CastOptions) (resolver : Resolver)
    (nonEmpty : Bool) (key : ArrayKey) {times : Nat} (wraps : 0 < times) :
    let sources := wrapTimes nonEmpty key times (source, reg)
    let targets := wrapTimes nonEmpty key times (target, sources.2)
    ∃ bare whole,
      (targets.2.pool.castDeclared? config resolver source target).map Answer.holds = some bare ∧
      (targets.2.pool.castDeclared? config resolver sources.1 targets.1).map Answer.holds =
        some whole ∧
      (whole = bare ↔ ¬(source = .nullableNonEmptyMixed ∧ dst.flags.nullable = true ∧
        dst.flags.possiblyTruthy = false)) := by
  intro sources targets
  have closed := reachable_closed reached
  obtain ⟨a, left⟩ := term?_of_shape? closed (Option.map_eq_some_iff.mpr ⟨src, known, rfl⟩)
  obtain ⟨b, right⟩ := term?_of_shape? closed (Option.map_eq_some_iff.mpr ⟨dst, known', rfl⟩)
  obtain ⟨reached', grown, left', right'⟩ :=
    wrapTimes_both reached left right nonEmpty nonEmpty key key times times
  have canonical := (reachable_closed reached').canonical
  have bare := Pool.castDeclared?_of_term? canonical config resolver
    (Pool.term?_extends grown.pool left) (Pool.term?_extends grown.pool right)
  -- an array is no `non-empty-mixed`, so from there on the shared recursion answers
  have whole := Pool.castDeclared?_of_other canonical config resolver left' right'
    (TypeTerm.isBasic_wrapped wraps a .nonEmptyMixed)
  rw [TypeTerm.cast_wrapped] at whole
  obtain ⟨t, held, shows⟩ := Pool.shows_of_term? right
  cases known'.symm.trans (Pool.entry?_of_shape? closed.canonical held)
  have null : (Entry.of t).flags.nullable = b.allowsNull := Shape.allowsNull_of_shows shows
  have truthy : (Entry.of t).flags.possiblyTruthy = b.allowsTruthy :=
    Shape.allowsTruthy_of_shows shows
  refine ⟨_, _, bare, whole, ?_⟩
  rw [null, truthy, Pool.eq_nullableNonEmptyMixed_iff closed.canonical left]
  exact TypeTerm.cast_eq_declared_iff _ a b

theorem nested_classes_cast_as_classes :
    let admin := empty.internClass "Admin"
    let user := admin.2.internClass "User"
    let admins := wrapTimes true .int 3 (admin.1, user.2)
    let users := wrapTimes true .int 3 (user.1, admins.2)
    ∀ config resolver,
      (users.2.pool.castDeclared? config resolver admins.1 users.1).map Answer.holds =
        (users.2.pool.castDeclared? config resolver admin.1 user.1).map Answer.holds := by
  intro admin user admins users config resolver
  obtain ⟨reached, low, high, _, left, right⟩ :=
    internClass_apart .fresh "Admin" "User" (by decide) (by decide) (by decide)
  have canonical := (reachable_closed reached).canonical
  obtain ⟨bare, whole, first, second, same⟩ := wrapped_declared_casts reached
    (Pool.entry?_of_shape? canonical (Pool.term?_eq_instanceOf.mp left))
    (Pool.entry?_of_shape? canonical (Pool.term?_eq_instanceOf.mp right)) config resolver true .int
    (show 0 < 3 by decide)
  have other : admin.1 ≠ .nullableNonEmptyMixed := by
    rw [ne_eq, Pool.eq_nullableNonEmptyMixed_iff canonical left]
    nofun
  have equal : whole = bare := same.mpr fun excepted => other excepted.1
  rw [second, equal]
  exact first.symm

/-- Bare, `?non-empty-mixed` does not cast to a declared `null`, and in arrays it does. -/
theorem wrapped_null_escapes :
    let sources := wrapTimes false .mixed 1 (.nullableNonEmptyMixed, empty)
    let targets := wrapTimes false .mixed 1 (.basic .null, sources.2)
    Reachable targets.2 ∧
      (targets.2.pool.castDeclared? .strict sameClass .nullableNonEmptyMixed (.basic .null)).map
        Answer.holds = some false ∧
      (targets.2.pool.castDeclared? .strict sameClass sources.1 targets.1).map Answer.holds =
        some true := by
  intro sources targets
  have left : empty.pool.term? .nullableNonEmptyMixed = some (.basic true .nonEmptyMixed) :=
    Pool.term?_eq_basic.mpr rfl
  have right : empty.pool.term? (.basic .null) = some (.basic false .null) :=
    Pool.term?_eq_basic.mpr rfl
  obtain ⟨reached, grown, left', right'⟩ :=
    wrapTimes_both .fresh left right false false .mixed .mixed 1 1
  have canonical := (reachable_closed reached).canonical
  refine ⟨reached, ?_, ?_⟩
  · exact Pool.castDeclared?_of_term? canonical .strict sameClass
      (Pool.term?_extends grown.pool left) (Pool.term?_extends grown.pool right)
  · exact Pool.castDeclared?_of_term? canonical .strict sameClass left' right'

end Registry
end TypeLattice
