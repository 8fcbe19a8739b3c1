import TypeLattice.Proofs.Narrowing
import TypeLattice.Proofs.Overlap
import TypeLattice.Proofs.Terms.Projection

/-!
Related types in the order of casts. What is picked out of a type casts to it under all options, and
a type casts to what it is with null. The truthy part is a projection: it is its own truthy part,
and strict casts go from truthy part to truthy part, but for those from three mixed types.
-/
namespace TypeLattice
open TypeTerm (CastRules)

namespace Pool

/-- Whether a part that was picked out of a type casts to it, is all that is picked out of itself,
and has no null. -/
structure SettlesAs (next : Pool) (pick : Pool → TypeId → Option (Option TypeId × Pool))
    (id part : TypeId) : Prop where
  casts : ∀ config, next.Casts config part id
  again : pick next part = some (some part, next)
  notNull : ∃ e, next.entry? part = some e ∧ e.flags.nullable = false

/-- Whether the types related to a type are above it or below it as they should. -/
structure RelatesInOrder (p : Pool) (id : TypeId) : Prop where
  withNull : ∃ other next, p.withNullable? id true = some (other, next) ∧
    ∀ config, next.Casts config id other
  withoutNull : ∃ other next, p.withNullable? id false = some (other, next) ∧
    ∀ config, next.Casts config other id
  truthy : ∃ other next, p.truthy? id = some (other, next) ∧ ∀ config, next.Casts config other id
  objects : ∃ part next, p.objects? id = some (part, next) ∧
    ∀ other ∈ part, next.SettlesAs objects? id other
  arrays : ∃ part next, p.arrays? id = some (part, next) ∧
    ∀ other ∈ part, next.SettlesAs arrays? id other

/-- What comes of taking the truthy part of a type: the type `other`, with the entry `e'`. -/
structure NarrowsTo (p : Pool) (id : TypeId) (e : Entry) (other : TypeId) (next : Pool)
    (e' : Entry) : Prop where
  found : p.truthy? id = some (other, next)
  known : next.entry? other = some e'
  again : next.truthy? other = some (other, next)
  notNull : e'.flags.nullable = false
  never_iff : other = .basic .never ↔ e.flags.possiblyTruthy = false
  truthy : other ≠ .basic .never → e'.flags.possiblyTruthy = true

theorem narrowsTo_intern {p : Pool} (canonical : p.Canonical) {id : TypeId} {s : TypeShape}
    (known : p.shape? id = some s) :
    p.NarrowsTo id (.of s) (p.intern s.truthy).1 (p.intern s.truthy).2 (.of s.truthy) := by
  have whole := intern_canonical canonical s.truthy
  have held := shape?_intern_own canonical s.canonical_truthy
  have bottom : (p.intern s.truthy).2.shape? (.basic .never) = some (Shape.basic .never) := rfl
  have never : (p.intern s.truthy).1 = .basic .never ↔ s.kind.allowsTruthy = false := by
    rw [← s.truthy_eq_never_iff]
    constructor
    · intro same
      rw [same, bottom] at held
      exact (Option.some.inj held).symm
    · intro same
      rw [← same] at bottom
      exact shape?_injective whole held bottom
  constructor
  case found => exact derive?_of_shape? known Shape.truthy
  case known => exact entry?_of_shape? whole held
  case again => exact derive?_same held whole s.truthy_truthy
  case notNull => exact s.allowsNull_truthy
  case never_iff => exact never
  case truthy =>
    intro other
    refine s.allowsTruthy_truthy.trans ?_
    rw [← Bool.not_eq_false]
    exact fun none => other (never.mpr none)

end Pool

namespace Registry
variable {reg : Registry} (closed : Closed reg) {id : TypeId} {a : TypeTerm NameId}
  (stored : reg.pool.term? id = some a)
include closed stored

section Interned
variable {s : TypeShape} {b : TypeTerm NameId} (level : reg.pool.Unfolds s b)
  (own : s.canonical = s)
include level own

theorem intern_casts (lower : ∀ r, TypeTerm.cast r b a = true) (config : Option CastOptions) :
    (reg.pool.intern s).2.Casts config (reg.pool.intern s).1 id := by
  have kept := Pool.term?_extends (Pool.extends_intern reg.pool s) stored
  have whole := Pool.intern_canonical closed.canonical s
  exact (Pool.casts_iff whole config (term?_intern closed level own) kept).mpr (lower _)

theorem casts_intern (upper : ∀ r, TypeTerm.cast r a b = true) (config : Option CastOptions) :
    (reg.pool.intern s).2.Casts config id (reg.pool.intern s).1 := by
  have kept := Pool.term?_extends (Pool.extends_intern reg.pool s) stored
  have whole := Pool.intern_canonical closed.canonical s
  exact (Pool.casts_iff whole config kept (term?_intern closed level own)).mpr (upper _)

end Interned

/-- A part is below the type it was picked from, if it is so on trees. -/
theorem derivePart?_settles {f : TypeShape → Option TypeShape} {part : Option (TypeTerm NameId)}
    (unfolds : ∀ s, reg.pool.Unfolds s a → Option.Rel reg.pool.Unfolds (f s) part)
    (own : ∀ s o, f s = some o → o.canonical = o)
    (settles : ∀ s o, f s = some o → f o = some o ∧ o.allowsNull = false)
    (lower : ∀ b, part = some b → ∀ r, TypeTerm.cast r b a = true) :
    ∃ found next, reg.pool.derivePart? id f = some (found, next) ∧
      ∀ other ∈ found, next.SettlesAs (fun p id => p.derivePart? id f) id other := by
  obtain ⟨s, known, level⟩ := Pool.unfolds_of_term? stored
  have related := unfolds s level
  cases found : f s with
  | none => exact ⟨none, reg.pool, Pool.derivePart?_of_none known found, nofun⟩
  | some o =>
    refine ⟨_, _, Pool.derivePart?_of_shape? known found, ?_⟩
    rintro other ⟨⟩
    rw [found] at related
    obtain ⟨again, full⟩ := settles s o found
    have whole := Pool.intern_canonical closed.canonical o
    have held := Pool.shape?_intern_own closed.canonical (own s o found)
    cases related with
    | some level' =>
      constructor
      case casts => exact intern_casts closed stored level' (own s o found) (lower _ rfl)
      case again => exact Pool.derivePart?_same held whole again
      case notNull => exact ⟨_, Pool.entry?_of_shape? whole held, full⟩

theorem relatesInOrder_of_term? : reg.pool.RelatesInOrder id := by
  obtain ⟨s, known, level⟩ := Pool.unfolds_of_term? stored
  constructor
  case withNull =>
    refine ⟨_, _, Pool.derive?_of_shape? known _, ?_⟩
    exact casts_intern closed stored (Pool.unfolds_withNullable level true)
      (s.canonical_withNullable true) fun r => TypeTerm.cast_withNullable_true r a
  case withoutNull =>
    refine ⟨_, _, Pool.derive?_of_shape? known _, ?_⟩
    exact intern_casts closed stored (Pool.unfolds_withNullable level false)
      (s.canonical_withNullable false) fun r => TypeTerm.cast_withNullable_false r a
  case truthy =>
    refine ⟨_, _, Pool.derive?_of_shape? known _, ?_⟩
    exact intern_casts closed stored (Pool.unfolds_truthy level) s.canonical_truthy
      fun r => TypeTerm.cast_truthy r a
  case objects =>
    exact derivePart?_settles closed stored (fun _ level => Pool.unfolds_objects? level)
      (fun _ _ => Shape.canonical_objects?) (fun _ _ => Shape.objects?_settles)
      fun _ found r => TypeTerm.cast_objects? r found
  case arrays =>
    exact derivePart?_settles closed stored (fun _ level => Pool.unfolds_arrays? level)
      (fun _ _ => Shape.canonical_arrays?) (fun _ _ => Shape.arrays?_settles)
      fun _ found r => TypeTerm.cast_arrays? r found

/-- The truthy parts of two types, taken one after the other, cast as the types do. -/
theorem truthy_casts {target : TypeId} {b : TypeTerm NameId}
    (right : reg.pool.term? target = some b)
    (lifts : TypeTerm.cast (.ofConfig none) a.truthy b.truthy = true) :
    ∃ source' between target' next, reg.pool.truthy? id = some (source', between) ∧
      between.truthy? target = some (target', next) ∧ next.Casts none source' target' := by
  obtain ⟨s, known, level⟩ := Pool.unfolds_of_term? stored
  have closed' : Closed (reg.intern s.truthy).2 :=
    intern_closed closed (holds_truthy (closed.parts id s known))
  have first := term?_intern closed (Pool.unfolds_truthy level) s.canonical_truthy
  have right' := Pool.term?_extends (extends_intern reg s.truthy).pool right
  obtain ⟨t, known', level'⟩ := Pool.unfolds_of_term? right'
  have second := term?_intern closed' (Pool.unfolds_truthy level') t.canonical_truthy
  refine ⟨_, _, _, _, Pool.derive?_of_shape? known _, Pool.derive?_of_shape? known' _, ?_⟩
  have whole := Pool.intern_canonical closed'.canonical t.truthy
  exact (Pool.casts_iff whole none (Pool.term?_extends (Pool.extends_intern _ _) first) second).mpr
    lifts

end Registry

namespace Registry
open TypeExpr (wrapTimes)

/-- Null, truth, objects and arrays move a type up or down in the order of casts, under all options.
The objects and the arrays of a type are their own, and never null. -/
theorem related_types_are_ordered {reg : Registry} (reached : Reachable reg) {id : TypeId}
    (known : reg.pool.Knows id) : reg.pool.RelatesInOrder id := by
  have closed := reachable_closed reached
  obtain ⟨a, stored⟩ := term?_of_knows closed known
  exact relatesInOrder_of_term? closed stored

/-- The truthy lists of users are lists of users, and all of them may be null instead. -/
theorem truthy_user_lists_are_user_lists :
    let user := empty.internClass "User"
    let users := wrapTimes false .int 1 user
    (∃ other next, users.2.pool.truthy? users.1 = some (other, next) ∧
      ∀ config, next.Casts config other users.1) ∧
    ∃ other next, users.2.pool.withNullable? users.1 true = some (other, next) ∧
      ∀ config, next.Casts config users.1 other := by
  intro user users
  have reached : Reachable user.2 := reachable_internClass .fresh (by decide)
  have single := term?_internClass empty_closed "User"
  obtain ⟨reached', _, stored⟩ := wrapTimes_stored reached single false .int 1
  have ordered := related_types_are_ordered reached' (Pool.shape?_of_term? stored)
  exact ⟨ordered.truthy, ordered.withNull⟩

/-- Taking the truthy part is a projection that keeps strict casts. It is `never` just where nothing
is truthy, and has no null. -/
theorem truthy_part_is_projection {reg : Registry} (reached : Reachable reg) :
    (∀ id e, reg.pool.entry? id = some e →
      ∃ other next e', reg.pool.NarrowsTo id e other next e') ∧
    ∀ source target, reg.pool.Knows source → reg.pool.Knows target →
      source ≠ .basic .mixed → source ≠ .basic .nonNullMixed → source ≠ .nullableNonEmptyMixed →
      reg.pool.Casts none source target →
      ∃ source' between target' next, reg.pool.truthy? source = some (source', between) ∧
        between.truthy? target = some (target', next) ∧ next.Casts none source' target' := by
  have closed := reachable_closed reached
  have canonical := closed.canonical
  constructor
  · intro id e known
    have shape := Pool.shape?_of_held known
    rw [Pool.entry?_eq_of canonical known]
    exact ⟨_, _, _, Pool.narrowsTo_intern canonical shape⟩
  · intro source target known known' noMixed noNonNull noNull casts
    obtain ⟨a, left⟩ := term?_of_knows closed known
    obtain ⟨b, right⟩ := term?_of_knows closed known'
    rw [ne_eq, Pool.eq_basic_iff canonical left (c := .mixed) nofun, Bool.not_eq_true] at noMixed
    rw [ne_eq, Pool.eq_basic_iff canonical left (c := .nonNullMixed) nofun, Bool.not_eq_true]
      at noNonNull
    rw [ne_eq, Pool.eq_nullableNonEmptyMixed_iff canonical left] at noNull
    have holds := (Pool.casts_iff canonical none left right).mp casts
    exact truthy_casts closed left right
      (TypeTerm.cast_truthy_truthy rfl noMixed noNonNull noNull holds)

/-- Lists of ints cast to lists of floats, and so do the ones that are not empty. -/
theorem filled_int_lists_are_filled_float_lists :
    let ints := wrapTimes false .int 1 (.basic .int, empty)
    let floats := wrapTimes false .int 1 (.basic .float, ints.2)
    ∃ source between target next, floats.2.pool.truthy? ints.1 = some (source, between) ∧
      between.truthy? floats.1 = some (target, next) ∧ next.Casts none source target := by
  intro ints floats
  have fixed (b : BasicKind) : empty.pool.term? (.basic b) = some (.basic false b) :=
    Pool.term?_eq_basic.mpr rfl
  obtain ⟨reached, _, left, right⟩ :=
    wrapTimes_both .fresh (fixed .int) (fixed .float) false false .int .int 1 1
  have canonical := (reachable_closed reached).canonical
  have noMixed : ints.1 ≠ .basic .mixed := by
    rw [ne_eq, Pool.eq_basic_iff canonical left (c := .mixed) nofun]
    nofun
  have noNonNull : ints.1 ≠ .basic .nonNullMixed := by
    rw [ne_eq, Pool.eq_basic_iff canonical left (c := .nonNullMixed) nofun]
    nofun
  have noNull : ints.1 ≠ .nullableNonEmptyMixed := by
    rw [ne_eq, Pool.eq_nullableNonEmptyMixed_iff canonical left]
    nofun
  have casts : floats.2.pool.Casts none ints.1 floats.1 :=
    (Pool.casts_iff canonical none left right).mpr rfl
  exact (truthy_part_is_projection reached).2 ints.1 floats.1 (Pool.shape?_of_term? left)
    (Pool.shape?_of_term? right) noMixed noNonNull noNull casts

end Registry
end TypeLattice
