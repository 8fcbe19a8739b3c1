import TypeLattice.Proofs.Pool.Related
import TypeLattice.Proofs.Registry.Building
import TypeLattice.Proofs.Terms.Narrowing

/-!
The related types of a stored type. A pool computes them on shapes, and interning the shape stores
the tree that the same computation on trees gives, so their values are known: null is added or taken
away, the objects and the arrays are picked out, and so are the truthy values.
-/
namespace TypeLattice
open TypeTerm (any)

namespace Pool

/-- A shape over stored types and the tree that it is the outermost level of. -/
inductive Unfolds (p : Pool) : TypeShape → TypeTerm NameId → Prop where
  | basic (nullable : Bool) (b : BasicKind) : Unfolds p ⟨.basic b, nullable⟩ (.basic nullable b)
  | instanceOf (nullable : Bool) (name : NameId) :
      Unfolds p ⟨.instanceOf name, nullable⟩ (.instanceOf nullable name)
  | array (nullable nonEmpty : Bool) (key : ArrayKey) {elem : TypeId} {a : TypeTerm NameId}
      (inner : p.term? elem = some a) :
      Unfolds p ⟨.array nonEmpty key elem, nullable⟩ (.array nullable nonEmpty key a)

theorem unfolds_of_term? {p : Pool} {id : TypeId} {a : TypeTerm NameId}
    (stored : p.term? id = some a) : ∃ s, p.shape? id = some s ∧ p.Unfolds s a := by
  cases a with
  | basic nullable b => exact ⟨_, term?_eq_basic.mp stored, .basic nullable b⟩
  | instanceOf nullable name => exact ⟨_, term?_eq_instanceOf.mp stored, .instanceOf nullable name⟩
  | array nullable nonEmpty key a =>
    obtain ⟨elem, known, _, inner⟩ := term?_eq_array.mp stored
    exact ⟨_, known, .array nullable nonEmpty key inner⟩

section Unfolding
variable {p : Pool} {s : TypeShape} {a : TypeTerm NameId} (unfolds : p.Unfolds s a)
include unfolds

theorem unfolds_withNullable (nullable : Bool) :
    p.Unfolds (s.withNullable nullable) (a.withNullable nullable) := by
  cases unfolds with
  | basic flag b => cases b <;> cases nullable <;> exact .basic _ _
  | instanceOf flag name => cases nullable <;> exact .instanceOf _ name
  | array flag nonEmpty key inner => cases nullable <;> exact .array _ nonEmpty key inner

theorem unfolds_truthy : p.Unfolds s.truthy a.truthy := by
  cases unfolds with
  | basic flag b => cases b <;> cases flag <;> exact .basic _ _
  | instanceOf flag name => exact .instanceOf false name
  | array flag nonEmpty key inner => cases nonEmpty <;> exact .array false true key inner

theorem unfolds_objects? : Option.Rel p.Unfolds s.objects? a.objects? := by
  cases unfolds with
  | basic flag b => cases b <;> first | exact .none | exact .some (.basic _ _)
  | instanceOf flag name => exact .some (.instanceOf false name)
  | array => exact .none

theorem unfolds_arrays? : Option.Rel p.Unfolds (s.arrays? (.basic .mixed)) a.arrays? := by
  have elem : p.term? (.basic .mixed) = some any := term?_eq_basic.mpr rfl
  cases unfolds with
  | basic flag b => cases b <;> first | exact .none | exact .some (.array _ _ _ elem)
  | instanceOf => exact .none
  | array flag nonEmpty key inner => exact .some (.array false nonEmpty key inner)

end Unfolding

end Pool

namespace Registry
variable {reg : Registry} (closed : Closed reg)
include closed

/-- Interning a shape stores the tree that it is the outermost level of. -/
theorem term?_intern {s : TypeShape} {a : TypeTerm NameId} (unfolds : reg.pool.Unfolds s a)
    (own : s.canonical = s) : (reg.pool.intern s).2.term? (reg.pool.intern s).1 = some a := by
  have known := Pool.shape?_intern_own closed.canonical own
  cases unfolds with
  | basic nullable b => exact Pool.term?_eq_basic.mpr known
  | instanceOf nullable name => exact Pool.term?_eq_instanceOf.mpr known
  | array nullable nonEmpty key inner =>
    have held : reg.Holds (.array nonEmpty key _) := Pool.shape?_of_term? inner
    have whole : Closed (reg.intern ⟨.array nonEmpty key _, nullable⟩).2 :=
      intern_closed closed held
    exact Pool.term?_eq_array.mpr ⟨_, known, whole.older _ _ _ _ _ known,
      Pool.term?_extends (Pool.extends_intern _ _) inner⟩

section Derived
variable {id : TypeId} {a : TypeTerm NameId} (stored : reg.pool.term? id = some a)
include stored

theorem derive?_stored {f : TypeShape → TypeShape} {b : TypeTerm NameId}
    (unfolds : ∀ s, reg.pool.Unfolds s a → reg.pool.Unfolds (f s) b)
    (own : ∀ s, (f s).canonical = f s) :
    ∃ other next, reg.pool.derive? id f = some (other, next) ∧ next.Canonical ∧
      Pool.Extends reg.pool next ∧ next.term? other = some b := by
  obtain ⟨s, known, level⟩ := Pool.unfolds_of_term? stored
  exact ⟨_, _, Pool.derive?_of_shape? known f, Pool.intern_canonical closed.canonical _,
    Pool.extends_intern _ _, term?_intern closed (unfolds s level) (own s)⟩

theorem withNullable?_stored (nullable : Bool) :
    ∃ other next, reg.pool.withNullable? id nullable = some (other, next) ∧ next.Canonical ∧
      Pool.Extends reg.pool next ∧ next.term? other = some (a.withNullable nullable) :=
  derive?_stored closed stored (fun _ level => Pool.unfolds_withNullable level nullable)
    (fun s => s.canonical_withNullable nullable)

theorem derivePart?_stored {f : TypeShape → Option TypeShape} {part : Option (TypeTerm NameId)}
    (unfolds : ∀ s, reg.pool.Unfolds s a → Option.Rel reg.pool.Unfolds (f s) part)
    (own : ∀ s o, f s = some o → o.canonical = o) :
    ∃ found next, reg.pool.derivePart? id f = some (found, next) ∧
      Option.Rel (fun other b => next.term? other = some b) found part := by
  obtain ⟨s, known, level⟩ := Pool.unfolds_of_term? stored
  have related := unfolds s level
  cases found : f s with
  | none =>
    rw [found] at related
    cases related
    exact ⟨none, reg.pool, Pool.derivePart?_of_none known found, .none⟩
  | some o =>
    rw [found] at related
    cases related with
    | some level' =>
      exact ⟨_, _, Pool.derivePart?_of_shape? known found,
        .some (term?_intern closed level' (own s o found))⟩

end Derived

end Registry

namespace Pool

/-- Whether a part that was picked out of a type has those of its values that are of a sort. There
is no part if there are no such values. -/
def PartOf (next : Pool) (a : TypeTerm NameId) (sort : Value NameId → Bool) :
    Option TypeId → Prop
  | some part => ∃ b, next.term? part = some b ∧
      ∀ below v, b.contains below v = true ↔ a.contains below v = true ∧ sort v = true
  | none => ∀ below v, a.contains below v = true → sort v = false

/-- Whether the types related to a type have the values that they should. -/
structure RelatesAs (p : Pool) (id : TypeId) (a : TypeTerm NameId) : Prop where
  withNull : ∃ other next b, p.withNullable? id true = some (other, next) ∧
    next.term? other = some b ∧
    ∀ below v, b.contains below v = true ↔ a.contains below v = true ∨ v = .null
  withoutNull : ∃ other next b, p.withNullable? id false = some (other, next) ∧
    next.term? other = some b ∧
    ∀ below v, b.contains below v = true ↔ a.contains below v = true ∧ v ≠ .null
  objects : ∃ part next, p.objects? id = some (part, next) ∧ next.PartOf a Value.isObject part
  arrays : ∃ part next, p.arrays? id = some (part, next) ∧ next.PartOf a Value.isArray part
  truthy : ∃ other next b, p.truthy? id = some (other, next) ∧ next.term? other = some b ∧
    ∀ below v,
      (a.contains below v = true → v.isTruthy = true → b.contains below v = true) ∧
      (b.contains below v = true → a.contains below v = true) ∧
      (a.isBasic .float = false → a.isBasic .string = false →
        b.contains below v = true → v.isTruthy = true)

end Pool

namespace Registry
open TypeExpr (wrapTimes)

/-- Picking a part out of a type leaves those of its values that are of the sort in question. -/
theorem partOf_of_rel {next : Pool} {a : TypeTerm NameId} {sort : Value NameId → Bool}
    {part : Option TypeId} {tree : Option (TypeTerm NameId)}
    (stored : Option.Rel (fun id b => next.term? id = some b) part tree)
    (picked : ∀ b, tree = some b → ∀ below v,
      b.contains below v = (sort v && a.contains below v))
    (nothing : tree = none → ∀ below v, a.contains below v = true → sort v = false) :
    next.PartOf a sort part := by
  cases stored with
  | none => exact nothing rfl
  | some known =>
    refine ⟨_, known, ?_⟩
    intro below v
    rw [picked _ rfl, Bool.and_eq_true, and_comm]

theorem relatesAs_of_term? {reg : Registry} (closed : Closed reg) {id : TypeId}
    {a : TypeTerm NameId} (stored : reg.pool.term? id = some a) : reg.pool.RelatesAs id a := by
  constructor
  case withNull =>
    obtain ⟨other, next, found, _, _, held⟩ := withNullable?_stored closed stored true
    exact ⟨other, next, _, found, held, fun _ => a.contains_withNullable_true_iff⟩
  case withoutNull =>
    obtain ⟨other, next, found, _, _, held⟩ := withNullable?_stored closed stored false
    exact ⟨other, next, _, found, held, fun _ => a.contains_withNullable_false_iff⟩
  case objects =>
    obtain ⟨part, next, found, held⟩ := derivePart?_stored closed stored
      (fun _ level => Pool.unfolds_objects? level) (fun _ _ => Shape.canonical_objects?)
    refine ⟨part, next, found, partOf_of_rel held ?_ ?_⟩
    · exact fun _ picked _ v => TypeTerm.contains_objects? picked v
    · exact fun absent _ _ => TypeTerm.isObject_of_objects?_none absent
  case arrays =>
    obtain ⟨part, next, found, held⟩ := derivePart?_stored closed stored
      (fun _ level => Pool.unfolds_arrays? level) (fun _ _ => Shape.canonical_arrays?)
    refine ⟨part, next, found, partOf_of_rel held ?_ ?_⟩
    · exact fun _ picked _ v => TypeTerm.contains_arrays? picked v
    · exact fun absent _ _ => TypeTerm.isArray_of_arrays?_none absent
  case truthy =>
    obtain ⟨other, next, found, _, _, held⟩ := derive?_stored closed stored
      (fun _ level => Pool.unfolds_truthy level) Shape.canonical_truthy
    refine ⟨other, next, _, found, held, ?_⟩
    intro below v
    refine ⟨TypeTerm.contains_truthy_of_isTruthy, TypeTerm.contains_of_contains_truthy, ?_⟩
    intro narrow narrow' member
    rw [TypeTerm.contains_truthy narrow narrow', Bool.and_eq_true] at member
    exact member.1

/-- The types related to a type have the values that their names promise: those of the type with
null or without it, its objects, its arrays and its truthy values. Only of floats and strings the
truthy part keeps more. -/
theorem related_types_denote {reg : Registry} (reached : Reachable reg) {id : TypeId}
    (known : reg.pool.Knows id) :
    ∃ a, reg.pool.term? id = some a ∧ reg.pool.RelatesAs id a := by
  have closed := reachable_closed reached
  obtain ⟨a, stored⟩ := term?_of_knows closed known
  exact ⟨a, stored, relatesAs_of_term? closed stored⟩

/-- What is truthy among lists of users is a list that has one. -/
theorem truthy_lists_of_users_have_users :
    let user := empty.internClass "User"
    let users := wrapTimes false .int 1 user
    let name := (empty.internName "User").1
    ∃ other next b, users.2.pool.truthy? users.1 = some (other, next) ∧
      next.term? other = some b ∧ b.contains sameClass (.array []) = false ∧
      b.contains sameClass (.array [(.int 0, .object name)]) = true := by
  intro user users name
  have reached : Reachable user.2 := reachable_internClass .fresh (by decide)
  have single := term?_internClass empty_closed "User"
  obtain ⟨reached', _, stored⟩ := wrapTimes_stored reached single false .int 1
  obtain ⟨a, known, relates⟩ := related_types_denote reached' (Pool.shape?_of_term? stored)
  cases stored.symm.trans known
  obtain ⟨other, next, b, found, held, values⟩ := relates.truthy
  refine ⟨other, next, b, found, held, ?_, ?_⟩
  · rw [← Bool.not_eq_true]
    intro member
    have truth := (values sameClass (.array [])).2.2 rfl rfl member
    cases truth
  · refine (values sameClass (.array [(.int 0, .object name)])).1 ?_ rfl
    simp [TypeTerm.wrapped, TypeTerm.contains, ArrayKey.allows, name]

end Registry
end TypeLattice
