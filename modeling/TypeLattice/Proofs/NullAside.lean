import TypeLattice.Proofs.Narrowing
import TypeLattice.Proofs.Overlap
import TypeLattice.Proofs.Terms.Projection

/-!
Casts that leave null aside. They do not see whether null was added to a type or taken away from it,
even where that changes the kind of the type. The exceptions are sources that speak of null as their
kind. A source without null has nothing to leave aside, so such a cast is the cast.
-/
namespace TypeLattice

namespace TypeTerm
variable {ν : Type}

section Levels
variable (a b : TypeTerm ν) (nullable : Bool)

@[simp] theorem allowsTruthy_withNullable :
    (a.withNullable nullable).allowsTruthy = a.allowsTruthy := by
  have same := a.shape.allowsTruthy_withNullable nullable
  rw [← shape_ofShape (a.shape.withNullable nullable)] at same
  exact same

@[simp] theorem takesAsMixed?_withNullable :
    (b.withNullable nullable).takesAsMixed? a = b.takesAsMixed? a := by
  cases b with
  | basic flag d => cases d <;> cases nullable <;> rfl
  | instanceOf | array => cases nullable <;> rfl

/-- Adding null leads from `never` to `null` and taking it away leads back, and nothing else leads
there. -/
theorem isBasic_null_or_never_withNullable :
    ((b.withNullable nullable).isBasic .null || (b.withNullable nullable).isBasic .never) =
      (b.isBasic .null || b.isBasic .never) := by
  cases b with
  | basic flag d => cases d <;> cases nullable <;> rfl
  | instanceOf | array => cases nullable <;> rfl

end Levels

variable (r : CastRules ν) {a : TypeTerm ν}

theorem castBasic_withNullable {c : BasicKind} (notNull : c ≠ .null) (flag : Bool) (b : TypeTerm ν)
    (nullable : Bool) :
    castBasic r flag c (b.withNullable nullable) = castBasic r flag c b := by
  have mixed := takesAsMixed?_withNullable (basic flag c) b nullable
  cases c with
  | null => exact absurd rfl notNull
  | mixed | never => rfl
  | nonEmptyMixed | nonNullNonEmptyMixed => exact b.allowsTruthy_withNullable nullable
  | nonNullMixed =>
    have same := b.isBasic_null_or_never_withNullable nullable
    simp only [castBasic, ← Bool.not_or, same]
  | object | bool | onlyTrue | onlyFalse | int | nonZeroInt | float | string =>
    simp only [castBasic, mixed]
    cases b with
    | basic other d => cases d <;> cases nullable <;> rfl
    | instanceOf | array => cases nullable <;> rfl

variable [DecidableEq ν]

/-- What null does to the target goes unseen, unless null is all that the source has. -/
theorem castNonNull_withNullable (notNull : a.isBasic .null = false) (b : TypeTerm ν)
    (nullable : Bool) : castNonNull r a (b.withNullable nullable) = castNonNull r a b := by
  have mixed := takesAsMixed?_withNullable a b nullable
  cases a with
  | basic flag c => exact castBasic_withNullable r (beq_eq_false_iff_ne.mp notNull) flag b nullable
  | instanceOf flag name =>
    simp only [castNonNull, mixed]
    cases b with
    | basic other d => cases d <;> cases nullable <;> rfl
    | instanceOf | array => cases nullable <;> rfl
  | array flag nonEmpty key elem =>
    simp only [castNonNull, mixed]
    cases b with
    | basic other d => cases d <;> cases nullable <;> rfl
    | instanceOf | array => cases nullable <;> rfl

/-- A kind that is not settled for `null`, `never` or all values keeps its relation with every
target. -/
theorem castNonNull_of_withNullable (notMixed : a.isBasic .mixed = false)
    (notNonNull : a.isBasic .nonNullMixed = false) (notNull : a.isBasic .null = false)
    (notNever : a.isBasic .never = false) (nullable : Bool) (b : TypeTerm ν) :
    castNonNull r (a.withNullable nullable) b = castNonNull r a b := by
  cases a with
  | basic flag c =>
    cases c with
    | mixed => cases notMixed
    | nonNullMixed => cases notNonNull
    | null => cases notNull
    | never => cases notNever
    | _ => cases nullable <;> rfl
  | instanceOf flag name => rw [withNullable_instanceOf]; rfl
  | array flag nonEmpty key elem => rw [withNullable_array]; rfl

theorem cast_of_not_allowsNull (full : a.allowsNull = false) (b : TypeTerm ν) :
    cast r a b = castNonNull r a b := by
  cases a with
  | basic flag c =>
    cases c with
    | nonEmptyMixed =>
      obtain rfl : flag = false := full
      exact cast_nonEmptyMixed r b
    | null => cases full
    | mixed | nonNullMixed | nonNullNonEmptyMixed | never => rfl
    | _ => simp [cast, nullAnswer?, full]
  | instanceOf | array => simp [cast, nullAnswer?, full]

end TypeTerm

namespace Pool

theorem ne_basic_iff {p : Pool} (canonical : p.Canonical) {id : TypeId} {a : TypeTerm NameId}
    (stored : p.term? id = some a) {b : BasicKind} (inherent : b.inherentNull? ≠ none) :
    id ≠ .basic b ↔ a.isBasic b = false := by
  rw [ne_eq, eq_basic_iff canonical stored inherent, Bool.not_eq_true]

/-- Whether casts that leave null aside do not see it: not in the target, unless null is all that
the source has, not in a source that is no kind for itself, and not where there is none. -/
structure LeavesNullAside (p : Pool) (config : Option CastOptions) : Prop where
  inTarget : ∀ source target, p.Knows source → p.Knows target → source ≠ .basic .null →
    ∀ nullable, ∃ other next holds, p.withNullable? target nullable = some (other, next) ∧
      p.verdict? (.castNonNull config) source target = some holds ∧
      next.verdict? (.castNonNull config) source other = some holds
  inSource : ∀ source target, p.Knows source → p.Knows target → source ≠ .basic .mixed →
    source ≠ .basic .nonNullMixed → source ≠ .basic .null → source ≠ .basic .never →
    ∀ nullable, ∃ other next holds, p.withNullable? source nullable = some (other, next) ∧
      p.verdict? (.castNonNull config) source target = some holds ∧
      next.verdict? (.castNonNull config) other target = some holds
  absent : ∀ source target src, p.entry? source = some src → p.Knows target →
    src.flags.nullable = false →
    ∃ holds, p.verdict? (.castNonNull config) source target = some holds ∧
      p.verdict? (.cast config) source target = some holds

end Pool

namespace Registry
open TypeExpr (wrapTimes)

/-- A cast that leaves null aside gives the same answer when null is added or taken away on either
side, and without null in the source it is the cast. -/
theorem casts_leave_null_aside {reg : Registry} (reached : Reachable reg)
    (config : Option CastOptions) : reg.pool.LeavesNullAside config := by
  have closed := reachable_closed reached
  have canonical := closed.canonical
  constructor
  case inTarget =>
    intro source target known known' notNull nullable
    obtain ⟨a, left⟩ := term?_of_knows closed known
    obtain ⟨b, right⟩ := term?_of_knows closed known'
    obtain ⟨other, next, asked, canonical', grown, changed⟩ :=
      withNullable?_stored closed right nullable
    have notNull := (Pool.ne_basic_iff canonical left (b := .null) nofun).mp notNull
    refine ⟨other, next, _, asked, Pool.verdict?_of_term? canonical _ left right, ?_⟩
    rw [Pool.verdict?_of_term? canonical' _ (Pool.term?_extends grown left) changed]
    exact congrArg some (TypeTerm.castNonNull_withNullable _ notNull b nullable)
  case inSource =>
    intro source target known known' notMixed notNonNull notNull notNever nullable
    obtain ⟨a, left⟩ := term?_of_knows closed known
    obtain ⟨b, right⟩ := term?_of_knows closed known'
    obtain ⟨other, next, asked, canonical', grown, changed⟩ :=
      withNullable?_stored closed left nullable
    have same := TypeTerm.castNonNull_of_withNullable (.ofConfig config)
      ((Pool.ne_basic_iff canonical left (b := .mixed) nofun).mp notMixed)
      ((Pool.ne_basic_iff canonical left (b := .nonNullMixed) nofun).mp notNonNull)
      ((Pool.ne_basic_iff canonical left (b := .null) nofun).mp notNull)
      ((Pool.ne_basic_iff canonical left (b := .never) nofun).mp notNever) nullable b
    refine ⟨other, next, _, asked, Pool.verdict?_of_term? canonical _ left right, ?_⟩
    rw [Pool.verdict?_of_term? canonical' _ changed (Pool.term?_extends grown right)]
    exact congrArg some same
  case absent =>
    intro source target src held known' full
    obtain ⟨a, left, null, _⟩ := term?_of_entry? closed held
    obtain ⟨b, right⟩ := term?_of_knows closed known'
    rw [full] at null
    refine ⟨_, Pool.verdict?_of_term? canonical _ left right, ?_⟩
    rw [Pool.verdict?_of_term? canonical _ left right]
    exact congrArg some (TypeTerm.cast_of_not_allowsNull _ null.symm b)

theorem nullable_user_lists_flow_as_user_lists :
    let user := empty.internClass "User"
    let users := wrapTimes true .int 2 (user.1, user.2)
    Reachable users.2 ∧ ∃ other next,
      users.2.pool.withNullable? users.1 true = some (other, next) ∧
      next.verdict? (.castNonNull none) other users.1 = some true := by
  intro user users
  have single : Reachable user.2 := reachable_internClass .fresh (by decide)
  have stored := term?_internClass empty_closed "User"
  obtain ⟨reached, _, listed⟩ := wrapTimes_stored single stored true .int 2
  have canonical := (reachable_closed reached).canonical
  have known : users.2.pool.Knows users.1 := Pool.shape?_of_term? listed
  have other {b : BasicKind} (inherent : b.inherentNull? ≠ none) : users.1 ≠ .basic b :=
    (Pool.ne_basic_iff canonical listed inherent).mpr rfl
  obtain ⟨id, next, holds, asked, before, after⟩ :=
    (casts_leave_null_aside reached none).inSource users.1 users.1 known known
      (other nofun) (other nofun) (other nofun) (other nofun) true
  refine ⟨reached, id, next, asked, ?_⟩
  rw [Pool.verdict?_of_term? canonical _ listed listed, TypeTerm.verdict, TypeTerm.wrapped_succ,
    TypeTerm.castNonNull_array, TypeTerm.cast_self] at before
  rw [after, ← before]
  rfl

end Registry
end TypeLattice
