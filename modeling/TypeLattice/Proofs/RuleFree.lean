import TypeLattice.Proofs.Outcomes
import TypeLattice.Proofs.Overlap

/-!
Types that no rule has a say in: the mixed kinds, `never`, and arrays without null around them. A cast
from such a type stops at a mixed kind or at `never`, and meets neither a scalar nor a class nor a
null to let through. Neither the options nor a resolver can change what it answers.
-/
namespace TypeLattice

namespace TypeTerm
variable {ν : Type}

def RuleFree : TypeTerm ν → Prop
  | basic _ b => b.isMixed = true ∨ b = .never
  | instanceOf _ _ => False
  | array nullable _ _ elem => nullable = false ∧ elem.RuleFree

section Casts
variable (r r' : CastRules ν) {a : TypeTerm ν} (free : a.RuleFree) (b : TypeTerm ν)
include free

theorem nullAnswer?_of_ruleFree : nullAnswer? r a b = nullAnswer? r' a b := by
  cases a with
  | basic nullable c =>
    obtain mixed | rfl := free
    · cases c <;> first | rfl | cases mixed
    · rfl
  | instanceOf => exact free.elim
  | array nullable nonEmpty key elem =>
    obtain ⟨rfl, _⟩ := free
    rfl

variable [DecidableEq ν]

theorem castNonNull_of_ruleFree : castNonNull r a b = castNonNull r' a b := by
  induction a generalizing b with
  | basic nullable c =>
    obtain mixed | rfl := free
    · cases c <;> first | rfl | cases mixed
    · rfl
  | instanceOf => exact free.elim
  | array nullable nonEmpty key elem ih =>
    cases b with
    | basic flag d => cases d <;> rfl
    | instanceOf => rfl
    | array flag nonEmpty' key' elem' =>
      rw [castNonNull_array, castNonNull_array, cast, cast, nullAnswer?_of_ruleFree r r' free.2,
        ih free.2]

/-- Two sets of rules give a rule-free source the same answer, at every depth. -/
theorem cast_of_ruleFree : cast r a b = cast r' a b := by
  rw [cast, cast, nullAnswer?_of_ruleFree r r' free, castNonNull_of_ruleFree r r' free]

end Casts

section AllTruthy
variable {a : TypeTerm ν} (kind : (a.isBasic .nonEmptyMixed || a.isBasic .nonNullNonEmptyMixed) = true)
include kind

theorem eq_basic_of_allTruthy : ∃ nullable c, a = basic nullable c ∧
    (c = .nonEmptyMixed ∨ c = .nonNullNonEmptyMixed) := by
  cases a with
  | basic nullable c =>
    rw [Bool.or_eq_true] at kind
    exact ⟨nullable, c, rfl, kind.imp beq_iff_eq.mp beq_iff_eq.mp⟩
  | instanceOf | array => cases kind

variable [DecidableEq ν] (b : TypeTerm ν)

theorem castNonNull_of_allTruthy (r : CastRules ν) : castNonNull r a b = b.allowsTruthy := by
  obtain ⟨nullable, c, rfl, rfl | rfl⟩ := eq_basic_of_allTruthy kind <;> rfl

theorem overlaps_of_allTruthy : a.overlaps b = b.allowsTruthy := by
  obtain ⟨nullable, c, rfl, rfl | rfl⟩ := eq_basic_of_allTruthy kind <;> exact overlaps_of_mixed rfl

end AllTruthy

end TypeTerm

namespace Pool

theorem isBasic_nonEmptyMixed_iff {p : Pool} (canonical : p.Canonical) {id : TypeId}
    {a : TypeTerm NameId} (stored : p.term? id = some a) :
    a.isBasic .nonEmptyMixed = true ↔ id = .basic .nonEmptyMixed ∨ id = .nullableNonEmptyMixed := by
  have bare : id = .basic .nonEmptyMixed ↔ a = .basic false .nonEmptyMixed :=
    term?_eq_iff canonical stored (term?_eq_basic.mpr rfl)
  rw [bare, eq_nullableNonEmptyMixed_iff canonical stored]
  constructor
  · intro mixed
    cases a with
    | basic nullable b =>
      obtain rfl : b = .nonEmptyMixed := beq_iff_eq.mp mixed
      cases nullable with
      | false => exact Or.inl rfl
      | true => exact Or.inr rfl
    | instanceOf | array => cases mixed
  · rintro (rfl | rfl) <;> rfl

/-- The types of all truthy values, with null beside them or without. -/
def allTruthy : List TypeId :=
  [.basic .nonEmptyMixed, .nullableNonEmptyMixed, .basic .nonNullNonEmptyMixed]

section AllTruthy
variable {p : Pool} (canonical : p.Canonical) {id other : TypeId} {a b : TypeTerm NameId}
  (left : p.term? id = some a)
include canonical left

theorem mem_allTruthy_iff :
    id ∈ allTruthy ↔ (a.isBasic .nonEmptyMixed || a.isBasic .nonNullNonEmptyMixed) = true := by
  rw [Bool.or_eq_true, isBasic_nonEmptyMixed_iff canonical left,
    ← eq_basic_iff canonical left (c := .nonNullNonEmptyMixed) nofun, or_assoc]
  simp only [allTruthy, List.mem_cons, List.not_mem_nil, or_false]

theorem verdicts_of_allTruthy (right : p.term? other = some b) (kind : id ∈ allTruthy) :
    (∀ config, p.verdict? (.castNonNull config) id other = some b.allowsTruthy) ∧
      p.verdict? .overlap id other = some b.allowsTruthy ∧
      p.verdict? .overlap other id = some b.allowsTruthy := by
  have all := (mem_allTruthy_iff canonical left).mp kind
  have meets := TypeTerm.overlaps_of_allTruthy all b
  refine ⟨?_, ?_, ?_⟩
  · intro config
    rw [verdict?_of_term? canonical _ left right]
    exact congrArg some (TypeTerm.castNonNull_of_allTruthy all b _)
  · rw [verdict?_of_term? canonical _ left right]
    exact congrArg some meets
  · rw [verdict?_of_term? canonical _ right left, TypeTerm.verdict, TypeTerm.overlaps_comm]
    exact congrArg some meets

end AllTruthy

/-- A mixed kind or `never`, inside any number of arrays without null. -/
inductive RuleFree (p : Pool) : TypeId → Prop where
  | leaf {id : TypeId} {b : BasicKind} {nullable : Bool}
      (known : p.shape? id = some ⟨.basic b, nullable⟩) (kind : b.isMixed = true ∨ b = .never) :
      RuleFree p id
  | array {id elem : TypeId} {nonEmpty : Bool} {key : ArrayKey}
      (known : p.shape? id = some ⟨.array nonEmpty key elem, false⟩) (inner : RuleFree p elem) :
      RuleFree p id

variable {p : Pool}

theorem entry?_of_ruleFree {id : TypeId} (free : p.RuleFree id) : ∃ e, p.entry? id = some e := by
  cases free with
  | leaf known | array known =>
    obtain ⟨e, held, _⟩ := Option.map_eq_some_iff.mp known
    exact ⟨e, held⟩

/-- Such a type is told by its tree. -/
theorem ruleFree_iff {id : TypeId} {a : TypeTerm NameId} (stored : p.term? id = some a) :
    p.RuleFree id ↔ a.RuleFree := by
  constructor
  · intro free
    induction free generalizing a with
    | leaf known kind =>
      cases stored.symm.trans (term?_eq_basic.mpr known)
      exact kind
    | array known inner ih =>
      cases a with
      | basic nullable b => cases known.symm.trans (term?_eq_basic.mp stored)
      | instanceOf nullable name => cases known.symm.trans (term?_eq_instanceOf.mp stored)
      | array nullable nonEmpty key a =>
        obtain ⟨elem, held, _, element⟩ := term?_eq_array.mp stored
        cases known.symm.trans held
        exact ⟨rfl, ih element⟩
  · intro free
    induction a generalizing id with
    | basic nullable b => exact .leaf (term?_eq_basic.mp stored) free
    | instanceOf => exact free.elim
    | array nullable nonEmpty key a ih =>
      obtain ⟨rfl, inner⟩ := free
      obtain ⟨elem, held, _, element⟩ := term?_eq_array.mp stored
      exact .array held (ih element inner)

/-- There is no class in such a type that a resolver could be asked about. -/
theorem not_reachesClass_of_ruleFree {id : TypeId} (free : p.RuleFree id) (depth : Nat)
    (name : NameId) : ¬p.ReachesClass depth id name := by
  induction free generalizing depth with
  | leaf known =>
    rintro ⟨part, nullable, reached, shape⟩
    cases depth with
    | zero =>
      cases reached
      cases known.symm.trans shape
    | succ depth =>
      rw [inside?, elem?, known] at reached
      cases reached
  | array known inner ih =>
    rintro ⟨part, nullable, reached, shape⟩
    cases depth with
    | zero =>
      cases reached
      cases known.symm.trans shape
    | succ depth =>
      rw [inside?, elem?, known] at reached
      exact ih depth ⟨part, nullable, reached, shape⟩

end Pool

namespace Registry
open TypeExpr (wrapTimes)

theorem castDeclared?_of_ruleFree {reg : Registry} (closed : Closed reg) (config : CastOptions)
    {source target : TypeId} {src dst : Entry} (known : reg.pool.entry? source = some src)
    (known' : reg.pool.entry? target = some dst) (free : reg.pool.RuleFree source) :
    ∃ holds, ∀ resolver,
      reg.pool.castDeclared? config resolver source target = some (.settled holds) := by
  obtain ⟨o, concerns, declared, _⟩ := castDeclared?_comesTo closed config known known'
  cases o with
  | settled holds => exact ⟨holds, declared⟩
  | depends sub sup =>
    obtain ⟨_, depth, left, _⟩ := concerns
    exact absurd left (Pool.not_reachesClass_of_ruleFree free depth sub)

/-- No rule has a say in the casts of a rule-free type, and the declared cast asks nothing. Only where
null stands beside all truthy values do the two differ. From the types of all truthy values it is
truthiness that decides everything else. -/
theorem rule_free_casts_ignore_rules {reg : Registry} (reached : Reachable reg)
    {source target : TypeId} {dst : Entry} (free : reg.pool.RuleFree source)
    (known' : reg.pool.entry? target = some dst) :
    ∃ holds declared,
      (∀ config, reg.pool.verdict? (.cast config) source target = some holds) ∧
      (∀ config resolver,
        reg.pool.castDeclared? config resolver source target = some (.settled declared)) ∧
      (source ≠ .basic .nonEmptyMixed → source ≠ .nullableNonEmptyMixed → declared = holds) ∧
      (source ∈ Pool.allTruthy →
        (∀ config, reg.pool.verdict? (.castNonNull config) source target =
          some dst.flags.possiblyTruthy) ∧
        reg.pool.verdict? .overlap source target = some dst.flags.possiblyTruthy ∧
        reg.pool.verdict? .overlap target source = some dst.flags.possiblyTruthy) := by
  have closed := reachable_closed reached
  have canonical := closed.canonical
  obtain ⟨src, known⟩ := Pool.entry?_of_ruleFree free
  obtain ⟨a, left, _, _⟩ := term?_of_entry? closed known
  obtain ⟨b, right, _, truthy⟩ := term?_of_entry? closed known'
  have bare : a.RuleFree := (Pool.ruleFree_iff left).mp free
  refine ⟨TypeTerm.cast (.ofConfig none) a b,
    if a.isBasic .nonEmptyMixed then b.allowsTruthy else TypeTerm.cast (.ofConfig none) a b,
    ?_, ?_, ?_, ?_⟩
  · intro config
    rw [Pool.verdict?_of_term? canonical _ left right]
    exact congrArg some (TypeTerm.cast_of_ruleFree _ _ bare b)
  · intro config resolver
    obtain ⟨holds, declared⟩ := castDeclared?_of_ruleFree closed config known known' free
    have verdict := Pool.castDeclared?_of_term? canonical config resolver left right
    rw [declared resolver, TypeTerm.cast_of_ruleFree _ (.ofConfig none) bare] at verdict
    rw [declared resolver, ← Option.some.inj verdict]
    rfl
  · intro notMixed notNullable
    rw [if_neg]
    intro mixed
    rcases (Pool.isBasic_nonEmptyMixed_iff canonical left).mp mixed with same | same
    · exact notMixed same
    · exact notNullable same
  · intro kind
    rw [truthy]
    exact Pool.verdicts_of_allTruthy canonical left right kind

theorem lists_of_truthy_flow_into_user_lists :
    let user := empty.internClass "User"
    let sources := wrapTimes true .int 2 (.basic .nonEmptyMixed, user.2)
    let targets := wrapTimes false .mixed 2 (user.1, sources.2)
    targets.2.pool.RuleFree sources.1 ∧ ∀ config resolver,
      targets.2.pool.castDeclared? config resolver sources.1 targets.1 = some (.settled true) := by
  intro user sources targets
  have single : Reachable user.2 := reachable_internClass .fresh (by decide)
  have leaf : user.2.pool.term? (.basic .nonEmptyMixed) = some (.basic false .nonEmptyMixed) :=
    Pool.term?_eq_basic.mpr rfl
  obtain ⟨reached, _, left, right⟩ := wrapTimes_both single leaf
    (term?_internClass empty_closed "User") true false .int .mixed 2 2
  have canonical := (reachable_closed reached).canonical
  have free : targets.2.pool.RuleFree sources.1 :=
    (Pool.ruleFree_iff left).mpr ⟨rfl, rfl, Or.inl rfl⟩
  obtain ⟨t, known, _⟩ := Pool.shows_of_term? right
  obtain ⟨holds, declared, casts, settled, same, _⟩ :=
    rule_free_casts_ignore_rules reached free (Pool.entry?_of_shape? canonical known)
  have other : ¬(sources.1 = .basic .nonEmptyMixed ∨ sources.1 = .nullableNonEmptyMixed) := by
    rw [← Pool.isBasic_nonEmptyMixed_iff canonical left]
    nofun
  rw [not_or] at other
  have verdict := casts none
  rw [Pool.verdict?_of_term? canonical _ left right] at verdict
  obtain rfl : true = holds := Option.some.inj verdict
  rw [same other.1 other.2] at settled
  exact ⟨free, settled⟩

end Registry
end TypeLattice
