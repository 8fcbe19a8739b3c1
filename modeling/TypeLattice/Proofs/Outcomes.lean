import TypeLattice.Proofs.CastLaws
import TypeLattice.Proofs.Registry.Building

/-!
Casts and their resolver. A cast comes down to a verdict or to one question about two different
classes that stand equally deep in the two types. Which of the two it is does not depend on the
resolver, and the answer to the question is the verdict.
-/
namespace TypeLattice

/-- What a cast comes down to before a resolver is asked. -/
inductive Outcome where
  | settled (holds : Bool)
  | depends (sub sup : NameId)
  deriving DecidableEq, Repr

namespace Outcome

def answer (r : Rules) : Outcome → Answer
  | settled holds => .settled holds
  | depends sub sup => r.relate sub sup

end Outcome

namespace Rules

theorem compareNull_resolver (config : Option CastOptions) (resolver : Option Resolver) :
    compareNull ⟨config, resolver⟩ = compareNull ⟨config, none⟩ := rfl

theorem compare_resolver (config : Option CastOptions) (resolver : Option Resolver) :
    compare ⟨config, resolver⟩ = compare ⟨config, none⟩ := rfl

/-- One level of two types leaves nothing open, or two different classes, or the elements of two
arrays. -/
theorem compare_cases (r : Rules) (source target : Entry) :
    (∃ holds, r.compare source target = .settled holds) ∨
    (∃ sub sup, r.compare source target = .classes sub sup ∧ sub ≠ sup ∧
      source.shape.kind = .instanceOf sub ∧ target.shape.kind = .instanceOf sup) ∨
    ∃ elem elem', r.compare source target = .elements elem elem' ∧
      (∃ nonEmpty key, source.shape.kind = .array nonEmpty key elem) ∧
      ∃ nonEmpty key, target.shape.kind = .array nonEmpty key elem' := by
  obtain ⟨⟨kind, nullable⟩, flags⟩ := source
  obtain ⟨⟨kind', nullable'⟩, flags'⟩ := target
  cases kind with
  | basic b =>
    left
    cases kind' with
    | basic c => cases b <;> cases c <;> exact ⟨_, rfl⟩
    | instanceOf | array => cases b <;> exact ⟨_, rfl⟩
  | instanceOf sub =>
    cases kind' with
    | basic c => left; cases c <;> exact ⟨_, rfl⟩
    | array => exact Or.inl ⟨_, rfl⟩
    | instanceOf sup =>
      by_cases same : sub = sup
      · exact Or.inl ⟨true, if_pos same⟩
      · exact Or.inr (Or.inl ⟨sub, sup, if_neg same, same, rfl, rfl⟩)
  | array nonEmpty key elem =>
    cases kind' with
    | basic c => left; cases c <;> exact ⟨_, rfl⟩
    | instanceOf => exact Or.inl ⟨_, rfl⟩
    | array nonEmpty' key' elem' =>
      by_cases fits : ((nonEmpty || !nonEmpty') && key'.admits key) = true
      · exact Or.inr (Or.inr ⟨elem, elem', if_pos fits, ⟨_, _, rfl⟩, _, _, rfl⟩)
      · exact Or.inl ⟨false, if_neg fits⟩

end Rules

namespace Pool

/-- The type that is met `depth` arrays further in. -/
def inside? (p : Pool) : Nat → TypeId → Option TypeId
  | 0, id => some id
  | depth + 1, id => (p.elem? id).join.bind (p.inside? depth)

/-- Whether a class is met `depth` arrays further in. -/
def ReachesClass (p : Pool) (depth : Nat) (id : TypeId) (name : NameId) : Prop :=
  ∃ part nullable, p.inside? depth id = some part ∧
    p.shape? part = some ⟨.instanceOf name, nullable⟩

theorem reachesClass_succ {p : Pool} {depth : Nat} {id elem : TypeId} {name : NameId}
    {nonEmpty nullable : Bool} {key : ArrayKey}
    (known : p.shape? id = some ⟨.array nonEmpty key elem, nullable⟩)
    (inner : p.ReachesClass depth elem name) : p.ReachesClass (depth + 1) id name := by
  obtain ⟨part, flag, reached, shape⟩ := inner
  refine ⟨part, flag, ?_, shape⟩
  rw [inside?, elem?, known]
  exact reached

/-- Whether an outcome leaves at most a question about different classes, equally deep in two
types. -/
def Concerns (p : Pool) (source target : TypeId) : Outcome → Prop
  | .settled _ => True
  | .depends sub sup =>
    sub ≠ sup ∧ ∃ depth, p.ReachesClass depth source sub ∧ p.ReachesClass depth target sup

/-- Whether a cast comes down to an outcome, whatever resolver there is. -/
def ComesTo (p : Pool) (config : Option CastOptions) (whole : Bool) (source target : TypeId)
    (o : Outcome) : Prop :=
  ∀ resolver, p.castFrom? ⟨config, resolver⟩ whole source target =
    some (o.answer ⟨config, resolver⟩)

/-- A cast comes down to what its outermost level does, unless it is settled before. -/
theorem comesTo_of_level {p : Pool} {config : Option CastOptions} {source target : TypeId}
    {src dst : Entry} (known : p.entry? source = some src) (known' : p.entry? target = some dst)
    {o : Outcome} (concerns : p.Concerns source target o)
    (level : ∀ resolver, p.castLevel? ⟨config, resolver⟩ source
      (Rules.compare ⟨config, none⟩ src dst) = some (o.answer ⟨config, resolver⟩))
    (whole : Bool) :
    ∃ o, p.ComesTo config whole source target o ∧ p.Concerns source target o := by
  by_cases same : (whole && source == target) = true
  · refine ⟨.settled true, ?_, trivial⟩
    intro resolver
    rw [castFrom?_of_entries known known', if_pos same]
    rfl
  · cases null : if whole then Rules.compareNull ⟨config, none⟩ src dst else none with
    | some holds =>
      refine ⟨.settled holds, ?_, trivial⟩
      intro resolver
      rw [castFrom?_of_entries known known', if_neg same, Rules.compareNull_resolver, null]
      rfl
    | none =>
      refine ⟨o, ?_, concerns⟩
      intro resolver
      rw [castFrom?_of_entries known known', if_neg same, Rules.compareNull_resolver, null,
        Rules.compare_resolver]
      exact level resolver

end Pool

namespace Registry

/-- In a closed registry every cast comes down to something: the elements that it descends to are
stored, and older than the arrays. -/
theorem castFrom?_comesTo {reg : Registry} (closed : Closed reg) (config : Option CastOptions)
    {source target : TypeId} {src dst : Entry} (known : reg.pool.entry? source = some src)
    (known' : reg.pool.entry? target = some dst) (whole : Bool) :
    ∃ o, reg.pool.ComesTo config whole source target o ∧ reg.pool.Concerns source target o := by
  -- on the age of the source, which falls with every array that is entered
  induction age : source.age using Nat.strongRecOn generalizing source target src dst whole with
  | ind n ih =>
    obtain ⟨holds, level⟩ | ⟨sub, sup, level, different, left, right⟩ |
        ⟨elem, elem', level, ⟨nonEmpty, key, left⟩, nonEmpty', key', right⟩ :=
      Rules.compare_cases ⟨config, none⟩ src dst
    · refine Pool.comesTo_of_level known known' (o := .settled holds) trivial ?_ whole
      intro resolver
      rw [level]
      rfl
    · have shape := Pool.shape?_of_kind known left
      have shape' := Pool.shape?_of_kind known' right
      refine Pool.comesTo_of_level known known' (o := .depends sub sup) ?_ ?_ whole
      · exact ⟨different, 0, ⟨source, _, rfl, shape⟩, target, _, rfl, shape'⟩
      · intro resolver
        rw [level]
        rfl
    · have shape := Pool.shape?_of_kind known left
      have shape' := Pool.shape?_of_kind known' right
      have older := closed.older _ _ _ _ _ shape
      obtain ⟨s, part⟩ := closed.parts _ _ shape
      obtain ⟨t, part'⟩ := closed.parts _ _ shape'
      have stored := Pool.entry?_of_shape? closed.canonical part
      have stored' := Pool.entry?_of_shape? closed.canonical part'
      obtain ⟨o, comes, concerns⟩ := ih elem.age (age ▸ older) stored stored' true rfl
      refine Pool.comesTo_of_level known known' (o := o) ?_ ?_ whole
      · cases o with
        | settled holds => trivial
        | depends sub sup =>
          obtain ⟨different, depth, inner, inner'⟩ := concerns
          exact ⟨different, depth + 1, Pool.reachesClass_succ shape inner,
            Pool.reachesClass_succ shape' inner'⟩
      · intro resolver
        rw [level]
        exact (if_pos older).trans (comes resolver)

/-- A declared cast from `non-empty-mixed` is settled by truthiness, and any other is a cast. -/
theorem castDeclared?_comesTo {reg : Registry} (closed : Closed reg) (config : CastOptions)
    {source target : TypeId} {src dst : Entry} (known : reg.pool.entry? source = some src)
    (known' : reg.pool.entry? target = some dst) :
    ∃ o, reg.pool.Concerns source target o ∧
      (∀ resolver, reg.pool.castDeclared? config resolver source target =
        some (o.answer ⟨some config, some resolver⟩)) ∧
      if src.shape.kind = .basic .nonEmptyMixed then o = .settled dst.flags.possiblyTruthy
      else reg.pool.ComesTo (some config) true source target o := by
  by_cases truthy : src.shape.kind = .basic .nonEmptyMixed
  · refine ⟨.settled dst.flags.possiblyTruthy, trivial, ?_, ?_⟩
    · intro resolver
      rw [Pool.castDeclared?, known, known']
      exact if_pos truthy
    · rw [if_pos truthy]
  · obtain ⟨o, comes, concerns⟩ := castFrom?_comesTo closed (some config) known known' true
    refine ⟨o, concerns, ?_, ?_⟩
    · intro resolver
      rw [Pool.castDeclared?, known]
      exact (if_neg truthy).trans (comes resolver)
    · rw [if_neg truthy]
      exact comes

/-- A declared cast asks its resolver at most once, about two different classes that depend on the
types alone, and the answer is the verdict. Without a question the verdict is the one of the plain
cast, or of truthiness where the source is `non-empty-mixed`. -/
theorem declared_casts_ask_once {reg : Registry} (reached : Reachable reg) (config : CastOptions)
    {source target : TypeId} {src dst : Entry} (known : reg.pool.entry? source = some src)
    (known' : reg.pool.entry? target = some dst) :
    ∃ asked : List (NameId × NameId), asked.length ≤ 1 ∧
      (∀ sub sup, asked = [(sub, sup)] → sub ≠ sup ∧
        ∃ depth, reg.pool.ReachesClass depth source sub ∧ reg.pool.ReachesClass depth target sup) ∧
      ∀ resolver, ∃ holds,
        reg.pool.castDeclared? config resolver source target = some ⟨holds, asked⟩ ∧
        (∀ sub sup, asked = [(sub, sup)] → holds = resolver sub sup) ∧
        (asked = [] →
          if src.shape.kind = .basic .nonEmptyMixed then holds = dst.flags.possiblyTruthy
          else reg.pool.verdict? (.cast (some config)) source target = some holds) := by
  obtain ⟨o, concerns, declared, plain⟩ :=
    castDeclared?_comesTo (reachable_closed reached) config known known'
  cases o with
  | depends sub sup =>
    refine ⟨[(sub, sup)], le_rfl, ?_, ?_⟩
    · rintro _ _ ⟨⟩
      exact concerns
    · intro resolver
      refine ⟨resolver sub sup, declared resolver, ?_, nofun⟩
      rintro _ _ ⟨⟩
      rfl
  | settled holds =>
    refine ⟨[], Nat.zero_le 1, nofun, ?_⟩
    intro resolver
    refine ⟨holds, declared resolver, nofun, ?_⟩
    intro _
    by_cases truthy : src.shape.kind = .basic .nonEmptyMixed
    · rw [if_pos truthy] at plain ⊢
      cases plain
      rfl
    · rw [if_neg truthy] at plain ⊢
      rw [Pool.verdict?, Pool.cast?, plain none]
      rfl

theorem nested_lists_ask_about_their_classes :
    let admin := empty.internClass "Admin"
    let user := admin.2.internClass "User"
    let admins := TypeExpr.wrapTimes true .int 2 (admin.1, user.2)
    let users := TypeExpr.wrapTimes false .mixed 2 (user.1, admins.2)
    ∃ sub sup, sub ≠ sup ∧ ∀ resolver,
      users.2.pool.castDeclared? .strict resolver admins.1 users.1 =
        some ⟨resolver sub sup, [(sub, sup)]⟩ := by
  intro admin user admins users
  obtain ⟨reached, low, high, apart, left, right⟩ :=
    internClass_apart .fresh "Admin" "User" (by decide) (by decide) (by decide)
  obtain ⟨whole, _, source, target⟩ := wrapTimes_both reached left right true false .int .mixed 2 2
  have canonical := (reachable_closed whole).canonical
  obtain ⟨elem, known, _⟩ := Pool.term?_eq_array.mp source
  obtain ⟨elem', known', _⟩ := Pool.term?_eq_array.mp target
  obtain ⟨asked, short, between, answers⟩ := declared_casts_ask_once whole .strict
    (Pool.entry?_of_shape? canonical known) (Pool.entry?_of_shape? canonical known')
  -- a resolver that agrees to everything is believed, so there was a question
  rcases asked with _ | ⟨⟨sub, sup⟩, _ | _⟩
  · obtain ⟨holds, declared, _, plain⟩ := answers fun _ _ => true
    have structural (r : TypeTerm.CastRules NameId) :
        TypeTerm.cast r ((TypeTerm.instanceOf false low).wrapped true .int 2)
          ((TypeTerm.instanceOf false high).wrapped false .mixed 2) =
            (decide (low = high) || r.below low high) := rfl
    have agreed := Pool.castDeclared?_of_term? canonical .strict (fun _ _ => true) source target
    have refused := Pool.verdict?_of_term? canonical (.cast (some .strict)) source target
    rw [declared, if_neg nofun, structural, decide_eq_false apart] at agreed
    rw [TypeTerm.verdict, structural, decide_eq_false apart] at refused
    have yes : holds = true := Option.some.inj agreed
    have no : holds = false := Option.some.inj ((plain rfl).symm.trans refused)
    cases yes.symm.trans no
  · refine ⟨sub, sup, (between sub sup rfl).1, ?_⟩
    intro resolver
    obtain ⟨holds, declared, verdict, _⟩ := answers resolver
    rw [declared, verdict sub sup rfl]
  · exact absurd short (by simp)

end Registry
end TypeLattice
