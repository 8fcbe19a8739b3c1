import TypeLattice.Proofs.Answers
import TypeLattice.Proofs.CastTable
import TypeLattice.Proofs.Terms.Widening

/-!
Options and declarations only widen. No option and no declared class makes a cast fail that holds
without it, and what is asked without options is the same under all of them. Declarations alone may
narrow: the declared cast of `non-empty-mixed` does not look at null.
-/
namespace TypeLattice
open TypeTerm (CastRules)

/-- Options that loosen at most what others do. -/
instance : LE CastOptions where
  le c c' := c.nullFlows ≤ c'.nullFlows ∧ c.scalarsFlow ≤ c'.scalarsFlow

/-- Whether two verdicts are found, of which the second holds where the first does. -/
def WidensTo (before after : Option Bool) : Prop :=
  ∃ holds holds', before = some holds ∧ after = some holds' ∧ (holds = true → holds' = true)

namespace TypeTerm.CastRules

theorem ofConfig_within {ν : Type} {c c' : CastOptions} (looser : c ≤ c') :
    (ofConfig (ν := ν) (some c)).Within (ofConfig (some c')) :=
  ⟨looser.1, looser.2, nofun⟩

theorem onTrees_within {c c' : CastOptions} (looser : c ≤ c') {resolver resolver' : Resolver}
    (more : ∀ sub sup, resolver sub sup = true → resolver' sub sup = true) :
    (Rules.onTrees ⟨some c, some resolver⟩).Within (Rules.onTrees ⟨some c', some resolver'⟩) :=
  ⟨looser.1, looser.2, fun sub sup below => Or.inr (more sub sup below)⟩

theorem ofConfig_within_onTrees (c : CastOptions) (resolver : Resolver) :
    (ofConfig (some c)).Within (Rules.onTrees ⟨some c, some resolver⟩) :=
  ⟨id, id, nofun⟩

/-- Without declarations a class is only below itself. -/
theorem onTrees_sameClass_within (c : CastOptions) :
    (Rules.onTrees ⟨some c, some sameClass⟩).Within (ofConfig (some c)) :=
  ⟨id, id, fun _ _ below => Or.inl (beq_iff_eq.mp below)⟩

end TypeTerm.CastRules

namespace Pool

theorem castAny?_widensTo {p : Pool} {r q : Rules} {source : TypeId} {targets : List TypeId}
    (each : ∀ t ∈ targets, WidensTo ((p.cast? r source t).map Answer.holds)
      ((p.cast? q source t).map Answer.holds)) :
    WidensTo (p.castAny? r source targets) (p.castAny? q source targets) := by
  choose! holds holds' before after wider using each
  refine ⟨_, _, castAny?_eq_any before, castAny?_eq_any after, ?_⟩
  rw [List.any_eq_true, List.any_eq_true]
  rintro ⟨t, member, found⟩
  exact ⟨t, member, wider t member found⟩

section Verdicts
variable {p : Pool} (canonical : p.Canonical) {source target : TypeId} {a b : TypeTerm NameId}
  (left : p.term? source = some a) (right : p.term? target = some b)
include canonical left right

theorem cast_widensTo {c c' : CastOptions} (looser : c ≤ c') :
    WidensTo (p.verdict? (.cast (some c)) source target)
      (p.verdict? (.cast (some c')) source target) :=
  ⟨_, _, verdict?_of_term? canonical _ left right, verdict?_of_term? canonical _ left right,
    TypeTerm.cast_within (CastRules.ofConfig_within looser)⟩

theorem castNonNull_widensTo {c c' : CastOptions} (looser : c ≤ c') :
    WidensTo (p.verdict? (.castNonNull (some c)) source target)
      (p.verdict? (.castNonNull (some c')) source target) :=
  ⟨_, _, verdict?_of_term? canonical _ left right, verdict?_of_term? canonical _ left right,
    TypeTerm.castNonNull_within (CastRules.ofConfig_within looser)⟩

/-- Whether the source is `non-empty-mixed` does not depend on the rules. -/
theorem castDeclared_widensTo {c c' : CastOptions} (looser : c ≤ c')
    {resolver resolver' : Resolver}
    (more : ∀ sub sup, resolver sub sup = true → resolver' sub sup = true) :
    WidensTo ((p.castDeclared? c resolver source target).map Answer.holds)
      ((p.castDeclared? c' resolver' source target).map Answer.holds) := by
  refine ⟨_, _, castDeclared?_of_term? canonical c resolver left right,
    castDeclared?_of_term? canonical c' resolver' left right, ?_⟩
  split
  · exact id
  · exact TypeTerm.cast_within (CastRules.onTrees_within looser more)

theorem cast_widensTo_castDeclared (other : a.isBasic .nonEmptyMixed = false) (c : CastOptions)
    (resolver : Resolver) :
    WidensTo (p.verdict? (.cast (some c)) source target)
      ((p.castDeclared? c resolver source target).map Answer.holds) :=
  ⟨_, _, verdict?_of_term? canonical _ left right,
    castDeclared?_of_other canonical c resolver left right other,
    TypeTerm.cast_within (CastRules.ofConfig_within_onTrees c resolver)⟩

theorem castDeclared_sameClass (other : a.isBasic .nonEmptyMixed = false) (c : CastOptions) :
    (p.castDeclared? c sameClass source target).map Answer.holds =
      p.verdict? (.cast (some c)) source target := by
  rw [castDeclared?_of_other canonical c sameClass left right other,
    verdict?_of_term? canonical (.cast (some c)) left right]
  refine congrArg some (Bool.eq_iff_iff.mpr ⟨?_, ?_⟩)
  · exact TypeTerm.cast_within (CastRules.onTrees_sameClass_within c)
  · exact TypeTerm.cast_within (CastRules.ofConfig_within_onTrees c sameClass)

end Verdicts

/-- What options and declared classes do to the casts between the types of a pool. -/
structure OnlyWidens (p : Pool) : Prop where
  casts : ∀ source target, p.Knows source → p.Knows target → ∀ c c', c ≤ c' →
    WidensTo (p.verdict? (.cast (some c)) source target)
      (p.verdict? (.cast (some c')) source target)
  nonNullCasts : ∀ source target, p.Knows source → p.Knows target → ∀ c c', c ≤ c' →
    WidensTo (p.verdict? (.castNonNull (some c)) source target)
      (p.verdict? (.castNonNull (some c')) source target)
  anyCasts : ∀ source targets, p.Knows source → (∀ t ∈ targets, p.Knows t) → ∀ c c', c ≤ c' →
    WidensTo (p.castAny? ⟨some c, none⟩ source targets) (p.castAny? ⟨some c', none⟩ source targets)
  strictCasts : ∀ source target, p.Knows source → p.Knows target →
    p.verdict? (.cast (some .strict)) source target = p.verdict? (.cast none) source target
  strictNonNullCasts : ∀ source target, p.Knows source → p.Knows target →
    p.verdict? (.castNonNull (some .strict)) source target =
      p.verdict? (.castNonNull none) source target
  declaredCasts : ∀ source target, p.Knows source → p.Knows target →
    ∀ (c c' : CastOptions) (resolver resolver' : Resolver), c ≤ c' →
      (∀ sub sup, resolver sub sup = true → resolver' sub sup = true) →
      WidensTo ((p.castDeclared? c resolver source target).map Answer.holds)
        ((p.castDeclared? c' resolver' source target).map Answer.holds)
  declarations : ∀ source target s, p.shape? source = some s → p.Knows target →
    s.kind ≠ .basic .nonEmptyMixed →
    ∀ c, (∀ resolver, WidensTo (p.verdict? (.cast (some c)) source target)
        ((p.castDeclared? c resolver source target).map Answer.holds)) ∧
      (p.castDeclared? c sameClass source target).map Answer.holds =
        p.verdict? (.cast (some c)) source target

end Pool

namespace Registry

/-- Questions that do not differ on trees. -/
theorem verdict?_congr {reg : Registry} (closed : Closed reg) {source target : TypeId}
    (known : reg.pool.Knows source) (known' : reg.pool.Knows target) {q q' : Question}
    (same : ∀ a b : TypeTerm NameId, a.verdict q b = a.verdict q' b) :
    reg.pool.verdict? q source target = reg.pool.verdict? q' source target := by
  obtain ⟨a, left⟩ := term?_of_knows closed known
  obtain ⟨b, right⟩ := term?_of_knows closed known'
  rw [Pool.verdict?_of_term? closed.canonical q left right,
    Pool.verdict?_of_term? closed.canonical q' left right, same]

theorem closed_onlyWidens {reg : Registry} (closed : Closed reg) : reg.pool.OnlyWidens := by
  constructor
  case casts =>
    intro source target known known' c c' looser
    obtain ⟨a, left⟩ := term?_of_knows closed known
    obtain ⟨b, right⟩ := term?_of_knows closed known'
    exact Pool.cast_widensTo closed.canonical left right looser
  case nonNullCasts =>
    intro source target known known' c c' looser
    obtain ⟨a, left⟩ := term?_of_knows closed known
    obtain ⟨b, right⟩ := term?_of_knows closed known'
    exact Pool.castNonNull_widensTo closed.canonical left right looser
  case anyCasts =>
    intro source targets known all c c' looser
    obtain ⟨a, left⟩ := term?_of_knows closed known
    apply Pool.castAny?_widensTo
    intro t member
    obtain ⟨b, right⟩ := term?_of_knows closed (all t member)
    exact Pool.cast_widensTo closed.canonical left right looser
  case strictCasts =>
    intro source target known known'
    exact verdict?_congr closed known known' fun a b => rfl
  case strictNonNullCasts =>
    intro source target known known'
    exact verdict?_congr closed known known' fun a b => rfl
  case declaredCasts =>
    intro source target known known' c c' resolver resolver' looser more
    obtain ⟨a, left⟩ := term?_of_knows closed known
    obtain ⟨b, right⟩ := term?_of_knows closed known'
    exact Pool.castDeclared_widensTo closed.canonical left right looser more
  case declarations =>
    intro source target s known known' kind c
    obtain ⟨a, left⟩ := term?_of_knows closed ⟨s, known⟩
    obtain ⟨b, right⟩ := term?_of_knows closed known'
    obtain ⟨_, same, shows⟩ := Pool.shows_of_term? left
    cases known.symm.trans same
    have other : a.isBasic .nonEmptyMixed = false := by
      rw [← Bool.not_eq_true, ← Shape.kind_eq_basic_of_shows shows]
      exact kind
    exact ⟨Pool.cast_widensTo_castDeclared closed.canonical left right other c,
      Pool.castDeclared_sameClass closed.canonical left right other c⟩

/-- Options and declarations only widen, and the columns of a cast table that leave the options out
say the same under all of them. -/
theorem options_only_widen {reg : Registry} (reached : Reachable reg) :
    reg.pool.OnlyWidens ∧
      ∀ source target, reg.pool.Knows source → reg.pool.Knows target →
        ∃ strict nonNullStrict, ∀ c resolver, ∃ row,
          (Build.castRow c resolver source target).run.run reg = (.ok row, reg) ∧
          row.Tells reg.pool c resolver source target ∧
          row.strict = strict ∧ row.nonNullStrict = nonNullStrict := by
  have closed := reachable_closed reached
  refine ⟨closed_onlyWidens closed, ?_⟩
  intro source target known known'
  obtain ⟨first, _, told⟩ := castRow_tells closed .strict sameClass known known'
  refine ⟨first.strict, first.nonNullStrict, ?_⟩
  intro c resolver
  obtain ⟨row, found, tells⟩ := castRow_tells closed c resolver known known'
  refine ⟨row, found, tells, ?_, ?_⟩
  · exact Option.some.inj (tells.strict.symm.trans told.strict)
  · exact Option.some.inj (tells.nonNullStrict.symm.trans told.nonNullStrict)

theorem int_lists_remain_float_lists :
    let ints := TypeExpr.wrapTimes true .int 1 (.basic .int, empty)
    let floats := TypeExpr.wrapTimes false .mixed 1 (.basic .float, ints.2)
    ∀ c, CastOptions.strict ≤ c → floats.2.pool.Casts (some c) ints.1 floats.1 := by
  intro ints floats c looser
  have fixed (b : BasicKind) : empty.pool.term? (.basic b) = some (.basic false b) :=
    Pool.term?_eq_basic.mpr rfl
  obtain ⟨reached, _, left, right⟩ :=
    wrapTimes_both .fresh (fixed .int) (fixed .float) true false .int .mixed 1 1
  have strictly : floats.2.pool.Casts (some .strict) ints.1 floats.1 :=
    (Pool.casts_iff (reachable_closed reached).canonical _ left right).mpr rfl
  obtain ⟨holds, holds', before, after, wider⟩ := (options_only_widen reached).1.casts ints.1
    floats.1 (Pool.shape?_of_term? left) (Pool.shape?_of_term? right) .strict c looser
  have yes : holds = true := Option.some.inj (before.symm.trans strictly)
  exact after.trans (congrArg some (wider yes))

end Registry
end TypeLattice
