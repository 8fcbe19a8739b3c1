import TypeLattice.Proofs.Terms.Cast

/-!
Casts from trees without mixed kinds and without `object`. Such a cast lets null through and is an
arrow of one of a few forms. Among trees of this sort arrows compose, so casts are transitive, and
under strict rules two trees that cast to each other are equal.
-/
namespace TypeLattice

namespace BasicKind

theorem isScalar_of_widens {b c : BasicKind} (scalar : b.isScalar = true)
    (widens : b.widens c = true) : c.isScalar = true := by
  cases b <;> cases scalar <;> cases c <;> cases widens <;> rfl

theorem widens_trans {b c d : BasicKind} (first : b.widens c = true)
    (second : c.widens d = true) : b.widens d = true := by
  cases b <;> cases c <;> cases first <;> cases d <;> cases second <;> rfl

theorem widens_antisymm {b c : BasicKind} (forth : b.widens c = true)
    (back : c.widens b = true) : b = c := by
  cases b <;> cases c <;> cases forth <;> cases back <;> rfl

end BasicKind

namespace ArrayKey

theorem admits_trans {low middle high : ArrayKey} (first : middle.admits low = true)
    (second : high.admits middle = true) : high.admits low = true := by
  cases middle <;> cases low <;> cases first <;> cases high <;> cases second <;> rfl

theorem admits_antisymm {key other : ArrayKey} (forth : other.admits key = true)
    (back : key.admits other = true) : key = other := by
  cases key <;> cases other <;> cases forth <;> cases back <;> rfl

end ArrayKey

namespace TypeTerm
variable {ν : Type}

def basics : TypeTerm ν → List BasicKind
  | basic _ b => [b]
  | instanceOf _ _ => []
  | array _ _ _ elem => elem.basics

/-- Whether neither a mixed kind nor `object` occurs in a type. -/
def Plain (a : TypeTerm ν) : Prop := ∀ b ∈ a.basics, b.isMixed = false ∧ b ≠ .object

theorem plain_basic {nullable : Bool} {b : BasicKind}
    (plain : (basic nullable b : TypeTerm ν).Plain) : b.isMixed = false ∧ b ≠ .object :=
  plain b (List.mem_singleton_self b)

theorem kind_of_plain_basic {nullable : Bool} {b : BasicKind}
    (plain : (basic nullable b : TypeTerm ν).Plain) :
    b = .never ∨ b = .null ∨ b.isScalar = true := by
  obtain ⟨pure, noObject⟩ := plain_basic plain
  cases b with
  | never => exact .inl rfl
  | null => exact .inr (.inl rfl)
  | object => exact absurd rfl noObject
  | mixed | nonNullMixed | nonEmptyMixed | nonNullNonEmptyMixed => cases pure
  | bool | onlyTrue | onlyFalse | int | nonZeroInt | float | string => exact .inr (.inr rfl)

theorem isMixed_of_plain {a : TypeTerm ν} (plain : a.Plain) : a.kind.isMixed = false := by
  cases a with
  | basic nullable b => exact (plain_basic plain).1
  | instanceOf | array => rfl

theorem takesAsMixed?_of_plain {a b : TypeTerm ν} (plain : b.Plain) : b.takesAsMixed? a = none := by
  cases b with
  | basic nullable c =>
    have pure := (plain_basic plain).1
    cases c <;> cases pure <;> rfl
  | instanceOf | array => rfl

namespace CastRules
variable {r : CastRules ν} {b c d : BasicKind}

/-- Whether a scalar kind may flow into another kind. -/
def ScalarFlows (r : CastRules ν) (b c : BasicKind) : Prop :=
  b.widens c = true ∨ (r.scalarsFlow = true ∧ c.isScalar = true)

theorem isScalar_of_flows (scalar : b.isScalar = true) (flows : r.ScalarFlows b c) :
    c.isScalar = true := by
  rcases flows with widens | ⟨_, target⟩
  · exact BasicKind.isScalar_of_widens scalar widens
  · exact target

theorem scalarFlows_trans (scalar : b.isScalar = true) (first : r.ScalarFlows b c)
    (second : r.ScalarFlows c d) : r.ScalarFlows b d := by
  have target := isScalar_of_flows (isScalar_of_flows scalar first) second
  rcases first with widens | ⟨flows, _⟩
  · rcases second with widens' | flows
    · exact Or.inl (BasicKind.widens_trans widens widens')
    · exact Or.inr flows
  · exact Or.inr ⟨flows, target⟩

end CastRules

section Arrows
variable [DecidableEq ν]

/-- The ways in which a cast from a type that is neither mixed nor `object` holds, once null has
been dealt with. -/
inductive Arrow (r : CastRules ν) : TypeTerm ν → TypeTerm ν → Prop where
  | never (nullable : Bool) (b : TypeTerm ν) : Arrow r (basic nullable .never) b
  | null (nullable : Bool) {b : TypeTerm ν} (passes : b.allowsNull = true ∨ r.nullFlows = true) :
      Arrow r (basic nullable .null) b
  | mixed {a b : TypeTerm ν} (full : a.isBasic .null = false)
      (takes : b.takesAsMixed? a = some true) : Arrow r a b
  | scalar (nullable nullable' : Bool) {c d : BasicKind} (scalar : c.isScalar = true)
      (flows : r.ScalarFlows c d) :
      Arrow r (basic nullable c) (basic nullable' d)
  | object (nullable nullable' : Bool) (name : ν) :
      Arrow r (instanceOf nullable name) (basic nullable' .object)
  | instanceOf (nullable nullable' : Bool) {sub sup : ν}
      (below : sub = sup ∨ r.below sub sup = true) :
      Arrow r (instanceOf nullable sub) (instanceOf nullable' sup)
  | array (nullable nullable' : Bool) {nonEmpty nonEmpty' : Bool} {key key' : ArrayKey}
      {elem elem' : TypeTerm ν} (filled : nonEmpty' = true → nonEmpty = true)
      (admits : key'.admits key = true) (inner : cast r elem elem' = true) :
      Arrow r (array nullable nonEmpty key elem) (array nullable' nonEmpty' key' elem')

variable {r : CastRules ν} {a b : TypeTerm ν}

theorem arrow_of_scalar {nullable : Bool} {c : BasicKind} (scalar : c.isScalar = true)
    (holds : castNonNull r (basic nullable c) b = true) : Arrow r (basic nullable c) b := by
  rw [castNonNull, castBasic_scalar r scalar] at holds
  cases takes : b.takesAsMixed? (basic nullable c) with
  | some answer =>
    rw [takes] at holds
    refine Arrow.mixed ?_ (takes.trans (congrArg some holds))
    cases c <;> cases scalar <;> rfl
  | none =>
    rw [takes] at holds
    cases b with
    | basic nullable' d =>
      refine Arrow.scalar nullable nullable' scalar ?_
      simpa [CastRules.ScalarFlows] using holds
    | instanceOf | array => cases holds

theorem arrow_of_instanceOf {nullable : Bool} {sub : ν}
    (holds : castNonNull r (instanceOf nullable sub) b = true) :
    Arrow r (instanceOf nullable sub) b := by
  cases b with
  | basic nullable' d =>
    cases d with
    | mixed | nonNullMixed | nonEmptyMixed | nonNullNonEmptyMixed => exact Arrow.mixed rfl rfl
    | object => exact Arrow.object nullable nullable' sub
    | _ => cases holds
  | instanceOf nullable' sup =>
    refine Arrow.instanceOf nullable nullable' ?_
    rw [castNonNull_instanceOf] at holds
    simpa using holds
  | array => cases holds

theorem arrow_of_array {nullable nonEmpty : Bool} {key : ArrayKey} {elem : TypeTerm ν}
    (holds : castNonNull r (array nullable nonEmpty key elem) b = true) :
    Arrow r (array nullable nonEmpty key elem) b := by
  cases b with
  | basic nullable' d =>
    cases d with
    | mixed | nonNullMixed | nonEmptyMixed | nonNullNonEmptyMixed => exact Arrow.mixed rfl rfl
    | _ => cases holds
  | instanceOf => cases holds
  | array nullable' nonEmpty' key' elem' =>
    rw [castNonNull_array, Bool.and_eq_true, Bool.and_eq_true] at holds
    obtain ⟨⟨filled, admits⟩, inner⟩ := holds
    refine Arrow.array nullable nullable' ?_ admits inner
    intro required
    simpa [required] using filled

theorem arrow_of_castNonNull (plain : a.Plain) (holds : castNonNull r a b = true) :
    Arrow r a b := by
  cases a with
  | basic nullable c =>
    obtain rfl | rfl | scalar := kind_of_plain_basic plain
    · exact Arrow.never nullable b
    · refine Arrow.null nullable ?_
      simpa [castNonNull, castBasic, or_comm] using holds
    · exact arrow_of_scalar scalar holds
  | instanceOf nullable sub => exact arrow_of_instanceOf holds
  | array nullable nonEmpty key elem => exact arrow_of_array holds

theorem castNonNull_of_arrow (arrow : Arrow r a b) (plain : b.Plain) :
    castNonNull r a b = true := by
  have takes := takesAsMixed?_of_plain (a := a) plain
  cases arrow with
  | never => rfl
  | null nullable passes => simpa [castNonNull, castBasic, or_comm] using passes
  | mixed _ held =>
    cases takes.symm.trans held
  | scalar nullable nullable' scalar flows =>
    rw [castNonNull, castBasic_scalar r scalar, takes]
    simpa [CastRules.ScalarFlows] using flows
  | object => rfl
  | instanceOf nullable nullable' below =>
    rw [castNonNull_instanceOf]
    simpa using below
  | @array nullable nullable' nonEmpty nonEmpty' _ _ _ _ filled admits inner =>
    rw [castNonNull_array, admits, inner]
    cases nonEmpty' with
    | false => simp
    | true => simp [filled rfl]

theorem cast_eq_true_iff (plain : a.Plain) :
    cast r a b = true ↔
      (a.allowsNull = true → b.allowsNull = true ∨ r.nullFlows = true) ∧
        castNonNull r a b = true :=
  cast_eq_true_iff_of_plain (isMixed_of_plain plain)

/-! ### Transitivity -/

section Composition
variable {c : TypeTerm ν} (plain : a.Plain) (plain' : b.Plain) (plain'' : c.Plain)
include plain' plain''

/-- Arrows compose when the casts between the elements of arrays do. -/
theorem arrow_trans
    (below : ∀ x y z, r.below x y = true → r.below y z = true → r.below x z = true)
    (null : b.allowsNull = true → c.allowsNull = true ∨ r.nullFlows = true)
    (elements : ∀ nullable nonEmpty key x, a = array nullable nonEmpty key x →
      ∀ y z, y.Plain → z.Plain → cast r x y = true → cast r y z = true → cast r x z = true)
    (first : Arrow r a b) (second : Arrow r b c) : Arrow r a c := by
  cases first with
  | never nullable => exact Arrow.never nullable c
  | null nullable passes =>
    refine Arrow.null nullable ?_
    rcases passes with taken | flows
    · exact null taken
    · exact Or.inr flows
  | mixed _ takes => cases (takesAsMixed?_of_plain plain').symm.trans takes
  | scalar nullable nullable' scalar flows =>
    have middle := CastRules.isScalar_of_flows scalar flows
    cases second with
    | never | null => cases middle
    | mixed _ takes => cases (takesAsMixed?_of_plain plain'').symm.trans takes
    | scalar _ nullable'' _ flows' =>
      exact Arrow.scalar nullable nullable'' scalar (CastRules.scalarFlows_trans scalar flows flows')
  | object => exact absurd rfl (plain_basic plain').2
  | @instanceOf nullable nullable' sub sup under =>
    cases second with
    | mixed _ takes => cases (takesAsMixed?_of_plain plain'').symm.trans takes
    | object => exact absurd rfl (plain_basic plain'').2
    | instanceOf _ nullable'' under' =>
      refine Arrow.instanceOf nullable nullable'' ?_
      rcases under with rfl | under
      · exact under'
      · rcases under' with rfl | under'
        · exact Or.inr under
        · exact Or.inr (below _ _ _ under under')
  | @array nullable nullable' nonEmpty nonEmpty' key key' elem elem' filled admits inner =>
    cases second with
    | mixed _ takes => cases (takesAsMixed?_of_plain plain'').symm.trans takes
    | @array _ nullable'' _ _ _ _ _ elem'' filled' admits' inner' =>
      refine Arrow.array nullable nullable'' ?_ (ArrayKey.admits_trans admits admits') ?_
      · intro required
        exact filled (filled' required)
      · exact elements _ _ _ _ rfl elem' elem'' plain' plain'' inner inner'

include plain

theorem cast_trans_of_elements
    (below : ∀ x y z, r.below x y = true → r.below y z = true → r.below x z = true)
    (elements : ∀ nullable nonEmpty key x, a = array nullable nonEmpty key x →
      ∀ y z, y.Plain → z.Plain → cast r x y = true → cast r y z = true → cast r x z = true)
    (first : cast r a b = true) (second : cast r b c = true) : cast r a c = true := by
  obtain ⟨null, holds⟩ := (cast_eq_true_iff plain).mp first
  obtain ⟨null', holds'⟩ := (cast_eq_true_iff plain').mp second
  refine (cast_eq_true_iff plain).mpr ⟨?_, ?_⟩
  · intro taken
    rcases null taken with taken' | flows
    · exact null' taken'
    · exact Or.inr flows
  · have arrow := arrow_of_castNonNull plain holds
    have arrow' := arrow_of_castNonNull plain' holds'
    exact castNonNull_of_arrow (arrow_trans plain' plain'' below null' elements arrow arrow') plain''

end Composition

theorem cast_trans
    (below : ∀ x y z, r.below x y = true → r.below y z = true → r.below x z = true)
    {c : TypeTerm ν} (plain : a.Plain) (plain' : b.Plain) (plain'' : c.Plain)
    (first : cast r a b = true) (second : cast r b c = true) : cast r a c = true := by
  induction a generalizing b c with
  | basic | instanceOf => exact cast_trans_of_elements plain plain' plain'' below nofun first second
  | array nullable nonEmpty key elem ih =>
    refine cast_trans_of_elements plain plain' plain'' below ?_ first second
    rintro _ _ _ _ ⟨⟩ y z left right
    exact ih plain left right

/-! ### Antisymmetry -/

omit [DecidableEq ν] in
theorem flag_eq_of_settled {nullable nullable' : Bool} {k : BasicKind}
    (settled : (basic nullable k : TypeTerm ν).FlagsSettled)
    (settled' : (basic nullable' k : TypeTerm ν).FlagsSettled)
    (null : (basic nullable k : TypeTerm ν).allowsNull =
      (basic nullable' k : TypeTerm ν).allowsNull) : nullable = nullable' := by
  have down {flag answer : Bool} (settled : (basic flag k : TypeTerm ν).FlagsSettled)
      (inherent : k.inherentNull? = some answer) : flag = false := by
    cases flag with
    | false => rfl
    | true => exact absurd ((settled rfl).symm.trans inherent) nofun
  cases inherent : k.inherentNull? with
  | none =>
    have own (flag : Bool) : (basic flag k : TypeTerm ν).allowsNull = flag := by
      cases k <;> first | rfl | cases inherent
    rw [← own nullable, null, own]
  | some answer => rw [down settled inherent, down settled' inherent]

omit [DecidableEq ν] in
theorem not_flows {k l : BasicKind} {r : CastRules ν} (scalar : k.isScalar = true)
    (other : l.isScalar = false) : ¬ r.ScalarFlows k l := by
  intro flows
  rw [CastRules.isScalar_of_flows scalar flows] at other
  cases other

theorem kind_eq_of_arrows {nullable : Bool} {k : BasicKind} {b : TypeTerm ν}
    (plain : (basic nullable k : TypeTerm ν).Plain) (plain' : b.Plain)
    (null : (basic nullable k : TypeTerm ν).allowsNull = b.allowsNull)
    (forth : Arrow (.ofConfig none) (basic nullable k) b)
    (back : Arrow (.ofConfig none) b (basic nullable k)) : ∃ nullable', b = basic nullable' k := by
  cases forth with
  | never =>
    cases back with
    | never nullable' => exact ⟨nullable', rfl⟩
    | null nullable' => cases null
    | mixed _ takes => cases takes
    | scalar _ _ scalar flows => exact absurd flows (not_flows scalar rfl)
  | null =>
    cases back with
    | never => cases null
    | null nullable' => exact ⟨nullable', rfl⟩
    | mixed _ takes => cases takes
    | scalar _ _ scalar flows => exact absurd flows (not_flows scalar rfl)
  | mixed _ takes => cases (takesAsMixed?_of_plain plain').symm.trans takes
  | scalar _ nullable' scalar flows =>
    cases back with
    | never | null => exact absurd flows (not_flows scalar rfl)
    | mixed _ takes => cases (takesAsMixed?_of_plain plain).symm.trans takes
    | scalar _ _ _ flows' =>
      have widens := flows.resolve_right fun free => nomatch free.1
      have widens' := flows'.resolve_right fun free => nomatch free.1
      rw [BasicKind.widens_antisymm widens widens']
      exact ⟨nullable', rfl⟩

theorem arrows_of_casts {a b : TypeTerm ν} (plain : a.Plain) (plain' : b.Plain)
    (forth : cast (.ofConfig none) a b = true) (back : cast (.ofConfig none) b a = true) :
    a.allowsNull = b.allowsNull ∧ Arrow (.ofConfig none) a b ∧ Arrow (.ofConfig none) b a := by
  obtain ⟨null, holds⟩ := (cast_eq_true_iff plain).mp forth
  obtain ⟨null', holds'⟩ := (cast_eq_true_iff plain').mp back
  refine ⟨?_, arrow_of_castNonNull plain holds, arrow_of_castNonNull plain' holds'⟩
  rw [Bool.eq_iff_iff]
  constructor
  · intro taken
    exact (null taken).resolve_right nofun
  · intro taken
    exact (null' taken).resolve_right nofun

/-- Without a configuration and without a resolver, trees that cast to each other are equal. -/
theorem cast_antisymm {a b : TypeTerm ν} (plain : a.Plain) (plain' : b.Plain)
    (settled : a.FlagsSettled) (settled' : b.FlagsSettled)
    (forth : cast (.ofConfig none) a b = true) (back : cast (.ofConfig none) b a = true) :
    a = b := by
  induction a generalizing b with
  | basic nullable k =>
    obtain ⟨null, arrow, arrow'⟩ := arrows_of_casts plain plain' forth back
    obtain ⟨nullable', rfl⟩ := kind_eq_of_arrows plain plain' null arrow arrow'
    rw [flag_eq_of_settled settled settled' null]
  | instanceOf nullable name =>
    obtain ⟨null, arrow, _⟩ := arrows_of_casts plain plain' forth back
    cases arrow with
    | mixed _ takes => cases (takesAsMixed?_of_plain plain').symm.trans takes
    | object => exact absurd rfl (plain_basic plain').2
    | instanceOf _ nullable' below =>
      have flag : nullable = nullable' := null
      rcases below with rfl | below
      · rw [flag]
      · cases below
  | array nullable nonEmpty key elem ih =>
    obtain ⟨null, arrow, arrow'⟩ := arrows_of_casts plain plain' forth back
    cases arrow with
    | mixed _ takes => cases (takesAsMixed?_of_plain plain').symm.trans takes
    | @array _ nullable' _ nonEmpty' _ key' _ elem' filled admits inner =>
      cases arrow' with
      | mixed _ takes => cases (takesAsMixed?_of_plain plain).symm.trans takes
      | array _ _ filled' admits' inner' =>
        have flag : nullable = nullable' := null
        have full : nonEmpty = nonEmpty' := Bool.eq_iff_iff.mpr ⟨filled', filled⟩
        rw [flag, full, ArrayKey.admits_antisymm admits admits',
          ih (b := elem') plain plain' settled settled' inner inner']

end Arrows
end TypeTerm
end TypeLattice
