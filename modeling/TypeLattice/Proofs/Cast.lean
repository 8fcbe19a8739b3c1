import TypeLattice.Cast.Overlap
import TypeLattice.Proofs.Reachable
import TypeLattice.Proofs.Registry.Trees
import TypeLattice.Proofs.Terms.Cast

/-!
Casts between stored types are casts between their trees. The pool takes two shortcuts that the
trees do not have, identical types and stored flags; the first is sound because every tree casts to
itself, and the second because a canonical pool stores the flags of the shape.
-/
namespace TypeLattice
open TypeTerm (castNonNull castBasic nullAnswer?)

namespace Rules

/-- The rules of a question, as rules about trees. -/
def onTrees (r : Rules) : TypeTerm.CastRules NameId where
  nullFlows := r.nullFlows
  scalarsFlow := r.scalarsFlow
  below sub sup := r.resolver.any fun resolver => resolver sub sup

theorem relate_holds (r : Rules) (sub sup : NameId) :
    (r.relate sub sup).holds = r.onTrees.below sub sup := by
  obtain ⟨config, _ | resolver⟩ := r <;> rfl

end Rules

/-- A shape that agrees with a tree at the outermost level. -/
inductive Shape.Shows : TypeShape → TypeTerm NameId → Prop where
  | basic (nullable : Bool) (b : BasicKind) : Shows ⟨.basic b, nullable⟩ (.basic nullable b)
  | instanceOf (nullable : Bool) (name : NameId) :
      Shows ⟨.instanceOf name, nullable⟩ (.instanceOf nullable name)
  | array (nullable nonEmpty : Bool) (key : ArrayKey) (elem : TypeId) (a : TypeTerm NameId) :
      Shows ⟨.array nonEmpty key elem, nullable⟩ (.array nullable nonEmpty key a)

namespace Shape
variable {s : TypeShape} {a : TypeTerm NameId} (shows : s.Shows a)
include shows

theorem flags_of_shows : s.flags = a.shape.flags := by
  cases shows with
  | basic _ b => cases b <;> rfl
  | instanceOf => rfl
  | array _ nonEmpty => cases nonEmpty <;> rfl

theorem allowsNull_of_shows : s.allowsNull = a.allowsNull :=
  congrArg Flags.nullable (flags_of_shows shows)

theorem allowsTruthy_of_shows : s.kind.allowsTruthy = a.allowsTruthy :=
  congrArg Flags.possiblyTruthy (flags_of_shows shows)

end Shape

theorem Pool.shows_of_term? {p : Pool} {id : TypeId} {a : TypeTerm NameId}
    (stored : p.term? id = some a) : ∃ s, p.shape? id = some s ∧ s.Shows a := by
  cases a with
  | basic nullable b => exact ⟨_, term?_eq_basic.mp stored, .basic nullable b⟩
  | instanceOf nullable name => exact ⟨_, term?_eq_instanceOf.mp stored, .instanceOf nullable name⟩
  | array nullable nonEmpty key a =>
    obtain ⟨elem, known, _, _⟩ := term?_eq_array.mp stored
    exact ⟨_, known, .array nullable nonEmpty key elem a⟩

/-- The flags that are stored with a type are those of its tree. -/
theorem Registry.term?_of_entry? {reg : Registry} (closed : Closed reg) {id : TypeId} {e : Entry}
    (known : reg.pool.entry? id = some e) :
    ∃ a, reg.pool.term? id = some a ∧ e.flags.nullable = a.allowsNull ∧
      e.flags.possiblyTruthy = a.allowsTruthy := by
  obtain ⟨a, stored⟩ := term?_of_shape? closed (Pool.shape?_of_held known)
  obtain ⟨s, held, shows⟩ := Pool.shows_of_term? stored
  cases known.symm.trans (Pool.entry?_of_shape? closed.canonical held)
  exact ⟨a, stored, Shape.allowsNull_of_shows shows, Shape.allowsTruthy_of_shows shows⟩

namespace Rules
variable (r : Rules) {s t : TypeShape} {a b : TypeTerm NameId}

theorem compareNull_shows (left : s.Shows a) (right : t.Shows b) :
    r.compareNull (.of s) (.of t) = nullAnswer? r.onTrees a b := by
  have null := Shape.allowsNull_of_shows right
  have truthy := Shape.allowsTruthy_of_shows right
  cases left with
  | basic _ c =>
    cases c <;>
      simp only [compareNull, Entry.of, Shape.flags, null, truthy, nullAnswer?] <;> rfl
  | instanceOf => simp only [compareNull, Entry.of, Shape.flags, null, nullAnswer?]; rfl
  | array => simp only [compareNull, Entry.of, Shape.flags, null, nullAnswer?]; rfl

theorem compare_basic {nullable : Bool} {c : BasicKind} (right : t.Shows b) :
    r.compare (.of ⟨.basic c, nullable⟩) (.of t) = .settled (castBasic r.onTrees nullable c b) := by
  cases right with
  | basic _ d => cases c <;> cases d <;> rfl
  | instanceOf | array => cases c <;> rfl

theorem compare_instanceOf (sub sup : NameId) (nullable nullable' : Bool) :
    r.compare (.of ⟨.instanceOf sub, nullable⟩) (.of ⟨.instanceOf sup, nullable'⟩) =
      if sub = sup then .settled true else .classes sub sup := rfl

theorem compare_array (nonEmpty nonEmpty' : Bool) (key key' : ArrayKey) (elem elem' : TypeId)
    (nullable nullable' : Bool) :
    r.compare (.of ⟨.array nonEmpty key elem, nullable⟩)
        (.of ⟨.array nonEmpty' key' elem', nullable'⟩) =
      if (nonEmpty || !nonEmpty') && key'.admits key then .elements elem elem'
      else .settled false := rfl

end Rules

namespace Pool

/-- What a cast makes of the comparison of the outermost level. -/
def castLevel? (p : Pool) (r : Rules) (source : TypeId) : Comparison → Option Answer
  | .settled holds => some (.settled holds)
  | .classes sub sup => some (r.relate sub sup)
  | .elements elem elem' => if elem.age < source.age then p.castFrom? r true elem elem' else none

theorem castFrom?_of_entries {p : Pool} {source target : TypeId} {src dst : Entry}
    (known : p.entry? source = some src) (known' : p.entry? target = some dst) (r : Rules)
    (whole : Bool) :
    p.castFrom? r whole source target =
      if whole && source == target then some (.settled true)
      else match if whole then r.compareNull src dst else none with
        | some holds => some (.settled holds)
        | none => p.castLevel? r source (r.compare src dst) := by
  rw [castFrom?, known, known']
  rfl

section Casts
variable {p : Pool} (canonical : p.Canonical) (r : Rules)
include canonical

/-- A cast gives the answer of its structure unless the types are identical or null settles it. -/
theorem castFrom?_of_level {source target : TypeId} {a b : TypeTerm NameId} {s t : TypeShape}
    (left : p.term? source = some a) (right : p.term? target = some b)
    (known : p.shape? source = some s) (known' : p.shape? target = some t)
    (shows : s.Shows a) (shows' : t.Shows b)
    (level : (p.castLevel? r source (r.compare (.of s) (.of t))).map Answer.holds =
      some (castNonNull r.onTrees a b)) (whole : Bool) :
    (p.castFrom? r whole source target).map Answer.holds =
      some (if whole then TypeTerm.cast r.onTrees a b else castNonNull r.onTrees a b) := by
  rw [castFrom?_of_entries (entry?_of_shape? canonical known) (entry?_of_shape? canonical known')]
  cases whole with
  | false => exact level
  | true =>
    by_cases same : source = target
    · subst same
      cases left.symm.trans right
      simp only [beq_self_eq_true, Bool.and_self, ↓reduceIte, TypeTerm.cast_self]
      rfl
    · have different : (true && source == target) = false := by simp [same]
      rw [different, TypeTerm.cast, ← Rules.compareNull_shows r shows shows']
      simp only [Bool.false_eq_true, ↓reduceIte]
      cases r.compareNull (.of s) (.of t) with
      | some holds => rfl
      | none => exact level

theorem castFrom?_of_term? {source target : TypeId} {a b : TypeTerm NameId}
    (left : p.term? source = some a) (right : p.term? target = some b) (whole : Bool) :
    (p.castFrom? r whole source target).map Answer.holds =
      some (if whole then TypeTerm.cast r.onTrees a b else castNonNull r.onTrees a b) := by
  obtain ⟨t, known', shows'⟩ := shows_of_term? right
  induction a generalizing source target b t whole with
  | basic nullable c =>
    refine castFrom?_of_level canonical r left right (term?_eq_basic.mp left) known'
      (.basic nullable c) shows' ?_ whole
    rw [r.compare_basic shows']
    rfl
  | instanceOf nullable sub =>
    refine castFrom?_of_level canonical r left right (term?_eq_instanceOf.mp left) known'
      (.instanceOf nullable sub) shows' ?_ whole
    cases shows' with
    | basic _ d => cases d <;> rfl
    | instanceOf _ sup =>
      rw [Rules.compare_instanceOf, TypeTerm.castNonNull_instanceOf]
      by_cases same : sub = sup
      · rw [if_pos same, decide_eq_true same]
        rfl
      · rw [if_neg same, decide_eq_false same, Bool.false_or, ← Rules.relate_holds]
        rfl
    | array => rfl
  | array nullable nonEmpty key a ih =>
    obtain ⟨elem, known, older, inner⟩ := term?_eq_array.mp left
    refine castFrom?_of_level canonical r left right known known'
      (.array nullable nonEmpty key elem a) shows' ?_ whole
    cases shows' with
    | basic _ d => cases d <;> rfl
    | instanceOf => rfl
    | array nullable' nonEmpty' key' elem' b =>
      obtain ⟨part, same, _, inner'⟩ := term?_eq_array.mp right
      cases known'.symm.trans same
      obtain ⟨_, held, shows⟩ := shows_of_term? inner'
      rw [Rules.compare_array, TypeTerm.castNonNull_array]
      cases (nonEmpty || !nonEmpty') && key'.admits key with
      | false => rfl
      | true =>
        simp only [↓reduceIte, castLevel?, if_pos older, Bool.true_and]
        exact ih inner inner' true _ held shows

end Casts

end Pool

/-! ### Overlap -/

namespace Shape
variable {s : TypeShape} {a : TypeTerm NameId} (shows : s.Shows a)
include shows

theorem kind_eq_basic_of_shows (b : BasicKind) : s.kind = .basic b ↔ a.isBasic b = true := by
  cases shows with
  | basic _ c => simp [TypeTerm.isBasic]
  | instanceOf | array => simp [TypeTerm.isBasic]

theorem isMixed_of_shows : s.kind.isMixed = a.kind.isMixed :=
  congrArg Flags.isMixed (flags_of_shows shows)

end Shape

theorem mixedMeets_shows {s t : TypeShape} {a b : TypeTerm NameId} (left : s.Shows a)
    (right : t.Shows b) : (Entry.of s).mixedMeets (.of t) = a.mixedMeets b := by
  have truthy := Shape.allowsTruthy_of_shows right
  have differs (c : BasicKind) : (t.kind != .basic c) = !b.isBasic c := by
    rw [Bool.eq_iff_iff, bne_iff_ne, Bool.not_eq_true', ← Bool.not_eq_true, ne_eq,
      Shape.kind_eq_basic_of_shows right]
  cases left with
  | basic _ c =>
    cases c <;>
      simp only [Entry.mixedMeets, Entry.of, Shape.flags, truthy, differs, TypeTerm.mixedMeets]
  | instanceOf | array => simp only [Entry.mixedMeets, Entry.of, differs, TypeTerm.mixedMeets]

namespace Pool
variable {p : Pool} (canonical : p.Canonical)
include canonical

theorem overlaps?_of_term? {id other : TypeId} {a b : TypeTerm NameId}
    (left : p.term? id = some a) (right : p.term? other = some b) :
    p.overlaps? id other = some (a.overlaps b) := by
  obtain ⟨s, known, shows⟩ := shows_of_term? left
  obtain ⟨t, known', shows'⟩ := shows_of_term? right
  have never : (Entry.of s).shape.kind = .basic .never ↔ a.isBasic .never = true :=
    Shape.kind_eq_basic_of_shows shows .never
  have never' : (Entry.of t).shape.kind = .basic .never ↔ b.isBasic .never = true :=
    Shape.kind_eq_basic_of_shows shows' .never
  have null : (Entry.of s).flags.nullable = a.allowsNull := Shape.allowsNull_of_shows shows
  have null' : (Entry.of t).flags.nullable = b.allowsNull := Shape.allowsNull_of_shows shows'
  have mixed : (Entry.of s).shape.kind.isMixed = a.kind.isMixed := Shape.isMixed_of_shows shows
  have mixed' : (Entry.of t).flags.isMixed = b.kind.isMixed := Shape.isMixed_of_shows shows'
  have forth := castFrom?_of_term? canonical .strict left right true
  have back := castFrom?_of_term? canonical .strict right left true
  obtain ⟨⟨holds, asked⟩, answered, same⟩ := Option.map_eq_some_iff.mp forth
  have same : holds = TypeTerm.cast (.ofConfig none) a b := same
  rw [overlaps?, entry?_of_shape? canonical known, entry?_of_shape? canonical known']
  simp only [mixedMeets_shows shows shows', mixedMeets_shows shows' shows, mixed, mixed',
    null, null', never, never', TypeTerm.overlaps, cast?, answered, ← same]
  -- the second cast is only looked at when the first one fails
  cases holds with
  | true => split_ifs <;> rfl
  | false => split_ifs <;> first | rfl | exact back

end Pool

/-! ### Verdicts -/

/-- The questions about two types that need no class declarations. -/
inductive Question where
  | cast (config : Option CastOptions)
  | castNonNull (config : Option CastOptions)
  | overlap

def Pool.verdict? (p : Pool) (q : Question) (source target : TypeId) : Option Bool :=
  match q with
  | .cast config => (p.cast? ⟨config, none⟩ source target).map Answer.holds
  | .castNonNull config => (p.castNonNull? ⟨config, none⟩ source target).map Answer.holds
  | .overlap => p.overlaps? source target

def TypeTerm.verdict {ν : Type} [DecidableEq ν] (q : Question) (source target : TypeTerm ν) :
    Bool :=
  match q with
  | .cast config => TypeTerm.cast (.ofConfig config) source target
  | .castNonNull config => castNonNull (.ofConfig config) source target
  | .overlap => source.overlaps target

theorem Pool.verdict?_of_term? {p : Pool} (canonical : p.Canonical) (q : Question)
    {source target : TypeId} {a b : TypeTerm NameId} (left : p.term? source = some a)
    (right : p.term? target = some b) : p.verdict? q source target = some (a.verdict q b) := by
  cases q with
  | cast config => exact castFrom?_of_term? canonical ⟨config, none⟩ left right true
  | castNonNull config => exact castFrom?_of_term? canonical ⟨config, none⟩ left right false
  | overlap => exact overlaps?_of_term? canonical left right

theorem TypeTerm.verdict_mapNames {ν μ : Type} [DecidableEq ν] [DecidableEq μ] {f : ν → μ}
    (q : Question) {a b : TypeTerm ν}
    (injective : ∀ x ∈ a.names, ∀ y ∈ b.names, f x = f y → x = y) :
    (a.mapNames f).verdict q (b.mapNames f) = a.verdict q b := by
  have agree (config : Option CastOptions) :
      (CastRules.ofConfig config).Agree f (.ofConfig config) a b :=
    ⟨rfl, rfl, fun x left y right => ⟨⟨injective x left y right, congrArg f⟩, rfl⟩⟩
  cases q with
  | cast config => exact cast_mapNames (agree config)
  | castNonNull config => exact castNonNull_mapNames (agree config)
  | overlap => exact overlaps_mapNames injective

namespace Registry

theorem verdict?_of_tree? {reg : Registry} (closed : Closed reg) (q : Question)
    {source target : TypeId} {a b : TypeTerm String} (left : reg.tree? source = some a)
    (right : reg.tree? target = some b) :
    reg.pool.verdict? q source target = some (a.verdict q b) := by
  obtain ⟨c, stored, rfl⟩ := tree?_eq_some_iff.mp left
  obtain ⟨d, stored', rfl⟩ := tree?_eq_some_iff.mp right
  rw [TypeTerm.verdict_mapNames q (label_injective_on_terms closed stored stored')]
  exact Pool.verdict?_of_term? closed.canonical q stored stored'

/-- What casts and overlaps answer is a matter of the trees of the two types: neither the history
of the registry nor its other types have a say, and types are as different as their trees. -/
theorem verdicts_are_structural {reg : Registry} (reached : Reachable reg) {source target : TypeId}
    {s t : TypeShape} (known : reg.pool.shape? source = some s)
    (known' : reg.pool.shape? target = some t) :
    ∃ a b, reg.tree? source = some a ∧ reg.tree? target = some b ∧
      (∀ q, reg.pool.verdict? q source target = some (a.verdict q b)) ∧
      (source = target ↔ a = b) ∧
      ∀ other, Reachable other → ∀ source' target', other.tree? source' = some a →
        other.tree? target' = some b →
        ∀ q, other.pool.verdict? q source' target' = reg.pool.verdict? q source target := by
  have closed := reachable_closed reached
  obtain ⟨a, left⟩ := tree?_of_shape? closed known
  obtain ⟨b, right⟩ := tree?_of_shape? closed known'
  refine ⟨a, b, left, right, fun q => verdict?_of_tree? closed q left right, ?_, ?_⟩
  · constructor
    · rintro rfl
      exact Option.some.inj (left.symm.trans right)
    · rintro rfl
      exact tree?_injective closed left right
  · intro other reached' source' target' left' right' q
    rw [verdict?_of_tree? (reachable_closed reached') q left' right',
      verdict?_of_tree? closed q left right]

theorem class_verdicts_across_spellings :
    let reg := empty.internClass "Foo"
    let other := (empty.internName "Bar").2.internClass "\\FOO"
    ∀ q, other.2.pool.verdict? q other.1 (.basic .object) =
      reg.2.pool.verdict? q reg.1 (.basic .object) := by
  intro reg other q
  have named : Reachable (empty.internName "Bar").2 :=
    Reachable.step (.internName "Bar") .fresh trivial
  have reached : Reachable reg.2 := reachable_internClass .fresh (by decide)
  have reached' : Reachable other.2 := reachable_internClass named (by decide)
  have known : reg.2.pool.shape? reg.1 = some ⟨.instanceOf (empty.internName "Foo").1, false⟩ :=
    Pool.shape?_intern Pool.empty_canonical (.of (.instanceOf _) false)
  have object : reg.2.pool.shape? (.basic .object) = some ⟨.basic .object, false⟩ := rfl
  obtain ⟨a, b, left, right, _, _, elsewhere⟩ := verdicts_are_structural reached known object
  cases left.symm.trans (tree?_internClass empty_closed "Foo")
  cases right.symm.trans (tree?_basic reg.2 .object)
  have tree := tree?_internClass (reachable_closed named) "\\FOO"
  exact elsewhere other.2 reached' other.1 (.basic .object) tree (tree?_basic other.2 .object) q

end Registry
end TypeLattice
