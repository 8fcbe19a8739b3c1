import TypeLattice.Proofs.CastLaws
import TypeLattice.Proofs.Rendering

/-!
Answers outlast growth. A type that can be written has a tree whose classes have spellings, and its
text and its casts are read off the tree. A larger registry has the same tree and the same spellings,
so it gives the same answers.
-/
namespace TypeLattice

/-- A cast to any of several types asks for one cast after the other. -/
theorem Pool.castAny?_eq_any {p : Pool} {r : Rules} {source : TypeId} {targets : List TypeId}
    {holds : TypeId → Bool}
    (each : ∀ t ∈ targets, (p.cast? r source t).map Answer.holds = some (holds t)) :
    p.castAny? r source targets = some (targets.any holds) := by
  induction targets with
  | nil => rfl
  | cons t targets ih =>
    have rest := ih fun u member => each u (List.mem_cons_of_mem t member)
    obtain ⟨answer, answered, same⟩ := Option.map_eq_some_iff.mp (each t List.mem_cons_self)
    simp only [castAny?, answered, rest, same, List.any_cons]
    cases holds t <;> rfl

namespace Registry

/-- A type whose tree is stored, with a spelling for every class in it. -/
structure Complete (reg : Registry) (id : TypeId) (a : TypeTerm NameId) : Prop where
  stored : reg.pool.term? id = some a
  spelled : ∀ name ∈ a.names, ∃ spelling, reg.names.spelling? name = some spelling

theorem complete_extends {reg next : Registry} (grown : Extends reg next) {id : TypeId}
    {a : TypeTerm NameId} (complete : reg.Complete id a) : next.Complete id a := by
  refine ⟨Pool.term?_extends grown.pool complete.stored, ?_⟩
  intro name member
  obtain ⟨spelling, known⟩ := complete.spelled name member
  exact ⟨spelling, grown.names name spelling known⟩

theorem complete_of_writeInside? {reg : Registry} {depth : Nat} {id : TypeId}
    {before text : String} (written : reg.writeInside? depth id before = some text) :
    ∃ a, reg.Complete id a := by
  fun_induction writeInside? reg depth id before with
  | case1 => cases written
  | case2 depth id before entry known text b kind =>
    exact ⟨_, Pool.term?_eq_basic.mpr (Pool.shape?_of_kind known kind), nofun⟩
  | case3 depth id before entry known text name kind =>
    obtain ⟨spelling, first, _⟩ := Option.map_eq_some_iff.mp written
    refine ⟨_, Pool.term?_eq_instanceOf.mpr (Pool.shape?_of_kind known kind), ?_⟩
    intro other member
    rw [List.mem_singleton.mp member]
    exact ⟨spelling, first⟩
  | case4 depth id before entry known text nonEmpty key elem kind older ih =>
    have shape := Pool.shape?_of_kind known kind
    obtain ⟨a, complete⟩ := ih written
    exact ⟨_, Pool.term?_eq_array.mpr ⟨elem, shape, older, complete.stored⟩, complete.spelled⟩
  | case5 => cases written

/-- Whether a type can be written. Every type can that was built from types and names of the
registry. -/
def Renders (reg : Registry) (id : TypeId) : Prop := ∃ text, reg.render? id = some text

theorem complete_of_renders {reg : Registry} {id : TypeId} (renders : reg.Renders id) :
    ∃ a, reg.Complete id a := by
  obtain ⟨text, written⟩ := renders
  exact complete_of_writeInside? written

theorem entry?_of_renders {reg : Registry} {id : TypeId} (renders : reg.Renders id) :
    ∃ entry, reg.pool.entry? id = some entry := by
  obtain ⟨a, complete⟩ := complete_of_renders renders
  obtain ⟨s, known, _⟩ := Pool.shows_of_term? complete.stored
  obtain ⟨entry, held, _⟩ := Option.map_eq_some_iff.mp known
  exact ⟨entry, held⟩

/-- The type of a class can be written, under whatever spelling the class is known. -/
theorem renders_internClass {reg : Registry} (closed : Closed reg) (name : String) :
    (reg.internClass name).2.Renders (reg.internClass name).1 := by
  obtain ⟨spelling, known⟩ := NameTable.spelling?_intern closed.names name
  have spelled : ∀ other ∈ [(reg.internName name).1],
      (reg.internClass name).2.names.spelling? other = some spelling := by
    intro other member
    rw [List.mem_singleton.mp member]
    exact known
  exact ⟨_, writeInside?_of_term? (term?_internClass closed name) spelled 0 ""⟩
section Growth
variable {reg next : Registry} (grown : Extends reg next)
include grown

theorem write?_of_complete {id : TypeId} {a : TypeTerm NameId} (complete : reg.Complete id a) :
    ∃ text, ∀ before, reg.write? id before = some (before ++ text) ∧
      next.write? id before = some (before ++ text) := by
  let spell (name : NameId) : String := (reg.names.spelling? name).getD ""
  have spelled : ∀ name ∈ a.names, reg.names.spelling? name = some (spell name) := by
    intro name member
    obtain ⟨spelling, known⟩ := complete.spelled name member
    simp only [spell, known, Option.getD_some]
  have spelled' : ∀ name ∈ a.names, next.names.spelling? name = some (spell name) := by
    intro name member
    exact grown.names name _ (spelled name member)
  refine ⟨(a.mapNames spell).print, ?_⟩
  intro before
  rw [write?, write?, writeInside?_of_term? complete.stored spelled,
    writeInside?_of_term? (complete_extends grown complete).stored spelled']
  exact ⟨rfl, rfl⟩

theorem renders_extends {id : TypeId} (renders : reg.Renders id) : next.Renders id := by
  obtain ⟨a, complete⟩ := complete_of_renders renders
  obtain ⟨text, written⟩ := write?_of_complete grown complete
  exact ⟨"" ++ text, (written "").2⟩

end Growth

/-- Whether a registry answers every question about some types as an earlier one did. -/
structure Keeps (reg next : Registry) (known : TypeId → Prop) : Prop where
  spellings : ∀ name spelling, reg.names.spelling? name = some spelling →
    next.names.spelling? name = some spelling
  entries : ∀ id entry, reg.pool.entry? id = some entry → next.pool.entry? id = some entry
  held : ∀ id, known id → ∃ entry, reg.pool.entry? id = some entry
  texts : ∀ id, known id → ∃ text, ∀ before, reg.write? id before = some (before ++ text) ∧
    next.write? id before = some (before ++ text)
  casts : ∀ source target, known source → known target → ∀ rules whole, ∃ holds,
    (reg.pool.castFrom? rules whole source target).map Answer.holds = some holds ∧
      (next.pool.castFrom? rules whole source target).map Answer.holds = some holds
  declaredCasts : ∀ source target, known source → known target → ∀ config resolver, ∃ holds,
    (reg.pool.castDeclared? config resolver source target).map Answer.holds = some holds ∧
      (next.pool.castDeclared? config resolver source target).map Answer.holds = some holds
  anyCasts : ∀ source targets, known source → (∀ t ∈ targets, known t) → ∀ rules, ∃ holds,
    reg.pool.castAny? rules source targets = some holds ∧
      next.pool.castAny? rules source targets = some holds
  overlaps : ∀ id other, known id → known other → ∃ meet,
    reg.pool.overlaps? id other = some meet ∧ next.pool.overlaps? id other = some meet

theorem keeps_of_extends {reg next : Registry} (grown : Extends reg next)
    (canonical : reg.pool.Canonical) (canonical' : next.pool.Canonical) :
    Keeps reg next reg.Renders := by
  have casts : ∀ source target, reg.Renders source → reg.Renders target →
      ∀ rules whole, ∃ holds,
        (reg.pool.castFrom? rules whole source target).map Answer.holds = some holds ∧
          (next.pool.castFrom? rules whole source target).map Answer.holds = some holds := by
    intro source target renders renders' rules whole
    obtain ⟨a, left⟩ := complete_of_renders renders
    obtain ⟨b, right⟩ := complete_of_renders renders'
    exact ⟨_, Pool.castFrom?_of_term? canonical rules left.stored right.stored whole,
      Pool.castFrom?_of_term? canonical' rules (complete_extends grown left).stored
        (complete_extends grown right).stored whole⟩
  constructor
  case spellings => exact grown.names
  case entries => exact grown.pool
  case held => exact fun id renders => entry?_of_renders renders
  case texts =>
    intro id renders
    obtain ⟨a, complete⟩ := complete_of_renders renders
    exact write?_of_complete grown complete
  case casts => exact casts
  case declaredCasts =>
    intro source target renders renders' config resolver
    obtain ⟨a, left⟩ := complete_of_renders renders
    obtain ⟨b, right⟩ := complete_of_renders renders'
    exact ⟨_, Pool.castDeclared?_of_term? canonical config resolver left.stored right.stored,
      Pool.castDeclared?_of_term? canonical' config resolver (complete_extends grown left).stored
        (complete_extends grown right).stored⟩
  case anyCasts =>
    intro source targets renders all rules
    have each : ∀ t ∈ targets, ∃ holds,
        (reg.pool.cast? rules source t).map Answer.holds = some holds ∧
          (next.pool.cast? rules source t).map Answer.holds = some holds :=
      fun t member => casts source t renders (all t member) rules true
    choose! holds before after using each
    exact ⟨_, Pool.castAny?_eq_any before, Pool.castAny?_eq_any after⟩
  case overlaps =>
    intro id other renders renders'
    obtain ⟨a, left⟩ := complete_of_renders renders
    obtain ⟨b, right⟩ := complete_of_renders renders'
    exact ⟨_, Pool.overlaps?_of_term? canonical left.stored right.stored,
      Pool.overlaps?_of_term? canonical' (complete_extends grown left).stored
        (complete_extends grown right).stored⟩

end Registry
end TypeLattice
