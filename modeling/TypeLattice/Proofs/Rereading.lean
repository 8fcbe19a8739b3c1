import TypeLattice.Proofs.Answers
import TypeLattice.Proofs.Legibility
import TypeLattice.Proofs.Registry.Parts

/-!
Reading again what was written of a parsed text. The first time leaves the types of all parts of the
text behind, and the rendering says the same by the same classes, so that there is nothing left to
intern. Parsing and rendering in turn is settled after the first round.
-/
namespace TypeLattice
open TypeTerm (Derives)

/-- No annotation leaves the keys of an array unknown. -/
theorem TypeTerm.grammar_keys {ts : List Token} {a : WrittenType} (parsed : Grammar ts a) :
    .empty ∉ a.keys := by
  induction parsed with
  | keyword | className => exact List.not_mem_nil
  | bareArray nullable nonEmpty => simp [keys, any]
  | array nullable nonEmpty inner ih => simpa [keys] using ih
  | @keyedArray nullable nonEmpty key word written ts elem inner ih =>
    have named : key ≠ .empty := by
      rintro rfl
      cases written
    simpa [keys, named.symm] using ih

namespace Registry

/-- The tree of a stored basic type says how it is added. Its kind alone is a fixed type. -/
theorem stores_basic {reg : Registry} (closed : Closed reg) {id : TypeId} {nullable : Bool}
    {b : BasicKind} (stored : reg.pool.term? id = some (.basic nullable b)) :
    reg.Stores (.basic nullable b) id := by
  have canonical := closed.canonical
  have known := Pool.term?_eq_basic.mp stored
  have plain : reg.intern (.of (.basic b) false) = (.basic b, reg) := by
    have fixed : reg.pool.shape? (.basic b) = some (.of (.basic b) false) := by
      simp [Shape.of, Pool.shape?, Pool.entry?, Entry.of]
    simp only [intern, Pool.intern_of_shape? canonical fixed]
  cases nullable with
  | false =>
    obtain rfl : id = .basic b := Pool.shape?_injective canonical known rfl
    exact plain
  | true =>
    have settled : b.inherentNull? = none := Pool.term?_flagsSettled canonical stored rfl
    have marked : (Shape.of (.basic b) false).withNullable true = (⟨.basic b, true⟩ : TypeShape) := by
      cases b <;> first | rfl | cases settled
    have again : reg.intern ⟨.basic b, true⟩ = (id, reg) := by
      simp only [intern, Pool.intern_of_shape? canonical known]
    change (reg.intern (.of (.basic b) false)).2.intern
      ((Shape.of (.basic b) false).withNullable true) = (id, reg)
    rw [plain, marked, again]

theorem internName_of_stores {reg : Registry} {id : TypeId} {nullable : Bool} {name : String}
    (stored : reg.Stores (.instanceOf nullable name) id) :
    ∃ n, reg.internName name = (n, reg) ∧ reg.names.find? name = some n := by
  have kept := congrArg (fun r : TypeId × Registry => r.2.names) stored
  rw [add_instanceOf, names_internMarked] at kept
  have names : (reg.names.intern name).2 = reg.names := kept
  have found := NameTable.find?_intern reg.names name
  rw [names] at found
  refine ⟨_, ?_, found⟩
  simp only [internName, names]

/-- Whether the tree of a stored type says the same as an annotation. The classes in it are those of
the annotation, and any spelling that finds them leads back to the type. -/
structure Echoes (reg : Registry) (a : WrittenType) (id : TypeId) (t : TypeTerm NameId) :
    Prop where
  tree : reg.pool.term? id = some t
  keys : t.keys = a.keys
  names : ∀ n ∈ t.names, ∃ name ∈ a.names, reg.names.find? name = some n
  again : ∀ spell : NameId → String, (∀ n ∈ t.names, reg.names.find? (spell n) = some n) →
    reg.Stores (t.mapNames spell) id

/-- A registry that stores all parts of an annotation stores a tree that says the same. -/
theorem exists_echo {reg : Registry} (closed : Closed reg) {a : WrittenType}
    (parts : ∀ part ∈ a.parts, ∃ id, reg.Stores part id) {id : TypeId} (stored : reg.Stores a id) :
    ∃ t, reg.Echoes a id t := by
  induction a generalizing id with
  | basic nullable b =>
    -- a question mark may lead to another kind, so the tree is that of the type and not `a`
    have shape := shape?_internMarked closed nullable (.basic b)
    rw [show reg.internMarked nullable (.basic b) = (id, reg) from stored] at shape
    obtain ⟨flag, c, basic⟩ : ∃ flag c, reg.pool.shape? id = some ⟨.basic c, flag⟩ := by
      rw [shape]
      cases nullable <;> cases b <;> exact ⟨_, _, rfl⟩
    have tree := Pool.term?_eq_basic.mpr basic
    exact ⟨_, tree, rfl, nofun, fun _ _ => stores_basic closed tree⟩
  | instanceOf nullable name =>
    obtain ⟨n, named, found⟩ := internName_of_stores stored
    have marked : reg.internMarked nullable (.instanceOf n) = (id, reg) := by
      rw [Stores, add_instanceOf, named] at stored
      exact stored
    have shape := shape?_internMarked_open closed nullable (.instanceOf n) fun _ => rfl
    rw [marked] at shape
    refine ⟨_, Pool.term?_eq_instanceOf.mpr shape, rfl, ?_, ?_⟩
    · intro other member
      rw [List.mem_singleton.mp member]
      exact ⟨name, List.mem_singleton_self name, found⟩
    · intro spell finds
      have known := NameTable.intern_known (finds n (List.mem_singleton_self n))
      have same : reg.internName (spell n) = (n, reg) := by
        simp only [internName, known]
      rw [TypeTerm.mapNames, Stores, add_instanceOf, same]
      exact marked
  | array nullable nonEmpty key elem ih =>
    obtain ⟨part, inner⟩ :=
      parts elem (TypeTerm.mem_parts_array.mpr (Or.inl elem.self_mem_parts))
    have within : ∀ other ∈ elem.parts, ∃ id, reg.Stores other id :=
      fun other member => parts other (TypeTerm.mem_parts_array.mpr (Or.inl member))
    obtain ⟨t, echoes⟩ := ih within inner
    have marked : reg.internMarked nullable (.array nonEmpty key part) = (id, reg) := by
      rw [Stores, add_array, inner] at stored
      exact stored
    have shape := shape?_internMarked_open closed nullable (.array nonEmpty key part) fun _ => rfl
    rw [marked] at shape
    refine ⟨.array nullable nonEmpty key t, Pool.term?_eq_array.mpr
      ⟨part, shape, closed.older _ _ _ _ _ shape, echoes.tree⟩, ?_, echoes.names, ?_⟩
    · rw [TypeTerm.keys, TypeTerm.keys, echoes.keys]
    · intro spell finds
      rw [TypeTerm.mapNames, Stores, add_array, echoes.again spell finds]
      exact marked

theorem exists_echo_of_add {reg later : Registry} (closed : Closed reg) (closed' : Closed later)
    {a : WrittenType} (grown : Extends (reg.add a).2 later) :
    ∃ t, later.Echoes a (reg.add a).1 t :=
  exists_echo closed' (fun _ member => ⟨_, stores_part closed closed' member grown⟩)
    (add_again closed closed' grown)

section Echoes
variable {reg : Registry} (closed : Closed reg) {text : List Char} {a : WrittenType}
  (derived : Derives text a) {id : TypeId} {t : TypeTerm NameId} (echoes : reg.Echoes a id t)
include derived echoes

theorem mixEmptyKeys_of_echoes : t.mixEmptyKeys = t := by
  obtain ⟨ts, rest, parsed, _⟩ := derived
  apply TypeTerm.mixEmptyKeys_of_not_mem
  rw [echoes.keys]
  exact TypeTerm.grammar_keys parsed

include closed

/-- What is rendered by the first spellings is read as the same type and adds nothing. -/
theorem parse_echo : reg.parse (t.mapNames reg.names.spelling).print = (.ok id, reg) := by
  have proper : ∀ n ∈ t.names, Name.segmentsFrom true (reg.names.spelling n).toList = true ∧
      reg.names.find? (reg.names.spelling n) = some n := by
    intro n member
    obtain ⟨ts, rest, parsed, _⟩ := derived
    obtain ⟨name, written, found⟩ := echoes.names n member
    have qualified := TypeTerm.grammar_names_qualified parsed name written
    exact NameTable.spelling_of_qualified closed.names ⟨name, qualified, found⟩
  have printed : Derives (t.mapNames reg.names.spelling).print.toList
      (t.mapNames reg.names.spelling) := by
    have segments : ∀ name ∈ (t.mapNames reg.names.spelling).names,
        Name.segmentsFrom true name.toList = true := by
      rw [TypeTerm.names_mapNames]
      exact List.forall_mem_map.mpr fun n member => (proper n member).1
    have spelled := TypeTerm.print_derives segments
    rw [← TypeTerm.mapNames_mixEmptyKeys, mixEmptyKeys_of_echoes derived echoes] at spelled
    exact spelled
  rw [parse_of_derives printed, echoes.again _ fun n member => (proper n member).2]

end Echoes

theorem render?_extends {reg later : Registry} (closed : Closed reg) (grown : Extends reg later)
    {id : TypeId} {t : TypeTerm NameId} (stored : reg.pool.term? id = some t) :
    later.render? id = reg.render? id := by
  obtain ⟨text, written⟩ :=
    write?_of_complete grown ⟨stored, term?_names_known closed stored⟩
  rw [render?, render?, (written "").1, (written "").2]

section Later
variable {reg later : Registry} (closed : Closed reg) (closed' : Closed later) {text : List Char}
  {a : WrittenType} (derived : Derives text a) (grown : Extends (reg.add a).2 later)
include closed closed' derived grown

theorem parse_rendering {rendered : String}
    (written : (reg.add a).2.render? (reg.add a).1 = some rendered) :
    later.render? (reg.add a).1 = some rendered ∧
      later.parse rendered = (.ok (reg.add a).1, later) := by
  have between := (add_closed closed a).1
  obtain ⟨s, here⟩ := exists_echo_of_add closed between (extends_refl _)
  obtain ⟨t, echoes⟩ := exists_echo_of_add closed closed' grown
  have kept := render?_extends between grown here.tree
  rw [written, render?_of_term? closed' echoes.tree] at kept
  cases kept
  exact ⟨render?_of_term? closed' echoes.tree, parse_echo closed' derived echoes⟩

/-- Annotations without unknown keys are one type exactly if they are rendered alike. -/
theorem render?_eq_iff {other : Registry} (closedOther : Closed other) {text' : List Char}
    {b : WrittenType} (derived' : Derives text' b) (grown' : Extends (other.add b).2 later)
    {rendered rendered' : String} (written : later.render? (reg.add a).1 = some rendered)
    (written' : later.render? (other.add b).1 = some rendered') :
    (reg.add a).1 = (other.add b).1 ↔ rendered = rendered' := by
  obtain ⟨s, left⟩ := exists_echo_of_add closed closed' grown
  obtain ⟨t, right⟩ := exists_echo_of_add closedOther closed' grown'
  rw [render?_of_term? closed' left.tree] at written
  rw [render?_of_term? closed' right.tree] at written'
  cases written
  cases written'
  rw [Pool.term?_eq_iff closed'.canonical left.tree right.tree, TypeTerm.print_eq_iff,
    mapNames_spelling_eq_iff closed' left.tree right.tree, mixEmptyKeys_of_echoes derived left,
    mixEmptyKeys_of_echoes derived' right]

end Later

/-- A text after it was parsed and rendered, and the registry that this leaves. -/
def reprint? (reg : Registry) (text : String) : Option (String × Registry) :=
  match reg.parse text with
  | (.ok id, next) => (next.render? id).map fun rendered => (rendered, next)
  | (.error _, _) => none

/-- The rendering of a parsed text is parsed as the same type and changes nothing, at once and at any
later time. Texts are parsed as the same type exactly if they are rendered alike. -/
theorem rereading_changes_nothing {reg next : Registry} (reached : Reachable reg) {text : String}
    {id : TypeId} (parsed : reg.parse text = (.ok id, next)) :
    ∃ rendered, next.render? id = some rendered ∧ next.parse rendered = (.ok id, next) ∧
      reg.reprint? text = some (rendered, next) ∧ next.reprint? rendered = some (rendered, next) ∧
      ∀ later, Reachable later → Extends next later →
        later.parse rendered = (.ok id, later) ∧
        ∀ text' id' last, later.parse text' = (.ok id', last) → ∃ rendered',
          last.render? id = some rendered ∧ last.render? id' = some rendered' ∧
            (id = id' ↔ rendered = rendered') := by
  have closed := reachable_closed reached
  obtain ⟨a, derived⟩ := derives_of_parse parsed
  rw [parse_of_derives derived] at parsed
  cases parsed
  have between := (add_closed closed a).1
  obtain ⟨t, echoes⟩ := exists_echo_of_add closed between (extends_refl _)
  have written := render?_of_term? between echoes.tree
  obtain ⟨_, back⟩ := parse_rendering closed between derived (extends_refl _) written
  refine ⟨_, written, back, ?_, ?_, ?_⟩
  · simp only [reprint?, parse_of_derives derived, written, Option.map_some]
  · simp only [reprint?, back, written, Option.map_some]
  · intro later reached' grown
    have closed' := reachable_closed reached'
    refine ⟨(parse_rendering closed closed' derived grown written).2, ?_⟩
    intro text' id' last parsed'
    obtain ⟨b, derived'⟩ := derives_of_parse parsed'
    rw [parse_of_derives derived'] at parsed'
    cases parsed'
    have ended := (add_closed closed' b).1
    have whole := extends_trans grown (extends_add b later)
    obtain ⟨u, other⟩ := exists_echo_of_add closed' ended (extends_refl _)
    obtain ⟨kept, _⟩ := parse_rendering closed ended derived whole written
    have written' := render?_of_term? ended other.tree
    exact ⟨_, kept, written', render?_eq_iff closed ended derived whole closed' derived'
      (extends_refl _) kept written'⟩

theorem list_in_other_case_is_reread :
    let reg := (empty.internName "Foo").2
    ∃ id next rendered, reg.parse " array< ?\\FOO\t>" = (.ok id, next) ∧
      next.render? id = some rendered ∧ next.parse rendered = (.ok id, next) := by
  intro reg
  have reached : Reachable reg := .step (.internName "Foo") .fresh trivial
  have first : TypeTerm.step [] " array< ?\\FOO\t>".toList =
      .argument [⟨false, false, .first "?\\FOO\t>".toList⟩] " ?\\FOO\t>".toList := by decide
  have second : TypeTerm.step [⟨false, false, .first "?\\FOO\t>".toList⟩] " ?\\FOO\t>".toList =
      .whole (.array false false .mixed (.instanceOf true "FOO")) [] := rfl
  have readable : TypeTerm.read " array< ?\\FOO\t>".toList =
      .ok (.array false false .mixed (.instanceOf true "FOO")) := by
    rw [TypeTerm.read, TypeTerm.readInto_of_steps first second]
    rfl
  have derived := TypeTerm.read_eq_ok_iff.mp readable
  obtain ⟨rendered, written, back, _⟩ :=
    rereading_changes_nothing reached (parse_of_derives derived)
  exact ⟨_, _, rendered, parse_of_derives derived, written, back⟩

end Registry
end TypeLattice
