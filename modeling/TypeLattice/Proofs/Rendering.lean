import TypeLattice.Proofs.Denotation
import TypeLattice.Proofs.Grammar.Printing
import TypeLattice.Proofs.Pool.Terms
import TypeLattice.Proofs.Reachable

/-!
Rendering is undone by parsing. A type is written as the text of its tree, with every class in the
spelling that the name table saw first. Where the classes are qualified this text is an annotation,
the spellings lead back to the same classes, and interning then leads back to the same types.
-/
namespace TypeLattice

theorem toList_pushn (text : String) (c : Char) (times : Nat) :
    (text.pushn c times).toList = text.toList ++ List.replicate times c := by
  rw [String.pushn_eq_repeat_push]
  induction times with
  | zero => simp [Nat.repeat]
  | succ times ih =>
    rw [Nat.repeat, String.toList_push, ih, List.append_assoc, List.replicate_succ']

namespace Registry

theorem push_mark (nullable : Bool) (text : String) :
    (if nullable then text.push '?' else text) = text ++ TypeTerm.markText nullable := by
  cases nullable <;> simp [TypeTerm.markText, ← String.toList_inj]

/-- A type is written as its tree, with the brackets of the arrays around it. -/
theorem writeInside?_of_term? {reg : Registry} {spell : NameId → String} {id : TypeId}
    {a : TypeTerm NameId} (stored : reg.pool.term? id = some a)
    (spelled : ∀ name ∈ a.names, reg.names.spelling? name = some (spell name)) (depth : Nat)
    (text : String) :
    reg.writeInside? depth id text = some ((text ++ (a.mapNames spell).print).pushn '>' depth) := by
  induction a generalizing id depth text with
  | basic nullable b =>
    obtain ⟨e, held, shape⟩ := Option.map_eq_some_iff.mp (Pool.term?_eq_basic.mp stored)
    rw [writeInside?, held]
    simp only [shape, push_mark, TypeTerm.mapNames, TypeTerm.print, String.append_assoc]
  | instanceOf nullable name =>
    obtain ⟨e, held, shape⟩ := Option.map_eq_some_iff.mp (Pool.term?_eq_instanceOf.mp stored)
    have written := spelled name (List.mem_singleton_self name)
    rw [writeInside?, held]
    simp only [shape, push_mark, written, Option.map_some, TypeTerm.mapNames, TypeTerm.print]
    refine congrArg some (congrArg (String.pushn · '>' depth) ?_)
    simp [← String.toList_inj]
  | array nullable nonEmpty key elem ih =>
    obtain ⟨part, known, older, inner⟩ := Pool.term?_eq_array.mp stored
    obtain ⟨e, held, shape⟩ := Option.map_eq_some_iff.mp known
    rw [writeInside?, held]
    simp only [shape, dif_pos older, push_mark]
    rw [ih inner spelled]
    apply congrArg some
    simp [← String.toList_inj, toList_pushn, TypeTerm.mapNames, TypeTerm.print,
      List.replicate_succ]

theorem shape?_internMarked_open {reg : Registry} (closed : Closed reg) (nullable : Bool)
    (kind : Kind NameId TypeId) (settled : nullable = true → kind.inherentNull? = none) :
    (reg.internMarked nullable kind).2.pool.shape? (reg.internMarked nullable kind).1 =
      some ⟨kind, nullable⟩ := by
  rw [shape?_internMarked closed]
  cases nullable with
  | false => simp [Shape.of]
  | true =>
    have free := settled rfl
    cases kind with
    | basic b =>
      cases b with
      | mixed | nonNullMixed | nonNullNonEmptyMixed | null | never => cases free
      | _ => rfl
    | instanceOf name => rfl
    | array nonEmpty key elem => rfl

/-- Names that are filed already are not filed again, and the types come out as they are
written. -/
theorem add_spelled {reg : Registry} (closed : Closed reg) (spell : NameId → String)
    {a : TypeTerm NameId} (found : ∀ name ∈ a.names, reg.names.find? (spell name) = some name)
    (settled : a.FlagsSettled) :
    (reg.add (a.mapNames spell)).2.names = reg.names ∧
      (reg.add (a.mapNames spell)).2.pool.term? (reg.add (a.mapNames spell)).1 = some a := by
  induction a with
  | basic nullable b =>
    have shape := shape?_internMarked_open closed nullable (.basic b) settled
    exact ⟨names_internMarked reg nullable _, Pool.term?_eq_basic.mpr shape⟩
  | instanceOf nullable name =>
    have known := NameTable.intern_known (found name (List.mem_singleton_self name))
    have same : reg.internName (spell name) = (name, reg) := by
      simp only [internName, known]
    have shape := shape?_internMarked_open closed nullable (.instanceOf name) fun _ => rfl
    rw [TypeTerm.mapNames, add_instanceOf, same]
    exact ⟨names_internMarked reg nullable _, Pool.term?_eq_instanceOf.mpr shape⟩
  | array nullable nonEmpty key elem ih =>
    obtain ⟨kept, inner⟩ := ih found settled
    obtain ⟨within, s, held⟩ := add_closed closed (elem.mapNames spell)
    rw [TypeTerm.mapNames, add_array]
    generalize reg.add (elem.mapNames spell) = r at kept inner within held
    have part : r.2.Holds (.array nonEmpty key r.1) := ⟨s, held⟩
    have shape := shape?_internMarked_open within nullable (.array nonEmpty key r.1) fun _ => rfl
    have whole := internMarked_closed within part nullable
    have grown := extends_internMarked r.2 nullable (.array nonEmpty key r.1)
    refine ⟨(names_internMarked r.2 nullable _).trans kept, Pool.term?_eq_array.mpr ?_⟩
    exact ⟨r.1, shape, whole.older _ _ _ _ _ shape, Pool.term?_extends grown.pool inner⟩

theorem parse_print {reg : Registry} (closed : Closed reg) {spell : NameId → String}
    {id : TypeId} {a : TypeTerm NameId} (stored : reg.pool.term? id = some a)
    (segments : ∀ name ∈ a.names, Name.segmentsFrom true (spell name).toList = true)
    (found : ∀ name ∈ a.names, reg.names.find? (spell name) = some name) :
    ∃ back next, reg.parse (a.mapNames spell).print = (.ok back, next) ∧
      next.pool.term? back = some a.mixEmptyKeys ∧ (.empty ∉ a.keys → back = id) := by
  have derived : TypeTerm.Derives (a.mapNames spell).print.toList
      (a.mixEmptyKeys.mapNames spell) := by
    rw [TypeTerm.mapNames_mixEmptyKeys]
    apply TypeTerm.print_derives
    rw [TypeTerm.names_mapNames]
    exact List.forall_mem_map.mpr segments
  have settled := TypeTerm.flagsSettled_mixEmptyKeys
    (Pool.term?_flagsSettled closed.canonical stored)
  rw [← TypeTerm.names_mixEmptyKeys] at found
  have added := (add_spelled closed spell found settled).2
  refine ⟨_, _, parse_of_derives derived, added, ?_⟩
  intro absent
  -- without empty keys the text says the type itself, and the pool has that type already
  rw [TypeTerm.mixEmptyKeys_of_not_mem absent] at added ⊢
  have kept := Pool.term?_extends (extends_add (a.mapNames spell) reg).pool stored
  exact Pool.term?_injective (add_closed closed _).1.canonical added kept

/-- The text of a type is parsed as the same type, with mixed keys in place of empty ones. -/
theorem rendering_parses_back {reg : Registry} (reached : Reachable reg) {id : TypeId}
    {s : TypeShape} (known : reg.pool.shape? id = some s) :
    ∃ a text, reg.pool.term? id = some a ∧ reg.render? id = some text ∧
      (∀ buffer, reg.write? id buffer = some (buffer ++ text)) ∧
      ((∀ name ∈ a.names, reg.names.Qualified name) →
        ∃ back next, reg.parse text = (.ok back, next) ∧
          next.pool.term? back = some a.mixEmptyKeys ∧ (.empty ∉ a.keys → back = id)) := by
  have closed := reachable_closed reached
  obtain ⟨a, stored⟩ := term?_of_shape? closed known
  let spell (name : NameId) : String := (reg.names.spelling? name).getD ""
  have spelled : ∀ name ∈ a.names, reg.names.spelling? name = some (spell name) := by
    intro name member
    obtain ⟨spelling, written⟩ := term?_names_known closed stored name member
    simp only [spell, written, Option.getD_some]
  have written (buffer : String) :
      reg.write? id buffer = some (buffer ++ (a.mapNames spell).print) := by
    rw [write?, writeInside?_of_term? stored spelled, String.pushn_eq_repeat_push]
    rfl
  refine ⟨a, (a.mapNames spell).print, stored, ?_, written, ?_⟩
  · rw [render?, written, String.empty_append]
  · intro qualified
    have proper : ∀ name ∈ a.names, Name.segmentsFrom true (spell name).toList = true ∧
        reg.names.find? (spell name) = some name := by
      intro name member
      obtain ⟨spelling, first, segments, found⟩ :=
        NameTable.qualified_spelling closed.names (qualified name member)
      have same : spell name = spelling :=
        Option.some.inj ((spelled name member).symm.trans first)
      rw [same]
      exact ⟨segments, found⟩
    apply parse_print closed stored
    · intro name member
      exact (proper name member).1
    · intro name member
      exact (proper name member).2

theorem list_of_class_parses_back :
    let named := empty.internClass "Foo"
    let listed := named.2.intern (.of (.array false .int named.1) false)
    ∃ text next, listed.2.render? listed.1 = some text ∧
      listed.2.parse text = (.ok listed.1, next) := by
  intro named listed
  let name := (empty.internName "Foo").1
  have declared : Reachable named.2 := reachable_internClass .fresh (by decide)
  have elem : named.2.pool.shape? named.1 = some ⟨.instanceOf name, false⟩ :=
    Pool.shape?_intern Pool.empty_canonical (.of (.instanceOf name) false)
  have reached : Reachable listed.2 :=
    Reachable.step (.array false .int named.1) declared ⟨_, elem⟩
  have known : listed.2.pool.shape? listed.1 = some ⟨.array false .int named.1, false⟩ :=
    Pool.shape?_intern (reachable_closed declared).canonical
      (.of (.array false .int named.1) false)
  obtain ⟨a, text, stored, rendered, _, parses⟩ := rendering_parses_back reached known
  have tree : listed.2.pool.term? listed.1 =
      some (.array false false .int (.instanceOf false name)) := by
    refine Pool.term?_eq_array.mpr ⟨named.1, known, ?_, Pool.term?_eq_instanceOf.mpr ?_⟩
    · exact (reachable_closed reached).older _ _ _ _ _ known
    · exact Pool.extends_shape? (Pool.extends_intern _ _) elem
  cases stored.symm.trans tree
  have qualified : listed.2.names.Qualified name :=
    ⟨"Foo", by decide, NameTable.find?_intern .empty "Foo"⟩
  obtain ⟨back, next, parsed, _, same⟩ := parses fun other member => by
    rw [List.mem_singleton.mp member]
    exact qualified
  rw [same (by decide)] at parsed
  exact ⟨text, next, rendered, parsed⟩

end Registry
end TypeLattice
