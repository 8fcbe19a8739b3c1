import TypeLattice.Proofs.Denotation
import TypeLattice.Proofs.Grammar.Pieces
import TypeLattice.Proofs.Reachable
import TypeLattice.Proofs.Registry.Parts

/-!
What parsing leaves behind. A registry forgets nothing when a text is parsed, and all that it learns
stands in the text: every new type is that of a piece which is an annotation itself, and every new name
that of a class among them. This holds for texts that fail as well. Where parsing succeeds, the
types of the parts are there, and no others are new.
-/
namespace TypeLattice
open TypeTerm (Derives Occurs)

namespace Registry

/-- Whether a type is that of a piece of a text, which reading the piece does not change. -/
def ReadsPiece (reg : Registry) (text : String) (id : TypeId) : Prop :=
  ∃ piece : String, piece.toList <:+: text.toList ∧ reg.parse piece = (.ok id, reg)

/-- Parsing adds one annotation of the text or nothing, and if it succeeds the whole text. -/
theorem parse_cases (reg : Registry) (text : String) :
    (∃ a, Occurs text.toList a ∧ (reg.parse text).2 = (reg.add a).2 ∧
      ∀ id, (reg.parse text).1 = .ok id → Derives text.toList a) ∨
    ((reg.parse text).2 = reg ∧ ∀ id, (reg.parse text).1 ≠ .ok id) := by
  have sound := TypeTerm.read_accounted text.toList
  cases outcome : TypeTerm.read text.toList with
  | ok a =>
    rw [outcome] at sound
    have derived : Derives text.toList a := sound
    rw [parse_of_derives derived]
    exact Or.inl ⟨a, TypeTerm.occurs_of_derives derived, rfl, fun _ _ => derived⟩
  | error f =>
    rw [outcome] at sound
    have failed (id : TypeId) : (reg.parse text).1 ≠ .ok id := by
      simp [parse, outcome]
    cases whole : f.complete with
    | none =>
      refine Or.inr ⟨?_, failed⟩
      simp only [parse, outcome, whole]
    | some a =>
      refine Or.inl ⟨a, sound.complete a whole, ?_, fun id parsed => absurd parsed (failed id)⟩
      simp only [parse, outcome, whole]

section Parts
variable {reg : Registry} (closed : Closed reg) {text : String} {a : WrittenType}
  (occurs : Occurs text.toList a)
include closed occurs

theorem readsPiece_of_part {part : WrittenType} (member : part ∈ a.parts)
    (written : part ≠ .any) : (reg.add a).2.ReadsPiece text (reg.add part).1 := by
  have closed' := (add_closed closed a).1
  have stands := (TypeTerm.occurs_part occurs member).resolve_left written
  obtain ⟨piece, within, derived⟩ := TypeTerm.piece_of_occurs stands
  refine ⟨String.ofList piece, ?_, ?_⟩
  · rw [String.toList_ofList]
    exact within
  · rw [← String.toList_ofList (l := piece)] at derived
    rw [parse_of_derives derived, stores_part closed closed' member (extends_refl _)]

theorem readsPiece_of_new_type {id : TypeId} (known : (reg.add a).2.pool.Knows id)
    (new : ¬reg.pool.Knows id) : (reg.add a).2.ReadsPiece text id := by
  obtain ⟨part, member, rfl⟩ := (knows_add_cases closed known).resolve_left new
  apply readsPiece_of_part closed occurs member
  -- the element of an array without brackets is a fixed type
  rintro rfl
  exact new ⟨_, rfl⟩

theorem readsPiece_of_new_name {name : NameId} {spelling : String}
    (known : (reg.add a).2.names.spelling? name = some spelling)
    (new : reg.names.spelling? name = none) :
    ∃ id, (reg.add a).2.ReadsPiece text id ∧
      (reg.add a).2.pool.shape? id = some ⟨.instanceOf name, false⟩ := by
  rcases spelled_add_cases known with old | ⟨written, member, rfl⟩
  · cases new.symm.trans old
  have part := TypeTerm.class_mem_parts member
  have shape := shape?_internMarked (internName_closed closed written) false
    (.instanceOf (reg.internName written).1)
  refine ⟨_, readsPiece_of_part closed occurs part nofun, ?_⟩
  exact Pool.extends_shape? (extends_add_part part reg).pool shape

end Parts

/-- The types that a registry knows after an annotation was added. -/
theorem knows_add_iff {reg : Registry} (closed : Closed reg) (a : WrittenType) (id : TypeId) :
    (reg.add a).2.pool.Knows id ↔
      reg.pool.Knows id ∨ ∃ part ∈ a.parts, (reg.add a).2.Stores part id := by
  have closed' := (add_closed closed a).1
  constructor
  · intro known
    refine (knows_add_cases closed known).imp_right ?_
    rintro ⟨part, member, rfl⟩
    exact ⟨part, member, stores_part closed closed' member (extends_refl _)⟩
  · rintro (⟨s, known⟩ | ⟨part, _, stored⟩)
    · exact ⟨s, Pool.extends_shape? (extends_add a reg).pool known⟩
    · have added := (add_closed closed' part).2
      rw [stored] at added
      exact added

/-- Parsing leaves behind what the text says, whether it succeeds or fails. -/
theorem parsing_adds_pieces {reg : Registry} (reached : Reachable reg) (text : String) :
    let next := (reg.parse text).2
    Extends reg next ∧
    (∀ id, next.pool.Knows id → ¬reg.pool.Knows id → next.ReadsPiece text id) ∧
    (∀ name spelling, next.names.spelling? name = some spelling →
      reg.names.spelling? name = none → ∃ id, next.ReadsPiece text id ∧
        next.pool.shape? id = some ⟨.instanceOf name, false⟩) ∧
    ∀ id, (reg.parse text).1 = .ok id → ∃ a, Derives text.toList a ∧ next.Stores a id ∧
      ∀ other, next.pool.Knows other ↔
        reg.pool.Knows other ∨ ∃ part ∈ a.parts, next.Stores part other := by
  intro next
  have closed := reachable_closed reached
  rcases parse_cases reg text with ⟨a, occurs, same, whole⟩ | ⟨same, failed⟩
  · have same : next = (reg.add a).2 := same
    rw [same]
    refine ⟨extends_add a reg, fun id => readsPiece_of_new_type closed occurs,
      fun name spelling => readsPiece_of_new_name closed occurs, ?_⟩
    intro id parsed
    have derived := whole id parsed
    rw [parse_of_derives derived] at parsed
    cases parsed
    exact ⟨a, derived, add_again closed (add_closed closed a).1 (extends_refl _),
      knows_add_iff closed a⟩
  · have same : next = reg := same
    rw [same]
    refine ⟨extends_refl reg, fun id known new => absurd known new, ?_, ?_⟩
    · intro name spelling known new
      cases new.symm.trans known
    · intro id parsed
      exact absurd parsed (failed id)

/-- A class that is misused as a key is read before that comes out. -/
theorem misused_class_is_left_behind :
    let text := "array<?\\Foo, int>"
    let next := (empty.parse text).2
    (∃ e, (empty.parse text).1 = .error e) ∧
      ∃ name id, next.ReadsPiece text id ∧ next.pool.shape? id = some ⟨.instanceOf name, false⟩ := by
  intro text next
  let f : TypeTerm.Failure :=
    ⟨.notAKey "?\\Foo", "?\\Foo, int>".toList, some (.instanceOf true "Foo")⟩
  have first : TypeTerm.step [] text.toList = .argument
      [⟨false, false, .first "?\\Foo, int>".toList⟩] "?\\Foo, int>".toList := by decide
  have second : TypeTerm.step [⟨false, false, .first "?\\Foo, int>".toList⟩]
      "?\\Foo, int>".toList = .failed f := rfl
  have outcome : TypeTerm.read text.toList = .error f := by
    rw [TypeTerm.read, TypeTerm.readInto_of_steps first second]
    rfl
  have parsed : empty.parse text = (.error (f.toError text.toList),
      (empty.add (.instanceOf true "Foo")).2) := by
    simp only [parse, outcome]
    rfl
  have names : next.names = (NameTable.empty.intern "Foo").2 := congrArg (·.2.names) parsed
  obtain ⟨spelling, known⟩ := NameTable.spelling?_intern NameTable.empty_filed "Foo"
  rw [← names] at known
  obtain ⟨id, piece, shape⟩ := (parsing_adds_pieces .fresh text).2.2.1 _ spelling known rfl
  exact ⟨⟨_, congrArg Prod.fst parsed⟩, _, id, piece, shape⟩

end Registry
end TypeLattice
