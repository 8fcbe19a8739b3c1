import TypeLattice.Proofs.Grammar.Legibility
import TypeLattice.Proofs.Registry.Building
import TypeLattice.Proofs.Registry.Trees
import TypeLattice.Proofs.Rendering

/-!
Renderings tell types apart. Two types of a registry are rendered alike exactly if they are the same
once every empty key is a mixed one, whatever was interned as the name of a class.
-/
namespace TypeLattice

namespace NameTable

def spelling (t : NameTable) (name : NameId) : String := (t.spelling? name).getD ""

theorem spelling_of_qualified {t : NameTable} (filed : Filed t) {id : NameId}
    (qualified : t.Qualified id) :
    Name.segmentsFrom true (t.spelling id).toList = true ∧ t.find? (t.spelling id) = some id := by
  obtain ⟨spelling, known, proper⟩ := qualified_spelling filed qualified
  rw [NameTable.spelling, known]
  exact proper

end NameTable

namespace Registry
variable {reg : Registry} (closed : Closed reg)
include closed

theorem render?_of_term? {id : TypeId} {a : TypeTerm NameId} (stored : reg.pool.term? id = some a) :
    reg.render? id = some (a.mapNames reg.names.spelling).print := by
  have spelled : ∀ name ∈ a.names, reg.names.spelling? name = some (reg.names.spelling name) := by
    intro name member
    obtain ⟨spelling, known⟩ := term?_names_known closed stored name member
    simp [NameTable.spelling, known]
  rw [render?, write?, writeInside?_of_term? stored spelled, String.empty_append,
    String.pushn_eq_repeat_push]
  rfl

/-- Different classes have different spellings, so renaming by them keeps types apart. -/
theorem mapNames_spelling_eq_iff {id other : TypeId} {a b : TypeTerm NameId}
    (left : reg.pool.term? id = some a) (right : reg.pool.term? other = some b) :
    (a.mapNames reg.names.spelling).mixEmptyKeys = (b.mapNames reg.names.spelling).mixEmptyKeys ↔
      a.mixEmptyKeys = b.mixEmptyKeys := by
  rw [← TypeTerm.mapNames_mixEmptyKeys, ← TypeTerm.mapNames_mixEmptyKeys]
  constructor
  · apply TypeTerm.mapNames_injective
    rw [TypeTerm.names_mixEmptyKeys, TypeTerm.names_mixEmptyKeys]
    intro x inLeft y inRight same
    exact label_injective_on_terms closed left right x inLeft y inRight (congrArg Name.folded same)
  · exact congrArg (TypeTerm.mapNames reg.names.spelling)

omit closed

/-- Two types are rendered alike exactly if mixed keys in place of the empty ones make them the same
type. -/
theorem rendering_tells_types_apart (reached : Reachable reg) {id other : TypeId}
    (known : reg.pool.Knows id) (known' : reg.pool.Knows other) :
    ∃ a b text text', reg.pool.term? id = some a ∧ reg.pool.term? other = some b ∧
      reg.render? id = some text ∧ reg.render? other = some text' ∧
      (text = text' ↔ a.mixEmptyKeys = b.mixEmptyKeys) ∧
      (∃ next mixed mixed', Reachable next ∧ Extends reg next ∧
        next.pool.term? mixed = some a.mixEmptyKeys ∧
        next.pool.term? mixed' = some b.mixEmptyKeys) ∧
      ∀ next mixed mixed', Reachable next → next.pool.term? mixed = some a.mixEmptyKeys →
        next.pool.term? mixed' = some b.mixEmptyKeys → (text = text' ↔ mixed = mixed') := by
  have closed := reachable_closed reached
  obtain ⟨a, left⟩ := term?_of_knows closed known
  obtain ⟨b, right⟩ := term?_of_knows closed known'
  have apart : (a.mapNames reg.names.spelling).print = (b.mapNames reg.names.spelling).print ↔
      a.mixEmptyKeys = b.mixEmptyKeys :=
    TypeTerm.print_eq_iff.trans (mapNames_spelling_eq_iff closed left right)
  refine ⟨a, b, _, _, left, right, render?_of_term? closed left, render?_of_term? closed right,
    apart, ?_, ?_⟩
  · apply exists_stored_both reached
    · exact TypeTerm.flagsSettled_mixEmptyKeys (Pool.term?_flagsSettled closed.canonical left)
    · exact TypeTerm.flagsSettled_mixEmptyKeys (Pool.term?_flagsSettled closed.canonical right)
    · rw [TypeTerm.names_mixEmptyKeys]
      exact term?_names_known closed left
    · rw [TypeTerm.names_mixEmptyKeys]
      exact term?_names_known closed right
  · intro next mixed mixed' reached' stored stored'
    rw [apart]
    constructor
    · intro same
      rw [← same] at stored'
      exact Pool.term?_injective (reachable_closed reached').canonical stored stored'
    · rintro rfl
      exact Option.some.inj (stored.symm.trans stored')

open TypeExpr (wrapTimes) in
theorem lists_of_odd_class_read_alike :
    let odd := empty.internClass "A>, ?"
    let empties := wrapTimes false .empty 1 odd
    let mixeds := wrapTimes false .mixed 1 (odd.1, empties.2)
    empties.1 ≠ mixeds.1 ∧ ∃ text,
      mixeds.2.render? empties.1 = some text ∧ mixeds.2.render? mixeds.1 = some text := by
  intro odd empties mixeds
  have named : Reachable (empty.internName "A>, ?").2 := .step (.internName _) .fresh trivial
  have reached : Reachable odd.2 :=
    .step (.classNamed _) named (holds_internName empty_closed "A>, ?")
  have stored := term?_internClass empty_closed "A>, ?"
  obtain ⟨whole, _, left, right⟩ :=
    wrapTimes_both reached stored stored false false .empty .mixed 1 1
  obtain ⟨a, b, text, text', left', right', rendered, rendered', apart, _⟩ :=
    rendering_tells_types_apart whole (Pool.shape?_of_term? left) (Pool.shape?_of_term? right)
  cases left.symm.trans left'
  cases right.symm.trans right'
  refine ⟨?_, text, rendered, ?_⟩
  · intro same
    have trees := left.symm.trans ((congrArg _ same).trans right)
    cases trees
  · rw [rendered', apart.mpr rfl]

end Registry
end TypeLattice
