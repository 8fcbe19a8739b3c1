import Mathlib.Logic.Relation
import TypeLattice.Hierarchy

/-!
The search for a class among the classes above another finds it if and only if a chain of declared
edges leads there, whatever cycles the edges form. So being a subclass is reflexive and transitive.
-/
namespace TypeLattice.Hierarchy
open Relation (TransGen ReflTransGen)

def Edge (edges : List ParentEdge) (child parent : NameId) : Prop := ⟨child, parent⟩ ∈ edges

section Search
variable {child other parent goal : NameId} {edges : List ParentEdge}

theorem mem_parents_iff :
    parent ∈ (outOf child edges).map ParentEdge.parent ↔ Edge edges child parent := by
  simp only [outOf, Edge, List.mem_map, List.mem_filter, decide_eq_true_eq]
  constructor
  · rintro ⟨e, ⟨member, rfl⟩, rfl⟩
    exact member
  · intro member
    exact ⟨_, ⟨member, rfl⟩, rfl⟩

theorem edge_without_iff :
    Edge (without child edges) other parent ↔ Edge edges other parent ∧ other ≠ child := by
  simp [without, Edge]

theorem chain_of_without (chain : TransGen (Edge (without child edges)) other goal) :
    TransGen (Edge edges) other goal :=
  chain.lift id fun _ _ edge => (edge_without_iff.mp edge).1

/-- No chain that avoids the edges of a class starts there. -/
theorem no_chain_without (goal : NameId) :
    ¬ TransGen (Edge (without child edges)) child goal := by
  intro chain
  obtain ⟨_, edge, _⟩ := TransGen.head'_iff.mp chain
  exact (edge_without_iff.mp edge).2 rfl

/-- After its last visit to a class, a chain is at the goal or goes on from a parent of the class
without coming back. -/
theorem chain_cases (child : NameId) (chain : TransGen (Edge edges) other goal) :
    TransGen (Edge (without child edges)) other goal ∨ Edge edges child goal ∨
      ∃ next, Edge edges child next ∧ TransGen (Edge (without child edges)) next goal := by
  induction chain with
  | @single goal edge =>
    by_cases same : other = child
    · subst same
      exact Or.inr (Or.inl edge)
    · exact Or.inl (TransGen.single (edge_without_iff.mpr ⟨edge, same⟩))
  | @tail last goal _ edge ih =>
    by_cases same : last = child
    · subst same
      exact Or.inr (Or.inl edge)
    · have away : Edge (without child edges) last goal := edge_without_iff.mpr ⟨edge, same⟩
      rcases ih with avoiding | reached | ⟨next, first, rest⟩
      · exact Or.inl (avoiding.tail away)
      · exact Or.inr (Or.inr ⟨last, reached, TransGen.single away⟩)
      · exact Or.inr (Or.inr ⟨next, first, rest.tail away⟩)

end Search

/-- The search finds what a chain of edges leads to. -/
theorem reaches_iff (goal : NameId) (edges : List ParentEdge) (pending : List NameId) :
    reaches goal edges pending = true ↔ ∃ c ∈ pending, TransGen (Edge edges) c goal := by
  fun_induction reaches goal edges pending with
  | case1 edges => simp
  | case2 edges child pending next ih =>
    have parents (parent : NameId) : parent ∈ next ↔ Edge edges child parent := mem_parents_iff
    rw [Bool.or_eq_true, ih, List.contains_iff_mem, parents]
    constructor
    · rintro (edge | ⟨c, member, chain⟩)
      · exact ⟨child, List.mem_cons_self .., TransGen.single edge⟩
      · rcases List.mem_append.mp member with first | later
        · exact ⟨child, List.mem_cons_self .., (chain_of_without chain).head ((parents c).mp first)⟩
        · exact ⟨c, List.mem_cons_of_mem _ later, chain_of_without chain⟩
    · rintro ⟨c, member, chain⟩
      rcases chain_cases child chain with avoiding | edge | ⟨parent, edge, rest⟩
      · rcases List.mem_cons.mp member with rfl | later
        · exact absurd avoiding (no_chain_without goal)
        · exact Or.inr ⟨c, List.mem_append_right _ later, avoiding⟩
      · exact Or.inl edge
      · exact Or.inr ⟨parent, List.mem_append_left _ ((parents parent).mpr edge), rest⟩

theorem isSubclass_iff (h : Hierarchy) (sub sup : NameId) :
    h.isSubclass sub sup = true ↔ ReflTransGen (Edge h.edges) sub sup := by
  rw [isSubclass, Bool.or_eq_true, beq_iff_eq, reaches_iff, Relation.reflTransGen_iff_eq_or_transGen,
    eq_comm]
  simp

theorem isSubclass_trans (h : Hierarchy) {low middle high : NameId}
    (first : h.isSubclass low middle = true) (second : h.isSubclass middle high = true) :
    h.isSubclass low high = true := by
  rw [isSubclass_iff] at first second ⊢
  exact first.trans second

end TypeLattice.Hierarchy
