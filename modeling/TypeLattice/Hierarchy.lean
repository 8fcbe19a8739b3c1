import TypeLattice.Name.Table

/-!
Class hierarchies: which class directly extends or implements which. A class is below another
when a chain of such edges leads to it. The edges may form cycles.
-/
namespace TypeLattice

structure ParentEdge where
  child : NameId
  parent : NameId
  deriving DecidableEq, Repr

/-- The edges in the order of their first mention. -/
structure Hierarchy where
  edges : List ParentEdge
  deriving DecidableEq, Repr

namespace Hierarchy

def empty : Hierarchy := ⟨[]⟩

def declare (h : Hierarchy) (child parent : NameId) : Hierarchy :=
  let edge : ParentEdge := ⟨child, parent⟩
  if edge ∈ h.edges then h else ⟨h.edges ++ [edge]⟩

def outOf (child : NameId) (edges : List ParentEdge) : List ParentEdge :=
  edges.filter fun e => decide (e.child = child)

def without (child : NameId) (edges : List ParentEdge) : List ParentEdge :=
  edges.filter fun e => !decide (e.child = child)

theorem length_outOf_add_without (child : NameId) (edges : List ParentEdge) :
    (outOf child edges).length + (without child edges).length = edges.length := by
  induction edges with
  | nil => rfl
  | cons e es ih =>
    simp only [outOf, without] at ih ⊢
    by_cases same : e.child = child <;> simp [same] <;> omega

def parentsOf (h : Hierarchy) (child : NameId) : List NameId :=
  (outOf child h.edges).map ParentEdge.parent

/-- Whether an edge leads from one of the `pending` classes, directly or through others, to
`goal`. The edges of a class are used up when the class is left, so a cycle ends the search. -/
def reaches (goal : NameId) (edges : List ParentEdge) : List NameId → Bool
  | [] => false
  | child :: pending =>
    let next := (outOf child edges).map ParentEdge.parent
    next.contains goal || reaches goal (without child edges) (next ++ pending)
termination_by pending => edges.length + pending.length
decreasing_by
  have := length_outOf_add_without child edges
  simp only [List.length_append, List.length_map, List.length_cons]
  omega

/-- Whether `sub` is `sup` or lies below it. -/
def isSubclass (h : Hierarchy) (sub sup : NameId) : Bool :=
  sub == sup || reaches sup h.edges [sub]

end Hierarchy

abbrev Resolver := NameId → NameId → Bool

/-- The resolver that knows of no declarations. -/
def sameClass : Resolver := fun sub sup => sub == sup

end TypeLattice
