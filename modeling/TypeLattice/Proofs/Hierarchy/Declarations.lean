import Mathlib.Data.List.Induction
import TypeLattice.Proofs.Hierarchy

/-!
Hierarchies that are built by declarations. The declarations alone tell what such a hierarchy
answers, in whatever order and however often an edge was declared: a class is below another if a
chain of declared edges leads there, and its parents are listed in the order of their first mention.
-/
namespace TypeLattice.Hierarchy
open Relation (ReflTransGen)

/-- The hierarchy after some declarations, one after the other. -/
def declareAll (h : Hierarchy) (calls : List ParentEdge) : Hierarchy :=
  calls.foldl (fun h call => h.declare call.child call.parent) h

theorem declareAll_concat (h : Hierarchy) (calls : List ParentEdge) (call : ParentEdge) :
    h.declareAll (calls ++ [call]) = (h.declareAll calls).declare call.child call.parent :=
  List.foldl_append

/-! ### Edges -/

theorem mem_declare {h : Hierarchy} {child parent : NameId} {edge : ParentEdge} :
    edge ∈ (h.declare child parent).edges ↔ edge ∈ h.edges ∨ edge = ⟨child, parent⟩ := by
  rw [declare]
  split
  · next known =>
    constructor
    · exact Or.inl
    · rintro (old | rfl)
      · exact old
      · exact known
  · simp

theorem mem_declareAll {h : Hierarchy} {calls : List ParentEdge} {edge : ParentEdge} :
    edge ∈ (h.declareAll calls).edges ↔ edge ∈ h.edges ∨ edge ∈ calls := by
  induction calls generalizing h with
  | nil => simp [declareAll]
  | cons call calls ih =>
    have first : h.declareAll (call :: calls) =
      (h.declare call.child call.parent).declareAll calls := rfl
    rw [first, ih, mem_declare, List.mem_cons, or_assoc]

/-- A chain of stored edges is a chain of declared ones. -/
theorem edge_declareAll (calls : List ParentEdge) :
    Edge (empty.declareAll calls).edges = Edge calls := by
  funext child parent
  simp [Edge, mem_declareAll, empty]

theorem isSubclass_declareAll_iff (calls : List ParentEdge) (sub sup : NameId) :
    (empty.declareAll calls).isSubclass sub sup = true ↔ ReflTransGen (Edge calls) sub sup := by
  rw [isSubclass_iff, edge_declareAll]

theorem isSubclass_declareAll_mono {calls more : List ParentEdge} (grown : calls ⊆ more)
    {sub sup : NameId} (below : (empty.declareAll calls).isSubclass sub sup = true) :
    (empty.declareAll more).isSubclass sub sup = true := by
  rw [isSubclass_declareAll_iff] at below ⊢
  exact below.lift id fun _ _ edge => grown edge

/-! ### Parents -/

theorem mem_parentsOf {h : Hierarchy} {child parent : NameId} :
    parent ∈ h.parentsOf child ↔ (⟨child, parent⟩ : ParentEdge) ∈ h.edges :=
  mem_parents_iff

theorem parentsOf_declare (h : Hierarchy) (child parent : NameId) :
    (h.declare child parent).parentsOf child =
      if parent ∈ h.parentsOf child then h.parentsOf child else h.parentsOf child ++ [parent] := by
  rw [declare]
  by_cases known : (⟨child, parent⟩ : ParentEdge) ∈ h.edges
  · rw [if_pos known, if_pos (mem_parentsOf.mpr known)]
  · rw [if_neg known, if_neg (mt mem_parentsOf.mp known)]
    simp [parentsOf, outOf]

theorem parentsOf_declare_of_ne (h : Hierarchy) {child other : NameId} (apart : other ≠ child)
    (parent : NameId) : (h.declare child parent).parentsOf other = h.parentsOf other := by
  rw [declare]
  split
  · rfl
  · simp [parentsOf, outOf, apart.symm]

/-- The parents that some declarations mention for a class, with repetitions. -/
def mentioned (child : NameId) (calls : List ParentEdge) : List NameId :=
  (outOf child calls).map ParentEdge.parent

theorem mentioned_concat (child : NameId) (calls : List ParentEdge) (call : ParentEdge) :
    mentioned child (calls ++ [call]) =
      if call.child = child then mentioned child calls ++ [call.parent]
      else mentioned child calls := by
  by_cases same : call.child = child <;> simp [mentioned, outOf, same]

theorem eraseDups_concat (names : List NameId) (name : NameId) :
    (names ++ [name]).eraseDups =
      if name ∈ names then names.eraseDups else names.eraseDups ++ [name] := by
  rw [List.eraseDups_append]
  by_cases known : name ∈ names <;> simp [List.removeAll, known, List.eraseDups_cons]

/-- By induction on the last declaration, which is the one that may bring a new parent. -/
theorem parentsOf_declareAll (calls : List ParentEdge) (child : NameId) :
    (empty.declareAll calls).parentsOf child = (mentioned child calls).eraseDups := by
  induction calls using List.reverseRecOn with
  | nil => rfl
  | append_singleton calls call ih =>
    obtain ⟨owner, parent⟩ := call
    rw [declareAll_concat, mentioned_concat]
    by_cases same : owner = child
    · subst same
      rw [parentsOf_declare, ih, if_pos rfl, eraseDups_concat]
      simp only [List.mem_eraseDups]
    · rw [parentsOf_declare_of_ne _ (Ne.symm same), ih, if_neg same]

/-! ### Answers -/

/-- What a hierarchy answers if `calls` are the declarations it was told. -/
structure Follows (h : Hierarchy) (calls : List ParentEdge) : Prop where
  chains : ∀ sub sup, h.isSubclass sub sup = true ↔ ReflTransGen (Edge calls) sub sup
  reflexive : ∀ c, h.isSubclass c c = true
  transitive : ∀ low middle high, h.isSubclass low middle = true →
    h.isSubclass middle high = true → h.isSubclass low high = true
  grows : ∀ more, calls ⊆ more → ∀ sub sup, h.isSubclass sub sup = true →
    (empty.declareAll more).isSubclass sub sup = true
  unordered : ∀ others, (∀ call, call ∈ others ↔ call ∈ calls) → ∀ sub sup,
    (empty.declareAll others).isSubclass sub sup = h.isSubclass sub sup
  parents : ∀ child, h.parentsOf child = (mentioned child calls).eraseDups
  apart : ∀ child parent other, other ≠ child →
    (h.declare child parent).parentsOf other = h.parentsOf other

/-- Whatever is declared, cycles and repetitions included, a class is below another exactly if a
chain of declarations leads there, and its parents are those declared, each once. -/
theorem declarations_are_followed (calls : List ParentEdge) :
    (empty.declareAll calls).Follows calls := by
  constructor
  case chains => exact isSubclass_declareAll_iff calls
  case reflexive =>
    intro c
    exact (isSubclass_declareAll_iff calls c c).mpr .refl
  case transitive =>
    intro low middle high first second
    exact isSubclass_trans _ first second
  case grows =>
    intro more grown sub sup below
    exact isSubclass_declareAll_mono grown below
  case unordered =>
    intro others same sub sup
    rw [Bool.eq_iff_iff]
    constructor
    · exact isSubclass_declareAll_mono fun call member => (same call).mp member
    · exact isSubclass_declareAll_mono fun call member => (same call).mpr member
  case parents => exact parentsOf_declareAll calls
  case apart =>
    intro child parent other apart
    exact parentsOf_declare_of_ne _ apart parent

end TypeLattice.Hierarchy
