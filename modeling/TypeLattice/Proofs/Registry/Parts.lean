import TypeLattice.Proofs.Registry.Closed
import TypeLattice.Proofs.Terms

/-!
The parts of an annotation: its elements at every depth and itself, each without and with its question
mark. Adding an annotation adds the types of its parts and nothing else. A registry that has grown
from there stores them all, and adding them again gives the same types and leaves it as it is.
-/
namespace TypeLattice

namespace NameTable

/-- The names of a table after a request are those it had before, and the one it was asked for. -/
theorem spelling?_intern_cases {t : NameTable} {name spelling : String} {id : NameId}
    (known : (t.intern name).2.spelling? id = some spelling) :
    t.spelling? id = some spelling ∨ id = (t.intern name).1 := by
  rcases Table.get?_intern_cases known with old | ⟨absent, last, _⟩
  · exact Or.inl old
  · right
    simp only [intern, Table.intern_new absent, ← last]

end NameTable

namespace Registry

/-- Whether adding an annotation finds its type and changes nothing. -/
def Stores (reg : Registry) (a : WrittenType) (id : TypeId) : Prop := reg.add a = (id, reg)

/-! ### Adding again -/

section Again
variable {reg later : Registry}

theorem intern_again (closed : Closed reg) (closed' : Closed later) {s : TypeShape}
    (grown : Extends (reg.intern s).2 later) : later.intern s = ((reg.intern s).1, later) := by
  have kept := Pool.extends_shape? grown.pool (Pool.shape?_intern closed.canonical s)
  have known := Pool.intern_known closed'.canonical kept
  simp only [intern, known]

theorem internName_again (closed : Closed reg) (closed' : Closed later) {name : String}
    (grown : Extends (reg.internName name).2 later) :
    later.internName name = ((reg.internName name).1, later) := by
  have filed := NameTable.intern_filed closed.names name
  have found := NameTable.find?_extends filed closed'.names grown.names
    (NameTable.find?_intern reg.names name)
  simp only [internName, NameTable.intern_known found]

theorem extends_internMarked_bare (reg : Registry) (nullable : Bool) (kind : Kind NameId TypeId) :
    Extends (reg.internMarked false kind).2 (reg.internMarked nullable kind).2 := by
  cases nullable with
  | false => exact extends_refl _
  | true => exact extends_intern _ _

theorem internMarked_again (closed : Closed reg) (closed' : Closed later)
    {kind : Kind NameId TypeId} (held : reg.Holds kind) {nullable : Bool}
    (grown : Extends (reg.internMarked nullable kind).2 later) :
    later.internMarked nullable kind = ((reg.internMarked nullable kind).1, later) := by
  have plain : later.intern (.of kind false) = ((reg.intern (.of kind false)).1, later) :=
    intern_again closed closed' (extends_trans (extends_internMarked_bare reg nullable kind) grown)
  cases nullable with
  | false => exact plain
  | true =>
    have between : Closed (reg.intern (.of kind false)).2 := intern_closed closed held
    rw [internMarked, plain]
    exact intern_again between closed' grown

/-- Whatever was added is there for good. -/
theorem add_again (closed : Closed reg) (closed' : Closed later) {a : WrittenType}
    (grown : Extends (reg.add a).2 later) : later.Stores a (reg.add a).1 := by
  induction a with
  | basic nullable b =>
    have held : reg.Holds (.basic b) := trivial
    exact internMarked_again closed closed' held grown
  | instanceOf nullable name =>
    have named := internName_closed closed name
    have whole := extends_internMarked (reg.internName name).2 nullable
      (.instanceOf (reg.internName name).1)
    rw [Stores, add_instanceOf, internName_again closed closed' (extends_trans whole grown)]
    exact internMarked_again named closed' (holds_internName closed name) grown
  | array nullable nonEmpty key elem ih =>
    obtain ⟨within, known⟩ := add_closed closed elem
    have held : (reg.add elem).2.Holds (.array nonEmpty key (reg.add elem).1) := known
    rw [add_array] at grown
    have inner : later.Stores elem (reg.add elem).1 :=
      ih (extends_trans (extends_internMarked _ nullable _) grown)
    rw [Stores, add_array, add_array, inner]
    exact internMarked_again within closed' held grown

end Again

/-! ### What is added -/

/-- Adding a part goes no further than adding the whole. -/
theorem extends_add_part {a part : WrittenType} (member : part ∈ a.parts) (reg : Registry) :
    Extends (reg.add part).2 (reg.add a).2 := by
  induction a with
  | basic nullable b =>
    simp only [TypeTerm.parts, List.mem_cons, List.not_mem_nil, or_false] at member
    rcases member with rfl | rfl
    · exact extends_internMarked_bare reg nullable _
    · exact extends_refl _
  | instanceOf nullable name =>
    simp only [TypeTerm.parts, List.mem_cons, List.not_mem_nil, or_false] at member
    rcases member with rfl | rfl
    · exact extends_internMarked_bare _ nullable _
    · exact extends_refl _
  | array nullable nonEmpty key elem ih =>
    rcases TypeTerm.mem_parts_array.mp member with inner | rfl | rfl
    · rw [add_array]
      exact extends_trans (ih inner) (extends_internMarked _ nullable _)
    · rw [add_array, add_array]
      exact extends_internMarked_bare _ nullable _
    · exact extends_refl _

theorem stores_part {reg later : Registry} (closed : Closed reg) (closed' : Closed later)
    {a part : WrittenType} (member : part ∈ a.parts) (grown : Extends (reg.add a).2 later) :
    later.Stores part (reg.add part).1 :=
  add_again closed closed' (extends_trans (extends_add_part member reg) grown)

theorem knows_intern_cases {reg : Registry} (closed : Closed reg) {s : TypeShape} {id : TypeId}
    (known : (reg.intern s).2.pool.Knows id) : reg.pool.Knows id ∨ id = (reg.intern s).1 := by
  obtain ⟨shape, stored⟩ := known
  rcases Pool.shape?_intern_cases stored with old | ⟨_, rfl⟩
  · exact Or.inl ⟨shape, old⟩
  · exact Or.inr (Pool.shape?_injective (Pool.intern_canonical closed.canonical s) stored
      (Pool.shape?_intern closed.canonical s))

theorem knows_internMarked_cases {reg : Registry} (closed : Closed reg)
    {kind : Kind NameId TypeId} (held : reg.Holds kind) {nullable : Bool} {id : TypeId}
    (known : (reg.internMarked nullable kind).2.pool.Knows id) :
    reg.pool.Knows id ∨ id = (reg.internMarked false kind).1 ∨
      id = (reg.internMarked nullable kind).1 := by
  cases nullable with
  | false => exact (knows_intern_cases closed known).imp_right Or.inl
  | true =>
    have between : Closed (reg.intern (.of kind false)).2 := intern_closed closed held
    rcases knows_intern_cases between known with old | marked
    · exact (knows_intern_cases closed old).imp_right Or.inl
    · exact Or.inr (Or.inr marked)

/-- Every type that an annotation adds is the type of one of its parts. -/
theorem knows_add_cases {reg : Registry} (closed : Closed reg) {a : WrittenType} {id : TypeId}
    (known : (reg.add a).2.pool.Knows id) :
    reg.pool.Knows id ∨ ∃ part ∈ a.parts, id = (reg.add part).1 := by
  induction a with
  | basic nullable b =>
    have held : reg.Holds (.basic b) := trivial
    rcases knows_internMarked_cases closed held known with old | same | same
    · exact Or.inl old
    · exact Or.inr ⟨_, TypeTerm.bare_mem_parts (.basic nullable b), same⟩
    · exact Or.inr ⟨_, TypeTerm.self_mem_parts _, same⟩
  | instanceOf nullable name =>
    have named := internName_closed closed name
    rcases knows_internMarked_cases named (holds_internName closed name) known with
      old | same | same
    · exact Or.inl old
    · exact Or.inr ⟨_, TypeTerm.bare_mem_parts (.instanceOf nullable name), same⟩
    · exact Or.inr ⟨_, TypeTerm.self_mem_parts _, same⟩
  | array nullable nonEmpty key elem ih =>
    obtain ⟨within, stored⟩ := add_closed closed elem
    have held : (reg.add elem).2.Holds (.array nonEmpty key (reg.add elem).1) := stored
    rw [add_array] at known
    rcases knows_internMarked_cases within held known with old | same | same
    · rcases ih old with old | ⟨part, member, same⟩
      · exact Or.inl old
      · exact Or.inr ⟨part, TypeTerm.mem_parts_array.mpr (Or.inl member), same⟩
    · refine Or.inr ⟨_, TypeTerm.bare_mem_parts (.array nullable nonEmpty key elem), ?_⟩
      rw [TypeTerm.bare, add_array]
      exact same
    · refine Or.inr ⟨_, TypeTerm.self_mem_parts _, ?_⟩
      rw [add_array]
      exact same

/-- Every name that an annotation adds is one that is written in it. -/
theorem spelled_add_cases {reg : Registry} {a : WrittenType} {name : NameId} {spelling : String}
    (known : (reg.add a).2.names.spelling? name = some spelling) :
    reg.names.spelling? name = some spelling ∨
      ∃ written ∈ a.names, name = (reg.internName written).1 := by
  induction a with
  | basic nullable b =>
    left
    rw [← names_internMarked reg nullable (.basic b)]
    exact known
  | instanceOf nullable written =>
    rw [add_instanceOf, names_internMarked] at known
    rcases NameTable.spelling?_intern_cases known with old | same
    · exact Or.inl old
    · exact Or.inr ⟨written, List.mem_singleton_self written, same⟩
  | array nullable nonEmpty key elem ih =>
    rw [add_array, names_internMarked] at known
    exact ih known

end Registry
end TypeLattice
