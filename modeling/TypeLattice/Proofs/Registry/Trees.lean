import TypeLattice.Proofs.Pool.Terms

/-!
Trees that can be compared across registries: classes are labelled by their spelling without regard
to case, which does not depend on who wrote it first.
-/
namespace TypeLattice

namespace TypeTerm
variable {ν μ : Type}

theorem mapNames_injective {f : ν → μ} {a b : TypeTerm ν}
    (injective : ∀ x ∈ a.names, ∀ y ∈ b.names, f x = f y → x = y)
    (same : a.mapNames f = b.mapNames f) : a = b := by
  induction a generalizing b with
  | basic nullable c =>
    cases b with
    | basic => simpa only [mapNames, basic.injEq] using same
    | instanceOf | array => cases same
  | instanceOf nullable name =>
    cases b with
    | instanceOf other sup =>
      simp only [mapNames, instanceOf.injEq] at same
      rw [same.1, injective name (List.mem_singleton_self name) sup (List.mem_singleton_self sup)
        same.2]
    | basic | array => cases same
  | array nullable nonEmpty key elem ih =>
    cases b with
    | array _ _ _ elem' =>
      simp only [mapNames, array.injEq] at same
      obtain ⟨rfl, rfl, rfl, inner⟩ := same
      rw [ih (b := elem') injective inner]
    | basic | instanceOf => cases same

end TypeTerm

namespace NameTable

/-- What all spellings of a class have in common. -/
def label (t : NameTable) (id : NameId) : String := Name.folded ((t.spelling? id).getD "")

theorem label_of_find? {t : NameTable} (filed : Filed t) {name : String} {id : NameId}
    (found : t.find? name = some id) : t.label id = String.ofList (Name.key name.toList) := by
  obtain ⟨spelling, known, same⟩ := (find?_eq_some_iff filed).mp found
  rw [label, known]
  exact same

theorem label_injective {t : NameTable} (filed : Filed t) {id other : NameId}
    {spelling spelling' : String} (left : t.spelling? id = some spelling)
    (right : t.spelling? other = some spelling') (same : t.label id = t.label other) :
    id = other := by
  simp only [label, left, right, Option.getD_some] at same
  have first := (filed (Name.folded spelling') id.index).mpr ⟨spelling, left, same⟩
  have second := (filed (Name.folded spelling') other.index).mpr ⟨spelling', right, rfl⟩
  have index := Option.some.inj (first.symm.trans second)
  cases id
  cases other
  exact congrArg NameId.mk index

end NameTable

namespace Registry

/-- The tree of a type, with classes labelled. There is none for an identifier of another
registry. -/
def tree? (reg : Registry) (id : TypeId) : Option (TypeTerm String) :=
  (reg.pool.term? id).map (·.mapNames reg.names.label)

theorem tree?_eq_some_iff {reg : Registry} {id : TypeId} {a : TypeTerm String} :
    reg.tree? id = some a ↔
      ∃ term, reg.pool.term? id = some term ∧ term.mapNames reg.names.label = a :=
  Option.map_eq_some_iff

theorem tree?_basic (reg : Registry) (b : BasicKind) :
    reg.tree? (.basic b) = some (.basic false b) :=
  tree?_eq_some_iff.mpr ⟨_, Pool.term?_eq_basic.mpr rfl, rfl⟩

variable {reg : Registry} (closed : Closed reg)
include closed

theorem tree?_of_shape? {id : TypeId} {s : TypeShape} (known : reg.pool.shape? id = some s) :
    ∃ a, reg.tree? id = some a := by
  obtain ⟨term, stored⟩ := term?_of_shape? closed known
  exact ⟨_, tree?_eq_some_iff.mpr ⟨term, stored, rfl⟩⟩

/-- All spellings of a class lead to the same tree. -/
theorem tree?_internClass (name : String) :
    (reg.internClass name).2.tree? (reg.internClass name).1 =
      some (.instanceOf false (String.ofList (Name.key name.toList))) := by
  refine tree?_eq_some_iff.mpr ⟨_, term?_internClass closed name, ?_⟩
  have filed := NameTable.intern_filed closed.names name
  exact congrArg _ (NameTable.label_of_find? filed (NameTable.find?_intern _ name))

theorem label_injective_on_terms {id other : TypeId} {a b : TypeTerm NameId}
    (left : reg.pool.term? id = some a) (right : reg.pool.term? other = some b) :
    ∀ x ∈ a.names, ∀ y ∈ b.names, reg.names.label x = reg.names.label y → x = y := by
  intro x inLeft y inRight same
  obtain ⟨spelling, known⟩ := term?_names_known closed left x inLeft
  obtain ⟨spelling', known'⟩ := term?_names_known closed right y inRight
  exact NameTable.label_injective closed.names known known' same

theorem tree?_injective {id other : TypeId} {a : TypeTerm String}
    (left : reg.tree? id = some a) (right : reg.tree? other = some a) : id = other := by
  obtain ⟨term, stored, rfl⟩ := tree?_eq_some_iff.mp left
  obtain ⟨term', stored', same⟩ := tree?_eq_some_iff.mp right
  have equal := TypeTerm.mapNames_injective
    (label_injective_on_terms closed stored' stored) same
  rw [equal] at stored'
  exact Pool.term?_injective closed.canonical stored stored'

end Registry
end TypeLattice
