import TypeLattice.Proofs.Registry.Closed
import TypeLattice.Proofs.Terms

/-!
The tree of a stored type. In a closed registry every type has one, types with the same tree are
the same, and a tree does not change when the pool grows.
-/
namespace TypeLattice.Pool

/-- The tree that a type stands for. There is none for an identifier of another pool. -/
def term? (p : Pool) (id : TypeId) : Option (TypeTerm NameId) :=
  match p.shape? id with
  | none => none
  | some ⟨.basic b, nullable⟩ => some (.basic nullable b)
  | some ⟨.instanceOf name, nullable⟩ => some (.instanceOf nullable name)
  | some ⟨.array nonEmpty key elem, nullable⟩ =>
    if _older : elem.age < id.age then (p.term? elem).map (.array nullable nonEmpty key) else none
termination_by id.age

section Constructors
variable {p : Pool} {id : TypeId} {nullable : Bool}

theorem term?_eq_basic {b : BasicKind} :
    p.term? id = some (.basic nullable b) ↔ p.shape? id = some ⟨.basic b, nullable⟩ := by
  rw [term?]
  split <;> rename_i known <;> rw [known]
  · simp
  · simp [and_comm]
  · simp
  · split <;> simp

theorem term?_eq_instanceOf {name : NameId} :
    p.term? id = some (.instanceOf nullable name) ↔
      p.shape? id = some ⟨.instanceOf name, nullable⟩ := by
  rw [term?]
  split <;> rename_i known <;> rw [known]
  · simp
  · simp
  · simp [and_comm]
  · split <;> simp

theorem term?_eq_array {nonEmpty : Bool} {key : ArrayKey} {a : TypeTerm NameId} :
    p.term? id = some (.array nullable nonEmpty key a) ↔
      ∃ elem, p.shape? id = some ⟨.array nonEmpty key elem, nullable⟩ ∧ elem.age < id.age ∧
        p.term? elem = some a := by
  rw [term?]
  split <;> rename_i known <;> rw [known]
  · simp
  · simp
  · simp
  · rename_i nonEmpty' key' elem' nullable'
    constructor
    · intro h
      split at h
      · rename_i older
        obtain ⟨inner, found, same⟩ := Option.map_eq_some_iff.mp h
        cases same
        exact ⟨elem', rfl, older, found⟩
      · cases h
    · rintro ⟨elem, same, older, found⟩
      cases same
      rw [dif_pos older, found, Option.map_some]

end Constructors

theorem shape?_of_term? {p : Pool} {id : TypeId} {a : TypeTerm NameId}
    (stored : p.term? id = some a) : ∃ s, p.shape? id = some s := by
  cases a with
  | basic nullable b => exact ⟨_, term?_eq_basic.mp stored⟩
  | instanceOf nullable name => exact ⟨_, term?_eq_instanceOf.mp stored⟩
  | array nullable nonEmpty key a =>
    obtain ⟨_, known, _⟩ := term?_eq_array.mp stored
    exact ⟨_, known⟩

theorem term?_extends {p q : Pool} (grown : Extends p q) {id : TypeId} {a : TypeTerm NameId}
    (stored : p.term? id = some a) : q.term? id = some a := by
  induction a generalizing id with
  | basic nullable b =>
    exact term?_eq_basic.mpr (extends_shape? grown (term?_eq_basic.mp stored))
  | instanceOf nullable name =>
    exact term?_eq_instanceOf.mpr (extends_shape? grown (term?_eq_instanceOf.mp stored))
  | array nullable nonEmpty key a ih =>
    obtain ⟨elem, known, older, inner⟩ := term?_eq_array.mp stored
    exact term?_eq_array.mpr ⟨elem, extends_shape? grown known, older, ih inner⟩

theorem term?_injective {p : Pool} (canonical : Canonical p) {id other : TypeId}
    {a : TypeTerm NameId} (left : p.term? id = some a) (right : p.term? other = some a) :
    id = other := by
  induction a generalizing id other with
  | basic nullable b =>
    exact shape?_injective canonical (term?_eq_basic.mp left) (term?_eq_basic.mp right)
  | instanceOf nullable name =>
    exact shape?_injective canonical (term?_eq_instanceOf.mp left) (term?_eq_instanceOf.mp right)
  | array nullable nonEmpty key a ih =>
    obtain ⟨elem, known, _, inner⟩ := term?_eq_array.mp left
    obtain ⟨elem', known', _, inner'⟩ := term?_eq_array.mp right
    rw [ih inner inner'] at known
    exact shape?_injective canonical known known'

theorem term?_eq_iff {p : Pool} (canonical : Canonical p) {id other : TypeId}
    {a b : TypeTerm NameId} (left : p.term? id = some a) (right : p.term? other = some b) :
    id = other ↔ a = b := by
  constructor
  · rintro rfl
    exact Option.some.inj (left.symm.trans right)
  · rintro rfl
    exact term?_injective canonical left right

theorem term?_flagsSettled {p : Pool} (canonical : p.Canonical) {id : TypeId}
    {a : TypeTerm NameId} (stored : p.term? id = some a) : a.FlagsSettled := by
  induction a generalizing id with
  | basic nullable b =>
    intro marked
    have own := ((shape?_eq_some_iff canonical).mp (term?_eq_basic.mp stored)).1
    have flag := congrArg Shape.nullable own
    cases settles : b.inherentNull? with
    | none => rfl
    | some answer => simp [Shape.canonical, Shape.of, Kind.inherentNull?, settles, marked] at flag
  | instanceOf nullable name => trivial
  | array nullable nonEmpty key elem ih =>
    obtain ⟨_, _, _, inner⟩ := term?_eq_array.mp stored
    exact ih inner

end TypeLattice.Pool

namespace TypeLattice.Registry
variable {reg : Registry} (closed : Closed reg)
include closed

theorem term?_of_shape? {id : TypeId} {s : TypeShape} (known : reg.pool.shape? id = some s) :
    ∃ a, reg.pool.term? id = some a := by
  induction age : id.age using Nat.strongRecOn generalizing id s with
  | ind n ih =>
    obtain ⟨kind, nullable⟩ := s
    cases kind with
    | basic b => exact ⟨_, Pool.term?_eq_basic.mpr known⟩
    | instanceOf name => exact ⟨_, Pool.term?_eq_instanceOf.mpr known⟩
    | array nonEmpty key elem =>
      have older := closed.older id nonEmpty key elem nullable known
      obtain ⟨inner, held⟩ := closed.parts id _ known
      obtain ⟨a, found⟩ := ih elem.age (age ▸ older) held rfl
      exact ⟨_, Pool.term?_eq_array.mpr ⟨elem, known, older, found⟩⟩

theorem term?_of_knows {id : TypeId} (known : reg.pool.Knows id) :
    ∃ a, reg.pool.term? id = some a := by
  obtain ⟨s, shape⟩ := known
  exact term?_of_shape? closed shape

theorem term?_internClass (name : String) :
    (reg.internClass name).2.pool.term? (reg.internClass name).1 =
      some (.instanceOf false (reg.internName name).1) :=
  Pool.term?_eq_instanceOf.mpr (Pool.shape?_intern closed.canonical _)

theorem term?_intern_array {elem : TypeId} {a : TypeTerm NameId}
    (stored : reg.pool.term? elem = some a) (nonEmpty : Bool) (key : ArrayKey) :
    let r := reg.intern (.of (.array nonEmpty key elem) false)
    r.2.pool.term? r.1 = some (.array false nonEmpty key a) := by
  intro r
  have known : r.2.pool.shape? r.1 = some ⟨.array nonEmpty key elem, false⟩ :=
    Pool.shape?_intern closed.canonical (.of (.array nonEmpty key elem) false)
  have held : reg.Holds (.array nonEmpty key elem) := Pool.shape?_of_term? stored
  have whole : Closed r.2 := intern_closed closed held
  have older := whole.older _ _ _ _ _ known
  have kept : r.2.pool.term? elem = some a :=
    Pool.term?_extends (extends_intern reg _).pool stored
  exact Pool.term?_eq_array.mpr ⟨elem, known, older, kept⟩

theorem term?_names_known {id : TypeId} {a : TypeTerm NameId}
    (stored : reg.pool.term? id = some a) :
    ∀ name ∈ a.names, ∃ spelling, reg.names.spelling? name = some spelling := by
  induction a generalizing id with
  | basic nullable b => intro name member; cases member
  | instanceOf nullable name =>
    intro other member
    rw [List.mem_singleton.mp member]
    exact closed.parts id _ (Pool.term?_eq_instanceOf.mp stored)
  | array nullable nonEmpty key a ih =>
    obtain ⟨elem, _, _, inner⟩ := Pool.term?_eq_array.mp stored
    exact ih inner

end TypeLattice.Registry
