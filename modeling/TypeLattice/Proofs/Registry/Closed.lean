import TypeLattice.Proofs.Names
import TypeLattice.Proofs.Registry.Adding

/-!
Closed registries: whatever a stored type refers to is there. The element of an array is a type
that was stored before the array, and the name of a class has a spelling.
-/
namespace TypeLattice.Registry

/-- Whether the parts of a kind are in a registry. -/
def Holds (reg : Registry) : Kind NameId TypeId → Prop
  | .basic _ => True
  | .instanceOf name => ∃ spelling, reg.names.spelling? name = some spelling
  | .array _ _ elem => ∃ s, reg.pool.shape? elem = some s

structure Closed (reg : Registry) : Prop where
  names : reg.names.Filed
  canonical : reg.pool.Canonical
  parts : ∀ id s, reg.pool.shape? id = some s → reg.Holds s.kind
  older : ∀ id nonEmpty key elem nullable,
    reg.pool.shape? id = some ⟨.array nonEmpty key elem, nullable⟩ → elem.age < id.age

structure Extends (reg next : Registry) : Prop where
  names : NameTable.Extends reg.names next.names
  pool : Pool.Extends reg.pool next.pool

theorem extends_refl (reg : Registry) : Extends reg reg :=
  ⟨NameTable.extends_refl _, Pool.extends_refl _⟩

theorem extends_trans {reg next last : Registry} (first : Extends reg next)
    (second : Extends next last) : Extends reg last :=
  ⟨NameTable.extends_trans first.names second.names, Pool.extends_trans first.pool second.pool⟩

theorem holds_extends {reg next : Registry} (grown : Extends reg next)
    {kind : Kind NameId TypeId} (held : reg.Holds kind) : next.Holds kind := by
  cases kind with
  | basic b => trivial
  | instanceOf name =>
    obtain ⟨spelling, known⟩ := held
    exact ⟨spelling, grown.names name spelling known⟩
  | array nonEmpty key elem =>
    obtain ⟨s, known⟩ := held
    exact ⟨s, Pool.extends_shape? grown.pool known⟩

theorem empty_closed : Closed empty where
  names := NameTable.empty_filed
  canonical := Pool.empty_canonical
  parts := by
    intro id s known
    obtain ⟨e, held, rfl⟩ := Option.map_eq_some_iff.mp known
    cases id <;> cases held <;> trivial
  older := by
    intro id nonEmpty key elem nullable known
    obtain ⟨e, held, shape⟩ := Option.map_eq_some_iff.mp known
    cases id <;> cases held <;> cases shape

theorem extends_intern (reg : Registry) (s : TypeShape) : Extends reg (reg.intern s).2 :=
  ⟨NameTable.extends_refl _, Pool.extends_intern _ _⟩

theorem extends_internName (reg : Registry) (name : String) :
    Extends reg (reg.internName name).2 :=
  ⟨NameTable.extends_intern _ _, Pool.extends_refl _⟩

theorem intern_closed {reg : Registry} (closed : Closed reg) {s : TypeShape}
    (held : reg.Holds s.kind) : Closed (reg.intern s).2 where
  names := closed.names
  canonical := Pool.intern_canonical closed.canonical s
  parts := by
    intro id known h
    apply holds_extends (extends_intern reg s)
    rcases Pool.shape?_intern_cases h with old | ⟨_, rfl⟩
    · exact closed.parts id known old
    · exact held
  older := by
    intro id nonEmpty key elem nullable h
    rcases Pool.shape?_intern_cases h with old | ⟨rfl, shape⟩
    · exact closed.older id nonEmpty key elem nullable old
    · have kind : s.kind = .array nonEmpty key elem := (congrArg Shape.kind shape).symm
      rw [kind] at held
      obtain ⟨inner, known⟩ := held
      exact Nat.lt_succ_of_le (Pool.age_le_size known)

theorem internName_closed {reg : Registry} (closed : Closed reg) (name : String) :
    Closed (reg.internName name).2 where
  names := NameTable.intern_filed closed.names name
  canonical := closed.canonical
  parts := fun id s known => holds_extends (extends_internName reg name) (closed.parts id s known)
  older := closed.older

theorem holds_internName {reg : Registry} (closed : Closed reg) (name : String) :
    (reg.internName name).2.Holds (.instanceOf (reg.internName name).1) :=
  NameTable.spelling?_intern closed.names name

/-! ### Related types -/

theorem holds_withNullable {reg : Registry} {s : TypeShape} (held : reg.Holds s.kind)
    (nullable : Bool) : reg.Holds (s.withNullable nullable).kind := by
  obtain ⟨kind, flag⟩ := s
  cases kind with
  | basic b => cases b <;> cases nullable <;> trivial
  | instanceOf name => cases nullable <;> exact held
  | array nonEmpty key elem => cases nullable <;> exact held

theorem holds_truthy {reg : Registry} {s : TypeShape} (held : reg.Holds s.kind) :
    reg.Holds s.truthy.kind := by
  obtain ⟨kind, flag⟩ := s
  cases kind with
  | basic b => cases b <;> cases flag <;> trivial
  | instanceOf name => exact held
  | array nonEmpty key elem => cases nonEmpty <;> exact held

theorem holds_objects {reg : Registry} {s o : TypeShape} (held : reg.Holds s.kind)
    (found : s.objects? = some o) : reg.Holds o.kind := by
  obtain ⟨kind, flag⟩ := s
  cases kind with
  | basic b => cases b <;> cases found <;> trivial
  | instanceOf name => cases found; exact held
  | array nonEmpty key elem => cases found

theorem holds_arrays {reg : Registry} {s a : TypeShape} (held : reg.Holds s.kind)
    (found : s.arrays? (.basic .mixed) = some a) : reg.Holds a.kind := by
  obtain ⟨kind, flag⟩ := s
  cases kind with
  | basic b => cases b <;> cases found <;> exact ⟨_, rfl⟩
  | instanceOf name => cases found
  | array nonEmpty key elem => cases found; exact held

/-! ### Added annotations -/

theorem internMarked_closed {reg : Registry} (closed : Closed reg) {kind : Kind NameId TypeId}
    (held : reg.Holds kind) (nullable : Bool) : Closed (reg.internMarked nullable kind).2 := by
  have plain : Closed (reg.intern (.of kind false)).2 := intern_closed closed held
  cases nullable with
  | false => exact plain
  | true =>
    have kept : (reg.intern (.of kind false)).2.Holds (Shape.of kind false).kind :=
      holds_extends (extends_intern reg _) held
    exact intern_closed plain (holds_withNullable kept true)

theorem extends_internMarked (reg : Registry) (nullable : Bool) (kind : Kind NameId TypeId) :
    Extends reg (reg.internMarked nullable kind).2 := by
  cases nullable with
  | false => exact extends_intern reg _
  | true => exact extends_trans (extends_intern reg _) (extends_intern _ _)

theorem shape?_internMarked {reg : Registry} (closed : Closed reg) (nullable : Bool)
    (kind : Kind NameId TypeId) :
    (reg.internMarked nullable kind).2.pool.shape? (reg.internMarked nullable kind).1 =
      some (if nullable then ((Shape.of kind false).withNullable true).canonical
        else .of kind false) := by
  cases nullable with
  | false => exact Pool.shape?_intern_own closed.canonical (Shape.canonical_of kind false)
  | true => exact Pool.shape?_intern (Pool.intern_canonical closed.canonical _) _

theorem extends_add (a : WrittenType) (reg : Registry) : Extends reg (reg.add a).2 := by
  induction a with
  | basic nullable b => exact extends_internMarked reg nullable _
  | instanceOf nullable name =>
    exact extends_trans (extends_internName reg name) (extends_internMarked _ nullable _)
  | array nullable nonEmpty key elem ih =>
    rw [add_array]
    exact extends_trans ih (extends_internMarked _ nullable _)

theorem add_closed {reg : Registry} (closed : Closed reg) (a : WrittenType) :
    Closed (reg.add a).2 ∧ ∃ s, (reg.add a).2.pool.shape? (reg.add a).1 = some s := by
  induction a with
  | basic nullable b =>
    have held : reg.Holds (.basic b) := trivial
    exact ⟨internMarked_closed closed held nullable, _, shape?_internMarked closed nullable _⟩
  | instanceOf nullable name =>
    have named := internName_closed closed name
    exact ⟨internMarked_closed named (holds_internName closed name) nullable,
      _, shape?_internMarked named nullable _⟩
  | array nullable nonEmpty key elem ih =>
    rw [add_array]
    have held : (reg.add elem).2.Holds (.array nonEmpty key (reg.add elem).1) := ih.2
    exact ⟨internMarked_closed ih.1 held nullable, _, shape?_internMarked ih.1 nullable _⟩

end TypeLattice.Registry
