import TypeLattice.TypeTerm
import TypeLattice.Truth

/-!
Types as trees: their outermost shape, the class names and the parts in them, and how names and keys
are changed throughout a tree.
-/
namespace TypeLattice.TypeTerm
variable {ν μ : Type}

def nullable : TypeTerm ν → Bool
  | basic nullable _ | instanceOf nullable _ | array nullable _ _ _ => nullable

def kind : TypeTerm ν → Kind ν (TypeTerm ν)
  | basic _ b => .basic b
  | instanceOf _ name => .instanceOf name
  | array _ nonEmpty key elem => .array nonEmpty key elem

def shape (a : TypeTerm ν) : Shape ν (TypeTerm ν) := ⟨a.kind, a.nullable⟩

def mapNames (f : ν → μ) : TypeTerm ν → TypeTerm μ
  | basic nullable b => basic nullable b
  | instanceOf nullable name => instanceOf nullable (f name)
  | array nullable nonEmpty key elem => array nullable nonEmpty key (elem.mapNames f)

def names : TypeTerm ν → List ν
  | basic _ _ => []
  | instanceOf _ name => [name]
  | array _ _ _ elem => elem.names

def keys : TypeTerm ν → List ArrayKey
  | basic _ _ | instanceOf _ _ => []
  | array _ _ key elem => key :: elem.keys

def mixEmptyKeys : TypeTerm ν → TypeTerm ν
  | basic nullable b => basic nullable b
  | instanceOf nullable name => instanceOf nullable name
  | array nullable nonEmpty key elem =>
    array nullable nonEmpty (if key = .empty then .mixed else key) elem.mixEmptyKeys

theorem mixEmptyKeys_of_not_mem {a : TypeTerm ν} (absent : .empty ∉ a.keys) :
    a.mixEmptyKeys = a := by
  induction a with
  | basic | instanceOf => rfl
  | array nullable nonEmpty key elem ih =>
    simp only [keys, List.mem_cons, not_or] at absent
    rw [mixEmptyKeys, if_neg (Ne.symm absent.1), ih absent.2]

theorem names_mixEmptyKeys (a : TypeTerm ν) : a.mixEmptyKeys.names = a.names := by
  induction a with
  | basic | instanceOf => rfl
  | array nullable nonEmpty key elem ih => exact ih

theorem mapNames_mixEmptyKeys (f : ν → μ) (a : TypeTerm ν) :
    a.mixEmptyKeys.mapNames f = (a.mapNames f).mixEmptyKeys := by
  induction a with
  | basic | instanceOf => rfl
  | array nullable nonEmpty key elem ih => rw [mixEmptyKeys, mapNames, mapNames, mixEmptyKeys, ih]

theorem names_mapNames (f : ν → μ) (a : TypeTerm ν) : (a.mapNames f).names = a.names.map f := by
  induction a with
  | basic | instanceOf => rfl
  | array nullable nonEmpty key elem ih => exact ih

/-- Whether no null flag stands on a kind that settles null by itself. -/
def FlagsSettled : TypeTerm ν → Prop
  | basic nullable b => nullable = true → b.inherentNull? = none
  | instanceOf _ _ => True
  | array _ _ _ elem => elem.FlagsSettled

theorem flagsSettled_mixEmptyKeys {a : TypeTerm ν} (settled : a.FlagsSettled) :
    a.mixEmptyKeys.FlagsSettled := by
  induction a with
  | basic | instanceOf => exact settled
  | array nullable nonEmpty key elem ih => exact ih settled

/-! ### Parts -/

/-- The same type without the outermost question mark. -/
def bare : TypeTerm ν → TypeTerm ν
  | basic _ b => basic false b
  | instanceOf _ name => instanceOf false name
  | array _ nonEmpty key elem => array false nonEmpty key elem

/-- What a type consists of: its elements at every depth, innermost first, and itself, each without its
question mark and with it. -/
def parts : TypeTerm ν → List (TypeTerm ν)
  | basic nullable b => [basic false b, basic nullable b]
  | instanceOf nullable name => [instanceOf false name, instanceOf nullable name]
  | array nullable nonEmpty key elem =>
    elem.parts ++ [array false nonEmpty key elem, array nullable nonEmpty key elem]

theorem self_mem_parts (a : TypeTerm ν) : a ∈ a.parts := by
  cases a <;> simp [parts]

theorem bare_mem_parts (a : TypeTerm ν) : a.bare ∈ a.parts := by
  cases a <;> simp [parts, bare]

/-- An array consists of the parts of its element and, last, of itself. -/
theorem mem_parts_array {part elem : TypeTerm ν} {nullable nonEmpty : Bool} {key : ArrayKey} :
    part ∈ (array nullable nonEmpty key elem).parts ↔ part ∈ elem.parts ∨
      part = array false nonEmpty key elem ∨ part = array nullable nonEmpty key elem := by
  simp [parts]

theorem class_mem_parts {a : TypeTerm ν} {name : ν} (member : name ∈ a.names) :
    instanceOf false name ∈ a.parts := by
  induction a with
  | basic nullable b => cases member
  | instanceOf nullable other =>
    rw [List.mem_singleton.mp member]
    exact bare_mem_parts (instanceOf nullable other)
  | array nullable nonEmpty key elem ih => exact mem_parts_array.mpr (Or.inl (ih member))

end TypeLattice.TypeTerm
