import TypeLattice.Proofs.Growth
import TypeLattice.Proofs.Names.Spelling
import TypeLattice.Proofs.Naming

/-!
Declared classes. A class may be declared by any of its names or by none of them, since the case
of ASCII letters and the leading backslash make no difference to the check. So the spelling of a
declared class passes the check as well, even if the name table took it from a name that nobody had
checked. Declarations at any two moments of a run give one type for one class.
-/
namespace TypeLattice

namespace Name

theorem unled_of_segments {name : List Char} (segments : segmentsFrom true name = true) :
    name.head? ≠ some '\\' := by
  rw [← key_eq_map_iff, key, dropLead_of_segments segments]

end Name

namespace Registry

/-- A registry in which every class and every shape has one place. It may hold types whose parts
come from elsewhere. -/
structure Filed (reg : Registry) : Prop where
  names : reg.names.Filed
  canonical : reg.pool.Canonical

theorem empty_filed : Filed empty := ⟨NameTable.empty_filed, Pool.empty_canonical⟩

theorem filed_after {reg : Registry} (filed : Filed reg) (ops : List Operation) :
    Filed (reg.after ops) where
  names := by
    rw [names_after]
    exact NameTable.serve_filed filed.names _
  canonical := (grows_after reg ops).canonical filed.canonical

theorem internClass_filed {reg : Registry} (filed : Filed reg) (written : String) :
    Filed (reg.internClass written).2 where
  names := NameTable.intern_filed filed.names written
  canonical := Pool.intern_canonical filed.canonical _

/-! ### Types of classes -/

/-- Whether a type is that of a class which has the given name among its names. -/
def Declares (reg : Registry) (written : String) (id : TypeId) : Prop :=
  ∃ name, reg.pool.shape? id = some ⟨.instanceOf name, false⟩ ∧
    reg.names.find? written = some name

section Filed
variable {reg : Registry} (filed : Filed reg)
include filed

theorem declares_internClass (written : String) :
    (reg.internClass written).2.Declares written (reg.internClass written).1 :=
  ⟨(reg.internName written).1, Pool.shape?_intern filed.canonical _,
    NameTable.find?_intern reg.names written⟩

theorem declares_extends {next : Registry} (filed' : Filed next) (grown : Extends reg next)
    {written : String} {id : TypeId} (declared : reg.Declares written id) :
    next.Declares written id := by
  obtain ⟨name, shape, found⟩ := declared
  exact ⟨name, Pool.extends_shape? grown.pool shape,
    NameTable.find?_extends filed.names filed'.names grown.names found⟩

theorem declares_same_iff {written other : String} {id id' : TypeId}
    (declared : reg.Declares written id) (declared' : reg.Declares other id') :
    id = id' ↔ Name.key written.toList = Name.key other.toList := by
  obtain ⟨name, shape, found⟩ := declared
  obtain ⟨name', shape', found'⟩ := declared'
  constructor
  · rintro rfl
    cases shape.symm.trans shape'
    exact NameTable.key_eq_of_find? filed.names found found'
  · intro same
    rw [NameTable.find?_congr _ same] at found
    cases found.symm.trans found'
    exact Pool.shape?_injective filed.canonical shape shape'

/-- The spelling of a class passes the check if one of its names does. -/
theorem qualified_spelling_of_declares {written : String} {id : TypeId}
    (declared : reg.Declares written id) (proper : Name.isQualified written.toList = true) :
    ∃ name spelling, reg.pool.shape? id = some ⟨.instanceOf name, false⟩ ∧
      reg.names.spelling? name = some spelling ∧
      Name.isQualified spelling.toList = true ∧ spelling.toList.head? ≠ some '\\' := by
  obtain ⟨name, shape, found⟩ := declared
  obtain ⟨spelling, known, segments, _⟩ :=
    NameTable.qualified_spelling filed.names ⟨written, proper, found⟩
  exact ⟨name, spelling, shape, known, Name.isQualified_of_segments segments,
    Name.unled_of_segments segments⟩

end Filed

/-! ### Declarations -/

theorem classOf_of_qualified (reg : Registry) {written : String}
    (proper : Name.isQualified written.toList = true) :
    reg.classOf written = (.ok (reg.internClass written).1, (reg.internClass written).2) := by
  rw [classOf, if_pos proper]

theorem classOf_of_improper (reg : Registry) {written : String}
    (improper : Name.isQualified written.toList = false) :
    reg.classOf written = (.error (.invalidClassName written), reg) := by
  rw [classOf, improper]
  rfl

theorem qualified_of_classOf {reg : Registry} {written : String} {id : TypeId}
    (declared : (reg.classOf written).1 = .ok id) : Name.isQualified written.toList = true := by
  cases proper : Name.isQualified written.toList with
  | true => rfl
  | false =>
    rw [classOf_of_improper reg proper] at declared
    cases declared

/-- A type that was declared is the type of its class, then and ever after. -/
theorem declares_after {reg : Registry} (filed : Filed reg) {written : String} {id : TypeId}
    (declared : (reg.classOf written).1 = .ok id) (later : List Operation) :
    Filed ((reg.classOf written).2.after later) ∧
      ((reg.classOf written).2.after later).Declares written id := by
  have proper := qualified_of_classOf declared
  rw [classOf_of_qualified reg proper] at declared ⊢
  cases declared
  have first := internClass_filed filed written
  have whole := filed_after first later
  exact ⟨whole, declares_extends first whole (grows_after _ later).larger
    (declares_internClass filed written)⟩

/-- What comes of declaring a class by a name, and of declaring another one later. -/
structure DeclaredByKey (reg : Registry) (written : String) : Prop where
  succeeds : (∃ id, (reg.classOf written).1 = .ok id) ↔ Name.isQualified written.toList = true
  fails : ∀ e, (reg.classOf written).1 = .error e →
    e = .invalidClassName written ∧ (reg.classOf written).2 = reg
  spelled : ∀ id, (reg.classOf written).1 = .ok id → ∀ later, ∃ name spelling,
    ((reg.classOf written).2.after later).pool.shape? id = some ⟨.instanceOf name, false⟩ ∧
    ((reg.classOf written).2.after later).names.spelling? name = some spelling ∧
    Name.isQualified spelling.toList = true ∧ spelling.toList.head? ≠ some '\\'
  classes : ∀ id, (reg.classOf written).1 = .ok id → ∀ later other id',
    (((reg.classOf written).2.after later).classOf other).1 = .ok id' →
      (id = id' ↔ Name.key written.toList = Name.key other.toList)

/-- A class is declared by any of its names or by none, and has one type. Runs may ask for any names
whatever, so the name table may have been used from elsewhere before and between the declarations. -/
theorem classes_are_declared_by_key :
    (∀ name other : String, Name.key name.toList = Name.key other.toList →
      Name.isQualified name.toList = Name.isQualified other.toList) ∧
    ∀ before written, DeclaredByKey (empty.after before) written := by
  refine ⟨fun name other => Name.isQualified_of_key_eq, ?_⟩
  intro before written
  have filed : Filed (empty.after before) := filed_after empty_filed before
  generalize empty.after before = reg at filed
  constructor
  case succeeds =>
    constructor
    · rintro ⟨id, declared⟩
      exact qualified_of_classOf declared
    · intro proper
      rw [classOf_of_qualified reg proper]
      exact ⟨_, rfl⟩
  case fails =>
    intro e failed
    cases proper : Name.isQualified written.toList with
    | true =>
      rw [classOf_of_qualified reg proper] at failed
      cases failed
    | false =>
      rw [classOf_of_improper reg proper] at failed ⊢
      cases failed
      exact ⟨rfl, rfl⟩
  case spelled =>
    intro id declared later
    obtain ⟨whole, stays⟩ := declares_after filed declared later
    exact qualified_spelling_of_declares whole stays (qualified_of_classOf declared)
  case classes =>
    intro id declared later other id' declared'
    obtain ⟨between, stays⟩ := declares_after filed declared later
    -- both types are looked at right after the second declaration
    obtain ⟨whole, second⟩ := declares_after between declared' []
    have grown := (grows_classOf other ((reg.classOf written).2.after later)).larger
    exact declares_same_iff whole (declares_extends between whole grown stays) second

/-- A name that was filed unchecked and in other letters does not keep a class from being declared,
or from being found again. -/
theorem unchecked_user_is_declared :
    let reg := empty.after [.internName "app\\USER"]
    ∃ id, (reg.classOf "\\App\\User").1 = .ok id ∧
      (((reg.classOf "\\App\\User").2.after [.parse "array<int"]).classOf "App\\user").1 =
        .ok id := by
  intro reg
  obtain ⟨_, declares⟩ := classes_are_declared_by_key
  have first := declares [.internName "app\\USER"] "\\App\\User"
  obtain ⟨id, declared⟩ := first.succeeds.mpr (by decide)
  have again := classOf_of_qualified ((reg.classOf "\\App\\User").2.after [.parse "array<int"])
    (show Name.isQualified "App\\user".toList = true by decide)
  have same := (first.classes id declared _ "App\\user" _ (congrArg Prod.fst again)).mpr (by decide)
  exact ⟨id, declared, same ▸ congrArg Prod.fst again⟩

end Registry
end TypeLattice
