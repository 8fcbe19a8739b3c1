import TypeLattice.TypeTerm.Reader
import TypeLattice.Narrowing
import TypeLattice.Pool

/-!
A registry is a pool of types together with the table that its class names come from. Types enter
it as shapes, as class names or as annotations. What a failed annotation had completed stays.
-/
namespace TypeLattice

structure Registry where
  names : NameTable
  pool : Pool

/-- Why a type or a class name could not be filed. The first two are for stores of bounded size:
`shard` tells which part of the store is full. -/
inductive FilingError where
  | typesFull (shard : Nat)
  | namesFull (shard : Nat)
  | invalidClassName (name : String)
  deriving DecidableEq, Repr

def FilingError.message : FilingError → String
  | typesFull shard => s!"type pool shard {shard} exceeded capacity"
  | namesFull shard => s!"name table shard {shard} is full"
  | invalidClassName name => s!"`{name}` is not a valid class name"

structure ArrayLayer where
  nullable : Bool
  nonEmpty : Bool
  key : ArrayKey

namespace Registry

def empty : Registry := ⟨.empty, .empty⟩

def internName (name : String) : Registry → NameId × Registry
  | ⟨names, pool⟩ => let r := names.intern name; (r.1, ⟨r.2, pool⟩)

def intern (s : TypeShape) : Registry → TypeId × Registry
  | ⟨names, pool⟩ => let r := pool.intern s; (r.1, ⟨names, r.2⟩)

/-- The type of a class, whatever its name looks like. -/
def internClass (name : String) (reg : Registry) : TypeId × Registry :=
  let r := reg.internName name
  r.2.intern (.of (.instanceOf r.1) false)

def classOf (name : String) (reg : Registry) : Except FilingError TypeId × Registry :=
  if Name.isQualified name.toList then
    let r := reg.internClass name
    (.ok r.1, r.2)
  else (.error (.invalidClassName name), reg)

/-- The type of a kind, and then the same type with null if it is marked. -/
def internMarked (nullable : Bool) (kind : Kind NameId TypeId) (reg : Registry) :
    TypeId × Registry :=
  let r := reg.intern (.of kind false)
  if nullable then r.2.intern ((Shape.of kind false).withNullable true) else r

def wrap (layers : List ArrayLayer) (r : TypeId × Registry) : TypeId × Registry :=
  layers.foldl (fun r l => r.2.internMarked l.nullable (.array l.nonEmpty l.key r.1)) r

def addInside (layers : List ArrayLayer) : WrittenType → Registry → TypeId × Registry
  | .basic nullable b, reg => wrap layers (reg.internMarked nullable (.basic b))
  | .instanceOf nullable name, reg =>
    let r := reg.internName name
    wrap layers (r.2.internMarked nullable (.instanceOf r.1))
  | .array nullable nonEmpty key elem, reg =>
    addInside (⟨nullable, nonEmpty, key⟩ :: layers) elem reg

/-- The type of an annotation. Every part of it is interned, first without and then with its
question mark. -/
def add (a : WrittenType) (reg : Registry) : TypeId × Registry := reg.addInside [] a

def parse (text : String) (reg : Registry) : Except ReadError TypeId × Registry :=
  let chars := text.toList
  match TypeTerm.read chars with
  | .ok a => let r := reg.add a; (.ok r.1, r.2)
  | .error f =>
    (.error (f.toError chars), match f.complete with
      | some a => (reg.add a).2
      | none => reg)

end Registry
end TypeLattice
