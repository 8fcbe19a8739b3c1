import TypeLattice.Pool.Narrowing
import TypeLattice.Registry.Rendering
import TypeLattice.Setting

/-!
Computations that build types in a registry. A computation that fails keeps what it has interned.
-/
namespace TypeLattice

inductive Fault where
  | unreadable (e : ReadError)
  | filing (e : FilingError)
  /-- The caller used an identifier of another registry, or vouched for a bad name. -/
  | misuse (message : Option String)
  | unknownKeyword
  | unknownKey
  | unknownConfig
  /-- The type has no part of the kind that was asked for. -/
  | noSuchPart
  /-- A register or a pool that does not exist was named. -/
  | noSuchPlace
  deriving DecidableEq, Repr

abbrev Build := ExceptT Fault (StateM Registry)

namespace Build

def change {α : Type} (f : Registry → α × Registry) : Build α := ExceptT.lift (modifyGet f)

def attempt {ε α : Type} (fault : ε → Fault) (f : Registry → Except ε α × Registry) :
    Build α := do
  match ← change f with
  | .ok a => return a
  | .error e => throw (fault e)

/-- A question to the registry. An identifier from elsewhere has no answer. -/
def ask {α : Type} (f : Registry → Option α) : Build α := do
  match f (← get) with
  | some a => return a
  | none => throw (.misuse none)

/-- A change of the pool, with no answer for an identifier from elsewhere. -/
def changePool {α : Type} (f : Pool → Option (α × Pool)) : Build α := do
  let r ← ask fun reg => f reg.pool
  modify fun reg => { reg with pool := r.2 }
  return r.1

def entry (id : TypeId) : Build Entry := ask fun reg => reg.pool.entry? id

def render (id : TypeId) : Build String := ask fun reg => reg.render? id

def spelling (name : NameId) : Build String := ask fun reg => reg.names.spelling? name

def internName (name : String) : Build NameId := change (Registry.internName name)

def instanceOf (kind : Kind NameId TypeId) (nullable : Bool) : Build TypeId :=
  change (Registry.intern (.of kind nullable))

def parse (text : String) : Build TypeId := attempt .unreadable (Registry.parse text)

def array (nonEmpty : Bool) (key : ArrayKey) (elem : TypeId) : Build TypeId :=
  changePool fun p => some (p.array nonEmpty key elem)

def withNullable (id : TypeId) (nullable : Bool) : Build TypeId :=
  changePool fun p => p.withNullable? id nullable

def truthy (id : TypeId) : Build TypeId := changePool fun p => p.truthy? id

def objects? (id : TypeId) : Build (Option TypeId) := changePool fun p => p.objects? id

def arrays? (id : TypeId) : Build (Option TypeId) := changePool fun p => p.arrays? id

def elem? (id : TypeId) : Build (Option TypeId) := ask fun reg => reg.pool.elem? id

end Build
end TypeLattice
