import TypeLattice.Build

/-!
Expressions that say how a type is built: from an annotation, from types built before, or by one
of the operations on types. The parts of an expression are evaluated before the expression.
-/
namespace TypeLattice

inductive TypeExpr where
  | written (text : String)
  /-- A type built before; the count starts anew after the last one. -/
  | register (index : Nat)
  | packed (id : PackedId)
  /-- A class whose name has to be qualified. -/
  | declared (name : String)
  /-- A class whose name the caller vouches for. -/
  | vouched (name : String)
  | ofKeyword (word : String) (nullable : Bool)
  /-- A class with any name. -/
  | ofClass (name : String) (nullable : Bool)
  | ofArray (nonEmpty : Bool) (elem : TypeExpr) (key : Option Setting) (nullable : Bool)
  | withNullable (t : TypeExpr) (nullable : Bool)
  | truthy (t : TypeExpr)
  | objects (t : TypeExpr)
  | arrays (t : TypeExpr)
  | elem (t : TypeExpr)
  | wrapped (times : Nat) (nonEmpty : Bool) (t : TypeExpr) (key : Option Setting)

namespace TypeExpr

def readKey : Option Setting → Build ArrayKey
  | none => return .mixed
  | some s =>
    match ArrayKey.ofSetting? s with
    | some key => return key
    | none => throw .unknownKey

def part : Option TypeId → Build TypeId
  | some id => return id
  | none => throw .noSuchPart

def classKind (name : String) : Build (Kind NameId TypeId) :=
  return .instanceOf (← Build.internName name)

def wrapTimes (nonEmpty : Bool) (key : ArrayKey) : Nat → TypeId × Registry → TypeId × Registry
  | 0, r => r
  | times + 1, r => wrapTimes nonEmpty key times (r.2.intern (.of (.array nonEmpty key r.1) false))

def eval (registers : Array TypeId) : TypeExpr → Build TypeId
  | written text => Build.parse text
  | register index =>
    match registers[index % registers.size]? with
    | some id => return id
    | none => throw .noSuchPlace
  | packed id => return id.toTypeId
  | declared name => Build.attempt .filing (Registry.classOf name)
  | vouched name => Build.attempt (fun e => .misuse (some e.message)) (Registry.classOf name)
  | ofKeyword word nullable =>
    match BasicKind.ofKeyword? word with
    | some b => Build.instanceOf (.basic b) nullable
    | none => throw .unknownKeyword
  | ofClass name nullable => do Build.instanceOf (← classKind name) nullable
  | ofArray nonEmpty t key nullable => do
    let id ← t.eval registers
    Build.instanceOf (.array nonEmpty (← readKey key) id) nullable
  | withNullable t nullable => do Build.withNullable (← t.eval registers) nullable
  | truthy t => do Build.truthy (← t.eval registers)
  | objects t => do part (← Build.objects? (← t.eval registers))
  | arrays t => do part (← Build.arrays? (← t.eval registers))
  | elem t => do part (← Build.elem? (← t.eval registers))
  | wrapped times nonEmpty t key => do
    let id ← t.eval registers
    let key ← readKey key
    Build.change fun reg => wrapTimes nonEmpty key times (id, reg)

end TypeExpr
end TypeLattice
