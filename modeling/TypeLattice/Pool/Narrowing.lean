import TypeLattice.Narrowing
import TypeLattice.Pool

/-!
The related types of a type in a pool. An operation reads the shape of the type, changes it and
interns what comes out. There is no answer for an identifier of another pool.
-/
namespace TypeLattice.Pool

def shape? (p : Pool) (id : TypeId) : Option TypeShape := (p.entry? id).map Entry.shape

def derive? (p : Pool) (id : TypeId) (f : TypeShape → TypeShape) : Option (TypeId × Pool) :=
  (p.shape? id).map fun s => p.intern (f s)

def derivePart? (p : Pool) (id : TypeId) (f : TypeShape → Option TypeShape) :
    Option (Option TypeId × Pool) :=
  (p.shape? id).map fun s =>
    match f s with
    | some s => let r := p.intern s; (some r.1, r.2)
    | none => (none, p)

def withNullable? (p : Pool) (id : TypeId) (nullable : Bool) : Option (TypeId × Pool) :=
  p.derive? id fun s => s.withNullable nullable

def truthy? (p : Pool) (id : TypeId) : Option (TypeId × Pool) := p.derive? id Shape.truthy

def objects? (p : Pool) (id : TypeId) : Option (Option TypeId × Pool) :=
  p.derivePart? id Shape.objects?

def arrays? (p : Pool) (id : TypeId) : Option (Option TypeId × Pool) :=
  p.derivePart? id fun s => s.arrays? (.basic .mixed)

def array (p : Pool) (nonEmpty : Bool) (key : ArrayKey) (elem : TypeId) : TypeId × Pool :=
  p.intern (.of (.array nonEmpty key elem) false)

def elem? (p : Pool) (id : TypeId) : Option (Option TypeId) :=
  (p.shape? id).map fun s =>
    match s.kind with
    | .array _ _ elem => some elem
    | _ => none

end TypeLattice.Pool
