import TypeLattice.Shape

/-!
Related types: with null or without it, the truthy part, the objects and the arrays of a type.
Each is a function on shapes, so a pool answers by interning the shape it gets.
-/
namespace TypeLattice.Shape
variable {ν τ : Type}

def basic (b : BasicKind) : Shape ν τ := ⟨.basic b, false⟩

/-- The same type with null added or taken away. The kinds that settle null by themselves, and
the truthy ones among the mixed kinds, move to the kind that says so. -/
def withNullable (s : Shape ν τ) (nullable : Bool) : Shape ν τ :=
  match s.kind, nullable with
  | .basic .nonEmptyMixed, true | .basic .nonNullNonEmptyMixed, true =>
    ⟨.basic .nonEmptyMixed, true⟩
  | .basic .nonEmptyMixed, false | .basic .nonNullNonEmptyMixed, false =>
    basic .nonNullNonEmptyMixed
  | .basic .mixed, true | .basic .nonNullMixed, true => basic .mixed
  | .basic .mixed, false | .basic .nonNullMixed, false => basic .nonNullMixed
  | .basic .null, true | .basic .never, true => basic .null
  | .basic .null, false | .basic .never, false => basic .never
  | kind, nullable => ⟨kind, nullable⟩

/-- What is left once a value is known to be an object. -/
def objects? (s : Shape ν τ) : Option (Shape ν τ) :=
  match s.kind with
  | .basic .object | .instanceOf _ => some (s.withNullable false)
  | kind => if kind.isMixed then some (basic .object) else none

/-- What is left once a value is known to be an array. `any` is the type of all values. -/
def arrays? (s : Shape ν τ) (any : τ) : Option (Shape ν τ) :=
  match s.kind with
  | .basic .mixed | .basic .nonNullMixed => some ⟨.array false .mixed any, false⟩
  | .basic .nonEmptyMixed | .basic .nonNullNonEmptyMixed => some ⟨.array true .mixed any, false⟩
  | .array .. => some (s.withNullable false)
  | _ => none

/-- The truthy part of a type, which is `never` when there is none. Floats and strings have no
narrower type. -/
def truthy (s : Shape ν τ) : Shape ν τ :=
  match s.kind with
  | .basic .nonEmptyMixed => if s.nullable then s.withNullable false else s
  | .basic .mixed | .basic .nonNullMixed => basic .nonEmptyMixed
  | .basic .null | .basic .onlyFalse | .basic .never => basic .never
  | .basic .bool => basic .onlyTrue
  | .basic .int => basic .nonZeroInt
  | .array false key elem => ⟨.array true key elem, false⟩
  | _ => s.withNullable false

end TypeLattice.Shape
