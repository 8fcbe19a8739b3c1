/-!
The kinds of the lattice. Fourteen basic kinds have a keyword of their own, and class and array
kinds carry a payload. A `Shape` is a kind with a nullable flag. The payloads are parameters:
a pool stores identifiers in their place.
-/
namespace TypeLattice

inductive BasicKind where
  | mixed | nonNullMixed | nonEmptyMixed | nonNullNonEmptyMixed
  | null | never
  | bool | onlyTrue | onlyFalse | int | nonZeroInt | float | string
  | object
  deriving DecidableEq, Repr, Hashable

namespace BasicKind

def all : List BasicKind :=
  [mixed, nonNullMixed, nonEmptyMixed, nonNullNonEmptyMixed, null, never, bool, onlyTrue,
   onlyFalse, int, nonZeroInt, float, string, object]

def keyword : BasicKind → String
  | mixed => "mixed"
  | nonNullMixed => "non-null-mixed"
  | nonEmptyMixed => "non-empty-mixed"
  | nonNullNonEmptyMixed => "non-null-non-empty-mixed"
  | null => "null"
  | never => "never"
  | bool => "bool"
  | onlyTrue => "true"
  | onlyFalse => "false"
  | int => "int"
  | nonZeroInt => "non-zero-int"
  | float => "float"
  | string => "string"
  | object => "object"

def ofKeyword? (word : String) : Option BasicKind := all.find? fun b => b.keyword == word

def isMixed : BasicKind → Bool
  | mixed | nonNullMixed | nonEmptyMixed | nonNullNonEmptyMixed => true
  | _ => false

def isScalar : BasicKind → Bool
  | bool | onlyTrue | onlyFalse | int | nonZeroInt | float | string => true
  | _ => false

/-- Whether null belongs to the kind, where the kind alone settles it. -/
def inherentNull? : BasicKind → Option Bool
  | mixed | null => some true
  | never | nonNullMixed | nonNullNonEmptyMixed => some false
  | _ => none

/-- The keyword with its parts capitalised and joined, as in `NonZeroInt`. -/
def title (b : BasicKind) : String :=
  String.join ((b.keyword.splitOn "-").map String.capitalize)

def shapeText (b : BasicKind) (nullable : Bool) : String :=
  "TypeData \x7b kind: " ++ b.title ++ ", nullable: " ++ toString nullable ++ " \x7d"

end BasicKind

/-- What an array says about its keys. `empty` knows of no key at all. -/
inductive ArrayKey where
  | empty | int | string | mixed
  deriving DecidableEq, Repr, Hashable

namespace ArrayKey

/-- Whether an array keyed by `source` may stand where keys of kind `target` are required. -/
def admits (target source : ArrayKey) : Bool :=
  match target, source with
  | mixed, _ | _, empty | int, int | string, string => true
  | _, _ => false

/-- The first argument of an array annotation; the other keys are left unwritten. -/
def keyword? : ArrayKey → Option String
  | int => some "int"
  | string => some "string"
  | empty | mixed => none

def name : ArrayKey → String
  | empty => "Empty"
  | int => "Int"
  | string => "String"
  | mixed => "Mixed"

def ofName? (word : String) : Option ArrayKey :=
  [empty, int, string, mixed].find? fun k => k.name == word

end ArrayKey

inductive Kind (ν τ : Type) where
  | basic (b : BasicKind)
  | instanceOf (name : ν)
  | array (nonEmpty : Bool) (key : ArrayKey) (elem : τ)
  deriving DecidableEq, Repr, Hashable

def arrayKeyword (nonEmpty : Bool) : String := if nonEmpty then "non-empty-array" else "array"

namespace Kind
variable {ν τ : Type}

def keyword? : Kind ν τ → Option String
  | basic b => some b.keyword
  | instanceOf _ | array .. => none

def name : Kind ν τ → String
  | basic b => b.keyword
  | instanceOf _ => "class"
  | array nonEmpty .. => arrayKeyword nonEmpty

def inherentNull? : Kind ν τ → Option Bool
  | basic b => b.inherentNull?
  | instanceOf _ | array .. => none

def isMixed : Kind ν τ → Bool
  | basic b => b.isMixed
  | instanceOf _ | array .. => false

def isScalar : Kind ν τ → Bool
  | basic b => b.isScalar
  | instanceOf _ | array .. => false

end Kind

structure Shape (ν τ : Type) where
  kind : Kind ν τ
  nullable : Bool
  deriving DecidableEq, Repr, Hashable

namespace Shape
variable {ν τ : Type}

/-- The shape of `kind` with the flag that was asked for. A kind that settles null by itself
keeps its flag down, so that it has one shape only. -/
def of (kind : Kind ν τ) (nullable : Bool) : Shape ν τ :=
  ⟨kind, if kind.inherentNull?.isSome then false else nullable⟩

def canonical (s : Shape ν τ) : Shape ν τ := of s.kind s.nullable

def allowsNull (s : Shape ν τ) : Bool := s.kind.inherentNull?.getD s.nullable

end Shape
end TypeLattice
