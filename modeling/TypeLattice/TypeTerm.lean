import TypeLattice.Shape

/-!
Types as trees, with class names of type `ν`. The trees that are read from annotations keep a
question mark as it was written, even where the type admits null without it or not at all. A bare
`array` has elements of type `mixed`, and an array without a written key has mixed keys.
-/
namespace TypeLattice

inductive TypeTerm (ν : Type) where
  | basic (nullable : Bool) (b : BasicKind)
  | instanceOf (nullable : Bool) (name : ν)
  | array (nullable nonEmpty : Bool) (key : ArrayKey) (elem : TypeTerm ν)
  deriving DecidableEq, Repr

/-- A type as it is written, with class names spelled out. -/
abbrev WrittenType := TypeTerm String

namespace TypeTerm
variable {ν : Type}

def any : TypeTerm ν := basic false .mixed

/-- The key that an annotation means when it is the first of two array arguments. -/
def toKey? : TypeTerm ν → Option ArrayKey
  | basic false .int => some .int
  | basic false .string => some .string
  | _ => none

end TypeTerm
end TypeLattice
