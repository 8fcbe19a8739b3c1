import TypeLattice.Shape

/-!
What a type says about null and about truth. The falsey values are null, false, zero, the empty
string, the string "0" and the empty array. The answers are computed once for a shape and kept
as flags beside it.
-/
namespace TypeLattice

structure Flags where
  nullable : Bool
  possiblyTruthy : Bool
  possiblyFalsey : Bool
  possiblyFalse : Bool
  alwaysTruthy : Bool
  isMixed : Bool
  isScalar : Bool
  deriving DecidableEq, Repr

namespace Flags

def layout : List (Nat × String × (Flags → Bool)) :=
  [(0, "NULLABLE", nullable), (1, "POSSIBLY_TRUTHY", possiblyTruthy),
   (2, "POSSIBLY_FALSEY", possiblyFalsey), (3, "POSSIBLY_FALSE", possiblyFalse),
   (4, "ALWAYS_TRUTHY", alwaysTruthy), (8, "IS_MIXED", isMixed), (9, "IS_SCALAR", isScalar)]

def bits (f : Flags) : Nat :=
  layout.foldr (fun (i, _, get) word => (if get f then 1 <<< i else 0) + word) 0

/-- The flags set in a word; bits without a meaning are dropped. -/
def ofBits (word : Nat) : Flags where
  nullable := word.testBit 0
  possiblyTruthy := word.testBit 1
  possiblyFalsey := word.testBit 2
  possiblyFalse := word.testBit 3
  alwaysTruthy := word.testBit 4
  isMixed := word.testBit 8
  isScalar := word.testBit 9

def names (f : Flags) : List String :=
  layout.filterMap fun (_, name, get) => if get f then some name else none

def isEmpty (f : Flags) : Bool := f.names.isEmpty

end Flags

namespace Kind
variable {ν τ : Type}

def allowsTruthy : Kind ν τ → Bool
  | basic .null | basic .onlyFalse | basic .never => false
  | _ => true

/-- Whether a value other than null may be falsey. The kind `null` counts as well. -/
def allowsFalsey : Kind ν τ → Bool
  | basic .mixed | basic .nonNullMixed | basic .null | basic .bool | basic .onlyFalse
  | basic .int | basic .float | basic .string | array false .. => true
  | _ => false

def allowsFalse : Kind ν τ → Bool
  | basic .mixed | basic .nonNullMixed | basic .bool | basic .onlyFalse => true
  | _ => false

end Kind

def Shape.flags {ν τ : Type} (s : Shape ν τ) : Flags :=
  let truthy := s.kind.allowsTruthy
  let falsey := s.allowsNull || s.kind.allowsFalsey
  { nullable := s.allowsNull
    possiblyTruthy := truthy
    possiblyFalsey := falsey
    possiblyFalse := s.kind.allowsFalse
    alwaysTruthy := truthy && !falsey
    isMixed := s.kind.isMixed
    isScalar := s.kind.isScalar }

end TypeLattice
