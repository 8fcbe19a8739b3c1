/-!
What can be wrong with an annotation, and where. Offsets count the bytes of the UTF-8 form.
-/
namespace TypeLattice

inductive Expected where
  | type | className | commaOrClose | close
  deriving DecidableEq, Repr

def Expected.text : Expected → String
  | type => "a type"
  | className => "a class name"
  | commaOrClose => "`,` or `>`"
  | close => "`>`"

inductive ReadError where
  | endOfText (expected : Expected) (offset : Nat)
  | wrongChar (found : Char) (expected : Expected) (offset : Nat)
  /-- A word is no keyword, or a class name is not qualified. -/
  | unknownWord (word : String) (offset : Nat)
  /-- The first of two array arguments is neither `int` nor `string`. -/
  | badKey (key : String) (offset : Nat)
  | leftover (offset : Nat)
  deriving DecidableEq, Repr

namespace ReadError

def offset : ReadError → Nat
  | endOfText _ n | wrongChar _ _ n | unknownWord _ n | badKey _ n | leftover n => n

def message : ReadError → String
  | endOfText e n => s!"unexpected end of input at offset {n}, expected {e.text}"
  | wrongChar c e n => s!"unexpected `{c}` at offset {n}, expected {e.text}"
  | unknownWord w n => s!"unknown type `{w}` at offset {n}"
  | badKey k n => s!"invalid array key type `{k}` at offset {n}"
  | leftover n => s!"trailing input at offset {n}"

end ReadError
end TypeLattice
