import TypeLattice.Setting

/-!
The options that loosen casts.
-/
namespace TypeLattice

structure CastOptions where
  /-- Null and nullable types flow into types without null. -/
  nullFlows : Bool
  /-- A scalar flows into any other scalar type. -/
  scalarsFlow : Bool
  deriving DecidableEq, Repr

namespace CastOptions

def strict : CastOptions := ⟨false, false⟩

def permissive : CastOptions := ⟨true, true⟩

def withNullFlow (c : CastOptions) (enabled : Bool) : CastOptions :=
  { c with nullFlows := enabled }

def withScalarFlow (c : CastOptions) (enabled : Bool) : CastOptions :=
  { c with scalarsFlow := enabled }

/-- The options in the order in which a list of flags gives them. -/
def optionNames : List String := ["null_casts_as_any_type", "scalar_implicit_cast"]

/-- Reads a configuration from a record of options or from a list of flags. What is not mentioned
is off, and a record may mention other things too. -/
def ofSetting? : Setting → Option CastOptions
  | .record fields => do
    let flag (name : String) := (fields.lookup name).elim (some false) Setting.flag?
    return ⟨← flag "null_casts_as_any_type", ← flag "scalar_implicit_cast"⟩
  | .list [] => some ⟨false, false⟩
  | .list [a] => do return ⟨← a.flag?, false⟩
  | .list [a, b] => do return ⟨← a.flag?, ← b.flag?⟩
  | _ => none

def toText (c : CastOptions) : String :=
  "CastConfig \x7b null_casts_as_any_type: " ++ toString c.nullFlows ++
    ", scalar_implicit_cast: " ++ toString c.scalarsFlow ++ " \x7d"

end CastOptions
end TypeLattice
