import TypeLattice.Shape

/-!
Settings as a configuration file holds them, before anything is read from them.
-/
namespace TypeLattice

inductive Setting where
  | null
  | flag (value : Bool)
  | number
  | text (value : String)
  | list (items : List Setting)
  | record (fields : List (String × Setting))

namespace Setting

def flag? : Setting → Option Bool
  | flag value => some value
  | _ => none

end Setting

/-- Reads a key kind: its name, or a record with the name as its only field and no value. -/
def ArrayKey.ofSetting? : Setting → Option ArrayKey
  | .text name => ofName? name
  | .record [(name, .null)] => ofName? name
  | _ => none

end TypeLattice
