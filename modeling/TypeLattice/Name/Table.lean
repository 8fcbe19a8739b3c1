import TypeLattice.Name.Syntax
import TypeLattice.Table

/-!
The table of class names. Names are compared without their leading backslash and without regard
to the case of ASCII letters. The table gives back the spelling that it saw first.
-/
namespace TypeLattice

structure NameId where
  index : Nat
  deriving DecidableEq, Repr, Hashable

namespace Name

/-- The key under which the spellings of one class meet. Only ASCII letters change case. -/
def key (name : List Char) : List Char := (dropLead name).map Char.toLower

end Name

/-- First spellings, filed under the key of their class. -/
structure NameTable where
  table : Table String String

namespace NameTable

def empty : NameTable := ⟨.empty⟩

def size (t : NameTable) : Nat := t.table.size

/-- The first spelling of a class, without the backslash it may have been written with. -/
def spelling? (t : NameTable) (id : NameId) : Option String := t.table.get? id.index

def find? (t : NameTable) (name : String) : Option NameId :=
  (t.table.find? (String.ofList (Name.key name.toList))).map NameId.mk

def intern (t : NameTable) (name : String) : NameId × NameTable :=
  let chars := name.toList
  let r := t.table.intern (String.ofList (Name.key chars)) (String.ofList (Name.dropLead chars))
  (⟨r.1⟩, ⟨r.2⟩)

end NameTable
end TypeLattice
