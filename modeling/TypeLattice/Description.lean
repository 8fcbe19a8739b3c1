import TypeLattice.Build

/-!
All that a registry says about one type: its shape, its flags, its parts, its relatives, and
whether its rendering reads back as the same type. Describing a type interns its relatives.
-/
namespace TypeLattice

inductive Reading where
  | same
  | different
  | rejected (e : ReadError)
  deriving DecidableEq, Repr

structure Description where
  text : String
  shape : TypeShape
  flags : Flags
  /-- The packed word of a fixed type and how it is shown. -/
  fixed : Option (Nat × String)
  elem : Option String
  className : Option String
  reading : Reading
  withNull : String
  withoutNull : String
  objects : Option String
  arrays : Option String
  intKeyed : String
  unkeyed : String
  truthy : String
  truthyStable : Bool
  deriving Repr

namespace Build

def renderPart : Option TypeId → Build (Option String)
  | some id => return some (← render id)
  | none => return none

def reread (id : TypeId) (text : String) : Build Reading := do
  match ← change (Registry.parse text) with
  | .ok again => return if again = id then .same else .different
  | .error e => return .rejected e

def describe (id : TypeId) : Build Description := do
  let text ← render id
  let ⟨shape, flags⟩ ← entry id
  let narrow ← truthy id
  return {
    text, shape, flags
    fixed := id.fixedIndex?.map fun n => (n, PackedId.showType ⟨.ofNat n⟩)
    elem := ← renderPart (← elem? id)
    className := ← match shape.kind with
      | .instanceOf name => some <$> spelling name
      | _ => pure none
    reading := ← reread id text
    withNull := ← render (← withNullable id true)
    withoutNull := ← render (← withNullable id false)
    objects := ← renderPart (← objects? id)
    arrays := ← renderPart (← arrays? id)
    intKeyed := ← render (← array false .int id)
    unkeyed := ← render (← array false .empty id)
    truthy := ← render narrow
    truthyStable := (← truthy narrow) = narrow }

end Build
end TypeLattice
