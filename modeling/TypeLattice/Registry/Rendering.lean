import TypeLattice.Registry

/-!
Writing types as annotations. Basic kinds are written as their keyword, classes with a leading
backslash in the spelling that the name table saw first, and arrays with their element and, if
it is `int` or `string`, their key.
-/
namespace TypeLattice.Registry

/-- The text of an array up to its element. -/
def arrayHead (nonEmpty : Bool) (key : ArrayKey) : String :=
  arrayKeyword nonEmpty ++ "<" ++
    match key.keyword? with
    | some word => word ++ ", "
    | none => ""

/-- Writes a type after `text` and closes the `depth` arrays around it. There is no answer for an
identifier of another registry. -/
def writeInside? (reg : Registry) (depth : Nat) (id : TypeId) (text : String) : Option String :=
  match reg.pool.entry? id with
  | none => none
  | some entry =>
    let text := if entry.shape.nullable then text.push '?' else text
    match entry.shape.kind with
    | .basic b => some ((text ++ b.keyword).pushn '>' depth)
    | .instanceOf name =>
      (reg.names.spelling? name).map fun spelling => ((text.push '\\') ++ spelling).pushn '>' depth
    | .array nonEmpty key elem =>
      if _older : elem.age < id.age then
        reg.writeInside? (depth + 1) elem (text ++ arrayHead nonEmpty key)
      else none
termination_by id.age

def write? (reg : Registry) (id : TypeId) (text : String) : Option String :=
  reg.writeInside? 0 id text

def render? (reg : Registry) (id : TypeId) : Option String := reg.write? id ""

end TypeLattice.Registry
