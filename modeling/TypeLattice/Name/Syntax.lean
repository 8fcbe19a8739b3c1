import TypeLattice.Text.Alphabetic
import TypeLattice.Text.Numeric

/-!
Qualified class names: segments separated by single backslashes, each starting with a letter or
an underscore. One leading backslash marks a fully qualified name and is optional.
-/
namespace TypeLattice.Name

def isStart (c : Char) : Bool := Text.isAlphabetic c || c == '_'

def isPart (c : Char) : Bool := Text.isAlphabetic c || Text.isNumeric c || c == '_'

/-- A name without its leading backslash; a second backslash stays. -/
def dropLead : List Char → List Char
  | '\\' :: rest => rest
  | name => name

/-- Whether the text is a list of segments, `fresh` telling that a segment has to start here. -/
def segmentsFrom (fresh : Bool) : List Char → Bool
  | [] => !fresh
  | c :: rest =>
    if fresh then isStart c && segmentsFrom false rest
    else if c == '\\' then segmentsFrom true rest
    else isPart c && segmentsFrom false rest

def isQualified (name : List Char) : Bool := segmentsFrom true (dropLead name)

end TypeLattice.Name
