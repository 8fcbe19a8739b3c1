import TypeLattice.TypeTerm
import TypeLattice.TypeTerm.Error
import TypeLattice.Name.Syntax
import TypeLattice.Text.Blank

/-!
Reading annotations.

    type  := '?'? atom
    atom  := keyword | '\' qualified name | array
    array := ('array' | 'non-empty-array') ('<' [key ','] type '>')?
    key   := 'int' | 'string'

White space may stand between tokens. The reader keeps the arrays that are still open on a stack
and goes from left to right. The first array argument is read as a type; a comma after it makes
it the key.
-/
namespace TypeLattice.TypeTerm

inductive Slot where
  /-- The first argument, which starts at `start`. -/
  | first (start : List Char)
  /-- The element, after a written key. -/
  | element (key : ArrayKey)
  deriving DecidableEq, Repr

structure OpenArray where
  nullable : Bool
  nonEmpty : Bool
  slot : Slot
  deriving DecidableEq, Repr

inductive Reason where
  | missing (expected : Expected)
  | unknownWord (word : String)
  | notAKey (written : String)
  | trailing
  deriving DecidableEq, Repr

/-- Why reading stopped and what was left of the text. `complete` is the largest annotation that
was whole by then. -/
structure Failure where
  reason : Reason
  rest : List Char
  complete : Option WrittenType
  deriving DecidableEq, Repr

inductive Progress where
  /-- The outermost annotation is whole. -/
  | whole (a : WrittenType) (rest : List Char)
  /-- An argument of the innermost open array comes next. -/
  | argument (stack : List OpenArray) (rest : List Char)
  | failed (f : Failure)
  deriving DecidableEq, Repr

def skipBlanks (text : List Char) : List Char := text.dropWhile Text.isBlank

def isKeywordChar (c : Char) : Bool := c.isAlphanum || c == '-' || c == '_'

def isClassChar (c : Char) : Bool := Name.isPart c || c == '\\'

def takeMark (text : List Char) : Bool × List Char :=
  match skipBlanks text with
  | '?' :: rest => (true, skipBlanks rest)
  | rest => (false, rest)

/-- Hands a whole annotation to the open arrays, and closes those that end here. -/
def close : List OpenArray → WrittenType → List Char → Progress
  | [], a, rest => .whole a rest
  | top :: stack, a, rest =>
    match top.slot, skipBlanks rest with
    | .first start, ',' :: after =>
      match a.toKey? with
      | some key => .argument ({ top with slot := .element key } :: stack) after
      | none =>
        let written := String.ofList (start.take (start.length - rest.length))
        .failed ⟨.notAKey written, start, some a⟩
    | .first _, '>' :: after => close stack (.array top.nullable top.nonEmpty .mixed a) after
    | .element key, '>' :: after => close stack (.array top.nullable top.nonEmpty key a) after
    | .first _, found => .failed ⟨.missing .commaOrClose, found, some a⟩
    | .element _, found => .failed ⟨.missing .close, found, some a⟩

/-- Reads what follows the word `array`: brackets open it, and without them it is whole. -/
def openArray (stack : List OpenArray) (nullable nonEmpty : Bool) (rest : List Char) : Progress :=
  match skipBlanks rest with
  | '<' :: inner => .argument (⟨nullable, nonEmpty, .first (skipBlanks inner)⟩ :: stack) inner
  | _ => close stack (.array nullable nonEmpty .mixed .any) rest

def readWord (stack : List OpenArray) (nullable : Bool) (text : List Char) : Progress :=
  let word := String.ofList (text.takeWhile isKeywordChar)
  let rest := text.dropWhile isKeywordChar
  if word == arrayKeyword false then openArray stack nullable false rest
  else if word == arrayKeyword true then openArray stack nullable true rest
  else match BasicKind.ofKeyword? word with
    | some b => close stack (.basic nullable b) rest
    | none => .failed ⟨.unknownWord word, text, none⟩

/-- Reads a class name; `text` starts after its first backslash. -/
def readClass (stack : List OpenArray) (nullable : Bool) (text : List Char) : Progress :=
  let name := text.takeWhile isClassChar
  let rest := text.dropWhile isClassChar
  if name.isEmpty then .failed ⟨.missing .className, rest, none⟩
  else if Name.isQualified name then
    close stack (.instanceOf nullable (String.ofList name)) rest
  else .failed ⟨.unknownWord (String.ofList ('\\' :: name)), '\\' :: text, none⟩

/-- Reads up to the next array argument. -/
def step (stack : List OpenArray) (text : List Char) : Progress :=
  match takeMark text with
  | (nullable, '\\' :: rest) => readClass stack nullable rest
  | (nullable, c :: rest) =>
    if isKeywordChar c then readWord stack nullable (c :: rest)
    else .failed ⟨.missing .type, c :: rest, none⟩
  | (_, []) => .failed ⟨.missing .type, [], none⟩

theorem length_dropWhile_le (p : Char → Bool) (text : List Char) :
    (text.dropWhile p).length ≤ text.length :=
  (List.dropWhile_sublist p).length_le

theorem length_takeMark_le (text : List Char) : (takeMark text).2.length ≤ text.length := by
  have skipped := length_dropWhile_le Text.isBlank text
  unfold takeMark
  split
  · next rest h =>
    have again := length_dropWhile_le Text.isBlank rest
    simp only [skipBlanks] at h ⊢
    rw [h, List.length_cons] at skipped
    omega
  · exact skipped

theorem close_argument_length {stack : List OpenArray} {a : WrittenType} {rest : List Char}
    {stack' : List OpenArray} {rest' : List Char}
    (h : close stack a rest = .argument stack' rest') :
    rest'.length < rest.length := by
  induction stack generalizing a rest with
  | nil => simp [close] at h
  | cons top stack ih =>
    have skipped := length_dropWhile_le Text.isBlank rest
    rw [close] at h
    split at h
    · next found =>
      rw [skipBlanks] at found
      rw [found, List.length_cons] at skipped
      split at h
      · cases h; omega
      · cases h
    · next found =>
      rw [skipBlanks] at found
      rw [found, List.length_cons] at skipped
      have := ih h
      omega
    · next found =>
      rw [skipBlanks] at found
      rw [found, List.length_cons] at skipped
      have := ih h
      omega
    · cases h
    · cases h

theorem openArray_argument_length {stack : List OpenArray} {nullable nonEmpty : Bool}
    {rest : List Char} {stack' : List OpenArray} {rest' : List Char}
    (h : openArray stack nullable nonEmpty rest = .argument stack' rest') :
    rest'.length < rest.length := by
  have skipped := length_dropWhile_le Text.isBlank rest
  rw [openArray] at h
  split at h
  · next found =>
    rw [skipBlanks] at found
    rw [found, List.length_cons] at skipped
    cases h
    omega
  · exact close_argument_length h

theorem step_argument_length {stack : List OpenArray} {text : List Char}
    {stack' : List OpenArray} {rest' : List Char} (h : step stack text = .argument stack' rest') :
    rest'.length < text.length := by
  have marked := length_takeMark_le text
  rw [step] at h
  split at h
  · next nullable rest found =>
    simp only [found, List.length_cons] at marked
    have dropped := length_dropWhile_le isClassChar rest
    simp only [readClass] at h
    split at h
    · cases h
    · split at h
      · have := close_argument_length h
        omega
      · cases h
  · next nullable c rest _ found =>
    simp only [found] at marked
    have dropped := length_dropWhile_le isKeywordChar (c :: rest)
    split at h
    · simp only [readWord] at h
      repeat' split at h
      · have := openArray_argument_length h
        omega
      · have := openArray_argument_length h
        omega
      · have := close_argument_length h
        omega
      · cases h
    · cases h
  · cases h

def readInto (stack : List OpenArray) (text : List Char) : Except Failure (WrittenType × List Char) :=
  match _reached : step stack text with
  | .whole a rest => .ok (a, rest)
  | .argument stack' rest => readInto stack' rest
  | .failed f => .error f
termination_by text.length
decreasing_by exact step_argument_length _reached

def read (text : List Char) : Except Failure WrittenType := do
  let (a, rest) ← readInto [] text
  match skipBlanks rest with
  | [] => pure a
  | extra => throw ⟨.trailing, extra, some a⟩

def byteLength (text : List Char) : Nat := text.foldr (fun c n => c.utf8Size + n) 0

def Failure.toError (f : Failure) (text : List Char) : ReadError :=
  let offset := byteLength text - byteLength f.rest
  match f.reason with
  | .missing expected =>
    match f.rest with
    | [] => .endOfText expected offset
    | found :: _ => .wrongChar found expected offset
  | .unknownWord word => .unknownWord word offset
  | .notAKey written => .badKey written offset
  | .trailing => .leftover offset

end TypeLattice.TypeTerm
