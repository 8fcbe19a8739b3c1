import TypeLattice.Proofs.Grammar.Reading

/-!
What the reader knows when it stops. An annotation that it returns is one by the grammar, so it
accepts the texts of the grammar and no others. The stack of open arrays tells how the text before
the next argument was cut into tokens. And where it fails, the text up to there is in order and the
next character is of no use.
-/
namespace TypeLattice.TypeTerm

/-- Whether a text starts with an annotation, with `rest` after it. -/
def Starts (text : List Char) (a : WrittenType) (rest : List Char) : Prop :=
  ∃ ts, Grammar ts a ∧ Spells ts text rest ∧ MayEnd ts rest

theorem derives_iff_starts {text : List Char} {a : WrittenType} :
    Derives text a ↔ ∃ rest, Starts text a rest ∧ skipBlanks rest = [] := by
  constructor
  · rintro ⟨ts, rest, parsed, spelled, blank⟩
    have ended := skipBlanks_of_blank blank
    refine ⟨rest, ⟨ts, parsed, spelled, ?_⟩, ended⟩
    intro _ _ inner same
    rw [ended] at same
    cases same
  · rintro ⟨rest, ⟨ts, parsed, spelled, _⟩, ended⟩
    exact ⟨ts, rest, parsed, spelled, List.dropWhile_eq_nil_iff.mp ended⟩

theorem mayEnd_of_last {t : Token} (other : ∀ nonEmpty, t ≠ arrayToken nonEmpty) (ts : List Token)
    (rest : List Char) : MayEnd (ts ++ [t]) rest := by
  intro nonEmpty last
  rw [List.getLast?_concat] at last
  exact absurd (Option.some.inj last) (other nonEmpty)

section Constructors
variable {text inner next rest : List Char} {nullable nonEmpty : Bool} {a : WrittenType}
  (opened : Spells (marks nullable ++ [arrayToken nonEmpty, .opening]) text inner)
include opened

theorem starts_array (elem : Starts inner a next) (closing : Spells [.closing] next rest) :
    Starts text (.array nullable nonEmpty .mixed a) rest := by
  obtain ⟨ts, parsed, spelled, _⟩ := elem
  refine ⟨_, Grammar.array nullable nonEmpty parsed, ?_, ?_⟩
  · rw [← List.append_assoc]
    exact spells_append opened (spells_append spelled closing)
  · simp only [← List.append_assoc]
    apply mayEnd_of_last
    nofun

theorem starts_keyedArray {key : ArrayKey} {word : String} (written : key.keyword? = some word)
    {body : List Char} (keyed : Spells [.word word.toList, .comma] inner body)
    (elem : Starts body a next) (closing : Spells [.closing] next rest) :
    Starts text (.array nullable nonEmpty key a) rest := by
  obtain ⟨ts, parsed, spelled, _⟩ := elem
  refine ⟨_, Grammar.keyedArray nullable nonEmpty written parsed, ?_, ?_⟩
  · rw [← List.append_assoc]
    exact spells_append opened (spells_append keyed (spells_append spelled closing))
  · simp only [← List.append_assoc]
    apply mayEnd_of_last
    nofun

end Constructors

/-- How the reader gets to an argument: which arrays are open there, innermost first, and what is
left of the text. -/
inductive Reached (text : List Char) : List OpenArray → List Char → Prop where
  | start : Reached text [] text
  | first {stack : List OpenArray} {rest inner : List Char} (outer : Reached text stack rest)
      {nullable nonEmpty : Bool}
      (opened : Spells (marks nullable ++ [arrayToken nonEmpty, .opening]) rest inner) :
      Reached text (⟨nullable, nonEmpty, .first (skipBlanks inner)⟩ :: stack) inner
  | element {stack : List OpenArray} {nullable nonEmpty : Bool} {start inner rest : List Char}
      (outer : Reached text (⟨nullable, nonEmpty, .first start⟩ :: stack) inner)
      {key : ArrayKey} {word : String} (written : key.keyword? = some word)
      (keyed : Spells [.word word.toList, .comma] inner rest) :
      Reached text (⟨nullable, nonEmpty, .element key⟩ :: stack) rest

theorem suffix_of_spells {ts : List Token} {text rest : List Char} (spelled : Spells ts text rest) :
    rest <:+ text := by
  induction spelled with
  | nil => exact List.suffix_rfl
  | @cons t _ blanks next _ _ _ _ ih =>
    rw [← List.append_assoc]
    exact ih.trans (List.suffix_append (blanks ++ t.text) next)

theorem suffix_of_reached {text rest : List Char} {stack : List OpenArray}
    (reached : Reached text stack rest) : rest <:+ text := by
  induction reached with
  | start => exact List.suffix_rfl
  | first _ opened ih => exact (suffix_of_spells opened).trans ih
  | element _ _ keyed ih => exact (suffix_of_spells keyed).trans ih

theorem readInto_of_reached {text rest : List Char} {stack : List OpenArray}
    (reached : Reached text stack rest) : readInto [] text = readInto stack rest := by
  induction reached with
  | start => rfl
  | first _ opened ih => exact ih.trans (readInto_opening opened _)
  | element _ written keyed ih => exact ih.trans (readInto_key written keyed _ _ _ _)

/-- The characters that may follow an argument of an open array. -/
def OpenArray.GoesOn (top : OpenArray) (c : Char) : Prop :=
  c = '>' ∨ (c = ',' ∧ ∃ start, top.slot = .first start)

/-- The ways in which reading fails, and what is left of the text then. -/
inductive Stuck (text : List Char) : Reason → List Char → Prop where
  | type {stack : List OpenArray} {rest after place : List Char} (reached : Reached text stack rest)
      {nullable : Bool} (marked : Spells (marks nullable) rest after)
      (found : skipBlanks after = place)
      (stops : ∀ c ∈ place.head?,
        c ≠ '\\' ∧ isKeywordChar c = false ∧ (nullable = false → c ≠ '?')) :
      Stuck text (.missing .type) place
  | className {stack : List OpenArray} {rest after place : List Char}
      (reached : Reached text stack rest) {nullable : Bool}
      (marked : Spells (marks nullable) rest after) (found : skipBlanks after = '\\' :: place)
      (stops : ∀ c ∈ place.head?, isClassChar c = false) :
      Stuck text (.missing .className) place
  | word {stack : List OpenArray} {rest after tail word : List Char}
      (reached : Reached text stack rest) {nullable : Bool}
      (marked : Spells (marks nullable) rest after) (some : word ≠ [])
      (found : skipBlanks after = word ++ tail) :
      Stuck text (.unknownWord (String.ofList word)) (word ++ tail)
  | argument {top : OpenArray} {stack : List OpenArray} {rest after place : List Char}
      (reached : Reached text (top :: stack) rest) {a : WrittenType} (starts : Starts rest a after)
      (found : skipBlanks after = place) (stops : ∀ c ∈ place.head?, ¬ top.GoesOn c)
      (expected : Expected) : Stuck text (.missing expected) place
  | key {top : OpenArray} {stack : List OpenArray} {rest after place : List Char}
      (reached : Reached text (top :: stack) rest) {a : WrittenType} (starts : Starts rest a after)
      (found : skipBlanks rest = place) (other : a.toKey? = none) :
      Stuck text (.notAKey (String.ofList (place.take (place.length - after.length)))) place
  | leftover {rest place : List Char} {a : WrittenType} (starts : Starts text a rest)
      (found : skipBlanks rest = place) (some : place ≠ []) : Stuck text .trailing place

/-- Whether an annotation stands somewhere in a text. -/
def Occurs (text : List Char) (a : WrittenType) : Prop :=
  ∃ inner rest, inner <:+ text ∧ Starts inner a rest

/-- A failure that the grammar accounts for. What is called complete stands in the text. -/
structure Failure.Sound (text : List Char) (f : Failure) : Prop where
  stuck : Stuck text f.reason f.rest
  complete : ∀ a ∈ f.complete, Occurs text a

theorem sound_of_stuck {text rest : List Char} {reason : Reason} (stuck : Stuck text reason rest) :
    Failure.Sound text ⟨reason, rest, none⟩ :=
  ⟨stuck, by simp⟩

/-- Progress through `text` that the grammar accounts for. -/
def Progress.Sound (text : List Char) : Progress → Prop
  | .whole a rest => Starts text a rest
  | .argument stack rest => Reached text stack rest
  | .failed f => f.Sound text

theorem close_sound {text rest after : List Char} {stack : List OpenArray}
    (reached : Reached text stack rest) {a : WrittenType} (starts : Starts rest a after) :
    Progress.Sound text (close stack a after) := by
  induction stack generalizing rest after a with
  | nil =>
    cases reached
    exact starts
  | cons top stack ih =>
    have occurs : ∀ b ∈ some a, Occurs text b := by
      rintro _ ⟨⟩
      exact ⟨rest, after, suffix_of_reached reached, starts⟩
    unfold close
    split
    · rename_i start next slotted found
      split
      · rename_i key meant
        cases reached with
        | element => cases slotted
        | @first _ _ _ outer nullable nonEmpty opened =>
          obtain ⟨ts, parsed, spelled, _⟩ := starts
          obtain ⟨word, written, rfl⟩ := grammar_key parsed meant
          have comma : Spells [.comma] after next := spells_of_skipBlanks found trivial
          exact Reached.element (.first outer opened) written (spells_append spelled comma)
      · rename_i other
        cases reached with
        | element => cases slotted
        | first outer opened =>
          cases slotted
          exact ⟨Stuck.key (.first outer opened) starts rfl other, occurs⟩
    · rename_i start next slotted found
      have bracket : Spells [.closing] after next := spells_of_skipBlanks found trivial
      cases reached with
      | element => cases slotted
      | first outer opened => exact ih outer (starts_array opened starts bracket)
    · rename_i key next slotted found
      have bracket : Spells [.closing] after next := spells_of_skipBlanks found trivial
      cases reached with
      | first => cases slotted
      | element outer written keyed =>
        cases slotted
        cases outer with
        | first outer opened =>
          exact ih outer (starts_keyedArray opened written keyed starts bracket)
    · rename_i start slotted noComma noBracket
      refine ⟨Stuck.argument reached starts rfl ?_ .commaOrClose, occurs⟩
      intro c first
      obtain ⟨tail, found⟩ := List.head?_eq_some_iff.mp first
      rintro (rfl | ⟨rfl, _⟩)
      · exact noBracket _ found
      · exact noComma _ found
    · rename_i key slotted noBracket
      refine ⟨Stuck.argument reached starts rfl ?_ .close, occurs⟩
      intro c first
      obtain ⟨tail, found⟩ := List.head?_eq_some_iff.mp first
      rintro (rfl | ⟨_, start, slotted'⟩)
      · exact noBracket _ found
      · cases slotted.symm.trans slotted'

theorem openArray_sound {text rest after : List Char} {stack : List OpenArray}
    (reached : Reached text stack rest) {nullable nonEmpty : Bool}
    (spelled : Spells (marks nullable ++ [arrayToken nonEmpty]) rest after) :
    Progress.Sound text (openArray stack nullable nonEmpty after) := by
  unfold openArray
  split
  · rename_i inner found
    have bracket : Spells [.opening] after inner := spells_of_skipBlanks found trivial
    have opened := spells_append spelled bracket
    rw [List.append_assoc] at opened
    exact Reached.first reached opened
  · rename_i noBracket
    refine close_sound reached ⟨_, Grammar.bareArray nullable nonEmpty, spelled, ?_⟩
    intro _ _ inner same
    exact noBracket inner same

theorem stops_dropWhile (accepts : Char → Bool) (text : List Char) :
    ∀ c ∈ (text.dropWhile accepts).head?, accepts c = false := by
  intro c first
  have stop := List.head?_dropWhile_not accepts text
  rw [Option.mem_def.mp first] at stop
  exact stop

theorem maximalRun_takeWhile {accepts : Char → Bool} {text : List Char}
    (some : text.takeWhile accepts ≠ []) :
    Token.MaximalRun accepts (text.takeWhile accepts) (text.dropWhile accepts) :=
  ⟨some, fun _ member => List.mem_takeWhile_imp member, stops_dropWhile accepts text⟩

section Steps
variable {text rest after : List Char} {stack : List OpenArray}
  (reached : Reached text stack rest) {nullable : Bool}
  (marked : Spells (marks nullable) rest after)
include reached marked

theorem readClass_sound {tail : List Char} (lead : skipBlanks after = '\\' :: tail) :
    Progress.Sound text (readClass stack nullable tail) := by
  have parts := List.takeWhile_append_dropWhile (p := isClassChar) (l := tail)
  rw [readClass]
  split
  · rename_i none
    have whole : tail.dropWhile isClassChar = tail := by
      rw [List.isEmpty_iff.mp none] at parts
      exact parts
    exact sound_of_stuck (Stuck.className reached marked (lead.trans (congrArg _ whole.symm))
      (stops_dropWhile isClassChar tail))
  · rename_i some
    have maximal := maximalRun_takeWhile (mt List.isEmpty_iff.mpr some)
    split
    · rename_i proper
      have token : Spells [.className (tail.takeWhile isClassChar)] after
          (tail.dropWhile isClassChar) :=
        spells_of_skipBlanks (lead.trans (congrArg _ parts.symm)) maximal
      refine close_sound reached ⟨_, Grammar.className nullable proper, spells_append marked token, ?_⟩
      apply mayEnd_of_last
      intro nonEmpty same
      cases same
    · have found : skipBlanks after =
          ('\\' :: tail.takeWhile isClassChar) ++ tail.dropWhile isClassChar :=
        lead.trans (congrArg _ parts.symm)
      have stuck := Stuck.word reached marked (List.cons_ne_nil _ _) found
      rw [← found, lead] at stuck
      exact sound_of_stuck stuck

theorem readWord_sound {c : Char} {tail : List Char} (found : skipBlanks after = c :: tail)
    (key : isKeywordChar c = true) :
    Progress.Sound text (readWord stack nullable (c :: tail)) := by
  have parts := List.takeWhile_append_dropWhile (p := isKeywordChar) (l := c :: tail)
  have some : (c :: tail).takeWhile isKeywordChar ≠ [] := by
    rw [List.takeWhile_cons_of_pos key]
    exact List.cons_ne_nil _ _
  have maximal := maximalRun_takeWhile some
  have shape := found.trans parts.symm
  have spell {word : String} (same : String.ofList ((c :: tail).takeWhile isKeywordChar) = word) :
      Spells (marks nullable ++ [.word word.toList]) rest ((c :: tail).dropWhile isKeywordChar) := by
    rw [← same, String.toList_ofList]
    exact spells_append marked (spells_of_skipBlanks shape maximal)
  rw [readWord]
  split
  · rename_i same
    exact openArray_sound reached (spell (eq_of_beq same))
  · split
    · rename_i same
      exact openArray_sound reached (spell (eq_of_beq same))
    · split
      · rename_i b known
        refine close_sound reached ⟨_, Grammar.keyword nullable b,
          spell (keyword_of_ofKeyword? known).symm, mayEnd_of_last ?_ _ _⟩
        intro nonEmpty same
        exact keyword_ne_arrayKeyword b nonEmpty (String.toList_inj.mp (Token.word.inj same))
      · have stuck := Stuck.word reached marked some shape
        rw [parts] at stuck
        exact sound_of_stuck stuck

end Steps

theorem step_sound {text rest : List Char} {stack : List OpenArray}
    (reached : Reached text stack rest) : Progress.Sound text (step stack rest) := by
  unfold step
  split
  · rename_i tail taken
    obtain ⟨after, marked, lead, _⟩ := takeMark_eq_iff.mp taken
    exact readClass_sound reached marked lead
  · rename_i nullable c tail noLead taken
    obtain ⟨after, marked, found, plain⟩ := takeMark_eq_iff.mp taken
    split
    · rename_i key
      exact readWord_sound reached marked found key
    · rename_i other
      refine sound_of_stuck (Stuck.type reached marked found ?_)
      intro d first
      cases first
      refine ⟨?_, eq_false_of_ne_true other, ?_⟩
      · rintro rfl
        exact noLead rfl
      · rintro unmarked rfl
        exact plain unmarked rfl
  · rename_i nullable taken
    obtain ⟨after, marked, found, _⟩ := takeMark_eq_iff.mp taken
    exact sound_of_stuck (Stuck.type reached marked found nofun)

/-- Whatever has been reached, the outcome of reading on is accounted for. -/
theorem readInto_sound {text rest : List Char} {stack : List OpenArray}
    (reached : Reached text stack rest) :
    match readInto stack rest with
    | .ok (a, after) => Starts text a after
    | .error f => f.Sound text := by
  induction size : rest.length using Nat.strongRecOn generalizing rest stack with
  | ind n ih =>
    have sound := step_sound reached
    rw [readInto_eq]
    cases stepped : step stack rest with
    | whole a after =>
      rw [stepped] at sound
      exact sound
    | argument inner next =>
      rw [stepped] at sound
      have shorter := step_argument_length stepped
      exact ih next.length (size ▸ shorter) sound rfl
    | failed f =>
      rw [stepped] at sound
      exact sound

theorem read_accounted (text : List Char) :
    match read text with
    | .ok a => Derives text a
    | .error f => f.Sound text := by
  have begun : Reached text [] text := .start
  have sound := readInto_sound begun
  unfold read
  cases inner : readInto [] text with
  | error f =>
    rw [inner] at sound
    exact sound
  | ok r =>
    obtain ⟨a, rest⟩ := r
    rw [inner] at sound
    have starts : Starts text a rest := sound
    simp only [bind, Except.bind]
    cases ended : skipBlanks rest with
    | nil => exact derives_iff_starts.mpr ⟨rest, starts, ended⟩
    | cons c tail =>
      refine ⟨Stuck.leftover starts ended (List.cons_ne_nil c tail), ?_⟩
      rintro _ ⟨⟩
      exact ⟨text, rest, List.suffix_rfl, starts⟩

theorem read_sound (text : List Char) :
    match read text with
    | .ok a => Derives text a
    | .error f => Stuck text f.reason f.rest := by
  have sound := read_accounted text
  cases outcome : read text with
  | ok a =>
    rw [outcome] at sound
    exact sound
  | error f =>
    rw [outcome] at sound
    exact sound.stuck

/-- The reader accepts the annotations, and reads each as the grammar does. -/
theorem read_eq_ok_iff {text : List Char} {a : WrittenType} :
    read text = .ok a ↔ Derives text a := by
  constructor
  · intro readable
    have sound := read_sound text
    rw [readable] at sound
    exact sound
  · intro derived
    obtain ⟨rest, ⟨ts, parsed, spelled, ends⟩, ended⟩ := derives_iff_starts.mp derived
    unfold read
    rw [readInto_of_grammar parsed spelled ends []]
    simp only [close, proceed, bind, Except.bind, ended]
    rfl

theorem derives_unique {text : List Char} {a b : WrittenType} (left : Derives text a)
    (right : Derives text b) : a = b :=
  Except.ok.inj ((read_eq_ok_iff.mpr left).symm.trans (read_eq_ok_iff.mpr right))

end TypeLattice.TypeTerm
