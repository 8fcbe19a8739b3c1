import Mathlib.Data.List.TakeWhile
import TypeLattice.Proofs.Grammar

/-!
The reader on the texts of the grammar. Brackets and a written key bring it to the next argument
with a larger stack, and an annotation brings it to the point where it hands that annotation to the
arrays around it.
-/
namespace TypeLattice.TypeTerm

/-! ### Characters -/

theorem toNat_of_isKeywordChar {c : Char} (key : isKeywordChar c = true) : c.toNat < 123 := by
  have code : c.toNat = c.val.toNat := rfl
  delta isKeywordChar Char.isAlphanum Char.isAlpha Char.isUpper Char.isLower Char.isDigit at key
  simp only [Bool.or_eq_true, Bool.and_eq_true, decide_eq_true_eq, beq_iff_eq,
    UInt32.le_iff_toNat_le, ge_iff_le] at key
  rcases key with (((upper | lower) | digit) | rfl) | rfl
  · have : c.val.toNat ≤ 90 := upper.2
    omega
  · have : c.val.toNat ≤ 122 := lower.2
    omega
  · have : c.val.toNat ≤ 57 := digit.2
    omega
  · decide
  · decide

theorem isBlank_of_isKeywordChar {c : Char} (key : isKeywordChar c = true) :
    Text.isBlank c = false := by
  have plain : ∀ n < 123, isKeywordChar (Char.ofNat n) = true →
      Text.isBlank (Char.ofNat n) = false := by decide
  rw [← Char.ofNat_toNat c] at key ⊢
  exact plain c.toNat (by rw [Char.ofNat_toNat] at key; exact toNat_of_isKeywordChar key) key

theorem skipBlanks_append {blanks : List Char} (blank : ∀ c ∈ blanks, Text.isBlank c = true)
    (text : List Char) : skipBlanks (blanks ++ text) = skipBlanks text :=
  List.dropWhile_append_of_pos blank

theorem skipBlanks_cons {c : Char} (solid : Text.isBlank c = false) (text : List Char) :
    skipBlanks (c :: text) = c :: text := by
  rw [skipBlanks, List.dropWhile_cons_of_neg (by simp [solid])]

theorem skipBlanks_of_blank {text : List Char} (blank : ∀ c ∈ text, Text.isBlank c = true) :
    skipBlanks text = [] := List.dropWhile_eq_nil_iff.mpr blank

theorem takeWhile_run {accepts : Char → Bool} {run rest : List Char}
    (all : ∀ c ∈ run, accepts c = true) (stop : ∀ c ∈ rest.head?, accepts c = false) :
    (run ++ rest).takeWhile accepts = run ∧ (run ++ rest).dropWhile accepts = rest := by
  rw [List.takeWhile_append_of_pos all, List.dropWhile_append_of_pos all]
  cases rest with
  | nil => simp
  | cons c rest =>
    have ends : accepts c = false := stop c rfl
    rw [List.takeWhile_cons_of_neg (by simp [ends]), List.dropWhile_cons_of_neg (by simp [ends])]
    simp

theorem takeWhile_maximalRun {accepts : Char → Bool} {run rest : List Char}
    (maximal : Token.MaximalRun accepts run rest) :
    (run ++ rest).takeWhile accepts = run ∧ (run ++ rest).dropWhile accepts = rest :=
  takeWhile_run maximal.2.1 maximal.2.2

/-! ### Every annotation is read -/

def proceed : Progress → Except Failure (WrittenType × List Char)
  | .whole a rest => .ok (a, rest)
  | .argument stack rest => readInto stack rest
  | .failed f => .error f

theorem readInto_eq (stack : List OpenArray) (text : List Char) :
    readInto stack text = proceed (step stack text) := by
  rw [readInto]
  split <;> rename_i reached <;> rw [reached, proceed]

theorem readInto_of_steps {stack inner : List OpenArray} {text rest : List Char} {p : Progress}
    (first : step stack text = .argument inner rest) (second : step inner rest = p) :
    readInto stack text = proceed p := by
  rw [readInto_eq, first, proceed, readInto_eq, second]

theorem eq_append_of_skipBlanks {text rest : List Char} (skipped : skipBlanks text = rest) :
    ∃ blanks, (∀ c ∈ blanks, Text.isBlank c = true) ∧ text = blanks ++ rest := by
  refine ⟨text.takeWhile Text.isBlank, fun c member => List.mem_takeWhile_imp member, ?_⟩
  rw [← skipped, skipBlanks, List.takeWhile_append_dropWhile]

theorem spells_of_skipBlanks {t : Token} {text rest : List Char}
    (skipped : skipBlanks text = t.text ++ rest) (fits : t.Fits rest) : Spells [t] text rest := by
  obtain ⟨blanks, blank, rfl⟩ := eq_append_of_skipBlanks skipped
  exact spells_singleton_iff.mpr ⟨blanks, blank, fits, rfl⟩

theorem skipBlanks_spelled {t : Token} {ts : List Token} {text rest : List Char} {c : Char}
    (spelled : Spells (t :: ts) text rest) (sign : t.text = [c])
    (solid : Text.isBlank c = false) :
    ∃ next, skipBlanks text = c :: next ∧ Spells ts next rest := by
  cases spelled with
  | cons blank _ tail =>
    refine ⟨_, ?_, tail⟩
    rw [skipBlanks_append blank, sign, List.singleton_append, skipBlanks_cons solid]

/-- A step skips the white space before a token, and a question mark before the others. -/
theorem takeMark_eq_iff {nullable : Bool} {text rest : List Char} :
    takeMark text = (nullable, rest) ↔ ∃ after, Spells (marks nullable) text after ∧
      skipBlanks after = rest ∧ (nullable = false → rest.head? ≠ some '?') := by
  constructor
  · intro taken
    unfold takeMark at taken
    split at taken
    · rename_i after marked
      cases taken
      have mark : Spells [.mark] text after := spells_of_skipBlanks marked trivial
      exact ⟨after, mark, rfl, nofun⟩
    · rename_i unmarked
      cases taken
      refine ⟨text, Spells.nil text, rfl, ?_⟩
      intro _ first
      obtain ⟨after, marked⟩ := List.head?_eq_some_iff.mp first
      exact unmarked after marked
  · rintro ⟨after, marked, rfl, plain⟩
    cases nullable with
    | false =>
      cases marked
      unfold takeMark
      split
      · rename_i rest marked
        exact absurd (congrArg List.head? marked) (plain rfl)
      · rfl
    | true =>
      obtain ⟨next, skipped, ended⟩ := skipBlanks_spelled marked rfl (by decide)
      cases ended
      rw [takeMark, skipped]
      rfl

theorem takeMark_spelled {nullable : Bool} {t : Token} {text rest : List Char}
    (spelled : Spells (marks nullable ++ [t]) text rest)
    (solid : ∀ c ∈ t.text.head?, Text.isBlank c = false ∧ c ≠ '?') (some : t.text ≠ []) :
    takeMark text = (nullable, t.text ++ rest) ∧ t.Fits rest := by
  obtain ⟨after, marked, token⟩ := spells_append_iff.mp spelled
  obtain ⟨blanks, blank, fits, rfl⟩ := spells_singleton_iff.mp token
  obtain ⟨c, cs, shape⟩ := List.exists_cons_of_ne_nil some
  rw [shape] at solid
  obtain ⟨full, plain⟩ := solid c rfl
  refine ⟨takeMark_eq_iff.mpr ⟨_, marked, ?_, ?_⟩, fits⟩
  · rw [skipBlanks_append blank, shape, List.cons_append, skipBlanks_cons full]
  · rintro _ same
    rw [shape] at same
    exact plain (Option.some.inj same)

theorem step_word {nullable : Bool} {word text rest : List Char}
    (spelled : Spells (marks nullable ++ [.word word]) text rest)
    (letters : word ≠ [] ∧ ∀ c ∈ word, isKeywordChar c = true) (stack : List OpenArray) :
    step stack text = readWord stack nullable (word ++ rest) ∧
      Token.MaximalRun isKeywordChar word rest := by
  obtain ⟨c, cs, rfl⟩ := List.exists_cons_of_ne_nil letters.1
  have key := letters.2 c (List.mem_cons_self ..)
  have plain : c ≠ '?' := by rintro rfl; revert key; decide
  have lead : c ≠ '\\' := by rintro rfl; revert key; decide
  obtain ⟨taken, fits⟩ := takeMark_spelled spelled
    (by intro d same; cases same; exact ⟨isBlank_of_isKeywordChar key, plain⟩) letters.1
  refine ⟨?_, fits⟩
  rw [step, taken, Token.text, List.cons_append]
  split
  · rename_i same
    simp only [Prod.mk.injEq, List.cons.injEq] at same
    exact absurd same.2.1 lead
  · rename_i same
    simp only [Prod.mk.injEq, List.cons.injEq] at same
    obtain ⟨rfl, rfl, rfl⟩ := same
    rw [if_pos key]
  · rename_i same
    simp at same

theorem step_className {nullable : Bool} {name text rest : List Char}
    (spelled : Spells (marks nullable ++ [.className name]) text rest) (stack : List OpenArray) :
    step stack text = readClass stack nullable (name ++ rest) ∧
      Token.MaximalRun isClassChar name rest := by
  obtain ⟨taken, fits⟩ := takeMark_spelled spelled
    (by intro c same; cases same; decide) (List.cons_ne_nil _ _)
  refine ⟨?_, fits⟩
  rw [step, taken, Token.text, List.cons_append]
  rfl

theorem readWord_keyword {b : BasicKind} {rest : List Char}
    (maximal : Token.MaximalRun isKeywordChar b.keyword.toList rest) (stack : List OpenArray)
    (nullable : Bool) :
    readWord stack nullable (b.keyword.toList ++ rest) = close stack (.basic nullable b) rest := by
  obtain ⟨taken, left⟩ := takeWhile_maximalRun maximal
  simp only [readWord, taken, left, String.ofList_toList, beq_iff_eq, keyword_ne_arrayKeyword,
    ↓reduceIte, ofKeyword?_keyword]

theorem readWord_array {nonEmpty : Bool} {rest : List Char}
    (maximal : Token.MaximalRun isKeywordChar (arrayKeyword nonEmpty).toList rest)
    (stack : List OpenArray) (nullable : Bool) :
    readWord stack nullable ((arrayKeyword nonEmpty).toList ++ rest) =
      openArray stack nullable nonEmpty rest := by
  obtain ⟨taken, left⟩ := takeWhile_maximalRun maximal
  simp only [readWord, taken, left, String.ofList_toList]
  cases nonEmpty <;> rfl

theorem readClass_name {name rest : List Char} (maximal : Token.MaximalRun isClassChar name rest)
    (proper : Name.isQualified name = true) (stack : List OpenArray) (nullable : Bool) :
    readClass stack nullable (name ++ rest) =
      close stack (.instanceOf nullable (String.ofList name)) rest := by
  obtain ⟨taken, left⟩ := takeWhile_maximalRun maximal
  have some : name.isEmpty = false := List.isEmpty_eq_false_iff.mpr maximal.1
  simp only [readClass, taken, left, some, proper, Bool.false_eq_true, ↓reduceIte]

/-- Whether the next token does not open a bracket, which a bare array relies on. -/
def NotOpening (text : List Char) : Prop := ∀ inner, skipBlanks text ≠ '<' :: inner

theorem notOpening_closing {ts : List Token} {text rest : List Char}
    (spelled : Spells (.closing :: ts) text rest) : NotOpening text := by
  obtain ⟨next, skipped, _⟩ := skipBlanks_spelled spelled rfl (by decide)
  intro inner same
  rw [skipped] at same
  cases same

theorem close_closing {top : OpenArray} {text rest : List Char}
    (spelled : Spells [.closing] text rest) (stack : List OpenArray) (a : WrittenType) :
    close (top :: stack) a text = close stack (.array top.nullable top.nonEmpty
      (match top.slot with | .first _ => .mixed | .element key => key) a) rest := by
  obtain ⟨next, skipped, ended⟩ := skipBlanks_spelled spelled rfl (by decide)
  cases ended
  rw [close, skipped]
  obtain ⟨nullable, nonEmpty, _ | _⟩ := top <;> rfl

/-- Brackets put an array on the stack, with the place where its first argument starts. -/
theorem readInto_opening {nullable nonEmpty : Bool} {text inner : List Char}
    (spelled : Spells (marks nullable ++ [arrayToken nonEmpty, .opening]) text inner)
    (stack : List OpenArray) : readInto stack text =
      readInto (⟨nullable, nonEmpty, .first (skipBlanks inner)⟩ :: stack) inner := by
  have whole : Spells ((marks nullable ++ [arrayToken nonEmpty]) ++ [.opening]) text inner := by
    simpa only [List.append_assoc, List.cons_append, List.nil_append] using spelled
  obtain ⟨after, word, bracket⟩ := spells_append_iff.mp whole
  obtain ⟨stepped, maximal⟩ := step_word word (arrayKeyword_letters nonEmpty) stack
  obtain ⟨next, skipped, ended⟩ := skipBlanks_spelled bracket rfl (by decide)
  cases ended
  rw [readInto_eq, stepped, readWord_array maximal, openArray, skipped]
  rfl

/-- A comma makes the word before it the key of the innermost array. -/
theorem readInto_key {key : ArrayKey} {word : String} (written : key.keyword? = some word)
    {text rest : List Char} (spelled : Spells [.word word.toList, .comma] text rest)
    (nullable nonEmpty : Bool) (start : List Char) (stack : List OpenArray) :
    readInto (⟨nullable, nonEmpty, .first start⟩ :: stack) text =
      readInto (⟨nullable, nonEmpty, .element key⟩ :: stack) rest := by
  obtain ⟨b, rfl, meant⟩ := toKey?_of_keyword? written
  obtain ⟨after, word, comma⟩ := spells_append_iff.mp
    (show Spells ([.word b.keyword.toList] ++ [.comma]) text rest from spelled)
  obtain ⟨stepped, maximal⟩ := step_word
    (show Spells (marks false ++ [.word b.keyword.toList]) text after from word)
    (keyword_letters b) (⟨nullable, nonEmpty, .first start⟩ :: stack)
  obtain ⟨next, skipped, ended⟩ := skipBlanks_spelled comma rfl (by decide)
  cases ended
  rw [readInto_eq, stepped, readWord_keyword maximal, close, skipped]
  simp only [meant, proceed]

/-- Whether the tokens of an annotation may end before `rest`. A bracket would open an array that
is bare up to there. -/
def MayEnd (ts : List Token) (rest : List Char) : Prop :=
  ∀ nonEmpty, ts.getLast? = some (arrayToken nonEmpty) → NotOpening rest

theorem readInto_of_grammar {ts : List Token} {a : WrittenType} (parsed : Grammar ts a)
    {text rest : List Char} (spelled : Spells ts text rest) (ends : MayEnd ts rest)
    (stack : List OpenArray) : readInto stack text = proceed (close stack a rest) := by
  induction parsed generalizing text rest stack with
  | keyword nullable b =>
    obtain ⟨stepped, maximal⟩ := step_word spelled (keyword_letters b) stack
    rw [readInto_eq, stepped, readWord_keyword maximal]
  | className nullable proper =>
    obtain ⟨stepped, maximal⟩ := step_className spelled stack
    rw [readInto_eq, stepped, readClass_name maximal proper]
  | bareArray nullable nonEmpty =>
    obtain ⟨stepped, maximal⟩ := step_word spelled (arrayKeyword_letters nonEmpty) stack
    have follows : NotOpening rest := ends nonEmpty List.getLast?_concat
    rw [readInto_eq, stepped, readWord_array maximal, openArray]
    split
    · rename_i inner skipped
      exact absurd skipped (follows inner)
    · rfl
  | array nullable nonEmpty _ ih =>
    rw [← List.append_assoc] at spelled
    obtain ⟨inner, opened, body⟩ := spells_append_iff.mp spelled
    obtain ⟨next, elem, closing⟩ := spells_append_iff.mp body
    rw [readInto_opening opened, ih elem fun _ _ => notOpening_closing closing,
      close_closing closing]
  | keyedArray nullable nonEmpty written _ ih =>
    rw [← List.append_assoc] at spelled
    obtain ⟨inner, opened, body⟩ := spells_append_iff.mp spelled
    obtain ⟨after, key, argument⟩ := spells_append_iff.mp body
    obtain ⟨next, elem, closing⟩ := spells_append_iff.mp argument
    rw [readInto_opening opened, readInto_key written key,
      ih elem fun _ _ => notOpening_closing closing, close_closing closing]

end TypeLattice.TypeTerm
