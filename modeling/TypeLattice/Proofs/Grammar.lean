import TypeLattice.TypeTerm.Reader

/-!
The grammar of annotations, in two layers that know nothing of the reader: how a text is cut into
tokens, and which tokens make an annotation.

White space may stand before and after every token. A word and a class name are maximal runs of
their characters, so the text that follows a token has a say in whether it is one.
-/
namespace TypeLattice.TypeTerm

inductive Token where
  | mark | opening | comma | closing
  | word (chars : List Char)
  /-- A backslash and the name after it. -/
  | className (name : List Char)

namespace Token

def text : Token → List Char
  | mark => ['?']
  | opening => ['<']
  | comma => [',']
  | closing => ['>']
  | word chars => chars
  | className name => '\\' :: name

/-- A run of characters that does not go on in `rest`. -/
def MaximalRun (accepts : Char → Bool) (run rest : List Char) : Prop :=
  run ≠ [] ∧ (∀ c ∈ run, accepts c = true) ∧ ∀ c ∈ rest.head?, accepts c = false

/-- Whether a token may stand before `rest`. -/
def Fits (rest : List Char) : Token → Prop
  | mark | opening | comma | closing => True
  | word chars => MaximalRun isKeywordChar chars rest
  | className name => MaximalRun isClassChar name rest

end Token

/-- Whether a text starts with some tokens, with `rest` after the last one. -/
inductive Spells : List Token → List Char → List Char → Prop where
  | nil (rest : List Char) : Spells [] rest rest
  | cons {t : Token} {ts : List Token} {blanks next rest : List Char}
      (blank : ∀ c ∈ blanks, Text.isBlank c = true) (fits : t.Fits next)
      (tail : Spells ts next rest) : Spells (t :: ts) (blanks ++ (t.text ++ next)) rest

def marks (nullable : Bool) : List Token := if nullable then [.mark] else []

def arrayToken (nonEmpty : Bool) : Token := .word (arrayKeyword nonEmpty).toList

/-- Which tokens make an annotation, and what it says. -/
inductive Grammar : List Token → WrittenType → Prop where
  | keyword (nullable : Bool) (b : BasicKind) :
      Grammar (marks nullable ++ [.word b.keyword.toList]) (.basic nullable b)
  | className (nullable : Bool) {name : List Char} (proper : Name.isQualified name = true) :
      Grammar (marks nullable ++ [.className name]) (.instanceOf nullable (String.ofList name))
  | bareArray (nullable nonEmpty : Bool) :
      Grammar (marks nullable ++ [arrayToken nonEmpty]) (.array nullable nonEmpty .mixed .any)
  | array (nullable nonEmpty : Bool) {ts : List Token} {elem : WrittenType}
      (inner : Grammar ts elem) :
      Grammar (marks nullable ++ ([arrayToken nonEmpty, .opening] ++ (ts ++ [.closing])))
        (.array nullable nonEmpty .mixed elem)
  | keyedArray (nullable nonEmpty : Bool) {key : ArrayKey} {word : String}
      (written : key.keyword? = some word) {ts : List Token} {elem : WrittenType}
      (inner : Grammar ts elem) :
      Grammar (marks nullable ++
          ([arrayToken nonEmpty, .opening] ++ ([.word word.toList, .comma] ++ (ts ++ [.closing]))))
        (.array nullable nonEmpty key elem)

/-- Whether a whole text is an annotation. -/
def Derives (text : List Char) (a : WrittenType) : Prop :=
  ∃ ts rest, Grammar ts a ∧ Spells ts text rest ∧ ∀ c ∈ rest, Text.isBlank c = true

theorem spells_append {ts us : List Token} {text next rest : List Char}
    (first : Spells ts text next) (last : Spells us next rest) : Spells (ts ++ us) text rest := by
  induction first with
  | nil => exact last
  | cons blank fits _ ih => exact Spells.cons blank fits (ih last)

theorem spells_append_iff {ts us : List Token} {text rest : List Char} :
    Spells (ts ++ us) text rest ↔ ∃ next, Spells ts text next ∧ Spells us next rest := by
  constructor
  · intro spelled
    induction ts generalizing text with
    | nil => exact ⟨text, Spells.nil text, spelled⟩
    | cons t ts ih =>
      cases spelled with
      | cons blank fits tail =>
        obtain ⟨next, first, last⟩ := ih tail
        exact ⟨next, Spells.cons blank fits first, last⟩
  · rintro ⟨next, first, last⟩
    exact spells_append first last

theorem spells_singleton_iff {t : Token} {text rest : List Char} :
    Spells [t] text rest ↔ ∃ blanks, (∀ c ∈ blanks, Text.isBlank c = true) ∧ t.Fits rest ∧
      text = blanks ++ (t.text ++ rest) := by
  constructor
  · intro spelled
    cases spelled with
    | cons blank fits tail =>
      cases tail
      exact ⟨_, blank, fits, rfl⟩
  · rintro ⟨blanks, blank, fits, rfl⟩
    exact Spells.cons blank fits (Spells.nil rest)

/-! ### Keywords -/

theorem keyword_letters (b : BasicKind) :
    b.keyword.toList ≠ [] ∧ ∀ c ∈ b.keyword.toList, isKeywordChar c = true := by
  have letters : b.keyword.toList.isEmpty = false ∧ b.keyword.toList.all isKeywordChar = true := by
    cases b <;> decide
  exact ⟨List.isEmpty_eq_false_iff.mp letters.1, List.all_eq_true.mp letters.2⟩

theorem arrayKeyword_letters (nonEmpty : Bool) :
    (arrayKeyword nonEmpty).toList ≠ [] ∧
      ∀ c ∈ (arrayKeyword nonEmpty).toList, isKeywordChar c = true := by
  have letters : (arrayKeyword nonEmpty).toList.isEmpty = false ∧
      (arrayKeyword nonEmpty).toList.all isKeywordChar = true := by
    cases nonEmpty <;> decide
  exact ⟨List.isEmpty_eq_false_iff.mp letters.1, List.all_eq_true.mp letters.2⟩

theorem ofKeyword?_keyword (b : BasicKind) : BasicKind.ofKeyword? b.keyword = some b := by
  cases b <;> decide

theorem keyword_of_ofKeyword? {word : String} {b : BasicKind}
    (found : BasicKind.ofKeyword? word = some b) : b.keyword = word := by
  unfold BasicKind.ofKeyword? at found
  have same := List.find?_some found
  exact eq_of_beq same

theorem keyword_ne_arrayKeyword (b : BasicKind) (nonEmpty : Bool) :
    b.keyword ≠ arrayKeyword nonEmpty := by
  cases b <;> cases nonEmpty <;> decide

/-- An annotation that stands for an array key is that key's word. -/
theorem grammar_key {ts : List Token} {a : WrittenType} {key : ArrayKey} (parsed : Grammar ts a)
    (meant : a.toKey? = some key) :
    ∃ word, key.keyword? = some word ∧ ts = [.word word.toList] := by
  cases parsed with
  | keyword nullable b =>
    cases nullable <;> cases b <;> cases meant
    · exact ⟨"int", rfl, rfl⟩
    · exact ⟨"string", rfl, rfl⟩
  | className | bareArray | array | keyedArray => cases meant

theorem toKey?_of_keyword? {key : ArrayKey} {word : String} (written : key.keyword? = some word) :
    ∃ b : BasicKind, b.keyword = word ∧ (basic false b : WrittenType).toKey? = some key := by
  cases key <;> cases written
  · exact ⟨.int, rfl, rfl⟩
  · exact ⟨.string, rfl, rfl⟩

end TypeLattice.TypeTerm
