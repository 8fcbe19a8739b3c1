import TypeLattice.Proofs.Grammar.Printing
import TypeLattice.Proofs.Grammar.Reading

/-!
A printed type can be told from its text, up to the keys that go unwritten, even where the names of
classes are no names at all and hold brackets, commas and question marks. The text is not parsed for
that. It starts with a question mark or none and goes on with one word or, for a class, with a
backslash, and what closes an array is its last character.
-/
namespace TypeLattice

/-- Keys are written alike exactly if they are the same, or both go unwritten. -/
theorem ArrayKey.keyword?_eq_iff {key key' : ArrayKey} :
    key.keyword? = key'.keyword? ↔
      (if key = .empty then .mixed else key) = if key' = .empty then .mixed else key' := by
  cases key <;> cases key' <;> decide

namespace TypeTerm

/-- The word that a printed type starts with, which a class does not have. -/
def headWord : WrittenType → List Char
  | basic _ b => b.keyword.toList
  | instanceOf _ _ => []
  | array _ nonEmpty _ _ => (arrayKeyword nonEmpty).toList

def writtenKey (key : ArrayKey) : List Char :=
  key.keyword?.elim [] fun word => word.toList ++ [',', ' ']

def afterWord : WrittenType → List Char
  | basic _ _ => []
  | instanceOf _ name => '\\' :: name.toList
  | array _ _ key elem => '<' :: (writtenKey key ++ (elem.print.toList ++ ['>']))

theorem toList_print (a : WrittenType) :
    a.print.toList = (markText a.nullable).toList ++ (a.headWord ++ a.afterWord) := by
  cases a with
  | basic nullable b => simp [print, headWord, afterWord, TypeTerm.nullable]
  | instanceOf nullable name => simp [print, headWord, afterWord, TypeTerm.nullable]
  | array nullable nonEmpty key elem =>
    cases written : key.keyword? <;>
      simp [print, headWord, afterWord, writtenKey, Registry.arrayHead, written, TypeTerm.nullable]

theorem head_cons {p : Char → Prop} {c : Char} (own : p c) (text : List Char) :
    ∀ d ∈ (c :: text).head?, p d := by
  intro d first
  cases first
  exact own

/-- Two texts that start with a run of the same characters have the same run and the same rest. -/
theorem run_eq {accepts : Char → Bool} {run rest run' rest' : List Char}
    (all : ∀ c ∈ run, accepts c = true) (stop : ∀ c ∈ rest.head?, accepts c = false)
    (all' : ∀ c ∈ run', accepts c = true) (stop' : ∀ c ∈ rest'.head?, accepts c = false)
    (same : run ++ rest = run' ++ rest') : run = run' ∧ rest = rest' := by
  obtain ⟨taken, left⟩ := takeWhile_run all stop
  obtain ⟨taken', left'⟩ := takeWhile_run all' stop'
  rw [same] at taken left
  exact ⟨taken.symm.trans taken', left.symm.trans left'⟩

theorem headWord_letters (a : WrittenType) : ∀ c ∈ a.headWord, isKeywordChar c = true := by
  cases a with
  | basic nullable b => exact (keyword_letters b).2
  | instanceOf nullable name => exact List.forall_mem_nil _
  | array nullable nonEmpty key elem => exact (arrayKeyword_letters nonEmpty).2

/-- What stands after the word starts with a backslash or a bracket, or is not there. -/
theorem afterWord_head (a : WrittenType) {rest : List Char} {p : Char → Prop} (slash : p '\\')
    (bracket : p '<') (ends : ∀ c ∈ rest.head?, p c) : ∀ c ∈ (a.afterWord ++ rest).head?, p c := by
  cases a with
  | basic nullable b => exact ends
  | instanceOf nullable name => exact head_cons slash _
  | array nullable nonEmpty key elem => exact head_cons bracket _

theorem mark_eq {nullable nullable' : Bool} {text text' : List Char}
    (plain : ∀ c ∈ text.head?, c ≠ '?') (plain' : ∀ c ∈ text'.head?, c ≠ '?')
    (same : (markText nullable).toList ++ text = (markText nullable').toList ++ text') :
    nullable = nullable' ∧ text = text' := by
  cases nullable <;> cases nullable'
  · exact ⟨rfl, same⟩
  · have marked : text = '?' :: text' := same
    subst marked
    exact absurd rfl (plain _ rfl)
  · have marked : '?' :: text = text' := same
    subst marked
    exact absurd rfl (plain' _ rfl)
  · exact ⟨rfl, List.tail_eq_of_cons_eq same⟩

/-- Without its mark a printed type does not start with one. -/
theorem unmarked (a : WrittenType) (rest : List Char) :
    ∀ c ∈ (a.headWord ++ (a.afterWord ++ rest)).head?, c ≠ '?' := by
  have lettered {word : List Char}
      (letters : word ≠ [] ∧ ∀ c ∈ word, isKeywordChar c = true) (text : List Char) :
      ∀ c ∈ (word ++ text).head?, c ≠ '?' := by
    obtain ⟨d, ds, rfl⟩ := List.exists_cons_of_ne_nil letters.1
    have key := letters.2 d (List.mem_cons_self ..)
    refine head_cons ?_ _
    rintro rfl
    revert key
    decide
  cases a with
  | basic nullable b => exact lettered (keyword_letters b) _
  | instanceOf nullable name => exact head_cons (by decide) _
  | array nullable nonEmpty key elem => exact lettered (arrayKeyword_letters nonEmpty) _

/-- The parts of a printed type can be told from its text. -/
theorem parts_eq {a b : WrittenType} {rest rest' : List Char}
    (stops : ∀ c ∈ rest.head?, isKeywordChar c = false)
    (stops' : ∀ c ∈ rest'.head?, isKeywordChar c = false)
    (same : a.print.toList ++ rest = b.print.toList ++ rest') :
    a.nullable = b.nullable ∧ a.headWord = b.headWord ∧
      a.afterWord ++ rest = b.afterWord ++ rest' := by
  have ends := afterWord_head a (by decide) (by decide) stops
  have ends' := afterWord_head b (by decide) (by decide) stops'
  simp only [toList_print, List.append_assoc] at same
  obtain ⟨flag, bare⟩ := mark_eq (unmarked a rest) (unmarked b rest') same
  exact ⟨flag, run_eq (headWord_letters a) ends (headWord_letters b) ends' bare⟩

/-- No printed type goes on with a comma, so a written key is no element of an array. -/
theorem key_ne_element {key : ArrayKey} {word : String} (written : key.keyword? = some word)
    (text : List Char) (a : WrittenType) :
    word.toList ++ ([',', ' '] ++ text) ≠ a.print.toList ++ ['>'] := by
  obtain ⟨b, rfl, _⟩ := toKey?_of_keyword? written
  intro same
  have parts : [',', ' '] ++ text = a.afterWord ++ ['>'] :=
    (parts_eq (a := basic false b) (head_cons (by decide) _) (head_cons (by decide) []) same).2.2
  have plain : ∀ c ∈ (a.afterWord ++ ['>']).head?, c ≠ ',' :=
    afterWord_head a (by decide) (by decide) (head_cons (by decide) [])
  rw [← parts] at plain
  exact plain ',' rfl rfl

theorem key_eq {key key' : ArrayKey} {word word' : String} (written : key.keyword? = some word)
    (written' : key'.keyword? = some word') {text text' : List Char}
    (same : word.toList ++ ([',', ' '] ++ text) = word'.toList ++ ([',', ' '] ++ text')) :
    word = word' ∧ text = text' := by
  obtain ⟨b, rfl, _⟩ := toKey?_of_keyword? written
  obtain ⟨b', rfl, _⟩ := toKey?_of_keyword? written'
  obtain ⟨words, rests⟩ := run_eq (keyword_letters b).2 (head_cons (by decide) _)
    (keyword_letters b').2 (head_cons (by decide) _) same
  have rests : [',', ' '] ++ text = [',', ' '] ++ text' := rests
  exact ⟨String.toList_inj.mp words, List.append_cancel_left rests⟩

theorem inside_eq {key key' : ArrayKey} {a b : WrittenType}
    (same : writtenKey key ++ (a.print.toList ++ ['>']) =
      writtenKey key' ++ (b.print.toList ++ ['>'])) :
    key.keyword? = key'.keyword? ∧ a.print = b.print := by
  have closed {text text' : String} (same : text.toList ++ ['>'] = text'.toList ++ ['>']) :
      text = text' := String.toList_inj.mp (List.append_cancel_right same)
  cases written : key.keyword? with
  | none =>
    cases written' : key'.keyword? with
    | none =>
      simp only [writtenKey, written, written', Option.elim_none, List.nil_append] at same
      exact ⟨rfl, closed same⟩
    | some word =>
      simp only [writtenKey, written, written', Option.elim_none, Option.elim_some,
        List.nil_append, List.append_assoc] at same
      exact absurd same.symm (key_ne_element written' _ a)
  | some word =>
    cases written' : key'.keyword? with
    | none =>
      simp only [writtenKey, written, written', Option.elim_none, Option.elim_some,
        List.nil_append, List.append_assoc] at same
      exact absurd same (key_ne_element written _ b)
    | some word' =>
      simp only [writtenKey, written, written', Option.elim_some, List.append_assoc] at same
      obtain ⟨words, rests⟩ := key_eq written written' same
      exact ⟨congrArg some words, closed rests⟩

theorem parts_eq_of_print_eq {a b : WrittenType} (same : a.print = b.print) :
    a.nullable = b.nullable ∧ a.headWord = b.headWord ∧ a.afterWord = b.afterWord := by
  have whole : a.print.toList ++ [] = b.print.toList ++ [] := congrArg (·.toList ++ []) same
  have ends : ∀ c ∈ ([] : List Char).head?, isKeywordChar c = false := by simp
  have parts := parts_eq ends ends whole
  rwa [List.append_nil, List.append_nil] at parts

theorem mixEmptyKeys_eq_of_print_eq {a b : WrittenType} (same : a.print = b.print) :
    a.mixEmptyKeys = b.mixEmptyKeys := by
  induction a generalizing b with
  | basic nullable c =>
    obtain ⟨flag, word, rest⟩ := parts_eq_of_print_eq same
    cases b with
    | basic nullable' d =>
      have words : c.keyword = d.keyword := String.toList_inj.mp word
      have kinds := congrArg BasicKind.ofKeyword? words
      rw [ofKeyword?_keyword, ofKeyword?_keyword, Option.some.injEq] at kinds
      exact congrArg₂ basic flag kinds
    | instanceOf | array => cases rest
  | instanceOf nullable name =>
    obtain ⟨flag, word, rest⟩ := parts_eq_of_print_eq same
    cases b with
    | instanceOf nullable' name' =>
      simp only [afterWord, List.cons.injEq, true_and, String.toList_inj] at rest
      exact congrArg₂ instanceOf flag rest
    | basic | array => cases rest
  | array nullable nonEmpty key elem ih =>
    obtain ⟨flag, word, rest⟩ := parts_eq_of_print_eq same
    cases b with
    | array nullable' nonEmpty' key' elem' =>
      have head : nonEmpty = nonEmpty' := by
        cases nonEmpty <;> cases nonEmpty' <;> first | rfl | cases word
      simp only [afterWord, List.cons.injEq, true_and] at rest
      obtain ⟨keys, inner⟩ := inside_eq rest
      have flag : nullable = nullable' := flag
      rw [mixEmptyKeys, mixEmptyKeys, flag, head, ArrayKey.keyword?_eq_iff.mp keys, ih inner]
    | basic | instanceOf => cases rest

theorem print_mixEmptyKeys (a : WrittenType) : a.mixEmptyKeys.print = a.print := by
  induction a with
  | basic | instanceOf => rfl
  | array nullable nonEmpty key elem ih =>
    have head : Registry.arrayHead nonEmpty (if key = .empty then .mixed else key) =
        Registry.arrayHead nonEmpty key := by
      cases key <;> rfl
    rw [mixEmptyKeys, print, print, head, ih]

/-- Texts tell types apart, but for the keys that go unwritten. -/
theorem print_eq_iff {a b : WrittenType} : a.print = b.print ↔ a.mixEmptyKeys = b.mixEmptyKeys := by
  constructor
  · exact mixEmptyKeys_eq_of_print_eq
  · intro same
    rw [← print_mixEmptyKeys a, same, print_mixEmptyKeys]

end TypeTerm
end TypeLattice
