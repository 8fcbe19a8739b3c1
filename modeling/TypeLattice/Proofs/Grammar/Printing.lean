import TypeLattice.Proofs.Grammar
import TypeLattice.Proofs.Names
import TypeLattice.Proofs.Terms
import TypeLattice.Registry.Rendering

/-!
The text that a type is written as, told along its tree, and that it is an annotation. What it says
is the type itself, but that an array whose keys go unwritten has mixed keys.
-/
namespace TypeLattice.TypeTerm

def markText (nullable : Bool) : String := if nullable then "?" else ""

def print : WrittenType → String
  | basic nullable b => markText nullable ++ b.keyword
  | instanceOf nullable name => markText nullable ++ ("\\" ++ name)
  | array nullable nonEmpty key elem =>
    markText nullable ++ (Registry.arrayHead nonEmpty key ++ (elem.print ++ ">"))

/-- A text that continues no word and no class name. -/
def Ends (text : List Char) : Prop :=
  ∀ c ∈ text.head?, isKeywordChar c = false ∧ isClassChar c = false

theorem ends_cons {c : Char} (plain : isKeywordChar c = false ∧ isClassChar c = false)
    (text : List Char) : Ends (c :: text) := by
  intro d first
  cases first
  exact plain

theorem isClassChar_of_segments {fresh : Bool} {name : List Char}
    (segments : Name.segmentsFrom fresh name = true) : ∀ c ∈ name, isClassChar c = true := by
  induction name generalizing fresh with
  | nil => intro c member; cases member
  | cons first rest ih =>
    have split : isClassChar first = true ∧ ∃ fresh, Name.segmentsFrom fresh rest = true := by
      rw [Name.segmentsFrom] at segments
      split at segments
      · obtain ⟨start, tail⟩ := Bool.and_eq_true_iff.mp segments
        refine ⟨?_, false, tail⟩
        simp only [Name.isStart, Bool.or_eq_true] at start
        rcases start with letter | line
        · simp [isClassChar, Name.isPart, letter]
        · simp [isClassChar, Name.isPart, line]
      · split at segments
        · rename_i slash
          exact ⟨by simp [isClassChar, slash], true, segments⟩
        · obtain ⟨part, tail⟩ := Bool.and_eq_true_iff.mp segments
          exact ⟨by simp [isClassChar, part], false, tail⟩
    obtain ⟨own, fresh, tail⟩ := split
    intro c member
    rcases List.mem_cons.mp member with rfl | member
    · exact own
    · exact ih tail c member

theorem spells_token {t : Token} {rest : List Char} (fits : t.Fits rest) :
    Spells [t] (t.text ++ rest) rest :=
  spells_singleton_iff.mpr ⟨[], List.forall_mem_nil _, fits, rfl⟩

theorem spells_marks (nullable : Bool) (text : List Char) :
    Spells (marks nullable) ((markText nullable).toList ++ text) text := by
  cases nullable with
  | false => exact Spells.nil text
  | true => exact spells_token (t := .mark) trivial

theorem spells_blank {ts : List Token} {text rest : List Char} {c : Char}
    (blank : Text.isBlank c = true) (some : ts ≠ []) (spelled : Spells ts text rest) :
    Spells ts (c :: text) rest := by
  cases spelled with
  | nil => exact absurd rfl some
  | @cons t ts blanks next rest blank' fits tail =>
    have all : ∀ d ∈ c :: blanks, Text.isBlank d = true := List.forall_mem_cons.mpr ⟨blank, blank'⟩
    exact Spells.cons all fits tail

theorem spells_arrayHead (nullable nonEmpty : Bool) (key : ArrayKey) (text : List Char) :
    Spells (marks nullable ++ ([arrayToken nonEmpty, .opening] ++
        ((key.keyword?.map fun word => [.word word.toList, .comma]).getD [])))
      ((markText nullable).toList ++ ((Registry.arrayHead nonEmpty key).toList ++ text))
      (if key.keyword?.isSome then ' ' :: text else text) := by
  apply spells_append (spells_marks nullable _)
  have maximal (rest : List Char) : Token.MaximalRun isKeywordChar
      (arrayKeyword nonEmpty).toList ('<' :: rest) :=
    ⟨(arrayKeyword_letters nonEmpty).1, (arrayKeyword_letters nonEmpty).2,
      by intro c first; cases first; decide⟩
  have opened (rest : List Char) : Spells [arrayToken nonEmpty, .opening]
      ((arrayKeyword nonEmpty).toList ++ ('<' :: rest)) rest :=
    spells_append (spells_token (t := arrayToken nonEmpty) (maximal rest))
      (spells_token (t := .opening) trivial)
  cases written : key.keyword? with
  | none =>
    have head : (Registry.arrayHead nonEmpty key).toList ++ text =
        (arrayKeyword nonEmpty).toList ++ ('<' :: text) := by
      simp [Registry.arrayHead, written]
    rw [head]
    simpa using opened text
  | some word =>
    obtain ⟨b, rfl, _⟩ := toKey?_of_keyword? written
    have head : (Registry.arrayHead nonEmpty key).toList ++ text =
        (arrayKeyword nonEmpty).toList ++ ('<' :: (b.keyword.toList ++ (',' :: (' ' :: text)))) := by
      simp [Registry.arrayHead, written]
    have keyed : Spells [.word b.keyword.toList, .comma]
        (b.keyword.toList ++ (',' :: (' ' :: text))) (' ' :: text) := by
      refine spells_append (spells_token (t := .word _) ?_) (spells_token (t := .comma) trivial)
      exact ⟨(keyword_letters b).1, (keyword_letters b).2, by intro c first; cases first; decide⟩
    rw [head]
    exact spells_append (opened _) keyed

/-- A printed type is made of tokens, and they say the type up to unwritten keys. -/
theorem print_spells {a : WrittenType}
    (segments : ∀ name ∈ a.names, Name.segmentsFrom true name.toList = true) :
    ∃ ts, Grammar ts a.mixEmptyKeys ∧
      ∀ rest, Ends rest → Spells ts (a.print.toList ++ rest) rest := by
  induction a with
  | basic nullable b =>
    refine ⟨_, Grammar.keyword nullable b, ?_⟩
    intro rest ends
    rw [print, String.toList_append, List.append_assoc]
    refine spells_append (spells_marks nullable _) (spells_token (t := .word _) ?_)
    exact ⟨(keyword_letters b).1, (keyword_letters b).2, fun c first => (ends c first).1⟩
  | instanceOf nullable name =>
    have proper := segments name (List.mem_singleton_self name)
    have parsed := Grammar.className nullable (Name.isQualified_of_segments proper)
    rw [String.ofList_toList] at parsed
    refine ⟨_, parsed, ?_⟩
    intro rest ends
    rw [print, String.toList_append, String.toList_append, List.append_assoc]
    refine spells_append (spells_marks nullable _) (spells_token (t := .className _) ?_)
    refine ⟨?_, isClassChar_of_segments proper, fun c first => (ends c first).2⟩
    intro empty
    rw [empty] at proper
    cases proper
  | array nullable nonEmpty key elem ih =>
    obtain ⟨ts, parsed, spelled⟩ := ih segments
    have ends (rest : List Char) : Ends ('>' :: rest) := ends_cons (by decide) rest
    have inside (rest : List Char) :
        Spells (ts ++ [.closing]) (elem.print.toList ++ ('>' :: rest)) rest :=
      spells_append (spelled _ (ends rest)) (spells_token (t := .closing) trivial)
    have text (rest : List Char) : (array nullable nonEmpty key elem).print.toList ++ rest =
        (markText nullable).toList ++ ((Registry.arrayHead nonEmpty key).toList ++
          (elem.print.toList ++ ('>' :: rest))) := by
      simp [print]
    cases written : key.keyword? with
    | none =>
      have mixed : (if key = .empty then .mixed else key) = ArrayKey.mixed := by
        cases key with
        | empty | mixed => rfl
        | int | string => cases written
      rw [mixEmptyKeys, mixed]
      refine ⟨_, Grammar.array nullable nonEmpty parsed, ?_⟩
      intro rest _
      have head := spells_arrayHead nullable nonEmpty key (elem.print.toList ++ ('>' :: rest))
      rw [written] at head
      rw [text]
      simpa using spells_append head (inside rest)
    | some word =>
      have kept : (if key = .empty then .mixed else key) = key := by
        cases key with
        | empty => cases written
        | _ => rfl
      rw [mixEmptyKeys, kept]
      refine ⟨_, Grammar.keyedArray nullable nonEmpty written parsed, ?_⟩
      intro rest _
      have head := spells_arrayHead nullable nonEmpty key (elem.print.toList ++ ('>' :: rest))
      rw [written] at head
      have spaced := spells_blank (c := ' ') (by decide) (by simp) (inside rest)
      rw [text]
      simpa using spells_append head spaced

theorem print_derives {a : WrittenType}
    (segments : ∀ name ∈ a.names, Name.segmentsFrom true name.toList = true) :
    Derives a.print.toList a.mixEmptyKeys := by
  obtain ⟨ts, parsed, spelled⟩ := print_spells segments
  have whole := spelled [] (by intro c first; cases first)
  rw [List.append_nil] at whole
  exact ⟨ts, [], parsed, whole, List.forall_mem_nil _⟩

end TypeLattice.TypeTerm
