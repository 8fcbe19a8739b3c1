import Mathlib.Data.List.DropRight
import TypeLattice.Proofs.Grammar.Printing
import TypeLattice.Proofs.Grammar.Progress

/-!
What a failure of the reader tells about other texts. The text before the place of the failure goes
on to an annotation in some way, but in no way that starts with the character found there. For what
was read up to there is read in the same way whatever follows.
-/
namespace TypeLattice.TypeTerm

/-- Whether a token that ended before `rest` ends before `other` as well. -/
def Resumes (rest other : List Char) : Prop := other.head? = rest.head? ∨ Ends other

theorem resumes_append {rest other : List Char} (resumes : Resumes rest other)
    (text : List Char) : Resumes (text ++ rest) (text ++ other) := by
  cases text with
  | nil => exact resumes
  | cons c text => exact Or.inl rfl

theorem fits_resumes {t : Token} {rest other : List Char} (fits : t.Fits rest)
    (resumes : Resumes rest other) : t.Fits other := by
  cases t with
  | mark | opening | comma | closing => trivial
  | word chars =>
    refine ⟨fits.1, fits.2.1, ?_⟩
    intro c first
    rcases resumes with same | ends
    · exact fits.2.2 c (same ▸ first)
    · exact (ends c first).1
  | className name =>
    refine ⟨fits.1, fits.2.1, ?_⟩
    intro c first
    rcases resumes with same | ends
    · exact fits.2.2 c (same ▸ first)
    · exact (ends c first).2

theorem spells_resumes {ts : List Token} {text rest : List Char} (spelled : Spells ts text rest) :
    ∃ before, text = before ++ rest ∧
      ∀ other, Resumes rest other → Spells ts (before ++ other) other := by
  induction spelled with
  | nil rest => exact ⟨[], rfl, fun other _ => Spells.nil other⟩
  | @cons t ts blanks next rest blank fits _ ih =>
    obtain ⟨before, rfl, again⟩ := ih
    refine ⟨blanks ++ (t.text ++ before), by simp, ?_⟩
    intro other resumes
    have fits' := fits_resumes fits (resumes_append resumes before)
    simpa using Spells.cons blank fits' (again other resumes)

/-- An open array without the place where its first argument starts. -/
def OpenArray.unplaced (top : OpenArray) : OpenArray :=
  { top with slot := match top.slot with
    | .first _ => .first []
    | .element key => .element key }

theorem OpenArray.goesOn_unplaced (top : OpenArray) (c : Char) :
    top.unplaced.GoesOn c ↔ top.GoesOn c := by
  obtain ⟨nullable, nonEmpty, start | key⟩ := top
  · exact or_congr_right (and_congr_right fun _ => ⟨fun _ => ⟨start, rfl⟩, fun _ => ⟨[], rfl⟩⟩)
  · exact Iff.rfl

/-- The same arrays are open after the same beginning of another text. -/
theorem reached_resumes {text rest : List Char} {stack : List OpenArray}
    (reached : Reached text stack rest) :
    ∃ before, text = before ++ rest ∧ ∀ other, Resumes rest other →
      ∃ stack', stack'.map OpenArray.unplaced = stack.map OpenArray.unplaced ∧
        Reached (before ++ other) stack' other := by
  induction reached with
  | start => exact ⟨[], rfl, fun other _ => ⟨[], rfl, Reached.start⟩⟩
  | @first stack rest inner _ nullable nonEmpty opened ih =>
    obtain ⟨before, rfl, again⟩ := ih
    obtain ⟨middle, rfl, respelled⟩ := spells_resumes opened
    refine ⟨before ++ middle, by simp, ?_⟩
    intro other resumes
    obtain ⟨stack', same, reached⟩ := again _ (resumes_append resumes middle)
    rw [List.append_assoc]
    refine ⟨_, ?_, Reached.first reached (respelled other resumes)⟩
    simp only [List.map_cons, same, OpenArray.unplaced]
  | @element stack nullable nonEmpty start inner rest _ key word written keyed ih =>
    obtain ⟨before, rfl, again⟩ := ih
    obtain ⟨middle, rfl, respelled⟩ := spells_resumes keyed
    refine ⟨before ++ middle, by simp, ?_⟩
    intro other resumes
    obtain ⟨stack', same, reached⟩ := again _ (resumes_append resumes middle)
    obtain ⟨⟨nullable', nonEmpty', slot⟩, below, rfl, top, alike⟩ := List.map_eq_cons_iff.mp same
    cases slot with
    | element => cases top
    | first start' =>
      cases top
      rw [List.append_assoc]
      refine ⟨_, ?_, Reached.element reached written (respelled other resumes)⟩
      simp only [List.map_cons, alike, OpenArray.unplaced]

/-! ### Completing a text -/

theorem spells_closing (depth : Nat) :
    Spells (List.replicate depth .closing) (List.replicate depth '>') [] := by
  induction depth with
  | zero => exact Spells.nil []
  | succ depth ih => exact spells_append (spells_token (t := .closing) trivial) ih

/-- An argument and the brackets that are still missing make an annotation. -/
theorem derives_of_reached {text rest after tail : List Char} {stack : List OpenArray}
    (reached : Reached text stack rest) {a : WrittenType} (starts : Starts rest a after)
    (closing : Spells (List.replicate stack.length .closing) after tail)
    (ended : skipBlanks tail = []) : ∃ b, Derives text b := by
  induction stack generalizing rest after a with
  | nil =>
    cases reached
    cases closing
    exact ⟨a, derives_iff_starts.mpr ⟨_, starts, ended⟩⟩
  | cons top stack ih =>
    obtain ⟨next, bracket, more⟩ := spells_append_iff.mp
      (show Spells ([.closing] ++ List.replicate stack.length .closing) after tail from closing)
    cases reached with
    | first outer opened => exact ih outer (starts_array opened starts bracket) more
    | element outer written keyed =>
      cases outer with
      | first outer opened => exact ih outer (starts_keyedArray opened written keyed starts bracket) more

/-- Whether a text leads to the same open arrays, and to some tokens after them, however it goes on
from where it is left with `after`. -/
def Leads (before : List Char) (stack : List OpenArray) (ts : List Token) (after : List Char) :
    Prop :=
  ∀ other, Resumes after other → ∃ stack' rest,
    stack'.map OpenArray.unplaced = stack.map OpenArray.unplaced ∧
      Reached (before ++ other) stack' rest ∧ Spells ts rest other

theorem leads_of_reached {text rest after : List Char} {stack : List OpenArray}
    (reached : Reached text stack rest) {ts : List Token} (spelled : Spells ts rest after) :
    ∃ before, text = before ++ after ∧ Leads before stack ts after := by
  obtain ⟨before, rfl, again⟩ := reached_resumes reached
  obtain ⟨middle, rfl, respelled⟩ := spells_resumes spelled
  refine ⟨before ++ middle, by simp, ?_⟩
  intro other resumes
  obtain ⟨stack', same, reached'⟩ := again _ (resumes_append resumes middle)
  rw [List.append_assoc]
  exact ⟨stack', _, same, reached', respelled other resumes⟩

/-! ### Places of failures -/

/-- Whether some annotation starts with a text. -/
def Viable (text : List Char) : Prop := ∃ more a, Derives (text ++ more) a

/-- Whether no annotation starts with a text and a character after it. -/
def DeadEnd (text : List Char) (c : Char) : Prop := ∀ more a, ¬ Derives (text ++ c :: more) a

theorem readInto_of_derives {text : List Char} {a : WrittenType} (derived : Derives text a) :
    ∃ rest, readInto [] text = .ok (a, rest) ∧ skipBlanks rest = [] := by
  obtain ⟨rest, ⟨ts, parsed, spelled, ends⟩, ended⟩ := derives_iff_starts.mp derived
  exact ⟨rest, readInto_of_grammar parsed spelled ends [], ended⟩

theorem ends_closing (depth : Nat) : Ends (List.replicate depth '>') := by
  cases depth with
  | zero => nofun
  | succ depth => exact ends_cons (by decide) _

theorem close_failed {top : OpenArray} {rest tail : List Char} {c : Char}
    (found : skipBlanks rest = c :: tail) (stops : ¬ top.GoesOn c) (stack : List OpenArray)
    (a : WrittenType) : ∃ f, close (top :: stack) a rest = .failed f := by
  unfold close
  rw [found]
  split
  · rename_i start after slotted same
    cases same
    exact absurd (Or.inr ⟨rfl, start, slotted⟩) stops
  · rename_i same
    cases same
    exact absurd (Or.inl rfl) stops
  · rename_i same
    cases same
    exact absurd (Or.inl rfl) stops
  · exact ⟨_, rfl⟩
  · exact ⟨_, rfl⟩

section Leads
variable {before after other : List Char} {stack : List OpenArray} {ts : List Token}
  (leads : Leads before stack ts after) (resumes : Resumes after other)
include leads resumes

theorem derives_of_leads {left tail : List Char}
    (closing : Spells (List.replicate stack.length .closing) left tail) (ended : skipBlanks tail = [])
    (completes : ∀ rest, Spells ts rest other → ∃ a, Starts rest a left) :
    ∃ b, Derives (before ++ other) b := by
  obtain ⟨stack', rest, same, reached, spelled⟩ := leads other resumes
  have depth : stack'.length = stack.length := by simpa using congrArg List.length same
  obtain ⟨a, starts⟩ := completes rest spelled
  exact derives_of_reached reached starts (depth ▸ closing) ended

theorem not_derives_of_leads
    (fails : ∀ stack' rest, stack'.map OpenArray.unplaced = stack.map OpenArray.unplaced →
      Spells ts rest other → ∀ r, readInto stack' rest = .ok r → skipBlanks r.2 ≠ [])
    (a : WrittenType) : ¬ Derives (before ++ other) a := by
  obtain ⟨stack', rest, same, reached, spelled⟩ := leads other resumes
  intro derived
  obtain ⟨left, readable, ended⟩ := readInto_of_derives derived
  rw [readInto_of_reached reached] at readable
  exact fails stack' rest same spelled _ readable ended

end Leads

/-- What is left after white space does not start with any. -/
theorem solid_of_skipBlanks {text tail : List Char} {c : Char}
    (found : skipBlanks text = c :: tail) : Text.isBlank c = false :=
  stops_dropWhile Text.isBlank text c (congrArg List.head? found)

section Places
variable {before blanks place tail : List Char} {c : Char}
  (blank : ∀ d ∈ blanks, Text.isBlank d = true) {stack : List OpenArray}
include blank

theorem skipBlanks_to (solid : Text.isBlank c = false) (text : List Char) :
    skipBlanks (blanks ++ c :: text) = c :: text := by
  rw [skipBlanks_append blank, skipBlanks_cons solid]

section Marked
variable {nullable : Bool}

/-- Where a type is missing, `int` would do. -/
theorem viable_before_type (leads : Leads before stack (marks nullable) (blanks ++ place)) :
    Viable (before ++ blanks) := by
  let left := List.replicate stack.length '>'
  let more := ' ' :: ("int".toList ++ left)
  have resumes : Resumes place more := Or.inr (ends_cons (by decide) _)
  have closing := spells_closing stack.length
  refine ⟨more, ?_⟩
  rw [List.append_assoc]
  apply derives_of_leads leads (resumes_append resumes blanks) closing rfl
  intro rest marked
  have word : Spells [.word "int".toList] (blanks ++ more) left := by
    refine spells_singleton_iff.mpr ⟨blanks ++ [' '], ?_, ?_, by simp [Token.text, more]⟩
    · intro d member
      rcases List.mem_append.mp member with inside | last
      · exact blank d inside
      · rw [List.mem_singleton.mp last]
        decide
    · exact ⟨by decide, List.all_eq_true.mp (by decide), fun d first => (ends_closing _ d first).1⟩
  refine ⟨_, _, Grammar.keyword nullable .int, spells_append marked word, mayEnd_of_last ?_ _ _⟩
  intro nonEmpty same
  exact keyword_ne_arrayKeyword .int nonEmpty (String.toList_inj.mp (Token.word.inj same))

theorem deadEnd_before_type (leads : Leads before stack (marks nullable) (blanks ++ c :: tail))
    (solid : Text.isBlank c = false) (noLead : c ≠ '\\') (noWord : isKeywordChar c = false)
    (noMark : nullable = false → c ≠ '?') : DeadEnd (before ++ blanks) c := by
  intro more
  have resumes : Resumes (c :: tail) (c :: more) := Or.inl rfl
  rw [List.append_assoc]
  apply not_derives_of_leads leads (resumes_append resumes blanks)
  intro stack' rest _ marked r readable
  have taken : takeMark rest = (nullable, c :: more) := by
    refine takeMark_eq_iff.mpr ⟨_, marked, skipBlanks_to blank solid more, ?_⟩
    intro unmarked same
    exact noMark unmarked (Option.some.inj same)
  rw [readInto_eq, step, taken] at readable
  split at readable
  · rename_i same
    cases same
    exact absurd rfl noLead
  · rename_i same
    cases same
    rw [noWord] at readable
    cases readable
  · cases readable

/-- After a backslash, a letter and the brackets would do. -/
theorem viable_before_className
    (leads : Leads before stack (marks nullable) (blanks ++ '\\' :: tail)) :
    Viable (before ++ (blanks ++ ['\\'])) := by
  let left := List.replicate stack.length '>'
  let more := 'A' :: left
  have resumes : Resumes ('\\' :: tail) ('\\' :: more) := Or.inl rfl
  have closing := spells_closing stack.length
  refine ⟨more, ?_⟩
  rw [List.append_assoc, List.append_assoc]
  apply derives_of_leads leads (resumes_append resumes blanks) closing rfl
  intro rest marked
  have name : Spells [.className ['A']] (blanks ++ '\\' :: more) left := by
    refine spells_singleton_iff.mpr ⟨blanks, blank, ?_, by simp [Token.text, more]⟩
    exact ⟨by decide, List.all_eq_true.mp (by decide), fun d first => (ends_closing _ d first).2⟩
  have proper : Name.isQualified ['A'] = true := by decide
  refine ⟨_, _, Grammar.className nullable proper, spells_append marked name, ?_⟩
  apply mayEnd_of_last
  intro nonEmpty same
  cases same

theorem deadEnd_before_className
    (leads : Leads before stack (marks nullable) (blanks ++ '\\' :: tail))
    (stops : isClassChar c = false) : DeadEnd (before ++ (blanks ++ ['\\'])) c := by
  intro more
  have resumes : Resumes ('\\' :: tail) ('\\' :: c :: more) := Or.inl rfl
  rw [List.append_assoc, List.append_assoc]
  apply not_derives_of_leads leads (resumes_append resumes blanks)
  intro stack' rest _ marked r readable
  have taken : takeMark rest = (nullable, '\\' :: c :: more) :=
    takeMark_eq_iff.mpr ⟨_, marked, skipBlanks_to blank (by decide) _, nofun⟩
  rw [readInto_eq, step, taken] at readable
  simp only [readClass, List.takeWhile_cons, List.dropWhile_cons, stops] at readable
  cases readable

end Marked

theorem mayEnd_resumes {ts : List Token} (solid : Text.isBlank c = false)
    (ends : MayEnd ts (blanks ++ c :: tail)) (more : List Char) :
    MayEnd ts (blanks ++ c :: more) := by
  intro nonEmpty last inner opening
  have follows := ends nonEmpty last
  rw [skipBlanks_to blank solid] at opening
  cases opening
  exact follows tail (skipBlanks_to blank solid tail)

section Argument
variable {ts : List Token} {a : WrittenType} (parsed : Grammar ts a)
include parsed

/-- After an argument, the brackets would do. -/
theorem viable_before_close {top : OpenArray}
    (leads : Leads before (top :: stack) ts (blanks ++ place)) : Viable (before ++ blanks) := by
  let more := '>' :: List.replicate stack.length '>'
  have resumes : Resumes place more := Or.inr (ends_cons (by decide) _)
  have closing : Spells (List.replicate (top :: stack).length .closing) (blanks ++ more) [] :=
    Spells.cons blank trivial (spells_closing stack.length)
  refine ⟨more, ?_⟩
  rw [List.append_assoc]
  apply derives_of_leads leads (resumes_append resumes blanks) closing rfl
  intro rest spelled
  exact ⟨a, ts, parsed, spelled, fun _ _ => notOpening_closing closing⟩

/-- Nothing need follow a whole annotation. -/
theorem derives_before_leftover (leads : Leads before [] ts (blanks ++ place)) :
    ∃ b, Derives (before ++ blanks) b := by
  have ended := skipBlanks_of_blank blank
  have resumes : Resumes place [] := Or.inr nofun
  have again := resumes_append resumes blanks
  rw [List.append_nil] at again
  apply derives_of_leads leads again (Spells.nil blanks) ended
  intro rest spelled
  refine ⟨a, ts, parsed, spelled, ?_⟩
  intro _ _ inner opening
  rw [ended] at opening
  cases opening

variable (solid : Text.isBlank c = false)
include solid

theorem deadEnd_before_close {top : OpenArray}
    (leads : Leads before (top :: stack) ts (blanks ++ c :: tail))
    (ends : MayEnd ts (blanks ++ c :: tail)) (stops : ¬ top.GoesOn c) :
    DeadEnd (before ++ blanks) c := by
  intro more
  have resumes : Resumes (c :: tail) (c :: more) := Or.inl rfl
  rw [List.append_assoc]
  apply not_derives_of_leads leads (resumes_append resumes blanks)
  intro stack' rest same spelled r readable
  obtain ⟨top', below, rfl, alike, _⟩ := List.map_eq_cons_iff.mp same
  rw [readInto_of_grammar parsed spelled (mayEnd_resumes blank solid ends more)] at readable
  have stops' : ¬ top'.GoesOn c := by
    rw [← OpenArray.goesOn_unplaced, alike, OpenArray.goesOn_unplaced]
    exact stops
  obtain ⟨f, failed⟩ := close_failed (skipBlanks_to blank solid more) stops' below a
  rw [failed] at readable
  cases readable

/-- A text that an annotation leaves over is of no use after it. -/
theorem deadEnd_after_whole (leads : Leads before [] ts (blanks ++ c :: tail))
    (ends : MayEnd ts (blanks ++ c :: tail)) : DeadEnd (before ++ blanks) c := by
  intro more
  have resumes : Resumes (c :: tail) (c :: more) := Or.inl rfl
  rw [List.append_assoc]
  apply not_derives_of_leads leads (resumes_append resumes blanks)
  intro stack' rest same spelled r readable
  rw [List.map_eq_nil_iff.mp same, readInto_of_grammar parsed spelled
    (mayEnd_resumes blank solid ends more)] at readable
  cases readable
  rw [skipBlanks_to blank solid]
  exact List.cons_ne_nil c more

end Argument

end Places

/-! ### Keys -/

theorem takeMark_skipBlanks (text : List Char) : takeMark (skipBlanks text) = takeMark text := by
  have again : skipBlanks (skipBlanks text) = skipBlanks text :=
    List.dropWhile_idempotent ..
  rw [takeMark, again]
  rfl

theorem derives_skipBlanks {text : List Char} {a : WrittenType} (derived : Derives text a) :
    Derives (skipBlanks text) a := by
  rw [← read_eq_ok_iff, read] at derived ⊢
  rw [readInto_eq, step, takeMark_skipBlanks, ← step, ← readInto_eq]
  exact derived

theorem not_derives_nil (a : WrittenType) : ¬ Derives [] a := by
  intro derived
  obtain ⟨rest, readable, _⟩ := readInto_of_derives derived
  rw [readInto_eq] at readable
  cases readable

/-- The text of an argument, without the white space before it, is an annotation. -/
theorem derives_of_starts {text rest : List Char} {a : WrittenType} (starts : Starts text a rest) :
    ∃ written, skipBlanks text = written ++ rest ∧ Derives written a := by
  obtain ⟨ts, parsed, spelled, _⟩ := starts
  obtain ⟨written, rfl, again⟩ := spells_resumes spelled
  have whole := again [] (Or.inr nofun)
  rw [List.append_nil] at whole
  have derived : Derives (skipBlanks written) a :=
    derives_skipBlanks ⟨ts, [], parsed, whole, List.forall_mem_nil _⟩
  refine ⟨skipBlanks written, ?_, derived⟩
  have some : skipBlanks written ≠ [] := by
    intro none
    rw [none] at derived
    exact not_derives_nil a derived
  have filled : (written.dropWhile Text.isBlank).isEmpty = false := List.isEmpty_eq_false_iff.mpr some
  simp only [skipBlanks, List.dropWhile_append, filled, Bool.false_eq_true, ↓reduceIte]

/-! ### What a failure says -/

/-- What the reason of a failure says about the text before its place and from there on. -/
def Reason.Explains (before rest : List Char) : Reason → Prop
  | .missing _ => ∀ c ∈ rest.head?, DeadEnd before c
  | .unknownWord word => word ≠ "" ∧ word.toList <+: rest
  | .notAKey key =>
    key ≠ "" ∧ key.toList <+: rest ∧ ∃ a, Derives key.toList a ∧ a.toKey? = none
  | .trailing => (∃ a, Derives before a) ∧ rest ≠ [] ∧ ∀ c ∈ rest.head?, DeadEnd before c

theorem stuck_explained {text rest : List Char} {reason : Reason} (stuck : Stuck text reason rest) :
    ∃ before, text = before ++ rest ∧ Viable before ∧ reason.Explains before rest := by
  cases stuck with
  | type reached marked found stops =>
    obtain ⟨before, rfl, leads⟩ := leads_of_reached reached marked
    obtain ⟨blanks, blank, rfl⟩ := eq_append_of_skipBlanks found
    refine ⟨before ++ blanks, by simp, viable_before_type blank leads, ?_⟩
    intro c first
    obtain ⟨noLead, noWord, noMark⟩ := stops c first
    obtain ⟨tail, rfl⟩ := List.head?_eq_some_iff.mp first
    exact deadEnd_before_type blank leads (solid_of_skipBlanks found) noLead noWord noMark
  | className reached marked found stops =>
    obtain ⟨before, rfl, leads⟩ := leads_of_reached reached marked
    obtain ⟨blanks, blank, rfl⟩ := eq_append_of_skipBlanks found
    refine ⟨before ++ (blanks ++ ['\\']), by simp, viable_before_className blank leads, ?_⟩
    intro c first
    have other := stops c first
    obtain ⟨tail, rfl⟩ := List.head?_eq_some_iff.mp first
    exact deadEnd_before_className blank leads other
  | @word _ _ _ tail word reached _ marked some found =>
    obtain ⟨before, rfl, leads⟩ := leads_of_reached reached marked
    obtain ⟨blanks, blank, rfl⟩ := eq_append_of_skipBlanks found
    refine ⟨before ++ blanks, by simp, viable_before_type blank leads, ?_, ?_⟩
    · exact mt String.ofList_eq_empty_iff.mp some
    · rw [String.toList_ofList]
      exact List.prefix_append word tail
  | argument reached starts found stops expected =>
    obtain ⟨ts, parsed, spelled, ends⟩ := starts
    obtain ⟨before, rfl, leads⟩ := leads_of_reached reached spelled
    obtain ⟨blanks, blank, rfl⟩ := eq_append_of_skipBlanks found
    refine ⟨before ++ blanks, by simp, viable_before_close blank parsed leads, ?_⟩
    intro c first
    have other := stops c first
    obtain ⟨tail, rfl⟩ := List.head?_eq_some_iff.mp first
    exact deadEnd_before_close blank parsed (solid_of_skipBlanks found) leads ends other
  | @key _ stack inner after _ reached a starts found other =>
    obtain ⟨before, rfl, leads⟩ := leads_of_reached reached (Spells.nil inner)
    obtain ⟨written, shape, derived⟩ := derives_of_starts starts
    obtain ⟨blanks, blank, rfl⟩ := eq_append_of_skipBlanks found
    have unmarked : Leads before _ (marks false) _ := leads
    refine ⟨before ++ blanks, by simp, viable_before_type blank unmarked, ?_⟩
    have key : rest.take (rest.length - after.length) = written := by
      rw [← found, shape]
      simp
    rw [key, Reason.Explains, String.toList_ofList, ← found, shape]
    refine ⟨?_, List.prefix_append written after, a, derived, other⟩
    intro none
    rw [String.ofList_eq_empty_iff.mp none] at derived
    exact not_derives_nil a derived
  | leftover starts found some =>
    obtain ⟨ts, parsed, spelled, ends⟩ := starts
    obtain ⟨before, rfl, leads⟩ := leads_of_reached Reached.start spelled
    obtain ⟨blanks, blank, rfl⟩ := eq_append_of_skipBlanks found
    obtain ⟨b, whole⟩ := derives_before_leftover blank parsed leads
    have viable : Viable (before ++ blanks) := ⟨[], b, by rw [List.append_nil]; exact whole⟩
    refine ⟨before ++ blanks, by simp, viable, ⟨b, whole⟩, some, ?_⟩
    intro c first
    obtain ⟨tail, rfl⟩ := List.head?_eq_some_iff.mp first
    exact deadEnd_after_whole blank parsed (solid_of_skipBlanks found) leads ends

end TypeLattice.TypeTerm
