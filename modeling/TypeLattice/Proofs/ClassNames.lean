import TypeLattice.Proofs.Grammar.Reading
import TypeLattice.Proofs.Reachable
import TypeLattice.Proofs.Registry.Parts

/-!
Class names that are written out in full, with a leading backslash. Such a name can be parsed as an
annotation and it can be declared as a class. The reader takes the backslash away and leaves the
rest to a check that itself tolerates one, so it accepts a name with two backslashes, which no class
may have. On all other texts the two agree.
-/
namespace TypeLattice

namespace Name

/-- A qualified name with two backslashes before it. -/
def TwiceLed (name : List Char) : Prop :=
  ∃ inner, name = '\\' :: '\\' :: inner ∧ segmentsFrom true inner = true

/-- The check tolerates one backslash, so it matters whether one was taken away before. -/
theorem isQualified_led_iff (name : List Char) :
    (isQualified name = true ↔ isQualified ('\\' :: name) = true) ↔ ¬TwiceLed ('\\' :: name) := by
  have start : isStart '\\' = false := by decide
  cases name with
  | nil => simp [isQualified, dropLead, TwiceLed]
  | cons c rest =>
    by_cases lead : c = '\\'
    · subst lead
      simp [isQualified, dropLead, TwiceLed, segmentsFrom, start]
    · simp [isQualified, dropLead, TwiceLed, lead]

end Name

namespace TypeTerm

theorem readInto_className {name : List Char} (letters : ∀ c ∈ name, isClassChar c = true) :
    (Name.isQualified name = true →
      readInto [] ('\\' :: name) = .ok (.instanceOf false (String.ofList name), [])) ∧
    (Name.isQualified name = false →
      ∃ f, readInto [] ('\\' :: name) = .error f ∧ f.complete = none) := by
  have taken : name.takeWhile isClassChar = name := List.takeWhile_eq_self_iff.mpr letters
  have left : name.dropWhile isClassChar = [] := List.dropWhile_eq_nil_iff.mpr letters
  have marked : takeMark ('\\' :: name) = (false, '\\' :: name) := by
    rw [takeMark, skipBlanks_cons (by decide)]
    rfl
  have stepped : step [] ('\\' :: name) = readClass [] false name := by
    simp only [step, marked]
  rw [readInto_eq, stepped, readClass, taken, left]
  constructor
  · intro proper
    have some : name.isEmpty = false := by
      cases name with
      | nil => cases proper
      | cons => rfl
    simp [some, proper, close, proceed]
  · intro improper
    by_cases empty : name.isEmpty = true
    · simp [empty, proceed]
    · simp [empty, improper, proceed]

end TypeTerm

namespace NameTable

theorem intern_congr (t : NameTable) {name other : String}
    (same : Name.dropLead name.toList = Name.dropLead other.toList) :
    t.intern name = t.intern other := by
  simp only [intern, Name.key, same]

end NameTable

namespace Registry

theorem internClass_congr (reg : Registry) {name other : String}
    (same : Name.dropLead name.toList = Name.dropLead other.toList) :
    reg.internClass name = reg.internClass other := by
  simp only [internClass, internName, NameTable.intern_congr reg.names same]

/-- A class that was interned is there for good. -/
theorem internClass_again {reg later : Registry} (closed : Closed reg) (closed' : Closed later)
    {name : String} (grown : Extends (reg.internClass name).2 later) :
    later.internClass name = ((reg.internClass name).1, later) :=
  add_again closed closed' (a := .instanceOf false name) grown

section Led
variable {text : String} {name : List Char} (led : text.toList = '\\' :: name)
include led

theorem classOf_led (reg : Registry) :
    reg.classOf text = if Name.isQualified ('\\' :: name) then
      (.ok (reg.internClass text).1, (reg.internClass text).2)
    else (.error (.invalidClassName text), reg) := by
  rw [classOf, led]

variable (letters : ∀ c ∈ name, TypeTerm.isClassChar c = true)
include letters

theorem parse_led (reg : Registry) (proper : Name.isQualified name = true) :
    reg.parse text = (.ok (reg.internClass (String.ofList name)).1,
      (reg.internClass (String.ofList name)).2) := by
  have readable : TypeTerm.read text.toList = .ok (.instanceOf false (String.ofList name)) := by
    rw [led, TypeTerm.read, (TypeTerm.readInto_className letters).1 proper]
    rfl
  rw [parse, readable]
  rfl

theorem parse_led_improper (reg : Registry) (improper : Name.isQualified name = false) :
    ∃ e, reg.parse text = (.error e, reg) := by
  obtain ⟨f, failed, nothing⟩ := (TypeTerm.readInto_className letters).2 improper
  have unreadable : TypeTerm.read text.toList = .error f := by
    rw [led, TypeTerm.read, failed]
    rfl
  simp only [parse, unreadable, nothing]
  exact ⟨_, rfl⟩

/-- A name that may be declared is parsed as the class that it declares. -/
theorem parse_eq_classOf (reg : Registry) (proper : Name.isQualified ('\\' :: name) = true) :
    reg.parse text = (.ok (reg.internClass text).1, (reg.internClass text).2) := by
  have segments : Name.segmentsFrom true name = true := proper
  have same : reg.internClass (String.ofList name) = reg.internClass text := by
    apply internClass_congr
    rw [String.toList_ofList, Name.dropLead_of_segments segments, led]
    rfl
  rw [parse_led led letters reg (Name.isQualified_of_segments segments), same]

theorem parse_ok_iff (reg : Registry) :
    (∃ id, (reg.parse text).1 = .ok id) ↔ Name.isQualified name = true := by
  cases proper : Name.isQualified name with
  | true => simp [parse_led led letters reg proper]
  | false =>
    obtain ⟨e, failed⟩ := parse_led_improper led letters reg proper
    simp [failed]

omit letters in
theorem classOf_ok_iff (reg : Registry) :
    (∃ id, (reg.classOf text).1 = .ok id) ↔ Name.isQualified ('\\' :: name) = true := by
  rw [classOf_led led]
  cases Name.isQualified ('\\' :: name) <;> simp

end Led

/-- A name that is written out in full is parsed if it can be declared, and not otherwise unless it
has two backslashes before it. Parsing and declaring give the same class, at all times, and leave
nothing behind when they fail. -/
theorem parse_agrees_with_classOf {reg : Registry} (reached : Reachable reg) {text : String}
    (led : text.toList.head? = some '\\')
    (letters : ∀ c ∈ text.toList, TypeTerm.isClassChar c = true) :
    (((∃ id, (reg.parse text).1 = .ok id) ↔ ∃ id, (reg.classOf text).1 = .ok id) ↔
      ¬Name.TwiceLed text.toList) ∧
    (∀ id id', (reg.parse text).1 = .ok id → (reg.classOf text).1 = .ok id' →
      id = id' ∧ (reg.parse text).2 = (reg.classOf text).2 ∧
      ∀ later, Reachable later → Extends (reg.parse text).2 later →
        later.parse text = (.ok id, later) ∧ later.classOf text = (.ok id, later)) ∧
    (∀ e, (reg.parse text).1 = .error e → (reg.parse text).2 = reg) ∧
    ∀ e, (reg.classOf text).1 = .error e → (reg.classOf text).2 = reg := by
  obtain ⟨name, led⟩ : ∃ name, text.toList = '\\' :: name := List.head?_eq_some_iff.mp led
  have letters : ∀ c ∈ name, TypeTerm.isClassChar c = true := by
    intro c member
    exact letters c (led ▸ List.mem_cons_of_mem _ member)
  refine ⟨?_, ?_, ?_, ?_⟩
  · rw [parse_ok_iff led letters, classOf_ok_iff led, led]
    exact Name.isQualified_led_iff name
  · intro id id' parsed declared
    have proper := (classOf_ok_iff led reg).mp ⟨id', declared⟩
    have both (reg : Registry) := parse_eq_classOf led letters reg proper
    have declares (reg : Registry) := classOf_led led reg
    simp only [proper, ↓reduceIte] at declares
    rw [both] at parsed ⊢
    rw [declares] at declared ⊢
    cases parsed
    cases declared
    refine ⟨rfl, rfl, ?_⟩
    intro later reached' grown
    have again := internClass_again (reachable_closed reached) (reachable_closed reached') grown
    rw [both, declares, again]
    exact ⟨rfl, rfl⟩
  · intro e failed
    cases proper : Name.isQualified name with
    | true =>
      rw [parse_led led letters reg proper] at failed
      cases failed
    | false =>
      obtain ⟨_, unchanged⟩ := parse_led_improper led letters reg proper
      rw [unchanged]
  · intro e failed
    rw [classOf_led led] at failed ⊢
    split at failed
    · cases failed
    · rename_i improper
      rw [if_neg improper]

theorem led_name_is_one_class :
    ∃ id, (empty.parse "\\App\\User").1 = .ok id ∧ (empty.classOf "\\App\\User").1 = .ok id := by
  have led : "\\App\\User".toList.head? = some '\\' := by decide
  have letters : ∀ c ∈ "\\App\\User".toList, TypeTerm.isClassChar c = true :=
    List.all_eq_true.mp (by decide)
  have once : ¬Name.TwiceLed "\\App\\User".toList := by
    rintro ⟨inner, same, _⟩
    cases same
  obtain ⟨agree, alike, _⟩ := parse_agrees_with_classOf .fresh led letters
  have declared : ∃ id, (empty.classOf "\\App\\User").1 = .ok id := by
    rw [classOf, if_pos (by decide)]
    exact ⟨_, rfl⟩
  obtain ⟨id, parsed⟩ := (agree.mpr once).mpr declared
  obtain ⟨id', declared⟩ := declared
  obtain ⟨rfl, _⟩ := alike id id' parsed declared
  exact ⟨id, parsed, declared⟩

/-- Two backslashes are read and cannot be declared. -/
theorem twice_led_name_is_only_parsed :
    (∃ id, (empty.parse "\\\\Foo").1 = .ok id) ∧
      ¬∃ id, (empty.classOf "\\\\Foo").1 = .ok id := by
  have led : "\\\\Foo".toList = '\\' :: "\\Foo".toList := by decide
  have letters : ∀ c ∈ "\\Foo".toList, TypeTerm.isClassChar c = true :=
    List.all_eq_true.mp (by decide)
  rw [parse_ok_iff led letters, classOf_ok_iff led]
  decide

end Registry
end TypeLattice
