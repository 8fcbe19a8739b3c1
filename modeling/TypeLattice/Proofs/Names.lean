import TypeLattice.Proofs.Table
import TypeLattice.Name.Table

/-!
Class names and their table. Folding the case of ASCII letters changes neither which characters
may stand in a name nor which names are qualified, so a class that one of its spellings shows to be
qualified has a qualified first spelling, whoever wrote it.
-/
namespace TypeLattice

namespace Name

/-- A spelling without regard to the case of ASCII letters. -/
def folded (spelling : String) : String := String.ofList (spelling.toList.map Char.toLower)

theorem toLower_cases (c : Char) : c.toLower = c ∨ ∃ n, n < 26 ∧ c = Char.ofNat (65 + n) := by
  by_cases capital : c.val ≥ 'A'.val ∧ c.val ≤ 'Z'.val
  · have low : 65 ≤ c.toNat := capital.1
    have high : c.toNat ≤ 90 := capital.2
    refine Or.inr ⟨c.toNat - 65, by omega, ?_⟩
    rw [Nat.add_sub_cancel' low, Char.ofNat_toNat]
  · left
    exact dif_neg capital

@[simp] theorem isStart_toLower (c : Char) : isStart c.toLower = isStart c := by
  rcases toLower_cases c with same | ⟨n, small, rfl⟩
  · rw [same]
  · revert n; decide

@[simp] theorem isPart_toLower (c : Char) : isPart c.toLower = isPart c := by
  rcases toLower_cases c with same | ⟨n, small, rfl⟩
  · rw [same]
  · revert n; decide

@[simp] theorem toLower_beq_backslash (c : Char) : (c.toLower == '\\') = (c == '\\') := by
  rcases toLower_cases c with same | ⟨n, small, rfl⟩
  · rw [same]
  · revert n; decide

theorem segmentsFrom_map_toLower (fresh : Bool) (name : List Char) :
    segmentsFrom fresh (name.map Char.toLower) = segmentsFrom fresh name := by
  induction name generalizing fresh with
  | nil => rfl
  | cons c rest ih =>
    simp only [List.map_cons, segmentsFrom, isStart_toLower, isPart_toLower,
      toLower_beq_backslash, ih]

/-- The check does not see more of a name than its key. -/
theorem isQualified_eq_key (name : List Char) : isQualified name = segmentsFrom true (key name) :=
  (segmentsFrom_map_toLower true (dropLead name)).symm

theorem isQualified_of_key_eq {name other : List Char} (same : key name = key other) :
    isQualified name = isQualified other := by
  rw [isQualified_eq_key, isQualified_eq_key, same]

theorem dropLead_of_segments {name : List Char} (segments : segmentsFrom true name = true) :
    dropLead name = name := by
  unfold dropLead
  split
  · rename_i rest
    have start : isStart '\\' = false := by decide
    simp [segmentsFrom, start] at segments
  · rfl

theorem isQualified_of_segments {name : List Char} (segments : segmentsFrom true name = true) :
    isQualified name = true := by
  rw [isQualified, dropLead_of_segments segments]
  exact segments

end Name

namespace NameTable

def Filed (t : NameTable) : Prop := Table.Filed Name.folded t.table

def Extends (t u : NameTable) : Prop :=
  ∀ id spelling, t.spelling? id = some spelling → u.spelling? id = some spelling

theorem extends_refl (t : NameTable) : Extends t t := fun _ _ known => known

theorem extends_trans {t u v : NameTable} (first : Extends t u) (second : Extends u v) :
    Extends t v := fun id spelling known => second id spelling (first id spelling known)

/-- A class that is known under a qualified name, whatever its first spelling was. -/
def Qualified (t : NameTable) (id : NameId) : Prop :=
  ∃ name : String, Name.isQualified name.toList = true ∧ t.find? name = some id

theorem empty_filed : Filed empty := Table.empty_filed _

theorem extends_intern (t : NameTable) (name : String) : Extends t (t.intern name).2 :=
  fun _ _ known => Table.get?_intern known _ _

theorem folded_dropLead (name : List Char) :
    Name.folded (String.ofList (Name.dropLead name)) = String.ofList (Name.key name) := by
  rw [Name.folded, Name.key, String.toList_ofList]

theorem intern_filed {t : NameTable} (filed : Filed t) (name : String) :
    Filed (t.intern name).2 :=
  Table.intern_filed filed (folded_dropLead name.toList)

theorem find?_intern (t : NameTable) (name : String) :
    (t.intern name).2.find? name = some (t.intern name).1 := by
  simp only [find?, intern, Table.find?_intern, Option.map_some]

theorem intern_known {t : NameTable} {name : String} {id : NameId}
    (found : t.find? name = some id) : t.intern name = (id, t) := by
  obtain ⟨n, number, rfl⟩ := Option.map_eq_some_iff.mp found
  rw [intern, Table.intern_known number]

/-- A name is found under the class whose spelling it agrees with, but for case and the lead. -/
theorem find?_eq_some_iff {t : NameTable} (filed : Filed t) {name : String} {id : NameId} :
    t.find? name = some id ↔ ∃ spelling, t.spelling? id = some spelling ∧
      Name.folded spelling = String.ofList (Name.key name.toList) := by
  refine Iff.trans ?_ (filed _ id.index)
  constructor
  · intro found
    obtain ⟨n, number, rfl⟩ := Option.map_eq_some_iff.mp found
    exact number
  · intro number
    exact Option.map_eq_some_iff.mpr ⟨id.index, number, rfl⟩

theorem find?_extends {t u : NameTable} (filed : Filed t) (filed' : Filed u) (grown : Extends t u)
    {name : String} {id : NameId} (found : t.find? name = some id) : u.find? name = some id := by
  obtain ⟨spelling, known, same⟩ := (find?_eq_some_iff filed).mp found
  exact (find?_eq_some_iff filed').mpr ⟨spelling, grown id spelling known, same⟩

/-- Names of one class agree but for case and the lead. -/
theorem key_eq_of_find? {t : NameTable} (filed : Filed t) {name other : String} {id : NameId}
    (found : t.find? name = some id) (found' : t.find? other = some id) :
    Name.key name.toList = Name.key other.toList := by
  obtain ⟨spelling, known, same⟩ := (find?_eq_some_iff filed).mp found
  obtain ⟨spelling', known', same'⟩ := (find?_eq_some_iff filed).mp found'
  cases known.symm.trans known'
  exact String.ofList_injective (same.symm.trans same')

theorem spelling?_intern {t : NameTable} (filed : Filed t) (name : String) :
    ∃ spelling, (t.intern name).2.spelling? (t.intern name).1 = some spelling := by
  obtain ⟨spelling, known, _⟩ :=
    (find?_eq_some_iff (intern_filed filed name)).mp (find?_intern t name)
  exact ⟨spelling, known⟩

/-- The first spelling of a qualified class is a list of segments, and leads back to the class. -/
theorem qualified_spelling {t : NameTable} (filed : Filed t) {id : NameId}
    (qualified : t.Qualified id) :
    ∃ spelling, t.spelling? id = some spelling ∧
      Name.segmentsFrom true spelling.toList = true ∧ t.find? spelling = some id := by
  obtain ⟨name, proper, found⟩ := qualified
  obtain ⟨spelling, known, same⟩ := (find?_eq_some_iff filed).mp found
  have letters := String.ofList_injective same
  have segments : Name.segmentsFrom true spelling.toList = true := by
    rw [← Name.segmentsFrom_map_toLower, letters, ← Name.isQualified_eq_key]
    exact proper
  refine ⟨spelling, known, segments, (find?_eq_some_iff filed).mpr ⟨spelling, known, ?_⟩⟩
  rw [Name.key, Name.dropLead_of_segments segments, Name.folded]

end NameTable
end TypeLattice
