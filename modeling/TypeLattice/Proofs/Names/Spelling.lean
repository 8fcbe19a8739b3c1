import TypeLattice.Proofs.Names.Identity

/-!
Spellings that are given back. A table takes one backslash off a name, for its key and for its
spelling alike, and takes off another when the spelling comes back as a name. So a spelling leads
back to its class unless it still starts with a backslash, which it does exactly when the class was
asked for with two of them.
-/
namespace TypeLattice

namespace Name

/-- A name is its own key, but for case, unless it starts with a backslash. -/
theorem key_eq_map_iff {name : List Char} :
    key name = name.map Char.toLower ↔ name.head? ≠ some '\\' := by
  unfold key dropLead
  split
  · simp
  · rename_i unled
    have bare : name.head? ≠ some '\\' := by
      intro led
      obtain ⟨rest, split⟩ := List.head?_eq_some_iff.mp led
      exact unled rest split
    simp [bare]

theorem head?_map_toLower (name : List Char) :
    (name.map Char.toLower).head? = some '\\' ↔ name.head? = some '\\' := by
  cases name with
  | nil => simp
  | cons c rest =>
    have lower : c.toLower = '\\' ↔ c = '\\' := by
      rw [← beq_iff_eq, toLower_beq_backslash, beq_iff_eq]
    simp [lower]

theorem head?_key_iff (name : List Char) :
    (key name).head? = some '\\' ↔ ['\\', '\\'] <+: name := by
  rw [key, head?_map_toLower]
  unfold dropLead
  split
  · rename_i rest
    cases rest <;> simp [eq_comm]
  · rename_i unled
    constructor
    · intro led
      obtain ⟨rest, split⟩ := List.head?_eq_some_iff.mp led
      exact absurd split (unled rest)
    · rintro ⟨rest, split⟩
      exact absurd split.symm (unled _)

end Name

namespace NameTable

section Filed
variable {t : NameTable} (filed : Filed t) {id : NameId} {spelling : String}
  (known : t.spelling? id = some spelling)
include filed known

theorem find?_spelling_iff : t.find? spelling = some id ↔ spelling.toList.head? ≠ some '\\' := by
  rw [find?_eq_some_iff filed, ← Name.key_eq_map_iff]
  simp only [known, Option.some.injEq, exists_eq_left', Name.folded, String.ofList_inj]
  exact eq_comm

theorem intern_spelling (unled : spelling.toList.head? ≠ some '\\') :
    t.intern spelling = (id, t) :=
  intern_known ((find?_spelling_iff filed known).mpr unled)

theorem intern_led_spelling (led : spelling.toList.head? = some '\\') :
    (t.intern spelling).1 ≠ id := by
  intro same
  have grown := extends_intern t spelling id spelling known
  have found := find?_intern t spelling
  rw [same] at found
  exact (find?_spelling_iff (intern_filed filed spelling) grown).mp found led

/-- One backslash before a name is optional; a second one stays before all names of the class. -/
theorem led_spelling_iff {name : String} (found : t.find? name = some id) :
    spelling.toList.head? = some '\\' ↔ ['\\', '\\'] <+: name.toList := by
  obtain ⟨first, known', same⟩ := (find?_eq_some_iff filed).mp found
  cases known.symm.trans known'
  have letters : spelling.toList.map Char.toLower = Name.key name.toList :=
    String.ofList_injective same
  rw [← Name.head?_map_toLower, letters, Name.head?_key_iff]

end Filed

/-- The spelling that a class is given back with, at any time after it was asked for, starts with
no backslash and is a name of the class, which is known already. If the class was asked for with two
backslashes, the spelling starts with one and is a name of another class. -/
theorem spelling_leads_back_unless_twice_led (before : List String) (name : String)
    (later : List String) :
    let asked := (empty.serve before).2.intern name
    let t := (asked.2.serve later).2
    ∃ spelling, t.spelling? asked.1 = some spelling ∧
      (¬['\\', '\\'] <+: name.toList →
        spelling.toList.head? ≠ some '\\' ∧ t.intern spelling = (asked.1, t)) ∧
      (['\\', '\\'] <+: name.toList →
        spelling.toList.head? = some '\\' ∧ (t.intern spelling).1 ≠ asked.1) := by
  intro asked t
  have next : Filed asked.2 := intern_filed (serve_filed empty_filed before) name
  have filed : Filed t := serve_filed next later
  have found : t.find? name = some asked.1 :=
    find?_extends next filed (serve_extends asked.2 later) (find?_intern _ name)
  obtain ⟨spelling, known, _⟩ := (find?_eq_some_iff filed).mp found
  have led := led_spelling_iff filed known found
  refine ⟨spelling, known, ?_, ?_⟩
  · intro once
    have unled := mt led.mp once
    exact ⟨unled, intern_spelling filed known unled⟩
  · intro twice
    exact ⟨led.mpr twice, intern_led_spelling filed known (led.mpr twice)⟩

/-- Of two backslashes one stays, and the spelling is then a name of another class. -/
theorem second_backslash_is_kept :
    let asked := empty.intern "\\\\Foo"
    asked.2.spelling? asked.1 = some "\\Foo" ∧ (asked.2.intern "\\Foo").1 ≠ asked.1 ∧
      asked.2.size = 1 ∧ (asked.2.intern "\\Foo").2.size = 2 := by
  intro asked
  have absent : empty.find? "\\\\Foo" = none := by simp [find?, empty, Table.find?, Table.empty]
  have filed : Filed asked.2 := intern_filed empty_filed _
  have known : asked.2.spelling? asked.1 = some "\\Foo" := spelling?_intern_new absent
  refine ⟨known, intern_led_spelling filed known (by decide), ?_, ?_⟩
  · rw [← card_keys filed]
    change (empty.serve ["\\\\Foo"]).2.keys.card = 1
    rw [keys_serve_empty]
    decide
  · rw [← card_keys (intern_filed filed _)]
    change (empty.serve ["\\\\Foo", "\\Foo"]).2.keys.card = 2
    rw [keys_serve_empty]
    decide

end NameTable
end TypeLattice
