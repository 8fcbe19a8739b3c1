import TypeLattice.Table

/-!
Tables whose two halves agree. A value knows its own key, and the number filed under a key is the
place of the value with that key, so keys are distinct and no place is without a number.
-/
namespace TypeLattice.Table
variable {κ α : Type} [BEq κ] [Hashable κ]

def Filed (keyOf : α → κ) (t : Table κ α) : Prop :=
  ∀ key n, t.find? key = some n ↔ ∃ value, t.get? n = some value ∧ keyOf value = key

theorem get?_lt_size {t : Table κ α} {n : Nat} {value : α} (held : t.get? n = some value) :
    n < t.size := (Array.getElem?_eq_some_iff.mp held).1

theorem get?_of_lt_size {t : Table κ α} {n : Nat} (inside : n < t.size) :
    ∃ value, t.get? n = some value := ⟨t.values[n], Array.getElem?_eq_getElem inside⟩

theorem intern_known {t : Table κ α} {key : κ} {n : Nat} (found : t.find? key = some n)
    (value : α) : t.intern key value = (n, t) := by
  simp only [intern, found]

theorem intern_new {t : Table κ α} {key : κ} (absent : t.find? key = none) (value : α) :
    t.intern key value = (t.size, ⟨t.values.push value, t.numbers.insert key t.size⟩) := by
  simp only [intern, absent, size]

theorem get?_intern {t : Table κ α} {n : Nat} {old : α} (held : t.get? n = some old) (key : κ)
    (value : α) : (t.intern key value).2.get? n = some old := by
  cases found : t.find? key with
  | some m => rw [intern_known found]; exact held
  | none =>
    rw [intern_new found]
    have inside : n < t.values.size := get?_lt_size held
    simp only [get?, Array.getElem?_push]
    rw [if_neg (by omega)]
    exact held

/-- An interned table holds what it held before and, under the number it gives, the new value. -/
theorem get?_intern_cases {t : Table κ α} {key : κ} {value held : α} {n : Nat}
    (h : (t.intern key value).2.get? n = some held) :
    t.get? n = some held ∨ (t.find? key = none ∧ n = t.size ∧ held = value) := by
  cases found : t.find? key with
  | some m => rw [intern_known found] at h; exact Or.inl h
  | none =>
    rw [intern_new found] at h
    simp only [get?, Array.getElem?_push] at h
    split at h
    · rename_i last
      exact Or.inr ⟨rfl, last, (Option.some.inj h).symm⟩
    · exact Or.inl h

theorem filed_key_unique {keyOf : α → κ} {t : Table κ α} (filed : Filed keyOf t) {m n : Nat}
    {a b : α} (left : t.get? m = some a) (right : t.get? n = some b) (same : keyOf a = keyOf b) :
    m = n := by
  have first := (filed (keyOf b) m).mpr ⟨a, left, same⟩
  have second := (filed (keyOf b) n).mpr ⟨b, right, rfl⟩
  exact Option.some.inj (first.symm.trans second)

theorem empty_filed (keyOf : α → κ) [LawfulBEq κ] [LawfulHashable κ] :
    Filed keyOf (empty : Table κ α) := by
  intro key n
  simp [find?, get?, empty]

section Lawful
variable [LawfulBEq κ] [LawfulHashable κ] {keyOf : α → κ} {t : Table κ α}

theorem find?_intern (t : Table κ α) (key : κ) (value : α) :
    (t.intern key value).2.find? key = some (t.intern key value).1 := by
  cases found : t.find? key with
  | some m => rw [intern_known found]; exact found
  | none => rw [intern_new found]; exact Std.HashMap.getElem?_insert_self

theorem intern_filed (filed : Filed keyOf t) {key : κ} {value : α} (own : keyOf value = key) :
    Filed keyOf (t.intern key value).2 := by
  cases found : t.find? key with
  | some m => rw [intern_known found]; exact filed
  | none =>
    rw [intern_new found]
    intro other n
    simp only [find?, get?, Std.HashMap.getElem?_insert, Array.getElem?_push, size]
    by_cases same : key = other
    · subst same
      -- The new place is the only one with this key, since no older one has it.
      have older : ¬ ∃ old, t.get? n = some old ∧ keyOf old = key := by
        intro has
        rw [(filed key n).mpr has] at found
        cases found
      simp only [beq_self_eq_true, ↓reduceIte, Option.some.injEq]
      constructor
      · intro last
        exact ⟨value, by rw [if_pos last.symm], own⟩
      · rintro ⟨old, held, keyed⟩
        split at held
        · rename_i last; exact last.symm
        · exact absurd ⟨old, held, keyed⟩ older
    · simp only [beq_iff_eq, same, ↓reduceIte]
      apply (filed other n).trans
      constructor
      · rintro ⟨old, held, keyed⟩
        have inside : n < t.values.size := get?_lt_size held
        exact ⟨old, by rw [if_neg (by omega)]; exact held, keyed⟩
      · rintro ⟨old, held, keyed⟩
        split at held
        · cases held; exact absurd (own.symm.trans keyed) same
        · exact ⟨old, held, keyed⟩

theorem intern_number_holds (filed : Filed keyOf t) {key : κ} {value : α}
    (own : keyOf value = key) :
    ∃ held, (t.intern key value).2.get? (t.intern key value).1 = some held ∧ keyOf held = key :=
  (intern_filed filed own key _).mp (find?_intern t key value)

end Lawful

end TypeLattice.Table
