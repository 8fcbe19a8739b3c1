import Mathlib.Data.Finset.Card
import Mathlib.Data.Finset.Dedup
import TypeLattice.Proofs.Table

/-!
The keys of a table. In a filed table there are as many of them as there are places, and a request
adds its own key and no other.
-/
namespace TypeLattice.Table
variable {κ α : Type} [BEq κ] [Hashable κ] [DecidableEq κ] {keyOf : α → κ} {t : Table κ α}

def keys (keyOf : α → κ) (t : Table κ α) : Finset κ := (t.values.toList.map keyOf).toFinset

theorem mem_keys {key : κ} :
    key ∈ t.keys keyOf ↔ ∃ n value, t.get? n = some value ∧ keyOf value = key := by
  rw [keys, List.mem_toFinset, List.mem_map]
  simp only [List.mem_iff_getElem?, Array.getElem?_toList, get?]
  constructor
  · rintro ⟨value, ⟨n, held⟩, keyed⟩
    exact ⟨n, value, held, keyed⟩
  · rintro ⟨n, value, held, keyed⟩
    exact ⟨value, ⟨n, held⟩, keyed⟩

theorem mem_keys_iff_find? (filed : Filed keyOf t) {key : κ} :
    key ∈ t.keys keyOf ↔ ∃ n, t.find? key = some n :=
  mem_keys.trans (exists_congr fun n => (filed key n).symm)

theorem card_keys (filed : Filed keyOf t) : (t.keys keyOf).card = t.size := by
  have distinct : (t.values.toList.map keyOf).Nodup := by
    apply List.nodup_iff_getElem?_ne_getElem?.mpr
    intro m n before inside same
    simp only [List.length_map, Array.length_toList] at inside
    obtain ⟨a, left⟩ := get?_of_lt_size (t := t) (Nat.lt_trans before inside)
    obtain ⟨b, right⟩ := get?_of_lt_size (t := t) inside
    have held : t.values[m]? = some a := left
    have held' : t.values[n]? = some b := right
    simp only [List.getElem?_map, Array.getElem?_toList, held, held'] at same
    have := filed_key_unique filed left right (Option.some.inj same)
    omega
  rw [keys, List.toFinset_card_of_nodup distinct, List.length_map, Array.length_toList]
  rfl

theorem keys_intern [LawfulBEq κ] [LawfulHashable κ] (filed : Filed keyOf t) {key : κ} {value : α}
    (own : keyOf value = key) :
    (t.intern key value).2.keys keyOf = insert key (t.keys keyOf) := by
  ext other
  rw [Finset.mem_insert, mem_keys, mem_keys]
  constructor
  · rintro ⟨n, held, found, rfl⟩
    rcases get?_intern_cases found with old | ⟨_, _, rfl⟩
    · exact Or.inr ⟨n, held, old, rfl⟩
    · exact Or.inl own
  · rintro (rfl | ⟨n, held, old, keyed⟩)
    · obtain ⟨held, found, keyed⟩ := intern_number_holds filed own
      exact ⟨_, held, found, keyed⟩
    · exact ⟨n, held, get?_intern old _ _, keyed⟩

end TypeLattice.Table
