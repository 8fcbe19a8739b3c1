import TypeLattice.Proofs.Names
import TypeLattice.Proofs.Table.Keys

/-!
Runs of a name table. A fresh table that is given one name after the other answers alike exactly
where the names agree but for the case of ASCII letters and one leading backslash. It gives back the
first spelling of a class at all later times, and it holds as many classes as it was asked for.
-/
namespace TypeLattice

/-- A name that was given to a table, and the class it was answered with. -/
structure NameRequest where
  name : String
  answer : NameId
  deriving DecidableEq, Repr

namespace Name

theorem toLower_lt {c : Char} (ascii : c.toNat < 128) : c.toLower.toNat < 128 := by
  rcases toLower_cases c with same | ⟨n, small, rfl⟩
  · rw [same]
    exact ascii
  · revert n
    decide

theorem toLower_of_beyond {c : Char} (beyond : 128 ≤ c.toNat) : c.toLower = c := by
  rcases toLower_cases c with same | ⟨n, small, rfl⟩
  · exact same
  · revert n
    decide

/-- Only ASCII letters change case, and they stay in ASCII. -/
theorem toLower_eq_iff {c d : Char} (beyond : 128 ≤ c.toNat) : d.toLower = c.toLower ↔ d = c := by
  rw [toLower_of_beyond beyond]
  constructor
  · intro same
    by_cases ascii : d.toNat < 128
    · have := toLower_lt ascii
      rw [same] at this
      omega
    · rw [← same, toLower_of_beyond (by omega)]
  · rintro rfl
    exact toLower_of_beyond beyond

/-- Names with the same key have the same characters beyond ASCII, at the same places. -/
theorem getElem?_of_key_eq {a b : List Char} (same : key a = key b) {i : Nat} {c : Char}
    (beyond : 128 ≤ c.toNat) (there : (dropLead a)[i]? = some c) : (dropLead b)[i]? = some c := by
  have folded : ((dropLead b)[i]?).map Char.toLower = some c.toLower := by
    have := congrArg (fun letters => letters[i]?) same
    simp only [key, List.getElem?_map, there, Option.map_some] at this
    exact this.symm
  obtain ⟨d, found, lower⟩ := Option.map_eq_some_iff.mp folded
  rw [found, (toLower_eq_iff beyond).mp lower]

end Name

namespace NameTable

/-- The key of a name, as a table files it. -/
def keyText (name : String) : String := String.ofList (Name.key name.toList)

theorem keyText_eq_iff {name other : String} :
    keyText name = keyText other ↔ Name.key name.toList = Name.key other.toList := by
  rw [keyText, keyText, String.ofList_inj]

def serve (t : NameTable) : List String → List NameRequest × NameTable
  | [] => ([], t)
  | name :: names =>
    let r := t.intern name
    let u := r.2.serve names
    (⟨name, r.1⟩ :: u.1, u.2)

theorem serve_names (t : NameTable) (names : List String) :
    (t.serve names).1.map NameRequest.name = names := by
  induction names generalizing t with
  | nil => rfl
  | cons name names ih => simp [serve, ih]

theorem serve_append (t : NameTable) (front back : List String) :
    t.serve (front ++ back) =
      ((t.serve front).1 ++ ((t.serve front).2.serve back).1, ((t.serve front).2.serve back).2) := by
  induction front generalizing t with
  | nil => rfl
  | cons name front ih => simp [serve, ih]

theorem serve_extends (t : NameTable) (names : List String) : Extends t (t.serve names).2 := by
  induction names generalizing t with
  | nil => exact extends_refl t
  | cons name names ih => exact extends_trans (extends_intern t name) (ih _)

theorem serve_filed {t : NameTable} (filed : Filed t) (names : List String) :
    Filed (t.serve names).2 := by
  induction names generalizing t with
  | nil => exact filed
  | cons name names ih => exact ih (intern_filed filed name)

/-- What a run answered is what the table says at its end. -/
theorem serve_answers {t : NameTable} (filed : Filed t) (names : List String) :
    ∀ q ∈ (t.serve names).1, (t.serve names).2.find? q.name = some q.answer := by
  induction names generalizing t with
  | nil => simp [serve]
  | cons name names ih =>
    have next := intern_filed filed name
    intro q member
    rcases List.mem_cons.mp member with rfl | later
    · exact find?_extends next (serve_filed next names) (serve_extends _ names)
        (find?_intern t name)
    · exact ih next q later

theorem find?_congr (t : NameTable) {name other : String}
    (same : Name.key name.toList = Name.key other.toList) : t.find? name = t.find? other := by
  simp [find?, same]

theorem serve_answer_iff {t : NameTable} (filed : Filed t) (names : List String)
    {q r : NameRequest} (asked : q ∈ (t.serve names).1) (asked' : r ∈ (t.serve names).1) :
    q.answer = r.answer ↔ Name.key q.name.toList = Name.key r.name.toList := by
  have left := serve_answers filed names q asked
  have right := serve_answers filed names r asked'
  constructor
  · intro same
    rw [same] at left
    exact key_eq_of_find? (serve_filed filed names) left right
  · intro same
    rw [find?_congr _ same, right] at left
    exact (Option.some.inj left).symm

/-! ### The classes of a table -/

def keys (t : NameTable) : Finset String := t.table.keys Name.folded

theorem card_keys {t : NameTable} (filed : Filed t) : t.keys.card = t.size := Table.card_keys filed

theorem mem_keys {t : NameTable} (filed : Filed t) {name : String} :
    keyText name ∈ t.keys ↔ ∃ id, t.find? name = some id := by
  rw [keys, Table.mem_keys_iff_find? filed]
  simp [find?, keyText]

theorem keys_serve {t : NameTable} (filed : Filed t) (names : List String) :
    (t.serve names).2.keys = t.keys ∪ (names.map keyText).toFinset := by
  induction names generalizing t with
  | nil => simp [serve]
  | cons name names ih =>
    have added : (t.intern name).2.keys = insert (keyText name) t.keys :=
      Table.keys_intern filed (folded_dropLead name.toList)
    rw [serve, ih (intern_filed filed name), added]
    simp

theorem keys_serve_empty (names : List String) :
    (empty.serve names).2.keys = (names.map keyText).toFinset := by
  rw [keys_serve empty_filed]
  exact Finset.empty_union _

theorem spelling?_intern_new {t : NameTable} {name : String} (absent : t.find? name = none) :
    (t.intern name).2.spelling? (t.intern name).1 =
      some (String.ofList (Name.dropLead name.toList)) := by
  have free : t.table.find? (String.ofList (Name.key name.toList)) = none := by
    simpa [find?] using absent
  simp [intern, spelling?, Table.intern_new free, Table.get?, Table.size]

/-- The first name of a class, and what was asked for before it. -/
theorem exists_first {names : List String} {name : String} (asked : name ∈ names) :
    ∃ first front back, names = front ++ first :: back ∧
      Name.key first.toList = Name.key name.toList ∧
      ∀ other ∈ front, Name.key other.toList ≠ Name.key name.toList := by
  cases found : names.find? (fun other => Name.key other.toList == Name.key name.toList) with
  | none => simpa using List.find?_eq_none.mp found name asked
  | some first =>
    obtain ⟨same, front, back, split, earlier⟩ := List.find?_eq_some_iff_append.mp found
    refine ⟨first, front, back, split, beq_iff_eq.mp same, ?_⟩
    intro other older
    simpa using earlier other older

/-- A class keeps the spelling of the first name that it was asked for by. -/
theorem spelling?_serve_empty {front back : List String} {first : String} {q : NameRequest}
    (asked : q ∈ (empty.serve (front ++ first :: back)).1)
    (same : Name.key first.toList = Name.key q.name.toList)
    (earlier : ∀ other ∈ front, Name.key other.toList ≠ Name.key q.name.toList) :
    (empty.serve (front ++ first :: back)).2.spelling? q.answer =
      some (String.ofList (Name.dropLead first.toList)) := by
  have filed := serve_filed empty_filed front
  -- before its first name the class was not in the table
  have absent : (empty.serve front).2.find? first = none := by
    rw [Option.eq_none_iff_forall_ne_some]
    intro id held
    have member := (mem_keys filed).mpr ⟨id, held⟩
    rw [keys_serve_empty, List.mem_toFinset, List.mem_map] at member
    obtain ⟨other, older, agrees⟩ := member
    exact earlier other older ((keyText_eq_iff.mp agrees).trans same)
  have spelled := spelling?_intern_new absent
  have grown := serve_extends ((empty.serve front).2.intern first).2 back
  have answered := serve_answers empty_filed (front ++ first :: back) q asked
  rw [serve_append, serve] at answered ⊢
  have own := find?_extends (intern_filed filed first)
    (serve_filed (intern_filed filed first) back) grown (find?_intern _ first)
  rw [find?_congr _ same, answered] at own
  rw [Option.some.inj own]
  exact grown _ _ spelled

/-- What a run of a table that was fresh at first says of the names it was given. -/
structure KnownByKey (names : List String) (run : List NameRequest × NameTable) : Prop where
  asked : run.1.map NameRequest.name = names
  classes : ∀ q ∈ run.1, ∀ r ∈ run.1,
    q.answer = r.answer ↔ Name.key q.name.toList = Name.key r.name.toList
  beyondAscii : ∀ q ∈ run.1, ∀ r ∈ run.1, q.answer = r.answer →
    ∀ (i : Nat) (c : Char), 128 ≤ c.toNat →
      (Name.dropLead q.name.toList)[i]? = some c → (Name.dropLead r.name.toList)[i]? = some c
  spellings : ∀ q ∈ run.1, ∃ first front back, names = front ++ first :: back ∧
    Name.key first.toList = Name.key q.name.toList ∧
    (∀ other ∈ front, Name.key other.toList ≠ Name.key q.name.toList) ∧
    ∀ later, (run.2.serve later).2.spelling? q.answer =
      some (String.ofList (Name.dropLead first.toList))
  size : run.2.size = (names.map fun name => Name.key name.toList).toFinset.card
  again : ∀ q ∈ run.1, ∀ name, Name.key name.toList = Name.key q.name.toList →
    run.2.intern name = (q.answer, run.2)

/-- Names are told apart by their keys alone, in every run of a fresh table and at every moment of
it. -/
theorem names_are_known_by_key (names : List String) : KnownByKey names (empty.serve names) := by
  constructor
  case asked => exact serve_names empty names
  case classes =>
    intro q asked r asked'
    exact serve_answer_iff empty_filed names asked asked'
  case beyondAscii =>
    intro q asked r asked' same i c beyond there
    have keys := (serve_answer_iff empty_filed names asked asked').mp same
    exact Name.getElem?_of_key_eq keys beyond there
  case spellings =>
    intro q asked
    have known : q.name ∈ names := by
      rw [← serve_names empty names]
      exact List.mem_map_of_mem asked
    obtain ⟨first, front, back, rfl, same, earlier⟩ := exists_first known
    refine ⟨first, front, back, rfl, same, earlier, ?_⟩
    intro later
    exact serve_extends _ later _ _ (spelling?_serve_empty asked same earlier)
  case size =>
    have folded : (names.map keyText).toFinset =
        (names.map fun name => Name.key name.toList).toFinset.image String.ofList := by
      ext key
      simp [keyText]
    rw [← card_keys (serve_filed empty_filed names), keys_serve_empty, folded]
    exact Finset.card_image_of_injective _ fun _ _ => String.ofList_injective
  case again =>
    intro q asked name same
    have known := serve_answers empty_filed names q asked
    rw [← find?_congr _ same] at known
    exact intern_known known

end NameTable
end TypeLattice
