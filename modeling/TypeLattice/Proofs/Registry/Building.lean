import Mathlib.Logic.Function.Iterate
import TypeLattice.Proofs.Pool.Terms
import TypeLattice.Proofs.Reachable
import TypeLattice.TypeExpr

/-!
Types that are built step by step: arrays around a type, and classes side by side. The tree of what
was built is known, and the registry stays closed and reachable.
-/
namespace TypeLattice

namespace TypeTerm
variable {ν : Type}

/-- A term with `times` arrays around it. -/
def wrapped (nonEmpty : Bool) (key : ArrayKey) (times : Nat) (a : TypeTerm ν) : TypeTerm ν :=
  (array false nonEmpty key)^[times] a

theorem wrapped_succ (nonEmpty : Bool) (key : ArrayKey) (times : Nat) (a : TypeTerm ν) :
    a.wrapped nonEmpty key (times + 1) = array false nonEmpty key (a.wrapped nonEmpty key times) :=
  Function.iterate_succ_apply' _ times a

theorem length_keys_wrapped (nonEmpty : Bool) (key : ArrayKey) (times : Nat) (a : TypeTerm ν) :
    (a.wrapped nonEmpty key times).keys.length = times + a.keys.length := by
  induction times with
  | zero => simp [wrapped]
  | succ times ih => rw [wrapped_succ, keys, List.length_cons, ih]; omega

/-- A term knows how many arrays were put around it. -/
theorem wrapped_injective {nonEmpty : Bool} {key : ArrayKey} {n m : Nat} {a : TypeTerm ν}
    (same : a.wrapped nonEmpty key n = a.wrapped nonEmpty key m) : n = m := by
  have depth := congrArg (fun b => b.keys.length) same
  simp only [length_keys_wrapped] at depth
  omega

end TypeTerm

namespace Registry
open TypeExpr (wrapTimes)

/-- Interning a kind whose parts are there is a run of the registry. -/
theorem intern_stored {reg : Registry} (reached : Reachable reg) {kind : Kind NameId TypeId}
    (held : reg.Holds kind) (nullable : Bool) :
    ∃ next id, Reachable next ∧ Extends reg next ∧ next.pool.shape? id = some (.of kind nullable) := by
  have stored := Pool.shape?_intern_own (reachable_closed reached).canonical
    (Shape.canonical_of kind nullable)
  exact ⟨_, _, .step (.instanceOf kind nullable) reached held, extends_intern reg _, stored⟩

/-- Every tree over known names can be built, if no flag stands on a kind that settles null. -/
theorem exists_stored {reg : Registry} (reached : Reachable reg) {a : TypeTerm NameId}
    (settled : a.FlagsSettled)
    (known : ∀ name ∈ a.names, ∃ spelling, reg.names.spelling? name = some spelling) :
    ∃ next id, Reachable next ∧ Extends reg next ∧ next.pool.term? id = some a := by
  induction a with
  | basic nullable b =>
    have held : reg.Holds (.basic b) := trivial
    obtain ⟨next, id, whole, grown, stored⟩ := intern_stored reached held nullable
    have flag : Shape.of (.basic b) nullable = (⟨.basic b, nullable⟩ : TypeShape) := by
      cases nullable with
      | false => simp [Shape.of]
      | true => simp [Shape.of, Kind.inherentNull?, settled rfl]
    rw [flag] at stored
    exact ⟨next, id, whole, grown, Pool.term?_eq_basic.mpr stored⟩
  | instanceOf nullable name =>
    have held : reg.Holds (.instanceOf name) := known name (List.mem_singleton_self name)
    obtain ⟨next, id, whole, grown, stored⟩ := intern_stored reached held nullable
    exact ⟨next, id, whole, grown, Pool.term?_eq_instanceOf.mpr stored⟩
  | array nullable nonEmpty key elem ih =>
    obtain ⟨between, part, reached', first, inner⟩ := ih settled known
    have held : between.Holds (.array nonEmpty key part) := Pool.shape?_of_term? inner
    obtain ⟨next, id, whole, grown, stored⟩ := intern_stored reached' held nullable
    have older := (reachable_closed whole).older _ _ _ _ _ stored
    exact ⟨next, id, whole, extends_trans first grown,
      Pool.term?_eq_array.mpr ⟨part, stored, older, Pool.term?_extends grown.pool inner⟩⟩

/-- Any two trees over known names can be built side by side. -/
theorem exists_stored_both {reg : Registry} (reached : Reachable reg) {a b : TypeTerm NameId}
    (settled : a.FlagsSettled) (settled' : b.FlagsSettled)
    (known : ∀ name ∈ a.names, ∃ spelling, reg.names.spelling? name = some spelling)
    (known' : ∀ name ∈ b.names, ∃ spelling, reg.names.spelling? name = some spelling) :
    ∃ next id other, Reachable next ∧ Extends reg next ∧
      next.pool.term? id = some a ∧ next.pool.term? other = some b := by
  obtain ⟨between, id, reached', first, stored⟩ := exists_stored reached settled known
  have kept : ∀ name ∈ b.names, ∃ spelling, between.names.spelling? name = some spelling := by
    intro name member
    obtain ⟨spelling, spelled⟩ := known' name member
    exact ⟨spelling, first.names name spelling spelled⟩
  obtain ⟨next, other, whole, last, stored'⟩ := exists_stored reached' settled' kept
  exact ⟨next, id, other, whole, extends_trans first last,
    Pool.term?_extends last.pool stored, stored'⟩

/-- Wrapping a type is a run of the registry and stores the wrapped tree. -/
theorem wrapTimes_stored {reg : Registry} (reached : Reachable reg) {id : TypeId}
    {a : TypeTerm NameId} (stored : reg.pool.term? id = some a) (nonEmpty : Bool) (key : ArrayKey)
    (times : Nat) :
    let r := wrapTimes nonEmpty key times (id, reg)
    Reachable r.2 ∧ Extends reg r.2 ∧ r.2.pool.term? r.1 = some (a.wrapped nonEmpty key times) := by
  induction times generalizing reg id a with
  | zero => exact ⟨reached, extends_refl reg, stored⟩
  | succ times ih =>
    have array := Reachable.step (.array nonEmpty key id) reached (Pool.shape?_of_term? stored)
    have first := extends_intern reg (.of (.array nonEmpty key id) false)
    have listed := term?_intern_array (reachable_closed reached) stored nonEmpty key
    obtain ⟨whole, grown, built⟩ := ih array listed
    exact ⟨whole, extends_trans first grown, built⟩

/-- Two types that are wrapped one after the other. -/
theorem wrapTimes_both {reg : Registry} (reached : Reachable reg) {id id' : TypeId}
    {a b : TypeTerm NameId} (left : reg.pool.term? id = some a)
    (right : reg.pool.term? id' = some b) (nonEmpty nonEmpty' : Bool) (key key' : ArrayKey)
    (times times' : Nat) :
    let r := wrapTimes nonEmpty key times (id, reg)
    let r' := wrapTimes nonEmpty' key' times' (id', r.2)
    Reachable r'.2 ∧ Extends reg r'.2 ∧
      r'.2.pool.term? r.1 = some (a.wrapped nonEmpty key times) ∧
      r'.2.pool.term? r'.1 = some (b.wrapped nonEmpty' key' times') := by
  intro r r'
  obtain ⟨between, grown, built⟩ := wrapTimes_stored reached left nonEmpty key times
  have kept := Pool.term?_extends grown.pool right
  obtain ⟨whole, grown', built'⟩ := wrapTimes_stored between kept nonEmpty' key' times'
  exact ⟨whole, extends_trans grown grown', Pool.term?_extends grown'.pool built, built'⟩

/-- Names that differ in more than case and the lead make two classes. -/
theorem internClass_apart {reg : Registry} (reached : Reachable reg) (first second : String)
    (proper : Name.isQualified first.toList = true)
    (proper' : Name.isQualified second.toList = true)
    (apart : Name.key first.toList ≠ Name.key second.toList) :
    let r := reg.internClass first
    let r' := r.2.internClass second
    Reachable r'.2 ∧ ∃ name name', name ≠ name' ∧
      r'.2.pool.term? r.1 = some (.instanceOf false name) ∧
      r'.2.pool.term? r'.1 = some (.instanceOf false name') := by
  intro r r'
  have between : Reachable r.2 := reachable_internClass reached proper
  have reached' : Reachable r'.2 := reachable_internClass between proper'
  have grown : Extends r.2 r'.2 :=
    extends_trans (extends_internName r.2 second) (extends_intern _ _)
  have older := term?_internClass (reachable_closed reached) first
  refine ⟨reached', _, _, ?_, Pool.term?_extends grown.pool older,
    term?_internClass (reachable_closed between) second⟩
  intro same
  have found := NameTable.find?_extends (reachable_closed between).names
    (reachable_closed reached').names grown.names (NameTable.find?_intern reg.names first)
  have found' := NameTable.find?_intern r.2.names second
  rw [show (reg.names.intern first).1 = (r.2.names.intern second).1 from same] at found
  exact apart (NameTable.key_eq_of_find? (reachable_closed reached').names found found')

end Registry
end TypeLattice
