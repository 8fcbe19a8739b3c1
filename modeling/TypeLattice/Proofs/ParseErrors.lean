import TypeLattice.Proofs.Denotation
import TypeLattice.Proofs.Grammar.Failing

/-!
Errors of parsing point at the first problem. The text before the offset of an error can be completed
to a text that is parsed, and where the error names a character, not with that character. What the
error quotes stands at the offset.
-/
namespace TypeLattice

namespace TypeTerm

theorem byteLength_eq (text : List Char) : byteLength text = (String.ofList text).utf8ByteSize := by
  induction text with
  | nil => rfl
  | cons c text ih =>
    rw [byteLength, List.foldr_cons, ← byteLength, ih, String.ofList_cons, String.utf8ByteSize_append,
      String.utf8ByteSize_singleton]

/-- The offset of an error counts the bytes before what was left. -/
theorem offset_toError {f : Failure} {before : List Char} :
    (f.toError (before ++ f.rest)).offset = (String.ofList before).utf8ByteSize := by
  have offset : (f.toError (before ++ f.rest)).offset =
      byteLength (before ++ f.rest) - byteLength f.rest := by
    obtain ⟨reason, rest, complete⟩ := f
    cases reason with
    | missing => cases rest <;> rfl
    | unknownWord | notAKey | trailing => rfl
  rw [offset, byteLength_eq, byteLength_eq, String.ofList_append, String.utf8ByteSize_append]
  omega

end TypeTerm

open TypeTerm (Derives)

namespace Registry

/-- Whether a text is parsed. -/
def Accepts (reg : Registry) (text : String) : Prop := ∃ id next, reg.parse text = (.ok id, next)

/-- Whether no text is parsed that starts with `before` and `c`. -/
def RulesOut (reg : Registry) (before : String) (c : Char) : Prop :=
  ∀ more, ¬ reg.Accepts (before ++ (String.singleton c ++ more))

/-- What an error says about the text before its offset and from there on. -/
def Reports (reg : Registry) (before after : String) : ReadError → Prop
  | .endOfText _ _ => after = ""
  | .wrongChar found _ _ =>
    (∃ more, after = String.singleton found ++ more) ∧ reg.RulesOut before found
  | .unknownWord word _ => word ≠ "" ∧ ∃ more, after = word ++ more
  | .badKey key _ => key ≠ "" ∧ (∃ more, after = key ++ more) ∧
    ∃ id next, reg.parse key = (.ok id, next) ∧ id ≠ .basic .int ∧ id ≠ .basic .string
  | .leftover _ => reg.Accepts before ∧
    ∃ c more, after = String.singleton c ++ more ∧ reg.RulesOut before c

theorem accepts_iff {reg : Registry} {text : String} :
    reg.Accepts text ↔ ∃ a, Derives text.toList a := by
  constructor
  · rintro ⟨id, next, parsed⟩
    exact derives_of_parse parsed
  · rintro ⟨a, derived⟩
    exact ⟨_, _, parse_of_derives derived⟩

theorem rulesOut_of_deadEnd (reg : Registry) {before : List Char} {c : Char}
    (dead : TypeTerm.DeadEnd before c) : reg.RulesOut (String.ofList before) c := by
  intro more accepted
  obtain ⟨a, derived⟩ := accepts_iff.mp accepted
  apply dead more.toList a
  simpa using derived

theorem intern_eq_basic {reg : Registry} {s : TypeShape} {b : BasicKind}
    (same : (reg.intern s).1 = .basic b) : s.canonical = ⟨.basic b, false⟩ := by
  have answered : (reg.pool.intern s).1 = .basic b := same
  rw [Pool.intern] at answered
  cases fixed : s.canonical.fixed? with
  | none =>
    rw [fixed] at answered
    cases answered
  | some id =>
    rw [fixed] at answered
    cases answered
    rcases Shape.fixed?_eq_some_iff.mp fixed with ⟨c, kind, shape⟩ | ⟨other, _⟩
    · cases kind
      exact shape
    · cases other

theorem internMarked_eq_scalar {reg : Registry} {nullable : Bool} (kind : Kind NameId TypeId)
    {b : BasicKind} (scalar : b.isScalar = true)
    (same : (reg.internMarked nullable kind).1 = .basic b) :
    nullable = false ∧ kind = .basic b := by
  cases nullable with
  | false =>
    have shape := intern_eq_basic same
    rw [Shape.canonical_of] at shape
    exact ⟨rfl, congrArg Shape.kind shape⟩
  | true =>
    have shape := intern_eq_basic same
    cases kind with
    | basic c => cases c <;> cases shape <;> cases scalar
    | instanceOf | array => cases shape

/-- The types of the scalar kinds are written as their keyword only. -/
theorem add_eq_scalar {reg : Registry} {a : WrittenType} {b : BasicKind}
    (scalar : b.isScalar = true) (same : (reg.add a).1 = .basic b) : a = .basic false b := by
  cases a with
  | basic nullable c =>
    obtain ⟨rfl, kind⟩ := internMarked_eq_scalar (.basic c) scalar same
    cases kind
    rfl
  | instanceOf nullable name => cases (internMarked_eq_scalar _ scalar same).2
  | array nullable nonEmpty key elem =>
    rw [add_array] at same
    cases (internMarked_eq_scalar _ scalar same).2

theorem reports_of_explains (reg : Registry) {f : TypeTerm.Failure} {before text : List Char}
    (explains : f.reason.Explains before f.rest) :
    reg.Reports (String.ofList before) (String.ofList f.rest) (f.toError text) := by
  obtain ⟨reason, rest, complete⟩ := f
  cases reason with
  | missing expected =>
    cases rest with
    | nil => rfl
    | cons c rest =>
      exact ⟨⟨String.ofList rest, String.ofList_cons⟩, rulesOut_of_deadEnd reg (explains c rfl)⟩
  | unknownWord word =>
    obtain ⟨some, more, shape⟩ := explains
    refine ⟨some, String.ofList more, ?_⟩
    rw [← shape, String.ofList_append, String.ofList_toList]
  | notAKey key =>
    obtain ⟨some, ⟨more, shape⟩, a, derived, other⟩ := explains
    refine ⟨some, ⟨String.ofList more, ?_⟩, _, _, parse_of_derives derived, ?_, ?_⟩
    · rw [← shape, String.ofList_append, String.ofList_toList]
    · intro int
      rw [add_eq_scalar rfl int] at other
      cases other
    · intro string
      rw [add_eq_scalar rfl string] at other
      cases other
  | trailing =>
    obtain ⟨⟨a, derived⟩, some, dead⟩ := explains
    obtain ⟨c, more, rfl⟩ := List.exists_cons_of_ne_nil some
    refine ⟨accepts_iff.mpr ⟨a, ?_⟩, c, String.ofList more, String.ofList_cons, ?_⟩
    · rw [String.toList_ofList]
      exact derived
    · exact rulesOut_of_deadEnd reg (dead c rfl)

/-- An error of parsing points at the first problem and says truly what it is. -/
theorem parse_errors_point_at_problem {reg next : Registry} {text : String} {e : ReadError}
    (failed : reg.parse text = (.error e, next)) :
    e.offset ≤ text.utf8ByteSize ∧ String.Pos.Raw.IsValid text ⟨e.offset⟩ ∧
      ∃ before after, text = before ++ after ∧ e.offset = before.utf8ByteSize ∧
        (∃ more, reg.Accepts (before ++ more)) ∧ reg.Reports before after e := by
  have sound := TypeTerm.read_sound text.toList
  cases outcome : TypeTerm.read text.toList with
  | ok a =>
    simp only [parse, outcome] at failed
    cases congrArg Prod.fst failed
  | error f =>
    rw [outcome] at sound
    obtain ⟨before, shape, ⟨more, a, viable⟩, explains⟩ := TypeTerm.stuck_explained sound
    have reported : e = f.toError text.toList := by
      simp only [parse, outcome] at failed
      exact (Except.error.inj (congrArg Prod.fst failed)).symm
    have offset : e.offset = (String.ofList before).utf8ByteSize := by
      rw [reported, shape]
      exact TypeTerm.offset_toError
    have cut : text = String.ofList before ++ String.ofList f.rest := by
      rw [← String.ofList_append, ← shape, String.ofList_toList]
    have inside : String.Pos.Raw.IsValid text ⟨e.offset⟩ :=
      String.Pos.Raw.isValid_iff_exists_append.mpr ⟨_, _, cut, by rw [offset]; rfl⟩
    refine ⟨?_, inside, _, _, cut, offset, ⟨String.ofList more, ?_⟩, ?_⟩
    · rw [offset, cut, String.utf8ByteSize_append]
      exact Nat.le_add_right _ _
    · refine accepts_iff.mpr ⟨a, ?_⟩
      rw [String.toList_append, String.toList_ofList, String.toList_ofList]
      exact viable
    · rw [reported]
      exact reports_of_explains reg explains

theorem nullable_key_is_reported :
    let text := "array<\u00a0?int, x>"
    (∃ next, empty.parse text = (.error (.badKey "?int" 8), next)) ∧
      ∃ before after, text = before ++ after ∧ before.utf8ByteSize = 8 ∧
        (∃ more, empty.Accepts (before ++ more)) ∧ empty.Reports before after (.badKey "?int" 8) := by
  intro text
  let f : TypeTerm.Failure := ⟨.notAKey "?int", "?int, x>".toList, some (.basic true .int)⟩
  have first : TypeTerm.step [] "array<\u00a0?int, x>".toList = .argument
      [⟨false, false, .first "?int, x>".toList⟩] "\u00a0?int, x>".toList := by decide
  have second : TypeTerm.step [⟨false, false, .first "?int, x>".toList⟩] "\u00a0?int, x>".toList =
      .failed f := rfl
  have outcome : TypeTerm.read text.toList = .error f := by
    rw [TypeTerm.read, TypeTerm.readInto_eq, first, TypeTerm.proceed, TypeTerm.readInto_eq, second]
    rfl
  have error : f.toError text.toList = .badKey "?int" 8 := by decide
  have failed : ∃ next, empty.parse text = (.error (.badKey "?int" 8), next) := by
    simp only [parse, outcome, error]
    exact ⟨_, rfl⟩
  obtain ⟨next, failed⟩ := failed
  obtain ⟨_, _, before, after, cut, offset, viable, reports⟩ := parse_errors_point_at_problem failed
  exact ⟨⟨next, failed⟩, before, after, cut, offset.symm, viable, reports⟩

end Registry
end TypeLattice
