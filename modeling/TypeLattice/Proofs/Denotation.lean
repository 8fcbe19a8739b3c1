import TypeLattice.Proofs.Grammar.Progress
import TypeLattice.Proofs.Operation
import TypeLattice.Proofs.Terms

/-!
What a text means, from end to end: a registry that is given a text to parse succeeds when the text
is an annotation, and then does what the annotation says, by the operations that a caller could have
used in its place.
-/
namespace TypeLattice

def Build.marked (nullable : Bool) (id : TypeId) : Build TypeId :=
  if nullable then Build.withNullable id true else return id

/-- What an annotation says, in terms of the operations on types. -/
def TypeTerm.denote : WrittenType → Build TypeId
  | .basic nullable b => do Build.marked nullable (← Build.instanceOf (.basic b) false)
  | .instanceOf nullable name => do
    Build.marked nullable (← Build.attempt .filing (Registry.classOf name))
  | .array nullable nonEmpty key elem => do
    Build.marked nullable (← Build.array nonEmpty key (← elem.denote))

theorem TypeTerm.grammar_names_qualified {ts : List Token} {a : WrittenType}
    (parsed : Grammar ts a) : ∀ name ∈ a.names, Name.isQualified name.toList = true := by
  induction parsed with
  | keyword | bareArray => intro name member; cases member
  | className nullable proper =>
    intro name member
    rw [List.mem_singleton.mp member, String.toList_ofList]
    exact proper
  | array _ _ _ ih | keyedArray _ _ _ _ ih => exact ih

namespace Registry

theorem run_marked {reg : Registry} (canonical : reg.pool.Canonical) (nullable : Bool)
    (kind : Kind NameId TypeId) :
    let r := reg.intern (.of kind false)
    (Build.marked nullable r.1).run.run r.2 =
      (.ok (reg.internMarked nullable kind).1, (reg.internMarked nullable kind).2) := by
  intro r
  cases nullable with
  | false => rfl
  | true =>
    have known : r.2.pool.shape? r.1 = some (Shape.of kind false) :=
      Pool.shape?_intern_own canonical (Shape.canonical_of kind false)
    change (Build.changePool fun p => p.derive? r.1 (·.withNullable true)).run.run r.2 = _
    rw [Build.run_derive, known]
    rfl

theorem internMarked_canonical {reg : Registry} (canonical : reg.pool.Canonical) (nullable : Bool)
    (kind : Kind NameId TypeId) : (reg.internMarked nullable kind).2.pool.Canonical := by
  cases nullable with
  | false => exact Pool.intern_canonical canonical _
  | true => exact Pool.intern_canonical (Pool.intern_canonical canonical _) _

theorem add_canonical {reg : Registry} (canonical : reg.pool.Canonical) (a : WrittenType) :
    (reg.add a).2.pool.Canonical := by
  induction a with
  | basic nullable b => exact internMarked_canonical canonical nullable _
  | instanceOf nullable name =>
    have named : (reg.internName name).2.pool.Canonical := canonical
    exact internMarked_canonical named nullable _
  | array nullable nonEmpty key elem ih =>
    rw [add_array]
    exact internMarked_canonical ih nullable _

/-- Adding an annotation is doing what it says. -/
theorem run_denote {reg : Registry} (canonical : reg.pool.Canonical) {a : WrittenType}
    (qualified : ∀ name ∈ a.names, Name.isQualified name.toList = true) :
    a.denote.run.run reg = (.ok (reg.add a).1, (reg.add a).2) := by
  induction a with
  | basic nullable b =>
    rw [TypeTerm.denote, Build.run_bind]
    exact run_marked canonical nullable (.basic b)
  | instanceOf nullable name =>
    have proper := qualified name (List.mem_singleton_self name)
    have named : (reg.internName name).2.pool.Canonical := canonical
    rw [TypeTerm.denote, Build.run_bind, Build.run_attempt, classOf, if_pos proper]
    exact run_marked named nullable (.instanceOf (reg.internName name).1)
  | array nullable nonEmpty key elem ih =>
    rw [TypeTerm.denote, Build.run_bind, ih qualified, add_array]
    dsimp only
    rw [Build.run_bind, Build.run_array]
    exact run_marked (add_canonical canonical elem) nullable _

theorem parse_of_derives {reg : Registry} {text : String} {a : WrittenType}
    (derived : TypeTerm.Derives text.toList a) :
    reg.parse text = (.ok (reg.add a).1, (reg.add a).2) := by
  simp only [parse, TypeTerm.read_eq_ok_iff.mpr derived]

theorem derives_of_parse {reg next : Registry} {text : String} {id : TypeId}
    (parsed : reg.parse text = (.ok id, next)) : ∃ a, TypeTerm.Derives text.toList a := by
  cases found : TypeTerm.read text.toList with
  | ok a => exact ⟨a, TypeTerm.read_eq_ok_iff.mp found⟩
  | error f =>
    simp only [parse, found] at parsed
    cases congrArg Prod.fst parsed

/-- A text is parsed if and only if it is an annotation, and parsing it is doing what the
annotation says. -/
theorem parse_denotes (names : NameTable) (ops : List Operation) (text : String) :
    let reg := (Registry.mk names .empty).after ops
    (∀ id next, reg.parse text = (.ok id, next) ↔
      ∃ a, TypeTerm.Derives text.toList a ∧ a.denote.run.run reg = (.ok id, next)) ∧
    ((∃ id next, reg.parse text = (.ok id, next)) ↔ ∃ a, TypeTerm.Derives text.toList a) := by
  intro reg
  have canonical : reg.pool.Canonical := after_canonical names ops
  have denoted {a : WrittenType} (derived : TypeTerm.Derives text.toList a) :
      a.denote.run.run reg = (.ok (reg.add a).1, (reg.add a).2) := by
    obtain ⟨ts, rest, parsed, _⟩ := derived
    exact run_denote canonical (TypeTerm.grammar_names_qualified parsed)
  constructor
  · intro id next
    constructor
    · intro parsed
      obtain ⟨a, derived⟩ := derives_of_parse parsed
      refine ⟨a, derived, ?_⟩
      rw [parse_of_derives derived] at parsed
      cases parsed
      exact denoted derived
    · rintro ⟨a, derived, run⟩
      rw [denoted derived] at run
      cases run
      exact parse_of_derives derived
  · constructor
    · rintro ⟨id, next, parsed⟩
      exact derives_of_parse parsed
    · rintro ⟨a, derived⟩
      exact ⟨_, _, parse_of_derives derived⟩

end Registry
end TypeLattice
