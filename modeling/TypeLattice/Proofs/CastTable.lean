import TypeLattice.CastTable
import TypeLattice.Proofs.Outcomes

/-!
Rows of a cast table. In a closed registry every question of a row has an answer and every class
that the declared cast asks about a spelling, so a row is always found, and it tells the verdicts.
-/
namespace TypeLattice

/-- A question that has an answer is passed by. -/
theorem Build.run_ask_bind {α β : Type} {f : Registry → Option α} {reg : Registry} {a : α}
    (answered : f reg = some a) (g : α → Build β) :
    (ask f >>= g).run.run reg = (g a).run.run reg := by
  rw [run_bind, run_ask, answered]

/-- A list of computations that succeed and change nothing. -/
theorem Build.run_mapM_of_each {α β : Type} {f : α → Build β} {reg : Registry} {xs : List α}
    (each : ∀ a ∈ xs, ∃ b, (f a).run.run reg = (.ok b, reg)) :
    ∃ bs, (xs.mapM f).run.run reg = (.ok bs, reg) := by
  induction xs with
  | nil => exact ⟨[], rfl⟩
  | cons a xs ih =>
    obtain ⟨b, first⟩ := each a List.mem_cons_self
    obtain ⟨bs, rest⟩ := ih fun other member => each other (List.mem_cons_of_mem a member)
    refine ⟨b :: bs, ?_⟩
    rw [List.mapM_cons, run_bind, first]
    dsimp only
    rw [run_bind, rest]
    rfl

/-- Whether a row tells the verdicts of a pool about two types. -/
structure CastRow.Tells (row : CastRow) (p : Pool) (config : CastOptions) (resolver : Resolver)
    (source target : TypeId) : Prop where
  cast : p.verdict? (.cast (some config)) source target = some row.cast
  strict : p.verdict? (.cast none) source target = some row.strict
  nonNull : p.verdict? (.castNonNull (some config)) source target = some row.nonNull
  nonNullStrict : p.verdict? (.castNonNull none) source target = some row.nonNullStrict
  declared : (p.castDeclared? config resolver source target).map Answer.holds = some row.declared
  undeclared :
    (p.castDeclared? config sameClass source target).map Answer.holds = some row.undeclared
  overlaps : p.verdict? .overlap source target = some row.overlaps
  overlapped : p.verdict? .overlap target source = some row.overlapped
  same : row.same = (source == target)

namespace Registry
variable {reg : Registry} (closed : Closed reg)
include closed

theorem spelled_of_reachesClass {depth : Nat} {id : TypeId} {name : NameId}
    (reached : reg.pool.ReachesClass depth id name) :
    ∃ spelling, reg.names.spelling? name = some spelling := by
  obtain ⟨part, nullable, _, shape⟩ := reached
  exact closed.parts part _ shape

theorem spelled_of_asked {source target : TypeId} {o : Outcome}
    (concerns : reg.pool.Concerns source target o) (r : Rules) :
    ∀ pair ∈ (o.answer r).asked, (∃ spelling, reg.names.spelling? pair.1 = some spelling) ∧
      ∃ spelling, reg.names.spelling? pair.2 = some spelling := by
  intro pair asked
  cases o with
  | settled holds => cases asked
  | depends sub sup =>
    obtain ⟨_, depth, left, right⟩ := concerns
    obtain ⟨config, _ | resolver⟩ := r
    · cases asked
    · cases List.mem_singleton.mp asked
      exact ⟨spelled_of_reachesClass closed left, spelled_of_reachesClass closed right⟩

/-- The classes that a cast asks about can be written. -/
theorem asked_written {source target : TypeId} {o : Outcome}
    (concerns : reg.pool.Concerns source target o) (r : Rules) :
    ∃ written, ((o.answer r).asked.mapM fun (sub, sup) =>
      return (← Build.spelling sub, ← Build.spelling sup)).run.run reg = (.ok written, reg) := by
  apply Build.run_mapM_of_each
  intro pair member
  obtain ⟨⟨sub, first⟩, sup, second⟩ := spelled_of_asked closed concerns r pair member
  refine ⟨(sub, sup), ?_⟩
  dsimp only [Build.spelling]
  rw [Build.run_ask_bind first, Build.run_ask_bind second]
  rfl

theorem castFrom?_answered (r : Rules) {source target : TypeId} {a b : TypeTerm NameId}
    (left : reg.pool.term? source = some a) (right : reg.pool.term? target = some b)
    (whole : Bool) : ∃ answer, reg.pool.castFrom? r whole source target = some answer := by
  obtain ⟨answer, found, _⟩ := Option.map_eq_some_iff.mp
    (Pool.castFrom?_of_term? closed.canonical r left right whole)
  exact ⟨answer, found⟩

theorem castRow_tells (config : CastOptions) (resolver : Resolver) {source target : TypeId}
    (known : reg.pool.Knows source) (known' : reg.pool.Knows target) :
    ∃ row, (Build.castRow config resolver source target).run.run reg = (.ok row, reg) ∧
      row.Tells reg.pool config resolver source target := by
  obtain ⟨a, left⟩ := term?_of_knows closed known
  obtain ⟨b, right⟩ := term?_of_knows closed known'
  obtain ⟨s, shape⟩ := known
  obtain ⟨t, shape'⟩ := known'
  obtain ⟨o, concerns, declared, _⟩ := castDeclared?_comesTo closed config
    (Pool.entry?_of_shape? closed.canonical shape) (Pool.entry?_of_shape? closed.canonical shape')
  obtain ⟨cast, casts⟩ := castFrom?_answered closed ⟨some config, none⟩ left right true
  obtain ⟨strict, strictly⟩ := castFrom?_answered closed .strict left right true
  obtain ⟨nonNull, nonNulls⟩ := castFrom?_answered closed ⟨some config, none⟩ left right false
  obtain ⟨nonNullStrict, nonNullsStrictly⟩ := castFrom?_answered closed .strict left right false
  obtain ⟨asked, written⟩ := asked_written closed concerns ⟨some config, some resolver⟩
  have overlaps := Pool.overlaps?_of_term? closed.canonical left right
  have overlapped := Pool.overlaps?_of_term? closed.canonical right left
  let row : CastRow := {
    cast := cast.holds
    strict := strict.holds
    nonNull := nonNull.holds
    nonNullStrict := nonNullStrict.holds
    declared := (o.answer ⟨some config, some resolver⟩).holds
    asked := asked
    undeclared := (o.answer ⟨some config, some sameClass⟩).holds
    overlaps := a.overlaps b
    overlapped := b.overlaps a
    same := source == target }
  refine ⟨row, ?_, ?_⟩
  · unfold Build.castRow
    rw [Build.run_ask_bind (declared resolver), Build.run_ask_bind casts,
      Build.run_ask_bind strictly, Build.run_ask_bind nonNulls,
      Build.run_ask_bind nonNullsStrictly, Build.run_bind, written]
    dsimp only
    rw [Build.run_ask_bind (declared sameClass), Build.run_ask_bind overlaps,
      Build.run_ask_bind overlapped]
    rfl
  · constructor
    case cast => exact congrArg (Option.map Answer.holds) casts
    case strict => exact congrArg (Option.map Answer.holds) strictly
    case nonNull => exact congrArg (Option.map Answer.holds) nonNulls
    case nonNullStrict => exact congrArg (Option.map Answer.holds) nonNullsStrictly
    case declared => exact congrArg (Option.map Answer.holds) (declared resolver)
    case undeclared => exact congrArg (Option.map Answer.holds) (declared sameClass)
    case overlaps => exact overlaps
    case overlapped => exact overlapped
    case same => rfl

end Registry
end TypeLattice
