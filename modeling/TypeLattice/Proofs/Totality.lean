import Mathlib.Order.WellFounded
import TypeLattice.Proofs.Answers
import TypeLattice.Proofs.CastTable
import TypeLattice.Proofs.Pool.History
import TypeLattice.Proofs.Pool.Related

/-!
Registries that answer every question. Whatever is asked about types that a registry knows, the
look-ups behind it succeed and the descent through the elements of arrays ends, because elements
are known and older than their arrays.
-/
namespace TypeLattice.Registry
open TypeExpr (wrapTimes)

theorem reachable_served {reg : Registry} (reached : Reachable reg) :
    ∃ shapes, (Pool.empty.serve shapes).2 = reg.pool := by
  induction reached with
  | fresh => exact ⟨[], rfl⟩
  | @step reg op reached admissible ih =>
    obtain ⟨shapes, served⟩ := ih
    refine ⟨shapes ++ op.requests reg, ?_⟩
    rw [Pool.serve_append, served]
    exact (Operation.run_answers op reg).1.symm

theorem elementOf_wellFounded {reg : Registry} (closed : Closed reg) :
    WellFounded reg.pool.ElementOf := by
  refine Subrelation.wf ?_ (InvImage.wf TypeId.age Nat.lt_wfRel.wf)
  rintro elem id ⟨nonEmpty, key, nullable, shape⟩
  exact closed.older id nonEmpty key elem nullable shape

theorem complete_of_knows {reg : Registry} (closed : Closed reg) {id : TypeId}
    (known : reg.pool.Knows id) : ∃ a, reg.Complete id a := by
  obtain ⟨a, stored⟩ := term?_of_knows closed known
  exact ⟨a, stored, term?_names_known closed stored⟩

/-- A type that is returned is in the registry from then on. -/
theorem returned_known {reg : Registry} (canonical : reg.pool.Canonical) {op : Operation}
    {id : TypeId} (returned : (op.run reg).1 = .ok (some id)) : (op.run reg).2.pool.Knows id := by
  obtain ⟨served, answered⟩ := Operation.run_answers op reg
  obtain ⟨q, last, rfl⟩ := answered id returned
  rw [served]
  exact ⟨_, Pool.serve_answers canonical _ q (List.mem_of_getLast? last)⟩

/-- The faults of an operation on what the registry gave out: texts that are no types and names that
are no class names. -/
theorem fault_cases {reg : Registry} {op : Operation} (admissible : op.Admissible reg)
    {fault : Fault} (failed : (op.run reg).1 = .error fault) :
    (∃ text e, op = .parse text ∧ fault = .unreadable e) ∨
      ∃ name, op = .classOf name ∧ fault = .filing (.invalidClassName name) := by
  cases op with
  | internName | intern | instanceOf | array | classNamed => cases failed
  | classOf name =>
    rw [Operation.run_classOf] at failed
    split at failed
    · cases failed
    · cases failed
      exact Or.inr ⟨name, rfl, rfl⟩
  | withNullable id nullable =>
    obtain ⟨s, known⟩ := admissible
    rw [Operation.run_withNullable, known] at failed
    cases failed
  | truthy id =>
    obtain ⟨s, known⟩ := admissible
    rw [Operation.run_truthy, known] at failed
    cases failed
  | objects id =>
    obtain ⟨s, known⟩ := admissible
    rw [Operation.run_objects, known] at failed
    dsimp only at failed
    split at failed <;> cases failed
  | arrays id =>
    obtain ⟨s, known⟩ := admissible
    rw [Operation.run_arrays, known] at failed
    dsimp only at failed
    split at failed <;> cases failed
  | parse text =>
    rw [Operation.run_parse] at failed
    split at failed
    · cases failed
    · cases failed
      exact Or.inl ⟨text, _, rfl, rfl⟩

/-- An annotation is marked as nullable by changing a type that was stored just before. -/
theorem withNullable?_marks {reg : Registry} (closed : Closed reg) (kind : Kind NameId TypeId) :
    let r := reg.intern (.of kind false)
    let marked := reg.internMarked true kind
    r.2.pool.withNullable? r.1 true = some (marked.1, marked.2.pool) := by
  intro r marked
  have known : r.2.pool.shape? r.1 = some (.of kind false) :=
    Pool.shape?_intern_own closed.canonical (Shape.canonical_of kind false)
  exact Pool.derive?_of_shape? known fun s => s.withNullable true

/-- The same type in as many arrays is the same type, and in more or fewer it is not. -/
theorem wrapTimes_eq_iff {reg next : Registry} (reached : Reachable reg) (reached' : Reachable next)
    {id : TypeId} (known : reg.pool.Knows id) {nonEmpty : Bool} {key : ArrayKey} {n : Nat}
    (grown : Extends (wrapTimes nonEmpty key n (id, reg)).2 next) (m : Nat) :
    (wrapTimes nonEmpty key m (id, next)).1 = (wrapTimes nonEmpty key n (id, reg)).1 ↔ m = n := by
  obtain ⟨a, stored⟩ := term?_of_knows (reachable_closed reached) known
  obtain ⟨_, between, first⟩ := wrapTimes_stored reached stored nonEmpty key n
  have kept := Pool.term?_extends (extends_trans between grown).pool stored
  obtain ⟨last, later, second⟩ := wrapTimes_stored reached' kept nonEmpty key m
  -- the last registry has the trees of both, and a tree tells how often it was wrapped
  have first := Pool.term?_extends (extends_trans grown later).pool first
  constructor
  · intro same
    rw [same] at second
    exact TypeTerm.wrapped_injective (Option.some.inj (second.symm.trans first))
  · rintro rfl
    exact Pool.term?_injective (reachable_closed last).canonical second first

/-- What holds of a registry that was only fed what it gave out. -/
structure Total (reg : Registry) : Prop where
  /-- Some requests lead to the pool, so that what precedes what is not said of nothing. -/
  history : ∃ shapes, (Pool.empty.serve shapes).2 = reg.pool
  elements : ∀ elem id, reg.pool.ElementOf elem id →
    reg.pool.Knows elem ∧ reg.pool.Precedes elem id
  names : ∀ id name nullable, reg.pool.shape? id = some ⟨.instanceOf name, nullable⟩ →
    ∃ spelling, reg.names.spelling? name = some spelling
  founded : WellFounded reg.pool.ElementOf
  acyclic : ∀ id, ¬Relation.TransGen reg.pool.ElementOf id id
  texts : ∀ id, reg.pool.Knows id →
    ∃ text, ∀ before, reg.write? id before = some (before ++ text)
  /-- Every question about two types is a column of a row, under all options and resolvers. -/
  rows : ∀ source target, reg.pool.Knows source → reg.pool.Knows target → ∀ config resolver,
    ∃ row, (Build.castRow config resolver source target).run.run reg = (.ok row, reg) ∧
      row.Tells reg.pool config resolver source target
  anyCasts : ∀ source targets, reg.pool.Knows source → (∀ t ∈ targets, reg.pool.Knows t) →
    ∀ rules, ∃ holds, reg.pool.castAny? rules source targets = some holds
  elementsOf : ∀ id, reg.pool.Knows id → ∃ elem, reg.pool.elem? id = some elem ∧
    ∀ part, elem = some part → reg.pool.Knows part
  faults : ∀ (op : Operation) fault, op.Admissible reg → (op.run reg).1 = .error fault →
    (∃ text e, op = .parse text ∧ fault = .unreadable e) ∨
      ∃ name, op = .classOf name ∧ fault = .filing (.invalidClassName name)
  returned : ∀ (op : Operation) id, (op.run reg).1 = .ok (some id) → (op.run reg).2.pool.Knows id
  /-- Reading an annotation changes only types that were stored just before. -/
  marks : ∀ kind,
    let r := reg.intern (.of kind false)
    let marked := reg.internMarked true kind
    r.2.pool.withNullable? r.1 true = some (marked.1, marked.2.pool)
  wraps : ∀ id, reg.pool.Knows id → ∀ nonEmpty key n next, Reachable next →
    Extends (wrapTimes nonEmpty key n (id, reg)).2 next → ∀ m,
      (wrapTimes nonEmpty key m (id, next)).1 = (wrapTimes nonEmpty key n (id, reg)).1 ↔ m = n

/-- In a reachable registry the elements of arrays are known before the arrays, every question about
known types has an answer, and no type contains itself. -/
theorem reachable_total {reg : Registry} (reached : Reachable reg) : reg.Total := by
  have closed := reachable_closed reached
  have founded := elementOf_wellFounded closed
  constructor
  case history => exact reachable_served reached
  case elements =>
    rintro elem id ⟨nonEmpty, key, nullable, shape⟩
    have known : reg.pool.Knows elem := closed.parts id _ shape
    exact ⟨known, Pool.precedes_of_age_lt known ⟨_, shape⟩ (closed.older _ _ _ _ _ shape)⟩
  case names => exact fun id name nullable shape => closed.parts id _ shape
  case founded => exact founded
  case acyclic => exact fun id cycle => founded.transGen.irrefl.irrefl id cycle
  case texts =>
    intro id known
    obtain ⟨a, complete⟩ := complete_of_knows closed known
    obtain ⟨text, written⟩ := write?_of_complete (extends_refl reg) complete
    exact ⟨text, fun before => (written before).1⟩
  case rows =>
    intro source target known known' config resolver
    exact castRow_tells closed config resolver known known'
  case anyCasts =>
    intro source targets known all rules
    obtain ⟨a, left⟩ := term?_of_knows closed known
    have each : ∀ t ∈ targets, ∃ holds,
        (reg.pool.cast? rules source t).map Answer.holds = some holds := by
      intro t member
      obtain ⟨b, right⟩ := term?_of_knows closed (all t member)
      exact ⟨_, Pool.castFrom?_of_term? closed.canonical rules left right true⟩
    choose! holds answered using each
    exact ⟨_, Pool.castAny?_eq_any answered⟩
  case elementsOf =>
    rintro id ⟨⟨kind, nullable⟩, shape⟩
    rw [Pool.elem?, shape]
    cases kind with
    | basic | instanceOf =>
      refine ⟨none, rfl, ?_⟩
      intro part held
      cases held
    | array nonEmpty key elem =>
      refine ⟨some elem, rfl, ?_⟩
      intro part held
      cases held
      exact closed.parts id _ shape
  case faults => exact fun op fault admissible failed => fault_cases admissible failed
  case returned => exact fun op id returned => returned_known closed.canonical returned
  case marks => exact withNullable?_marks closed
  case wraps =>
    intro id known nonEmpty key n next reached' grown m
    exact wrapTimes_eq_iff reached reached' known grown m

theorem lists_of_lists_differ :
    let user := empty.internClass "User"
    let twice := wrapTimes true .int 2 user
    (wrapTimes true .int 3 (user.1, twice.2)).1 ≠ twice.1 := by
  intro user twice
  have reached : Reachable user.2 := reachable_internClass .fresh (by decide)
  have stored := term?_internClass empty_closed "User"
  obtain ⟨reached', _, _⟩ := wrapTimes_stored reached stored true .int 2
  have wraps := (reachable_total reached).wraps user.1 (Pool.shape?_of_term? stored) true .int 2
    twice.2 reached' (extends_refl _) 3
  intro same
  cases wraps.mp same

end TypeLattice.Registry
