import TypeLattice.Proofs.Build
import TypeLattice.Proofs.Registry.Adding

/-!
Runs of a registry: every way in which types and class names enter it from outside, in any order
and with any data. Each operation comes down to some requests to the pool. An operation on an
identifier that the pool does not have fails and makes none.
-/
namespace TypeLattice

inductive Operation where
  | internName (name : String)
  /-- Any shape, whether canonical or not. -/
  | intern (s : TypeShape)
  | instanceOf (kind : Kind NameId TypeId) (nullable : Bool)
  | array (nonEmpty : Bool) (key : ArrayKey) (elem : TypeId)
  /-- A class whose name has to be qualified. -/
  | classOf (name : String)
  | classNamed (name : NameId)
  | withNullable (id : TypeId) (nullable : Bool)
  | truthy (id : TypeId)
  | objects (id : TypeId)
  | arrays (id : TypeId)
  | parse (text : String)

namespace Operation

/-- What an operation does and the type it returns, if it returns one. -/
def program : Operation → Build (Option TypeId)
  | internName name => do let _ ← Build.internName name; return none
  | intern s => return some (← Build.change (Registry.intern s))
  | instanceOf kind nullable => return some (← Build.instanceOf kind nullable)
  | array nonEmpty key elem => return some (← Build.array nonEmpty key elem)
  | classOf name => return some (← Build.attempt .filing (Registry.classOf name))
  | classNamed name => return some (← Build.instanceOf (.instanceOf name) false)
  | withNullable id nullable => return some (← Build.withNullable id nullable)
  | truthy id => return some (← Build.truthy id)
  | objects id => Build.objects? id
  | arrays id => Build.arrays? id
  | parse text => return some (← Build.parse text)

def run (op : Operation) (reg : Registry) : Except Fault (Option TypeId) × Registry :=
  op.program.run.run reg

/-- The shapes that an operation asks the pool for, in order. -/
def requests (op : Operation) (reg : Registry) : List TypeShape :=
  match op with
  | internName _ => []
  | intern s => [s]
  | instanceOf kind nullable => [.of kind nullable]
  | array nonEmpty key elem => [.of (.array nonEmpty key elem) false]
  | classOf name =>
    if Name.isQualified name.toList then [.of (.instanceOf (reg.internName name).1) false] else []
  | classNamed name => [.of (.instanceOf name) false]
  | withNullable id nullable => ((reg.pool.shape? id).map (·.withNullable nullable)).toList
  | truthy id => ((reg.pool.shape? id).map Shape.truthy).toList
  | objects id => ((reg.pool.shape? id).bind Shape.objects?).toList
  | arrays id => ((reg.pool.shape? id).bind (·.arrays? (.basic .mixed))).toList
  | parse text =>
    match TypeTerm.read text.toList with
    | .ok a => reg.addRequests a
    | .error f => f.complete.elim [] reg.addRequests

end Operation

namespace Registry

def after (reg : Registry) (ops : List Operation) : Registry :=
  ops.foldl (fun reg op => (op.run reg).2) reg

/-- The shapes that some operations ask the pool for, in order. -/
def requests (reg : Registry) : List Operation → List TypeShape
  | [] => []
  | op :: ops => op.requests reg ++ (op.run reg).2.requests ops

/-- The requests of some operations with their answers, oldest first. -/
def served (reg : Registry) (ops : List Operation) : List Request :=
  (reg.pool.serve (reg.requests ops)).1

end Registry

namespace Operation

theorem run_classOf (name : String) (reg : Registry) :
    (classOf name).run reg =
      if Name.isQualified name.toList then
        (.ok (some (reg.internClass name).1), (reg.internClass name).2)
      else (.error (.filing (.invalidClassName name)), reg) := by
  simp only [run, program, Build.run_bind, Build.run_attempt, Registry.classOf]
  cases Name.isQualified name.toList <;> rfl

theorem run_withNullable (id : TypeId) (nullable : Bool) (reg : Registry) :
    (withNullable id nullable).run reg = match reg.pool.shape? id with
      | some s => (.ok (some (reg.intern (s.withNullable nullable)).1),
          (reg.intern (s.withNullable nullable)).2)
      | none => (.error (.misuse none), reg) := by
  simp only [run, program, Build.run_bind, Build.withNullable, Pool.withNullable?,
    Build.run_derive]
  cases reg.pool.shape? id <;> rfl

theorem run_truthy (id : TypeId) (reg : Registry) :
    (truthy id).run reg = match reg.pool.shape? id with
      | some s => (.ok (some (reg.intern s.truthy).1), (reg.intern s.truthy).2)
      | none => (.error (.misuse none), reg) := by
  simp only [run, program, Build.run_bind, Build.truthy, Pool.truthy?, Build.run_derive]
  cases reg.pool.shape? id <;> rfl

theorem run_objects (id : TypeId) (reg : Registry) :
    (objects id).run reg = match reg.pool.shape? id with
      | some s => match s.objects? with
        | some s => (.ok (some (reg.intern s).1), (reg.intern s).2)
        | none => (.ok none, reg)
      | none => (.error (.misuse none), reg) :=
  Build.run_derivePart id Shape.objects? reg

theorem run_arrays (id : TypeId) (reg : Registry) :
    (arrays id).run reg = match reg.pool.shape? id with
      | some s => match s.arrays? (.basic .mixed) with
        | some s => (.ok (some (reg.intern s).1), (reg.intern s).2)
        | none => (.ok none, reg)
      | none => (.error (.misuse none), reg) :=
  Build.run_derivePart id _ reg

theorem run_parse (text : String) (reg : Registry) :
    (parse text).run reg = match TypeTerm.read text.toList with
      | .ok a => (.ok (some (reg.add a).1), (reg.add a).2)
      | .error f => (.error (.unreadable (f.toError text.toList)),
          f.complete.elim reg fun a => (reg.add a).2) := by
  simp only [run, program, Build.run_bind, Build.parse, Build.run_attempt, Registry.parse]
  cases TypeTerm.read text.toList with
  | ok a => rfl
  | error f => rcases f with ⟨reason, rest, _ | a⟩ <;> rfl

/-- What an operation does to the pool is to serve `shapes`, and a type that it returns is the last
answer. -/
def Answers (reg : Registry) (shapes : List TypeShape)
    (r : Except Fault (Option TypeId) × Registry) : Prop :=
  r.2.pool = (reg.pool.serve shapes).2 ∧
    ∀ id, r.1 = .ok (some id) → ∃ q, (reg.pool.serve shapes).1.getLast? = some q ∧ q.answer = id

theorem answers_of_serves {reg : Registry} {shapes : List TypeShape} {r : TypeId × Registry}
    (served : reg.Serves shapes r) : Answers reg shapes (.ok (some r.1), r.2) := by
  refine ⟨served.1, ?_⟩
  intro id same
  cases same
  exact served.2

theorem answers_nothing {reg next : Registry} (same : next.pool = reg.pool)
    {result : Except Fault (Option TypeId)} (none : ∀ id, result ≠ .ok (some id)) :
    Answers reg [] (result, next) :=
  ⟨same, fun id returned => absurd returned (none id)⟩

theorem run_answers (op : Operation) (reg : Registry) :
    Answers reg (op.requests reg) (op.run reg) := by
  cases op with
  | internName name => exact answers_nothing rfl nofun
  | intern s => exact answers_of_serves (Registry.intern_serves reg s)
  | instanceOf kind nullable => exact answers_of_serves (Registry.intern_serves reg _)
  | array nonEmpty key elem => exact answers_of_serves (Registry.intern_serves reg _)
  | classNamed name => exact answers_of_serves (Registry.intern_serves reg _)
  | classOf name =>
    rw [run_classOf, requests]
    split
    · exact answers_of_serves (Registry.intern_serves (reg.internName name).2 _)
    · exact answers_nothing rfl nofun
  | withNullable id nullable =>
    rw [run_withNullable, requests]
    cases reg.pool.shape? id with
    | some s => exact answers_of_serves (Registry.intern_serves reg _)
    | none => exact answers_nothing rfl nofun
  | truthy id =>
    rw [run_truthy, requests]
    cases reg.pool.shape? id with
    | some s => exact answers_of_serves (Registry.intern_serves reg _)
    | none => exact answers_nothing rfl nofun
  | objects id =>
    rw [run_objects, requests]
    cases reg.pool.shape? id with
    | none => exact answers_nothing rfl nofun
    | some s =>
      dsimp only [Option.bind_some]
      cases s.objects? with
      | some s => exact answers_of_serves (Registry.intern_serves reg _)
      | none => exact answers_nothing rfl nofun
  | arrays id =>
    rw [run_arrays, requests]
    cases reg.pool.shape? id with
    | none => exact answers_nothing rfl nofun
    | some s =>
      dsimp only [Option.bind_some]
      cases s.arrays? (TypeId.basic .mixed) with
      | some s => exact answers_of_serves (Registry.intern_serves reg _)
      | none => exact answers_nothing rfl nofun
  | parse text =>
    rw [run_parse, requests]
    cases TypeTerm.read text.toList with
    | ok a => exact answers_of_serves (Registry.add_serves a reg)
    | error f =>
      rcases f with ⟨reason, rest, _ | a⟩
      · exact answers_nothing rfl nofun
      · exact ⟨(Registry.add_serves a reg).1, nofun⟩

end Operation

namespace Registry

/-- For its pool, a run is one long list of requests. -/
theorem after_pool (reg : Registry) (ops : List Operation) :
    (reg.after ops).pool = (reg.pool.serve (reg.requests ops)).2 := by
  induction ops generalizing reg with
  | nil => rfl
  | cons op ops ih =>
    have stepped := (Operation.run_answers op reg).1
    rw [requests, Pool.serve_append, ← stepped]
    exact ih (op.run reg).2

theorem after_canonical (names : NameTable) (ops : List Operation) :
    ((Registry.mk names .empty).after ops).pool.Canonical := by
  rw [after_pool]
  exact Pool.serve_canonical Pool.empty_canonical _

theorem served_cons (reg : Registry) (op : Operation) (ops : List Operation) :
    reg.served (op :: ops) =
      (reg.pool.serve (op.requests reg)).1 ++ (op.run reg).2.served ops := by
  rw [served, requests, Pool.serve_append, ← (Operation.run_answers op reg).1]
  rfl

theorem returned_is_answer (reg : Registry) (before : List Operation) (op : Operation)
    (later : List Operation) (id : TypeId)
    (returned : (op.run (reg.after before)).1 = .ok (some id)) :
    ∃ q ∈ reg.served (before ++ op :: later),
      (op.requests (reg.after before)).getLast? = some q.shape ∧ q.answer = id := by
  induction before generalizing reg with
  | nil =>
    obtain ⟨q, last, answer⟩ := (Operation.run_answers op reg).2 id returned
    refine ⟨q, ?_, ?_, answer⟩
    · rw [List.nil_append, served_cons]
      exact List.mem_append_left _ (List.mem_of_getLast? last)
    · have asked := Pool.serve_shapes reg.pool (op.requests reg)
      change (op.requests reg).getLast? = some q.shape
      rw [← asked, List.getLast?_map, last]
      rfl
  | cons first before ih =>
    obtain ⟨q, member, last, answer⟩ := ih (first.run reg).2 returned
    refine ⟨q, ?_, last, answer⟩
    rw [List.cons_append, served_cons]
    exact List.mem_append_right _ member

end Registry
end TypeLattice
