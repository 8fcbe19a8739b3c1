import TypeLattice.Proofs.Answers
import TypeLattice.Proofs.Growth
import TypeLattice.Session

/-!
Sessions of many pools, some of which share a name table. A step works on the registry of one pool,
which it makes larger, and through a shared table it may make the registries of other pools larger
as well, but never their pools. So what a pool has answered once it answers for ever, whatever is
done in between, there or elsewhere.
-/
namespace TypeLattice

/-- Whether a step leaves a pool alone: it is for another pool, or for what all of them share. -/
def Step.Spares (step : Step) (i : Nat) : Prop :=
  ∀ a, step.action = .onPool a → step.pool ≠ i

namespace Session
open Registry (Grows Keeps)

/-! ### What one step can do -/

theorem grows_evalPool (s : Session) (m : Member) (a : PoolAction) : (s.evalPool m a).Grows := by
  cases a with
  | type t =>
    refine Build.grows_bind (TypeExpr.grows_eval m.registers t) fun id => ?_
    exact Build.grows_bind (Build.grows_ask _) fun text => Build.grows_pure _
  | describe t =>
    refine Build.grows_bind (TypeExpr.grows_eval m.registers t) fun id => ?_
    exact Build.grows_bind (Build.grows_describe id) fun d => Build.grows_pure _
  | format t before =>
    refine Build.grows_bind (TypeExpr.grows_eval m.registers t) fun id => ?_
    exact Build.grows_bind (Build.grows_ask _) fun text => Build.grows_pure _
  | state => exact Build.grows_bind Build.grows_get fun reg => Build.grows_pure _
  | cast source targets =>
    refine Build.grows_bind (TypeExpr.grows_eval m.registers source) fun source => ?_
    refine Build.grows_bind (Build.grows_mapM (TypeExpr.grows_eval m.registers) targets) fun ts => ?_
    refine Build.grows_bind (Build.grows_mapM (Build.grows_castRow _ _ source) ts) fun rows => ?_
    exact Build.grows_bind (Build.grows_ask _) fun any => Build.grows_pure _

/-- A type that an action returns can be written. -/
theorem renders_of_evalPool {s : Session} {m : Member} {a : PoolAction} {reg next : Registry}
    {result : Result} {id : TypeId}
    (ran : (s.evalPool m a).run.run reg = (.ok (result, some id), next)) : next.Renders id := by
  cases a with
  | type t =>
    obtain ⟨built, middle, _, rest⟩ := Build.ok_of_bind ran
    obtain ⟨text, last, rendered, returned⟩ := Build.ok_of_bind rest
    obtain ⟨written, rfl⟩ := Build.ok_of_ask rendered
    cases returned
    exact ⟨text, written⟩
  | describe t =>
    obtain ⟨built, middle, _, rest⟩ := Build.ok_of_bind ran
    obtain ⟨d, last, _, returned⟩ := Build.ok_of_bind rest
    cases returned
  | format t before =>
    obtain ⟨built, middle, _, rest⟩ := Build.ok_of_bind ran
    obtain ⟨text, last, _, returned⟩ := Build.ok_of_bind rest
    cases returned
  | state =>
    obtain ⟨reg, middle, _, returned⟩ := Build.ok_of_bind ran
    cases returned
  | cast source targets =>
    obtain ⟨source, first, _, rest⟩ := Build.ok_of_bind ran
    obtain ⟨targets, second, _, rest⟩ := Build.ok_of_bind rest
    obtain ⟨rows, third, _, rest⟩ := Build.ok_of_bind rest
    obtain ⟨any, last, _, returned⟩ := Build.ok_of_bind rest
    cases returned

/-- What one step makes of a session: it works on the registry of a pool, and through it perhaps on
the shared names, or it leaves the pools as they are and adds to the shared names. -/
inductive Moves (s : Session) (step : Step) (next : Session) : Prop where
  | pool {a : PoolAction} {m m' : Member} (action : step.action = .onPool a)
      (held : s.members[step.pool]? = some m) (held' : next.members[step.pool]? = some m')
      (grown : Grows (s.registry m) (next.registry m'))
      (returned : ∀ id ∈ m'.registers, id ∈ m.registers ∨ (next.registry m').Renders id)
      (others : ∀ i, step.pool ≠ i → next.members[i]? = s.members[i]?)
      (names : NameTable.Extends s.names next.names)
      (nameRegisters : next.nameRegisters = s.nameRegisters)
  | shared (members : next.members = s.members)
      (names : NameTable.Extends s.names next.names)
      (returned : ∀ name ∈ next.nameRegisters, name ∈ s.nameRegisters ∨
        ∃ spelling, next.names.spelling? name = some spelling)

theorem moves_update {s : Session} {step : Step} {a : PoolAction} {m : Member} {reg : Registry}
    {registers : Array TypeId} (action : step.action = .onPool a)
    (held : s.members[step.pool]? = some m) (grown : Grows (s.registry m) reg)
    (returned : ∀ id ∈ registers, id ∈ m.registers ∨ reg.Renders id) :
    Moves s step (s.update step.pool { m with registers } reg) := by
  have inside := (Array.getElem?_eq_some_iff.mp held).1
  obtain ⟨pool, ownNames, old⟩ := m
  cases ownNames with
  | none =>
    have held' : (s.update step.pool ⟨pool, none, registers⟩ reg).members[step.pool]? =
        some ⟨reg.pool, none, registers⟩ := Array.getElem?_setIfInBounds_self_of_lt inside
    exact Moves.pool action held held' grown returned
      (fun i other => Array.getElem?_setIfInBounds_ne other) grown.larger.names rfl
  | some own =>
    have held' : (s.update step.pool ⟨pool, some own, registers⟩ reg).members[step.pool]? =
        some ⟨reg.pool, some reg.names, registers⟩ :=
      Array.getElem?_setIfInBounds_self_of_lt inside
    exact Moves.pool action held held' grown returned
      (fun i other => Array.getElem?_setIfInBounds_ne other) (NameTable.extends_refl s.names) rfl

theorem runPool_ok {s : Session} {i : Nat} {a : PoolAction} {m : Member} {reg : Registry}
    {result : Result} {register : Option TypeId} (held : s.members[i]? = some m)
    (ran : (s.evalPool m a).run.run (s.registry m) = (.ok (result, register), reg)) :
    s.runPool i a = (.ok result,
      s.update i { m with registers := register.elim m.registers m.registers.push } reg) := by
  rw [runPool, held]
  dsimp only
  rw [ran]

theorem moves_runPool {s : Session} {step : Step} {a : PoolAction}
    (action : step.action = .onPool a) : Moves s step (s.runPool step.pool a).2 := by
  cases held : s.members[step.pool]? with
  | none =>
    rw [runPool, held]
    exact Moves.shared rfl (NameTable.extends_refl _) fun name member => Or.inl member
  | some m =>
    have grown := grows_evalPool s m a (s.registry m)
    cases ran : (s.evalPool m a).run.run (s.registry m) with
    | mk result reg =>
      rw [ran] at grown
      cases result with
      | error e =>
        rw [runPool, held]
        dsimp only
        rw [ran]
        exact moves_update action held grown fun id member => Or.inl member
      | ok r =>
        obtain ⟨result, register⟩ := r
        rw [runPool_ok held ran]
        refine moves_update action held grown ?_
        intro id member
        cases register with
        | none => exact Or.inl member
        | some new =>
          rcases Array.mem_push.mp member with old | rfl
          · exact Or.inl old
          · exact Or.inr (renders_of_evalPool ran)

theorem moves_runShared {s : Session} {step : Step} (a : SharedAction) :
    Moves s step (s.runShared a).2 := by
  have kept (next : Session) (same : next.nameRegisters = s.nameRegisters) (name : NameId)
      (member : name ∈ next.nameRegisters) : name ∈ s.nameRegisters ∨
        ∃ spelling, next.names.spelling? name = some spelling := Or.inl (same ▸ member)
  cases a with
  | internName name =>
    unfold runShared
    dsimp only [internName]
    split
    · rename_i spelling known
      refine Moves.shared rfl (NameTable.extends_intern _ _) ?_
      intro other member
      rcases Array.mem_push.mp member with old | rfl
      · exact Or.inl old
      · exact Or.inr ⟨spelling, known⟩
    · exact Moves.shared rfl (NameTable.extends_intern _ _) (kept _ rfl)
  | declareParent child parent =>
    refine Moves.shared rfl ?_ (kept _ rfl)
    exact NameTable.extends_trans (NameTable.extends_intern _ _) (NameTable.extends_intern _ _)
  | listParents child => exact Moves.shared rfl (NameTable.extends_intern _ _) (kept _ rfl)
  | isSubclass sub sup =>
    refine Moves.shared rfl ?_ (kept _ rfl)
    exact NameTable.extends_trans (NameTable.extends_intern _ _) (NameTable.extends_intern _ _)
  | setConfig config =>
    unfold runShared
    dsimp only
    split
    · exact Moves.shared rfl (NameTable.extends_refl _) (kept _ rfl)
    · exact Moves.shared rfl (NameTable.extends_refl _) (kept _ rfl)

theorem moves_run (s : Session) (step : Step) : Moves s step (s.run step).2 := by
  obtain ⟨i, action⟩ := step
  cases action with
  | onPool a => exact moves_runPool rfl
  | onShared a => exact moves_runShared a

theorem member_of_moves {s next : Session} {step : Step} (moved : Moves s step next) {i : Nat}
    (spared : step.Spares i) : next.members[i]? = s.members[i]? := by
  cases moved with
  | pool action _ _ _ _ others _ _ => exact others i (spared _ action)
  | shared members names returned => rw [members]

/-- Whether a session has grown out of another: every registry of the other has its larger
version. -/
structure Extends (s next : Session) : Prop where
  names : NameTable.Extends s.names next.names
  members : ∀ (i : Nat) (m : Member), s.members[i]? = some m →
    ∃ m', next.members[i]? = some m' ∧ Grows (s.registry m) (next.registry m')

theorem extends_refl (s : Session) : Extends s s :=
  ⟨NameTable.extends_refl s.names, fun _ m held => ⟨m, held, Registry.grows_refl _⟩⟩

theorem extends_trans {s next last : Session} (first : Extends s next)
    (second : Extends next last) : Extends s last := by
  refine ⟨NameTable.extends_trans first.names second.names, ?_⟩
  intro i m held
  obtain ⟨m', held', grown⟩ := first.members i m held
  obtain ⟨m'', held'', grown'⟩ := second.members i m' held'
  exact ⟨m'', held'', Registry.grows_trans grown grown'⟩

/-- The registry of a pool grows with the shared names, if it uses them. -/
theorem grows_registry {s next : Session} (names : NameTable.Extends s.names next.names)
    (m : Member) : Grows (s.registry m) (next.registry m) := by
  obtain ⟨pool, ownNames, registers⟩ := m
  cases ownNames with
  | none => exact ⟨⟨names, Pool.extends_refl pool⟩, id⟩
  | some own => exact Registry.grows_refl _

theorem extends_of_moves {s next : Session} {step : Step} (moved : Moves s step next) :
    Extends s next := by
  cases moved with
  | @pool _ _ m' _ held held' grown _ others names _ =>
    refine ⟨names, ?_⟩
    intro i m other
    by_cases here : step.pool = i
    · subst here
      cases held.symm.trans other
      exact ⟨m', held', grown⟩
    · exact ⟨m, (others i here).trans other, grows_registry names m⟩
  | shared members names returned =>
    refine ⟨names, ?_⟩
    intro i m held
    exact ⟨m, members ▸ held, grows_registry names m⟩

/-- A pool that is canonical and can write the types in the registers. -/
structure Filled (reg : Registry) (registers : Array TypeId) : Prop where
  canonical : reg.pool.Canonical
  renders : ∀ id ∈ registers, reg.Renders id

theorem filled_grows {reg next : Registry} (grown : Grows reg next) {registers : Array TypeId}
    (filled : Filled reg registers) : Filled next registers where
  canonical := grown.canonical filled.canonical
  renders id member := Registry.renders_extends grown.larger (filled.renders id member)

/-- What holds of a session whose registers were filled by its steps. -/
structure Sound (s : Session) : Prop where
  members : ∀ (i : Nat) (m : Member), s.members[i]? = some m → Filled (s.registry m) m.registers
  spelled : ∀ name ∈ s.nameRegisters, ∃ spelling, s.names.spelling? name = some spelling

theorem sound_of_moves {s next : Session} {step : Step} (moved : Moves s step next)
    (sound : s.Sound) : next.Sound := by
  cases moved with
  | @pool _ m _ _ held held' grown returned others names nameRegisters =>
    constructor
    · intro i m'' held''
      by_cases here : step.pool = i
      · subst here
        cases held'.symm.trans held''
        have older := filled_grows grown (sound.members _ m held)
        refine ⟨older.canonical, ?_⟩
        intro id member
        rcases returned id member with old | new
        · exact older.renders id old
        · exact new
      · have kept := (others i here).symm.trans held''
        exact filled_grows (grows_registry names m'') (sound.members i m'' kept)
    · intro name member
      obtain ⟨spelling, known⟩ := sound.spelled name (nameRegisters ▸ member)
      exact ⟨spelling, names name spelling known⟩
  | shared members names returned =>
    constructor
    · intro i m held
      exact filled_grows (grows_registry names m) (sound.members i m (members ▸ held))
    · intro name member
      rcases returned name member with old | new
      · obtain ⟨spelling, known⟩ := sound.spelled name old
        exact ⟨spelling, names name spelling known⟩
      · exact new

/-! ### Whole runs -/

/-- The session that some steps leave behind. -/
def after (s : Session) (steps : List Step) : Session :=
  steps.foldl (fun s step => (s.run step).2) s

theorem runAll_after (s : Session) (steps : List Step) : (s.runAll steps).2 = s.after steps :=
  (List.foldl_hom Prod.snd fun _ _ => rfl).symm

theorem after_append (s : Session) (before later : List Step) :
    s.after (before ++ later) = (s.after before).after later := List.foldl_append

theorem extends_after (s : Session) (steps : List Step) : Extends s (s.after steps) := by
  induction steps generalizing s with
  | nil => exact extends_refl s
  | cons step steps ih => exact extends_trans (extends_of_moves (moves_run s step)) (ih _)

theorem sound_after {s : Session} (sound : s.Sound) (steps : List Step) : (s.after steps).Sound := by
  induction steps generalizing s with
  | nil => exact sound
  | cons step steps ih => exact ih (sound_of_moves (moves_run s step) sound)

theorem member_after (s : Session) {i : Nat} {steps : List Step}
    (spared : ∀ step ∈ steps, step.Spares i) : (s.after steps).members[i]? = s.members[i]? := by
  induction steps generalizing s with
  | nil => rfl
  | cons step steps ih =>
    have rest := ih (s.run step).2 fun other member => spared other (List.mem_cons_of_mem _ member)
    exact rest.trans (member_of_moves (moves_run s step) (spared step List.mem_cons_self))

/-- A session before its first step. Its name tables may have been used before. -/
structure Fresh (s : Session) : Prop where
  members : ∀ m ∈ s.members, m.pool = .empty ∧ m.registers = #[]
  nameRegisters : s.nameRegisters = #[]

theorem start_fresh (pools : Nat) (ownNames : Bool) (config : CastOptions) :
    (start pools ownNames config).Fresh := by
  refine ⟨?_, rfl⟩
  intro m member
  obtain ⟨i, _, rfl⟩ := Array.mem_map.mp member
  exact ⟨rfl, rfl⟩

theorem sound_of_fresh {s : Session} (fresh : s.Fresh) : s.Sound where
  members := by
    intro i m held
    obtain ⟨empty, registers⟩ := fresh.members m (Array.mem_of_getElem? held)
    constructor
    · rw [registry, empty]
      exact Pool.empty_canonical
    · rw [registers]
      exact fun id member => absurd member (Array.not_mem_empty id)
  spelled := by
    rw [fresh.nameRegisters]
    exact fun name member => absurd member (Array.not_mem_empty name)

/-- Whatever pools and tables there are and whatever is done with them, what a pool has answered
once it answers for ever, and steps that are not for it leave it as it is. -/
theorem answers_never_change {s : Session} (fresh : s.Fresh) (before later : List Step) :
    let now := (s.runAll before).2
    let next := (s.runAll (before ++ later)).2
    (∀ name ∈ now.nameRegisters, ∃ spelling, now.names.spelling? name = some spelling ∧
      next.names.spelling? name = some spelling) ∧
    ∀ (i : Nat) (m : Member), now.members[i]? = some m →
      ∃ m', next.members[i]? = some m' ∧
        (∀ id ∈ m.registers, (now.registry m).Renders id) ∧
        Keeps (now.registry m) (next.registry m') (now.registry m).Renders ∧
        ((∀ step ∈ later, step.Spares i) → m'.pool = m.pool) := by
  intro now next
  have reached : next = now.after later := by
    simp only [next, now, runAll_after, after_append]
  have sound : now.Sound := by
    simp only [now, runAll_after]
    exact sound_after (sound_of_fresh fresh) before
  have grown : Extends now next := reached ▸ extends_after now later
  constructor
  · intro name member
    obtain ⟨spelling, known⟩ := sound.spelled name member
    exact ⟨spelling, known, grown.names name spelling known⟩
  · intro i m held
    obtain ⟨m', held', larger⟩ := grown.members i m held
    have filled := sound.members i m held
    refine ⟨m', held', filled.renders, ?_, ?_⟩
    · exact Registry.keeps_of_extends larger.larger filled.canonical
        (larger.canonical filled.canonical)
    · intro spared
      have same := member_after now spared
      rw [← reached, held', held] at same
      cases same
      rfl

theorem class_outlasts_other_spelling :
    let s := start 2 false .strict
    let foo : Step := ⟨0, .onPool (.type (.declared "Foo"))⟩
    let other : Step := ⟨1, .onPool (.type (.declared "\\FOO"))⟩
    let now := (s.runAll [foo]).2
    let next := (s.runAll ([foo] ++ [other])).2
    ∃ m m' id text, now.members[0]? = some m ∧ next.members[0]? = some m' ∧
      m.registers = #[id] ∧ m'.pool = m.pool ∧
      (now.registry m).render? id = some text ∧ (next.registry m').render? id = some text := by
  intro s foo other now next
  let r := Registry.empty.internClass "Foo"
  obtain ⟨text, written⟩ : r.2.Renders r.1 := Registry.renders_internClass Registry.empty_closed _
  have filed : (TypeExpr.eval #[] (.declared "Foo")).run.run .empty = (.ok r.1, r.2) := by
    rw [TypeExpr.eval, Build.run_attempt, Registry.classOf, if_pos (by decide)]
  have ran : ∃ result, (s.evalPool ⟨.empty, none, #[]⟩ (.type (.declared "Foo"))).run.run
      (s.registry ⟨.empty, none, #[]⟩) = (.ok (result, some r.1), r.2) := by
    change ∃ _, (TypeExpr.eval #[] (.declared "Foo") >>= _).run.run .empty = _
    rw [Build.run_bind, filed]
    dsimp only
    rw [Build.run_bind, Build.render, Build.run_ask, written]
    exact ⟨_, rfl⟩
  have held : now.members[0]? = some ⟨r.2.pool, none, #[r.1]⟩ := by
    have first : s.members[0]? = some ⟨.empty, none, #[]⟩ := by simp [s, start]
    obtain ⟨result, ran⟩ := ran
    change (s.runPool 0 (.type (.declared "Foo"))).2.members[0]? = _
    rw [runPool_ok first ran]
    exact Array.getElem?_setIfInBounds_self_of_lt (Array.getElem?_eq_some_iff.mp first).1
  have spared : ∀ step ∈ [other], step.Spares 0 := by
    intro step member a _
    rw [List.mem_singleton.mp member]
    decide
  obtain ⟨_, kept⟩ := answers_never_change (start_fresh 2 false .strict) [foo] [other]
  obtain ⟨m', held', renders, keeps, untouched⟩ := kept 0 _ held
  obtain ⟨text, written⟩ := keeps.texts r.1 (renders _ (Array.mem_singleton_self _))
  exact ⟨_, m', r.1, _, held, held', rfl, untouched spared, written ""⟩
end Session
end TypeLattice
