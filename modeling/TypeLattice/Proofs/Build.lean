import TypeLattice.Build

/-!
Running computations on a registry: the result of each building block and the registry it leaves.
-/
namespace TypeLattice.Build
variable {α β : Type}

theorem run_bind (x : Build α) (g : α → Build β) (reg : Registry) :
    (x >>= g).run.run reg = match x.run.run reg with
      | (.ok a, next) => (g a).run.run next
      | (.error e, next) => (.error e, next) := by
  unfold ExceptT.run StateT.run
  simp only [bind, ExceptT.bind, ExceptT.mk, StateT.bind, ExceptT.bindCont]
  cases x reg with
  | mk result next => cases result <;> rfl

/-- A sequence that succeeds succeeds in both parts. -/
theorem ok_of_bind {x : Build α} {g : α → Build β} {reg next : Registry} {b : β}
    (ran : (x >>= g).run.run reg = (.ok b, next)) :
    ∃ a middle, x.run.run reg = (.ok a, middle) ∧ (g a).run.run middle = (.ok b, next) := by
  rw [run_bind] at ran
  split at ran
  · rename_i a middle first
    exact ⟨a, middle, first, ran⟩
  · cases ran

theorem run_change (f : Registry → α × Registry) (reg : Registry) :
    (change f).run.run reg = (.ok (f reg).1, (f reg).2) := rfl

theorem run_attempt {ε : Type} (fault : ε → Fault) (f : Registry → Except ε α × Registry)
    (reg : Registry) :
    (attempt fault f).run.run reg = match f reg with
      | (.ok a, next) => (.ok a, next)
      | (.error e, next) => (.error (fault e), next) := by
  rw [attempt, run_bind, run_change]
  cases f reg with
  | mk result next => cases result <;> rfl

theorem run_ask (f : Registry → Option α) (reg : Registry) :
    (ask f).run.run reg = match f reg with
      | some a => (.ok a, reg)
      | none => (.error (.misuse none), reg) := by
  rw [ask, run_bind]
  change (match f reg with | some a => (pure a : Build α) | none => throw _).run.run reg = _
  cases f reg <;> rfl

theorem ok_of_ask {f : Registry → Option α} {reg next : Registry} {a : α}
    (ran : (ask f).run.run reg = (.ok a, next)) : f reg = some a ∧ next = reg := by
  rw [run_ask] at ran
  cases answered : f reg with
  | none =>
    rw [answered] at ran
    cases ran
  | some b =>
    rw [answered] at ran
    cases ran
    exact ⟨rfl, rfl⟩

theorem run_changePool (f : Pool → Option (α × Pool)) (reg : Registry) :
    (changePool f).run.run reg = match f reg.pool with
      | some r => (.ok r.1, ⟨reg.names, r.2⟩)
      | none => (.error (.misuse none), reg) := by
  rw [changePool, run_bind, run_ask]
  cases f reg.pool <;> rfl

theorem run_array (nonEmpty : Bool) (key : ArrayKey) (elem : TypeId) (reg : Registry) :
    (array nonEmpty key elem).run.run reg =
      (.ok (reg.intern (.of (.array nonEmpty key elem) false)).1,
        (reg.intern (.of (.array nonEmpty key elem) false)).2) :=
  run_changePool _ reg

theorem run_derive (id : TypeId) (f : TypeShape → TypeShape) (reg : Registry) :
    (changePool fun p => p.derive? id f).run.run reg = match reg.pool.shape? id with
      | some s => (.ok (reg.intern (f s)).1, (reg.intern (f s)).2)
      | none => (.error (.misuse none), reg) := by
  rw [run_changePool, Pool.derive?]
  cases reg.pool.shape? id <;> rfl

theorem run_derivePart (id : TypeId) (f : TypeShape → Option TypeShape) (reg : Registry) :
    (changePool fun p => p.derivePart? id f).run.run reg = match reg.pool.shape? id with
      | some s => match f s with
        | some s => (.ok (some (reg.intern s).1), (reg.intern s).2)
        | none => (.ok none, reg)
      | none => (.error (.misuse none), reg) := by
  rw [run_changePool, Pool.derivePart?]
  cases reg.pool.shape? id with
  | none => rfl
  | some s => dsimp only [Option.map_some]; cases f s <;> rfl

end TypeLattice.Build
