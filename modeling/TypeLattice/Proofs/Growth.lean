import TypeLattice.CastTable
import TypeLattice.Description
import TypeLattice.Proofs.Denotation
import TypeLattice.Proofs.Reachable
import TypeLattice.TypeExpr

/-!
Computations only add to the registry that they run in, whether they succeed or fail: what was stored
stays as it was, and a canonical pool stays canonical. This holds of the single requests and is kept
when computations are put together.
-/
namespace TypeLattice

namespace Registry

structure Grows (reg next : Registry) : Prop where
  larger : Extends reg next
  canonical : reg.pool.Canonical → next.pool.Canonical

theorem grows_refl (reg : Registry) : Grows reg reg := ⟨extends_refl reg, id⟩

theorem grows_trans {reg next last : Registry} (first : Grows reg next)
    (second : Grows next last) : Grows reg last :=
  ⟨extends_trans first.larger second.larger, fun own => second.canonical (first.canonical own)⟩

theorem grows_intern (s : TypeShape) (reg : Registry) : Grows reg (reg.intern s).2 :=
  ⟨extends_intern reg s, fun own => Pool.intern_canonical own s⟩

theorem grows_internName (name : String) (reg : Registry) : Grows reg (reg.internName name).2 :=
  ⟨extends_internName reg name, id⟩

theorem grows_add (a : WrittenType) (reg : Registry) : Grows reg (reg.add a).2 :=
  ⟨extends_add a reg, fun own => add_canonical own a⟩

theorem grows_classOf (name : String) (reg : Registry) : Grows reg (reg.classOf name).2 := by
  unfold classOf
  split
  · exact grows_trans (grows_internName name reg) (grows_intern _ _)
  · exact grows_refl reg

theorem grows_parse (text : String) (reg : Registry) : Grows reg (reg.parse text).2 := by
  unfold parse
  dsimp only
  split
  · exact grows_add _ reg
  · rename_i f _
    cases f.complete with
    | none => exact grows_refl reg
    | some a => exact grows_add a reg

end Registry

namespace Build
variable {α β : Type}

/-- Whether a computation only adds to the registry. -/
def Grows (x : Build α) : Prop := ∀ reg, Registry.Grows reg (x.run.run reg).2

theorem grows_pure (a : α) : Grows (pure a) := Registry.grows_refl

theorem grows_throw (e : Fault) : Grows (throw e : Build α) := Registry.grows_refl

theorem grows_get : Grows (get : Build Registry) := Registry.grows_refl

theorem grows_bind {x : Build α} {g : α → Build β} (first : Grows x)
    (rest : ∀ a, Grows (g a)) : Grows (x >>= g) := by
  intro reg
  have begun := first reg
  rw [run_bind]
  split
  · rename_i a next ran
    rw [ran] at begun
    exact Registry.grows_trans begun (rest a next)
  · rename_i e next ran
    rw [ran] at begun
    exact begun

theorem grows_map {x : Build α} (f : α → β) (grown : Grows x) : Grows (f <$> x) := by
  rw [map_eq_pure_bind]
  exact grows_bind grown fun a => grows_pure (f a)

theorem grows_mapM {f : α → Build β} (grown : ∀ a, Grows (f a)) (xs : List α) :
    Grows (xs.mapM f) := by
  induction xs with
  | nil => exact grows_pure []
  | cons a xs ih =>
    rw [List.mapM_cons]
    exact grows_bind (grown a) fun b => grows_bind ih fun bs => grows_pure (b :: bs)

theorem grows_change {f : Registry → α × Registry}
    (grown : ∀ reg, Registry.Grows reg (f reg).2) : Grows (change f) := grown

theorem grows_attempt {ε : Type} (fault : ε → Fault) {f : Registry → Except ε α × Registry}
    (grown : ∀ reg, Registry.Grows reg (f reg).2) : Grows (attempt fault f) := by
  refine grows_bind (grows_change grown) ?_
  intro result
  cases result with
  | ok a => exact grows_pure a
  | error e => exact grows_throw (fault e)

theorem grows_ask (f : Registry → Option α) : Grows (ask f) := by
  intro reg
  rw [run_ask]
  cases f reg <;> exact Registry.grows_refl reg

theorem grows_derive (id : TypeId) (f : TypeShape → TypeShape) :
    Grows (changePool fun p => p.derive? id f) := by
  intro reg
  rw [run_derive]
  cases reg.pool.shape? id with
  | none => exact Registry.grows_refl reg
  | some s => exact Registry.grows_intern (f s) reg

theorem grows_derivePart (id : TypeId) (f : TypeShape → Option TypeShape) :
    Grows (changePool fun p => p.derivePart? id f) := by
  intro reg
  rw [run_derivePart]
  cases reg.pool.shape? id with
  | none => exact Registry.grows_refl reg
  | some s =>
    dsimp only
    cases f s with
    | none => exact Registry.grows_refl reg
    | some s => exact Registry.grows_intern s reg

theorem grows_instanceOf (kind : Kind NameId TypeId) (nullable : Bool) :
    Grows (instanceOf kind nullable) := grows_change (Registry.grows_intern _)

theorem grows_internName (name : String) : Grows (internName name) :=
  grows_change (Registry.grows_internName name)

theorem grows_array (nonEmpty : Bool) (key : ArrayKey) (elem : TypeId) :
    Grows (array nonEmpty key elem) := by
  intro reg
  rw [run_array]
  exact Registry.grows_intern _ reg

theorem grows_withNullable (id : TypeId) (nullable : Bool) : Grows (withNullable id nullable) :=
  grows_derive id _

theorem grows_truthy (id : TypeId) : Grows (truthy id) := grows_derive id _

theorem grows_objects? (id : TypeId) : Grows (objects? id) := grows_derivePart id _

theorem grows_arrays? (id : TypeId) : Grows (arrays? id) := grows_derivePart id _

theorem grows_renderPart (part : Option TypeId) : Grows (renderPart part) := by
  cases part with
  | none => exact grows_pure none
  | some id => exact grows_bind (grows_ask _) fun text => grows_pure (some text)

theorem grows_reread (id : TypeId) (text : String) : Grows (reread id text) := by
  refine grows_bind (grows_change (Registry.grows_parse text)) ?_
  intro result
  cases result with
  | ok again => exact grows_pure _
  | error e => exact grows_pure _

theorem grows_describe (id : TypeId) : Grows (describe id) := by
  have written (part : TypeId) : Grows (render part) := grows_ask _
  unfold describe
  refine grows_bind (written id) fun text => ?_
  refine grows_bind (grows_ask _) fun entry => ?_
  refine grows_bind (grows_truthy id) fun narrow => ?_
  refine grows_bind (grows_ask _) fun elem => grows_bind (grows_renderPart elem) fun _ => ?_
  dsimp only
  -- both ways of finding the class name go on with the same requests
  split
  on_goal 1 => refine grows_bind (grows_map some (grows_ask _)) fun className => ?_
  on_goal 2 => refine grows_bind (grows_pure none) fun className => ?_
  all_goals
    refine grows_bind (grows_reread id text) fun _ => ?_
    refine grows_bind (grows_withNullable id true) fun more => grows_bind (written more) fun _ => ?_
    refine grows_bind (grows_withNullable id false) fun less => grows_bind (written less) fun _ => ?_
    refine grows_bind (grows_objects? id) fun part => grows_bind (grows_renderPart part) fun _ => ?_
    refine grows_bind (grows_arrays? id) fun part => grows_bind (grows_renderPart part) fun _ => ?_
    refine grows_bind (grows_array false .int id) fun list => grows_bind (written list) fun _ => ?_
    refine grows_bind (grows_array false .empty id) fun list => grows_bind (written list) fun _ => ?_
    refine grows_bind (written narrow) fun _ => grows_bind (grows_truthy narrow) fun _ => ?_
    exact grows_pure _

theorem grows_castRow (config : CastOptions) (resolver : Resolver) (source target : TypeId) :
    Grows (castRow config resolver source target) := by
  have asked (pair : NameId × NameId) :
      Grows (return (← spelling pair.1, ← spelling pair.2)) :=
    grows_bind (grows_ask _) fun sub => grows_bind (grows_ask _) fun sup => grows_pure (sub, sup)
  unfold castRow
  refine grows_bind (grows_ask _) fun declared => ?_
  refine grows_bind (grows_ask _) fun _ => grows_bind (grows_ask _) fun _ => ?_
  refine grows_bind (grows_ask _) fun _ => grows_bind (grows_ask _) fun _ => ?_
  refine grows_bind (grows_mapM asked declared.asked) fun _ => ?_
  refine grows_bind (grows_ask _) fun _ => grows_bind (grows_ask _) fun _ => ?_
  exact grows_bind (grows_ask _) fun _ => grows_pure _

end Build

namespace Operation
open Build (grows_bind grows_pure)

/-- Every operation, admissible or not, only adds to a registry. -/
theorem grows_run (op : Operation) (reg : Registry) : Registry.Grows reg (op.run reg).2 := by
  suffices grown : op.program.Grows from grown reg
  cases op with
  | internName name => exact grows_bind (Build.grows_internName name) fun _ => grows_pure _
  | intern s => exact Build.grows_map some (Build.grows_change (Registry.grows_intern s))
  | instanceOf kind nullable => exact Build.grows_map some (Build.grows_instanceOf kind nullable)
  | array nonEmpty key elem => exact Build.grows_map some (Build.grows_array nonEmpty key elem)
  | classOf name => exact Build.grows_map some (Build.grows_attempt _ (Registry.grows_classOf name))
  | classNamed name => exact Build.grows_map some (Build.grows_instanceOf _ false)
  | withNullable id nullable => exact Build.grows_map some (Build.grows_withNullable id nullable)
  | truthy id => exact Build.grows_map some (Build.grows_truthy id)
  | objects id => exact Build.grows_objects? id
  | arrays id => exact Build.grows_arrays? id
  | parse text => exact Build.grows_map some (Build.grows_attempt _ (Registry.grows_parse text))

end Operation

theorem Registry.grows_after (reg : Registry) (ops : List Operation) :
    Grows reg (reg.after ops) := by
  induction ops generalizing reg with
  | nil => exact grows_refl reg
  | cons op ops ih => exact grows_trans (Operation.grows_run op reg) (ih _)

namespace TypeExpr
open Build (grows_bind grows_pure grows_throw)

theorem grows_part (part : Option TypeId) : (TypeExpr.part part).Grows := by
  cases part with
  | none => exact grows_throw .noSuchPart
  | some id => exact grows_pure id

theorem grows_readKey (key : Option Setting) : (readKey key).Grows := by
  unfold readKey
  split
  · exact grows_pure _
  · split
    · exact grows_pure _
    · exact grows_throw _

theorem grows_wrapTimes (nonEmpty : Bool) (key : ArrayKey) (times : Nat) (r : TypeId × Registry) :
    Registry.Grows r.2 (wrapTimes nonEmpty key times r).2 := by
  induction times generalizing r with
  | zero => exact Registry.grows_refl r.2
  | succ times ih => exact Registry.grows_trans (Registry.grows_intern _ r.2) (ih _)

theorem grows_eval (registers : Array TypeId) (t : TypeExpr) : (t.eval registers).Grows := by
  induction t with
  | written text => exact Build.grows_attempt _ (Registry.grows_parse text)
  | register index =>
    unfold eval
    cases registers[index % registers.size]? with
    | none => exact grows_throw .noSuchPlace
    | some id => exact grows_pure id
  | packed id => exact grows_pure id.toTypeId
  | declared name | vouched name => exact Build.grows_attempt _ (Registry.grows_classOf name)
  | ofKeyword word nullable =>
    unfold eval
    cases BasicKind.ofKeyword? word with
    | none => exact grows_throw .unknownKeyword
    | some b => exact Build.grows_instanceOf _ _
  | ofClass name nullable =>
    refine grows_bind (grows_bind (Build.grows_internName name) fun id => grows_pure _) fun kind => ?_
    exact Build.grows_instanceOf kind nullable
  | ofArray nonEmpty t key nullable ih =>
    refine grows_bind ih fun id => grows_bind (grows_readKey key) fun key => ?_
    exact Build.grows_instanceOf _ nullable
  | withNullable t nullable ih => exact grows_bind ih fun id => Build.grows_withNullable id nullable
  | truthy t ih => exact grows_bind ih fun id => Build.grows_truthy id
  | objects t ih =>
    exact grows_bind ih fun id => grows_bind (Build.grows_objects? id) fun part => grows_part part
  | arrays t ih =>
    exact grows_bind ih fun id => grows_bind (Build.grows_arrays? id) fun part => grows_part part
  | elem t ih =>
    exact grows_bind ih fun id => grows_bind (Build.grows_ask _) fun part => grows_part part
  | wrapped times nonEmpty t key ih =>
    refine grows_bind ih fun id => grows_bind (grows_readKey key) fun key => ?_
    exact Build.grows_change fun reg => grows_wrapTimes nonEmpty key times (id, reg)

end TypeExpr
end TypeLattice
