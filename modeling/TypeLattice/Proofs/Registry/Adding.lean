import TypeLattice.Proofs.Pool.Requests
import TypeLattice.Registry

/-!
Adding an annotation, told along its tree: the element of an array is added before the array, and
a type with a question mark after the same type without it. The requests that reach the pool are
listed along the same recursion.
-/
namespace TypeLattice.Registry

theorem addInside_eq_wrap (layers : List ArrayLayer) (a : WrittenType) (reg : Registry) :
    reg.addInside layers a = wrap layers (reg.add a) := by
  induction a generalizing layers with
  | basic nullable b => rfl
  | instanceOf nullable name => rfl
  | array nullable nonEmpty key elem ih => rw [add, addInside, addInside, ih, ih [_]]; rfl

theorem add_instanceOf (nullable : Bool) (name : String) (reg : Registry) :
    reg.add (.instanceOf nullable name) =
      (reg.internName name).2.internMarked nullable (.instanceOf (reg.internName name).1) := rfl

theorem add_array (nullable nonEmpty : Bool) (key : ArrayKey) (elem : WrittenType)
    (reg : Registry) :
    reg.add (.array nullable nonEmpty key elem) =
      (reg.add elem).2.internMarked nullable (.array nonEmpty key (reg.add elem).1) := by
  rw [add, addInside, addInside_eq_wrap]
  rfl

theorem names_internMarked (reg : Registry) (nullable : Bool) (kind : Kind NameId TypeId) :
    (reg.internMarked nullable kind).2.names = reg.names := by
  cases nullable <;> rfl

def markedRequests (nullable : Bool) (kind : Kind NameId TypeId) : List TypeShape :=
  .of kind false :: if nullable then [(Shape.of kind false).withNullable true] else []

/-- The shapes that an annotation asks for, in order. -/
def addRequests (reg : Registry) : WrittenType → List TypeShape
  | .basic nullable b => markedRequests nullable (.basic b)
  | .instanceOf nullable name => markedRequests nullable (.instanceOf (reg.internName name).1)
  | .array nullable nonEmpty key elem =>
    reg.addRequests elem ++ markedRequests nullable (.array nonEmpty key (reg.add elem).1)

/-- A change of a registry serves some requests and returns the last answer. -/
def Serves (reg : Registry) (shapes : List TypeShape) (r : TypeId × Registry) : Prop :=
  r.2.pool = (reg.pool.serve shapes).2 ∧
    ∃ q, (reg.pool.serve shapes).1.getLast? = some q ∧ q.answer = r.1

theorem intern_serves (reg : Registry) (s : TypeShape) : reg.Serves [s] (reg.intern s) :=
  ⟨rfl, ⟨s, (reg.pool.intern s).1⟩, rfl, rfl⟩

theorem serves_after {reg : Registry} {front back : List TypeShape} {first r : TypeId × Registry}
    (begun : reg.Serves front first) (done : first.2.Serves back r) :
    reg.Serves (front ++ back) r := by
  obtain ⟨pool, q, last, answer⟩ := done
  rw [begun.1] at pool last
  rw [Serves, Pool.serve_append]
  exact ⟨pool, q, List.mem_getLast?_append_of_mem_getLast? last, answer⟩

theorem internMarked_serves (nullable : Bool) (kind : Kind NameId TypeId) (reg : Registry) :
    reg.Serves (markedRequests nullable kind) (reg.internMarked nullable kind) := by
  cases nullable with
  | false => exact intern_serves reg _
  | true => exact serves_after (intern_serves reg _) (intern_serves _ _)

theorem add_serves (a : WrittenType) (reg : Registry) :
    reg.Serves (reg.addRequests a) (reg.add a) := by
  induction a with
  | basic nullable b => exact internMarked_serves nullable (.basic b) reg
  | instanceOf nullable name => exact internMarked_serves nullable _ (reg.internName name).2
  | array nullable nonEmpty key elem ih =>
    rw [add_array]
    exact serves_after ih (internMarked_serves nullable _ _)

end TypeLattice.Registry
