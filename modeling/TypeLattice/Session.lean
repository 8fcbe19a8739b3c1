import TypeLattice.CastTable
import TypeLattice.Description
import TypeLattice.TypeExpr

/-!
Sessions: pools that are used side by side. The pools share the name table of the session, or
some have a table of their own. The class hierarchy, the configuration and the name registers
belong to the session and use the shared table. A session runs one step after another, and a step
that fails leaves behind what it had interned.
-/
namespace TypeLattice

/-- A pool with the types built in it and, unless it uses the shared one, its name table. -/
structure Member where
  pool : Pool
  ownNames : Option NameTable
  registers : Array TypeId

structure Session where
  names : NameTable
  members : Array Member
  hierarchy : Hierarchy
  config : CastOptions
  nameRegisters : Array NameId

inductive PoolAction where
  | type (t : TypeExpr)
  | describe (t : TypeExpr)
  | format (t : TypeExpr) (before : String)
  | state
  | cast (source : TypeExpr) (targets : List TypeExpr)

inductive SharedAction where
  | internName (name : String)
  | declareParent (child parent : String)
  | listParents (child : String)
  | isSubclass (sub sup : String)
  | setConfig (config : Setting)

inductive Action where
  | onPool (a : PoolAction)
  | onShared (a : SharedAction)

/-- An action, and the pool that it is for or whose size is asked for with it. -/
structure Step where
  pool : Nat
  action : Action

inductive Result where
  | type (text : String) (register same : Nat)
  | description (d : Description)
  | text (text : String)
  | name (spelling : String) (same : Nat)
  | parents (spellings : List String)
  | subclass (inHierarchy undeclared : Bool)
  | config (c : CastOptions)
  | state (empty noNames : Bool) (contents caster : String)
  | casts (rows : List CastRow) (any : Bool)

/-- What a step came to, and the number of types and names in its pool afterwards. -/
structure Reply where
  result : Except Fault Result
  types : Nat
  names : Nat

def Pool.toText (p : Pool) : String := "Pool \x7b len: " ++ toString p.size ++ " \x7d"

def NameTable.toText (t : NameTable) : String :=
  "SharedNameTable \x7b len: " ++ toString t.size ++ " \x7d"

def castText (p : Pool) (config : CastOptions) : String :=
  "Caster \x7b pool: " ++ p.toText ++ ", config: " ++ config.toText ++ " \x7d"

namespace Session

/-- A session with `pools` fresh pools. With `ownNames` set, only the first uses the shared
table. -/
def start (pools : Nat) (ownNames : Bool) (config : CastOptions) : Session where
  names := .empty
  members := (Array.range pools).map fun i =>
    ⟨.empty, if ownNames && i != 0 then some .empty else none, #[]⟩
  hierarchy := .empty
  config := config
  nameRegisters := #[]

def registry (s : Session) (m : Member) : Registry := ⟨m.ownNames.getD s.names, m.pool⟩

def update (s : Session) (i : Nat) (m : Member) (reg : Registry) : Session :=
  match m.ownNames with
  | none =>
    { s with names := reg.names, members := s.members.setIfInBounds i { m with pool := reg.pool } }
  | some _ =>
    { s with members :=
        s.members.setIfInBounds i { m with pool := reg.pool, ownNames := some reg.names } }

def spelling? (s : Session) (name : NameId) : Option String := s.names.spelling? name

/-- The hierarchy as a member sees it. A class from another name table is looked up in the shared
one, and is unrelated to every other class if it is not there. -/
def resolver (s : Session) (m : Member) : Resolver :=
  match m.ownNames with
  | none => s.hierarchy.isSubclass
  | some own => fun sub sup =>
    let shared? (name : NameId) : Option NameId := do
      s.names.find? ("\\" ++ (← own.spelling? name))
    match shared? sub, shared? sup with
    | some sub, some sup => s.hierarchy.isSubclass sub sup
    | _, _ => sub == sup

/-- The result of an action in the pool of a member, and the type it adds to the registers. -/
def evalPool (s : Session) (m : Member) : PoolAction → Build (Result × Option TypeId)
  | .type t => do
    let id ← t.eval m.registers
    let text ← Build.render id
    let n := m.registers.size
    return (.type text n ((m.registers.idxOf? id).getD n), some id)
  | .describe t => do return (.description (← Build.describe (← t.eval m.registers)), none)
  | .format t before => do
    let id ← t.eval m.registers
    return (.text (← Build.ask fun reg => reg.write? id before), none)
  | .state => do
    let reg ← get
    let contents := "SharedPool(" ++ reg.pool.toText ++ ") " ++ reg.names.toText
    return (.state reg.pool.isEmpty (reg.names.size == 0) contents (castText reg.pool s.config),
      none)
  | .cast source targets => do
    let source ← source.eval m.registers
    let targets ← targets.mapM fun t => t.eval m.registers
    let rows ← targets.mapM fun t => Build.castRow s.config (s.resolver m) source t
    let any ← Build.ask fun reg => reg.pool.castAny? ⟨some s.config, none⟩ source targets
    return (.casts rows any, none)

def runPool (s : Session) (i : Nat) (a : PoolAction) : Except Fault Result × Session :=
  match s.members[i]? with
  | none => (.error .noSuchPlace, s)
  | some m =>
    let (result, reg) := (s.evalPool m a).run.run (s.registry m)
    match result with
    | .ok (result, register) =>
      let m := { m with registers := register.elim m.registers m.registers.push }
      (.ok result, s.update i m reg)
    | .error e => (.error e, s.update i m reg)

def internName (s : Session) (name : String) : NameId × Session :=
  let r := s.names.intern name
  (r.1, { s with names := r.2 })

def parentsOf (s : Session) (child : NameId) : List String :=
  (s.hierarchy.parentsOf child).filterMap s.spelling?

def runShared (s : Session) : SharedAction → Except Fault Result × Session
  | .internName name =>
    let (id, s) := s.internName name
    let n := s.nameRegisters.size
    match s.spelling? id with
    | some spelling =>
      (.ok (.name spelling ((s.nameRegisters.idxOf? id).getD n)),
        { s with nameRegisters := s.nameRegisters.push id })
    | none => (.error (.misuse none), s)
  | .declareParent child parent =>
    let (child, s) := s.internName child
    let (parent, s) := s.internName parent
    let s := { s with hierarchy := s.hierarchy.declare child parent }
    (.ok (.parents (s.parentsOf child)), s)
  | .listParents child =>
    let (child, s) := s.internName child
    (.ok (.parents (s.parentsOf child)), s)
  | .isSubclass sub sup =>
    let (sub, s) := s.internName sub
    let (sup, s) := s.internName sup
    (.ok (.subclass (s.hierarchy.isSubclass sub sup) (sameClass sub sup)), s)
  | .setConfig config =>
    match CastOptions.ofSetting? config with
    | some c => (.ok (.config c), { s with config := c })
    | none => (.error .unknownConfig, s)

def run (s : Session) (step : Step) : Reply × Session :=
  let (result, s) := match step.action with
    | .onPool a => s.runPool step.pool a
    | .onShared a => s.runShared a
  let reg := s.members[step.pool]?.elim Registry.empty s.registry
  (⟨result, reg.pool.size, reg.names.size⟩, s)

def runAll (s : Session) (steps : List Step) : List Reply × Session :=
  let r := steps.foldl (fun (acc : List Reply × Session) step =>
    let r := acc.2.run step
    (r.1 :: acc.1, r.2)) ([], s)
  (r.1.reverse, r.2)

end Session
end TypeLattice
