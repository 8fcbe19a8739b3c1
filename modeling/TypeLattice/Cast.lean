import TypeLattice.Cast.Options
import TypeLattice.Hierarchy
import TypeLattice.Pool

/-!
Casts: whether every value of one type may flow where another type is required.

The mixed kinds decide for themselves, the truthy ones by truthiness alone. Every other source
first settles null and then compares its structure with the target. Arrays are compared by their
keys and then by their elements, one level further down. Only the last step between two classes
may ask a resolver.
-/
namespace TypeLattice

/-- The rules of one question. Without a configuration nothing is loosened, and without a
resolver different classes are unrelated. -/
structure Rules where
  config : Option CastOptions
  resolver : Option Resolver

namespace Rules

def strict : Rules := ⟨none, none⟩

def nullFlows (r : Rules) : Bool := r.config.any (·.nullFlows)

def scalarsFlow (r : Rules) : Bool := r.config.any (·.scalarsFlow)

end Rules

/-- The answer to a question, with the pairs of classes the resolver was asked about. -/
structure Answer where
  holds : Bool
  asked : List (NameId × NameId)
  deriving DecidableEq, Repr

def Answer.settled (holds : Bool) : Answer := ⟨holds, []⟩

/-- What remains to be found out after one level of two types was compared. -/
inductive Comparison where
  | settled (holds : Bool)
  | classes (sub sup : NameId)
  | elements (source target : TypeId)
  deriving DecidableEq, Repr

/-- Whether one scalar kind is part of another under any rules. -/
def BasicKind.widens : BasicKind → BasicKind → Bool
  | .onlyTrue, .bool | .onlyFalse, .bool | .nonZeroInt, .int | .nonZeroInt, .float
  | .int, .float => true
  | source, target => source == target

/-- Whether a mixed target takes a source that is neither mixed nor null. Other targets do not
say. -/
def Entry.takesAsMixed? (target source : Entry) : Option Bool :=
  match target.shape.kind with
  | .basic .mixed | .basic .nonNullMixed => some true
  | .basic .nonEmptyMixed | .basic .nonNullNonEmptyMixed => some source.flags.possiblyTruthy
  | _ => none

namespace Rules

/-- The part of a cast that null decides. There is no answer when the structure has to. -/
def compareNull (r : Rules) (source target : Entry) : Option Bool :=
  match source.shape.kind with
  | .basic .nonEmptyMixed =>
    some (target.flags.possiblyTruthy || (source.shape.nullable && target.flags.nullable))
  | .basic .mixed | .basic .nonNullMixed | .basic .nonNullNonEmptyMixed | .basic .never => none
  | _ =>
    if source.shape.allowsNull && !target.flags.nullable && !r.nullFlows then some false else none

/-- Compares a source that is neither mixed nor null with a target that is not mixed. -/
def comparePlain (r : Rules) (source target : Entry) : Comparison :=
  match source.shape.kind, target.shape.kind with
  | .basic .object, .basic .object | .basic .object, .instanceOf _
  | .instanceOf _, .basic .object => .settled true
  | .basic .object, _ => .settled false
  | .basic b, .basic c => .settled (b.widens c || (r.scalarsFlow && target.flags.isScalar))
  | .instanceOf sub, .instanceOf sup => if sub = sup then .settled true else .classes sub sup
  | .array nonEmpty key elem, .array nonEmpty' key' elem' =>
    if (nonEmpty || !nonEmpty') && key'.admits key then .elements elem elem' else .settled false
  | _, _ => .settled false

def compare (r : Rules) (source target : Entry) : Comparison :=
  match source.shape.kind with
  | .basic .nonEmptyMixed | .basic .nonNullNonEmptyMixed => .settled target.flags.possiblyTruthy
  | .basic .mixed | .basic .never => .settled true
  | .basic .nonNullMixed =>
    .settled (target.shape.kind != .basic .null && target.shape.kind != .basic .never)
  | .basic .null => .settled (r.nullFlows || target.flags.nullable)
  | _ =>
    match target.takesAsMixed? source with
    | some holds => .settled holds
    | none => r.comparePlain source target

def relate (r : Rules) (sub sup : NameId) : Answer :=
  match r.resolver with
  | none => .settled false
  | some resolver => ⟨resolver sub sup, [(sub, sup)]⟩

end Rules

namespace Pool

/-- Descends through the elements of two types. With `whole` set, identical types and null are
looked at before the structure. There is no answer for an identifier of another pool. -/
def castFrom? (p : Pool) (r : Rules) (whole : Bool) (source target : TypeId) : Option Answer :=
  if whole && source == target then some (.settled true)
  else match p.entry? source, p.entry? target with
    | some src, some dst =>
      match if whole then r.compareNull src dst else none with
      | some holds => some (.settled holds)
      | none =>
        match r.compare src dst with
        | .settled holds => some (.settled holds)
        | .classes sub sup => some (r.relate sub sup)
        | .elements elem elem' =>
          if _older : elem.age < source.age then p.castFrom? r true elem elem' else none
    | _, _ => none
termination_by source.age

def cast? (p : Pool) (r : Rules) (source target : TypeId) : Option Answer :=
  p.castFrom? r true source target

/-- The same question once the caller has dealt with null. -/
def castNonNull? (p : Pool) (r : Rules) (source target : TypeId) : Option Answer :=
  p.castFrom? r false source target

def castAny? (p : Pool) (r : Rules) (source : TypeId) : List TypeId → Option Bool
  | [] => some false
  | target :: targets =>
    match p.cast? r source target with
    | some answer => if answer.holds then some true else p.castAny? r source targets
    | none => none

def castDeclared? (p : Pool) (config : CastOptions) (resolver : Resolver) (source target : TypeId) :
    Option Answer :=
  match p.entry? source with
  | none => none
  | some src =>
    if src.shape.kind = .basic .nonEmptyMixed then
      (p.entry? target).map fun dst => .settled dst.flags.possiblyTruthy
    else p.cast? ⟨some config, some resolver⟩ source target

end Pool
end TypeLattice
