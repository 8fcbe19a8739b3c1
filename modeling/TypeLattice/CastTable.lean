import TypeLattice.Build
import TypeLattice.Cast.Overlap

/-!
Tables of casts: every question that can be asked about one source and some targets.
-/
namespace TypeLattice

/-- The answers for one target. `strict` goes without the configuration, `nonNull` leaves null
aside, and `asked` lists the classes that the declared cast wanted to have related. -/
structure CastRow where
  cast : Bool
  strict : Bool
  nonNull : Bool
  nonNullStrict : Bool
  declared : Bool
  asked : List (String × String)
  undeclared : Bool
  overlaps : Bool
  overlapped : Bool
  same : Bool
  deriving DecidableEq, Repr

namespace Build

def castRow (config : CastOptions) (resolver : Resolver) (source target : TypeId) :
    Build CastRow := do
  let question (f : Pool → TypeId → TypeId → Option Answer) : Build Answer :=
    ask fun reg => f reg.pool source target
  let rules : Rules := ⟨some config, none⟩
  let declared ← question fun p => p.castDeclared? config resolver
  return {
    cast := (← question fun p => p.cast? rules).holds
    strict := (← question fun p => p.cast? .strict).holds
    nonNull := (← question fun p => p.castNonNull? rules).holds
    nonNullStrict := (← question fun p => p.castNonNull? .strict).holds
    declared := declared.holds
    asked := ← declared.asked.mapM fun (sub, sup) => return (← spelling sub, ← spelling sup)
    undeclared := (← question fun p => p.castDeclared? config sameClass).holds
    overlaps := ← ask fun reg => reg.pool.overlaps? source target
    overlapped := ← ask fun reg => reg.pool.overlaps? target source
    same := source == target }

end Build
end TypeLattice
