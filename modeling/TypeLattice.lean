import TypeLattice.Session
import TypeLattice.Proofs.Table
import TypeLattice.Proofs.Shape
import TypeLattice.Proofs.Pool.Canonical
import TypeLattice.Proofs.Pool.Requests
import TypeLattice.Proofs.Pool.Related
import TypeLattice.Proofs.Registry.Adding
import TypeLattice.Proofs.Build
import TypeLattice.Proofs.Operation
import TypeLattice.Proofs.Interning
import TypeLattice.Proofs.Names
import TypeLattice.Proofs.Registry.Closed
import TypeLattice.Proofs.Registry.Parts
import TypeLattice.Proofs.Reachable
import TypeLattice.Proofs.Terms
import TypeLattice.Proofs.Pool.Terms
import TypeLattice.Proofs.Grammar
import TypeLattice.Proofs.Grammar.Reading
import TypeLattice.Proofs.Grammar.Printing
import TypeLattice.Proofs.Denotation
import TypeLattice.Proofs.Rendering
import TypeLattice.Proofs.Terms.Cast
import TypeLattice.Proofs.Registry.Trees
import TypeLattice.Proofs.Cast
import TypeLattice.Proofs.Hierarchy
import TypeLattice.Proofs.Hierarchy.Declarations
import TypeLattice.Proofs.Terms.Order
import TypeLattice.Proofs.Terms.Values
import TypeLattice.Proofs.Terms.Narrowing
import TypeLattice.Proofs.CastLaws
import TypeLattice.Proofs.Grammar.Progress
import TypeLattice.Proofs.Grammar.Failing
import TypeLattice.Proofs.Grammar.Pieces
import TypeLattice.Proofs.ParseErrors
import TypeLattice.Proofs.Answers
import TypeLattice.Proofs.Growth
import TypeLattice.Proofs.Sessions
import TypeLattice.Proofs.Outcomes
import TypeLattice.Proofs.Widening
import TypeLattice.Proofs.Wrapping
import TypeLattice.Proofs.Pool.History
import TypeLattice.Proofs.Table.Keys
import TypeLattice.Proofs.Names.Identity
import TypeLattice.Proofs.Terms.NullFlow
import TypeLattice.Proofs.NullFlow
import TypeLattice.Proofs.Grammar.Legibility
import TypeLattice.Proofs.Legibility
import TypeLattice.Proofs.ClassNames
import TypeLattice.Proofs.Totality
import TypeLattice.Proofs.Narrowing
import TypeLattice.Proofs.Terms.Overlap
import TypeLattice.Proofs.Overlap
import TypeLattice.Proofs.Terms.CommonValues
import TypeLattice.Proofs.CommonValues
import TypeLattice.Proofs.Nullability
import TypeLattice.Proofs.Terms.Truth
import TypeLattice.Proofs.Truth
import TypeLattice.Proofs.Terms.Projection
import TypeLattice.Proofs.Projection
import TypeLattice.Proofs.NullAside
import TypeLattice.Proofs.RuleFree
import TypeLattice.Proofs.Footprint
import TypeLattice.Proofs.Rereading
import TypeLattice.Proofs.Names.Spelling
import TypeLattice.Proofs.Naming
import TypeLattice.Proofs.ClassIdentity
import TypeLattice.Proofs.PackedId
