import Assignability.Decimal.Reader
import Assignability.Diagnosis.Explain
import Assignability.Diagnosis.Render
import Assignability.Expr.Build
import Assignability.Relation.Relate
import Assignability.Text.Quoted
import Assignability.Proofs.Query.Eval
import Assignability.Proofs.Query.Positive
import Assignability.Proofs.Query.Scoped
import Assignability.Proofs.Relation.Part
import Assignability.Proofs.Relation.Largest
import Assignability.Proofs.Relation.Dispatch
import Assignability.Proofs.Relation.Closed
import Assignability.Proofs.Checker.Frame
import Assignability.Proofs.Checker.Verdicts
import Assignability.Proofs.Checker.Settled
import Assignability.Proofs.Checker.Finding
import Assignability.Proofs.Checker.Limits
import Assignability.Proofs.Relation.Brand
import Assignability.Proofs.Relation.IndexSignature
import Assignability.Proofs.Relation.Plain
import Assignability.Proofs.Relation.Transitive
import Assignability.Proofs.Value.Basic
import Assignability.Proofs.Value.Soundness
import Assignability.Proofs.Store.Listing
import Assignability.Proofs.Store.Growth
import Assignability.Proofs.Checker.Snapshot
import Assignability.Proofs.Relation.Recursive
import Assignability.Proofs.Checker.Equivalence
import Assignability.Proofs.Store.History
import Assignability.Proofs.Query.Steady
import Assignability.Proofs.Relation.Steady
import Assignability.Proofs.Checker.Replay
import Assignability.Proofs.Checker.Decided
import Assignability.Proofs.Store.Normal
import Assignability.Proofs.Relation.KeyType
import Assignability.Proofs.Relation.Strictness
import Assignability.Proofs.Relation.Nested
import Assignability.Proofs.Relation.Lattice
import Assignability.Proofs.Store.Shapes
import Assignability.Proofs.Relation.Copy
import Assignability.Proofs.Checker.Budget
import Assignability.Proofs.Store.Interning
import Assignability.Proofs.Store.Grouping
import Assignability.Proofs.Query.Parallel
import Assignability.Proofs.Store.Naming
import Assignability.Proofs.Relation.Mirror
import Assignability.Proofs.Relation.Renumbering
import Assignability.Proofs.Store.Showing
import Assignability.Proofs.Expr.Making
import Assignability.Proofs.Expr.Reordering
import Assignability.Proofs.Checker.Idle
import Assignability.Proofs.Relation.LazyNode
import Assignability.Proofs.Diagnosis.Steady
import Assignability.Proofs.Diagnosis.Frame
import Assignability.Proofs.Diagnosis.Scope
import Assignability.Proofs.Diagnosis.Right
import Assignability.Proofs.Diagnosis.Snapshot
import Assignability.Proofs.Diagnosis.Kept
import Assignability.Proofs.Diagnosis.Blame
import Assignability.Proofs.Diagnosis.Presented
import Assignability.Proofs.Diagnosis.Ending
import Assignability.Proofs.Diagnosis.First
import Assignability.Proofs.Diagnosis.Object
import Assignability.Proofs.Diagnosis.Position
import Assignability.Proofs.Diagnosis.Chase
import Assignability.Proofs.Diagnosis.BrandLayer
import Assignability.Proofs.Walk.Assertion
import Assignability.Proofs.Walk.Checking
import Assignability.Proofs.Walk.Printing
import Assignability.Proofs.Walk.Session
import Assignability.Proofs.Relation.Leaf
import Assignability.Proofs.Relation.TruthValues
import Assignability.Proofs.Relation.KeySet
import Assignability.Proofs.Relation.FiniteRecord
import Assignability.Proofs.Relation.Together
import Assignability.Proofs.Relation.Merged
import Assignability.Proofs.Relation.OpenTuple
import Assignability.Proofs.Checker.Top
import Assignability.Proofs.Checker.LiteralSet
import Assignability.Proofs.Store.LiteralsOf
import Assignability.Proofs.Relation.LiteralUnion
import Assignability.Proofs.Relation.Resting
import Assignability.Proofs.Store.Declared
import Assignability.Proofs.Store.Resolution
import Assignability.Proofs.Store.Layers
import Assignability.Proofs.Walk.KeptPrinter
import Assignability.Proofs.Walk.Operands
import Assignability.Proofs.Atom.Naming
import Assignability.Proofs.Walk.Guard
import Assignability.Proofs.Relation.FieldName
import Assignability.Proofs.Relation.KeyViews
