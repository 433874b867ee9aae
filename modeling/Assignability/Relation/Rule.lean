/-
  Assignability.Relation.Rule
  ───────────────────────────
  **WHICH CONSTRUCTORS RELATE.**

  When unions, intersections, brands and lazy nodes are out of the way,
  the constructors of the two sides decide: the table gives the rule by
  which the parts are compared, and a pair that is not in it is unrelated.
  Each rule compares its parts in the direction of their variance.
-/
import Assignability.Descriptor.Node

namespace Assignability

/-- The direction in which parts are compared. -/
inductive Variance where
  /-- From source to target. -/
  | covariant
  /-- From target to source. -/
  | contravariant
  /-- Both ways. -/
  | invariant
  deriving DecidableEq, Repr

/-- How the parts of two descriptors are compared. -/
inductive Rule where
  /-- A literal widens to its primitive. -/
  | literalToPrimitive
  | array
  | tuple
  /-- Every item fits the element. -/
  | tupleToArray
  /-- The element fits the rest of a tuple without items. -/
  | arrayToTuple
  /-- Field by field; the source may have more. -/
  | object
  /-- The fields against the key and value of a record. -/
  | objectToRecord
  /-- The value against the fields that the key names. -/
  | recordToObject
  | record
  | promise
  | set
  | map
  | function
  deriving DecidableEq, Repr

namespace Rule

/-- The variances of the parts that a rule compares: of a function its parameters and its result,
of a map its keys and its values. -/
def variances : Rule → List Variance
  | literalToPrimitive => []
  | set => [.invariant]
  | map => [.invariant, .invariant]
  | function => [.contravariant, .covariant]
  | _ => [.covariant]

/-- The variance of one part; parts are covariant where nothing else is said. -/
def variance (r : Rule) (position : Nat) : Variance :=
  r.variances[position]?.getD .covariant

/-- The rule for a source and a target constructor. -/
def of? : Kind → Kind → Option Rule
  | .literal, .intrinsic => some literalToPrimitive
  | .array, .array => some array
  | .tuple, .tuple => some tuple
  | .tuple, .array => some tupleToArray
  | .array, .tuple => some arrayToTuple
  | .object, .object => some object
  | .object, .record => some objectToRecord
  | .record, .object => some recordToObject
  | .record, .record => some record
  | .promise, .promise => some promise
  | .set, .set => some set
  | .map, .map => some map
  | .function, .function => some function
  | _, _ => none

end Rule

end Assignability
