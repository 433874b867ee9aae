/-
  Assignability.Relation.Sequence
  ───────────────────────────────
  **PARTS BY POSITION.**

  Parts are compared in the direction of their variance.  Sequences are
  compared position by position: items with items, and what stands past
  the target's items with the target's rest.  Without such a rest nothing
  reads the further items; whether they may be there is a matter of arity.
-/
import Assignability.Descriptor.Shape
import Assignability.Policy
import Assignability.Relation.Query
import Assignability.Relation.Rule

namespace Assignability

/-- How the numbers of items of two sequences compare. -/
inductive Arity where
  /-- The source has no fewer items: tuples. -/
  | atLeast
  /-- Both have as many: parameters. -/
  | exact
  deriving DecidableEq, Repr

/-- Whether the numbers of items fit.  With exact tuple arity, a target without a rest takes no
further items. -/
def Sequence.arityFits (flags : Flags) (arity : Arity) (source target : Sequence) : Bool :=
  let n := source.items.length
  let m := target.items.length
  match arity with
  | .exact => n == m
  | .atLeast =>
    m ≤ n && !(flags.exactTupleArity && target.rest.isNone && (m < n || source.rest.isSome))

/-- The pairs of parts that are compared when values of `source` flow into `target`. -/
def Sequence.pairs (source target : Sequence) : List (Handle × Handle) :=
  source.items.zip target.items ++
    match target.rest with
    | none => []
    | some rest =>
      (source.items.drop target.items.length ++ source.rest.toList).map fun item => (item, rest)

namespace Query

variable {ρ : Type}

/-- Compares two parts in the direction of a variance. -/
def relate (v : Variance) (s t : Handle) : Query ρ Answer :=
  match v with
  | .covariant => related s t
  | .contravariant => related t s
  | .invariant => (related s t).andThen (related t s)

/-- Whether values of `source` fit `target`, position by position. -/
def sequence (flags : Flags) (arity : Arity) (source target : Sequence) : Query ρ Answer :=
  if source.arityFits flags arity target then
    every (fun p => related p.1 p.2) (source.pairs target)
  else pure .fails

/-- Compares two sequences in the direction of a variance. -/
def sequences (flags : Flags) (v : Variance) (arity : Arity) (s t : Sequence) :
    Query ρ Answer :=
  match v with
  | .covariant => sequence flags arity s t
  | .contravariant => sequence flags arity t s
  | .invariant => (sequence flags arity s t).andThen (sequence flags arity t s)

/-- A tuple as an array: every item, and the rest, fits the element. -/
def tupleToArray (v : Variance) (source : Sequence) (element : Handle) : Query ρ Answer :=
  every (fun item => relate v item element) (source.items ++ source.rest.toList)

/-- An array as a tuple: it may be empty, so the tuple has a rest and no items. -/
def arrayToTuple (v : Variance) (element : Handle) (target : Sequence) : Query ρ Answer :=
  match target.items, target.rest with
  | [], some rest => relate v element rest
  | _, _ => pure .fails

/-- Functions: the parameters in their direction, as many on both sides, and then the result. -/
def functions (flags : Flags) (rule : Rule) (s t : Signature) : Query ρ Answer :=
  (sequences flags (rule.variance 0) .exact s.parameters t.parameters).andThen
    (relate (rule.variance 1) s.result t.result)

end Query

end Assignability
