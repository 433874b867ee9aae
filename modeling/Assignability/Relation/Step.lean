/-
  Assignability.Relation.Step
  ───────────────────────────
  **ONE STEP OF COMPARING A PAIR.**

  A pair that is not decided at once is decided by the first of these that
  applies: lazy nodes are resolved and the pair is asked again; a source
  union; a target union; a target intersection; a source intersection;
  brands; and then the rule for the two constructors.

  A brand can be forgotten but not made up: brands of one name are
  compared by their bases, and a branded source fits what its base fits.
-/
import Assignability.Relation.Union

namespace Assignability

/-- Whether a node stands for another descriptor. -/
def Node.isLazy : Node → Bool
  | .lazy _ => true
  | _ => false

namespace Query

variable {ρ : Type}

/-- Two nodes by the rule for their constructors. -/
def byRule (flags : Flags) (rule : Rule) (source target : Node) : Query ρ Answer := do
  let σ ← store
  match source, target with
  | .literal value, .intrinsic t => pure (.ofBool (value.fits t))
  | .array s, .array t => relate (rule.variance 0) s t
  | .tuple s, .tuple t =>
    sequences flags (rule.variance 0) .atLeast (σ.tuple s) (σ.tuple t)
  | .tuple s, .array t => tupleToArray (rule.variance 0) (σ.tuple s) t
  | .array s, .tuple t => arrayToTuple (rule.variance 0) s (σ.tuple t)
  | .object s, .object t => objects (σ.object s) (σ.object t)
  | .object s, .record key value => objectToRecord (σ.object s) key value
  | .record key value, .object t => recordToObject key value (σ.object t)
  | .record sourceKey sourceValue, .record targetKey targetValue =>
    records (rule.variance 0) sourceKey sourceValue targetKey targetValue
  | .promise s, .promise t => relate (rule.variance 0) s t
  | .set s, .set t => relate (rule.variance 0) s t
  | .map sourceKey sourceValue, .map targetKey targetValue =>
    (relate (rule.variance 0) sourceKey targetKey).andThen
      (relate (rule.variance 1) sourceValue targetValue)
  | .function s, .function t => functions flags rule (σ.function s) (σ.function t)
  | _, _ => pure .fails

/-- Two nodes of which one is branded. -/
def brands (source target : Node) (targetHandle : Handle) : Query ρ Answer :=
  match source, target with
  | .branded s sourceBrand, .branded t targetBrand =>
    if sourceBrand = targetBrand then related s t else related s targetHandle
  | .branded s _, _ => related s targetHandle
  | _, _ => pure .fails

/-- Two nodes that are no lazy nodes, with their handles. -/
def nodes (flags : Flags) (s t : Handle) (source target : Node) : Query ρ Answer := do
  let σ ← store
  -- unions and enumerations come first, on either side
  match σ.alternatives? source, σ.alternatives? target with
  | some members, _ => unionSource members t
  | none, some members =>
    match source with
    | .intersection list => intersectionToUnion s list t target members
    | _ => unionTarget s members
  | none, none =>
    match source, target with
    | .intrinsic k, .intrinsic l => pure (.ofBool (k.widensTo l))
    -- before the source is taken apart, so each target member may be met by another source member
    | _, .intersection list => intersectionTarget s (σ.list list)
    | .intersection list, _ => intersectionSource (σ.list list) t target
    -- only here: a brand around a union never gets to the members of a target union
    | .branded _ _, _ | _, .branded _ _ => brands source target t
    | _, _ =>
      match Rule.of? source.kind target.kind with
      | some rule => byRule flags rule source target
      | none => pure .fails

/-- A pair that is not decided at once. -/
def step (flags : Flags) (s t : Handle) : Query ρ Answer := do
  let σ ← store
  match σ.node? s, σ.node? t with
  | some source, some target =>
    if source.isLazy || target.isLazy then do
      let s ← resolved s
      let t ← resolved t
      related s t
    else nodes flags s t source target
  | _, _ => pure .fails

end Query

end Assignability
