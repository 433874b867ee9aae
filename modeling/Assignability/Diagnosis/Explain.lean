/-
  Assignability.Diagnosis.Explain
  ───────────────────────────────
  **FINDING THE REASON.**

  Explaining follows the rules of the checker down to the first part that
  fails, and asks the checker about every part.  So it gives no reason
  where the pair holds.  A pair that was cut off has the limit for a
  reason; and an explanation goes no deeper than its own levels.

  What a rule has to say of a pair is a query, like the rule itself: it
  gives the reason, or names the part that is to be explained in its turn.
-/
import Assignability.Diagnosis.Reason
import Assignability.Relation.Checker

namespace Assignability

/-- What is to blame for a pair that fails. -/
inductive Blame where
  /-- There is a reason, and nothing more to explain. -/
  | reason (reason : Reason)
  /-- A part fails; the reason for it has a place in that for the whole. -/
  | part (source target : Handle) (around : Reason → Reason)
  /-- The search comes to no end. -/
  | endless

namespace Store

variable {ρ : Type}

/-- Whether a brand is on a descriptor or on a base below it; nothing where there are more bases
than `levels`. -/
def hasBrandWithin? (σ : Store ρ) (brand : Atom) : Nat → Handle → Option Bool
  | 0, _ => none
  | levels + 1, h =>
    match σ.node? h with
    | some (.branded base b) =>
      if b = brand then some true else σ.hasBrandWithin? brand levels base
    | _ => some false

/-- Whether a brand is on a descriptor or on a base below it; nothing where the bases come back to
the descriptor, for then there is no end to them. -/
def hasBrand? (σ : Store ρ) (brand : Atom) (h : Handle) : Option Bool :=
  σ.hasBrandWithin? brand (σ.size + 1) h

end Store

/-- The parts of two sequences that stand at the same place: items with items, rest with rest. -/
def Sequence.zip (source target : Sequence) : List (Handle × Handle) :=
  source.items.zip target.items ++
    match source.rest, target.rest with
    | some s, some t => [(s, t)]
    | _, _ => []

namespace Query

variable {ρ : Type}

/-! ## §1. The part that fails -/

/-- What a query blames, or else what another does. -/
def orBlame (q r : Query ρ (Option Blame)) : Query ρ (Option Blame) := do
  match ← q with
  | some blame => pure (some blame)
  | none => r

/-- A search for what is to blame looks at the first element and then, if need be, at the others. -/
theorem findSomeM?_cons {α : Type} (q : α → Query ρ (Option Blame)) (x : α) (xs : List α) :
    (x :: xs).findSomeM? q = (q x).orBlame (xs.findSomeM? q) := by
  show (q x).bind _ = (q x).bind _
  congr
  funext blame
  cases blame <;> rfl

/-- A part is to blame unless it holds. -/
def blamePart? (s t : Handle) (around : Reason → Reason) : Query ρ (Option Blame) := do
  let a ← related s t
  pure (if a.isTrue then none else some (.part s t around))

/-- A part that fails for a reason that is not looked into. -/
def reasonPart? (s t : Handle) (reason : Reason) : Query ρ (Option Blame) := do
  let a ← related s t
  pure (if a.isTrue then none else some (.reason reason))

/-- A field that fails. -/
def blameField? (source : Handle) (shape : Layout) (target : Handle) (f : Field) :
    Query ρ (Option Blame) :=
  match shape.field? f.name with
  | none =>
    pure (if f.optional then none else some (.reason (.missingProperty f.name source target)))
  | some g =>
    if !f.optional && !g.isAlwaysPresent then pure (some (.reason (.optionalProperty f.name)))
    else
      blamePart? g.type f.type fun cause => .propertyMismatch f.name g.type f.type (some cause)

/-- A source field that does not fit an index signature. -/
def blameIndexedField? (index : IndexSignature) (f : Field) : Query ρ (Option Blame) := do
  if ← admits index.key f.name then
    reasonPart? f.type index.value (.indexMismatch (some f.name) f.type index.value)
  else pure none

/-- What does not fit an index signature: a field, or else the source's own. -/
def blameIndex? (shape : Layout) (index : IndexSignature) : Query ρ (Option Blame) :=
  (shape.fields.findSomeM? (blameIndexedField? index)).orBlame
    (match shape.index with
    | some own => reasonPart? own.value index.value (.indexMismatch none own.value index.value)
    | none => pure none)

/-- Why two objects fail: a field, or else the index signature. -/
def blameObject? (source : Handle) (sourceShape : Layout) (target : Handle)
    (targetShape : Layout) : Query ρ (Option Blame) :=
  (targetShape.fields.findSomeM? (blameField? source sourceShape target)).orBlame
    (match targetShape.index with
    | some index => blameIndex? sourceShape index
    | none => pure none)

/-- The first pair of two tuples, counted from `position`, that fails. -/
def blameElement? (position : Nat) : List (Handle × Handle) → Query ρ (Option Blame)
  | [] => pure none
  | (s, t) :: pairs =>
    (blamePart? s t fun cause => .tupleElement position s t (some cause)).orBlame
      (blameElement? (position + 1) pairs)

/-- Why two tuples fail: their numbers of items, or else an item. -/
def blameTuple? (flags : Flags) (source target : Sequence) : Query ρ (Option Blame) :=
  if source.arityFits flags .atLeast target then blameElement? 0 (source.pairs target)
  else pure (some (.reason (.tupleArity source.items.length target.items.length)))

/-- The first pair of parameters, counted from `position`, that fails. -/
def blameParameter? (position : Nat) : List (Handle × Handle) → Query ρ (Option Blame)
  | [] => pure none
  | (s, t) :: pairs =>
    (reasonPart? t s (.parameterMismatch position s t)).orBlame
      (blameParameter? (position + 1) pairs)

/-- Why two functions fail: their numbers of parameters, a parameter, or else the result. -/
def blameFunction? (source target : Signature) : Query ρ (Option Blame) :=
  let s := source.parameters
  let t := target.parameters
  if s.items.length ≠ t.items.length then
    pure (some (.reason (.parameterCount s.items.length t.items.length)))
  else
    (blameParameter? 0 (s.zip t)).orBlame
      (blamePart? source.result target.result fun cause =>
        .returnMismatch source.result target.result (some cause))

/-! ## §2. The rule that fails -/

/-- Why two nodes fail by the rule for their constructors. -/
def blameRule? (flags : Flags) (rule : Rule) (s t : Handle) (source target : Node) :
    Query ρ (Option Blame) := do
  let σ ← store
  match source, target with
  | .array s, .array t | .promise s, .promise t => do
    let blame ← blamePart? s t fun cause => .elementMismatch s t (some cause)
    pure (some (blame.getD (.reason (.elementMismatch s t none))))
  -- elements of sets and maps are compared in both directions, so there is no part to follow
  | .set s, .set t => pure (some (.reason (.invariantParameter s t)))
  | .map sourceKey sourceValue, .map targetKey targetValue => do
    let keys ← relate (rule.variance 0) sourceKey targetKey
    pure (some (.reason (if keys.isTrue then .invariantParameter sourceValue targetValue
      else .invariantParameter sourceKey targetKey)))
  | .tuple s, .tuple t => blameTuple? flags (σ.tuple s) (σ.tuple t)
  | .function s, .function t => blameFunction? (σ.function s) (σ.function t)
  | .object a, .object b => blameObject? s (σ.object a) t (σ.object b)
  -- a record target is treated as an index signature without fields
  | .object a, .record key value => blameObject? s (σ.object a) t ⟨[], some ⟨key, value⟩⟩
  | _, _ => pure none

/-- Why two nodes fail by the brand of the target, by that of the source where the target has none,
and by the rule for their constructors where neither has. -/
def blameBrand? (flags : Flags) (s t : Handle) (source target : Node) :
    Query ρ (Option Blame) := do
  let σ ← store
  match source, target with
  | .branded base brand, .branded targetBase targetBrand =>
    if brand = targetBrand then pure (some (.part base targetBase id))
    else
      -- the target's brand may stand further down
      match σ.hasBrand? targetBrand base with
      | some true => pure (some (.part base t id))
      | some false => pure (some (.reason (.brandMismatch (some brand) targetBrand)))
      | none => pure (some .endless)
  | _, .branded _ brand => pure (some (.reason (.brandMismatch none brand)))
  | .branded base _, _ => pure (some (.part base t id))
  | _, _ =>
    match Rule.of? source.kind target.kind with
    | some rule => blameRule? flags rule s t source target
    | none => pure none

/-- Why two nodes fail that are no lazy nodes, with their handles. -/
def blameNodes? (flags : Flags) (s t : Handle) (source target : Node) :
    Query ρ (Option Blame) := do
  let σ ← store
  match σ.alternatives? source, σ.alternatives? target with
  | some members, _ => members.findSomeM? fun m => blamePart? m t (.unionMember m t)
  | none, some members => pure (some (.reason (.noUnionMember s members)))
  | none, none =>
    match source, target with
    | _, .intersection list =>
      (σ.list list).findSomeM? fun m => blamePart? s m (.intersectionMember m)
    | .intersection _, _ => pure (some (.reason (.noIntersectionMember s t)))
    | _, _ => blameBrand? flags s t source target

/-- Why a pair fails.  Where no rule has anything to say, the types do not fit. -/
def blame (flags : Flags) (s t : Handle) : Query ρ Blame := do
  let source ← resolved s
  let target ← resolved t
  let σ ← store
  match σ.node? source, σ.node? target with
  | some sourceNode, some targetNode => do
    let blame ← blameNodes? flags source target sourceNode targetNode
    pure (blame.getD (.reason (.mismatch s t)))
  | _, _ => pure (.reason (.mismatch s t))

end Query

/-! ## §3. Explaining -/

namespace Checker

/-- Goes one level of an explanation down, if the limit lets it. -/
def descend (c : Checker) : Bool × Checker :=
  let r := c.explaining.enter
  (r.1, { c with explaining := r.2 })

/-- Goes one level of an explanation up. -/
def ascend (c : Checker) : Unit × Checker :=
  ((), { c with explaining := c.explaining.leave })

end Checker

namespace Inquire

variable {ρ : Type}

/-- Explains one level down; past the last level the limit is the reason. -/
def counted (describe : Handle → Handle → Inquire ρ Reason) (s t : Handle) :
    Inquire ρ Reason := do
  if ← update Checker.descend then do
    let reason ← describe s t
    update Checker.ascend
    pure reason
  else pure (.limitExceeded s t)

/-- The reason that a blame gives, with `explain` for a part. -/
def reasonFor (explain : Handle → Handle → Inquire ρ Reason) (s t : Handle) :
    Blame → Inquire ρ Reason
  | .reason reason => pure reason
  | .part a b around => return around (← explain a b)
  | .endless => pure (.mismatch s t)

variable (run : Runner ρ)

/-- Why a pair fails, with `explain` for its parts. -/
def describe (explain : Handle → Handle → Inquire ρ Reason) (s t : Handle) :
    Inquire ρ Reason := fun w =>
  (inquire run (Query.blame w.checker.flags s t) >>= reasonFor explain s t) w

/-- Why a pair fails, with a number of levels left. -/
def explainWithin : Nat → Handle → Handle → Inquire ρ Reason
  | 0 => counted fun s t => pure (.limitExceeded s t)
  | levels + 1 => counted (describe run (explainWithin levels))

/-- Why a pair fails that was found to fail. -/
def explainFailing (s t : Handle) : Inquire ρ Reason := do
  let c := (← get).checker
  if c.exceeded then pure (.limitExceeded s t)
  else explainWithin run c.explaining.limit s t

/-- Why a pair fails, unless it holds. -/
def explain? (s t : Handle) : Inquire ρ (Option Reason) := do
  if ← isRelated run s t then pure none
  else return some (← explainFailing run s t)

end Inquire

/-- Why `s` may not be used for `t` under a policy, unless it may. -/
def Store.explain? {ρ : Type} (run : Runner ρ) (policy : Policy) (s t : Handle) :
    Build ρ (Option Reason) := fun σ =>
  let r := Inquire.explain? run s t ⟨σ, .new policy⟩
  (r.1, r.2.store)

end Assignability
