/-
  Assignability.Relation.Object
  ─────────────────────────────
  **OBJECTS AND RECORDS.**

  An object may have more fields than the target asks for.  A field that
  the target requires is always present in the source; one that may be
  left out fits where it is there, and so does what the source's index
  signature holds under its name.  An index signature of the target is a
  bound for all fields whose names it admits, and for the source's index
  signature when their keys overlap.

  A record is an object of an index signature alone.  With a finite key
  type it stands for one required field for each key instead.
-/
import Assignability.Relation.Key
import Assignability.Relation.Sequence

namespace Assignability.Query

variable {ρ : Type}

/-! ## §1. Objects -/

/-- A target field against an object. -/
def field (source : Layout) (target : Field) : Query ρ Answer :=
  match source.field? target.name with
  | some f =>
    if !target.optional && !f.isAlwaysPresent then pure .fails
    else related f.type target.type
  | none =>
    if !target.optional then pure .fails
    else
      match source.index with
      | some index => do
        if ← admits index.key target.name then related index.value target.type
        else pure .holds
      | none => pure .holds

/-- A source field against a target's index signature. -/
def fieldUnder (target : IndexSignature) (f : Field) : Query ρ Answer := do
  if ← admits target.key f.name then related f.type target.value else pure .holds

/-- A source's index signature against that of the target. -/
def indexUnder (target : IndexSignature) (source : Option IndexSignature) : Query ρ Answer :=
  match source with
  | some index => do
    if ← overlap index.key target.key then related index.value target.value else pure .holds
  | none => pure .holds

/-- An object against a target's index signature. -/
def objectUnder (target : IndexSignature) (source : Layout) : Query ρ Answer :=
  (every (fieldUnder target) source.fields).andThen (indexUnder target source.index)

/-- Objects, field by field. -/
def objects (source target : Layout) : Query ρ Answer :=
  (every (field source) target.fields).andThen
    (match target.index with
    | some index => objectUnder index source
    | none => pure .holds)

/-! ## §2. Records -/

/-- Whether an object always has the field that a key names. -/
def hasKey (σ : Store ρ) (source : Layout) (key : Key) : Bool :=
  match key.field? σ source with
  | some f => f.isAlwaysPresent
  | none => false

/-- An object as a record: it has a field for each key of a finite key type, and all it has under
the key type fits the value. -/
def objectToRecord (source : Layout) (key value : Handle) : Query ρ Answer := do
  let keys ← keys? key
  let σ ← store
  -- a key type that is not finite asks for no field
  if (keys.getD []).all fun k => hasKey σ source k.1 then objectUnder ⟨key, value⟩ source
  else pure .fails

/-- Whether a record carries a field of a name. -/
def carries (key : Handle) (keys : Option (List (Key × Handle))) (name : Atom) :
    Query ρ Bool :=
  match keys with
  | some keys => do
    let σ ← store
    pure (keys.any fun k => k.1.isNamed σ name)
  | none => admits key name

/-- A target field against a record.  Only a finite key type makes sure that a field is there. -/
def fieldOfRecord (key value : Handle) (keys : Option (List (Key × Handle)))
    (target : Field) : Query ρ Answer := do
  let carried ← carries key keys target.name
  if !target.optional && !(carried && keys.isSome) then pure .fails
  else if carried then related value target.type
  else pure .holds

/-- A record as an object. -/
def recordToObject (key value : Handle) (target : Layout) : Query ρ Answer := do
  let keys ← keys? key
  (every (fieldOfRecord key value keys) target.fields).andThen
    (match target.index with
    | some index => indexUnder index (some ⟨key, value⟩)
    | none => pure .holds)

/-- Records: keys of one sort, every key of a finite target key type a key of the source, and
the values. -/
def records (v : Variance) (sourceKey sourceValue targetKey targetValue : Handle) :
    Query ρ Answer := do
  let s ← sort? sourceKey
  let t ← sort? targetKey
  match s, t with
  | some s, some t =>
    if s.isCompatible t then do
      let keys ← keys? targetKey
      (every (fun k => related k.2 sourceKey) (keys.getD [])).andThen
        (relate v sourceValue targetValue)
    else pure .fails
  | _, _ => pure .fails

end Assignability.Query
