/-
  Assignability.Relation.Union
  ────────────────────────────
  **UNIONS, ENUMERATIONS AND INTERSECTIONS.**

  Every member of a source union fits the target, and a source fits some
  member of a target union; the literals of an enumeration are its
  members.  `boolean` fits where both truth values do.  A source fits
  every member of a target intersection, and some member of a source
  intersection fits the target.  Where no member does alone, objects are
  compared as one merged object.
-/
import Assignability.Relation.Leaf
import Assignability.Relation.Object

namespace Assignability.Query

variable {ρ : Type}

/-! ## §1. Unions -/

/-- Every member of a union against a target. -/
def unionSource (members : List Handle) (target : Handle) : Query ρ Answer :=
  every (related · target) members

/-- Whether a source is a member, or a literal whose primitive is one. -/
def isMember (σ : Store ρ) (source : Handle) (members : List Handle) : Bool :=
  members.contains source ||
    match σ.node? source with
    | some (.literal value) =>
      members.contains value.primitive.handle || (value.isNaN && members.contains .nan)
    | _ => false

/-- Whether members have both truth values between them. -/
def haveBooleans (σ : Store ρ) (members : List Handle) : Bool :=
  members.any (σ.hasBoolean true) && members.any (σ.hasBoolean false)

/-- A source against the members of a union. -/
def unionTarget (source : Handle) (members : List Handle) : Query ρ Answer := do
  let σ ← store
  if isMember σ source members then pure .holds
  else do
    let a ← any (related source ·) members
    if a.isTrue then pure .holds
    else do
      -- the questions may have built members since
      let σ ← store
      pure (if source == .boolean && haveBooleans σ members then .holds else a)

/-! ## §2. Intersections -/

/-- A source against every member of an intersection. -/
def intersectionTarget (source : Handle) (members : List Handle) : Query ρ Answer :=
  every (related source ·) members

/-- The object shapes of members that are all objects. -/
def layouts : List Handle → Query ρ (Option (List Layout))
  | [] => pure (some [])
  | m :: ms => do
    let h ← resolved m
    let σ ← store
    match σ.node? h with
    | some (.object shape) => return (← layouts ms).map (σ.object shape :: ·)
    | _ => pure none

/-- A target field against merged objects: some object's field of that name fits, and one is
always present where the target requires it. -/
def mergedField (sources : List Layout) (target : Field) : Query ρ Answer :=
  let found := sources.filterMap (·.field? target.name)
  if found.isEmpty then pure (.ofBool target.optional)
  else if !target.optional && !found.any Field.isAlwaysPresent then pure .fails
  else any (fun f => related f.type target.type) found

/-- Objects as one merged object. -/
def merged (sources : List Layout) (target : Layout) : Query ρ Answer :=
  (every (mergedField sources) target.fields).andThen
    (match target.index with
    | some index => every (objectUnder index) sources
    | none => pure .holds)

/-- The members of an intersection against a target, one alone or, against an object, all as one
object. -/
def intersectionSource (members : List Handle) (target : Handle) (targetNode : Node) :
    Query ρ Answer := do
  let a ← any (related · target) members
  if a.isTrue then pure .holds
  else
    match targetNode with
    | .object shape => do
      match ← layouts members with
      | some shapes => do
        let σ ← store
        let b ← merged shapes (σ.object shape)
        pure (if b = .fails then a else b)
      | none => pure a
    | _ => pure a

/-- An intersection against the members of a union: the whole fits a member, or a member fits the
union. -/
def intersectionToUnion (source : Handle) (sourceList : ListId) (target : Handle)
    (targetNode : Node) (targetMembers : List Handle) : Query ρ Answer := do
  let a ← unionTarget source targetMembers
  if a.isTrue then pure a
  else do
    -- the questions may have built the list since
    let σ ← store
    let b ← intersectionSource (σ.list sourceList) target targetNode
    pure (if b = .fails then a else b)

end Assignability.Query
