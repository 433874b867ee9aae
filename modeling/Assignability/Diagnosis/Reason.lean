/-
  Assignability.Diagnosis.Reason
  ──────────────────────────────
  **WHY A PAIR FAILS.**

  A reason names the place where a comparison fails and, where the place
  has parts, holds the reason why they fail.
-/
import Assignability.Descriptor.Handle

namespace Assignability

/-- Why a source is not assignable to a target. -/
inductive Reason where
  /-- The source lacks a field that the target requires. -/
  | missingProperty (name : Atom) (source target : Handle)
  /-- The types of a field do not fit. -/
  | propertyMismatch (name : Atom) (source target : Handle) (cause : Option Reason)
  /-- The source may leave out a field that the target requires. -/
  | optionalProperty (name : Atom)
  /-- A field, or the whole index signature of the source where there is no name, does not fit the
  target's index signature. -/
  | indexMismatch (name : Option Atom) (source target : Handle)
  /-- The source tuple has too few items, or too many. -/
  | tupleArity (source target : Nat)
  /-- The types at a position of two tuples do not fit. -/
  | tupleElement (position : Nat) (source target : Handle) (cause : Option Reason)
  /-- The elements of two arrays, or what two promises give, do not fit. -/
  | elementMismatch (source target : Handle) (cause : Option Reason)
  /-- Two parts that must fit both ways do not. -/
  | invariantParameter (source target : Handle)
  /-- Two functions take different numbers of parameters. -/
  | parameterCount (source target : Nat)
  /-- The target's parameter does not fit the source's. -/
  | parameterMismatch (position : Nat) (source target : Handle)
  /-- The results of two functions do not fit. -/
  | returnMismatch (source target : Handle) (cause : Option Reason)
  /-- The source fits no member of the target union. -/
  | noUnionMember (source : Handle) (members : List Handle)
  /-- A member of the source union does not fit. -/
  | unionMember (member target : Handle) (cause : Reason)
  /-- No member of the source intersection fits. -/
  | noIntersectionMember (source target : Handle)
  /-- The source does not fit a member of the target intersection. -/
  | intersectionMember (member : Handle) (cause : Reason)
  /-- The target has a brand that the source lacks; the source may have another. -/
  | brandMismatch (source : Option Atom) (target : Atom)
  /-- The comparison was cut off by a limit. -/
  | limitExceeded (source target : Handle)
  /-- The types do not fit, and there is no more to say. -/
  | mismatch (source target : Handle)

end Assignability
