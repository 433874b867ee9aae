/-
  Assignability.Diagnosis.Render
  ──────────────────────────────
  **REASONS AS TEXT.**

  A reason is a line of text, or a few; the reason for its parts stands
  below it, two places further in.  One printer writes all the types of a
  text.
-/
import Assignability.Diagnosis.Reason
import Assignability.Printer

namespace Assignability.Reason

/-! ## §1. Lines -/

/-- A name or a type as it stands in a sentence. -/
def quoted (text : String) : String := "'" ++ text ++ "'"

/-- A line two places further in. -/
def indent (line : String) : String := "  " ++ line

section

variable {ρ : Type} (run : Runner ρ)

/-- A type between quotes. -/
def typeText (h : Handle) : Print ρ String := return quoted (← Print.format run h)

/-- The string of an atom between quotes. -/
def nameText (a : Atom) : Print ρ String := return quoted ((← Print.store).text a)

/-- The sentence that one type is not assignable to another. -/
def notAssignable (source target : Handle) : Print ρ String := do
  let source ← typeText run source
  let target ← typeText run target
  pure ("Type " ++ source ++ " is not assignable to type " ++ target ++ ".")

/-! ## §2. Texts of reasons -/

mutual

/-- The lines of a reason. -/
def lines : Reason → Print ρ (List String)
  | .missingProperty name source target => do
    let name ← nameText name
    let source ← typeText run source
    let target ← typeText run target
    pure ["Property " ++ name ++ " is missing in type " ++ source ++ " but required in type " ++
      target ++ "."]
  | .propertyMismatch name source target cause => do
    let name ← nameText name
    let below ← causeLines source target cause
    pure (("Types of property " ++ name ++ " are incompatible.") :: below)
  | .optionalProperty name => do
    let name ← nameText name
    pure ["Property " ++ name ++
      " is optional in the source type but required in the target type."]
  | .indexMismatch name source target => do
    let head ←
      match name with
      | some name => do
        let name ← nameText name
        pure ("Property " ++ name ++ " is incompatible with index signature.")
      | none => pure "Index signatures are incompatible."
    let below ← notAssignable run source target
    pure [head, indent below]
  | .tupleArity source target =>
    if source < target then
      pure ["Source has " ++ toString source ++ " element(s) but target requires " ++
        toString target ++ "."]
    else
      pure ["Source has " ++ toString source ++ " element(s) but target allows only " ++
        toString target ++ "."]
  | .tupleElement position source target cause => do
    let below ← causeLines source target cause
    pure (("Type at position " ++ toString position ++
      " in source is not compatible with type at position " ++ toString position ++
      " in target.") :: below)
  | .elementMismatch source target cause => do
    let below ← causeLines source target cause
    pure ("Element types are incompatible." :: below)
  | .invariantParameter source target => do
    let source ← typeText run source
    let target ← typeText run target
    pure ["Type parameter is invariant: " ++ source ++ " and " ++ target ++
      " are not mutually assignable."]
  | .parameterCount source target =>
    pure ["Source signature takes " ++ toString source ++
      " parameter(s) but target signature takes " ++ toString target ++ "."]
  | .parameterMismatch position source target => do
    let below ← notAssignable run target source
    pure ["Types of parameters at position " ++ toString position ++ " are incompatible.",
      indent below]
  | .returnMismatch source target cause => do
    let below ← causeLines source target cause
    pure ("Return types are incompatible." :: below)
  | .noUnionMember source members => do
    let members ← members.mapM (Print.format run)
    let source ← typeText run source
    pure ["Type " ++ source ++ " is not assignable to any member of " ++
      quoted (joined " | " members) ++ "."]
  | .unionMember member target cause => do
    let head ← notAssignable run member target
    let below ← lines cause
    pure (head :: below.map indent)
  | .noIntersectionMember source target => do
    let source ← typeText run source
    let target ← typeText run target
    pure ["No member of intersection " ++ source ++ " is assignable to type " ++ target ++ "."]
  | .intersectionMember member cause => do
    let member ← typeText run member
    let below ← lines cause
    pure (("Type does not satisfy intersection member " ++ member ++ ".") :: below.map indent)
  | .brandMismatch source target => do
    let target ← nameText target
    match source with
    | some source => do
      let source ← nameText source
      pure ["Brand " ++ source ++ " is not assignable to brand " ++ target ++ "."]
    | none => pure ["Type is missing brand " ++ target ++ "."]
  | .limitExceeded source target => do
    let source ← typeText run source
    let target ← typeText run target
    pure ["Excessive depth comparing " ++ source ++ " and " ++ target ++
      "; treated as not assignable."]
  | .mismatch source target => return [← notAssignable run source target]

/-- The lines of the reason for a pair of parts; where there is none, that they do not fit. -/
def causeLines (source target : Handle) : Option Reason → Print ρ (List String)
  | some cause => return (← lines cause).map indent
  | none => return [indent (← notAssignable run source target)]

end

/-- The text of a reason, by a printer of its own. -/
def render (r : Reason) : Build ρ String :=
  Store.withPrinter do return joined "\n" (← lines run r)

end

end Assignability.Reason
