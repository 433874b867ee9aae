/-
  Assignability.Descriptor.Intrinsic
  ──────────────────────────────────
  **THE BUILT-IN TYPES.**

  Thirteen types are there before anything is built.  Their handles are
  the first thirteen numbers, in the order of the declaration below, and
  `ofNumber?` reads the type back from its number (`ofNumber?_toNumber`).
-/
import Assignability.Descriptor.Handle

namespace Assignability

/-- A built-in type. -/
inductive Intrinsic where
  /-- Has no values. -/
  | never
  /-- Has all values. -/
  | unknown
  /-- Checked against nothing, in either direction. -/
  | any
  | null
  | undefined
  | void
  | nan
  | boolean
  | string
  | number
  | bigint
  | date
  | symbol
  deriving DecidableEq, Hashable, Repr

namespace Intrinsic

/-- Every built-in type, in the order of their handles. -/
def all : List Intrinsic :=
  [never, unknown, any, null, undefined, void, nan, boolean, string, number, bigint, date, symbol]

/-- The place of a built-in type in the order of the handles. -/
def toNumber : Intrinsic → Nat
  | never => 0
  | unknown => 1
  | any => 2
  | null => 3
  | undefined => 4
  | void => 5
  | nan => 6
  | boolean => 7
  | string => 8
  | number => 9
  | bigint => 10
  | date => 11
  | symbol => 12

/-- The fixed handle of a built-in type. -/
def handle (k : Intrinsic) : Handle := ⟨k.toNumber⟩

/-- The built-in type of a number, if it is the number of one. -/
def ofNumber? (n : Nat) : Option Intrinsic := all[n]?

/-- The keyword that names a built-in type. -/
def keyword : Intrinsic → String
  | never => "never"
  | unknown => "unknown"
  | any => "any"
  | null => "null"
  | undefined => "undefined"
  | void => "void"
  | nan => "NaN"
  | boolean => "boolean"
  | string => "string"
  | number => "number"
  | bigint => "bigint"
  | date => "Date"
  | symbol => "symbol"

/-- The built-in type that a keyword names. -/
def ofKeyword? (word : String) : Option Intrinsic :=
  all.find? (·.keyword == word)

/-- A built-in type is found by its number. -/
theorem ofNumber?_toNumber (k : Intrinsic) : ofNumber? k.toNumber = some k := by
  cases k <;> rfl

end Intrinsic

namespace Handle

/-- The handle of the empty type. -/
abbrev never : Handle := Intrinsic.never.handle

/-- The handle of the type of all values. -/
abbrev unknown : Handle := Intrinsic.unknown.handle

/-- The handle of the unchecked type. -/
abbrev any : Handle := Intrinsic.any.handle

/-- The handle of the type of not-a-number. -/
abbrev nan : Handle := Intrinsic.nan.handle

/-- The handle of the truth values. -/
abbrev boolean : Handle := Intrinsic.boolean.handle

/-- Whether a handle is that of a built-in type. -/
def isIntrinsic (h : Handle) : Bool := h.number < Intrinsic.all.length

end Handle

end Assignability
