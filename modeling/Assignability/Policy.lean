/-
  Assignability.Policy
  ────────────────────
  **HOW STRICT A CHECK IS AND HOW FAR IT GOES.**

  A policy has two flags and the limits of the walk.  Its flags have a
  text: the names of those that are set, with a bar between them.  A
  policy is read from a document of named settings, where what is missing
  takes its default and what has another name is passed over.

  `Flags.read?_text`: reading what `Flags.text` writes gives the flags
  back.
-/
import Assignability.Text.Whitespace
import Assignability.Walk.Limits

namespace Assignability

/-! ## §1. Flags -/

/-- The switches that take relations away. -/
structure Flags where
  /-- `any` is a top type only: nothing but `any` and `unknown` accepts it. -/
  strictAny : Bool := false
  /-- A tuple without a rest accepts no further items. -/
  exactTupleArity : Bool := false
  deriving DecidableEq, Repr

namespace Flags

/-- The flags as a number: one bit for each. -/
def bits (f : Flags) : Nat := f.strictAny.toNat + 2 * f.exactTupleArity.toNat

/-- The flags that are set in either. -/
def union (f g : Flags) : Flags :=
  ⟨f.strictAny || g.strictAny, f.exactTupleArity || g.exactTupleArity⟩

/-- The names of the flags that are set. -/
def names (f : Flags) : List String :=
  (if f.strictAny then ["STRICT_ANY"] else []) ++
    (if f.exactTupleArity then ["EXACT_TUPLE_ARITY"] else [])

/-- The text of flags. -/
def text (f : Flags) : String := " | ".intercalate f.names

/-- The flag of a name. -/
def ofName? (name : String) : Option Flags :=
  if name = "STRICT_ANY" then some { strictAny := true }
  else if name = "EXACT_TUPLE_ARITY" then some { exactTupleArity := true }
  else none

/-- The parts of a text between bars. -/
def parts : List Char → List (List Char)
  | [] => [[]]
  | c :: cs =>
    if c = '|' then [] :: parts cs
    else
      match parts cs with
      | [] => [[c]]
      | part :: rest => (c :: part) :: rest

/-- The flags that a text names.  Blanks around a name are passed over, a name may stand more than
once, and a blank text names none. -/
def read? (s : String) : Option Flags :=
  let cs := Text.trimChars s.toList
  if cs.isEmpty then some {}
  else
    (parts cs).foldlM (fun flags part =>
      (ofName? (String.ofList (Text.trimChars part))).map flags.union) {}

/-- Flags are read back from their text. -/
theorem read?_text (f : Flags) : read? f.text = some f := by
  obtain ⟨_ | _, _ | _⟩ := f <;> decide +kernel

end Flags

/-! ## §2. Policies -/

/-- How strict a check is, and its limits. -/
structure Policy where
  flags : Flags := {}
  limits : Limits := Limits.checking
  deriving DecidableEq, Repr

namespace Policy

/-- The flags of a policy with the limits of every policy. -/
def ofFlags (flags : Flags) : Policy := { flags }

/-- Sets or clears the first flag. -/
def setStrictAny (p : Policy) (strict : Bool) : Policy :=
  { p with flags := { p.flags with strictAny := strict } }

/-- Sets or clears the second flag. -/
def setExactTupleArity (p : Policy) (exact : Bool) : Policy :=
  { p with flags := { p.flags with exactTupleArity := exact } }

/-- Puts other limits in place. -/
def setLimits (p : Policy) (limits : Limits) : Policy := { p with limits }

/-! ## §3. Reading a policy -/

/-- The value of a setting in a policy document. -/
inductive Setting where
  | whole (value : Int)
  | text (value : String)
  /-- Anything else. -/
  | other
  deriving Repr

/-- A limit: a whole number of thirty-two bits. -/
def Setting.limit? : Setting → Option Nat
  | whole n => if 0 ≤ n ∧ n ≤ 0xffffffff then some n.toNat else none
  | _ => none

/-- Flags by their text. -/
def Setting.flags? : Setting → Option Flags
  | text s => Flags.read? s
  | _ => none

/-- Reads one setting by its name. -/
def set? (p : Policy) (name : String) (value : Setting) : Option Policy :=
  if name = "flags" then value.flags?.map fun flags => { p with flags }
  else if name = "max_depth" then
    value.limit?.map fun depth => { p with limits := { p.limits with depth } }
  else if name = "max_iterations" then
    value.limit?.map fun attempts => { p with limits := { p.limits with attempts } }
  else some p

/-- The policy of a document: every setting that it names is read. -/
def read? (document : List (String × Setting)) : Option Policy :=
  document.foldlM (fun p setting => p.set? setting.1 setting.2) {}

end Policy

end Assignability
