/-
  Assignability.Printer
  ─────────────────────
  **DESCRIPTORS AS TEXT.**

  The text of a descriptor is bounded.  Below eight levels stand three
  dots; of more than twelve members, or fields, the first twelve are
  shown, and how many there are more.  A lazy node shows what it stands
  for, and `<recursive>` where it is being shown already.

  Fields stand in the order of their names, members in the order of their
  list.  A union, an enumeration, an intersection and a function stand in
  parentheses where they are part of a larger text that would bind more
  tightly.

  How the text of a descriptor is put together from those of its parts is
  a draft; the printer writes the parts, and keeps track of where it is.
-/
import Assignability.Decimal.Positional
import Assignability.Store.Resolve
import Assignability.Text.Quoted
import Assignability.Walk.Levels
import Assignability.Walk.Guard

namespace Assignability

/-! ## §1. The state of a printer -/

/-- What a printer is at work on. -/
structure Printer where
  /-- The lazy nodes that are being shown. -/
  lazies : Guard LazyId := { limits := Limits.printing }
  /-- The levels of nesting. -/
  levels : Levels := { limit := Limits.printing.depth }

/-- A printer at work on a store. -/
structure Printing (ρ : Type) where
  store : Store ρ
  printer : Printer

/-- A step of a printer's work. -/
abbrev Print (ρ : Type) := StateM (Printing ρ)

namespace Print

variable {ρ α : Type}

/-- A step of building, as part of the work. -/
def build (step : Build ρ α) : Print ρ α := fun w =>
  let ⟨store, printer⟩ := w
  let r := step store
  (r.1, ⟨r.2, printer⟩)

/-- A change of the printer alone. -/
def update (f : Printer → α × Printer) : Print ρ α := fun w =>
  let ⟨store, printer⟩ := w
  let r := f printer
  (r.1, ⟨store, r.2⟩)

/-- The store as it is. -/
def store : Print ρ (Store ρ) := return (← get).store

end Print

/-! ## §2. Parts of a text -/

/-- The members of a list that are shown. -/
def shownMembers : Nat := 12

/-- What stands for the members that are not shown. -/
def elision (hidden : Nat) : String := "... " ++ toString hidden ++ " more ..."

/-- What stands below the last level. -/
def ellipsis : String := "..."

/-- The elements that are shown, each by its text, and what stands for the others. -/
def shown {m : Type → Type} [Monad m] {α : Type} (text : α → m String) (elements : List α) :
    m (List String) := do
  let texts ← (elements.take shownMembers).mapM text
  if shownMembers < elements.length then
    pure (texts ++ [elision (elements.length - shownMembers)])
  else pure texts

/-- Texts with a separator between them. -/
def joined (separator : String) (texts : List String) : String := separator.intercalate texts

/-- A text in braces. -/
def braced (text : String) : String := "\x7b" ++ text ++ "\x7d"

/-- The text of a literal. -/
def Store.literalText {ρ : Type} (σ : Store ρ) : Literal → String
  | .string text => Text.quote (σ.text text)
  | .number value => Decimal.text value
  | .boolean value => if value then "true" else "false"
  | .bigint digits => σ.text digits ++ "n"

/-- Whether a node stands in parentheses as part of a larger text. -/
def Node.isCompound : Node → Bool
  | .union _ | .enumeration _ | .intersection _ | .function _ => true
  | _ => false

/-! ## §3. Texts of descriptors -/

/-- A text of which the parts are still to be written, and its result once they are. -/
inductive Draft (ρ α : Type) where
  /-- Nothing is left to be written. -/
  | done (result : α)
  /-- Asks for the text of a descriptor. -/
  | part (h : Handle) (next : String → Draft ρ α)
  /-- Asks for the text of a lazy node. -/
  | lazyPart (d : LazyId) (next : String → Draft ρ α)
  /-- Looks into the store. -/
  | look (next : Store ρ → Draft ρ α)

namespace Draft

variable {ρ α β : Type}

/-- Goes on with a draft once the result of another is known. -/
def bind : Draft ρ α → (α → Draft ρ β) → Draft ρ β
  | done a, f => f a
  | part h next, f => part h fun text => (next text).bind f
  | lazyPart d next, f => lazyPart d fun text => (next text).bind f
  | look next, f => look fun σ => (next σ).bind f

instance : Monad (Draft ρ) where
  pure := done
  bind := bind

/-- The text of a descriptor. -/
def text (h : Handle) : Draft ρ String := part h done

/-- The store as it is. -/
def store : Draft ρ (Store ρ) := look done

/-- Writes the parts of a draft by actions of another kind, in their order. -/
def run {m : Type → Type} [Monad m] (format : Handle → m String) (lazyNode : LazyId → m String)
    (look : m (Store ρ)) : Draft ρ α → m α
  | done a => pure a
  | part h next => do (next (← format h)).run format lazyNode look
  | lazyPart d next => do (next (← lazyNode d)).run format lazyNode look
  | .look next => do (next (← look)).run format lazyNode look

/-- A descriptor as part of a larger text. -/
def operand (h : Handle) : Draft ρ String := do
  let text ← text h
  match (← store).node? h with
  | some n => pure (if n.isCompound then "(" ++ text ++ ")" else text)
  | none => pure text

/-- Members with a separator between them. -/
def members (separator : String) (list : List Handle) : Draft ρ String :=
  return joined separator (← shown operand list)

/-- The part of a sequence past its items, behind `label`. -/
def restItems (label : String) : Option Handle → Draft ρ (List String)
  | some rest => return ["..." ++ label ++ (← operand rest) ++ "[]"]
  | none => pure []

/-- A tuple. -/
def tuple (shape : Sequence) : Draft ρ String := do
  let items ← shape.items.mapM text
  let rest ← restItems "" shape.rest
  pure ("[" ++ joined ", " (items ++ rest) ++ "]")

/-- Parameters, counted from `i`. -/
def parameters (i : Nat) : List Handle → Draft ρ (List String)
  | [] => pure []
  | h :: hs => do
    let text ← text h
    let texts ← parameters (i + 1) hs
    pure (("arg" ++ toString i ++ ": " ++ text) :: texts)

/-- A function. -/
def function (shape : Signature) : Draft ρ String := do
  let fixed ← parameters 0 shape.parameters.items
  let rest ← restItems "rest: " shape.parameters.rest
  let result ← text shape.result
  pure ("(" ++ joined ", " (fixed ++ rest) ++ ") => " ++ result)

/-- A field under its name. -/
def field (f : String × Field) : Draft ρ String :=
  return f.1 ++ (if f.2.optional then "?" else "") ++ ": " ++ (← text f.2.type)

/-- An index signature. -/
def index : Option IndexSignature → Draft ρ (List String)
  | some signature => do
    let key ← text signature.key
    let value ← text signature.value
    pure ["[key: " ++ key ++ "]: " ++ value]
  | none => pure []

/-- An object. -/
def object (shape : Layout) : Draft ρ String := do
  let σ ← store
  -- atoms are ordered by their numbers, the shown fields by their names
  let named := shape.fields.map fun f => (σ.text f.name, f)
  let fields ← shown field (named.mergeSort fun f g => decide (f.1 ≤ g.1))
  let index ← index shape.index
  if (fields ++ index).isEmpty then pure (braced "")
  else pure (braced (" " ++ joined "; " (fields ++ index) ++ " "))

/-- A container with its parts between angle brackets. -/
def applied (name : String) (parts : List Handle) : Draft ρ String :=
  return name ++ "<" ++ joined ", " (← parts.mapM text) ++ ">"

/-- A descriptor. -/
def describe (h : Handle) : Draft ρ String := do
  let σ ← store
  match σ.node? h with
  | none => pure ("<unknown #" ++ toString h.number ++ ">")
  | some node =>
    match node with
    | .intrinsic k => pure k.keyword
    | .literal value => pure (σ.literalText value)
    | .enumeration list => members " | " (σ.list list)
    | .array element => return (← operand element) ++ "[]"
    | .tuple shape => tuple (σ.tuple shape)
    | .object shape => object (σ.object shape)
    | .record key value => applied "Record" [key, value]
    | .map key value => applied "Map" [key, value]
    | .set element => applied "Set" [element]
    | .promise inner => applied "Promise" [inner]
    | .function shape => function (σ.function shape)
    | .union list => members " | " (σ.list list)
    | .intersection list => members " & " (σ.list list)
    | .lazy d => lazyPart d done
    | .branded base brand =>
      let mark := " & BRAND<\"" ++ σ.text brand ++ "\">"
      return (← operand base) ++ mark

end Draft

/-! ## §4. Printing -/

namespace Print

section

variable {ρ : Type} (run : Runner ρ) (format : Handle → Print ρ String)

/-- A lazy node, with `format` for what it stands for. -/
def lazyNode (d : LazyId) : Print ρ String := do
  match ← update fun p => let r := p.lazies.enter d; (r.1, { p with lazies := r.2 }) with
  | .entered => do
    let text ←
      match ← build (Store.destination? run d) with
      | some h => format h
      | none => pure Intrinsic.never.keyword
    update fun p => ((), { p with lazies := p.lazies.leave d })
    pure text
  | .cycle => pure "<recursive>"
  | .tooDeep | .exhausted => pure ellipsis

/-- A descriptor, with `format` for its parts. -/
def describe (h : Handle) : Print ρ String :=
  (Draft.describe h).run format (lazyNode run format) store

end

section

variable {ρ : Type}

/-- A descriptor one level down; past the last level three dots. -/
def counted (describe : Handle → Print ρ String) (h : Handle) : Print ρ String := do
  if ← update fun p => let r := p.levels.enter; (r.1, { p with levels := r.2 }) then do
    let text ← describe h
    update fun p => ((), { p with levels := p.levels.leave })
    pure text
  else pure ellipsis

variable (run : Runner ρ)

/-- The text of a descriptor with a number of levels left. -/
def formatWithin : Nat → Handle → Print ρ String
  | 0 => counted fun _ => pure ellipsis
  | levels + 1 => counted (describe run (formatWithin levels))

/-- The text of a descriptor. -/
def format (h : Handle) : Print ρ String := do
  formatWithin run (← get).printer.levels.limit h

end

end Print

namespace Store

variable {ρ : Type} (run : Runner ρ)

/-- Work with a new printer. -/
def withPrinter {α : Type} (work : Print ρ α) : Build ρ α := fun σ =>
  let r := work ⟨σ, {}⟩
  (r.1, r.2.store)

/-- The text of a descriptor, by a printer of its own. -/
def format (h : Handle) : Build ρ String := withPrinter (Print.format run h)

end Store

end Assignability
