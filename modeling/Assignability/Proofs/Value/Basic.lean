/-
  Assignability.Proofs.Value.Basic
  ────────────────────────────────
  **DESCRIPTORS AS SETS OF VALUES.**

  A value is finite and holds no descriptor.  `Store.HasValue` reads a
  descriptor as a set of values: `never` has none, `unknown` has all, a
  union has those of any member and an intersection those of all members.
  A tuple has lists that are as long as its items, or longer where there
  is a rest; an object has the values with at least the named fields.
  Functions, records, brands and lazy nodes are not read as sets of
  values.

  Main statements: the relations that the checker decides at once are
  inclusions (`HasValue.of_atOnce`), and so is the membership of a source
  in a union (`HasValue.of_isMember`).
-/
import Assignability.Proofs.Relation.Plain

namespace Assignability

/-! ## §1. Values -/

/-- A finite value. -/
inductive Value where
  | null
  | undefined
  | boolean (value : Bool)
  | string (text : String)
  | number (value : Binary64)
  /-- A big integer, by the text of its digits. -/
  | bigint (digits : String)
  | date (milliseconds : Int)
  | symbol (number : Nat)
  | list (items : List Value)
  | set (items : List Value)
  | map (entries : List (Value × Value))
  | promise (inner : Value)
  | object (fields : List (String × Value))

/-- The values of a built-in type.  Undefined is the one value of `void`, and not-a-number is a
number. -/
inductive Intrinsic.HasValue : Intrinsic → Value → Prop
  | unknown (x : Value) : HasValue .unknown x
  | any (x : Value) : HasValue .any x
  | null : HasValue .null .null
  | undefined : HasValue .undefined .undefined
  | void : HasValue .void .undefined
  | nan {x : Binary64} (hx : x.isNaN = true) : HasValue .nan (.number x)
  | boolean (b : Bool) : HasValue .boolean (.boolean b)
  | string (text : String) : HasValue .string (.string text)
  | number (x : Binary64) : HasValue .number (.number x)
  | bigint (digits : String) : HasValue .bigint (.bigint digits)
  | date (milliseconds : Int) : HasValue .date (.date milliseconds)
  | symbol (number : Nat) : HasValue .symbol (.symbol number)

theorem Intrinsic.HasValue.of_widensTo {k l : Intrinsic} {x : Value} (hx : k.HasValue x)
    (h : k.widensTo l = true) : l.HasValue x := by
  rcases Intrinsic.widensTo_eq_true.1 h with rfl | ⟨rfl, rfl⟩ | ⟨rfl, rfl⟩
  · exact hx
  · cases hx with
    | nan => exact .number _
  · cases hx with
    | undefined => exact .void

namespace Store

variable {ρ : Type}

/-- The value of a literal; equal numbers are one value. -/
def LiteralHas (σ : Store ρ) : Literal → Value → Prop
  | .string text, x => x = .string (σ.text text)
  | .number n, x => ∃ y, x = .number y ∧ y.canonical = n.canonical
  | .boolean b, x => x = .boolean b
  | .bigint digits, x => x = .bigint (σ.text digits)

mutual

/-- The values of a handle. -/
inductive HasValue (σ : Store ρ) : Handle → Value → Prop
  | of {h : Handle} {n : Node} {x : Value} (hn : σ.node? h = some n) (hx : NodeHas σ n x) :
    HasValue σ h x

/-- The values of a node. -/
inductive NodeHas (σ : Store ρ) : Node → Value → Prop
  | intrinsic {k : Intrinsic} {x : Value} (hx : k.HasValue x) : NodeHas σ (.intrinsic k) x
  | literal {value : Literal} {x : Value} (hx : σ.LiteralHas value x) : NodeHas σ (.literal value) x
  | enumeration {l : ListId} {m : Handle} {x : Value} (hm : m ∈ σ.list l) (hx : HasValue σ m x) :
    NodeHas σ (.enumeration l) x
  | union {l : ListId} {m : Handle} {x : Value} (hm : m ∈ σ.list l) (hx : HasValue σ m x) :
    NodeHas σ (.union l) x
  | intersection {l : ListId} {x : Value} (hx : ∀ m ∈ σ.list l, HasValue σ m x) :
    NodeHas σ (.intersection l) x
  | array {a : Handle} {xs : List Value} (hx : ∀ x ∈ xs, HasValue σ a x) :
    NodeHas σ (.array a) (.list xs)
  /-- Every item of the list is of the type at its position, and there is one for every item of the
  tuple. -/
  | tuple {o : TupleId} {xs : List Value} (long : (σ.tuple o).items.length ≤ xs.length)
    (typed : ∀ i, i < xs.length → ((σ.tuple o).typeAt? i).isSome = true)
    (hx : ∀ i a x, (σ.tuple o).typeAt? i = some a → xs[i]? = some x → HasValue σ a x) :
    NodeHas σ (.tuple o) (.list xs)
  | set {a : Handle} {xs : List Value} (hx : ∀ x ∈ xs, HasValue σ a x) :
    NodeHas σ (.set a) (.set xs)
  | map {k a : Handle} {entries : List (Value × Value)} (hk : ∀ e ∈ entries, HasValue σ k e.1)
    (hx : ∀ e ∈ entries, HasValue σ a e.2) : NodeHas σ (.map k a) (.map entries)
  | promise {a : Handle} {x : Value} (hx : HasValue σ a x) : NodeHas σ (.promise a) (.promise x)
  /-- The declared fields are there, unless they may be left out, and are of their types. -/
  | object {o : ObjectId} {fields : List (String × Value)}
    (present : ∀ f ∈ (σ.object o).fields, f.optional = false →
      (fields.lookup (σ.text f.name)).isSome = true)
    (hx : ∀ f ∈ (σ.object o).fields, ∀ x, fields.lookup (σ.text f.name) = some x →
      HasValue σ f.type x) :
    NodeHas σ (.object o) (.object fields)

end

variable {σ : Store ρ} {h : Handle} {n : Node} {x : Value}

/-! ## §2. Which values a node has -/

theorem hasValue_iff (hn : σ.node? h = some n) : σ.HasValue h x ↔ σ.NodeHas n x := by
  constructor
  · intro hx
    cases hx with
    | of hn' hx =>
      obtain rfl := Option.some.inj (hn.symm.trans hn')
      exact hx
  · exact .of hn

theorem hasValue_handle {k : Intrinsic} : σ.HasValue k.handle x ↔ k.HasValue x := by
  rw [hasValue_iff (σ.node?_handle k)]
  exact ⟨fun h => by cases h with | intrinsic hx => exact hx, .intrinsic⟩

/-- A union, or an enumeration, has the values of its members. -/
theorem nodeHas_alternatives {members : List Handle} (ha : σ.alternatives? n = some members) :
    σ.NodeHas n x ↔ ∃ m ∈ members, σ.HasValue m x := by
  cases n with
  | union l =>
    obtain rfl := Option.some.inj ha
    exact ⟨fun | .union hm hx => ⟨_, hm, hx⟩, fun ⟨_, hm, hx⟩ => .union hm hx⟩
  | enumeration l =>
    obtain rfl := Option.some.inj ha
    exact ⟨fun | .enumeration hm hx => ⟨_, hm, hx⟩, fun ⟨_, hm, hx⟩ => .enumeration hm hx⟩
  | _ => cases ha

/-! ## §3. Inclusions that are seen at once -/

/-- A literal's value is one of its built-in type. -/
theorem LiteralHas.of_fits {value : Literal} {k : Intrinsic} (hx : σ.LiteralHas value x)
    (hf : value.fits k = true) : k.HasValue x := by
  unfold Literal.fits at hf
  -- a literal fits the type of its sort, and NaN its own type as well
  rcases Bool.or_eq_true_iff.1 hf with hf | hf
  · obtain rfl := beq_iff_eq.1 hf
    cases value with
    | string text => exact hx ▸ .string _
    | number n =>
      obtain ⟨y, rfl, -⟩ := hx
      exact .number y
    | boolean b => exact hx ▸ .boolean _
    | bigint digits => exact hx ▸ .bigint _
  · obtain ⟨notNumber, hk⟩ := Bool.and_eq_true_iff.1 hf
    obtain rfl := beq_iff_eq.1 hk
    cases value with
    | number n =>
      obtain ⟨y, rfl, hy⟩ := hx
      refine .nan ?_
      rw [← Binary64.isNaN_canonical, hy, Binary64.isNaN_canonical]
      exact notNumber
    | _ => cases notNumber

/-- A truth value that a handle has among its own. -/
theorem hasValue_of_hasBoolean {b : Bool} (hb : σ.hasBoolean b h = true) :
    σ.HasValue h (.boolean b) := by
  obtain ⟨g, hg, rfl | ⟨l, hl, mem⟩⟩ := σ.exists_literal_of_hasBoolean hb
  · exact .of hg (.literal rfl)
  · exact .of hl (.enumeration mem (.of hg (.literal rfl)))

/-- What is a member of a union, or a literal of a member, has values of the members alone. -/
theorem HasValue.of_isMember {members : List Handle} (hx : σ.HasValue h x)
    (hm : Query.isMember σ h members = true) : ∃ m ∈ members, σ.HasValue m x := by
  unfold Query.isMember at hm
  rcases Bool.or_eq_true_iff.1 hm with hm | hm
  · exact ⟨h, List.contains_iff_mem.1 hm, hx⟩
  · split at hm
    -- not listed itself, so its primitive type or, for a number that is not one, its own type is
    · next value hn =>
      have value' := (hasValue_iff hn).1 hx
      cases value' with
      | literal hv =>
        rcases Bool.or_eq_true_iff.1 hm with hm | hm
        · refine ⟨_, List.contains_iff_mem.1 hm, hasValue_handle.2 (hv.of_fits ?_)⟩
          unfold Literal.fits
          rw [beq_self_eq_true, Bool.true_or]
        · obtain ⟨notNumber, hm⟩ := Bool.and_eq_true_iff.1 hm
          refine ⟨_, List.contains_iff_mem.1 hm, hasValue_handle.2 (hv.of_fits ?_)⟩
          unfold Literal.fits
          rw [notNumber, beq_self_eq_true, Bool.and_self, Bool.or_true]
    · cases hm

/-- The truth values are among those of members that have both. -/
theorem HasValue.of_haveBooleans {members : List Handle} (hx : σ.HasValue .boolean x)
    (hm : Query.haveBooleans σ members = true) : ∃ m ∈ members, σ.HasValue m x := by
  obtain ⟨hasTrue, hasFalse⟩ := Bool.and_eq_true_iff.1 hm
  have each : ∀ b, ∃ m ∈ members, σ.hasBoolean b m = true := by
    intro b
    cases b with
    | true => exact List.any_eq_true.1 hasTrue
    | false => exact List.any_eq_true.1 hasFalse
  cases hasValue_handle.1 hx with
  | boolean b =>
    obtain ⟨m, hm, hb⟩ := each b
    exact ⟨m, hm, hasValue_of_hasBoolean hb⟩

/-- What holds at once, the unchecked type apart, is an inclusion. -/
theorem HasValue.of_atOnce {v : View ρ} {s t : Handle} (h : v.AtOnce s t) (hs : s ≠ .any)
    (ht : t ≠ .any) (hx : v.store.HasValue s x) : v.store.HasValue t x := by
  -- `any` is left out, so what holds at once is a top, the empty type, one handle or a widening
  cases h with
  | top h =>
    obtain rfl := h.resolve_right ht
    exact hasValue_handle.2 (.unknown x)
  | bottom h =>
    subst h
    cases hasValue_handle.1 hx
  | unchecked h => exact absurd h hs
  | self h => exact h ▸ hx
  | leaf h =>
    cases hx with
    | @of _ source _ hn hx =>
      cases ht : v.store.node? t with
      | none =>
        unfold Store.leafPair? at h
        rw [hn, ht] at h
        cases h
      | some target =>
        rw [hasValue_iff ht]
        rcases (View.leafPair?_eq_some_true hn ht).1 h with
          ⟨k, l, rfl, rfl, hw⟩ | ⟨value, l, rfl, rfl, hf⟩
        · cases hx with
          | intrinsic hx => exact .intrinsic (hx.of_widensTo hw)
        · cases hx with
          | literal hx => exact .intrinsic (hx.of_fits hf)

end Store

end Assignability
