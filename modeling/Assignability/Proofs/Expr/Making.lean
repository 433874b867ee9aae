/-
  Assignability.Proofs.Expr.Making
  ────────────────────────────────
  **WHAT AN EXPRESSION IS MADE OF.**

  A type expression is made in a store by constructor calls: its parts at
  any time and in any order, and the descriptor itself by a call about
  their handles (`Store.Made`).  What else is done with the store before,
  in between and after is free, so the handles and names of two stores
  have little to do with each other.  All that is left of the making is
  what the handle shows (`Store.Reads`).

  Main statements:
    • `Made.reads` — a handle shows the expression that it was made of,
    • `made_build` — what is built of an expression, from left to right, is
      made of it.
-/
import Assignability.Expr.Build
import Assignability.Proofs.Store.Showing

namespace Assignability

variable {ρ ρ' : Type}

/-! ## §1. The call for an expression -/

namespace FieldExpr

/-- The name of a field. -/
def name : FieldExpr → String
  | .mk name _ _ => name

/-- The type of a field. -/
def type : FieldExpr → Expr
  | .mk _ type _ => type

/-- Whether a field may be left out, and has a default. -/
def presence : FieldExpr → Presence
  | .mk _ _ presence => presence

end FieldExpr

/-- A literal is the value that is written out, its text under a name. -/
inductive LiteralExpr.Reads (σ : Store ρ) : LiteralExpr → Literal → Prop
  | string {text : String} {a : Atom} (h : σ.Names a text) : Reads σ (.string text) (.string a)
  | number (x : Binary64) : Reads σ (.number x) (.number x)
  | boolean (b : Bool) : Reads σ (.boolean b) (.boolean b)
  | bigint {digits : String} {a : Atom} (h : σ.Names a digits) :
    Reads σ (.bigint digits) (.bigint a)

/-- A field is as it is declared, whatever its type. -/
structure FieldExpr.Declares (σ : Store ρ) (d : FieldExpr) (f : Field) : Prop where
  name : σ.Names f.name d.name
  optional : f.optional = d.presence.isOptional
  defaulted : f.defaulted = d.presence.hasDefault

/-- The call for an expression whose parts have handles. -/
inductive Expr.Calls (σ : Store ρ) : Expr → List (Expr × Handle) → Call ρ → Prop
  | literal {value : LiteralExpr} {v : Literal} (h : value.Reads σ v) :
    Calls σ (.literal value) [] (.literal v)
  | enumeration {values : List LiteralExpr} {vs : List Literal}
    (h : List.Forall₂ (LiteralExpr.Reads σ) values vs) :
    Calls σ (.enumeration values) [] (.enumeration vs)
  | stringEnumeration {texts : List String} {vs : List Literal}
    (h : List.Forall₂ (LiteralExpr.Reads σ) (texts.map .string) vs) :
    Calls σ (.stringEnumeration texts) [] (.enumeration vs)
  | array (e : Expr) (h : Handle) : Calls σ (.array e) [(e, h)] (.array h)
  | set (e : Expr) (h : Handle) : Calls σ (.set e) [(e, h)] (.set h)
  | promise (e : Expr) (h : Handle) : Calls σ (.promise e) [(e, h)] (.promise h)
  | record (key value : Expr) (k v : Handle) :
    Calls σ (.record key value) [(key, k), (value, v)] (.record k v)
  | map (key value : Expr) (k v : Handle) :
    Calls σ (.map key value) [(key, k), (value, v)] (.map k v)
  | tuple (ps : List (Expr × Handle)) :
    Calls σ (.tuple (ps.map (·.1))) ps (.tuple ⟨ps.map (·.2), none⟩)
  | tupleWithRest (ps : List (Expr × Handle)) (rest : Expr) (r : Handle) :
    Calls σ (.tupleWithRest (ps.map (·.1)) rest) (ps ++ [(rest, r)])
      (.tuple ⟨ps.map (·.2), some r⟩)
  | function (ps : List (Expr × Handle)) (result : Expr) (r : Handle) :
    Calls σ (.function (ps.map (·.1)) result) ((result, r) :: ps)
      (.function ⟨⟨ps.map (·.2), none⟩, r⟩)
  | functionWithRest (ps : List (Expr × Handle)) (result rest : Expr) (r x : Handle) :
    Calls σ (.functionWithRest (ps.map (·.1)) result rest) ((result, r) :: (ps ++ [(rest, x)]))
      (.function ⟨⟨ps.map (·.2), some x⟩, r⟩)
  | object (fs : List (FieldExpr × Field)) (h : ∀ f ∈ fs, f.1.Declares σ f.2) :
    Calls σ (.object (fs.map (·.1))) (fs.map fun f => (f.1.type, f.2.type))
      (.object (fs.map (·.2)) none)
  | indexedObject (fs : List (FieldExpr × Field)) (h : ∀ f ∈ fs, f.1.Declares σ f.2)
    (key value : Expr) (k v : Handle) :
    Calls σ (.indexedObject (fs.map (·.1)) key value)
      ((fs.map fun f => (f.1.type, f.2.type)) ++ [(key, k), (value, v)])
      (.object (fs.map (·.2)) (some ⟨k, v⟩))
  | union (ps : List (Expr × Handle)) : Calls σ (.union (ps.map (·.1))) ps (.union (ps.map (·.2)))
  | intersection (ps : List (Expr × Handle)) :
    Calls σ (.intersection (ps.map (·.1))) ps (.intersection (ps.map (·.2)))
  | branded (e : Expr) (brand : String) (h : Handle) :
    Calls σ (.branded e brand) [(e, h)] (.branded h brand)

/-- The expressions that an expression is made of. -/
def Expr.parts : Expr → List Expr
  | .array e | .set e | .promise e | .branded e _ => [e]
  | .record key value | .map key value => [key, value]
  | .tuple es | .union es | .intersection es => es
  | .tupleWithRest es rest => es ++ [rest]
  | .function es result => result :: es
  | .functionWithRest es result rest => result :: (es ++ [rest])
  | .object ds => ds.map FieldExpr.type
  | .indexedObject ds key value => ds.map FieldExpr.type ++ [key, value]
  | _ => []

section

variable {σ τ : Store ρ} {e : Expr} {ps : List (Expr × Handle)} {c : Call ρ}

/-- A literal that is read once is read so in every later store. -/
theorem LiteralExpr.Reads.grows {value : LiteralExpr} {v : Literal} (reads : value.Reads σ v)
    (grows : σ.Grows τ) : value.Reads τ v := by
  cases reads with
  | string h => exact .string (h.grows grows)
  | number x => exact .number x
  | boolean b => exact .boolean b
  | bigint h => exact .bigint (h.grows grows)

/-- A field that is declared once is declared so in every later store. -/
theorem FieldExpr.Declares.grows {d : FieldExpr} {f : Field} (declares : d.Declares σ f)
    (grows : σ.Grows τ) : d.Declares τ f :=
  { declares with name := declares.name.grows grows }

namespace Expr.Calls

/-- A call for an expression remains one when the store grows. -/
theorem grows (calls : e.Calls σ ps c) (grows : σ.Grows τ) : e.Calls τ ps c := by
  cases calls with
  | literal h => exact .literal (h.grows grows)
  | enumeration h => exact .enumeration (h.imp fun _ _ h => h.grows grows)
  | stringEnumeration h => exact .stringEnumeration (h.imp fun _ _ h => h.grows grows)
  | array => exact .array ..
  | set => exact .set ..
  | promise => exact .promise ..
  | record => exact .record ..
  | map => exact .map ..
  | tuple => exact .tuple ..
  | tupleWithRest => exact .tupleWithRest ..
  | function => exact .function ..
  | functionWithRest => exact .functionWithRest ..
  | object fs h => exact .object fs fun f hf => (h f hf).grows grows
  | indexedObject fs h => exact .indexedObject fs (fun f hf => (h f hf).grows grows) ..
  | union => exact .union ..
  | intersection => exact .intersection ..
  | branded => exact .branded ..

/-- A call is about the handles of the parts. -/
theorem handles_eq (calls : e.Calls σ ps c) : c.handles = ps.map (·.2) := by
  cases calls <;> simp [Call.handles, Sequence.parts, Signature.parts, Layout.parts,
    IndexSignature.parts, Function.comp_def]

/-- The parts of an expression are those that the call is made for. -/
theorem parts_eq (calls : e.Calls σ ps c) : e.parts = ps.map (·.1) := by
  cases calls <;> simp [Expr.parts, Function.comp_def]

/-- No expression of a type declares a lazy node. -/
theorem ne_declare (calls : e.Calls σ ps c) : c ≠ .declare := by
  cases calls <;> nofun

end Expr.Calls

end

/-! ## §2. Made at any time -/

namespace Store

/-- A handle that an expression was given: that of a built-in type, or that of a call about handles
that the parts were given before.  Anything may be done with the store at any time.  The texts of an
expression are under names of their own, which they are given unless their shards are full. -/
inductive Made : Store ρ → Expr → Handle → Prop
  | builtIn (σ : Store ρ) (k : Intrinsic) : Made σ (.handle k.handle) k.handle
  | call {σ : Store ρ} {e : Expr} {ps : List (Expr × Handle)} {c : Call ρ} {h : Handle}
    (calls : e.Calls σ ps c) (parts : ∀ p ∈ ps, Made σ p.1 p.2) (named : c.IsNamed σ)
    (gives : c.handle? σ = some h) : Made (c.carryOut σ) e h
  | later {σ τ : Store ρ} {e : Expr} {h : Handle} (made : Made σ e h) (evolves : σ.Evolves τ) :
    Made τ e h

/-- What a handle shows of an expression, and its parts of the expression's parts. -/
inductive Reads (σ : Store ρ) : Expr → Handle → Prop
  | builtIn {h : Handle} (k : Intrinsic) (hh : h = k.handle) : Reads σ (.handle h) h
  | call {e : Expr} {ps : List (Expr × Handle)} {c : Call ρ} {h : Handle}
    (calls : e.Calls σ ps c) (parts : ∀ p ∈ ps, Reads σ p.1 p.2) (shows : σ.Shows c h) :
    Reads σ e h

variable {σ τ : Store ρ} {e : Expr} {h : Handle}

/-- What holds of the handles of the parts holds of the handles that a call is about. -/
theorem handles_of_parts {P : Handle → Prop} {ps : List (Expr × Handle)} {c : Call ρ}
    (calls : e.Calls σ ps c) (parts : ∀ p ∈ ps, P p.2) : ∀ m ∈ c.handles, P m := by
  intro m hm
  rw [calls.handles_eq] at hm
  obtain ⟨p, hp, rfl⟩ := List.mem_map.1 hm
  exact parts p hp

/-- What an expression reads as was built. -/
theorem Reads.built (reads : σ.Reads e h) : σ.Built h := by
  induction reads with
  | builtIn k hh => exact hh ▸ σ.built_handle k
  | call calls _ shows ih => exact shows.built (handles_of_parts calls ih)

/-- An expression reads the same when the store grows. -/
theorem Reads.grows (reads : σ.Reads e h) (grows : σ.Grows τ) : τ.Reads e h := by
  induction reads with
  | builtIn k hh => exact .builtIn k hh
  | call calls parts shows ih =>
    have built := handles_of_parts calls fun p hp => (parts p hp).built
    exact .call (calls.grows grows) ih (shows.grows grows built)

/-- **A HANDLE SHOWS THE EXPRESSION THAT IT WAS MADE OF**, whatever else was done. -/
theorem Made.reads (made : σ.Made e h) : σ.Reads e h := by
  induction made with
  | builtIn σ k => exact .builtIn k rfl
  | @call σ e ps c h calls _ named gives ih =>
    have grows := grows_carryOut c σ
    have built := handles_of_parts calls fun p hp => (ih p hp).built
    exact .call (calls.grows grows) (fun p hp => (ih p hp).grows grows)
      (shows_carryOut gives calls.ne_declare named built)
  | later _ evolves ih => exact ih.grows evolves.grows

end Store

/-! ## §3. Room for names -/

namespace Store

/-- No shard of names is full. -/
def HasRoom (σ : Store ρ) : Prop := ∀ i, (σ.strings.shard i).size ≤ Pool.lastPlace

variable {σ τ : Store ρ}

/-- A store that has room had it before it grew. -/
theorem HasRoom.before (grows : σ.Grows τ) (room : τ.HasRoom) : σ.HasRoom := by
  intro i
  refine Nat.le_trans (Nat.le_of_not_lt fun less => ?_) (room i)
  -- the first place that there is in the earlier shard alone
  let place := (τ.strings.shard i).size
  have resolves : ∀ υ : Store ρ, υ.strings.resolve? (Pool.atomOf i place)
      = (υ.strings.shard i).get? place := by
    intro υ
    unfold Pool.resolve?
    rw [Pool.shardOf_atomOf, Pool.placeOf_atomOf]
  have text : (σ.strings.shard i).get? place = some _ := Array.getElem?_eq_getElem less
  have later := grows.strings _ _ ((resolves σ).trans text)
  rw [resolves] at later
  exact absurd (Array.getElem?_eq_some_iff.1 later).1 (Nat.lt_irrefl _)

/-- A few texts take little room. -/
theorem HasRoom.of_strings {assign : String → Fin 64} (texts : List String)
    (few : Pool.commonNames.length + texts.length < Pool.lastPlace)
    (strings : σ.strings = (Store.new assign : Store ρ).strings.internAll texts) : σ.HasRoom := by
  have all : σ.strings = (Pool.empty assign).internAll (Pool.commonNames ++ texts) := by
    rw [strings, strings_new]
    exact List.foldl_append.symm
  intro i
  rw [all]
  refine Nat.le_trans (Pool.size_shard_le assign _ i) ?_
  rw [List.length_append]
  omega

/-- The empty text has a name in every store. -/
theorem names_empty {assign : String → Fin 64} (begins : (Store.new assign).Evolves σ) :
    σ.Names .none "" := by
  have new : (Store.new assign : Store ρ).Names .none "" := by
    unfold Store.Names
    rw [Store.strings_new]
    exact Pool.resolve?_none assign Pool.commonNames
  exact new.grows begins.grows

/-- A text gets a name where there is room. -/
theorem names_internText (empty : σ.Names .none "") (room : σ.HasRoom) (text : String) :
    (internText text σ).2.Names (internText text σ).1 text := by
  show (σ.strings.intern text).2.resolve? (σ.strings.intern text).1 = some text
  unfold Pool.intern
  -- the empty text has its own atom; any other is found, or added while there is room
  split
  · next same => exact same ▸ empty
  · dsimp only
    split
    · next place found =>
      unfold Pool.resolve?
      rw [Pool.shardOf_atomOf, Pool.placeOf_atomOf]
      obtain ⟨text', h, same⟩ := Table.get?_eq_some_of_number? found
      exact h.trans (congrArg some same)
    · rw [if_neg (Nat.not_lt.2 (room _))]
      unfold Pool.resolve? Pool.shard
      rw [Pool.shardOf_atomOf, Pool.placeOf_atomOf]
      dsimp only
      rw [Fin.getElem_fin, Vector.getElem_set_self]
      obtain ⟨text', h, same⟩ := Table.exists_get?_intern_fst
        (σ.strings.shard (σ.strings.assign text)) text
      exact h.trans (congrArg some same)

end Store

/-! ## §4. Built from left to right -/

/-- Whether an expression stands for a constructor call: it is no name, no handle, no template and
nothing lazy. -/
def Expr.isConstructed : Expr → Bool
  | .handle _ | .variable _ | .this | .lazy _ | .lazyRec _ | .declare | .template _ | .node _ =>
    false
  | _ => true

/-- Expressions of constructor calls and built-in types. -/
inductive Expr.IsPlain : Expr → Prop
  | builtIn (k : Intrinsic) : IsPlain (.handle k.handle)
  | constructed {e : Expr} (is : e.isConstructed = true) (parts : ∀ p ∈ e.parts, IsPlain p) :
    IsPlain e

section

variable {scope : Scope} {expand : Expander} {this : Option Handle} {σ : Store Recipe}

/-- A built literal reads as the expression that it was built from. -/
theorem LiteralExpr.reads_build (value : LiteralExpr) (empty : σ.Names .none "")
    (room : (value.build σ).2.HasRoom) : value.Reads (value.build σ).2 (value.build σ).1 := by
  cases value with
  | string text =>
    exact .string
      (Store.names_internText empty (room.before (Store.grows_internText text σ)) text)
  | bigint digits =>
    exact .bigint
      (Store.names_internText empty (room.before (Store.grows_internText digits σ)) digits)
  | number x => exact .number x
  | boolean b => exact .boolean b

/-- So do many, each of them in the store that the last one leaves. -/
theorem LiteralExpr.reads_buildAll (values : List LiteralExpr) : ∀ σ : Store Recipe,
    σ.Names .none "" → (values.mapM LiteralExpr.build σ).2.HasRoom →
      List.Forall₂ (LiteralExpr.Reads (values.mapM LiteralExpr.build σ).2) values
        (values.mapM LiteralExpr.build σ).1 := by
  induction values with
  | nil => exact fun _ _ _ => .nil
  | cons value values ih =>
    intro σ empty room
    rw [List.mapM_cons, Store.bind_apply, Store.bind_apply] at room ⊢
    have first := (evolves_literalExpr value σ).grows
    have rest := (Build.evolves_mapM evolves_literalExpr values (value.build σ).2).grows
    refine .cons ?_ (ih _ (empty.grows first) room)
    exact (value.reads_build empty (room.before rest)).grows rest

variable (scope expand this) in
/-- Where an expression is built, it is made, as long as there is room for its names. -/
def Expr.IsMade (e : Expr) : Prop := ∀ σ : Store Recipe, σ.Names .none "" →
  (e.buildWith scope expand this σ).2.HasRoom →
    (e.buildWith scope expand this σ).2.Made e (e.buildWith scope expand this σ).1

variable (expands : ∀ name this, Build.Evolves (expand name this))
include expands

/-- Expressions that are made one by one are all made in the store that the last one leaves. -/
theorem Expr.made_buildAll {es : List Expr} (each : ∀ e ∈ es, e.IsMade scope expand this) :
    ∀ σ : Store Recipe, σ.Names .none "" → (Expr.buildAll scope expand this es σ).2.HasRoom →
      ∃ ps : List (Expr × Handle), es = ps.map (·.1) ∧
        (Expr.buildAll scope expand this es σ).1 = ps.map (·.2) ∧
        ∀ p ∈ ps, (Expr.buildAll scope expand this es σ).2.Made p.1 p.2 := by
  -- one after the other: what was made before is made in the later store as well
  induction es with
  | nil => exact fun _ _ _ => ⟨[], rfl, rfl, nofun⟩
  | cons e es ih =>
    intro σ empty room
    rw [Expr.buildAll, Store.bind_apply, Store.bind_apply] at room ⊢
    let r := e.buildWith scope expand this σ
    have first : σ.Evolves r.2 := evolves_buildWith expands e σ
    have rest : r.2.Evolves (Expr.buildAll scope expand this es r.2).2 :=
      evolves_buildAll expands es r.2
    have made := each e List.mem_cons_self σ empty (room.before rest.grows)
    obtain ⟨ps, hes, hhs, others⟩ := ih (fun x hx => each x (List.mem_cons_of_mem e hx)) r.2
      (empty.grows first.grows) room
    refine ⟨(e, r.1) :: ps, congrArg (e :: ·) hes, congrArg (r.1 :: ·) hhs, fun p hp => ?_⟩
    rcases List.mem_cons.1 hp with rfl | hp
    · exact made.later rest
    · exact others p hp

/-- The same holds of the fields of an object. -/
theorem Expr.made_buildFields {ds : List FieldExpr}
    (each : ∀ d ∈ ds, d.type.IsMade scope expand this) :
    ∀ σ : Store Recipe, σ.Names .none "" → (Expr.buildFields scope expand this ds σ).2.HasRoom →
      ∃ fs : List (FieldExpr × Field), ds = fs.map (·.1) ∧
        (Expr.buildFields scope expand this ds σ).1 = fs.map (·.2) ∧
        ∀ f ∈ fs, f.1.Declares (Expr.buildFields scope expand this ds σ).2 f.2 ∧
          (Expr.buildFields scope expand this ds σ).2.Made f.1.type f.2.type := by
  induction ds with
  | nil => exact fun _ _ _ => ⟨[], rfl, rfl, nofun⟩
  | cons d ds ih =>
    obtain ⟨name, type, presence⟩ := d
    intro σ empty room
    rw [Expr.buildFields, Store.bind_apply, Store.bind_apply, FieldExpr.buildWith, Store.bind_apply,
      Store.bind_apply] at room ⊢
    -- the name is interned, then the type is built, then the other fields
    let a := Store.internText name σ
    let r := type.buildWith scope expand this a.2
    have first : σ.Grows a.2 := Store.grows_internText name σ
    have second : a.2.Evolves r.2 := evolves_buildWith expands type a.2
    have rest : r.2.Evolves (Expr.buildFields scope expand this ds r.2).2 :=
      evolves_buildFields expands ds r.2
    have named := Store.names_internText empty
      (room.before ((first.trans second.grows).trans rest.grows)) name
    have made := each _ List.mem_cons_self a.2 (empty.grows first) (room.before rest.grows)
    obtain ⟨fs, hds, hfs, others⟩ := ih (fun x hx => each x (List.mem_cons_of_mem _ hx)) r.2
      (empty.grows (first.trans second.grows)) room
    refine ⟨(.mk name type presence, ⟨a.1, r.1, presence.isOptional, presence.hasDefault⟩) :: fs,
      congrArg (_ :: ·) hds, congrArg (_ :: ·) hfs, fun f hf => ?_⟩
    rcases List.mem_cons.1 hf with rfl | hf
    · exact ⟨⟨named.grows (second.grows.trans rest.grows), rfl, rfl⟩, made.later rest⟩
    · exact others f hf

/-- Two expressions that are built one after the other. -/
theorem Expr.made_buildTwo {d e : Expr} (hd : d.IsMade scope expand this)
    (he : e.IsMade scope expand this) (empty : σ.Names .none "")
    (room : (e.buildWith scope expand this (d.buildWith scope expand this σ).2).2.HasRoom) :
    ∀ p ∈ [(d, (d.buildWith scope expand this σ).1),
        (e, (e.buildWith scope expand this (d.buildWith scope expand this σ).2).1)],
      (e.buildWith scope expand this (d.buildWith scope expand this σ).2).2.Made p.1 p.2 := by
  have first : σ.Evolves (d.buildWith scope expand this σ).2 := evolves_buildWith expands d σ
  have second : (d.buildWith scope expand this σ).2.Evolves
      (e.buildWith scope expand this (d.buildWith scope expand this σ).2).2 :=
    evolves_buildWith expands e _
  have made := hd σ empty (room.before second.grows)
  have made' := he _ (empty.grows first.grows) room
  exact List.forall_mem_cons.2 ⟨made.later second, List.forall_mem_singleton.2 made'⟩

/-- Expressions that are built one after the other, and one more. -/
theorem Expr.made_buildLast {es : List Expr} {e : Expr}
    (each : ∀ x ∈ es, x.IsMade scope expand this) (last : e.IsMade scope expand this)
    (empty : σ.Names .none "")
    (room : (e.buildWith scope expand this (Expr.buildAll scope expand this es σ).2).2.HasRoom) :
    ∃ ps : List (Expr × Handle), es = ps.map (·.1) ∧
      (Expr.buildAll scope expand this es σ).1 = ps.map (·.2) ∧
      ∀ p ∈ (e, (e.buildWith scope expand this (Expr.buildAll scope expand this es σ).2).1) :: ps,
        (e.buildWith scope expand this (Expr.buildAll scope expand this es σ).2).2.Made
          p.1 p.2 := by
  have before : σ.Evolves (Expr.buildAll scope expand this es σ).2 := evolves_buildAll expands es σ
  have later : (Expr.buildAll scope expand this es σ).2.Evolves
      (e.buildWith scope expand this (Expr.buildAll scope expand this es σ).2).2 :=
    evolves_buildWith expands e _
  obtain ⟨ps, hes, handles, made⟩ := Expr.made_buildAll expands each σ empty
    (room.before later.grows)
  refine ⟨ps, hes, handles, List.forall_mem_cons.2 ⟨?_, fun p hp => (made p hp).later later⟩⟩
  exact last _ (empty.grows before.grows) room

/-- A constructor call for an expression is made where its parts are. -/
theorem Expr.isMade_of_parts {e : Expr} (is : e.isConstructed = true)
    (parts : ∀ p ∈ e.parts, p.IsMade scope expand this) : e.IsMade scope expand this := by
  -- One case for each constructor. The parts are built first and the call is made in the store
  -- that they leave, so their room and what they read must be carried there.
  have each : ∀ es : List Expr, (∀ x ∈ es, x ∈ e.parts) → ∀ x ∈ es, x.IsMade scope expand this :=
    fun es inner x hx => parts x (inner x hx)
  intro σ empty room
  cases e with
  | literal value =>
    rw [Expr.buildWith, Store.bind_apply] at room ⊢
    have reads := value.reads_build empty (room.before (Store.grows_carryOut (.literal _) _))
    exact .call (.literal reads) nofun trivial rfl
  | enumeration values =>
    rw [Expr.buildWith, Store.bind_apply] at room ⊢
    have reads := LiteralExpr.reads_buildAll values σ empty
      (room.before (Store.grows_carryOut (.enumeration _) _))
    exact .call (.enumeration reads) nofun trivial rfl
  | stringEnumeration texts =>
    have same : Expr.buildWith scope expand this (.stringEnumeration texts)
        = (texts.map .string).mapM LiteralExpr.build >>= Store.enumeration := by
      rw [Expr.buildWith, Store.stringEnumeration, List.mapM_map]
      rfl
    rw [same, Store.bind_apply] at room ⊢
    have reads := LiteralExpr.reads_buildAll (texts.map .string) σ empty
      (room.before (Store.grows_carryOut (.enumeration _) _))
    exact .call (.stringEnumeration reads) nofun trivial rfl
  | array element =>
    rw [Expr.buildWith, Store.bind_apply] at room ⊢
    have made := parts element List.mem_cons_self σ empty
      (room.before (Store.grows_carryOut (.array _) _))
    exact .call (.array element _) (List.forall_mem_singleton.2 made) trivial rfl
  | set element =>
    rw [Expr.buildWith, Store.bind_apply] at room ⊢
    have made := parts element List.mem_cons_self σ empty
      (room.before (Store.grows_carryOut (.set _) _))
    exact .call (.set element _) (List.forall_mem_singleton.2 made) trivial rfl
  | promise inner =>
    rw [Expr.buildWith, Store.bind_apply] at room ⊢
    have made := parts inner List.mem_cons_self σ empty
      (room.before (Store.grows_carryOut (.promise _) _))
    exact .call (.promise inner _) (List.forall_mem_singleton.2 made) trivial rfl
  | record key value =>
    rw [Expr.buildWith, Store.bind_apply, Store.bind_apply] at room ⊢
    have made := Expr.made_buildTwo expands (parts key (by simp [Expr.parts]))
      (parts value (by simp [Expr.parts])) empty
      (room.before (Store.grows_carryOut (.record _ _) _))
    exact .call (.record key value _ _) made trivial rfl
  | map key value =>
    rw [Expr.buildWith, Store.bind_apply, Store.bind_apply] at room ⊢
    have made := Expr.made_buildTwo expands (parts key (by simp [Expr.parts]))
      (parts value (by simp [Expr.parts])) empty
      (room.before (Store.grows_carryOut (.map _ _) _))
    exact .call (.map key value _ _) made trivial rfl
  | tuple items =>
    rw [Expr.buildWith, Store.bind_apply] at room ⊢
    obtain ⟨ps, rfl, handles, made⟩ := Expr.made_buildAll expands
      (each items (by simp [Expr.parts])) σ empty
      (room.before (Store.grows_carryOut (.tuple _) _))
    rw [handles]
    exact .call (.tuple ps) made trivial rfl
  -- the rest is built behind the elements
  | tupleWithRest items rest =>
    rw [Expr.buildWith, Store.bind_apply, Store.bind_apply] at room ⊢
    obtain ⟨ps, rfl, handles, made⟩ := Expr.made_buildLast expands
      (each items (by simp +contextual [Expr.parts])) (parts rest (by simp [Expr.parts])) empty
      (room.before (Store.grows_carryOut (.tuple _) _))
    rw [handles]
    exact .call (.tupleWithRest ps rest _) (fun p hp => made p (by grind)) trivial rfl
  | function parameters result =>
    rw [Expr.buildWith, Store.bind_apply, Store.bind_apply] at room ⊢
    obtain ⟨ps, rfl, handles, made⟩ := Expr.made_buildLast expands
      (each parameters (by simp +contextual [Expr.parts])) (parts result (by simp [Expr.parts]))
      empty (room.before (Store.grows_carryOut (.function _) _))
    rw [handles]
    exact .call (.function ps result _) made trivial rfl
  -- here the rest comes last, behind the result
  | functionWithRest parameters result rest =>
    rw [Expr.buildWith, Store.bind_apply, Store.bind_apply, Store.bind_apply] at room ⊢
    let hs := Expr.buildAll scope expand this parameters σ
    let r := result.buildWith scope expand this hs.2
    have before : σ.Evolves r.2 :=
      (evolves_buildAll expands parameters σ).trans (evolves_buildWith expands result hs.2)
    have later : r.2.Evolves (rest.buildWith scope expand this r.2).2 :=
      evolves_buildWith expands rest r.2
    have room' := room.before (Store.grows_carryOut (.function _) _)
    have last := parts rest (by simp [Expr.parts]) r.2 (empty.grows before.grows) room'
    obtain ⟨ps, rfl, handles, made⟩ := Expr.made_buildLast expands
      (each parameters (by simp +contextual [Expr.parts])) (parts result (by simp [Expr.parts]))
      empty (room'.before later.grows)
    rw [handles]
    refine .call (.functionWithRest ps result rest _ _) (fun p hp => ?_) trivial rfl
    rw [← List.cons_append] at hp
    rcases List.mem_append.1 hp with hp | hp
    · exact (made p hp).later later
    · exact List.mem_singleton.1 hp ▸ last
  | object fields =>
    rw [Expr.buildWith, Store.bind_apply] at room ⊢
    obtain ⟨fs, rfl, handles, made⟩ := Expr.made_buildFields expands
      (fun d hd => parts d.type (List.mem_map_of_mem hd)) σ empty
      (room.before (Store.grows_carryOut (.object _ _) _))
    rw [handles]
    exact .call (.object fs fun f hf => (made f hf).1)
      (List.forall_mem_map.2 fun f hf => (made f hf).2) trivial rfl
  -- the fields, then the key, then the value
  | indexedObject fields key value =>
    rw [Expr.buildWith, Store.bind_apply, Store.bind_apply, Store.bind_apply] at room ⊢
    let r := Expr.buildFields scope expand this fields σ
    let k := key.buildWith scope expand this r.2
    have before : σ.Evolves r.2 := evolves_buildFields expands fields σ
    have later : r.2.Evolves (value.buildWith scope expand this k.2).2 :=
      (evolves_buildWith expands key r.2).trans (evolves_buildWith expands value k.2)
    have room' := room.before (Store.grows_carryOut (.object _ _) _)
    have two := Expr.made_buildTwo expands (parts key (by simp [Expr.parts]))
      (parts value (by simp [Expr.parts])) (empty.grows before.grows) room'
    obtain ⟨fs, rfl, handles, made⟩ := Expr.made_buildFields expands
      (fun d hd => parts d.type (List.mem_append_left _ (List.mem_map_of_mem hd))) σ empty
      (room'.before later.grows)
    rw [handles]
    refine .call (.indexedObject fs (fun f hf => (made f hf).1.grows later.grows) key value _ _)
      (fun p hp => ?_) trivial rfl
    rcases List.mem_append.1 hp with hp | hp
    · obtain ⟨f, hf, rfl⟩ := List.mem_map.1 hp
      exact (made f hf).2.later later
    · exact two p hp
  | union members =>
    rw [Expr.buildWith, Store.bind_apply] at room ⊢
    obtain ⟨ps, rfl, handles, made⟩ := Expr.made_buildAll expands
      (each members (by simp [Expr.parts])) σ empty
      (room.before (Store.grows_carryOut (.union _) _))
    rw [handles]
    exact .call (.union ps) made trivial rfl
  | intersection members =>
    rw [Expr.buildWith, Store.bind_apply] at room ⊢
    obtain ⟨ps, rfl, handles, made⟩ := Expr.made_buildAll expands
      (each members (by simp [Expr.parts])) σ empty
      (room.before (Store.grows_carryOut (.intersection _) _))
    rw [handles]
    exact .call (.intersection ps) made trivial rfl
  -- the name of the brand is interned by the call itself
  | branded base brand =>
    rw [Expr.buildWith, Store.bind_apply] at room ⊢
    have before : σ.Evolves (base.buildWith scope expand this σ).2 :=
      evolves_buildWith expands base σ
    have room' := room.before (Store.grows_carryOut (.branded _ brand) _)
    have made := parts base List.mem_cons_self σ empty room'
    exact .call (.branded base brand _) (List.forall_mem_singleton.2 made)
      (Store.names_internText (empty.grows before.grows) room' brand) rfl
  | _ => cases is

end

/-- **WHAT IS BUILT OF AN EXPRESSION IS MADE OF IT**, as long as there is room for its names. -/
theorem Expr.made_build {e : Expr} (plain : e.IsPlain) (scope : Scope) (this : Option Handle)
    {assign : String → Fin 64} {σ : Store Recipe} (begins : (Store.new assign).Evolves σ)
    (room : (e.build scope this σ).2.HasRoom) :
    (e.build scope this σ).2.Made e (e.build scope this σ).1 := by
  have made : e.IsMade scope (scope.expandTo scope.templates.length) this := by
    clear room
    induction plain with
    | builtIn k => exact fun σ _ _ => .builtIn σ k
    | constructed is _ ih => exact Expr.isMade_of_parts (evolves_expandTo _) is ih
  exact made σ (Store.names_empty begins) room

/-- Expressions that are built one after the other are both made. -/
theorem Expr.made_both {d e : Expr} (source : d.IsPlain) (target : e.IsPlain) (scope : Scope)
    {assign : String → Fin 64} {σ : Store Recipe} (begins : (Store.new assign).Evolves σ)
    (room : (e.build scope none (d.build scope none σ).2).2.HasRoom) :
    let s := d.build scope none σ
    let t := e.build scope none s.2
    (Store.new assign).Evolves t.2 ∧ t.2.Made d s.1 ∧ t.2.Made e t.1 := by
  intro s t
  have first : σ.Evolves s.2 := evolves_buildWith (evolves_expandTo _) d σ
  have second : s.2.Evolves t.2 := evolves_buildWith (evolves_expandTo _) e s.2
  have before := begins.trans first
  refine ⟨before.trans second, ?_, Expr.made_build target scope none before room⟩
  exact (Expr.made_build source scope none begins (room.before second.grows)).later second

end Assignability
