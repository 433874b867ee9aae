/-
  Assignability.Proofs.Store.Interning
  ────────────────────────────────────
  **ONE HANDLE FOR ONE DESCRIPTOR.**

  Whatever is done with a store, a descriptor keeps its one handle: two
  constructor calls give the same handle exactly where what they build is
  the same in normal form, however far apart the calls are and whatever
  resolvers and comparisons do in between.  And what a handle or the
  number of a list or a shape stands for never changes.

  A resolver may do with the store what anyone may, at any time, also in
  the middle of a comparison.  Each of the steps it consists of adds to
  the store (`Store.Evolves`), so all operations do (`evolves_after`), and
  a handle can be read off what it showed when it was given out
  (`Discerns`).

  Main statements:
    • `hashConses` — handles and descriptors answer each other one to one,
      and nothing that was given out changes,
    • `evolves_run` — resolvers that are written as expressions are
      resolvers of this kind.
-/
import Assignability.Expr.Build
import Assignability.Proofs.Checker.Idle
import Assignability.Proofs.Store.Normal
import Mathlib.Data.List.Forall2

namespace Assignability

variable {ρ α β : Type} {run : Runner ρ} {σ τ υ : Store ρ} {h g : Handle}

/-! ## §1. What may be done with a store -/

namespace Store

/-- Stores that come of a store by steps that anyone may take: constructor calls, descriptors
interned as they are, definitions added and given their resolvers, resolutions put on record. -/
inductive Evolves : Store ρ → Store ρ → Prop
  | refl (σ : Store ρ) : Evolves σ σ
  | call {σ τ : Store ρ} (c : Call ρ) (before : Evolves σ τ) : Evolves σ (c.carryOut τ)
  | intern {σ τ : Store ρ} (n : Node) (before : Evolves σ τ) : Evolves σ (Store.intern n τ).2
  | addDefinition {σ τ : Store ρ} (before : Evolves σ τ) : Evolves σ (Store.addDefinition τ).2
  | attachResolver {σ τ : Store ρ} (d : LazyId) (resolver : ρ) (before : Evolves σ τ) :
    Evolves σ (Store.attachResolver d resolver τ).2
  | recordResolution {σ τ : Store ρ} (d : LazyId) (h : Handle) (before : Evolves σ τ) :
    Evolves σ (Store.recordResolution d h τ).2

theorem Evolves.trans (before : σ.Evolves τ) (after : τ.Evolves υ) : σ.Evolves υ := by
  induction after with
  | refl => exact before
  | call c _ ih => exact ih.call c
  | intern n _ ih => exact ih.intern n
  | addDefinition _ ih => exact ih.addDefinition
  | attachResolver d resolver _ ih => exact ih.attachResolver d resolver
  | recordResolution d h _ ih => exact ih.recordResolution d h

/-- **NO STEP TAKES ANYTHING AWAY.** -/
theorem Evolves.grows (evolves : σ.Evolves τ) : σ.Grows τ := by
  induction evolves with
  | refl => exact .refl σ
  | call c _ ih => exact ih.trans (grows_carryOut c _)
  | intern n _ ih => exact ih.trans (grows_intern n _)
  | addDefinition _ ih => exact ih.trans (grows_addDefinition _)
  | attachResolver d resolver _ ih => exact ih.trans (grows_attachResolver d resolver _)
  | recordResolution d h _ ih => exact ih.trans (grows_recordResolution d h _)

end Store

/-- A step of building that does what anyone may. -/
def Build.Evolves (step : Build ρ α) : Prop := ∀ σ : Store ρ, σ.Evolves (step σ).2

/-- Resolvers do with the store what anyone may. -/
def Runner.Evolves (run : Runner ρ) : Prop := ∀ resolver, Build.Evolves (run resolver)

/-- An operation on a store. -/
inductive Operation (ρ : Type) where
  /-- A constructor, a declaration or a definition. -/
  | call (c : Call ρ)
  /-- A descriptor whose parts are numbers already. -/
  | intern (n : Node)
  /-- A definition that no node speaks of yet. -/
  | addDefinition
  /-- A resolver for a definition that is known by its number. -/
  | attachResolver (d : LazyId) (resolver : ρ)
  | resolve (d : LazyId)
  /-- A comparison, by a checker that may have compared before. -/
  | check (checker : Checker) (s t : Handle)

variable (run) in
/-- The store after an operation. -/
def Operation.carryOut : Operation ρ → Store ρ → Store ρ
  | .call c, σ => c.carryOut σ
  | .intern n, σ => (Store.intern n σ).2
  | .addDefinition, σ => (Store.addDefinition σ).2
  | .attachResolver d resolver, σ => (Store.attachResolver d resolver σ).2
  | .resolve d, σ => (Store.destination? run d σ).2
  | .check checker s t, σ => (Assignability.check run s t ⟨σ, checker⟩).2.store

variable (run) in
/-- The store after operations, one after the other. -/
def Store.after (operations : List (Operation ρ)) (σ : Store ρ) : Store ρ :=
  operations.foldl (fun σ operation => operation.carryOut run σ) σ

/-! ## §2. Comparisons do what resolvers do -/

namespace Store

theorem evolves_follow (resolvers : run.Evolves) (steps : Nat) (visited : List LazyId)
    (d : LazyId) : Build.Evolves (follow run steps visited d) := fun σ =>
  follow_invariant (I := σ.Evolves) (fun resolver τ before => before.trans (resolvers resolver τ))
    (fun d h _ before => before.recordResolution d h) steps visited d σ (.refl σ)

theorem evolves_resolve (resolvers : run.Evolves) (h : Handle) : Build.Evolves (resolve run h) :=
  fun σ => resolve_invariant (I := σ.Evolves)
    (fun resolver τ before => before.trans (resolvers resolver τ))
    (fun d h _ before => before.recordResolution d h) h σ (.refl σ)

theorem evolves_carryOut (resolvers : run.Evolves)
    (operation : Operation ρ) (σ : Store ρ) : σ.Evolves (operation.carryOut run σ) := by
  cases operation with
  | call c => exact (Evolves.refl σ).call c
  | intern n => exact (Evolves.refl σ).intern n
  | addDefinition => exact (Evolves.refl σ).addDefinition
  | attachResolver d resolver => exact (Evolves.refl σ).attachResolver d resolver
  | resolve d => exact evolves_follow resolvers longestChain [] d σ
  | check checker s t =>
    exact store_check (I := σ.Evolves)
      (fun h τ before => before.trans (evolves_resolve resolvers h τ)) s t ⟨σ, checker⟩ (.refl σ)

theorem evolves_after (resolvers : run.Evolves)
    (operations : List (Operation ρ)) : ∀ σ : Store ρ, σ.Evolves (σ.after run operations) := by
  induction operations with
  | nil => exact .refl
  | cons operation operations ih =>
    exact fun σ => (evolves_carryOut resolvers operation σ).trans (ih _)

end Store

/-! ## §3. What a handle shows -/

/-- What a handle shows is the same in all later stores, is one thing, and no other handle shows
it. -/
structure Discerns (shows : Store ρ → Handle → β → Prop) : Prop where
  later : ∀ {σ τ h b}, σ.Grows τ → shows σ h b → shows τ h b
  one : ∀ {σ h b c}, shows σ h b → shows σ h c → b = c
  only : ∀ {σ h g b}, shows σ h b → shows σ g b → h = g

theorem Discerns.biUnique {shows : Store ρ → Handle → β → Prop} (discerns : Discerns shows)
    (σ : Store ρ) : Relator.BiUnique (shows σ) :=
  ⟨fun _ _ _ h h' => discerns.only h h', fun _ _ _ h h' => discerns.one h h'⟩

variable (run) in
/-- A constructor gives two calls one handle exactly where what they build is the same in normal
form, whatever is done between the calls. -/
def Store.TellsApart (σ : Store ρ) (build : α → Build ρ Handle) (form : α → β) : Prop :=
  ∀ a b (between : List (Operation ρ)),
    (build a σ).1 = (build b ((build a σ).2.after run between)).1 ↔ form a = form b

/-- A constructor tells apart what its handles show. -/
theorem Discerns.tellsApart {shows : Store ρ → Handle → β → Prop} (discerns : Discerns shows)
    (resolvers : run.Evolves)
    {build : α → Build ρ Handle} {form : α → β} (grows : ∀ a (σ : Store ρ), σ.Grows (build a σ).2)
    (built : ∀ a σ, shows (build a σ).2 (build a σ).1 (form a)) (σ : Store ρ) :
    σ.TellsApart run build form := by
  intro a b between
  let τ := (build a σ).2.after run between
  -- both forms are shown in the last store: the first has been kept since it was built
  have first : shows (build b τ).2 (build a σ).1 (form a) :=
    discerns.later ((Store.evolves_after resolvers between _).grows.trans (grows b τ)) (built a σ)
  have second := built b τ
  constructor
  · intro same
    rw [same] at first
    exact discerns.one first second
  · intro same
    rw [same] at first
    exact discerns.only first second

namespace Store

/-- The descriptor of a handle, up to the literals it may be written with. -/
def ShowsKey (σ : Store ρ) (h : Handle) (key : Node) : Prop :=
  ∃ n, σ.node? h = some n ∧ n.key = key

theorem discerns_key : Discerns (ShowsKey : Store ρ → Handle → Node → Prop) where
  later := fun grows ⟨n, hn, key⟩ => ⟨n, grows.node? hn, key⟩
  one := by
    rintro σ h b c ⟨n, hn, rfl⟩ ⟨m, hm, rfl⟩
    rw [hn] at hm
    rw [Option.some.inj hm]
  only := by
    rintro σ h g b ⟨n, hn, rfl⟩ ⟨m, hm, key⟩
    have number := Table.get?_injective hn hm key.symm
    cases h
    cases g
    exact congrArg Handle.mk number

theorem showsKey_intern (n : Node) (σ : Store ρ) :
    (intern n σ).2.ShowsKey (intern n σ).1 n.key :=
  Table.exists_get?_intern_fst σ.nodes n

/-- A node other than a literal is shown as it is. -/
theorem showsKey_of_node {n : Node} (hn : σ.node? h = some n) (hk : n.kind ≠ .literal) :
    σ.ShowsKey h n :=
  ⟨n, hn, by cases n <;> first | rfl | exact absurd rfl hk⟩

section Shapes

variable {κ : Type} [BEq κ] [LawfulBEq κ] [Hashable κ]

/-- A node of a constructor, by the shape that is kept under its number. -/
def ShowsShape (constructor : Nat → Node) (table : Store ρ → Table (id : κ → κ)) (σ : Store ρ)
    (h : Handle) (shape : κ) : Prop :=
  ∃ i, σ.node? h = some (constructor i) ∧ (table σ).get? i = some shape

theorem discerns_shape {constructor : Nat → Node} {table : Store ρ → Table (id : κ → κ)}
    (injective : ∀ i j, constructor i = constructor j → i = j)
    (kind : ∀ i, (constructor i).kind ≠ .literal)
    (grows : ∀ σ τ : Store ρ, σ.Grows τ →
      ∀ i a, (table σ).get? i = some a → (table τ).get? i = some a) :
    Discerns (ShowsShape constructor table) where
  later := fun g ⟨i, hi, ha⟩ => ⟨i, g.node? hi, grows _ _ g i _ ha⟩
  one := by
    rintro σ h b c ⟨i, hi, hb⟩ ⟨j, hj, hc⟩
    rw [hi] at hj
    obtain rfl := injective i j (Option.some.inj hj)
    rw [hb] at hc
    exact Option.some.inj hc
  only := by
    rintro σ h g b ⟨i, hi, hb⟩ ⟨j, hj, hc⟩
    obtain rfl := Table.get?_injective hb hc rfl
    exact discerns_key.only (showsKey_of_node hi (kind i)) (showsKey_of_node hj (kind i))

end Shapes

/-- The nodes of tuples, by their shapes. -/
def ShowsTuple (σ : Store ρ) : Handle → Sequence → Prop :=
  ShowsShape (fun i => .tuple ⟨i⟩) Store.tuples σ

/-- The nodes of functions, by their shapes. -/
def ShowsFunction (σ : Store ρ) : Handle → Signature → Prop :=
  ShowsShape (fun i => .function ⟨i⟩) Store.functions σ

/-- The nodes of objects, by their shapes. -/
def ShowsObject (σ : Store ρ) : Handle → Layout → Prop :=
  ShowsShape (fun i => .object ⟨i⟩) Store.objects σ

theorem discerns_tuple : Discerns (ShowsTuple : Store ρ → Handle → Sequence → Prop) :=
  discerns_shape (fun _ _ h => TupleId.mk.inj (Node.tuple.inj h)) (fun _ h => by cases h)
    fun _ _ grows => grows.tuples

theorem discerns_function : Discerns (ShowsFunction : Store ρ → Handle → Signature → Prop) :=
  discerns_shape (fun _ _ h => FunctionId.mk.inj (Node.function.inj h)) (fun _ h => by cases h)
    fun _ _ grows => grows.functions

theorem discerns_object : Discerns (ShowsObject : Store ρ → Handle → Layout → Prop) :=
  discerns_shape (fun _ _ h => ObjectId.mk.inj (Node.object.inj h)) (fun _ h => by cases h)
    fun _ _ grows => grows.objects

theorem showsTuple_tupleOf (shape : Sequence) (σ : Store ρ) :
    (tupleOf shape σ).2.ShowsTuple (tupleOf shape σ).1 shape :=
  ⟨_, node?_intern (fun h => by cases h) _,
    (grows_intern _ _).tuples _ _ (tuple_internTuple shape σ)⟩

theorem showsFunction_functionOf (shape : Signature) (σ : Store ρ) :
    (functionOf shape σ).2.ShowsFunction (functionOf shape σ).1 shape :=
  ⟨_, node?_intern (fun h => by cases h) _,
    (grows_intern _ _).functions _ _ (function_internFunction shape σ)⟩

theorem showsObject_objectOf (fields : List Field) (index : Option IndexSignature)
    (σ : Store ρ) :
    (objectOf fields index σ).2.ShowsObject (objectOf fields index σ).1 (.of fields index) :=
  ⟨_, node?_intern (fun h => by cases h) _,
    (grows_intern _ _).objects _ _ (object_internObject _ σ)⟩

/-! ## §4. Enumerations -/

/-- The node of a literal, by the key of its value. -/
def ShowsLiteral (σ : Store ρ) (h : Handle) (key : Literal) : Prop :=
  σ.ShowsKey h (.literal key)

theorem discerns_literal : Discerns (ShowsLiteral : Store ρ → Handle → Literal → Prop) where
  later := discerns_key.later
  one := fun hb hc => Node.literal.inj (discerns_key.one hb hc)
  only := discerns_key.only

theorem showsLiteral_literal (value : Literal) (σ : Store ρ) :
    (literal value σ).2.ShowsLiteral (literal value σ).1 value.key :=
  showsKey_intern (.literal value) σ

/-- The nodes of enumerations, by the keys of their values; without values there is the empty
type. -/
def ShowsEnumeration (σ : Store ρ) (h : Handle) (keys : List Literal) : Prop :=
  (h = .never ∧ keys = []) ∨
    ∃ l ms, σ.node? h = some (.enumeration l) ∧ σ.lists.get? l.number = some ms ∧
      List.Forall₂ σ.ShowsLiteral ms keys ∧ keys ≠ []

theorem discerns_enumeration :
    Discerns (ShowsEnumeration : Store ρ → Handle → List Literal → Prop) where
  later := by
    rintro σ τ h b grows (empty | ⟨l, ms, hl, hms, each, some⟩)
    · exact .inl empty
    · refine .inr ⟨l, ms, grows.node? hl, grows.lists _ _ hms, each.imp fun m k hm => ?_, some⟩
      exact discerns_literal.later grows hm
  -- without members it is the empty type, which is no enumeration
  one := by
    rintro σ h b c (⟨rfl, rfl⟩ | ⟨l, ms, hl, hms, each, -⟩) (⟨hh, rfl⟩ | ⟨k, ns, hk, hns, each', -⟩)
    · rfl
    · cases (σ.node?_handle .never).symm.trans hk
    · subst hh
      cases (σ.node?_handle .never).symm.trans hl
    · rw [hl] at hk
      obtain rfl := Node.enumeration.inj (Option.some.inj hk)
      rw [hms] at hns
      obtain rfl := Option.some.inj hns
      exact (List.right_unique_forall₂' (discerns_literal.biUnique σ).2) each each'
  -- equal lists of literals have one number, and equal nodes one handle
  only := by
    rintro σ h g b (⟨rfl, rfl⟩ | ⟨l, ms, hl, hms, each, some⟩)
      (⟨rfl, none⟩ | ⟨k, ns, hk, hns, each', some'⟩)
    · rfl
    · exact absurd rfl some'
    · exact absurd none some
    · obtain rfl := (List.left_unique_forall₂' (discerns_literal.biUnique σ).1) each each'
      obtain ⟨i⟩ := l
      obtain ⟨j⟩ := k
      obtain rfl := Table.get?_injective hms hns rfl
      exact discerns_key.only (showsKey_of_node hl fun h => by cases h)
        (showsKey_of_node hk fun h => by cases h)

/-- Erasing what came before, element by element. -/
theorem eraseDups_eq_foldl [BEq α] [LawfulBEq α] [DecidableEq α] (as : List α) :
    as.eraseDups
      = (as.foldl (fun kept a => if a ∈ kept then kept else a :: kept) []).reverse := by
  -- on the list, for whatever has been kept so far
  have loop : ∀ kept : List α, List.eraseDupsBy.loop (· == ·) as kept
      = (as.foldl (fun kept a => if a ∈ kept then kept else a :: kept) kept).reverse := by
    induction as with
    | nil => exact fun _ => rfl
    | cons a as ih =>
      intro kept
      rw [List.eraseDupsBy.loop, List.foldl_cons]
      by_cases seen : a ∈ kept
      · have any : kept.any (a == ·) = true := List.any_eq_true.2 ⟨a, seen, beq_self_eq_true a⟩
        rw [if_pos seen, any]
        exact ih kept
      · have any : kept.any (a == ·) = false :=
          List.any_eq_false.2 fun b hb same => seen (eq_of_beq same ▸ hb)
        rw [if_neg seen, any]
        exact ih (a :: kept)
  exact loop []

/-- Lists that correspond one to one have their repetitions in the same places. -/
theorem rel_eraseDups [DecidableEq α] [DecidableEq β] {R : α → β → Prop}
    (unique : Relator.BiUnique R) {as : List α} {bs : List β} (each : List.Forall₂ R as bs) :
    List.Forall₂ R as.eraseDups bs.eraseDups := by
  rw [eraseDups_eq_foldl, eraseDups_eq_foldl]
  refine List.rel_reverse (List.rel_foldl (fun kept kept' hk a b hab => ?_) .nil each)
  have seen : a ∈ kept ↔ b ∈ kept' := List.rel_mem unique hab hk
  by_cases h : a ∈ kept
  · rw [if_pos h, if_pos (seen.1 h)]
    exact hk
  · rw [if_neg h, if_neg (mt seen.2 h)]
    exact .cons hab hk

/-- Literals that are built one after the other. -/
theorem showsLiteral_mapM (values : List Literal) : ∀ σ : Store ρ,
    List.Forall₂ (values.mapM literal σ).2.ShowsLiteral (values.mapM literal σ).1
      (values.map Literal.key) := by
  induction values with
  | nil => exact fun _ => .nil
  | cons value values ih =>
    intro σ
    rw [List.mapM_cons, bind_apply, bind_apply]
    refine .cons ?_ (ih _)
    exact discerns_literal.later (grows_mapM (fun v => grows_intern (.literal v)) values _)
      (showsLiteral_literal value σ)

theorem showsEnumeration_enumeration (values : List Literal) (σ : Store ρ) :
    (enumeration values σ).2.ShowsEnumeration (enumeration values σ).1
      (values.map Literal.key).eraseDups := by
  let r := values.mapM literal σ
  -- the literals are interned first, and repeated ones are dropped by handle as by name
  have each : List.Forall₂ r.2.ShowsLiteral (dedup r.1) (values.map Literal.key).eraseDups := by
    have same : dedup r.1 = r.1.eraseDups := (eraseDups_eq_foldl r.1).symm
    rw [same]
    exact rel_eraseDups (discerns_literal.biUnique _) (showsLiteral_mapM values σ)
  generalize (values.map Literal.key).eraseDups = keys at each
  unfold enumeration
  rw [bind_apply]
  split
  · next none =>
    rw [List.isEmpty_iff.1 none] at each
    exact .inl ⟨rfl, List.forall₂_nil_left_iff.1 each⟩
  · next some =>
    let built := internList (dedup r.1) r.2
    have grows : r.2.Grows (intern (.enumeration built.1) built.2).2 :=
      (grows_internList _ _).trans (grows_intern _ _)
    refine .inr ⟨built.1, dedup r.1, node?_intern (fun h => by cases h) _,
      (grows_intern _ _).lists _ _ (list_internList _ _), each.imp fun m k hm => ?_, ?_⟩
    · exact discerns_literal.later grows hm
    · rintro rfl
      exact some (List.isEmpty_iff.2 (List.forall₂_nil_right_iff.1 each))

/-! ## §5. The store as a whole -/

variable (run) in
/-- Descriptors and handles answer each other one to one, and go on doing so whatever is done with
the store.  Literals are the same where their keys are, so a handle may show a literal that is
written differently. -/
structure HashConses (σ : Store ρ) : Prop where
  interned : σ.TellsApart run intern Node.key
  looksUp : ∀ n, ∃ m, (intern n σ).2.node? (intern n σ).1 = some m ∧ m.Same n
  tuples : σ.TellsApart run tupleOf id
  functions : σ.TellsApart run functionOf id
  objects : σ.TellsApart run (fun d : List Field × Option IndexSignature => objectOf d.1 d.2)
    fun d => Layout.of d.1 d.2
  /-- The values of an enumeration, each once, in the order in which they first come. -/
  enumerations : σ.TellsApart run enumeration fun values => (values.map Literal.key).eraseDups
  nodes : ∀ later h n, σ.node? h = some n → (σ.after run later).node? h = some n
  lists : ∀ later l, (σ.lists.get? l.number).isSome = true → (σ.after run later).list l = σ.list l
  layouts : ∀ later o, (σ.objects.get? o.number).isSome = true →
    (σ.after run later).object o = σ.object o
  sequences : ∀ later t, (σ.tuples.get? t.number).isSome = true →
    (σ.after run later).tuple t = σ.tuple t
  signatures : ∀ later f, (σ.functions.get? f.number).isSome = true →
    (σ.after run later).function f = σ.function f

/-- **HANDLES AND DESCRIPTORS ANSWER EACH OTHER ONE TO ONE**, in every store, whatever it came of,
and whatever is done with it later. -/
theorem hashConses (resolvers : run.Evolves) (σ : Store ρ) : σ.HashConses run where
  interned := discerns_key.tellsApart resolvers grows_intern showsKey_intern σ
  looksUp := fun n => showsKey_intern n σ
  tuples := discerns_tuple.tellsApart resolvers (fun shape => grows_carryOut (.tuple shape))
    showsTuple_tupleOf σ
  functions := discerns_function.tellsApart resolvers
    (fun shape => grows_carryOut (.function shape)) showsFunction_functionOf σ
  objects := discerns_object.tellsApart resolvers
    (fun d : List Field × Option IndexSignature => grows_carryOut (.object d.1 d.2))
    (fun d => showsObject_objectOf d.1 d.2) σ
  enumerations := discerns_enumeration.tellsApart resolvers
    (fun values => grows_carryOut (.enumeration values)) showsEnumeration_enumeration σ
  nodes := fun later _ _ hn => (evolves_after resolvers later σ).grows.node? hn
  lists := fun later _ hl => (evolves_after resolvers later σ).grows.list hl
  layouts := fun later _ ho => (evolves_after resolvers later σ).grows.object ho
  sequences := fun later _ ht => (evolves_after resolvers later σ).grows.tuple ht
  signatures := fun later _ hf => (evolves_after resolvers later σ).grows.function hf

end Store

/-! ## §6. Resolvers that are written as expressions -/

section Expressions

variable {scope : Scope} {expand : Expander} {this : Option Handle}

theorem Build.Evolves.pure (a : α) : Build.Evolves (pure a : Build ρ α) := fun σ => .refl σ

theorem Build.Evolves.bind {x : Build ρ α} {f : α → Build ρ β} (hx : Build.Evolves x)
    (hf : ∀ a, Build.Evolves (f a)) : Build.Evolves (x >>= f) :=
  fun σ => (hx σ).trans (hf _ _)

theorem Build.evolves_call {step : Build ρ α} (c : Call ρ) (same : ∀ σ, (step σ).2 = c.carryOut σ) :
    Build.Evolves step := by
  intro σ
  rw [same]
  exact (Store.Evolves.refl σ).call c

theorem Build.evolves_text (text : String) : Build.Evolves (Store.internText text : Build ρ Atom) :=
  Build.evolves_call (.text text) fun _ => rfl

theorem Build.evolves_mapM {f : α → Build ρ β} (each : ∀ a, Build.Evolves (f a)) (as : List α) :
    Build.Evolves (as.mapM f) := by
  induction as with
  | nil => exact .pure _
  | cons a as ih =>
    rw [List.mapM_cons]
    exact (each a).bind fun b => ih.bind fun bs => .pure _

theorem evolves_literalExpr (value : LiteralExpr) :
    Build.Evolves (value.build : Build ρ Literal) := by
  cases value with
  | string text => exact (Build.evolves_text text).bind fun _ => .pure _
  | bigint digits => exact (Build.evolves_text digits).bind fun _ => .pure _
  | number value => exact .pure _
  | boolean value => exact .pure _

theorem evolves_enumeration (values : List Literal) :
    Build.Evolves (Store.enumeration values : Build ρ Handle) :=
  Build.evolves_call (.enumeration values) fun _ => rfl

theorem evolves_lazyNode (resolver : Handle → ρ) : Build.Evolves (Store.lazyNode resolver) :=
  (Build.evolves_call .declare fun _ => rfl).bind fun h =>
    (Build.evolves_call (.define h (resolver h)) fun _ => rfl).bind fun _ => .pure h

mutual

/-- An expression is built by constructor calls and descriptors interned as they are. -/
theorem evolves_buildWith (expands : ∀ name this, Build.Evolves (expand name this)) :
    ∀ e : Expr, Build.Evolves (e.buildWith scope expand this)
  | .handle h => .pure h
  | .variable _ => .pure _
  | .this => .pure _
  | .literal value => (evolves_literalExpr value).bind fun v =>
      Build.evolves_call (.literal v) fun _ => rfl
  | .enumeration values => (Build.evolves_mapM evolves_literalExpr values).bind evolves_enumeration
  | .stringEnumeration values =>
      (Build.evolves_mapM (fun v => (Build.evolves_text v).bind fun _ => .pure _) values).bind
        evolves_enumeration
  | .array element => (evolves_buildWith expands element).bind fun h =>
      Build.evolves_call (.array h) fun _ => rfl
  | .set element => (evolves_buildWith expands element).bind fun h =>
      Build.evolves_call (.set h) fun _ => rfl
  | .promise inner => (evolves_buildWith expands inner).bind fun h =>
      Build.evolves_call (.promise h) fun _ => rfl
  | .record key value => (evolves_buildWith expands key).bind fun k =>
      (evolves_buildWith expands value).bind fun v =>
        Build.evolves_call (.record k v) fun _ => rfl
  | .map key value => (evolves_buildWith expands key).bind fun k =>
      (evolves_buildWith expands value).bind fun v => Build.evolves_call (.map k v) fun _ => rfl
  | .tuple items => (evolves_buildAll expands items).bind fun hs =>
      Build.evolves_call (.tuple ⟨hs, none⟩) fun _ => rfl
  | .tupleWithRest items rest => (evolves_buildAll expands items).bind fun hs =>
      (evolves_buildWith expands rest).bind fun r =>
        Build.evolves_call (.tuple ⟨hs, some r⟩) fun _ => rfl
  | .function parameters result => (evolves_buildAll expands parameters).bind fun hs =>
      (evolves_buildWith expands result).bind fun r =>
        Build.evolves_call (.function ⟨⟨hs, none⟩, r⟩) fun _ => rfl
  | .functionWithRest parameters result rest => (evolves_buildAll expands parameters).bind fun hs =>
      (evolves_buildWith expands result).bind fun r => (evolves_buildWith expands rest).bind fun x =>
        Build.evolves_call (.function ⟨⟨hs, some x⟩, r⟩) fun _ => rfl
  | .object fields => (evolves_buildFields expands fields).bind fun fs =>
      Build.evolves_call (.object fs none) fun _ => rfl
  | .indexedObject fields key value => (evolves_buildFields expands fields).bind fun fs =>
      (evolves_buildWith expands key).bind fun k => (evolves_buildWith expands value).bind fun v =>
        Build.evolves_call (.object fs (some ⟨k, v⟩)) fun _ => rfl
  | .union members => (evolves_buildAll expands members).bind fun hs =>
      Build.evolves_call (.union hs) fun _ => rfl
  | .intersection members => (evolves_buildAll expands members).bind fun hs =>
      Build.evolves_call (.intersection hs) fun _ => rfl
  | .branded base brand => (evolves_buildWith expands base).bind fun h =>
      Build.evolves_call (.branded h brand) fun _ => rfl
  -- a lazy node takes its body as it is: nothing is built for it yet
  | .lazy _ => evolves_lazyNode _
  | .lazyRec _ => evolves_lazyNode _
  | .declare => Build.evolves_call .declare fun _ => rfl
  | .template name => expands name this
  | .node n => fun σ => (Store.Evolves.refl σ).intern n

theorem evolves_buildAll (expands : ∀ name this, Build.Evolves (expand name this)) :
    ∀ es : List Expr, Build.Evolves (Expr.buildAll scope expand this es)
  | [] => .pure _
  | e :: es => (evolves_buildWith expands e).bind fun _ => (evolves_buildAll expands es).bind
      fun _ => .pure _

theorem evolves_field (expands : ∀ name this, Build.Evolves (expand name this)) :
    ∀ f : FieldExpr, Build.Evolves (f.buildWith scope expand this)
  | .mk name type _ => (Build.evolves_text name).bind fun _ => (evolves_buildWith expands type).bind
      fun _ => .pure _

theorem evolves_buildFields (expands : ∀ name this, Build.Evolves (expand name this)) :
    ∀ fs : List FieldExpr, Build.Evolves (Expr.buildFields scope expand this fs)
  | [] => .pure _
  | f :: fs => (evolves_field expands f).bind fun _ => (evolves_buildFields expands fs).bind
      fun _ => .pure _

end

theorem evolves_expandTo (depth : Nat) (name : String) (this : Option Handle) :
    Build.Evolves (scope.expandTo depth name this) := by
  induction depth generalizing name this with
  | zero => exact .pure _
  | succ depth ih =>
    unfold Scope.expandTo
    cases scope.templates.lookup name with
    | none => exact .pure _
    | some body => exact evolves_buildWith ih body

/-- **RESOLVERS THAT ARE EXPRESSIONS DO WHAT ANYONE MAY.** -/
theorem evolves_run (scope : Scope) : scope.run.Evolves := fun recipe =>
  evolves_buildWith (evolves_expandTo _) recipe.body

/-- A list of itself, declared, defined, resolved and compared. -/
def Operation.listOfItself : List (Operation Recipe) :=
  [.call .declare, .attachResolver ⟨1⟩ ⟨.array .this, some ⟨13⟩⟩, .resolve ⟨1⟩,
    .check (.new {}) ⟨13⟩ ⟨13⟩]

/-- What is done between two calls for a list of strings, and before, does not matter to the
handle. -/
theorem hashConses_listOfItself :
    let run := Scope.run {}
    let σ := (Store.new fun _ => 0).after run Operation.listOfItself
    let τ := (Store.array Intrinsic.string.handle σ).2.after run Operation.listOfItself
    run.Evolves ∧ σ.HashConses run ∧
      (Store.array Intrinsic.string.handle σ).1 = (Store.array Intrinsic.string.handle τ).1 ∧
      (Store.array Intrinsic.string.handle σ).1 ≠ (Store.array Intrinsic.number.handle τ).1 := by
  have resolvers : (Scope.run {}).Evolves := evolves_run {}
  have built := Store.hashConses resolvers
    ((Store.new fun _ => 0).after (Scope.run {}) Operation.listOfItself)
  refine ⟨resolvers, built, ?_, ?_⟩
  · exact (built.interned (.array _) (.array _) Operation.listOfItself).2 rfl
  · intro same
    cases (built.interned (.array _) (.array _) Operation.listOfItself).1 same

end Expressions

end Assignability
