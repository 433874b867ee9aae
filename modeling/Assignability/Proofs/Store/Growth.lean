/-
  Assignability.Proofs.Store.Growth
  ─────────────────────────────────
  **A STORE ONLY GROWS.**

  A step of building adds entries and changes none (`Store.Grows`), so a
  handle means the same in every later store.  What a descriptor is made
  of is there from the start where it was built in the store
  (`Store.isBuilt`), and then the descriptor stays what it is
  (`MadeOf.grows`).

  Main statements: the constructors of unions and intersections keep all
  entries and build what they are asked for, where there are two members
  that are none of the built-in ends (`joins_union`, `joins_intersection`).
-/
import Assignability.Proofs.Relation.Plain

namespace Assignability

variable {ρ α β : Type}

/-! ## §1. Growing -/

/-- An entry that is there is not added again. -/
theorem Table.intern_of_get? {κ : Type} [BEq κ] [LawfulBEq κ] [Hashable κ] {key : α → κ}
    {t : Table key} {i : Nat} {a : α} (h : t.get? i = some a) : t.intern a = (i, t) := by
  have number := Table.number?_key h
  unfold Table.number? at number
  unfold Table.intern
  split
  · next j hj =>
    rw [number] at hj
    rw [Option.some.inj hj]
  · next hj =>
    rw [number] at hj
    cases hj

/-- What is interned as it is has the number that interning gives. -/
theorem Table.get?_intern_self {α : Type} [BEq α] [LawfulBEq α] [Hashable α]
    (t : Table (id : α → α)) (a : α) : (t.intern a).2.get? (t.intern a).1 = some a := by
  obtain ⟨b, hb, rfl⟩ := Table.exists_get?_intern_fst t a
  exact hb

/-- An entry that interning adds comes last. -/
theorem Table.get?_or_last_of_intern {κ : Type} [BEq κ] [LawfulBEq κ] [Hashable κ] {key : α → κ}
    {t : Table key} {a b : α} {i : Nat} (h : (t.intern a).2.get? i = some b) :
    t.get? i = some b ∨ i = t.size ∧ b = a := by
  unfold Table.intern at h
  split at h
  · exact .inl h
  · unfold Table.get? at h ⊢
    rw [Array.getElem?_push] at h
    split at h
    · next last => exact .inr ⟨last, (Option.some.inj h).symm⟩
    · exact .inl h

/-- Interning adds no other entry than the one asked for. -/
theorem Table.get?_of_intern {κ : Type} [BEq κ] [LawfulBEq κ] [Hashable κ] {key : α → κ}
    {t : Table key} {a b : α} {i : Nat} (h : (t.intern a).2.get? i = some b) :
    t.get? i = some b ∨ b = a :=
  (Table.get?_or_last_of_intern h).imp_right And.right

/-- A string that is interned changes the atom of no other. -/
theorem Pool.resolve?_intern {p : Pool} {s text : String} {a : Atom}
    (h : p.resolve? a = some text) : (p.intern s).2.resolve? a = some text := by
  unfold Pool.intern
  split
  · exact h
  · dsimp only
    split
    · exact h
    · split
      · exact h
      · unfold Pool.resolve? Pool.shard at h ⊢
        dsimp only
        rw [Fin.getElem_fin, Vector.getElem_set]
        split
        -- only the shard of the string changes, and it only grows
        · next same =>
          have shard : p.shards[p.assign s] = p.shards[Pool.shardOf a] :=
            congrArg p.shard (Fin.ext same)
          rw [← shard] at h
          exact Table.get?_intern h
        · exact h

namespace Definitions

variable {ds : Definitions ρ} {d e : LazyId}

theorem get?_declare {definition : Definition ρ} (h : ds.get? d = some definition) :
    ds.declare.2.get? d = some definition := by
  unfold get? at h ⊢
  obtain ⟨i, hp, hi⟩ := Option.bind_eq_some_iff.1 h
  rw [hp]
  show (ds.entries.push {})[i]? = _
  rw [Array.getElem?_push, if_neg (Nat.ne_of_lt (Array.getElem?_eq_some_iff.1 hi).1)]
  exact hi

/-- A definition that is declared stands for nothing yet. -/
theorem resolution?_declare : ds.declare.2.resolution? d = ds.resolution? d := by
  unfold resolution? get?
  cases place? d with
  | none => rfl
  | some i =>
    show ((ds.entries.push {})[i]?).bind _ = _
    rw [Array.getElem?_push]
    split
    · next last => rw [last]; simp
    · rfl

theorem resolution?_define (resolver : ρ) :
    (ds.define d resolver).2.resolution? e = ds.resolution? e := by
  unfold define
  split
  · unfold resolution?
    dsimp only
    rw [get?_update]
    split
    · cases ds.get? e <;> rfl
    · rfl
  · rfl

theorem contains_declare : ds.declare.2.contains ds.declare.1 = true := by
  have place : place? ⟨ds.entries.size + 1⟩ = some ds.entries.size :=
    if_pos (by simp [LazyId.isValid])
  show ((place? ⟨ds.entries.size + 1⟩).bind fun i => (ds.entries.push {})[i]?).isSome = true
  rw [place]
  simp

/-- What a definition stands for after a resolution went on record. -/
theorem resolution?_of_settle {g h : Handle} (hd : (ds.settle d h).resolution? e = some g) :
    ds.resolution? e = some g ∨ g = h := by
  unfold settle resolution? at hd
  rw [get?_update] at hd
  split at hd
  · unfold resolution?
    obtain ⟨definition, he, hr⟩ := Option.bind_eq_some_iff.1 hd
    obtain ⟨before, hb, rfl⟩ := Option.map_eq_some_iff.1 he
    rw [hb]
    -- what is on record stays
    change (before.resolution <|> some h) = some g at hr
    cases h' : before.resolution with
    | none =>
      rw [h'] at hr
      exact .inr (Option.some.inj hr).symm
    | some x =>
      rw [h'] at hr
      exact .inl (h'.trans hr)
  · exact .inl hd

theorem contains_settle {h : Handle} : (ds.settle d h).contains e = ds.contains e := by
  unfold contains settle
  rw [get?_update]
  split
  · exact Option.isSome_map
  · rfl

theorem contains_define (resolver : ρ) :
    (ds.define d resolver).2.contains e = ds.contains e := by
  unfold define
  split
  · unfold contains
    dsimp only
    rw [get?_update]
    split
    · exact Option.isSome_map
    · rfl
  · rfl

end Definitions

/-- All entries of a store are entries of another, under the same numbers. -/
structure Store.Grows (σ τ : Store ρ) : Prop where
  nodes : ∀ i n, σ.nodes.get? i = some n → τ.nodes.get? i = some n
  lists : ∀ i l, σ.lists.get? i = some l → τ.lists.get? i = some l
  objects : ∀ i s, σ.objects.get? i = some s → τ.objects.get? i = some s
  tuples : ∀ i s, σ.tuples.get? i = some s → τ.tuples.get? i = some s
  functions : ∀ i s, σ.functions.get? i = some s → τ.functions.get? i = some s
  strings : ∀ a text, σ.strings.resolve? a = some text → τ.strings.resolve? a = some text
  declared : ∀ d, σ.definitions.contains d = true → τ.definitions.contains d = true
  resolutions : ∀ d h, σ.definitions.resolution? d = some h →
    τ.definitions.resolution? d = some h

namespace Store

variable {σ τ υ : Store ρ} {h g : Handle} {n : Node}

theorem Grows.refl (σ : Store ρ) : σ.Grows σ :=
  ⟨fun _ _ h => h, fun _ _ h => h, fun _ _ h => h, fun _ _ h => h, fun _ _ h => h,
    fun _ _ h => h, fun _ h => h, fun _ _ h => h⟩

theorem Grows.trans (h : σ.Grows τ) (h' : τ.Grows υ) : σ.Grows υ where
  nodes := fun i n hi => h'.nodes i n (h.nodes i n hi)
  lists := fun i l hi => h'.lists i l (h.lists i l hi)
  objects := fun i s hi => h'.objects i s (h.objects i s hi)
  tuples := fun i s hi => h'.tuples i s (h.tuples i s hi)
  functions := fun i s hi => h'.functions i s (h.functions i s hi)
  strings := fun a text ha => h'.strings a text (h.strings a text ha)
  declared := fun d hd => h'.declared d (h.declared d hd)
  resolutions := fun d g hd => h'.resolutions d g (h.resolutions d g hd)

theorem Grows.node? (grows : σ.Grows τ) (hn : σ.node? h = some n) : τ.node? h = some n :=
  grows.nodes _ n hn

/-- A handle of the store. -/
def Has (σ : Store ρ) (h : Handle) : Prop := ∃ n, σ.node? h = some n

/-- A name that is a string of the store. -/
def Spells (σ : Store ρ) (name : Atom) : Prop := (σ.strings.resolve? name).isSome = true

/-- The handles of a store are the numbers below its size. -/
theorem has_iff : σ.Has h ↔ h.number < σ.size :=
  ⟨fun ⟨_, hn⟩ => (Array.getElem?_eq_some_iff.1 hn).1,
    fun lower => ⟨_, Array.getElem?_eq_getElem lower⟩⟩

theorem has_handle (σ : Store ρ) (k : Intrinsic) : σ.Has k.handle := ⟨_, σ.node?_handle k⟩

theorem has_of_lazyId? {d : LazyId} (hd : σ.lazyId? h = some d) : σ.Has h := by
  unfold lazyId? at hd
  split at hd
  · next e hn => exact ⟨_, hn⟩
  · cases hd

/-- Only what a store knows has parts. -/
theorem has_of_mem_parts {g : Handle} (hg : g ∈ σ.parts h) : σ.Has h := by
  cases hn : σ.node? h with
  | some n => exact ⟨n, hn⟩
  | none =>
    unfold parts at hg
    rw [hn] at hg
    cases hg

/-- Whether every handle of a store has a property. -/
def allHandles (σ : Store ρ) (p : Handle → Bool) : Bool := (List.range σ.size).all fun i => p ⟨i⟩

theorem of_allHandles {p : Handle → Bool} (all : σ.allHandles p = true) (hh : σ.Has h) :
    p h = true := by
  exact List.all_eq_true.1 all h.number (List.mem_range.2 (has_iff.1 hh))

theorem Grows.has (grows : σ.Grows τ) (hh : σ.Has h) : τ.Has h :=
  hh.imp fun _ hn => grows.node? hn

theorem Grows.spells (grows : σ.Grows τ) {name : Atom} (hname : σ.Spells name) :
    τ.Spells name := by
  obtain ⟨text, ht⟩ := Option.isSome_iff_exists.1 hname
  exact Option.isSome_iff_exists.2 ⟨text, grows.strings _ _ ht⟩

theorem Grows.node?_eq (grows : σ.Grows τ) (hh : σ.Has h) : τ.node? h = σ.node? h := by
  obtain ⟨n, hn⟩ := hh
  rw [hn, grows.node? hn]

theorem Grows.lazyId?_eq (grows : σ.Grows τ) (hh : σ.Has h) : τ.lazyId? h = σ.lazyId? h := by
  unfold lazyId?
  rw [grows.node?_eq hh]

/-- Whether a handle names a node of a constructor. -/
def isOfKind (σ : Store ρ) (k : Kind) (h : Handle) : Bool := (σ.node? h).any (·.kind == k)

theorem isOfKind_of_node (hh : σ.node? h = some n) {k : Kind} :
    σ.isOfKind k h = true ↔ n.kind = k := by
  unfold isOfKind
  rw [hh]
  exact beq_iff_eq

theorem Grows.isOfKind_eq (grows : σ.Grows τ) (hh : σ.Has h) (k : Kind) :
    τ.isOfKind k h = σ.isOfKind k h := by
  unfold isOfKind
  rw [grows.node?_eq hh]

/-! ## §2. Descriptors that were built -/

/-- Whether the list or the shape that a node speaks of is in the store. -/
def keeps (σ : Store ρ) : Node → Bool
  | .enumeration l | .union l | .intersection l => (σ.lists.get? l.number).isSome
  | .tuple t => (σ.tuples.get? t.number).isSome
  | .object o => (σ.objects.get? o.number).isSome
  | .function f => (σ.functions.get? f.number).isSome
  | _ => true

/-- Whether a node is that of a descriptor that was built without declarations. -/
def isBuilt (σ : Store ρ) (n : Node) : Bool := !n.isLazy && σ.keeps n

theorem isLazy_of_isBuilt (n : Node) (hn : σ.isBuilt n = true) : n.isLazy = false := by
  simpa using (Bool.and_eq_true_iff.1 hn).1

theorem list_of_get? {l : ListId} {members : List Handle}
    (hl : σ.lists.get? l.number = some members) : σ.list l = members := by
  unfold Store.list
  rw [hl]
  rfl

theorem tuple_of_get? {o : TupleId} {s : Sequence} (ho : σ.tuples.get? o.number = some s) :
    σ.tuple o = s := by
  unfold Store.tuple
  rw [ho]
  rfl

theorem object_of_get? {o : ObjectId} {s : Layout} (ho : σ.objects.get? o.number = some s) :
    σ.object o = s := by
  unfold Store.object
  rw [ho]
  rfl

theorem function_of_get? {f : FunctionId} {s : Signature}
    (hf : σ.functions.get? f.number = some s) : σ.function f = s := by
  unfold Store.function
  rw [hf]
  rfl

theorem Grows.list (grows : σ.Grows τ) {l : ListId} (hl : (σ.lists.get? l.number).isSome = true) :
    τ.list l = σ.list l := by
  obtain ⟨members, hm⟩ := Option.isSome_iff_exists.1 hl
  unfold Store.list
  rw [hm, grows.lists _ _ hm]

theorem Grows.tuple (grows : σ.Grows τ) {t : TupleId}
    (ht : (σ.tuples.get? t.number).isSome = true) : τ.tuple t = σ.tuple t := by
  obtain ⟨shape, hs⟩ := Option.isSome_iff_exists.1 ht
  unfold Store.tuple
  rw [hs, grows.tuples _ _ hs]

theorem Grows.object (grows : σ.Grows τ) {o : ObjectId}
    (ho : (σ.objects.get? o.number).isSome = true) : τ.object o = σ.object o := by
  obtain ⟨shape, hs⟩ := Option.isSome_iff_exists.1 ho
  unfold Store.object
  rw [hs, grows.objects _ _ hs]

theorem Grows.function (grows : σ.Grows τ) {f : FunctionId}
    (hf : (σ.functions.get? f.number).isSome = true) : τ.function f = σ.function f := by
  obtain ⟨shape, hs⟩ := Option.isSome_iff_exists.1 hf
  unfold Store.function
  rw [hs, grows.functions _ _ hs]

theorem Grows.text (grows : σ.Grows τ) {a : Atom} (ha : (σ.strings.resolve? a).isSome = true) :
    τ.text a = σ.text a := by
  obtain ⟨text, ht⟩ := Option.isSome_iff_exists.1 ha
  unfold Store.text Pool.resolve
  rw [ht, grows.strings _ _ ht]

theorem Grows.components (grows : σ.Grows τ) (hn : σ.keeps n = true) :
    τ.components n = σ.components n := by
  cases n with
  | enumeration l | union l | intersection l => exact grows.list hn
  | tuple t => exact congrArg Sequence.parts (grows.tuple hn)
  | object o => exact congrArg Layout.parts (grows.object hn)
  | function f => exact congrArg Signature.parts (grows.function hn)
  | _ => rfl

theorem Grows.keeps (grows : σ.Grows τ) (hn : σ.keeps n = true) : τ.keeps n = true := by
  cases n with
  | enumeration l | union l | intersection l =>
    obtain ⟨members, hm⟩ := Option.isSome_iff_exists.1 hn
    exact Option.isSome_iff_exists.2 ⟨members, grows.lists _ _ hm⟩
  | tuple t =>
    obtain ⟨shape, hs⟩ := Option.isSome_iff_exists.1 hn
    exact Option.isSome_iff_exists.2 ⟨shape, grows.tuples _ _ hs⟩
  | object o =>
    obtain ⟨shape, hs⟩ := Option.isSome_iff_exists.1 hn
    exact Option.isSome_iff_exists.2 ⟨shape, grows.objects _ _ hs⟩
  | function f =>
    obtain ⟨shape, hs⟩ := Option.isSome_iff_exists.1 hn
    exact Option.isSome_iff_exists.2 ⟨shape, grows.functions _ _ hs⟩
  | _ => rfl

/-- **WHAT WAS BUILT STAYS WHAT IT IS.** -/
theorem MadeOf.grows (grows : σ.Grows τ) (hh : σ.MadeOf σ.isBuilt h) : τ.MadeOf τ.isBuilt h := by
  obtain ⟨n, hn⟩ := hh
  refine ⟨n, ?_⟩
  induction n generalizing h with
  | zero => cases hn
  | succ n ih =>
    obtain ⟨node, hs, hb, parts⟩ := madeWithin_succ.1 hn
    obtain ⟨notLazy, keeps⟩ := Bool.and_eq_true_iff.1 hb
    refine madeWithin_succ.2 ⟨node, grows.node? hs, ?_, fun g hg => ?_⟩
    · exact Bool.and_eq_true_iff.2 ⟨notLazy, grows.keeps keeps⟩
    · rw [grows.components keeps] at hg
      exact ih (parts g hg)

/-! ## §3. Steps of building -/

theorem grows_intern (n : Node) (σ : Store ρ) : σ.Grows (intern n σ).2 :=
  { Grows.refl σ with nodes := fun _ _ hi => Table.get?_intern hi }

theorem grows_internList (members : List Handle) (σ : Store ρ) :
    σ.Grows (internList members σ).2 :=
  { Grows.refl σ with lists := fun _ _ hi => Table.get?_intern hi }

theorem grows_internTuple (shape : Sequence) (σ : Store ρ) : σ.Grows (internTuple shape σ).2 :=
  { Grows.refl σ with tuples := fun _ _ hi => Table.get?_intern hi }

theorem grows_internObject (shape : Layout) (σ : Store ρ) : σ.Grows (internObject shape σ).2 :=
  { Grows.refl σ with objects := fun _ _ hi => Table.get?_intern hi }

theorem grows_internFunction (shape : Signature) (σ : Store ρ) :
    σ.Grows (internFunction shape σ).2 :=
  { Grows.refl σ with functions := fun _ _ hi => Table.get?_intern hi }

theorem grows_internText (text : String) (σ : Store ρ) : σ.Grows (internText text σ).2 :=
  { Grows.refl σ with strings := fun _ _ ha => Pool.resolve?_intern ha }

theorem grows_addDefinition (σ : Store ρ) : σ.Grows (addDefinition σ).2 :=
  { Grows.refl σ with
    declared := fun _ hd =>
      let ⟨_, hd⟩ := Option.isSome_iff_exists.1 hd
      Option.isSome_of_eq_some (Definitions.get?_declare hd)
    resolutions := fun _ _ hd => Definitions.resolution?_declare.trans hd }

theorem grows_attachResolver (d : LazyId) (resolver : ρ) (σ : Store ρ) :
    σ.Grows (attachResolver d resolver σ).2 :=
  { Grows.refl σ with
    declared := fun _ hd => (Definitions.contains_define resolver).trans hd
    resolutions := fun _ _ hd => (Definitions.resolution?_define resolver).trans hd }

theorem grows_recordResolution (d : LazyId) (h : Handle) (σ : Store ρ) :
    σ.Grows (recordResolution d h σ).2 :=
  { Grows.refl σ with
    declared := fun _ hd => Definitions.contains_settle.trans hd
    resolutions := fun _ _ hd => Definitions.resolution?_settle_of_some hd }

/-- What each of several steps keeps all of them keep. -/
theorem mapM_invariant {I : Store ρ → Prop} {f : α → Build ρ β}
    (each : ∀ a σ, I σ → I (f a σ).2) (as : List α) : ∀ σ, I σ → I (as.mapM f σ).2 := by
  induction as with
  | nil => exact fun _ h => h
  | cons a as ih =>
    intro σ h
    rw [List.mapM_cons, bind_apply, bind_apply]
    exact ih _ (each a σ h)

theorem grows_mapM {f : α → Build ρ β} (each : ∀ a (σ : Store ρ), σ.Grows (f a σ).2)
    (as : List α) (σ : Store ρ) : σ.Grows (as.mapM f σ).2 :=
  mapM_invariant (fun a τ grows => grows.trans (each a τ)) as σ (.refl σ)

/-- Only literals differ from their keys. -/
theorem eq_of_key_eq {m : Node} (h : m.key = n.key) (hn : n.kind ≠ .literal) : m = n := by
  cases n with
  | literal => exact absurd rfl hn
  | _ => cases m <;> first | exact h | cases h

theorem has_intern (n : Node) (σ : Store ρ) : (intern n σ).2.Has (intern n σ).1 :=
  has_iff.2 (Table.intern_lt σ.nodes n)

theorem node?_intern (hn : n.kind ≠ .literal) (σ : Store ρ) :
    (intern n σ).2.node? (intern n σ).1 = some n := by
  obtain ⟨m, hm, key⟩ := Table.exists_get?_intern_fst σ.nodes n
  rw [eq_of_key_eq key hn] at hm
  exact hm

theorem list_internList (members : List Handle) (σ : Store ρ) :
    (internList members σ).2.lists.get? (internList members σ).1.number = some members :=
  Table.get?_intern_self σ.lists members

theorem tuple_internTuple (shape : Sequence) (σ : Store ρ) :
    (internTuple shape σ).2.tuples.get? (internTuple shape σ).1.number = some shape :=
  Table.get?_intern_self σ.tuples shape

theorem object_internObject (shape : Layout) (σ : Store ρ) :
    (internObject shape σ).2.objects.get? (internObject shape σ).1.number = some shape :=
  Table.get?_intern_self σ.objects shape

theorem function_internFunction (shape : Signature) (σ : Store ρ) :
    (internFunction shape σ).2.functions.get? (internFunction shape σ).1.number = some shape :=
  Table.get?_intern_self σ.functions shape

/-- A node that is in the store is not built again. -/
theorem intern_of_node (hn : σ.node? h = some n) : intern n σ = (h, σ) := by
  -- the store holds a proof about its nodes, so these are exchanged as a whole
  have exchanged : ∀ (r : Nat × Table Node.key) (builtIn : ∀ k : Intrinsic,
      r.2.get? k.toNumber = some (.intrinsic k)), r = (h.number, σ.nodes) →
      ((⟨r.1⟩ : Handle), { σ with nodes := r.2, get?_toNumber := builtIn }) = (h, σ) := by
    rintro _ _ rfl
    rfl
  exact exchanged _ _ (Table.intern_of_get? hn)

theorem internList_of_list {l : ListId} {members : List Handle}
    (hl : σ.lists.get? l.number = some members) : internList members σ = (l, σ) := by
  unfold internList
  rw [Table.intern_of_get? hl]

/-! ## §4. Unions and intersections -/

section

variable {members pieces : List Handle} {l : ListId}

/-- A union that is in the store already is found there. -/
theorem union_of_pieces (several : Joined.union (flattenUnions σ members) = .several pieces)
    (list : σ.lists.get? l.number = some pieces) (node : σ.node? h = some (.union l)) :
    union members σ = (h, σ) := by
  unfold union
  rw [bind_apply, get_apply, several]
  dsimp only
  rw [bind_apply, internList_of_list list]
  exact intern_of_node node

end

/-- What a member comes to in a joined type: its own members where it is of that constructor. -/
def piecesOf (σ : Store ρ) (k : Kind) (h : Handle) : List Handle :=
  if σ.isOfKind k h = true then σ.parts h else [h]

theorem flattenUnions_eq (σ : Store ρ) (members : List Handle) :
    flattenUnions σ members = members.flatMap (σ.piecesOf .union) := by
  refine congrArg (fun pieces => members.flatMap pieces) (funext fun h => ?_)
  unfold piecesOf isOfKind parts
  cases σ.node? h with
  | none => rfl
  | some n => cases n <;> rfl

theorem flattenIntersections_eq (σ : Store ρ) (members : List Handle) :
    flattenIntersections σ members = members.flatMap (σ.piecesOf .intersection) := by
  refine congrArg (fun pieces => members.flatMap pieces) (funext fun h => ?_)
  unfold piecesOf isOfKind parts
  cases σ.node? h with
  | none => rfl
  | some n => cases n <;> rfl

theorem piecesOf_of_node (hn : σ.node? h = some n) {k : Kind} :
    σ.piecesOf k h = if n.kind = k then σ.components n else [h] := by
  unfold piecesOf
  rw [parts_of_node hn]
  simp only [isOfKind_of_node hn]

theorem MadeOf.piece {p : Node → Bool} {k : Kind} (hh : σ.MadeOf p h) (hg : g ∈ σ.piecesOf k h) :
    σ.MadeOf p g := by
  unfold piecesOf at hg
  split at hg
  · exact hh.part hg
  · exact List.mem_singleton.1 hg ▸ hh

/-- The built-in types that joined types absorb, or are absorbed by. -/
def ends : List Handle := [.any, .unknown, .never]

theorem not_mem_ends {h : Handle} : h ∉ ends ↔ h ≠ .any ∧ h ≠ .unknown ∧ h ≠ .never := by
  simp [ends]

end Store

theorem Joined.ofMembers_of_two {members : List Handle} {x y : Handle} (hx : x ∈ members)
    (hy : y ∈ members) (apart : x ≠ y) : Joined.ofMembers members = .several members := by
  match members, hx, hy with
  | [a], hx, hy =>
    obtain rfl := List.mem_singleton.1 hx
    exact absurd (List.mem_singleton.1 hy).symm apart
  | _ :: _ :: _, _, _ => rfl

/-- Members that are none of the ends are those of the union. -/
theorem Joined.union_of_inner {members : List Handle} (inner : ∀ m ∈ members, m ∉ Store.ends) :
    ∃ ms, Joined.union members = .ofMembers ms ∧ ∀ m, m ∈ ms ↔ m ∈ members := by
  have sorted : ∀ {m}, m ∈ Members.sort members ↔ m ∈ members := Members.mem_sort
  have kept : ∀ m, m ∈ (Members.sort members).filter (· ≠ .never) ↔ m ∈ members := by
    intro m
    rw [List.mem_filter, sorted, decide_eq_true_eq]
    exact and_iff_left_of_imp fun hm => (Store.not_mem_ends.1 (inner m hm)).2.2
  unfold Joined.union
  rw [if_neg fun h => inner _ (sorted.1 h) (by decide),
    if_neg fun h => inner _ (sorted.1 h) (by decide)]
  exact ⟨_, rfl, kept⟩

/-- Two members that are none of the ends make a union. -/
theorem Joined.union_of_two {members : List Handle} {x y : Handle} (hx : x ∈ members)
    (hy : y ∈ members) (apart : x ≠ y)
    (inner : ∀ m ∈ members, m ∉ Store.ends) :
    ∃ ms, Joined.union members = .several ms ∧ ∀ m, m ∈ ms ↔ m ∈ members := by
  obtain ⟨ms, union, kept⟩ := union_of_inner inner
  exact ⟨ms, union.trans (ofMembers_of_two ((kept x).2 hx) ((kept y).2 hy) apart), kept⟩

/-- Two members that are none of the ends make an intersection. -/
theorem Joined.intersection_of_two {members : List Handle} {x y : Handle} (hx : x ∈ members)
    (hy : y ∈ members) (apart : x ≠ y)
    (inner : ∀ m ∈ members, m ∉ Store.ends) :
    ∃ ms, Joined.intersection members = .several ms ∧ ∀ m, m ∈ ms ↔ m ∈ members := by
  have sorted : ∀ {m}, m ∈ Members.sort members ↔ m ∈ members := Members.mem_sort
  have kept : ∀ m, m ∈ (Members.sort members).filter (· ≠ .unknown) ↔ m ∈ members := by
    intro m
    rw [List.mem_filter, sorted, decide_eq_true_eq]
    exact and_iff_left_of_imp fun hm => (Store.not_mem_ends.1 (inner m hm)).2.1
  unfold Joined.intersection
  dsimp only
  rw [if_neg fun h => inner _ (sorted.1 h) (by decide),
    if_neg fun h => inner _ (sorted.1 h) (by decide)]
  split
  · exact ⟨_, ofMembers_of_two (sorted.2 hx) (sorted.2 hy) apart, fun m => sorted⟩
  · exact ⟨_, ofMembers_of_two ((kept x).2 hx) ((kept y).2 hy) apart, kept⟩

/-- Members that are left are at least two. -/
theorem Joined.of_ofMembers {members ms : List Handle} (h : ofMembers members = .several ms) :
    ms = members ∧ 2 ≤ ms.length := by
  match members, h with
  | _ :: _ :: _, rfl => exact ⟨rfl, by simp⟩

/-- What a union lists is in order, and none of the ends. -/
theorem Joined.of_union {members ms : List Handle} (h : union members = .several ms) :
    2 ≤ ms.length ∧ ms.Pairwise (· < ·) ∧ ∀ m ∈ ms, m ∈ members ∧ m ∉ Store.ends := by
  unfold union at h
  dsimp only at h
  split at h
  · cases h
  · split at h
    · cases h
    · next notAny notUnknown =>
      obtain ⟨rfl, several⟩ := of_ofMembers h
      refine ⟨several, (Members.pairwise_sort members).filter _, fun m hm => ?_⟩
      obtain ⟨hm, notNever⟩ := List.mem_filter.1 hm
      refine ⟨Members.mem_sort.1 hm, Store.not_mem_ends.2 ⟨?_, ?_, by simpa using notNever⟩⟩
      · rintro rfl; exact notAny hm
      · rintro rfl; exact notUnknown hm

/-- What an intersection lists is in order, and none of the ends. -/
theorem Joined.of_intersection {members ms : List Handle} (h : intersection members = .several ms) :
    2 ≤ ms.length ∧ ms.Pairwise (· < ·) ∧ ∀ m ∈ ms, m ∈ members ∧ m ∉ Store.ends := by
  unfold intersection at h
  dsimp only at h
  split at h
  · cases h
  · split at h
    · cases h
    · next notAny notNever =>
      split at h
      -- the memberless list is left as it is; it has no two members
      · next short =>
        obtain ⟨rfl, several⟩ := of_ofMembers h
        exact absurd several (Nat.not_le_of_lt (Nat.lt_succ_of_le short))
      · obtain ⟨rfl, several⟩ := of_ofMembers h
        refine ⟨several, (Members.pairwise_sort members).filter _, fun m hm => ?_⟩
        obtain ⟨hm, notUnknown⟩ := List.mem_filter.1 hm
        refine ⟨Members.mem_sort.1 hm, Store.not_mem_ends.2 ⟨?_, by simpa using notUnknown, ?_⟩⟩
        · rintro rfl; exact notAny hm
        · rintro rfl; exact notNever hm

namespace Store

/-- What came of building a joined type: a node of it, with its members. -/
structure Joins (σ : Store ρ) (constructor : ListId → Node) (members : List Handle)
    (r : Handle × Store ρ) : Prop where
  grows : σ.Grows r.2
  definitions : r.2.definitions = σ.definitions
  node : ∃ l ms, r.2.node? r.1 = some (constructor l) ∧
    r.2.lists.get? l.number = some ms ∧ ∀ m, m ∈ ms ↔ m ∈ members

theorem joins_intern (σ : Store ρ) {constructor : ListId → Node}
    (hk : ∀ l, (constructor l).kind ≠ .literal) {members ms : List Handle}
    (same : ∀ m, m ∈ ms ↔ m ∈ members) :
    σ.Joins constructor members (intern (constructor (internList ms σ).1) (internList ms σ).2) where
  grows := (grows_internList ms σ).trans (grows_intern _ _)
  definitions := rfl
  node := ⟨_, ms, node?_intern (hk _) _, list_internList ms σ, same⟩

theorem joins_union (σ : Store ρ) {members : List Handle} {x y : Handle}
    (hx : x ∈ flattenUnions σ members) (hy : y ∈ flattenUnions σ members) (apart : x ≠ y)
    (inner : ∀ m ∈ flattenUnions σ members, m ∉ ends) :
    σ.Joins .union (flattenUnions σ members) (union members σ) := by
  obtain ⟨ms, hms, same⟩ := Joined.union_of_two hx hy apart inner
  have built : union members σ
      = intern (.union (internList ms σ).1) (internList ms σ).2 := by
    unfold union
    rw [bind_apply, get_apply, hms]
    rfl
  rw [built]
  exact joins_intern σ (by intro _ h; cases h) same

theorem joins_intersection (σ : Store ρ) {members : List Handle} {x y : Handle}
    (hx : x ∈ flattenIntersections σ members) (hy : y ∈ flattenIntersections σ members)
    (apart : x ≠ y)
    (inner : ∀ m ∈ flattenIntersections σ members, m ∉ ends) :
    σ.Joins .intersection (flattenIntersections σ members) (intersection members σ) := by
  obtain ⟨ms, hms, same⟩ := Joined.intersection_of_two hx hy apart inner
  have built : intersection members σ
      = intern (.intersection (internList ms σ).1) (internList ms σ).2 := by
    unfold intersection
    rw [bind_apply, get_apply, hms]
    rfl
  rw [built]
  exact joins_intern σ (by intro _ h; cases h) same

end Store

end Assignability
