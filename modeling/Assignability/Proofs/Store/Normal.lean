/-
  Assignability.Proofs.Store.Normal
  ─────────────────────────────────
  **WHAT THE CONSTRUCTORS SEE TO.**

  A store comes about by calls of constructors, whose arguments are in
  the store, and by resolvers, which do nothing but call constructors.
  All that a store then holds is in normal form (`Store.WellBuilt`): the
  members of a union are at least two, in order, none of them a union or
  one of the built-in ends, and the same for intersections; enumerations
  list literals.

  Main statements:
    • `KeptBySteps.carryOut` — what the steps of building keep a call
      keeps,
    • `grows_carryOut`, `Comes.grows` — a call only adds to the store,
    • `WellBuilt.call`, `wellBuilt_of_comes` — one call keeps the normal
      form, and so do all calls from the new store on,
    • `WellBuilt.orderly` — resolvers that call constructors are orderly.
-/
import Assignability.Proofs.Store.History

namespace Assignability

variable {ρ : Type}

/-! ## §1. Calls -/

/-- A call of a constructor. -/
inductive Call (ρ : Type) where
  | text (string : String)
  | literal (value : Literal)
  | enumeration (values : List Literal)
  | array (element : Handle)
  | set (element : Handle)
  | promise (inner : Handle)
  | record (key value : Handle)
  | map (key value : Handle)
  | tuple (shape : Sequence)
  | function (shape : Signature)
  | object (fields : List Field) (index : Option IndexSignature)
  | union (members : List Handle)
  | intersection (members : List Handle)
  | branded (base : Handle) (brand : String)
  | declare
  | define (h : Handle) (resolver : ρ)

namespace Call

/-- The store after a call. -/
def carryOut : Call ρ → Store ρ → Store ρ
  | .text string, σ => (Store.internText string σ).2
  | .literal value, σ => (Store.literal value σ).2
  | .enumeration values, σ => (Store.enumeration values σ).2
  | .array element, σ => (Store.array element σ).2
  | .set element, σ => (Store.set element σ).2
  | .promise inner, σ => (Store.promise inner σ).2
  | .record key value, σ => (Store.record key value σ).2
  | .map key value, σ => (Store.map key value σ).2
  | .tuple shape, σ => (Store.tupleOf shape σ).2
  | .function shape, σ => (Store.functionOf shape σ).2
  | .object fields index, σ => (Store.objectOf fields index σ).2
  | .union members, σ => (Store.union members σ).2
  | .intersection members, σ => (Store.intersection members σ).2
  | .branded base brand, σ => (Store.branded base brand σ).2
  | .declare, σ => (Store.declare σ).2
  | .define h resolver, σ => (Store.define h resolver σ).2

/-- The handles that a call is about. -/
def handles : Call ρ → List Handle
  | .array h | .set h | .promise h | .branded h _ => [h]
  | .record key value | .map key value => [key, value]
  | .tuple shape => shape.parts
  | .function shape => shape.parts
  | .object fields index => Layout.parts ⟨fields, index⟩
  | .union members | .intersection members => members
  | _ => []

/-- The names that a call declares. -/
def names : Call ρ → List Atom
  | .object fields _ => fields.map (·.name)
  | _ => []

/-- The resolvers that a call attaches. -/
def resolvers : Call ρ → List ρ
  | .define _ resolver => [resolver]
  | _ => []

end Call

/-- A field that was put in its place among others. -/
theorem Field.mem_place {f g : Field} {later : List Field} (h : f ∈ place g later) :
    f = g ∨ f ∈ later := by
  induction later with
  | nil => exact .inl (List.mem_singleton.1 h)
  | cons a later ih =>
    unfold place at h
    split at h
    · exact List.mem_cons.1 h
    · split at h
      · exact .inr h
      · rcases List.mem_cons.1 h with rfl | h
        · exact .inr List.mem_cons_self
        · exact (ih h).imp_right (List.mem_cons_of_mem a)

/-- A field that is left in the normal form was declared. -/
theorem Field.mem_of_mem_normalize {fields : List Field} {f : Field} (h : f ∈ normalize fields) :
    f ∈ fields := by
  induction fields with
  | nil => exact h
  | cons g fields ih =>
    rcases mem_place h with rfl | h
    · exact List.mem_cons_self
    · exact List.mem_cons_of_mem g (ih h)

/-- What an object is made of was declared. -/
theorem Layout.mem_parts_of_mem {fields : List Field} {index : Option IndexSignature} {h : Handle}
    (hh : h ∈ (Layout.of fields index).parts) : h ∈ Layout.parts ⟨fields, index⟩ := by
  rcases List.mem_append.1 hh with hh | hh
  · obtain ⟨f, hf, rfl⟩ := List.mem_map.1 hh
    exact List.mem_append_left _ (List.mem_map_of_mem (Field.mem_of_mem_normalize hf))
  · exact List.mem_append_right _ hh

namespace Store

variable {run : Runner ρ} {σ τ υ : Store ρ} {h : Handle} {n : Node} {k : Kind}
  {members ms : List Handle}

/-- A property that each of the steps keeps of which constructors consist, but for definitions. -/
structure KeptBySteps (I : Store ρ → Prop) : Prop where
  node : ∀ n σ, I σ → I (intern n σ).2
  list : ∀ members σ, I σ → I (internList members σ).2
  tuple : ∀ shape σ, I σ → I (internTuple shape σ).2
  object : ∀ fields index σ, I σ → I (internObject (.of fields index) σ).2
  function : ∀ shape σ, I σ → I (internFunction shape σ).2
  text : ∀ string σ, I σ → I (internText string σ).2
  declare : ∀ σ, I σ → I (addDefinition σ).2

/-- What the steps keep a call keeps. -/
theorem KeptBySteps.carryOut {I : Store ρ → Prop} (keeps : KeptBySteps I) (c : Call ρ)
    (defines : ∀ d, ∀ resolver ∈ c.resolvers, I (attachResolver d resolver σ).2) (h : I σ) :
    I (c.carryOut σ) := by
  -- every call is a few steps: a text, a list or a shape, then a node
  cases c with
  | text string => exact keeps.text string σ h
  | literal | array | set | promise | record | map => exact keeps.node _ σ h
  | enumeration values =>
    have literals : I (values.mapM literal σ).2 :=
      mapM_invariant (fun value => keeps.node (.literal value)) values σ h
    show I (Store.enumeration values σ).2
    unfold Store.enumeration
    rw [bind_apply]
    split
    · exact literals
    · exact keeps.node _ _ (keeps.list _ _ literals)
  | tuple shape => exact keeps.node _ _ (keeps.tuple shape σ h)
  | function shape => exact keeps.node _ _ (keeps.function shape σ h)
  | object fields index => exact keeps.node _ _ (keeps.object fields index σ h)
  | union members =>
    show I (Store.union members σ).2
    unfold Store.union
    rw [bind_apply, get_apply]
    dsimp only
    cases Joined.union (flattenUnions σ members) with
    | single g => exact h
    | several ms => exact keeps.node _ _ (keeps.list ms σ h)
  | intersection members =>
    show I (Store.intersection members σ).2
    unfold Store.intersection
    rw [bind_apply, get_apply]
    dsimp only
    cases Joined.intersection (flattenIntersections σ members) with
    | single g => exact h
    | several ms => exact keeps.node _ _ (keeps.list ms σ h)
  | branded base brand => exact keeps.node _ _ (keeps.text brand σ h)
  | declare => exact keeps.node _ _ (keeps.declare σ h)
  | define g resolver =>
    show I (Store.define g resolver σ).2
    unfold Store.define
    rw [bind_apply, get_apply]
    dsimp only
    cases σ.lazyId? g with
    | none => exact h
    | some d => exact defines d resolver List.mem_cons_self

theorem keptBySteps_grows (σ : Store ρ) : KeptBySteps σ.Grows where
  node := fun n τ h => h.trans (grows_intern n τ)
  list := fun members τ h => h.trans (grows_internList members τ)
  tuple := fun shape τ h => h.trans (grows_internTuple shape τ)
  object := fun fields index τ h => h.trans (grows_internObject (.of fields index) τ)
  function := fun shape τ h => h.trans (grows_internFunction shape τ)
  text := fun string τ h => h.trans (grows_internText string τ)
  declare := fun τ h => h.trans (grows_addDefinition τ)

/-- **A CALL ONLY ADDS TO THE STORE.** -/
theorem grows_carryOut (c : Call ρ) (σ : Store ρ) : σ.Grows (c.carryOut σ) :=
  (keptBySteps_grows σ).carryOut c (fun d resolver _ => grows_attachResolver d resolver σ) (.refl σ)

/-- Stores that come of a store by calls about what is there, and by carrying out resolvers that do
nothing else. -/
inductive Comes (run : Runner ρ) : Store ρ → Store ρ → Prop
  | refl (σ : Store ρ) : Comes run σ σ
  | call {σ τ : Store ρ} (c : Call ρ) (before : Comes run σ τ) (has : ∀ h ∈ c.handles, τ.Has h)
    (spells : ∀ a ∈ c.names, τ.Spells a) : Comes run σ (c.carryOut τ)
  | resolve {σ τ : Store ρ} {d : LazyId} {resolver : ρ} (before : Comes run σ τ)
    (pending : τ.definitions.get? d = some ⟨some resolver, none⟩)
    (inner : Comes run τ (run resolver τ).2) (has : (run resolver τ).2.Has (run resolver τ).1) :
    Comes run σ (recordResolution d (run resolver τ).1 (run resolver τ).2).2

theorem Comes.grows (comes : Comes run σ τ) : σ.Grows τ := by
  induction comes with
  | refl σ => exact .refl σ
  | call c _ _ _ ih => exact ih.trans (grows_carryOut c _)
  | resolve _ _ _ _ ih ihInner => exact ih.trans (ihInner.trans (grows_recordResolution _ _ _))

/-! ## §2. The normal form -/

/-- Members in order, at least two, and none of them an end or of the constructor itself. -/
structure IsJoined (σ : Store ρ) (k : Kind) (members : List Handle) : Prop where
  several : 2 ≤ members.length
  sorted : members.Pairwise (· < ·)
  inner : ∀ m ∈ members, m ∉ ends
  flat : ∀ m ∈ members, σ.isOfKind k m = false

/-- What a constructor sees to in a node of its own. -/
def IsNormal (σ : Store ρ) : Node → Prop
  | .enumeration l => σ.list l ≠ [] ∧ ∀ m ∈ σ.list l, σ.isOfKind .literal m = true
  | .union l => σ.IsJoined .union (σ.list l)
  | .intersection l => σ.IsJoined .intersection (σ.list l)
  | _ => True

/-- A store of nodes in normal form, in which all that they speak of is there. -/
structure WellBuilt (σ : Store ρ) : Prop where
  complete : ∀ h n, σ.node? h = some n → σ.completes n = true
  normal : ∀ h n, σ.node? h = some n → σ.IsNormal n
  resolutions : ∀ d h, σ.definitions.resolution? d = some h → σ.Has h

theorem WellBuilt.isWhole (built : σ.WellBuilt) : σ.IsWhole :=
  isWhole_of_completes built.complete built.resolutions

/-- What the parts of a complete node are, the store has. -/
theorem has_of_completes (hn : σ.completes n = true) : ∀ g ∈ σ.components n, σ.Has g := by
  intro g hg
  have parts := (Bool.and_eq_true_iff.1 (Bool.and_eq_true_iff.1 hn).1).2
  exact Option.isSome_iff_exists.1 (List.all_eq_true.1 parts g hg)

theorem keeps_of_completes (hn : σ.completes n = true) : σ.keeps n = true :=
  (Bool.and_eq_true_iff.1 (Bool.and_eq_true_iff.1 hn).1).1

/-- Of the shape of an object and the definition of a lazy node more is asked. -/
theorem completes_of_has (keeps : σ.keeps n = true) (parts : ∀ g ∈ σ.components n, σ.Has g)
    (names : ∀ o, n = .object o → ∀ f ∈ (σ.object o).fields, σ.Spells f.name)
    (declared : ∀ d, n = .lazy d → σ.definitions.contains d = true) : σ.completes n = true := by
  unfold completes
  rw [keeps, Bool.true_and, Bool.and_eq_true_iff]
  refine ⟨List.all_eq_true.2 fun g hg => Option.isSome_iff_exists.2 (parts g hg), ?_⟩
  cases n with
  | object o => exact List.all_eq_true.2 (names o rfl)
  | lazy d => exact declared d rfl
  | _ => rfl

/-! ## §3. Later stores -/

theorem Grows.isJoined (grows : σ.Grows τ) (h : σ.IsJoined k members)
    (has : ∀ m ∈ members, σ.Has m) : τ.IsJoined k members :=
  { h with flat := fun m hm => (grows.isOfKind_eq (has m hm) k).trans (h.flat m hm) }

theorem Grows.isNormal (grows : σ.Grows τ) (h : σ.IsNormal n) (complete : σ.completes n = true) :
    τ.IsNormal n := by
  have keeps := keeps_of_completes complete
  have has := has_of_completes complete
  cases n with
  | enumeration l =>
    obtain ⟨nonempty, literals⟩ := h
    dsimp only [IsNormal]
    rw [grows.list keeps]
    exact ⟨nonempty, fun m hm => (grows.isOfKind_eq (has m hm) _).trans (literals m hm)⟩
  | union l | intersection l =>
    dsimp only [IsNormal] at h ⊢
    rw [grows.list keeps]
    exact grows.isJoined h has
  | _ => trivial

theorem Grows.completes (grows : σ.Grows τ) (complete : σ.completes n = true) :
    τ.completes n = true := by
  have keeps := keeps_of_completes complete
  have rest := (Bool.and_eq_true_iff.1 complete).2
  refine completes_of_has (grows.keeps keeps) ?_ ?_ ?_
  · rw [grows.components keeps]
    exact fun g hg => grows.has (has_of_completes complete g hg)
  · rintro o rfl
    rw [grows.object keeps]
    exact fun f hf => grows.spells (List.all_eq_true.1 rest f hf)
  · rintro d rfl
    exact grows.declared d rest

/-- A step keeps the normal form where each node is an old one or one in normal form. -/
theorem WellBuilt.step (built : σ.WellBuilt) (grows : σ.Grows τ)
    (nodes : ∀ h n, τ.node? h = some n →
      σ.node? h = some n ∨ τ.completes n = true ∧ τ.IsNormal n)
    (resolutions : ∀ d h, τ.definitions.resolution? d = some h →
      σ.definitions.resolution? d = some h ∨ τ.Has h) : τ.WellBuilt where
  complete := by
    intro h n hn
    rcases nodes h n hn with hn | ⟨complete, -⟩
    · exact grows.completes (built.complete h n hn)
    · exact complete
  normal := by
    intro h n hn
    rcases nodes h n hn with hn | ⟨-, normal⟩
    · exact grows.isNormal (built.normal h n hn) (built.complete h n hn)
    · exact normal
  resolutions := by
    intro d h hd
    rcases resolutions d h hd with hd | has
    · exact grows.has (built.resolutions d h hd)
    · exact has

/-- A step that adds no node and no resolution keeps the normal form. -/
theorem WellBuilt.of_same (built : σ.WellBuilt) (grows : σ.Grows τ) (nodes : τ.nodes = σ.nodes)
    (resolutions : ∀ d, τ.definitions.resolution? d = σ.definitions.resolution? d) :
    τ.WellBuilt := by
  refine built.step grows (fun h n hn => .inl ?_) fun d h hd => .inl ?_
  · unfold node? at hn ⊢
    rw [← nodes]
    exact hn
  · rw [← resolutions]
    exact hd

/-- A node that is added in normal form keeps that of the store. -/
theorem WellBuilt.intern (built : σ.WellBuilt) (complete : σ.completes n = true)
    (normal : σ.IsNormal n) : (Store.intern n σ).2.WellBuilt := by
  have grows := grows_intern n σ
  refine built.step grows (fun h m hm => ?_) fun _ _ => .inl
  rcases Table.get?_of_intern hm with hm | rfl
  · exact .inl hm
  · exact .inr ⟨grows.completes complete, grows.isNormal normal complete⟩

/-! ## §4. Members in normal form -/

theorem mem_dedup : h ∈ dedup members ↔ h ∈ members := by
  have kept : ∀ (members kept : List Handle),
      h ∈ members.foldl (fun kept h => if h ∈ kept then kept else h :: kept) kept ↔
        h ∈ kept ∨ h ∈ members := by
    intro members
    induction members with
    | nil => exact fun kept => (or_iff_left List.not_mem_nil).symm
    | cons a members ih =>
      intro kept
      rw [List.foldl_cons, ih, List.mem_cons]
      split
      · next known =>
        -- a repetition is among those kept
        constructor
        · exact Or.imp_right .inr
        · rintro (hm | rfl | hm)
          · exact .inl hm
          · exact .inl known
          · exact .inr hm
      · rw [List.mem_cons, or_assoc, or_left_comm]
  unfold dedup
  rw [List.mem_reverse, kept members [], or_iff_right List.not_mem_nil]

theorem isOfKind_literal (value : Literal) (σ : Store ρ) :
    (literal value σ).2.isOfKind .literal (literal value σ).1 = true := by
  obtain ⟨m, hm, key⟩ := Table.exists_get?_intern_fst σ.nodes (.literal value)
  have node : (literal value σ).2.node? (literal value σ).1 = some m := hm
  refine (isOfKind_of_node node).2 ?_
  rw [← Node.kind_key, key]
  rfl

theorem WellBuilt.isJoined (built : σ.WellBuilt) (hn : σ.node? h = some n)
    (hk : n.kind = .union ∨ n.kind = .intersection) : σ.IsJoined n.kind (σ.components n) := by
  have normal := built.normal h n hn
  cases n with
  | union l | intersection l => exact normal
  | _ => rcases hk with hk | hk <;> cases hk

/-- Members that are taken apart once are flat. -/
theorem WellBuilt.flat (built : σ.WellBuilt) (has : ∀ m ∈ members, σ.Has m)
    (hk : k = .union ∨ k = .intersection) :
    ∀ m ∈ members.flatMap (σ.piecesOf k), σ.Has m ∧ σ.isOfKind k m = false := by
  intro m hm
  obtain ⟨h, hh, piece⟩ := List.mem_flatMap.1 hm
  obtain ⟨n, hn⟩ := has h hh
  rw [piecesOf_of_node hn] at piece
  split at piece
  · -- a member of the kind is in normal form itself, so its members are not of the kind
    next same =>
    subst same
    exact ⟨has_of_completes (built.complete h n hn) m piece, (built.isJoined hn hk).flat m piece⟩
  · next other =>
    obtain rfl := List.mem_singleton.1 piece
    exact ⟨⟨n, hn⟩, Bool.eq_false_iff.2 fun same => other ((isOfKind_of_node hn).1 same)⟩

/-! ## §5. One call -/

/-- A node of its own for a member list. -/
theorem WellBuilt.ofList (built : σ.WellBuilt) {constructor : ListId → Node}
    (lists : constructor = .enumeration ∨ constructor = .union ∨ constructor = .intersection)
    (has : ∀ m ∈ ms, σ.Has m)
    (normal : ∀ (τ : Store ρ) l, τ.list l = ms → σ.Grows τ → τ.IsNormal (constructor l)) :
    (Store.intern (constructor (internList ms σ).1) (internList ms σ).2).2.WellBuilt := by
  have grows := grows_internList ms σ
  have entry := list_internList ms σ
  have list : (internList ms σ).2.list (internList ms σ).1 = ms := list_of_get? entry
  refine (built.of_same grows rfl fun _ => rfl).intern ?_ (normal _ _ list grows)
  have has' : ∀ m ∈ (internList ms σ).2.list (internList ms σ).1, (internList ms σ).2.Has m := by
    rw [list]
    exact fun m hm => grows.has (has m hm)
  have keeps := Option.isSome_of_eq_some entry
  rcases lists with rfl | rfl | rfl <;> exact completes_of_has keeps has' nofun nofun

/-- A joined type of its own, of members in normal form. -/
theorem WellBuilt.join (built : σ.WellBuilt) (has : ∀ m ∈ members, σ.Has m)
    {constructor : ListId → Node}
    (joins : constructor = .union ∧ k = .union ∨ constructor = .intersection ∧ k = .intersection)
    (form : 2 ≤ ms.length ∧ ms.Pairwise (· < ·) ∧
      ∀ m ∈ ms, m ∈ members.flatMap (σ.piecesOf k) ∧ m ∉ ends) :
    (Store.intern (constructor (internList ms σ).1) (internList ms σ).2).2.WellBuilt := by
  obtain ⟨several, sorted, inner⟩ := form
  have flat := built.flat has (joins.imp And.right And.right)
  have has' : ∀ m ∈ ms, σ.Has m := fun m hm => (flat m (inner m hm).1).1
  refine built.ofList (.inr (joins.imp And.left And.left)) has' fun τ l list grows => ?_
  have joined : τ.IsJoined k (τ.list l) := by
    rw [list]
    refine grows.isJoined ⟨several, sorted, fun m hm => (inner m hm).2, fun m hm => ?_⟩ has'
    exact (flat m (inner m hm).1).2
  rcases joins with ⟨rfl, rfl⟩ | ⟨rfl, rfl⟩ <;> exact joined

theorem WellBuilt.union (built : σ.WellBuilt) (has : ∀ m ∈ members, σ.Has m) :
    (Store.union members σ).2.WellBuilt := by
  unfold Store.union
  rw [bind_apply, get_apply, flattenUnions_eq]
  dsimp only
  cases hj : Joined.union (members.flatMap (σ.piecesOf .union)) with
  | single h => exact built
  | several ms => exact built.join has (.inl ⟨rfl, rfl⟩) (Joined.of_union hj)

theorem WellBuilt.intersection (built : σ.WellBuilt) (has : ∀ m ∈ members, σ.Has m) :
    (Store.intersection members σ).2.WellBuilt := by
  unfold Store.intersection
  rw [bind_apply, get_apply, flattenIntersections_eq]
  dsimp only
  cases hj : Joined.intersection (members.flatMap (σ.piecesOf .intersection)) with
  | single h => exact built
  | several ms => exact built.join has (.inr ⟨rfl, rfl⟩) (Joined.of_intersection hj)

theorem WellBuilt.literal (built : σ.WellBuilt) (value : Literal) :
    (Store.literal value σ).2.WellBuilt :=
  built.intern (completes_of_has rfl nofun nofun nofun) trivial

/-- Literals that are built one after the other are all there in the end. -/
theorem literals_mapM (values : List Literal) : ∀ σ : Store ρ, ∀ m ∈ (values.mapM literal σ).1,
    (values.mapM literal σ).2.Has m ∧ (values.mapM literal σ).2.isOfKind .literal m = true := by
  induction values with
  | nil => exact fun _ => nofun
  | cons value values ih =>
    intro σ m hm
    rw [List.mapM_cons, bind_apply, bind_apply] at hm ⊢
    rcases List.mem_cons.1 hm with rfl | hm
    · have later := grows_mapM (fun v => grows_intern (.literal v)) values (literal value σ).2
      have has : (literal value σ).2.Has (literal value σ).1 := has_intern _ σ
      exact ⟨later.has has, (later.isOfKind_eq has _).trans (isOfKind_literal value σ)⟩
    · exact ih _ m hm

theorem WellBuilt.enumeration (built : σ.WellBuilt) (values : List Literal) :
    (Store.enumeration values σ).2.WellBuilt := by
  have built' : (values.mapM Store.literal σ).2.WellBuilt :=
    mapM_invariant (I := WellBuilt) (fun value _ built => built.literal value) values σ built
  unfold Store.enumeration
  rw [bind_apply]
  split
  · exact built'
  · next nonempty =>
    have members : ∀ m ∈ dedup (values.mapM Store.literal σ).1, _ := fun m hm =>
      literals_mapM values σ m (mem_dedup.1 hm)
    refine built'.ofList (.inl rfl) (fun m hm => (members m hm).1) fun τ l list grows => ?_
    dsimp only [IsNormal]
    rw [list]
    refine ⟨fun empty => nonempty (by rw [empty]; rfl), fun m hm => ?_⟩
    exact (grows.isOfKind_eq (members m hm).1 _).trans (members m hm).2

theorem WellBuilt.tuple (built : σ.WellBuilt) {shape : Sequence}
    (has : ∀ h ∈ shape.parts, σ.Has h) : (tupleOf shape σ).2.WellBuilt := by
  have grows := grows_internTuple shape σ
  have entry := tuple_internTuple shape σ
  have same : (internTuple shape σ).2.tuple (internTuple shape σ).1 = shape := tuple_of_get? entry
  refine (built.of_same grows rfl fun _ => rfl).intern
    (n := .tuple (internTuple shape σ).1) ?_ trivial
  refine completes_of_has (Option.isSome_of_eq_some entry) ?_ nofun nofun
  show ∀ g ∈ ((internTuple shape σ).2.tuple (internTuple shape σ).1).parts, _
  rw [same]
  exact fun g hg => grows.has (has g hg)

theorem WellBuilt.function (built : σ.WellBuilt) {shape : Signature}
    (has : ∀ h ∈ shape.parts, σ.Has h) : (functionOf shape σ).2.WellBuilt := by
  have grows := grows_internFunction shape σ
  have entry := function_internFunction shape σ
  have same : (internFunction shape σ).2.function (internFunction shape σ).1 = shape :=
    function_of_get? entry
  refine (built.of_same grows rfl fun _ => rfl).intern
    (n := .function (internFunction shape σ).1) ?_ trivial
  refine completes_of_has (Option.isSome_of_eq_some entry) ?_ nofun nofun
  show ∀ g ∈ ((internFunction shape σ).2.function (internFunction shape σ).1).parts, _
  rw [same]
  exact fun g hg => grows.has (has g hg)

theorem WellBuilt.object (built : σ.WellBuilt) {fields : List Field} {index : Option IndexSignature}
    (has : ∀ h ∈ Layout.parts ⟨fields, index⟩, σ.Has h) (spells : ∀ f ∈ fields, σ.Spells f.name) :
    (objectOf fields index σ).2.WellBuilt := by
  let shape := Layout.of fields index
  have grows := grows_internObject shape σ
  have entry := object_internObject shape σ
  have same : (internObject shape σ).2.object (internObject shape σ).1 = shape :=
    object_of_get? entry
  refine (built.of_same grows rfl fun _ => rfl).intern
    (n := .object (internObject shape σ).1) ?_ trivial
  refine completes_of_has (Option.isSome_of_eq_some entry) ?_ ?_ nofun
  · show ∀ g ∈ ((internObject shape σ).2.object (internObject shape σ).1).parts, _
    rw [same]
    exact fun g hg => grows.has (has g (Layout.mem_parts_of_mem hg))
  · intro o ho
    rw [← Node.object.inj ho, same]
    -- the fields that are stored are among those that were declared
    exact fun f hf => grows.spells (spells f (Field.mem_of_mem_normalize hf))

theorem WellBuilt.declare (built : σ.WellBuilt) : (Store.declare σ).2.WellBuilt := by
  have grows := grows_addDefinition σ
  have built' := built.of_same grows rfl fun _ => Definitions.resolution?_declare
  refine built'.intern (completes_of_has rfl nofun nofun fun d hd => ?_) trivial
  obtain rfl := Node.lazy.inj hd
  exact Definitions.contains_declare

theorem WellBuilt.define (built : σ.WellBuilt) (h : Handle) (resolver : ρ) :
    (Store.define h resolver σ).2.WellBuilt := by
  unfold Store.define
  rw [bind_apply, get_apply]
  dsimp only
  cases σ.lazyId? h with
  | none => exact built
  | some d =>
    exact built.of_same (grows_attachResolver d resolver σ) rfl fun _ =>
      Definitions.resolution?_define resolver

/-- **ONE CALL KEEPS THE NORMAL FORM.** -/
theorem WellBuilt.call (built : σ.WellBuilt) (c : Call ρ) (has : ∀ h ∈ c.handles, σ.Has h)
    (spells : ∀ a ∈ c.names, σ.Spells a) : (c.carryOut σ).WellBuilt := by
  cases c with
  | text string =>
    exact built.of_same (grows_internText string σ) rfl fun _ => rfl
  | literal value => exact built.literal value
  | enumeration values => exact built.enumeration values
  | array | set | promise | record | map =>
    exact built.intern (completes_of_has rfl has nofun nofun) trivial
  | tuple shape => exact built.tuple has
  | function shape => exact built.function has
  | object fields index =>
    exact built.object has fun f hf => spells _ (List.mem_map_of_mem hf)
  | union members => exact built.union has
  | intersection members => exact built.intersection has
  | branded base brand =>
    have grows := grows_internText brand σ
    refine (built.of_same grows rfl fun _ => rfl).intern ?_ trivial
    exact completes_of_has rfl (fun g hg => grows.has (has g hg)) nofun nofun
  | declare => exact built.declare
  | define h resolver => exact built.define h resolver

/-! ## §6. All calls -/

/-- In the new store there are the built-in types alone. -/
theorem node?_new {assign : String → Fin 64} (hn : (Store.new assign : Store ρ).node? h = some n) :
    ∃ k : Intrinsic, n = .intrinsic k := by
  have entries : Store.builtIn.entries.toList = Intrinsic.all.map Node.intrinsic :=
    Table.toList_entries_internAll (by decide)
  change Store.builtIn.entries[h.number]? = some n at hn
  rw [← Array.getElem?_toList, entries] at hn
  obtain ⟨k, -, rfl⟩ := List.mem_map.1 (List.mem_of_getElem? hn)
  exact ⟨k, rfl⟩

theorem wellBuilt_new (assign : String → Fin 64) : (Store.new assign : Store ρ).WellBuilt := by
  constructor
  · intro h n hn
    obtain ⟨k, rfl⟩ := node?_new hn
    rfl
  · intro h n hn
    obtain ⟨k, rfl⟩ := node?_new hn
    trivial
  · intro d h hd
    unfold Definitions.resolution? Definitions.get? at hd
    cases hp : Definitions.place? d with
    | none => rw [hp] at hd; cases hd
    | some i => rw [hp] at hd; simp [Store.new] at hd

/-- **WHAT THE CONSTRUCTORS BUILD IS IN NORMAL FORM**, whatever resolvers were carried out. -/
theorem WellBuilt.of_comes (built : σ.WellBuilt) (comes : Comes run σ τ) : τ.WellBuilt := by
  induction comes with
  | refl => exact built
  | call c _ has spells ih => exact (ih built).call c has spells
  | @resolve σ τ d resolver _ _ _ has ihBefore ihInner =>
    -- the resolver's own calls first, then the resolution goes on record
    have after := ihInner (ihBefore built)
    refine after.step (grows_recordResolution d _ _) (fun _ _ => .inl) fun e g hg => ?_
    rcases Definitions.resolution?_of_settle hg with hg | rfl
    · exact .inl hg
    · exact .inr has

/-- Resolvers that do nothing but call constructors, and define no node that was there without a
resolver, are orderly. -/
theorem WellBuilt.orderly (built : σ.WellBuilt)
    (resolvers : ∀ τ, Comes run σ τ → ∀ d resolver,
      τ.definitions.get? d = some ⟨some resolver, none⟩ →
        Comes run τ (run resolver τ).2 ∧ (run resolver τ).2.Has (run resolver τ).1 ∧
          ∀ e, τ.definitions.get? e = some ⟨none, none⟩ →
            (run resolver τ).2.definitions.get? e = some ⟨none, none⟩) : Orderly run σ := by
  refine ⟨Comes run σ, .refl σ, fun τ comes => ?_⟩
  refine ⟨(built.of_comes comes).isWhole, fun d resolver pending => ?_⟩
  obtain ⟨inner, has, undefined⟩ := resolvers τ comes d resolver pending
  exact ⟨⟨inner.grows, undefined⟩, has, comes.resolve pending inner has⟩

theorem wellBuilt_of_comes (assign : String → Fin 64) (comes : Comes run (.new assign) σ) :
    σ.WellBuilt := (wellBuilt_new assign).of_comes comes

end Store

end Assignability
