/-
  Assignability.Proofs.Store.Layers
  ─────────────────────────────────
  **ONLY LAZY NODES LEAD BACK.**

  What a constructor is called about is in the store, and a node that is
  new comes last.  So the parts of a node, in the node itself or in its
  list or shape, have lower handles than the node (`Store.IsLayered`).  A
  node or a shape that is not new was built for the same parts before, and
  what the normal form leaves of members was there as well.

  Resolvers may do anything of this kind while a lazy node is looked into,
  and may give any handle (`Store.Assembles`): a lazy node has no parts,
  and what is on record for it is in no node.

  Main statements:
    • `IsLayered.intern`, `IsLayered.call` — one node, and one call, leave
      the store in layers,
    • `IsLayered.of_assembles` — so do all calls, in resolvers and out of
      them,
    • `parts_lead_down` — parts lead down, ways that come back pass a lazy
      node, and walks from part to part end.
-/
import Assignability.Proofs.Diagnosis.BrandLayer
import Assignability.Proofs.Diagnosis.Ending
import Assignability.Proofs.Store.Resolvers

namespace Assignability

variable {ρ : Type} {run : Runner ρ}

namespace Store

variable {σ τ : Store ρ} {h g : Handle} {n : Node} {members ms : List Handle} {c : Call ρ}

/-! ## §1. Layers -/

/-- A store in which the list or the shape of each node is there, and all handles in the node, its
list or its shape are lower than that of the node. -/
structure IsLayered (σ : Store ρ) : Prop where
  keeps : ∀ h n, σ.node? h = some n → σ.keeps n = true
  below : ∀ h n, σ.node? h = some n → ∀ g ∈ σ.components n, g < h

theorem isLayered_new (assign : String → Fin 64) : (Store.new assign : Store ρ).IsLayered where
  keeps := by
    intro h n hn
    obtain ⟨k, rfl⟩ := node?_new hn
    rfl
  below := by
    intro h n hn
    obtain ⟨k, rfl⟩ := node?_new hn
    exact nofun

namespace IsLayered

theorem partsEarlier (layered : σ.IsLayered) : σ.PartsEarlier := by
  intro h g hg
  obtain ⟨n, hn⟩ := has_of_mem_parts hg
  rw [parts_of_node hn] at hg
  exact layered.below h n hn g hg

/-- The parts of what is in the store are in the store. -/
theorem has_part (layered : σ.IsLayered) (hh : σ.Has h) (hg : g ∈ σ.parts h) : σ.Has g :=
  has_iff.2 (Nat.lt_trans (layered.partsEarlier h g hg) (has_iff.1 hh))

/-- A later store is in layers where each node is an old one or stands above its parts. -/
theorem later (layered : σ.IsLayered) (grows : σ.Grows τ)
    (nodes : ∀ h n, τ.node? h = some n →
      σ.node? h = some n ∨ τ.keeps n = true ∧ ∀ g ∈ τ.components n, g < h) : τ.IsLayered where
  keeps := by
    intro h n hn
    rcases nodes h n hn with hn | ⟨keeps, -⟩
    · exact grows.keeps (layered.keeps h n hn)
    · exact keeps
  below := by
    intro h n hn
    rcases nodes h n hn with hn | ⟨-, below⟩
    · -- an old node has the parts that it had
      rw [grows.components (layered.keeps h n hn)]
      exact layered.below h n hn
    · exact below

/-- A step that adds no node leaves the store in layers. -/
theorem of_same (layered : σ.IsLayered) (grows : σ.Grows τ) (nodes : τ.nodes = σ.nodes) :
    τ.IsLayered := by
  refine layered.later grows fun h n hn => .inl ?_
  unfold node? at hn ⊢
  rwa [← nodes]

/-- **A NODE STANDS ABOVE WHAT WAS THERE BEFORE IT**: it comes last, unless it is there already. -/
theorem intern (layered : σ.IsLayered) (keeps : σ.keeps n = true)
    (has : ∀ g ∈ σ.components n, σ.Has g) : (Store.intern n σ).2.IsLayered := by
  have grows := grows_intern n σ
  refine layered.later grows fun h m hm => ?_
  rcases Table.get?_or_last_of_intern hm with hm | ⟨last, rfl⟩
  · exact .inl hm
  · refine .inr ⟨grows.keeps keeps, fun g hg => ?_⟩
    rw [grows.components keeps] at hg
    have lower : g.number < σ.size := has_iff.1 (has g hg)
    rw [Handle.lt_iff, last]
    exact lower

/-- The same of a node whose list, shape or name has just been interned. -/
theorem build (layered : σ.IsLayered) (grows : σ.Grows τ) (nodes : τ.nodes = σ.nodes)
    (keeps : τ.keeps n = true) {parts : List Handle} (components : τ.components n = parts)
    (has : ∀ g ∈ parts, σ.Has g) : (Store.intern n τ).2.IsLayered := by
  refine (layered.of_same grows nodes).intern keeps fun g hg => grows.has (has g ?_)
  rwa [← components]

/-! ## §2. One call -/

/-- A node of a member list. -/
theorem ofList (layered : σ.IsLayered) {constructor : ListId → Node}
    (lists : ∀ (τ : Store ρ) l, τ.keeps (constructor l) = (τ.lists.get? l.number).isSome ∧
      τ.components (constructor l) = τ.list l) (has : ∀ m ∈ ms, σ.Has m) :
    (Store.intern (constructor (internList ms σ).1) (internList ms σ).2).2.IsLayered := by
  have entry := list_internList ms σ
  obtain ⟨keeps, components⟩ := lists (internList ms σ).2 (internList ms σ).1
  exact layered.build (grows_internList ms σ) rfl (keeps.trans (Option.isSome_of_eq_some entry))
    (components.trans (list_of_get? entry)) has

/-- What is left of members in the normal form is in the store where the members are. -/
theorem has_of_join (layered : σ.IsLayered) {j : Joint} (has : ∀ m ∈ members, σ.Has m) :
    ∀ m ∈ (j.join (members.flatMap (σ.piecesOf j.kind))).toList, σ.Has m := by
  intro m hm
  rcases mem_of_join hm with ⟨k, rfl⟩ | ⟨a, ha, piece⟩
  · exact σ.has_handle k
  · unfold piecesOf at piece
    split at piece
    · exact layered.has_part (has a ha) piece
    · exact List.mem_singleton.1 piece ▸ has a ha

theorem join (layered : σ.IsLayered) (j : Joint) (has : ∀ m ∈ members, σ.Has m) :
    ((j.call members).carryOut σ).IsLayered := by
  have left := layered.has_of_join (j := j) has
  rw [carryOut_call]
  cases hj : j.join (members.flatMap (σ.piecesOf j.kind)) with
  | single g => exact layered
  | several ms =>
    rw [hj] at left
    exact layered.ofList (fun _ _ => by cases j <;> exact ⟨rfl, rfl⟩) left

theorem has_join (layered : σ.IsLayered) (j : Joint) (has : ∀ m ∈ members, σ.Has m)
    (gives : (j.call members).handle? σ = some h) : ((j.call members).carryOut σ).Has h := by
  have left := layered.has_of_join (j := j) has
  rw [handle?_call] at gives
  rw [carryOut_call, ← Option.some.inj gives]
  cases hj : j.join (members.flatMap (σ.piecesOf j.kind)) with
  | single g =>
    rw [hj] at left
    exact left g (List.mem_singleton_self g)
  | several ms => exact has_intern _ _

theorem enumeration (layered : σ.IsLayered) (values : List Literal) :
    (Store.enumeration values σ).2.IsLayered := by
  have literals : (values.mapM Store.literal σ).2.IsLayered :=
    mapM_invariant (I := IsLayered) (f := Store.literal)
      (fun _ _ layered => layered.intern rfl nofun) values σ layered
  unfold Store.enumeration
  rw [bind_apply]
  split
  · exact literals
  · exact literals.ofList (fun _ _ => ⟨rfl, rfl⟩) fun m hm =>
      (literals_mapM values σ m (mem_dedup.1 hm)).1

/-- **ONE CALL LEAVES THE STORE IN LAYERS**, whatever it builds and whatever of that was there. -/
theorem call (layered : σ.IsLayered) (c : Call ρ) (has : ∀ h ∈ c.handles, σ.Has h) :
    (c.carryOut σ).IsLayered := by
  -- every call makes its node last, of parts that were given to it; a definition makes none
  cases c with
  | text string => exact layered.of_same (grows_internText string σ) rfl
  | literal value => exact layered.intern rfl nofun
  | enumeration values => exact layered.enumeration values
  | array | set | promise | record | map => exact layered.intern rfl has
  | tuple shape =>
    have entry := tuple_internTuple shape σ
    exact layered.build (grows_internTuple shape σ) rfl (Option.isSome_of_eq_some entry)
      (congrArg Sequence.parts (tuple_of_get? entry)) has
  | function shape =>
    have entry := function_internFunction shape σ
    exact layered.build (grows_internFunction shape σ) rfl (Option.isSome_of_eq_some entry)
      (congrArg Signature.parts (function_of_get? entry)) has
  | object fields index =>
    have entry := object_internObject (.of fields index) σ
    exact layered.build (grows_internObject _ σ) rfl (Option.isSome_of_eq_some entry)
      (congrArg Layout.parts (object_of_get? entry)) fun g hg => has g (Layout.mem_parts_of_mem hg)
  | union members => exact layered.join .union has
  | intersection members => exact layered.join .intersection has
  | branded base brand => exact layered.build (grows_internText brand σ) rfl rfl rfl has
  | declare => exact layered.build (grows_addDefinition σ) rfl rfl rfl nofun
  | define h resolver =>
    show (Store.define h resolver σ).2.IsLayered
    unfold Store.define
    rw [bind_apply, get_apply]
    dsimp only
    cases σ.lazyId? h with
    | none => exact layered
    | some d => exact layered.of_same (grows_attachResolver d resolver σ) rfl

/-- What a call gives is in the store after it, so that later calls may be about it. -/
theorem has_handle? (layered : σ.IsLayered) (has : ∀ g ∈ c.handles, σ.Has g)
    (gives : c.handle? σ = some h) : (c.carryOut σ).Has h := by
  cases c with
  | literal | array | set | promise | record | map | tuple | function | object | branded | declare =>
    obtain rfl := Option.some.inj gives
    exact has_intern _ _
  | enumeration values =>
    obtain rfl := Option.some.inj gives
    rcases showsEnumeration_enumeration values σ with ⟨empty, -⟩ | ⟨l, ms, hl, -⟩
    · rw [empty]
      exact has_handle _ .never
    · exact ⟨_, hl⟩
  | union members => exact layered.has_join .union has gives
  | intersection members => exact layered.has_join .intersection has gives
  | text | define => cases gives

end IsLayered

/-! ## §3. All calls -/

/-- Stores that come of a store by calls about handles that are there, by nodes that are interned
as they are over a list or a shape that is there, and by looking into definitions, where a resolver
that is carried out does nothing else.  What the resolver gives may be any handle. -/
inductive Assembles (run : Runner ρ) : Store ρ → Store ρ → Prop
  | refl (σ : Store ρ) : Assembles run σ σ
  | call {σ τ : Store ρ} (c : Call ρ) (before : Assembles run σ τ)
    (has : ∀ h ∈ c.handles, τ.Has h) : Assembles run σ (c.carryOut τ)
  | intern {σ τ : Store ρ} (n : Node) (before : Assembles run σ τ) (keeps : τ.keeps n = true)
    (has : ∀ g ∈ τ.components n, τ.Has g) : Assembles run σ (Store.intern n τ).2
  | force {σ τ : Store ρ} (d : LazyId) (before : Assembles run σ τ)
    (inner : ∀ resolver, τ.definitions.get? d = some ⟨some resolver, none⟩ →
      Assembles run τ (run resolver τ).2) : Assembles run σ (Store.force run d τ).2

/-- **ALL CALLS LEAVE THE STORE IN LAYERS**, those that resolvers make among them. -/
theorem IsLayered.of_assembles (layered : σ.IsLayered) (assembles : Assembles run σ τ) :
    τ.IsLayered := by
  induction assembles with
  | refl => exact layered
  | call c _ has ih => exact (ih layered).call c has
  | intern n _ keeps has ih => exact (ih layered).intern keeps has
  | @force σ τ d _ _ ihBefore ihInner =>
    by_cases settled : τ.IsSettled d
    · rw [force_of_settled settled]
      exact ihBefore layered
    · -- the calls of the resolver come first; what it gave is put on record, and that is no node
      obtain ⟨resolver, pending⟩ := exists_pending settled
      rw [force_of_pending pending]
      exact (ihInner resolver pending (ihBefore layered)).of_same (grows_recordResolution d _ _) rfl

/-! ## §4. Ways down -/

namespace PartsEarlier

variable (earlier : σ.PartsEarlier)
include earlier

/-- Walks from a handle to its parts end. -/
theorem wellFounded : WellFounded fun g h => g ∈ σ.parts h :=
  Subrelation.wf (fun {g h} hg => earlier h g hg) (measure Handle.number).wf

/-- A way that passes no lazy node leads down. -/
theorem lt_or_exists_lazy (way : Relation.TransGen σ.Leads h g) :
    g < h ∨ ∃ x, σ.Reaches h x ∧ σ.Reaches x g ∧ (σ.lazyId? x).isSome = true := by
  -- only the step from a lazy node to what is on record for it need not go down
  induction way with
  | single step =>
    cases step with
    | part hg => exact .inl (earlier _ _ hg)
    | recorded hd hr =>
      exact .inr ⟨h, .refl, .single (.recorded hd hr), Option.isSome_of_eq_some hd⟩
  | tail way step ih =>
    rcases ih with lower | ⟨x, before, after, isLazy⟩
    · cases step with
      | part hg => exact .inl (Nat.lt_trans (earlier _ _ hg) lower)
      | recorded hd hr =>
        exact .inr ⟨_, way.to_reflTransGen, .single (.recorded hd hr), Option.isSome_of_eq_some hd⟩
    · exact .inr ⟨x, before, after.tail step, isLazy⟩

theorem exists_lazy_of_cycle (cycle : Relation.TransGen σ.Leads h h) :
    ∃ x, σ.Reaches h x ∧ σ.Reaches x h ∧ (σ.lazyId? x).isSome = true :=
  (earlier.lt_or_exists_lazy cycle).resolve_left (Nat.lt_irrefl _)

/-- The search for a brand ends within as many steps as there are handles up to the first, and finds
the brand where it is on a base. -/
theorem exists_hasBrand? (brand : Atom) (h : Handle) : ∃ found,
    (∀ levels, h.number < levels → σ.hasBrandWithin? brand levels h = some found) ∧
      σ.hasBrand? brand h = some found ∧ (σ.OnBases brand h ↔ found = true) := by
  have enough : (σ.hasBrandWithin? brand (h.number + 1) h).isSome = true :=
    earlier.isSome_hasBrandWithin? _ h (Nat.lt_succ_self _)
  obtain ⟨found, ends⟩ := Option.isSome_iff_exists.1 enough
  exact ⟨found, fun levels more => hasBrandWithin?_mono ends more,
    hasBrand?_eq_some_iff.2 ⟨_, ends⟩, onBases_iff_of_hasBrandWithin? ends⟩

end PartsEarlier

end Store

/-- **PARTS LEAD DOWN**, in every store that calls about what was there have led to, those that
resolvers make among them.  All handles in a node, its list or its shape are lower than that of the
node; what a call gives is there for later calls.  So a way that comes back passes a lazy node, walks
that resolve none end, and the search for a brand does, within as many steps as there are handles up
to the one it begins with. -/
theorem parts_lead_down (run : Runner ρ) (assign : String → Fin 64) (σ : Store ρ)
    (assembles : Store.Assembles run (.new assign) σ) :
    (∀ h n, σ.node? h = some n → σ.keeps n = true ∧ ∀ g ∈ σ.components n, g < h) ∧
    (∀ (c : Call ρ) h, (∀ g ∈ c.handles, σ.Has g) → c.handle? σ = some h →
      (c.carryOut σ).Has h) ∧
    (∀ h, Relation.TransGen σ.Leads h h →
      ∃ x, σ.Reaches h x ∧ σ.Reaches x h ∧ (σ.lazyId? x).isSome = true) ∧
    (WellFounded fun g h => g ∈ σ.parts h) ∧
    ∀ brand h, ∃ found,
      (∀ levels, h.number < levels → σ.hasBrandWithin? brand levels h = some found) ∧
        σ.hasBrand? brand h = some found ∧ (σ.OnBases brand h ↔ found = true) := by
  -- all five follow from one invariant of the constructors
  have layered : σ.IsLayered := (Store.isLayered_new assign).of_assembles assembles
  have earlier := layered.partsEarlier
  refine ⟨fun h n hn => ⟨layered.keeps h n hn, layered.below h n hn⟩, ?_, ?_, ?_, ?_⟩
  · exact fun c h has gives => layered.has_handle? has gives
  · exact fun h cycle => earlier.exists_lazy_of_cycle cycle
  · exact earlier.wellFounded
  · exact fun brand h => earlier.exists_hasBrand? brand h

/-- A lazy node stands for a brand on itself, which its resolver builds.  The two lead to each other,
and still the brand is found, and no other. -/
theorem parts_lead_down_brandOnItself :
    let run : Runner Handle := fun h => Store.branded h "again"
    let a := Store.declare (.new fun _ => 0 : Store Handle)
    let τ := (Store.define a.1 a.1 a.2).2
    let b := run a.1 τ
    let σ := (Store.force run ⟨1⟩ τ).2
    let brand := (Store.internText "again" τ).1
    Store.Assembles run (.new fun _ => 0) σ ∧ σ.Leads a.1 b.1 ∧ σ.Leads b.1 a.1 ∧ a.1 < b.1 ∧
      σ.hasBrand? brand b.1 = some true ∧
      ∀ other, other ≠ brand → σ.hasBrand? other b.1 = some false := by
  intro run a τ b σ brand
  have declared : a.2.lazyId? a.1 = some ⟨1⟩ := Store.lazyId?_declare _
  have defined : τ = (Store.attachResolver ⟨1⟩ a.1 a.2).2 := by
    show (Store.define a.1 a.1 a.2).2 = _
    rw [Store.define_of_lazyId? declared]
  have isLazy : τ.lazyId? a.1 = some ⟨1⟩ := by
    rw [defined]
    exact declared
  have pending : τ.definitions.get? ⟨1⟩ = some ⟨some a.1, none⟩ := by
    rw [defined]
    rfl
  -- the resolver is carried out, and the brand that it built goes on record
  have forced : σ = (Store.recordResolution ⟨1⟩ b.1 b.2).2 := by
    show (Store.force run ⟨1⟩ τ).2 = _
    rw [Store.force_of_pending pending]
  have later : τ.Grows σ := by
    rw [forced]
    exact (Store.grows_carryOut (.branded a.1 "again") τ).trans
      (Store.grows_recordResolution ⟨1⟩ b.1 b.2)
  have still : σ.lazyId? a.1 = some ⟨1⟩ :=
    (later.lazyId?_eq (Store.has_of_lazyId? isLazy)).trans isLazy
  have recorded : σ.definitions.resolution? ⟨1⟩ = some b.1 := by
    rw [forced]
    show (τ.definitions.settle ⟨1⟩ b.1).resolution? ⟨1⟩ = _
    rw [Definitions.resolution?_settle, pending]
    rfl
  have node : σ.node? b.1 = some (.branded a.1 brand) := by
    rw [forced]
    exact Store.node?_intern (n := .branded a.1 brand) nofun (Store.internText "again" τ).2
  have part : a.1 ∈ σ.parts b.1 := by
    rw [Store.parts_of_node node]
    exact List.mem_singleton_self _
  have assembles : Store.Assembles run (.new fun _ => 0) σ := by
    have before : Store.Assembles run (.new fun _ => 0) τ :=
      ((Store.Assembles.refl _).call .declare nofun).call (.define a.1 a.1) nofun
    refine before.force ⟨1⟩ fun resolver attached => ?_
    rw [pending] at attached
    cases attached
    refine (Store.Assembles.refl τ).call (.branded a.1 "again") fun h hh => ?_
    exact List.mem_singleton.1 hh ▸ Store.has_of_lazyId? isLazy
  obtain ⟨below, -, -, -, search⟩ := parts_lead_down run _ σ assembles
  refine ⟨assembles, .recorded still recorded, .part part, ?_, ?_, fun other apart => ?_⟩
  · exact (below b.1 _ node).2 a.1 (List.mem_singleton_self _)
  · obtain ⟨found, -, ends, carried⟩ := search brand b.1
    rw [ends, carried.1 (.here node)]
  · obtain ⟨found, -, ends, carried⟩ := search other b.1
    have lacking : ¬ σ.OnBases other b.1 := by
      intro on
      cases on with
      | here hn => exact apart (Node.branded.inj (Option.some.inj (hn.symm.trans node))).2
      | further hn under =>
        -- below the brand there is the lazy node, which has none
        obtain ⟨same, -⟩ := Node.branded.inj (Option.some.inj (hn.symm.trans node))
        obtain ⟨base, c, hn'⟩ := under.branded
        rw [same] at hn'
        cases still.symm.trans (Store.lazyId?_of_notLazy hn' rfl)
    rw [ends, Bool.eq_false_iff.2 fun yes => lacking (carried.2 yes)]

end Assignability
