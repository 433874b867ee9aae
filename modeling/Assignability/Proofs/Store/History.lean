/-
  Assignability.Proofs.Store.History
  ──────────────────────────────────
  **A STORE AND ITS LATER STATES.**

  Comparing may carry out resolvers, and these may build.  A later store
  extends an earlier one: all entries are there, what was resolved stays
  resolved, and what had no resolver has none (`Store.Extends`).  A store
  is orderly when every resolver in it extends it, now and later on
  (`Store.Orderly`).

  Two things are thereby left out that a store permits.  A resolver of an
  orderly store does not define a lazy node that was declared before, for
  that node was empty until then.  And all that such a store speaks of is
  in it, for a handle that is not there yet is of no type, and of one when
  something was built in its place.  Both change what a node stands for
  after it was compared; §6 has resolvers that do so.

  Main statement: what a lazy node was resolved to, it is resolved to in
  every later store, without building anything there (`repeats_resolve`).
-/
import Assignability.Proofs.Checker.Settled
import Assignability.Proofs.Store.Growth
import Assignability.Proofs.Store.Listing

namespace Assignability.Store

variable {ρ α : Type} {run : Runner ρ} {σ τ υ : Store ρ} {h g : Handle} {n : Node} {d : LazyId}

/-! ## §1. Later stores -/

/-- A store and a later one: nothing is lost, and what cannot be resolved still cannot: a lazy node
that was declared without a resolver was not given one in between. -/
structure Extends (σ τ : Store ρ) : Prop extends Grows σ τ where
  undefined : ∀ d, σ.definitions.get? d = some ⟨none, none⟩ →
    τ.definitions.get? d = some ⟨none, none⟩

theorem Extends.refl (σ : Store ρ) : σ.Extends σ := ⟨.refl σ, fun _ => id⟩

theorem Extends.trans (h : σ.Extends τ) (h' : τ.Extends υ) : σ.Extends υ :=
  ⟨h.toGrows.trans h'.toGrows, fun d hd => h'.undefined d (h.undefined d hd)⟩

/-- A settled definition stays as it is. -/
theorem Extends.settled (later : σ.Extends τ) (declared : σ.definitions.contains d = true)
    (hd : σ.IsSettled d) :
    τ.IsSettled d ∧ τ.definitions.resolution? d = σ.definitions.resolution? d := by
  unfold IsSettled Definitions.isDefined at hd ⊢
  unfold Definitions.contains at declared
  cases hr : σ.definitions.resolution? d with
  | some h =>
    have same := later.resolutions d h hr
    exact ⟨.inl (by rw [same]; rfl), same⟩
  | none =>
    obtain ⟨⟨resolver, resolution⟩, hg⟩ := Option.isSome_iff_exists.1 declared
    unfold Definitions.resolution? at hr
    rw [hg] at hr hd
    obtain rfl : resolution = none := hr
    cases resolver with
    | some resolver =>
      -- a resolver that is still to be carried out is not settled
      unfold Definitions.resolution? at hd
      rw [hg] at hd
      rcases hd with hd | hd <;> cases hd
    | none =>
      have still := later.undefined d hg
      unfold Definitions.resolution?
      rw [still]
      exact ⟨.inr rfl, rfl⟩

/-! ## §2. Whole stores -/

/-- All that the entries of a store speak of is in the store. -/
structure IsWhole (σ : Store ρ) : Prop where
  keeps : ∀ h n, σ.node? h = some n → σ.keeps n = true
  parts : ∀ h g, g ∈ σ.parts h → σ.Has g
  names : ∀ h o, σ.node? h = some (.object o) → ∀ f ∈ (σ.object o).fields, σ.Spells f.name
  lazies : ∀ h d, σ.node? h = some (.lazy d) → σ.definitions.contains d = true
  resolutions : ∀ d h, σ.definitions.resolution? d = some h → σ.Has h

theorem IsWhole.has_component (whole : σ.IsWhole) (hn : σ.node? h = some n)
    (hg : g ∈ σ.components n) : σ.Has g :=
  whole.parts h g (by rw [parts_of_node hn]; exact hg)

theorem IsWhole.contains (whole : σ.IsWhole) (hd : σ.lazyId? h = some d) :
    σ.definitions.contains d = true := by
  unfold lazyId? at hd
  split at hd
  · next e hn =>
    obtain rfl := Option.some.inj hd
    exact whole.lazies _ _ hn
  · cases hd

/-! ## §3. Orderly stores -/

/-- The store is whole, and so it stays when resolvers are carried out: each extends it, and gives a
handle of it.  It does not define what was declared before (`Extends.undefined`). -/
def Orderly (run : Runner ρ) (σ : Store ρ) : Prop :=
  ∃ I : Store ρ → Prop, I σ ∧ ∀ σ, I σ → σ.IsWhole ∧
    ∀ d resolver, σ.definitions.get? d = some ⟨some resolver, none⟩ →
      σ.Extends (run resolver σ).2 ∧ (run resolver σ).2.Has (run resolver σ).1 ∧
        I (recordResolution d (run resolver σ).1 (run resolver σ).2).2

theorem Orderly.whole (ho : Orderly run σ) : σ.IsWhole := by
  obtain ⟨I, hI, inv⟩ := ho
  exact (inv σ hI).1

theorem Orderly.carryOut (ho : Orderly run σ) {resolver : ρ}
    (hd : σ.definitions.get? d = some ⟨some resolver, none⟩) :
    σ.Extends (run resolver σ).2 ∧ (run resolver σ).2.Has (run resolver σ).1 ∧
      Orderly run (recordResolution d (run resolver σ).1 (run resolver σ).2).2 := by
  obtain ⟨I, hI, inv⟩ := ho
  obtain ⟨later, has, hI'⟩ := (inv σ hI).2 d resolver hd
  exact ⟨later, has, I, hI', inv⟩

theorem extends_recordResolution (later : σ.Extends τ) (h : Handle)
    (defined : σ.definitions.get? d ≠ some ⟨none, none⟩) :
    σ.Extends (recordResolution d h τ).2 where
  toGrows := later.toGrows.trans (grows_recordResolution d h τ)
  undefined := by
    intro e he
    show (τ.definitions.settle d h).get? e = _
    unfold Definitions.settle
    rw [Definitions.get?_update]
    split
    · next same => subst same; exact absurd he defined
    · exact later.undefined e he

/-! ## §4. Steps that can be repeated -/

/-- A step that leads to an orderly later store and gives what is good there, and that comes to the
same in all stores after that, without changing them. -/
structure Repeats (run : Runner ρ) (good : Store ρ → α → Prop) (step : Build ρ α)
    (σ : Store ρ) : Prop where
  later : σ.Extends (step σ).2
  orderly : Orderly run (step σ).2
  gives : good (step σ).2 (step σ).1
  again : ∀ υ, (step σ).2.Extends υ → step υ = ((step σ).1, υ)

theorem repeats_pure {good : Store ρ → α → Prop} {a : α} (ha : good σ a) (ho : Orderly run σ) :
    Repeats run good (pure a) σ :=
  ⟨.refl σ, ho, ha, fun _ _ => rfl⟩

theorem Repeats.bind {good : Store ρ → α → Prop} {β : Type} {good' : Store ρ → β → Prop}
    {x : Build ρ α} {f : α → Build ρ β} (hx : Repeats run good x σ)
    (hf : Repeats run good' (f (x σ).1) (x σ).2) : Repeats run good' (x >>= f) σ where
  later := hx.later.trans hf.later
  orderly := hf.orderly
  gives := hf.gives
  again := by
    intro υ hυ
    rw [bind_apply, hx.again υ (hf.later.trans hυ)]
    exact hf.again υ hυ

/-- What goes the same way in all later stores can be repeated where one can. -/
theorem Repeats.congr {good : Store ρ → α → Prop} {x y : Build ρ α} (hy : Repeats run good y σ)
    (same : ∀ υ, σ.Extends υ → x υ = y υ) : Repeats run good x σ := by
  have here := same σ (.refl σ)
  constructor
  · rw [here]; exact hy.later
  · rw [here]; exact hy.orderly
  · rw [here]; exact hy.gives
  · intro υ hυ
    rw [here] at hυ ⊢
    rw [same υ (hy.later.trans hυ)]
    exact hy.again υ hυ

/-- A definition that is not settled has a resolver to be carried out. -/
theorem exists_pending (unsettled : ¬ σ.IsSettled d) :
    ∃ resolver, σ.definitions.get? d = some ⟨some resolver, none⟩ := by
  unfold IsSettled Definitions.resolution? Definitions.isDefined at unsettled
  cases hg : σ.definitions.get? d with
  | none =>
    rw [hg] at unsettled
    exact absurd (.inr rfl) unsettled
  | some definition =>
    obtain ⟨resolver, resolution⟩ := definition
    rw [hg] at unsettled
    cases resolution with
    | some h => exact absurd (.inl rfl) unsettled
    | none =>
      cases resolver with
      | none => exact absurd (.inr rfl) unsettled
      | some resolver => exact ⟨resolver, rfl⟩

/-- What a definition leads to, if it does, is in the store. -/
def HasSome (σ : Store ρ) (x : Option Handle) : Prop := ∀ h, x = some h → σ.Has h

theorem repeats_force (ho : Orderly run σ) (declared : σ.definitions.contains d = true) :
    Repeats run HasSome (force run d) σ := by
  by_cases settled : σ.IsSettled d
  · -- nothing is carried out
    have forced : force run d σ = _ := force_of_settled settled
    constructor
    · rw [forced]; exact .refl σ
    · rw [forced]; exact ho
    · rw [forced]; exact fun h hh => ho.whole.resolutions d h hh
    · intro υ hυ
      rw [forced] at hυ ⊢
      obtain ⟨settled', same⟩ := hυ.settled declared settled
      rw [force_of_settled settled', same]
  · obtain ⟨resolver, hd⟩ := exists_pending settled
    obtain ⟨later, has, ho'⟩ := ho.carryOut hd
    -- the first resolution that went on record is the answer, here and later
    obtain ⟨definition, hr⟩ := Option.isSome_iff_exists.1 (later.declared d declared)
    have recorded : ((run resolver σ).2.definitions.settle d (run resolver σ).1).resolution? d
        = some (definition.resolution.getD (run resolver σ).1) := by
      rw [Definitions.resolution?_settle, hr]
      rfl
    have forced : force run d σ = _ := force_of_pending hd
    rw [recorded] at forced
    constructor
    · rw [forced]
      exact extends_recordResolution later _ (by rw [hd]; intro h; cases h)
    · rw [forced]; exact ho'
    · rw [forced]
      intro h hh
      obtain rfl := Option.some.inj hh
      exact ho'.whole.resolutions d _ recorded
    · intro υ hυ
      rw [forced] at hυ ⊢
      have same := hυ.resolutions d _ recorded
      rw [force_of_settled (.inl (by rw [same]; rfl)), same]

/-- A chain that was followed leads to the same end later on. -/
theorem repeats_follow (steps : Nat) : ∀ {σ : Store ρ} (visited : List LazyId) (d : LazyId),
    Orderly run σ → σ.definitions.contains d = true →
    Repeats run HasSome (follow run steps visited d) σ := by
  have nowhere : ∀ {σ : Store ρ}, Orderly run σ → Repeats run HasSome (pure none) σ :=
    fun ho => repeats_pure (fun h hh => by cases hh) ho
  induction steps with
  | zero => exact fun _ _ ho _ => nowhere ho
  | succ steps ih =>
    intro σ visited d ho declared
    unfold follow
    by_cases seen : d ∈ visited
    · rw [if_pos seen]
      exact nowhere ho
    · rw [if_neg seen]
      have forced := repeats_force ho declared
      refine forced.bind ?_
      have has := forced.gives
      have ho' := forced.orderly
      generalize force run d σ = r at has ho'
      obtain ⟨x, τ⟩ := r
      cases x with
      | none => exact nowhere ho'
      | some h =>
        -- whether the chain goes on is the same in all later stores
        have has : τ.Has h := has h rfl
        cases he : τ.lazyId? h with
        | none =>
          refine (repeats_pure (a := some h) ?_ ho').congr fun υ hυ => ?_
          · intro g hg
            obtain rfl := Option.some.inj hg
            exact has
          · dsimp only
            rw [bind_apply, get_apply]
            dsimp only
            rw [hυ.lazyId?_eq has, he]
        | some e =>
          refine (ih (d :: visited) e ho' (ho'.whole.contains he)).congr fun υ hυ => ?_
          dsimp only
          rw [bind_apply, get_apply]
          dsimp only
          rw [hυ.lazyId?_eq has, he]

/-- **A LAZY NODE STANDS FOR THE SAME EVER AFTER.** -/
theorem repeats_resolve (ho : Orderly run σ) (hh : σ.Has h) :
    Repeats run Has (resolve run h) σ := by
  cases hd : σ.lazyId? h with
  | none =>
    refine (repeats_pure (a := h) hh ho).congr fun υ hυ => ?_
    rw [resolve_of_not_lazy run (by rw [hυ.lazyId?_eq hh, hd])]
    rfl
  | some d =>
    have led := repeats_follow longestChain [] d ho (ho.whole.contains hd)
    have end_ : Repeats run Has (destination? run d >>= fun x => pure (x.getD .never)) σ := by
      refine led.bind (repeats_pure ?_ led.orderly)
      have has := led.gives
      generalize (follow run longestChain [] d σ).1 = x at has
      cases x with
      | none => exact has_handle _ .never
      | some g => exact has g rfl
    -- the node is as lazy in later stores as it is now
    refine end_.congr fun υ hυ => ?_
    rw [resolve_of_lazy run (by rw [hυ.lazyId?_eq hh, hd])]
    rfl

/-! ## §5. Resolvers that build nothing -/

theorem IsWhole.recordResolution (whole : σ.IsWhole) (hh : σ.Has h) :
    (recordResolution d h σ).2.IsWhole where
  keeps := whole.keeps
  parts := whole.parts
  names := whole.names
  lazies := fun g e hg => Definitions.contains_settle.trans (whole.lazies g e hg)
  resolutions := by
    intro e g hg
    rcases Definitions.resolution?_of_settle hg with hg | rfl
    · exact whole.resolutions e g hg
    · exact hh

/-- Resolvers that name a handle of the store are orderly. -/
theorem orderly_pure {σ : Store Handle} (whole : σ.IsWhole)
    (named : ∀ d r, σ.definitions.get? d = some ⟨some r, none⟩ → σ.Has r) : Orderly pure σ := by
  refine ⟨fun σ => σ.IsWhole ∧ ∀ d r, σ.definitions.get? d = some ⟨some r, none⟩ → σ.Has r,
    ⟨whole, named⟩, fun σ ⟨whole, named⟩ => ⟨whole, fun d r hd => ?_⟩⟩
  have has := named d r hd
  refine ⟨.refl σ, has, whole.recordResolution has, fun e x he => ?_⟩
  -- what was recorded is pending no more
  change (σ.definitions.update d _).get? e = _ at he
  rw [Definitions.get?_update] at he
  split at he
  · next same =>
    subst same
    rw [hd] at he
    cases he
  · exact named e x he

/-- Whether all that a node speaks of is in the store. -/
def completes (σ : Store ρ) (n : Node) : Bool :=
  σ.keeps n && (σ.components n).all (fun g => (σ.node? g).isSome) &&
    match n with
    | .object o => (σ.object o).fields.all fun f => (σ.strings.resolve? f.name).isSome
    | .lazy d => σ.definitions.contains d
    | _ => true

theorem isWhole_of_completes (nodes : ∀ h n, σ.node? h = some n → σ.completes n = true)
    (resolutions : ∀ d h, σ.definitions.resolution? d = some h → σ.Has h) : σ.IsWhole where
  keeps := by
    intro h n hn
    exact (Bool.and_eq_true_iff.1 (Bool.and_eq_true_iff.1 (nodes h n hn)).1).1
  parts := by
    intro h g hg
    unfold Store.parts at hg
    cases hn : σ.node? h with
    | none => rw [hn] at hg; cases hg
    | some n =>
      rw [hn] at hg
      have parts := (Bool.and_eq_true_iff.1 (Bool.and_eq_true_iff.1 (nodes h n hn)).1).2
      exact Option.isSome_iff_exists.1 (List.all_eq_true.1 parts g hg)
  names := by
    intro h o hn
    exact List.all_eq_true.1 (Bool.and_eq_true_iff.1 (nodes h _ hn)).2
  lazies := fun h d hn => (Bool.and_eq_true_iff.1 (nodes h _ hn)).2
  resolutions := resolutions

end Assignability.Store

namespace Assignability

/-- Whether all that a listing speaks of is in its store, resolvers and resolutions included. -/
def Listing.isComplete (l : Listing Handle) : Bool :=
  l.nodes.all l.store.completes && l.definitions.all fun definition =>
    (definition.resolver.toList ++ definition.resolution.toList).all fun h =>
      (l.store.node? h).isSome

namespace Listing

/-- The definitions of the store are those of the listing. -/
theorem mem_definitions {ρ : Type} {l : Listing ρ} {d : LazyId} {definition : Definition ρ}
    (hd : l.store.definitions.get? d = some definition) : definition ∈ l.definitions := by
  unfold Definitions.get? at hd
  obtain ⟨i, -, hi⟩ := Option.bind_eq_some_iff.1 hd
  change l.definitions.toArray[i]? = _ at hi
  rw [List.getElem?_toArray] at hi
  exact List.mem_of_getElem? hi

/-- A listing is whole whose nodes are complete, and in which all resolutions on record are there. -/
theorem isWhole {ρ : Type} (l : Listing ρ) (nodes : l.nodes.all l.store.completes = true)
    (resolutions : (l.definitions.all fun definition =>
      definition.resolution.toList.all fun h => (l.store.node? h).isSome) = true) :
    l.store.IsWhole := by
  refine Store.isWhole_of_completes (fun h n hn => ?_) fun d h hd => ?_
  · unfold Store.node? at hn
    have entry : l.store.nodes.get? h.number = _ := Table.get?_ofList l.distinct.1 h.number
    rw [entry] at hn
    rcases List.mem_append.1 (List.mem_of_getElem? hn) with hn | hn
    · obtain ⟨k, -, rfl⟩ := List.mem_map.1 hn
      rfl
    · exact List.all_eq_true.1 nodes n hn
  · obtain ⟨definition, hd, hr⟩ := Option.bind_eq_some_iff.1 hd
    have each := List.all_eq_true.1 resolutions definition (mem_definitions hd)
    exact Option.isSome_iff_exists.1 (List.all_eq_true.1 each h (by rw [hr]; simp))

/-- A complete listing is an orderly store, where its resolvers name handles. -/
theorem orderly (l : Listing Handle) (complete : l.isComplete = true) :
    Store.Orderly pure l.store := by
  obtain ⟨nodes, definitions⟩ := Bool.and_eq_true_iff.1 complete
  have defined : ∀ definition ∈ l.definitions,
      ∀ h ∈ definition.resolver.toList ++ definition.resolution.toList,
        (l.store.node? h).isSome = true := fun definition hd =>
    List.all_eq_true.1 (List.all_eq_true.1 definitions definition hd)
  have whole : l.store.IsWhole := by
    refine l.isWhole nodes (List.all_eq_true.2 fun definition hd => List.all_eq_true.2 fun h hh => ?_)
    exact defined definition hd h (List.mem_append_right _ hh)
  refine Store.orderly_pure whole fun d r hd => ?_
  exact Option.isSome_iff_exists.1 (defined _ (mem_definitions hd) r (by simp))

end Listing

/-! ## §6. Resolvers that are not orderly -/

/-- A resolver that names a handle, and may define another lazy node before it does. -/
structure Defining where
  gives : Handle
  defines : Option (Handle × Handle) := none

/-- Carries out such a resolver.  A node that was declared, and was empty as long as it had no
resolver, is not empty afterwards; so the store is not orderly. -/
def Defining.run : Runner Defining := fun resolver => do
  match resolver.defines with
  | some (l, h) => let _ ← Store.define l { gives := h }
  | none => pure ()
  pure resolver.gives

/-- Carries out a resolver by building what is listed, of which it names a handle.  Where that was
spoken of before it was there, the store is not orderly either. -/
def Listing.builds {ρ : Type} (l : Listing ρ) (h : Handle) : Runner ρ := fun _ σ =>
  (h, { l.store with definitions := σ.definitions })

end Assignability
