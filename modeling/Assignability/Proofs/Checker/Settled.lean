/-
  Assignability.Proofs.Checker.Settled
  ────────────────────────────────────
  **HANDLES AT REST.**

  A resolver is carried out once.  Where every lazy node that a handle
  reaches has its resolution on record, or has no resolver, comparing
  builds nothing more (`resolve_of_settled`), and the checker sees one and
  the same store throughout (`AtRest.tame`).
-/
import Assignability.Proofs.Checker.Frame

namespace Assignability

namespace Store

variable {ρ : Type} {σ : Store ρ} {run : Runner ρ} {g h : Handle}

/-! ## §1. What a handle reaches -/

/-- A handle and one that it speaks of: a part, or what is on record for a lazy node. -/
inductive Leads (σ : Store ρ) : Handle → Handle → Prop
  | part {h g : Handle} (hg : g ∈ σ.parts h) : Leads σ h g
  | recorded {h g : Handle} {d : LazyId} (hd : σ.lazyId? h = some d)
    (hr : σ.definitions.resolution? d = some g) : Leads σ h g

/-- A handle and one that it leads to in any number of steps. -/
def Reaches (σ : Store ρ) : Handle → Handle → Prop := Relation.ReflTransGen σ.Leads

/-- A definition that has its resolution on record, or has no resolver. -/
def IsSettled (σ : Store ρ) (d : LazyId) : Prop :=
  (σ.definitions.resolution? d).isSome = true ∨ σ.definitions.isDefined d = false

/-- All lazy nodes that a handle reaches are settled. -/
def Settles (σ : Store ρ) (h : Handle) : Prop :=
  ∀ g d, σ.Reaches h g → σ.lazyId? g = some d → σ.IsSettled d

/-- All that a handle reaches stays as it is. -/
structure AtRest (σ : Store ρ) (h : Handle) : Prop where
  /-- Every lazy node has its resolution on record, or has no resolver. -/
  settled : ∀ g d, σ.Reaches h g → σ.lazyId? g = some d → σ.IsSettled d
  /-- Key types have no lazy nodes among their parts: they are built-in types, literals,
  enumerations, unions of these, and what else is built without a declaration. -/
  keys : ∀ g k, σ.Reaches h g → k ∈ σ.keyTypes g → σ.LazyFree k

/-- A handle that is not recursive, as far as lazy nodes were resolved: all that it leads to
ends. -/
def IsFinite (σ : Store ρ) (h : Handle) : Prop := ∃ n, EndsWithin σ.Leads n h

/-- No key type that a handle reaches is recursive. -/
def KeysFinite (σ : Store ρ) (h : Handle) : Prop :=
  ∀ g k, σ.Reaches h g → k ∈ σ.keyTypes g → σ.IsFinite k

/-- All that a handle reaches stays as it is, and no key type among it is recursive. -/
structure Quiescent (σ : Store ρ) (h : Handle) : Prop where
  settled : ∀ g d, σ.Reaches h g → σ.lazyId? g = some d → σ.IsSettled d
  keys : σ.KeysFinite h

/-- What is at rest leads to what is. -/
theorem AtRest.of_leads (hh : σ.AtRest h) (hg : σ.Leads h g) : σ.AtRest g where
  settled := fun x d hx => hh.settled x d (hx.head hg)
  keys := fun x k hx => hh.keys x k (hx.head hg)

/-- A property of all that handles lead to is one of all that they reach. -/
theorem Reaches.of_closed {P : Handle → Prop} (closed : ∀ h g, P h → σ.Leads h g → P g)
    (hg : σ.Reaches h g) (hh : P h) : P g := by
  induction hg with
  | refl => exact hh
  | tail _ hxy ih => exact closed _ _ ih hxy

/-- Handles that lead to one another alone are at rest where each of them is settled. -/
theorem AtRest.of_closed {P : Handle → Prop} (closed : ∀ h g, P h → σ.Leads h g → P g)
    (settled : ∀ h d, P h → σ.lazyId? h = some d → σ.IsSettled d)
    (keys : ∀ h k, P h → k ∈ σ.keyTypes h → σ.LazyFree k) (hh : P h) : σ.AtRest h where
  settled := fun g d hg => settled g d (hg.of_closed closed hh)
  keys := fun g k hg => keys g k (hg.of_closed closed hh)

/-- Whether handles lead to one another alone, are settled where they are lazy, and have key types
without lazy nodes. -/
def restsWithin (σ : Store ρ) (handles : List Handle) : Bool :=
  handles.all fun h =>
    (σ.parts h).all (handles.contains ·) && (σ.keyTypes h).all (σ.nests handles.length ·) &&
      match σ.lazyId? h with
      | none => true
      | some d =>
        match σ.definitions.resolution? d with
        | some g => handles.contains g
        | none => !σ.definitions.isDefined d

section

variable {handles : List Handle} (rests : σ.restsWithin handles = true)
include rests

/-- A list that rests within itself is closed. -/
theorem mem_of_leads (h g : Handle) (hh : h ∈ handles) (hg : σ.Leads h g) : g ∈ handles := by
  have each := List.all_eq_true.1 rests h hh
  rw [Bool.and_eq_true, Bool.and_eq_true, List.all_eq_true] at each
  obtain ⟨⟨parts, -⟩, settled⟩ := each
  cases hg with
  | part hg => exact List.contains_iff_mem.1 (parts g hg)
  | recorded hd hr =>
    rw [hd] at settled
    dsimp only at settled
    rw [hr] at settled
    exact List.contains_iff_mem.1 settled

/-- Its handles are at rest. -/
theorem AtRest.of_restsWithin (hh : h ∈ handles) : σ.AtRest h := by
  refine AtRest.of_closed (P := (· ∈ handles)) (mem_of_leads rests) ?_ ?_ hh
  · intro x d hx hd
    have settled := (Bool.and_eq_true_iff.1 (List.all_eq_true.1 rests x hx)).2
    rw [hd] at settled
    dsimp only at settled
    cases hr : σ.definitions.resolution? d with
    | some g => exact .inl (by rw [hr]; rfl)
    | none =>
      rw [hr, Bool.not_eq_true'] at settled
      exact .inr settled
  · intro x k hx hk
    have keys := (Bool.and_eq_true_iff.1 (List.all_eq_true.1 rests x hx)).1
    exact ⟨handles.length, List.all_eq_true.1 (Bool.and_eq_true_iff.1 keys).2 k hk⟩

end

/-- Without lazy nodes a descriptor has an end. -/
theorem LazyFree.isFinite (hh : σ.LazyFree h) : σ.IsFinite h := by
  obtain ⟨n, hn⟩ := hh
  refine ⟨n, ?_⟩
  induction n generalizing h with
  | zero => cases hn
  | succ n ih =>
    intro g hg
    obtain ⟨notLazy, parts⟩ := nests_succ.1 hn
    cases hg with
    | part hg => exact ih (parts g hg)
    | recorded hd _ => rw [notLazy] at hd; cases hd

/-- What is at rest has key types that end. -/
theorem AtRest.quiescent (hh : σ.AtRest h) : σ.Quiescent h :=
  ⟨hh.settled, fun g k hg hk => (hh.keys g k hg hk).isFinite⟩

/-- What has no lazy nodes is at rest. -/
theorem LazyFree.atRest (hh : σ.LazyFree h) : σ.AtRest h := by
  refine AtRest.of_closed (P := σ.LazyFree) ?_ ?_ ?_ hh
  · intro x g hx hg
    cases hg with
    | part hg => exact hx.part hg
    | recorded hd _ =>
      rw [hx.lazyId?] at hd
      cases hd
  · intro x d hx hd
    rw [hx.lazyId?] at hd
    cases hd
  · intro x k hx hk
    exact hx.part (mem_parts_of_mem_keyTypes hk)

/-! ## §2. Nothing is built -/

/-- A settled definition is not carried out again. -/
theorem force_of_settled {d : LazyId} (hd : σ.IsSettled d) :
    force run d σ = (σ.definitions.resolution? d, σ) := by
  unfold force
  rw [bind_apply]
  simp only [get_apply]
  unfold IsSettled Definitions.resolution? Definitions.isDefined at hd
  unfold Definitions.resolution?
  -- a resolver is carried out only where nothing is on record
  cases hg : σ.definitions.get? d with
  | none => rfl
  | some definition =>
    obtain ⟨resolver, resolution⟩ := definition
    rw [hg] at hd
    cases resolution with
    | some h => rfl
    | none =>
      cases resolver with
      | none => rfl
      | some resolver => rcases hd with hd | hd <;> cases hd

/-- A resolver that was not carried out yet. -/
theorem force_of_pending {resolver : ρ}
    (hd : σ.definitions.get? d = some ⟨some resolver, none⟩) :
    force run d σ
      = ((run resolver σ).2.definitions.settle d (run resolver σ).1 |>.resolution? d,
        (recordResolution d (run resolver σ).1 (run resolver σ).2).2) := by
  unfold force
  rw [bind_apply]
  simp only [get_apply, hd]
  rfl

/-- A chain of settled nodes is followed without building, to a handle that is reached. -/
theorem follow_of_settled (steps : Nat) : ∀ (visited : List LazyId) (d : LazyId) (h : Handle),
    σ.lazyId? h = some d →
    (∀ g d, σ.Reaches h g → σ.lazyId? g = some d → σ.IsSettled d) →
    ∃ r, follow run steps visited d σ = (r, σ) ∧
      ∀ g, r = some g → Relation.TransGen σ.Leads h g := by
  induction steps with
  | zero =>
    intro visited d h _ _
    exact ⟨none, rfl, fun g hg => by cases hg⟩
  | succ steps ih =>
    intro visited d h hd settled
    -- a definition that was passed before ends the chain
    by_cases seen : d ∈ visited
    · refine ⟨none, ?_, fun g hg => by cases hg⟩
      unfold follow
      rw [if_pos seen]
      rfl
    · unfold follow
      rw [if_neg seen, bind_apply, force_of_settled (settled h d .refl hd)]
      cases hr : σ.definitions.resolution? d with
      | none => exact ⟨none, rfl, fun g hg => by cases hg⟩
      | some g =>
        have onward : Relation.TransGen σ.Leads h g := .single (.recorded hd hr)
        dsimp only
        rw [bind_apply]
        simp only [get_apply]
        cases he : σ.lazyId? g with
        | none =>
          refine ⟨some g, rfl, ?_⟩
          rintro _ ⟨⟩
          exact onward
        | some e =>
          obtain ⟨r, hf, hreach⟩ := ih (d :: visited) e g he
            fun x y hx hy => settled x y (onward.to_reflTransGen.trans hx) hy
          exact ⟨r, hf, fun x hx => onward.trans (hreach x hx)⟩

/-- A lazy node stands for what its chain leads to, or is empty. -/
theorem resolve_of_lazyId? (run : Runner ρ) {d : LazyId} (hd : σ.lazyId? h = some d)
    (settled : ∀ g d, σ.Reaches h g → σ.lazyId? g = some d → σ.IsSettled d) :
    ∃ g, resolve run h σ = (g, σ) ∧ (Relation.TransGen σ.Leads h g ∨ g = .never) := by
  obtain ⟨r, hf, hreach⟩ := follow_of_settled longestChain [] d h hd settled
  have value : resolve run h σ = (r.getD .never, σ) := by
    rw [resolve_of_lazy run hd]
    unfold destination?
    rw [hf]
  refine ⟨_, value, ?_⟩
  cases r with
  | none => exact .inr rfl
  | some g => exact .inl (hreach g rfl)

/-- A chain is followed until it leaves the lazy nodes. -/
theorem lazyId?_of_follow (steps : Nat) : ∀ {σ τ : Store ρ} {visited : List LazyId} {d : LazyId},
    follow run steps visited d σ = (some g, τ) → τ.lazyId? g = none := by
  -- on the steps: each one ends at a type that is not lazy or goes on with one step less
  induction steps with
  | zero => exact fun h => nomatch h
  | succ steps ih =>
    intro σ τ visited d h
    unfold follow at h
    by_cases seen : d ∈ visited
    · rw [if_pos seen] at h
      cases h
    · rw [if_neg seen, bind_apply] at h
      generalize force run d σ = r at h
      obtain ⟨x, υ⟩ := r
      cases x with
      | none => cases h
      | some x =>
        dsimp only at h
        rw [bind_apply, get_apply] at h
        dsimp only at h
        cases hx : υ.lazyId? x with
        | some e =>
          rw [hx] at h
          exact ih h
        | none =>
          rw [hx] at h
          obtain ⟨same, rfl⟩ := Prod.mk.inj h
          obtain rfl := Option.some.inj same
          exact hx

/-- Where all that is reached is settled, resolving changes nothing. -/
theorem resolve_of_settled (run : Runner ρ)
    (settled : ∀ g d, σ.Reaches h g → σ.lazyId? g = some d → σ.IsSettled d) :
    ∃ g, resolve run h σ = (g, σ) ∧ (σ.Reaches h g ∨ g = .never) := by
  cases hd : σ.lazyId? h with
  | none => exact ⟨h, resolve_of_not_lazy run hd, .inl .refl⟩
  | some d =>
    obtain ⟨g, hg, hreach⟩ := resolve_of_lazyId? run hd settled
    exact ⟨g, hg, hreach.imp_left Relation.TransGen.to_reflTransGen⟩

/-- The empty type is no lazy node. -/
theorem lazyId?_never (σ : Store ρ) : σ.lazyId? .never = none := by
  unfold lazyId?
  rw [show σ.node? .never = some (.intrinsic .never) from σ.node?_handle .never]

/-- Nothing is resolved to a lazy node. -/
theorem lazyId?_of_resolve {τ : Store ρ} (hr : resolve run h σ = (g, τ)) : τ.lazyId? g = none := by
  cases hd : σ.lazyId? h with
  | none =>
    rw [resolve_of_not_lazy run hd] at hr
    obtain ⟨rfl, rfl⟩ := Prod.mk.inj hr
    exact hd
  | some d =>
    rw [resolve_of_lazy run hd] at hr
    obtain ⟨rfl, rfl⟩ := Prod.mk.inj hr
    cases hx : (destination? run d σ).1 with
    | none => exact lazyId?_never _
    | some x => exact lazyId?_of_follow longestChain (Prod.ext hx rfl)

/-! ## §3. The checker's view -/

/-- The empty type has no parts. -/
theorem parts_never (σ : Store ρ) : σ.parts .never = [] :=
  parts_of_node (σ.node?_handle .never)

/-- What is below a settled handle is reached from it, or is the empty type that an unresolvable
node stands for. -/
theorem Settles.reaches_of_below {flags : Flags} (hh : σ.Settles h)
    (hg : (View.of run σ flags).Below h g) : σ.Reaches h g ∨ g = .never := by
  -- along the way down; a lazy node that leads nowhere stands for the empty type
  induction hg with
  | refl => exact .inl .refl
  | @tail x y _ hxy ih =>
    rcases ih with ih | rfl
    · cases hxy with
      | component hy => exact .inl (ih.tail (.part hy))
      | stands hd =>
        obtain ⟨z, hz, hreach⟩ := resolve_of_settled run
          fun a b ha hb => hh a b (ih.trans ha) hb
        have same : (View.of run σ flags).stands x = z := congrArg Prod.fst hz
        rw [same]
        exact hreach.imp_left ih.trans
    · cases hxy with
      | component hy =>
        change y ∈ σ.parts .never at hy
        rw [parts_never] at hy
        cases hy
      | stands hd =>
        change σ.lazyId? .never = _ at hd
        rw [lazyId?_never] at hd
        cases hd

/-- Resolving what is settled changes nothing. -/
theorem Settles.resolve_of_below {flags : Flags} (hh : σ.Settles h)
    (hg : (View.of run σ flags).Below h g) :
    resolve run g σ = ((View.of run σ flags).stands g, σ) := by
  have fixed : (resolve run g σ).2 = σ := by
    rcases hh.reaches_of_below hg with hg | rfl
    · obtain ⟨x, hx, -⟩ := resolve_of_settled run fun a b ha hb => hh a b (hg.trans ha) hb
      rw [hx]
    · rw [resolve_of_not_lazy run (lazyId?_never σ)]
  exact Prod.ext rfl fixed

/-- In a store at rest there is nothing left to settle below the type. -/
theorem Quiescent.settles (hh : σ.Quiescent h) : σ.Settles h := hh.settled

/-- All that is met below a type at rest is reached from it, the empty type apart. -/
theorem Quiescent.reaches_of_below {flags : Flags} (hh : σ.Quiescent h)
    (hg : (View.of run σ flags).Below h g) : σ.Reaches h g ∨ g = .never :=
  hh.settles.reaches_of_below hg

/-- Where nothing that is reached has a key type, no question about keys comes up. -/
theorem AtRest.not_posesKeys {t : Handle} {flags : Flags} (hh : σ.AtRest h)
    (noKeys : ∀ g, σ.Reaches h g → σ.keyTypes g = []) (a b : Handle) :
    ¬ (View.of run σ flags).PosesKeys h t a b := by
  have noneBelow : ∀ k, ¬ (View.of run σ flags).KeyBelow h k := by
    rintro k ⟨g, hg, hk⟩
    change k ∈ σ.keyTypes g at hk
    rcases hh.quiescent.reaches_of_below hg with hg | rfl
    · rw [noKeys g hg] at hk
      cases hk
    · have hk := mem_parts_of_mem_keyTypes hk
      rw [parts_never] at hk
      cases hk
  rintro (⟨h, -⟩ | ⟨h, -⟩)
  · exact noneBelow a h
  · exact noneBelow b h

/-- What is not recursive in the store is not for the checker either. -/
theorem endsWithin_part {flags : Flags} {n : Nat} : ∀ {h : Handle}, EndsWithin σ.Leads n h →
    (∀ g d, σ.Reaches h g → σ.lazyId? g = some d → σ.IsSettled d) →
    EndsWithin (View.of run σ flags).Part (n + 1) h := by
  -- a lazy node may stand for the empty type, which counts for one more
  have never : EndsWithin (View.of run σ flags).Part 1 .never := by
    intro g hg
    cases hg with
    | component hg => change g ∈ σ.parts .never at hg; rw [parts_never] at hg; cases hg
    | stands hd => change σ.lazyId? .never = _ at hd; rw [lazyId?_never] at hd; cases hd
  induction n using Nat.strongRecOn with
  | _ n ih =>
    intro h hn settled g hg
    have onward : ∀ {x m}, EndsWithin σ.Leads m x → m < n → σ.Reaches h x →
        EndsWithin (View.of run σ flags).Part n x := fun hx hm reach =>
      (ih _ hm hx fun y d hy => settled y d (reach.trans hy)).mono hm
    cases hg with
    | component hg =>
      have step : σ.Leads h g := .part hg
      obtain ⟨m, hm, hg⟩ := hn.of_step step
      exact onward hg hm (.single step)
    | stands hd =>
      obtain ⟨z, hz, leads⟩ := resolve_of_lazyId? run hd settled
      have same : (View.of run σ flags).stands h = z := congrArg Prod.fst hz
      rw [same]
      rcases leads with leads | rfl
      · obtain ⟨m, hm, hz⟩ := hn.of_transGen leads
        exact onward hz hm leads.to_reflTransGen
      · refine never.mono ?_
        cases n with
        | zero => cases hn
        | succ n => exact Nat.succ_le_succ (Nat.zero_le n)

/-- **AT REST, COMPARING BUILDS NOTHING.** -/
theorem Quiescent.tame {flags : Flags} (hh : σ.Quiescent h) :
    (View.of run σ flags).Tame run h where
  settled := fun _ hg => hh.settles.resolve_of_below hg
  keys := by
    intro g hg k hk
    rcases hh.reaches_of_below hg with hg | rfl
    · obtain ⟨n, hn⟩ := hh.keys g k hg hk
      have reach : σ.Reaches h k := hg.tail (.part (mem_parts_of_mem_keyTypes hk))
      exact ⟨n + 1, endsWithin_part hn fun x d hx => hh.settled x d (reach.trans hx)⟩
    · have := mem_parts_of_mem_keyTypes hk
      change k ∈ σ.parts .never at this
      rw [parts_never] at this
      cases this

/-- What is at rest is tame. -/
theorem AtRest.tame {flags : Flags} (hh : σ.AtRest h) : (View.of run σ flags).Tame run h :=
  hh.quiescent.tame

end Store

end Assignability
