/-
  Assignability.Proofs.Store.Resolvers
  ────────────────────────────────────
  **WHAT RESOLVERS ARE ATTACHED, AND WHAT THEY GIVE.**

  A resolver is attached to a definition once and stays there, whatever
  constructors are called and whatever resolvers are carried out
  (`Comes.resolver?`).  What goes on record for the definition came of it.

  A resolver may name handles that were given out before it was attached.
  It makes sense in the stores that come after, not in any store: the
  stores that come about with such resolvers are those of `Develops`.

  Main statements:
    • `recorded_of_comes` — only what its resolver gave goes on record for
      a definition,
    • `AllPermitted.of_develops` — every resolver was permitted when it was
      attached, in a store that the present one has grown from.
-/
import Assignability.Proofs.Store.Grouping

namespace Assignability

variable {ρ : Type} {run : Runner ρ}

/-! ## §1. The resolver of a definition -/

namespace Definitions

variable {ds : Definitions ρ} {d e : LazyId} {resolver : ρ} {h : Handle}

/-- The resolver that was attached to a definition. -/
def resolver? (ds : Definitions ρ) (d : LazyId) : Option ρ := (ds.get? d).bind (·.resolver)

/-- A definition that is declared has no resolver yet. -/
theorem resolver?_declare : ds.declare.2.resolver? d = ds.resolver? d := by
  unfold resolver? get?
  cases place? d with
  | none => rfl
  | some i =>
    show ((ds.entries.push {})[i]?).bind _ = _
    rw [Array.getElem?_push]
    split
    · next last => rw [last]; simp
    · rfl

theorem resolver?_settle : (ds.settle e h).resolver? d = ds.resolver? d := by
  unfold resolver? settle
  rw [get?_update]
  split
  · cases ds.get? d <;> rfl
  · rfl

/-- A definition gets a resolver if it is declared and has none. -/
theorem define_eq_true_iff :
    (ds.define d resolver).1 = true ↔ ds.contains d = true ∧ ds.resolver? d = none := by
  have undefined : ds.isDefined d = false ↔ ds.resolver? d = none :=
    Option.isSome_eq_false_iff.trans Option.isNone_iff_eq_none
  unfold define
  rw [← undefined]
  split
  · next free => simpa using free
  · next taken => simpa using taken

/-- A resolver is not replaced. -/
theorem resolver?_define (other : ρ) (hd : ds.resolver? d = some resolver) :
    (ds.define e other).2.resolver? d = some resolver := by
  by_cases same : e = d
  · subst same
    have defined : ds.isDefined e = true := by
      show (ds.resolver? e).isSome = true
      rw [hd]
      rfl
    rw [define_of_isDefined other defined]
    exact hd
  · unfold define
    split
    · show ((ds.update e _).get? d).bind _ = _
      rw [get?_update, if_neg same]
      exact hd
    · exact hd

/-- A resolver that is attached afterwards was attached before, or just now. -/
theorem resolver?_of_attached {other : ρ} (hd : (ds.define e other).2.resolver? d = some resolver) :
    ds.resolver? d = some resolver ∨ resolver = other := by
  unfold define at hd
  split at hd
  · change ((ds.update e _).get? d).bind _ = _ at hd
    rw [get?_update] at hd
    split at hd
    · obtain ⟨definition, changed, attached⟩ := Option.bind_eq_some_iff.1 hd
      obtain ⟨before, -, rfl⟩ := Option.map_eq_some_iff.1 changed
      exact .inr (Option.some.inj attached).symm
    · exact .inl hd
  · exact .inl hd

/-- The resolver that a definition got is its resolver. -/
theorem resolver?_of_define (success : (ds.define d resolver).1 = true) :
    (ds.define d resolver).2.resolver? d = some resolver := by
  obtain ⟨declared, none_⟩ := define_eq_true_iff.1 success
  obtain ⟨definition, hg⟩ := Option.isSome_iff_exists.1 declared
  unfold define at success ⊢
  split
  · show ((ds.update d _).get? d).bind _ = _
    rw [get?_update, if_pos rfl, hg]
    rfl
  · next refused =>
    rw [if_neg refused] at success
    cases success

theorem resolution?_settle_of_ne (other : e ≠ d) :
    (ds.settle e h).resolution? d = ds.resolution? d := by
  unfold resolution? settle
  rw [get?_update, if_neg other]

end Definitions

namespace Store

variable {σ τ υ : Store ρ} {d e : LazyId} {h g t : Handle} {resolver : ρ}

/-- A node that is declared is lazy, with the next definition. -/
theorem lazyId?_declare (σ : Store ρ) :
    (declare σ).2.lazyId? (declare σ).1 = some ⟨σ.definitions.size + 1⟩ :=
  lazyId?_of_node (node?_intern (n := .lazy _) nofun (addDefinition σ).2)

/-- A lazy node's definition gets the resolver. -/
theorem define_of_lazyId? (isLazy : σ.lazyId? h = some d) (resolver : ρ) :
    define h resolver σ = attachResolver d resolver σ := by
  unfold define
  rw [bind_apply, get_apply]
  dsimp only
  rw [isLazy]

theorem keptBySteps_resolver? (d : LazyId) (resolver : ρ) :
    KeptBySteps fun σ : Store ρ => σ.definitions.resolver? d = some resolver where
  node := fun _ _ kept => kept
  list := fun _ _ kept => kept
  tuple := fun _ _ kept => kept
  object := fun _ _ _ kept => kept
  function := fun _ _ kept => kept
  text := fun _ _ kept => kept
  declare := fun _ kept => Definitions.resolver?_declare.trans kept

/-- A call replaces no resolver. -/
theorem resolver?_carryOut (c : Call ρ) (attached : σ.definitions.resolver? d = some resolver) :
    (c.carryOut σ).definitions.resolver? d = some resolver :=
  (keptBySteps_resolver? d resolver).carryOut c
    (fun _ other _ => Definitions.resolver?_define other attached) attached

/-- A call attaches no other resolvers than its own. -/
theorem resolver?_of_carryOut {c : Call ρ}
    (attached : (c.carryOut σ).definitions.resolver? d = some resolver) :
    σ.definitions.resolver? d = some resolver ∨ resolver ∈ c.resolvers := by
  have kept : KeptBySteps fun τ : Store ρ => τ.definitions.resolver? d = some resolver →
      σ.definitions.resolver? d = some resolver ∨ resolver ∈ c.resolvers := {
    node := fun _ _ known => known
    list := fun _ _ known => known
    tuple := fun _ _ known => known
    object := fun _ _ _ known => known
    function := fun _ _ known => known
    text := fun _ _ known => known
    declare := fun _ known attached => known (Definitions.resolver?_declare.symm.trans attached) }
  refine kept.carryOut c (fun e other hr attached => ?_) .inl attached
  rcases Definitions.resolver?_of_attached attached with before | rfl
  · exact .inl before
  · exact .inr hr

/-- **A RESOLVER STAYS ATTACHED**, whatever is called and carried out. -/
theorem Comes.resolver? (comes : Comes run σ τ)
    (attached : σ.definitions.resolver? d = some resolver) :
    τ.definitions.resolver? d = some resolver := by
  induction comes with
  | refl => exact attached
  | call c _ _ _ ih => exact resolver?_carryOut c (ih attached)
  | resolve _ _ _ _ ihBefore ihInner =>
    exact Definitions.resolver?_settle.trans (ihInner (ihBefore attached))

/-- No call puts a resolution on record. -/
theorem resolution?_carryOut (c : Call ρ) (σ : Store ρ) (d : LazyId) :
    (c.carryOut σ).definitions.resolution? d = σ.definitions.resolution? d := by
  have kept : KeptBySteps fun τ : Store ρ =>
      τ.definitions.resolution? d = σ.definitions.resolution? d := {
    node := fun _ _ same => same
    list := fun _ _ same => same
    tuple := fun _ _ same => same
    object := fun _ _ _ same => same
    function := fun _ _ same => same
    text := fun _ _ same => same
    declare := fun _ same => Definitions.resolution?_declare.trans same }
  exact kept.carryOut c (fun _ other _ => Definitions.resolution?_define other) rfl

/-! ## §2. What is on record -/

/-- What is on record for a definition is what the resolver gave, carried out in a store between
`σ` and `τ` where nothing was on record yet. -/
def RecordedFrom (run : Runner ρ) (σ : Store ρ) (d : LazyId) (resolver : ρ) (τ : Store ρ) : Prop :=
  ∀ h, τ.definitions.resolution? d = some h → ∃ υ, Comes run σ υ ∧ υ.Grows τ ∧
    υ.definitions.get? d = some ⟨some resolver, none⟩ ∧ (run resolver υ).1 = h

theorem RecordedFrom.later (recorded : RecordedFrom run σ d resolver τ) (grows : τ.Grows υ)
    (same : υ.definitions.resolution? d = τ.definitions.resolution? d) :
    RecordedFrom run σ d resolver υ := by
  intro h hd
  rw [same] at hd
  obtain ⟨before, comes, earlier, pending, gave⟩ := recorded h hd
  exact ⟨before, comes, earlier.trans grows, pending, gave⟩

theorem resolver?_of_pending (pending : σ.definitions.get? d = some ⟨some resolver, none⟩) :
    σ.definitions.resolver? d = some resolver := by
  unfold Definitions.resolver?
  rw [pending]
  rfl

/-- **ONLY WHAT THE RESOLVER OF A DEFINITION GAVE GOES ON RECORD FOR IT.** -/
theorem recorded_of_comes {υ : Store ρ} (comes : Comes run τ υ) (before : Comes run σ τ)
    (attached : τ.definitions.resolver? d = some resolver)
    (recorded : RecordedFrom run σ d resolver τ) : RecordedFrom run σ d resolver υ := by
  -- on how the later store came about; calls put nothing on record
  induction comes with
  | refl => exact recorded
  | call c _ _ _ ih =>
    exact (ih before attached recorded).later (grows_carryOut c _) (resolution?_carryOut c _ d)
  | @resolve τ υ e other comes pending inner has ihBefore ihInner =>
    have here := before.trans comes
    have attached' := comes.resolver? attached
    have inside : RecordedFrom run σ d resolver (run other υ).2 :=
      ihInner here attached' (ihBefore before attached recorded)
    have grows := grows_recordResolution e (run other υ).1 (run other υ).2
    by_cases same : e = d
    · -- the definition's own resolver, unless it was answered while that was carried out
      subst same
      intro h hd
      rcases Definitions.resolution?_of_settle hd with hd | rfl
      · obtain ⟨at_, comes', earlier, rest⟩ := inside h hd
        exact ⟨at_, comes', earlier.trans grows, rest⟩
      · have own : other = resolver :=
          Option.some.inj ((resolver?_of_pending pending).symm.trans attached')
        subst own
        exact ⟨υ, here, inner.grows.trans grows, pending, rfl⟩
    · exact inside.later grows (Definitions.resolution?_settle_of_ne same)

/-- A definition with a resolution on record has a resolver. -/
def RecordsAreDefined (σ : Store ρ) : Prop :=
  ∀ d h, σ.definitions.resolution? d = some h →
    ∃ resolver, σ.definitions.resolver? d = some resolver

theorem RecordsAreDefined.of_comes (defined : σ.RecordsAreDefined) (comes : Comes run σ τ) :
    τ.RecordsAreDefined := by
  induction comes with
  | refl => exact defined
  | @call σ τ c _ _ _ ih =>
    intro d h hd
    rw [resolution?_carryOut] at hd
    obtain ⟨resolver, attached⟩ := ih defined d h hd
    exact ⟨resolver, resolver?_carryOut c attached⟩
  | @resolve σ τ e other _ pending inner _ ihBefore ihInner =>
    intro d h hd
    -- the definition that is settled has the resolver that was carried out
    by_cases same : e = d
    · subst same
      have attached := inner.resolver? (resolver?_of_pending pending)
      exact ⟨other, Definitions.resolver?_settle.trans attached⟩
    · have before : (run other τ).2.definitions.resolution? d = some h :=
        (Definitions.resolution?_settle_of_ne same).symm.trans hd
      obtain ⟨resolver, attached⟩ := ihInner (ihBefore defined) d h before
      exact ⟨resolver, Definitions.resolver?_settle.trans attached⟩

/-! ## §3. Resolvers that name handles -/

/-- The stores of `Comes` where every resolver that is attached is permitted in the store at hand:
it may name handles that were given out before, which another store would not know. -/
inductive Develops (run : Runner ρ) (permits : Store ρ → ρ → Prop) : Store ρ → Store ρ → Prop
  | refl (σ : Store ρ) : Develops run permits σ σ
  | call {σ τ : Store ρ} (c : Call ρ) (before : Develops run permits σ τ)
    (has : ∀ h ∈ c.handles, τ.Has h) (spells : ∀ a ∈ c.names, τ.Spells a)
    (permitted : ∀ r ∈ c.resolvers, permits τ r) : Develops run permits σ (c.carryOut τ)
  | resolve {σ τ : Store ρ} {d : LazyId} {resolver : ρ} (before : Develops run permits σ τ)
    (pending : τ.definitions.get? d = some ⟨some resolver, none⟩)
    (inner : Develops run permits τ (run resolver τ).2)
    (has : (run resolver τ).2.Has (run resolver τ).1) :
    Develops run permits σ (recordResolution d (run resolver τ).1 (run resolver τ).2).2

/-- Resolvers that are permitted in a store do nothing but call constructors, whenever they are
carried out from then on, and give a handle of the store. -/
def PermitsConstructors (run : Runner ρ) (permits : Store ρ → ρ → Prop) (σ : Store ρ) : Prop :=
  ∀ τ resolver, permits τ resolver → ∀ υ, Develops run permits σ υ → τ.Grows υ →
    Develops run permits υ (run resolver υ).2 ∧ (run resolver υ).2.Has (run resolver υ).1

section

variable {permits : Store ρ → ρ → Prop}

theorem Develops.comes (develops : Develops run permits σ τ) : Comes run σ τ := by
  induction develops with
  | refl => exact .refl _
  | call c _ has spells _ ih => exact ih.call c has spells
  | resolve _ pending _ has ihBefore ihInner => exact ihBefore.resolve pending ihInner has

theorem Develops.trans (before : Develops run permits σ τ) (after : Develops run permits τ υ) :
    Develops run permits σ υ := by
  induction after with
  | refl => exact before
  | call c _ has spells permitted ih => exact (ih before).call c has spells permitted
  | resolve _ pending inner has ih _ => exact (ih before).resolve pending inner has

/-- Every resolver was permitted when it was attached. -/
def AllPermitted (permits : Store ρ → ρ → Prop) (σ : Store ρ) : Prop :=
  ∀ d resolver, σ.definitions.resolver? d = some resolver → ∃ τ, permits τ resolver ∧ τ.Grows σ

theorem AllPermitted.of_develops (all : AllPermitted permits σ)
    (develops : Develops run permits σ τ) : AllPermitted permits τ := by
  induction develops with
  | refl => exact all
  | @call σ τ c _ _ _ permitted ih =>
    intro d resolver attached
    have grows := grows_carryOut c τ
    rcases resolver?_of_carryOut attached with before | own
    · obtain ⟨υ, known, earlier⟩ := ih all d resolver before
      exact ⟨υ, known, earlier.trans grows⟩
    · exact ⟨τ, permitted resolver own, grows⟩
  | @resolve σ τ e other _ _ _ _ ihBefore ihInner =>
    intro d resolver attached
    have inside := Definitions.resolver?_settle.symm.trans attached
    obtain ⟨υ, known, earlier⟩ := ihInner (ihBefore all) d resolver inside
    exact ⟨υ, known, earlier.trans (grows_recordResolution e _ _)⟩

end

theorem definitions_new (assign : String → Fin 64) (d : LazyId) :
    (Store.new assign : Store ρ).definitions.get? d = none := by
  unfold Definitions.get?
  cases Definitions.place? d with
  | none => rfl
  | some i => simp [Store.new]

end Store

end Assignability
