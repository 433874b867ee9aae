/-
  Assignability.Proofs.Store.Resolution
  ─────────────────────────────────────
  **WHERE A LAZY NODE LEADS.**

  A definition with a resolver is opened in one step: it stands for what
  is on record, or else for what its resolver gives, which goes on record
  (`Store.Opens`).  A chain of such steps ends at the first handle that is
  no lazy node (`Store.Chain`).  The search for the end keeps a list of
  what it passed; from a definition on that list no chain ends, so the
  list cuts off only what leads nowhere (`Passed.not_chain`).

  A chain that was followed is there in every later store, and it is the
  same chain (`Chain.later`).

  Main statements:
    • `destination?_eq_some_iff` — the search finds the end of the chain,
      if there is one within its steps,
    • `resolution_lasts` — the search, ever after, and what a definition
      may come to stand for.
-/
import Assignability.Proofs.Diagnosis.Frame
import Assignability.Proofs.Store.Resolvers
import Assignability.Proofs.Walk.Session

namespace Assignability

variable {ρ : Type} {run : Runner ρ}

namespace Store

variable {σ τ υ : Store ρ} {d e : LazyId} {h g t : Handle} {resolver : ρ}

/-! ## §1. Steps and chains -/

/-- One step of resolution from a definition with a resolver: to what is on record, or else to what
the resolver gives, which goes on record unless something else did meanwhile. -/
inductive Opens (run : Runner ρ) : Store ρ → LazyId → Handle → Store ρ → Prop
  | recorded {σ : Store ρ} {d : LazyId} {h : Handle} {resolver : ρ}
    (attached : σ.definitions.resolver? d = some resolver)
    (onRecord : σ.definitions.resolution? d = some h) : Opens run σ d h σ
  | carriedOut {σ τ : Store ρ} {d : LazyId} {h : Handle} {resolver : ρ}
    (pending : σ.definitions.get? d = some ⟨some resolver, none⟩)
    (after : τ = (recordResolution d (run resolver σ).1 (run resolver σ).2).2)
    (onRecord : τ.definitions.resolution? d = some h) : Opens run σ d h τ

/-- Single steps of resolution, each from the definition of the lazy node that the step before came
to, until one comes to a handle that is no lazy node. -/
inductive Chain (run : Runner ρ) : Nat → Store ρ → LazyId → Handle → Store ρ → Prop
  | last {σ τ : Store ρ} {d : LazyId} {t : Handle} (opens : Opens run σ d t τ)
    (notLazy : τ.lazyId? t = none) : Chain run 1 σ d t τ
  | next {n : Nat} {σ τ υ : Store ρ} {d e : LazyId} {h t : Handle} (opens : Opens run σ d h τ)
    (isLazy : τ.lazyId? h = some e) (rest : Chain run n τ e t υ) : Chain run (n + 1) σ d t υ

/-- What was opened is on record. -/
theorem Opens.onRecord (opens : Opens run σ d h τ) : τ.definitions.resolution? d = some h := by
  cases opens with
  | recorded _ onRecord => exact onRecord
  | carriedOut _ _ onRecord => exact onRecord

/-- Looking into a definition is one step of resolution. -/
theorem force_eq_some_iff (defined : σ.RecordsAreDefined) :
    force run d σ = (some h, τ) ↔ Opens run σ d h τ := by
  constructor
  · intro forced
    -- a resolution is on record, or the resolver is carried out
    by_cases settled : σ.IsSettled d
    · rw [force_of_settled settled] at forced
      obtain ⟨onRecord, rfl⟩ := Prod.mk.inj forced
      obtain ⟨resolver, attached⟩ := defined d h onRecord
      exact .recorded attached onRecord
    · obtain ⟨resolver, pending⟩ := exists_pending settled
      rw [force_of_pending pending] at forced
      obtain ⟨onRecord, rfl⟩ := Prod.mk.inj forced
      exact .carriedOut pending rfl onRecord
  · intro opens
    cases opens with
    | recorded attached onRecord =>
      rw [force_of_settled (.inl (by rw [onRecord]; rfl)), onRecord]
    | carriedOut pending after onRecord =>
      subst after
      rw [force_of_pending pending]
      exact Prod.ext onRecord rfl

/-! ## §2. What the search passed -/

/-- What was opened on the way to `d`: each definition on the list has a lazy node on record that
is the next on the list, or that of `d`. -/
def Passed (σ : Store ρ) (visited : List LazyId) (d : LazyId) : Prop :=
  ∀ e ∈ visited, ∃ h next, σ.definitions.resolution? e = some h ∧ σ.lazyId? h = some next ∧
    (next ∈ visited ∨ next = d)

theorem Passed.later {visited : List LazyId} (passed : σ.Passed visited d) (grows : σ.Grows τ)
    (onRecord : τ.definitions.resolution? d = some h) (isLazy : τ.lazyId? h = some e) :
    τ.Passed (d :: visited) e := by
  intro x hx
  rcases List.mem_cons.1 hx with rfl | hx
  · exact ⟨h, e, onRecord, isLazy, .inr rfl⟩
  · obtain ⟨g, next, hr, hl, below⟩ := passed x hx
    refine ⟨g, next, grows.resolutions x g hr, ?_, .inl ?_⟩
    · rw [grows.lazyId?_eq (has_of_lazyId? hl), hl]
    · exact below.elim (List.mem_cons_of_mem d) fun same => same ▸ List.mem_cons_self

/-- **A CHAIN THAT COMES BACK NEVER ENDS.**  All that was passed is on record, and the records lead
around. -/
theorem Passed.not_chain {visited : List LazyId} (passed : σ.Passed visited d) (seen : d ∈ visited)
    {n : Nat} (hx : e ∈ visited) : ¬ Chain run n σ e t τ := by
  -- the invariant is that the chain is still at one of the definitions that were passed
  intro chain
  induction chain with
  | @last σ τ e t opens notLazy =>
    obtain ⟨h, next, hr, hl, -⟩ := passed e hx
    cases opens with
    | recorded _ onRecord =>
      obtain rfl : h = t := Option.some.inj (hr.symm.trans onRecord)
      rw [hl] at notLazy
      cases notLazy
    | carriedOut pending =>
      unfold Definitions.resolution? at hr
      rw [pending] at hr
      cases hr
  | @next n σ τ υ e x h t opens isLazy _ ih =>
    obtain ⟨g, next, hr, hl, below⟩ := passed e hx
    cases opens with
    | recorded _ onRecord =>
      obtain rfl : g = h := Option.some.inj (hr.symm.trans onRecord)
      obtain rfl : next = x := Option.some.inj (hl.symm.trans isLazy)
      exact ih passed (below.elim id fun same => same ▸ seen)
    | carriedOut pending =>
      unfold Definitions.resolution? at hr
      rw [pending] at hr
      cases hr

/-! ## §3. The search -/

/-- A store that constructors built, with resolvers that were permitted. -/
structure Developed (run : Runner ρ) (permits : Store ρ → ρ → Prop) (assign : String → Fin 64)
    (σ : Store ρ) : Prop where
  develops : Develops run permits (.new assign) σ
  resolvers : PermitsConstructors run permits (.new assign)

section

variable {assign : String → Fin 64} {permits : Store ρ → ρ → Prop}

namespace Developed

variable (developed : Developed run permits assign σ)
include developed

theorem wellBuilt : σ.WellBuilt := wellBuilt_of_comes assign developed.develops.comes

theorem recordsAreDefined : σ.RecordsAreDefined := by
  refine RecordsAreDefined.of_comes (fun d h hd => ?_) developed.develops.comes
  unfold Definitions.resolution? at hd
  rw [definitions_new] at hd
  cases hd

theorem later (develops : Develops run permits σ τ) : Developed run permits assign τ :=
  ⟨developed.develops.trans develops, developed.resolvers⟩

/-- A resolver that is still to be carried out does nothing but call constructors. -/
theorem carryOut (pending : σ.definitions.get? d = some ⟨some resolver, none⟩) :
    Develops run permits σ (run resolver σ).2 ∧ (run resolver σ).2.Has (run resolver σ).1 := by
  have all : AllPermitted permits σ := by
    refine AllPermitted.of_develops (fun d resolver attached => ?_) developed.develops
    unfold Definitions.resolver? at attached
    rw [definitions_new] at attached
    cases attached
  obtain ⟨τ, permitted, earlier⟩ := all d resolver (resolver?_of_pending pending)
  exact developed.resolvers τ resolver permitted σ developed.develops earlier

/-- Looking into a definition does nothing but call constructors. -/
theorem force (d : LazyId) : Develops run permits σ (force run d σ).2 := by
  by_cases settled : σ.IsSettled d
  · rw [force_of_settled settled]
    exact .refl σ
  · obtain ⟨resolver, pending⟩ := exists_pending settled
    obtain ⟨inner, has⟩ := developed.carryOut pending
    rw [force_of_pending pending]
    exact (Develops.refl σ).resolve pending inner has

/-- A definition is opened in one way. -/
theorem opens_unique (opens : Opens run σ d h τ) (opens' : Opens run σ d g υ) :
    h = g ∧ τ = υ := by
  have forced := (force_eq_some_iff developed.recordsAreDefined).2 opens
  have forced' := (force_eq_some_iff developed.recordsAreDefined).2 opens'
  rw [forced] at forced'
  obtain ⟨same, rfl⟩ := Prod.mk.inj forced'
  exact ⟨Option.some.inj same, rfl⟩

theorem of_opens (opens : Opens run σ d h τ) : Develops run permits σ τ := by
  have after := developed.force d
  rw [(force_eq_some_iff developed.recordsAreDefined).2 opens] at after
  exact after

end Developed

/-- **THE SEARCH FINDS THE END OF A CHAIN**, if it has the steps for it. -/
theorem follow_eq_some_iff (steps : Nat) : ∀ {σ : Store ρ} {visited : List LazyId} {d : LazyId},
    Developed run permits assign σ → σ.Passed visited d → ∀ {t : Handle} {υ : Store ρ},
    follow run steps visited d σ = (some t, υ) ↔ ∃ n ≤ steps, Chain run n σ d t υ := by
  -- what leads nowhere gives no handle
  have nowhere : ∀ {τ υ : Store ρ} {t : Handle}, ¬ (none, τ) = (some t, υ) := by
    intro τ υ t found
    cases congrArg Prod.fst found
  induction steps with
  | zero =>
    intro σ visited d _ _ t υ
    refine iff_of_false nowhere ?_
    rintro ⟨n, few, chain⟩
    cases chain <;> omega
  | succ steps ih =>
    intro σ visited d developed passed t υ
    by_cases seen : d ∈ visited
    · unfold follow
      rw [if_pos seen]
      refine iff_of_false nowhere ?_
      rintro ⟨n, -, chain⟩
      exact passed.not_chain seen seen chain
    · have opened : ∀ h τ, force run d σ = (some h, τ) ↔ Opens run σ d h τ :=
        fun h τ => force_eq_some_iff developed.recordsAreDefined
      unfold follow
      rw [if_neg seen, bind_apply]
      generalize force run d σ = r at opened
      obtain ⟨x, τ⟩ := r
      cases x with
      | none =>
        -- a definition without a resolver cannot be opened
        refine iff_of_false nowhere ?_
        rintro ⟨n, -, chain⟩
        cases chain with
        | last opens _ => cases (opened _ _).2 opens
        | next opens _ _ => cases (opened _ _).2 opens
      | some h =>
        have opens : Opens run σ d h τ := (opened h τ).1 rfl
        have develops := developed.of_opens opens
        dsimp only
        rw [bind_apply, get_apply]
        dsimp only
        cases isLazy : τ.lazyId? h with
        | none =>
          constructor
          · intro found
            obtain ⟨same, rfl⟩ := Prod.mk.inj found
            obtain rfl := Option.some.inj same
            exact ⟨1, by omega, .last opens isLazy⟩
          · rintro ⟨n, -, chain⟩
            cases chain with
            | last opens' _ =>
              obtain ⟨rfl, rfl⟩ := developed.opens_unique opens opens'
              rfl
            | next opens' isLazy' _ =>
              obtain ⟨rfl, rfl⟩ := developed.opens_unique opens opens'
              rw [isLazy] at isLazy'
              cases isLazy'
        | some e =>
          have onward : follow run steps (d :: visited) e τ = (some t, υ)
              ↔ ∃ n ≤ steps, Chain run n τ e t υ :=
            ih (developed.later develops)
              (passed.later develops.comes.grows opens.onRecord isLazy)
          constructor
          · intro found
            obtain ⟨n, few, chain⟩ := onward.1 found
            exact ⟨n + 1, by omega, .next opens isLazy chain⟩
          · rintro ⟨n, few, chain⟩
            cases chain with
            | last opens' notLazy =>
              obtain ⟨rfl, rfl⟩ := developed.opens_unique opens opens'
              rw [isLazy] at notLazy
              cases notLazy
            | @next n _ _ _ _ e' _ _ opens' isLazy' rest =>
              obtain ⟨rfl, rfl⟩ := developed.opens_unique opens opens'
              obtain rfl : e = e' := Option.some.inj (isLazy.symm.trans isLazy')
              exact onward.2 ⟨n, by omega, rest⟩

theorem destination?_eq_some_iff (developed : Developed run permits assign σ) :
    destination? run d σ = (some t, τ) ↔ ∃ n ≤ 64, Chain run n σ d t τ :=
  follow_eq_some_iff longestChain developed fun _ he => absurd he List.not_mem_nil

/-! ## §4. Chains in later stores -/

theorem Chain.develops {n : Nat} (chain : Chain run n σ d t τ)
    (developed : Developed run permits assign σ) : Develops run permits σ τ ∧ τ.Has t := by
  induction chain with
  | last opens _ =>
    have develops := developed.of_opens opens
    exact ⟨develops, (developed.later develops).wellBuilt.resolutions _ _ opens.onRecord⟩
  | next opens _ _ ih =>
    have develops := developed.of_opens opens
    obtain ⟨onward, has⟩ := ih (developed.later develops)
    exact ⟨develops.trans onward, has⟩

/-- **A CHAIN THAT WAS FOLLOWED STAYS**, and following it again builds nothing. -/
theorem Chain.later {n : Nat} (chain : Chain run n σ d t τ)
    (developed : Developed run permits assign σ) (defined : υ.RecordsAreDefined)
    (grows : τ.Grows υ) : Chain run n υ d t υ := by
  -- each step of the chain is on record in the later store
  have recorded : ∀ {σ τ : Store ρ} {d h}, Opens run σ d h τ → τ.Grows υ → Opens run υ d h υ := by
    intro σ τ d h opens grows
    have onRecord := grows.resolutions _ _ opens.onRecord
    obtain ⟨resolver, attached⟩ := defined _ _ onRecord
    exact .recorded attached onRecord
  induction chain with
  | last opens notLazy =>
    obtain ⟨-, has⟩ := (Chain.last opens notLazy).develops developed
    exact .last (recorded opens grows) ((grows.lazyId?_eq has).trans notLazy)
  | next opens isLazy rest ih =>
    have between := developed.later (developed.of_opens opens)
    have grows' := (rest.develops between).1.comes.grows.trans grows
    have still := (grows'.lazyId?_eq (has_of_lazyId? isLazy)).trans isLazy
    exact .next (recorded opens grows') still (ih between grows)

end

end Store

/-! ## §5. What may be done later -/

/-- What is asked of a checker and a printer keeps of the store what looking into lazy nodes
keeps. -/
theorem Session.store_serve {I : Store ρ → Prop} (forces : ∀ d σ, I σ → I (Store.force run d σ).2)
    (request : Request) (x : Session ρ) (kept : I x.store) :
    I (Session.serve run request x).2.store := by
  have resolved : ∀ h σ, I σ → I (Store.resolve run h σ).2 := Store.resolve_keeps forces
  cases request with
  | check s t | isRelated s t => exact store_check resolved s t ⟨x.store, x.checker⟩ kept
  | explain s t => exact (Inquire.lasts_store resolved).explain? s t ⟨x.store, x.checker⟩ kept
  | format h =>
    have destination := Store.follow_keeps forces Store.longestChain []
    exact (Print.lasts_store destination).format h ⟨x.store, x.printer⟩ kept

namespace Store

variable {σ τ υ : Store ρ} {d e : LazyId} {h g t : Handle} {resolver : ρ}
  {permits : Store ρ → ρ → Prop} {assign : String → Fin 64}

/-- Stores that come of a store by calls about what is there, by resolving, and by what is asked of
checkers and printers, whatever they were asked before. -/
inductive Continues (run : Runner ρ) (permits : Store ρ → ρ → Prop) : Store ρ → Store ρ → Prop
  | refl (σ : Store ρ) : Continues run permits σ σ
  | call {σ τ : Store ρ} (c : Call ρ) (before : Continues run permits σ τ)
    (has : ∀ h ∈ c.handles, τ.Has h) (spells : ∀ a ∈ c.names, τ.Spells a)
    (permitted : ∀ r ∈ c.resolvers, permits τ r) : Continues run permits σ (c.carryOut τ)
  | resolve {σ τ : Store ρ} (d : LazyId) (before : Continues run permits σ τ) :
    Continues run permits σ (destination? run d τ).2
  | serve {σ τ : Store ρ} (request : Request) (checker : Checker) (printer : Printer)
    (before : Continues run permits σ τ) :
    Continues run permits σ (Session.serve run request ⟨τ, checker, printer⟩).2.store

/-- Where resolvers call constructors, all that is done comes to such calls. -/
theorem Continues.develops (continues : Continues run permits σ τ)
    (developed : Developed run permits assign σ) : Develops run permits σ τ := by
  have forces : ∀ d υ, Develops run permits σ υ → Develops run permits σ (force run d υ).2 :=
    fun d υ develops => develops.trans ((developed.later develops).force d)
  induction continues with
  | refl => exact .refl _
  | call c _ has spells permitted ih => exact ih.call c has spells permitted
  | resolve d _ ih => exact follow_keeps forces longestChain [] d _ ih
  | serve request checker printer _ ih => exact Session.store_serve forces request _ ih

/-! ## §6. Resolving now and later -/

theorem attached_of_define (isLazy : σ.lazyId? h = some d)
    (success : (define h resolver σ).1 = true) :
    (define h resolver σ).2.definitions.resolver? d = some resolver := by
  rw [define_of_lazyId? isLazy] at success ⊢
  exact Definitions.resolver?_of_define success

theorem attachResolver_of_attached (attached : σ.definitions.resolver? d = some resolver)
    (other : ρ) : (attachResolver d other σ).1 = false := by
  refine Bool.eq_false_iff.2 fun again => ?_
  obtain ⟨-, free⟩ := Definitions.define_eq_true_iff.1 again
  rw [attached] at free
  cases free

/-- Where a resolver is attached, nothing is on record yet. -/
theorem resolution?_of_define (defined : σ.RecordsAreDefined) (isLazy : σ.lazyId? h = some d)
    (success : (define h resolver σ).1 = true) :
    (define h resolver σ).2.definitions.resolution? d = none := by
  refine (resolution?_carryOut (.define h resolver) σ d).trans ?_
  cases onRecord : σ.definitions.resolution? d with
  | none => rfl
  | some g =>
    obtain ⟨earlier, attached⟩ := defined d g onRecord
    rw [define_of_lazyId? isLazy] at success
    rw [(Definitions.define_eq_true_iff.1 success).2] at attached
    cases attached

/-- A definition is a call like any other. -/
theorem Developed.define (developed : Developed run permits assign σ)
    (permitted : permits σ resolver) (h : Handle) :
    Developed run permits assign (define h resolver σ).2 :=
  developed.later ((Develops.refl σ).call (.define h resolver) nofun nofun
    fun _ hr => List.mem_singleton.1 hr ▸ permitted)

theorem destination?_later (developed : Developed run permits assign σ)
    (found : destination? run d σ = (some t, τ)) (continues : Continues run permits τ υ) :
    destination? run d υ = (some t, υ) := by
  obtain ⟨n, few, chain⟩ := (destination?_eq_some_iff developed).1 found
  have between := developed.later (chain.develops developed).1
  have develops := continues.develops between
  have later := between.later develops
  have again := chain.later developed later.recordsAreDefined develops.comes.grows
  exact (destination?_eq_some_iff later).2 ⟨n, few, again⟩

/-- How a definition is resolved in a store, and from then on. -/
structure ResolvesForGood (run : Runner ρ) (permits : Store ρ → ρ → Prop) (σ : Store ρ)
    (d : LazyId) : Prop where
  /-- The search finds what sixty-four single steps or fewer lead to, and nothing else. -/
  exact : ∀ t τ, destination? run d σ = (some t, τ) ↔ ∃ n ≤ 64, Chain run n σ d t τ
  /-- What it found it finds whatever was done since, and without building anything. -/
  lasts : ∀ t τ, destination? run d σ = (some t, τ) → ∀ υ, Continues run permits τ υ →
    destination? run d υ = (some t, υ)
  /-- A resolver is attached where there is none. -/
  define_iff : ∀ h resolver, σ.lazyId? h = some d →
    ((define h resolver σ).1 = true ↔ σ.definitions.resolver? d = none)
  /-- No other is attached afterwards, -/
  once : ∀ h resolver, permits σ resolver → σ.lazyId? h = some d →
    (define h resolver σ).1 = true → ∀ υ, Continues run permits (define h resolver σ).2 υ →
      ∀ other, (attachResolver d other υ).1 = false ∧
        ∀ g, υ.lazyId? g = some d → (define g other υ).1 = false
  /-- and what the definition comes to stand for is what this resolver gave. -/
  recorded : ∀ h resolver, permits σ resolver → σ.lazyId? h = some d →
    (define h resolver σ).1 = true → ∀ υ, Continues run permits (define h resolver σ).2 υ →
      RecordedFrom run (define h resolver σ).2 d resolver υ

end Store

/-- **RESOLUTION IS EXACT AND FOR GOOD**, in every store that constructors built, for every
definition, whatever the resolvers that were permitted may name or build. -/
theorem resolution_lasts (run : Runner ρ) (permits : Store ρ → ρ → Prop)
    (assign : String → Fin 64) (σ : Store ρ)
    (develops : Store.Develops run permits (.new assign) σ)
    (resolvers : Store.PermitsConstructors run permits (.new assign)) (d : LazyId) :
    σ.ResolvesForGood run permits d := by
  have developed : Store.Developed run permits assign σ := ⟨develops, resolvers⟩
  -- the five parts, for a store that was developed by permitted resolvers only
  constructor
  · exact fun t τ => Store.destination?_eq_some_iff developed
  · exact fun t τ found υ continues => Store.destination?_later developed found continues
  · intro h resolver isLazy
    have declared := developed.wellBuilt.isWhole.contains isLazy
    rw [Store.define_of_lazyId? isLazy]
    exact Definitions.define_eq_true_iff.trans (and_iff_right declared)
  -- what was defined once takes no other resolver in any later store
  · intro h resolver permitted isLazy success υ continues other
    have after := continues.develops (developed.define permitted h)
    have attached := after.comes.resolver? (Store.attached_of_define isLazy success)
    have refused := Store.attachResolver_of_attached attached other
    refine ⟨refused, fun g isLazy' => ?_⟩
    rw [Store.define_of_lazyId? isLazy']
    exact refused
  · intro h resolver permitted isLazy success υ continues
    have after := continues.develops (developed.define permitted h)
    have attached := Store.attached_of_define isLazy success
    refine Store.recorded_of_comes after.comes (.refl _) attached fun g onRecord => ?_
    rw [Store.resolution?_of_define developed.recordsAreDefined isLazy success] at onRecord
    cases onRecord

/-- One lazy node that stands for another, which stands for the strings, declared first and defined
afterwards. -/
theorem resolution_lasts_lazyString :
    let run : Runner Handle := pure
    let permits : Store Handle → Handle → Prop := fun σ h => σ.Has h
    let text := Intrinsic.string.handle
    let a := Store.declare (.new fun _ => 0 : Store Handle)
    let b := Store.declare a.2
    let σ := (Store.define b.1 text (Store.define a.1 b.1 b.2).2).2
    let found := Store.destination? run ⟨1⟩ σ
    found.1 = some text ∧ (Store.define a.1 text σ).1 = false ∧
      ∀ υ, Store.Continues run permits found.2 υ →
        Store.destination? run ⟨1⟩ υ = (some text, υ) := by
  intro run permits text a b σ found
  have first : b.2.lazyId? a.1 = some ⟨1⟩ := by
    have isLazy := Store.lazyId?_declare (.new fun _ => 0 : Store Handle)
    have later := Store.grows_carryOut .declare a.2
    exact (later.lazyId?_eq (Store.has_of_lazyId? isLazy)).trans isLazy
  have second : b.2.lazyId? b.1 = some ⟨2⟩ := Store.lazyId?_declare a.2
  -- the store is the one of the two declarations, with both resolvers attached
  have defined : σ = (Store.attachResolver ⟨2⟩ text (Store.attachResolver ⟨1⟩ b.1 b.2).2).2 := by
    have again : (Store.define a.1 b.1 b.2).2.lazyId? b.1 = some ⟨2⟩ := by
      rw [Store.define_of_lazyId? first]
      exact second
    show (Store.define b.1 text (Store.define a.1 b.1 b.2).2).2 = _
    rw [Store.define_of_lazyId? again, Store.define_of_lazyId? first]
  have resolvers : Store.PermitsConstructors run permits (.new fun _ => 0) :=
    fun τ h known υ _ grows => ⟨.refl υ, grows.has known⟩
  have develops : Store.Develops run permits (.new fun _ => 0) σ := by
    have declared : Store.Develops run permits (.new fun _ => 0) b.2 :=
      ((Store.Develops.refl _).call .declare nofun nofun nofun).call .declare nofun nofun nofun
    have outer := declared.call (.define a.1 b.1) nofun nofun fun _ hr =>
      List.mem_singleton.1 hr ▸ Store.has_of_lazyId? second
    exact outer.call (.define b.1 text) nofun nofun fun _ hr =>
      List.mem_singleton.1 hr ▸ Store.has_handle _ .string
  have good := resolution_lasts run permits _ σ develops resolvers ⟨1⟩
  -- two resolvers are carried out, one after the other
  have chain : ∃ τ, Store.Chain run 2 σ ⟨1⟩ text τ := by
    rw [defined]
    have outer : (Store.attachResolver ⟨2⟩ text (Store.attachResolver ⟨1⟩ b.1 b.2).2
        ).2.definitions.get? ⟨1⟩ = some ⟨some b.1, none⟩ := rfl
    have inner : (Store.recordResolution ⟨1⟩ b.1 (Store.attachResolver ⟨2⟩ text
        (Store.attachResolver ⟨1⟩ b.1 b.2).2).2).2.definitions.get? ⟨2⟩
          = some ⟨some text, none⟩ := rfl
    have notLazy : ∀ υ : Store Handle, υ.lazyId? text = none := fun υ =>
      Store.lazyId?_of_notLazy (υ.node?_handle .string) rfl
    have opens : ∀ {υ : Store Handle} {d : LazyId} {h : Handle},
        υ.definitions.get? d = some ⟨some h, none⟩ →
          Store.Opens run υ d h (Store.recordResolution d h υ).2 := by
      intro υ d h pending
      refine .carriedOut pending rfl ?_
      show (υ.definitions.settle d h).resolution? d = some h
      rw [Definitions.resolution?_settle, pending]
      rfl
    exact ⟨_, .next (opens outer) second (.last (opens inner) (notLazy _))⟩
  obtain ⟨τ, chain⟩ := chain
  have leads : found = (some text, τ) := (good.exact text τ).2 ⟨2, by omega, chain⟩
  refine ⟨by rw [leads], ?_, fun υ continues => ?_⟩
  · have isLazy : σ.lazyId? a.1 = some ⟨1⟩ := by
      rw [defined]
      exact first
    refine Bool.eq_false_iff.2 fun success => ?_
    have free := (good.define_iff a.1 text isLazy).1 success
    rw [defined] at free
    cases (show some b.1 = none from free)
  · rw [leads] at continues
    exact good.lasts text τ leads υ continues

end Assignability
