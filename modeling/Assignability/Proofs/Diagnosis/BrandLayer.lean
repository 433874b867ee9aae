/-
  Assignability.Proofs.Diagnosis.BrandLayer
  ─────────────────────────────────────────
  **A BRAND THAT IS REPORTED IS LACKING.**

  Where both sides have brands, an explanation takes them off in layers: a
  brand that both have on top is taken off both, and another brand of the
  source is taken off it if the target's is found below.  The brand that
  is reported is the target's at the layer where this stops, and there it
  is on none of the source's bases (`Store.LacksBrand`).  It may well
  stand further up on the source, where it was taken off together with a
  brand of the target of the same name.  It may also stand behind a lazy
  node: the bases are looked through as they are, whereas the rule for
  brands resolves each before it takes off the next
  (`carried_brand_reported`).

  The store may grow from layer to layer, as lazy nodes are resolved.

  Main statement: `explained_brand`.
-/
import Assignability.Proofs.Diagnosis.Scope
import Assignability.Proofs.Diagnosis.Snapshot
import Assignability.Proofs.Store.Interning
import Assignability.Proofs.Store.Listing

namespace Assignability

variable {ρ : Type} {run : Runner ρ} {σ τ : Store ρ} {s t s' t' : Handle} {w : Inquiry ρ}
  {b : Atom}

/-! ## §1. Layers of brands -/

namespace Store

/-- A brand is on a descriptor or on one of the bases below it. -/
inductive OnBases (σ : Store ρ) (b : Atom) : Handle → Prop
  | here {h base : Handle} (hn : σ.node? h = some (.branded base b)) : OnBases σ b h
  | further {h base : Handle} {other : Atom} (hn : σ.node? h = some (.branded base other))
    (hb : OnBases σ b base) : OnBases σ b h

/-- Only a branded node has a brand on the chain of its bases. -/
theorem OnBases.branded {h : Handle} (found : σ.OnBases b h) :
    ∃ base c, σ.node? h = some (.branded base c) := by
  cases found with
  | here hn => exact ⟨_, _, hn⟩
  | further hn _ => exact ⟨_, _, hn⟩

/-- Where the search for a brand ends, it finds what stands on the chain. -/
theorem onBases_iff_of_hasBrandWithin? {n : Nat} {h : Handle} {found : Bool}
    (ends : σ.hasBrandWithin? b n h = some found) : σ.OnBases b h ↔ found = true := by
  -- on the levels of the search, which goes down the chain base by base
  induction n generalizing h with
  | zero => cases ends
  | succ n ih =>
    rw [hasBrandWithin?_succ] at ends
    split at ends
    · next base c hn =>
      split at ends
      · next same =>
        subst same
        obtain rfl := Option.some.inj ends
        exact ⟨fun _ => rfl, fun _ => .here hn⟩
      · next other =>
        rw [← ih ends]
        refine ⟨fun found => ?_, .further hn⟩
        cases found with
        | here hn' => rw [hn] at hn'; cases hn'; exact absurd rfl other
        | further hn' hb => rw [hn] at hn'; cases hn'; exact hb
    · next unbranded =>
      obtain rfl := Option.some.inj ends
      refine ⟨fun found => ?_, nofun⟩
      obtain ⟨base, c, hn⟩ := found.branded
      exact absurd hn (unbranded base c)

/-- What the search for a brand finds is so, where it ends. -/
theorem onBases_iff {h : Handle} {found : Bool} (ends : σ.hasBrand? b h = some found) :
    σ.OnBases b h ↔ found = true := onBases_iff_of_hasBrandWithin? ends

/-- What two handles stand for when they are resolved one after the other, and the store then. -/
def Resolves (run : Runner ρ) (σ : Store ρ) (s t s' t' : Handle) (τ : Store ρ) : Prop :=
  ∃ υ, resolve run s σ = (s', υ) ∧ resolve run t υ = (t', τ)

/-- Layer by layer two sides come to a brand of the target that the source does not have, each layer
in the store that the one before has led to. -/
inductive LacksBrand (run : Runner ρ) (b : Atom) : Store ρ → Handle → Handle → Prop
  /-- The brand is on no base of the source. -/
  | here {σ τ : Store ρ} {s t s' t' base' : Handle} (resolved : Resolves run σ s t s' t' τ)
    (ht : τ.node? t' = some (.branded base' b)) (lacks : ¬ τ.OnBases b s') :
    LacksBrand run b σ s t
  /-- Both have the same brand on top, and it is taken off. -/
  | same {σ τ : Store ρ} {s t s' t' base base' : Handle} {brand : Atom}
    (resolved : Resolves run σ s t s' t' τ) (hs : τ.node? s' = some (.branded base brand))
    (ht : τ.node? t' = some (.branded base' brand)) (layer : LacksBrand run b τ base base') :
    LacksBrand run b σ s t
  /-- The source has the target's brand below another, and that is taken off. -/
  | deeper {σ τ : Store ρ} {s t s' t' base base' : Handle} {brand brand' : Atom}
    (resolved : Resolves run σ s t s' t' τ) (hs : τ.node? s' = some (.branded base brand))
    (ht : τ.node? t' = some (.branded base' brand')) (other : brand ≠ brand')
    (carried : τ.OnBases brand' base) (layer : LacksBrand run b τ base t') :
    LacksBrand run b σ s t

/-- The target that lacks a brand on the other side is branded, once resolved. -/
theorem LacksBrand.branded (h : LacksBrand run b σ s t) : ∃ s' t' τ base c,
    Resolves run σ s t s' t' τ ∧ τ.node? t' = some (.branded base c) := by
  cases h with
  | here resolved ht _ | same resolved _ ht _ | deeper resolved _ ht _ _ _ =>
    exact ⟨_, _, _, _, _, resolved, ht⟩

/-- Two nodes that are not lazy resolve to themselves. -/
theorem Resolves.of_notLazy {m n : Node} (hs : σ.node? s = some m) (hm : m.isLazy = false)
    (ht : σ.node? t = some n) (hn : n.isLazy = false) : Resolves run σ s t s t σ :=
  ⟨σ, resolve_of_not_lazy run (lazyId?_of_notLazy hs hm),
    resolve_of_not_lazy run (lazyId?_of_notLazy ht hn)⟩

/-- A pair resolves in one way only. -/
theorem Resolves.unique {s'' t'' : Handle} {υ : Store ρ} (h : Resolves run σ s t s' t' τ)
    (h' : Resolves run σ s t s'' t'' υ) : s' = s'' ∧ t' = t'' ∧ τ = υ := by
  obtain ⟨φ, hs, ht⟩ := h
  obtain ⟨φ', hs', ht'⟩ := h'
  obtain ⟨rfl, rfl⟩ := Prod.mk.inj (hs.symm.trans hs')
  obtain ⟨rfl, rfl⟩ := Prod.mk.inj (ht.symm.trans ht')
  exact ⟨rfl, rfl, rfl⟩

/-- A handle is not found to be branded when it is resolved, now or in a store that grew. -/
def NeverBranded (run : Runner ρ) (σ : Store ρ) (h : Handle) : Prop :=
  ∀ τ, σ.Grows τ → ∀ base c,
    (resolve run h τ).2.node? (resolve run h τ).1 ≠ some (.branded base c)

/-- A node of another kind stays unbranded, whatever is resolved later. -/
theorem neverBranded_of_node {h : Handle} {n : Node} (hn : σ.node? h = some n)
    (lazy : n.isLazy = false) (unbranded : n.kind ≠ .branded) : NeverBranded run σ h := by
  intro τ grows base c branded
  have later := grows.node? hn
  rw [resolve_of_not_lazy run (lazyId?_of_notLazy later lazy)] at branded
  obtain rfl := Option.some.inj (later.symm.trans branded)
  exact unbranded rfl

/-- Resolving only adds to a store. -/
theorem grows_of_resolve (resolvers : run.Evolves) {h g : Handle}
    (hr : resolve run h σ = (g, τ)) : σ.Grows τ := by
  have evolves := evolves_resolve resolvers h σ
  rw [hr] at evolves
  exact evolves.grows

/-- A resolved target of another kind is never branded. -/
theorem Resolves.neverBranded {n : Node} (h : Resolves run σ s t s' t' τ)
    (hn : τ.node? t' = some n) (unbranded : n.kind ≠ .branded) : NeverBranded run τ t' := by
  obtain ⟨φ, -, ht⟩ := h
  have clear := lazyId?_of_resolve ht
  refine neverBranded_of_node hn ?_ unbranded
  cases n with
  | lazy d =>
    unfold lazyId? at clear
    rw [hn] at clear
    cases clear
  | _ => rfl

/-- **UNDER A TARGET WITH ONE LAYER OF BRANDS** the source itself does not have the brand. -/
theorem LacksBrand.single (resolvers : run.Evolves) (h : LacksBrand run b σ s t)
    (resolved : Resolves run σ s t s' t' τ) {base : Handle} {brand : Atom}
    (ht : τ.node? t' = some (.branded base brand)) (once : NeverBranded run τ base) :
    brand = b ∧ ¬ τ.OnBases b s' := by
  induction h generalizing s' t' τ with
  | here resolved' ht' lacks =>
    obtain ⟨rfl, rfl, rfl⟩ := resolved.unique resolved'
    obtain ⟨-, rfl⟩ := Node.branded.inj (Option.some.inj (ht.symm.trans ht'))
    exact ⟨rfl, lacks⟩
  | same resolved' _ ht' layer _ =>
    obtain ⟨rfl, rfl, rfl⟩ := resolved.unique resolved'
    obtain ⟨rfl, -⟩ := Node.branded.inj (Option.some.inj (ht.symm.trans ht'))
    obtain ⟨g, h, υ, x, c, ⟨φ, hg, hh⟩, hn⟩ := layer.branded
    refine absurd ?_ (once φ (grows_of_resolve resolvers hg) x c)
    rw [hh]
    exact hn
  | deeper resolved' _ ht' _ carried _ ih =>
    obtain ⟨rfl, rfl, rfl⟩ := resolved.unique resolved'
    obtain ⟨-, rfl⟩ := Node.branded.inj (Option.some.inj (ht.symm.trans ht'))
    -- the base has the brand that it is said to lack
    obtain ⟨x, c, hn⟩ := carried.branded
    obtain ⟨rfl, lacks⟩ := ih (.of_notLazy hn rfl ht rfl) ht once
    exact absurd carried lacks

end Store

/-! ## §2. What is to blame -/

/-- **HOWEVER A CHECKER ANSWERS**, what is to blame for a pair is ordinary, or it is one of brands, of
what the two stand for. -/
theorem Query.inquire_blame (flags : Flags) (s t : Handle) (w : Inquiry ρ) :
    (inquire run (blame flags s t) w).1.Ordinary (Setting.any : Setting ρ).toScope ∨
      ∃ s' t', Store.Resolves run w.store s t s' t' (inquire run (blame flags s t) w).2.store ∧
        (inquire run (blame flags s t) w).2.store.BrandBlame s' t'
          (inquire run (blame flags s t) w).1 := by
  obtain ⟨s', υ, hs⟩ : ∃ s' υ, Store.resolve run s w.store = (s', υ) := ⟨_, _, rfl⟩
  obtain ⟨t', τ, ht⟩ : ∃ t' τ, Store.resolve run t υ = (t', τ) := ⟨_, _, rfl⟩
  have source : answer run (check run) (resolved s) w = (s', ⟨υ, w.checker⟩) := by
    show ((Store.resolve run s w.store).1, (⟨(Store.resolve run s w.store).2, _⟩ : Inquiry ρ)) = _
    rw [hs]
  have target : answer run (check run) (resolved t) ⟨υ, w.checker⟩ = (t', ⟨τ, w.checker⟩) := by
    show ((Store.resolve run t υ).1, (⟨(Store.resolve run t υ).2, _⟩ : Inquiry ρ)) = _
    rw [ht]
  have seen : answer run (check run) store (⟨τ, w.checker⟩ : Inquiry ρ) = (τ, ⟨τ, w.checker⟩) := rfl
  unfold blame inquire
  simp only [bind_eq, answer_bind, source, target, seen]
  split
  · next source target hn hm =>
    have sort : (blameNodes? flags s' t' source target).HasSort .any τ s' t' :=
      hasSort_blameNodes? trivial Setting.opens_any hn hm
    have first : answer run (check run) (blameNodes? flags s' t' source target) ⟨τ, w.checker⟩
        = answer run (check run) ((blameNodes? flags s' t' source target).seeing τ) ⟨τ, w.checker⟩ :=
      (answer_seeing _ ⟨τ, w.checker⟩).symm
    rw [answer_bind, first]
    -- brands are found before anything is asked, so the store is the one that was looked at
    rcases sort with ⟨blame, found, brands⟩ | finds
    · right
      rw [found]
      exact ⟨s', t', ⟨υ, hs, ht⟩, brands⟩
    · left
      have ordinary : ∀ b ∈ (answer run (check run) ((blameNodes? flags s' t' source target).seeing τ)
          ⟨τ, w.checker⟩).1, b.Ordinary _ := finds.answer _
      generalize answer run (check run) ((blameNodes? flags s' t' source target).seeing τ)
        ⟨τ, w.checker⟩ = r at ordinary
      obtain ⟨blame, w'⟩ := r
      cases blame with
      | none => exact ⟨rfl, rfl⟩
      | some blame => exact ordinary blame rfl
  · exact .inl ⟨rfl, rfl⟩

/-! ## §3. What is reported -/

namespace Inquire

/-- Explaining reports a brand only where layers lead to the lack of it. -/
def Reports (run : Runner ρ) (b : Atom) (explain : Handle → Handle → Inquire ρ Reason) : Prop :=
  ∀ s t w, (explain s t w).1.lackedBrand? = some b → Store.LacksBrand run b w.store s t

variable {explain : Handle → Handle → Inquire ρ Reason}

/-- A brand that is reported for a pair is lacking here, or it is reported for the next layer. -/
theorem Reports.describe (resolvers : run.Evolves) (explains : Reports run b explain) :
    Reports run b (describe run explain) := by
  intro s t w reported
  have sort : (inquire run (Query.blame w.checker.flags s t) w).1.Ordinary _ ∨ _ :=
    Query.inquire_blame w.checker.flags s t w
  rw [describe_apply] at reported
  generalize inquire run (Query.blame w.checker.flags s t) w = r at reported sort
  obtain ⟨blame, w'⟩ := r
  rcases sort with ordinary | ⟨s', t', resolved, brands⟩
  · -- what is ordinary reports no brand, be it that of a part
    cases blame with
    | reason r =>
      change r.lackedBrand? = some b at reported
      rw [ordinary.lackedBrand?] at reported
      cases reported
    | part x y around =>
      change (around (explain x y w').1).lackedBrand? = some b at reported
      rw [ordinary.2.lackedBrand?] at reported
      cases reported
    | endless => cases reported
  · cases brands with
    | same hs ht => exact .same resolved hs ht (explains _ _ w' reported)
    | deeper hs ht other carried =>
      exact .deeper resolved hs ht other ((Store.onBases_iff carried).2 rfl)
        (explains _ _ w' reported)
    | lacking other ht lacks =>
      obtain rfl := Option.some.inj reported
      exact .here resolved ht fun found =>
        Bool.false_ne_true ((Store.onBases_iff lacks).1 found)
    | bare _ ht unbranded =>
      -- the target has no brand, then or later
      have never := resolved.neverBranded ht unbranded
      obtain ⟨x, y, τ, g, c, ⟨φ, hx, hy⟩, hn⟩ := (explains _ _ w' reported).branded
      refine absurd ?_ (never φ (Store.grows_of_resolve resolvers hx) g c)
      rw [hy]
      exact hn
    | endless => cases reported

/-- Counting the level of an explanation changes nothing in what it reports. -/
theorem Reports.counted (describes : Reports run b explain) : Reports run b (counted explain) := by
  intro s t w reported
  rcases Nat.lt_or_ge w.checker.explaining.depth w.checker.explaining.limit with room | full
  · rw [counted_of_lt room] at reported
    exact describes s t (descended w) reported
  · rw [counted_of_le full] at reported
    cases reported

/-- Explanations report the brand that is lacked, at every number of levels. -/
theorem reports_explainWithin (resolvers : run.Evolves) (levels : Nat) :
    Reports run b (explainWithin run levels) := by
  induction levels with
  | zero => exact Reports.counted fun _ _ _ reported => nomatch reported
  | succ levels ih => exact (ih.describe resolvers).counted

end Inquire

/-- **A BRAND THAT IS REPORTED IS LACKING**, in whatever store, whatever the checker compared before and
whether or not it hit a limit: layer by layer the two sides come to a brand of the target that is on
no base of the source.  Where the target has one layer of brands, the source itself does not have the
brand.

The bases of a branded node end where one is not branded, be it lazy.  Nothing is said of the brands
that such a node stands for. -/
theorem explained_brand (run : Runner ρ) (resolvers : run.Evolves) (σ : Store ρ) (c : Checker)
    (s t : Handle) (other : Option Atom) (b : Atom)
    (explained : (Inquire.explain? run s t ⟨σ, c⟩).1 = some (.brandMismatch other b)) :
    let υ := (check run s t ⟨σ, c⟩).2.store
    Store.LacksBrand run b υ s t ∧
      ∀ s' t' τ base brand, Store.Resolves run υ s t s' t' τ →
        τ.node? t' = some (.branded base brand) → Store.NeverBranded run τ base →
        brand = b ∧ ¬ τ.OnBases b s' := by
  intro υ
  have lacks : Store.LacksBrand run b υ s t := by
    rw [Inquire.explain?_apply] at explained
    split at explained
    · cases explained
    · have reported := congrArg (Option.bind · Reason.lackedBrand?) explained
      change (Inquire.explainFailing run s t (check run s t ⟨σ, c⟩).2).1.lackedBrand? = some b
        at reported
      -- a checker that has hit its limits reports these and no brand
      cases cut : (check run s t ⟨σ, c⟩).2.checker.exceeded with
      | true => rw [Inquire.explainFailing_of_exceeded cut] at reported; cases reported
      | false =>
        rw [Inquire.explainFailing_of_within cut] at reported
        exact Inquire.reports_explainWithin resolvers _ s t _ reported
  exact ⟨lacks, fun s' t' τ base brand resolved ht once => lacks.single resolvers resolved ht once⟩

/-- A branded string, one with the same brand twice, a lazy node for the first and what has another
brand on that, and a literal with the first brand. -/
def brandedTwice : Listing Handle where
  nodes := [.branded Intrinsic.string.handle ⟨64⟩, .branded ⟨13⟩ ⟨64⟩, .lazy ⟨1⟩,
    .branded ⟨15⟩ ⟨128⟩, .literal (.string ⟨192⟩), .branded ⟨17⟩ ⟨64⟩]
  definitions := [⟨some ⟨13⟩, none⟩]

/-- The explanations of the listed pairs name the brand that is missing. -/
theorem lackedBrand?_brandedTwice (s t : Handle)
    (pair : (s, t) ∈ [((⟨13⟩ : Handle), (⟨14⟩ : Handle)), (Intrinsic.string.handle, ⟨13⟩),
      (⟨16⟩, ⟨18⟩)]) :
    ∃ other, (Inquire.explain? pure s t ⟨brandedTwice.store, .new {}⟩).1
      = some (.brandMismatch other ⟨64⟩) := by
  obtain ⟨whole, -⟩ := explain?_eq_snapshot pure {} brandedTwice.store [] s t
  have value : (Inquire.explain? pure s t ⟨brandedTwice.store, .new {}⟩).1.bind
      Reason.lackedBrand? = some ⟨64⟩ := by
    change (Inquire.explain? pure s t ⟨brandedTwice.store, .new {}⟩).1 = _ at whole
    rw [whole]
    simp only [List.mem_cons, List.not_mem_nil, or_false, Prod.mk.injEq] at pair
    rcases pair with ⟨rfl, rfl⟩ | ⟨rfl, rfl⟩ | ⟨rfl, rfl⟩ <;> decide +kernel
  obtain ⟨reason, explained, lacked⟩ := Option.bind_eq_some_iff.1 value
  cases reason with
  | brandMismatch other brand =>
    obtain rfl := Option.some.inj lacked
    exact ⟨other, explained⟩
  | _ => cases lacked

/-- The branded string lacks the brand below the one that both have, and the string lacks it itself. -/
theorem explained_brandedTwice :
    let σ := brandedTwice.store
    ((∃ other, (Inquire.explain? pure ⟨13⟩ ⟨14⟩ ⟨σ, .new {}⟩).1
        = some (.brandMismatch other ⟨64⟩)) ∧
      Store.LacksBrand pure ⟨64⟩ (check pure ⟨13⟩ ⟨14⟩ ⟨σ, .new {}⟩).2.store ⟨13⟩ ⟨14⟩) ∧
    ((∃ other, (Inquire.explain? pure Intrinsic.string.handle ⟨13⟩ ⟨σ, .new {}⟩).1
        = some (.brandMismatch other ⟨64⟩)) ∧
      ¬ (check pure Intrinsic.string.handle ⟨13⟩ ⟨σ, .new {}⟩).2.store.OnBases ⟨64⟩
        Intrinsic.string.handle) := by
  intro σ
  have resolvers : Runner.Evolves (pure : Runner Handle) := fun _ τ => .refl τ
  obtain ⟨other, twice⟩ := lackedBrand?_brandedTwice ⟨13⟩ ⟨14⟩ (by decide)
  obtain ⟨other', once⟩ := lackedBrand?_brandedTwice Intrinsic.string.handle ⟨13⟩ (by decide)
  -- the nodes are there still once the string has been compared
  have grows : σ.Grows (check pure Intrinsic.string.handle ⟨13⟩ ⟨σ, .new {}⟩).2.store :=
    (Store.evolves_carryOut resolvers (.check (.new {}) Intrinsic.string.handle ⟨13⟩) σ).grows
  have string : σ.node? Intrinsic.string.handle = some (.intrinsic .string) := by decide +kernel
  have branded : σ.node? ⟨13⟩ = some (.branded Intrinsic.string.handle ⟨64⟩) := by decide +kernel
  refine ⟨⟨⟨other, twice⟩, (explained_brand pure resolvers σ (.new {}) ⟨13⟩ ⟨14⟩ other ⟨64⟩
    twice).1⟩, ⟨other', once⟩, ?_⟩
  exact ((explained_brand pure resolvers σ (.new {}) Intrinsic.string.handle ⟨13⟩ other' ⟨64⟩
    once).2 _ _ _ _ _ (.of_notLazy (grows.node? string) rfl (grows.node? branded) rfl)
    (grows.node? branded) (Store.neverBranded_of_node (grows.node? string) rfl nofun)).2

/-- A brand that the source has may be reported all the same: one that both had on top, and one behind
a lazy base, which the rule for brands comes to. -/
theorem carried_brand_reported :
    let σ := brandedTwice.store
    (σ.OnBases ⟨64⟩ ⟨13⟩ ∧ σ.node? ⟨14⟩ = some (.branded ⟨13⟩ ⟨64⟩) ∧
      (Store.relate pure {} .assignable ⟨13⟩ ⟨14⟩ σ).1 = ⟨.assignable, false, false⟩ ∧
      (Inquire.explain? pure ⟨13⟩ ⟨14⟩ ⟨σ, .new {}⟩).2.checker.exceeded = false ∧
      ∃ other, (Inquire.explain? pure ⟨13⟩ ⟨14⟩ ⟨σ, .new {}⟩).1
        = some (.brandMismatch other ⟨64⟩)) ∧
    (σ.node? ⟨16⟩ = some (.branded ⟨15⟩ ⟨128⟩) ∧ (Store.resolve pure ⟨15⟩ σ).1 = ⟨13⟩ ∧
      σ.node? ⟨18⟩ = some (.branded ⟨17⟩ ⟨64⟩) ∧
      (Store.relate pure {} .assignable ⟨16⟩ ⟨13⟩ σ).1 = ⟨.assignable, true, false⟩ ∧
      (Store.relate pure {} .assignable ⟨16⟩ ⟨18⟩ σ).1 = ⟨.assignable, false, false⟩ ∧
      (Inquire.explain? pure ⟨16⟩ ⟨18⟩ ⟨σ, .new {}⟩).2.checker.exceeded = false ∧
      ∃ other, (Inquire.explain? pure ⟨16⟩ ⟨18⟩ ⟨σ, .new {}⟩).1
        = some (.brandMismatch other ⟨64⟩)) := by
  intro σ
  have branded : σ.node? ⟨13⟩ = some (.branded Intrinsic.string.handle ⟨64⟩) := by decide +kernel
  obtain ⟨-, limit⟩ := explain?_eq_snapshot pure {} σ [] ⟨13⟩ ⟨14⟩
  obtain ⟨-, limit'⟩ := explain?_eq_snapshot pure {} σ [] ⟨16⟩ ⟨18⟩
  refine ⟨⟨.here branded, by decide +kernel, ?_, limit.trans (by decide +kernel),
      lackedBrand?_brandedTwice ⟨13⟩ ⟨14⟩ (by decide)⟩,
    by decide +kernel, by decide +kernel, by decide +kernel, ?_, ?_, limit'.trans (by decide +kernel),
    lackedBrand?_brandedTwice ⟨16⟩ ⟨18⟩ (by decide)⟩
  · rw [relate_eq_finding]
    decide +kernel
  · rw [relate_eq_finding]
    decide +kernel
  · rw [relate_eq_finding]
    decide +kernel

end Assignability
