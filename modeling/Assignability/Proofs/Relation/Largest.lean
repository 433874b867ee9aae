/-
  Assignability.Proofs.Relation.Largest
  ─────────────────────────────────────
  **THE LARGEST RELATION THAT THE RULES JUSTIFY.**

  A relation is consistent when the rules justify every pair of it, with
  their questions answered by the relation itself.  The pairs that fit are
  those of the largest consistent relation (`View.Fits`), so pairs of
  recursive descriptors fit where no rule speaks against them.  Key types
  are compared on their own, to whatever depth that takes
  (`View.keysFit`).

  Main statements:
    • `fits_iff` — a pair fits where the rules justify it,
    • `FitsUpTo.accumulate` — a pair may be assumed while its rule is
      looked at,
    • `FitsUpTo.of_apart` — assumptions that no question leads to are of
      no account,
    • `fitsWithin_eq_fits` — without recursion a bounded comparison gives
      the same.
-/
import Assignability.Proofs.Relation.Rules

namespace Assignability.View

variable {ρ : Type} (v : View ρ)

/-! ## §1. Consistent relations -/

/-- Whether a pair holds at once or by its rule, where `fits` answers the questions of the rule and
`keys` those about keys. -/
def justifies (keys fits : Handle → Handle → Bool) (s t : Handle) : Bool :=
  match v.store.atOnce? v.flags s t with
  | some b => b
  | none => ((Query.step v.flags s t).eval v keys fits).isTrue

/-- Whether a pair holds within a number of levels. -/
def fitsWithin : Nat → Handle → Handle → Bool
  | 0 => fun _ _ => false
  | levels + 1 => v.justifies (fitsWithin levels) (fitsWithin levels)

open Classical in
/-- Whether a key type fits another: it does from some number of levels on. -/
noncomputable def keysFit (s t : Handle) : Bool :=
  decide (∃ n, ∀ m, n ≤ m → v.fitsWithin m s t = true)

/-- The rules justify every pair of a relation by the relation itself. -/
def Consistent (R : Handle → Handle → Bool) : Prop :=
  ∀ a b, R a b = true → v.justifies v.keysFit R a b = true

/-- The largest consistent relation. -/
def Fits (s t : Handle) : Prop := ∃ R, v.Consistent R ∧ R s t = true

/-- The largest relation that is consistent but for the pairs of `B`, which are taken for
granted. -/
def FitsUpTo (B : Handle → Handle → Prop) (s t : Handle) : Prop :=
  ∃ R : Handle → Handle → Bool, R s t = true ∧
    ∀ a b, R a b = true → B a b ∨ v.justifies v.keysFit R a b = true

open Classical in
/-- `Fits` as a test. -/
noncomputable def fits (s t : Handle) : Bool := decide (v.Fits s t)

open Classical in
/-- `FitsUpTo` as a test. -/
noncomputable def fitsUpTo (B : Handle → Handle → Prop) (s t : Handle) : Bool :=
  decide (v.FitsUpTo B s t)

variable {v} {s t a b : Handle} {B : Handle → Handle → Prop}

/-- The test of the largest relation decides it. -/
@[simp] theorem fits_eq_true : v.fits s t = true ↔ v.Fits s t := by
  simp [fits]

/-- The test of what fits up to a relation decides that. -/
@[simp] theorem fitsUpTo_eq_true : v.fitsUpTo B s t = true ↔ v.FitsUpTo B s t := by
  simp [fitsUpTo]

/-! ## §2. More pairs justify more -/

/-- More pairs justify more, as long as the key questions are answered alike. -/
theorem justifies_mono {keys keys' fits fits' : Handle → Handle → Bool}
    (hk : ∀ a b, v.PosesKeys s t a b → keys a b = keys' a b)
    (hf : ∀ a b, v.Poses s t a b → fits a b = true → fits' a b = true)
    (h : v.justifies keys fits s t = true) : v.justifies keys' fits' s t = true := by
  unfold justifies at *
  split
  · next h' => rw [h'] at h; exact h
  · next h' =>
    rw [h'] at h
    exact (Query.positive_step v.flags s t).eval_mono hk hf h

/-- Only what a pair can ask for counts in its justification. -/
theorem justifies_congr {keys keys' fits fits' : Handle → Handle → Bool}
    (hk : ∀ a b, v.PosesKeys s t a b → keys a b = keys' a b)
    (hf : ∀ a b, v.Poses s t a b → fits a b = fits' a b) :
    v.justifies keys fits s t = v.justifies keys' fits' s t := by
  rw [Bool.eq_iff_iff]
  constructor
  · exact justifies_mono hk fun a b hp h => by rw [← hf a b hp, h]
  · exact justifies_mono (fun a b hp => (hk a b hp).symm) fun a b hp h => by rw [hf a b hp, h]

/-! ## §3. The pairs that fit -/

/-- The largest relation is consistent itself. -/
theorem consistent_fits : v.Consistent v.fits := by
  intro a b hab
  obtain ⟨R, hR, hab⟩ := fits_eq_true.1 hab
  refine justifies_mono (fun _ _ _ => rfl) (fun x y _ hxy => ?_) (hR a b hab)
  exact fits_eq_true.2 ⟨R, hR, hxy⟩

/-- **A PAIR FITS WHERE THE RULES JUSTIFY IT**, and nowhere else. -/
theorem fits_iff : v.Fits s t ↔ v.justifies v.keysFit v.fits s t = true := by
  constructor
  · intro h
    exact consistent_fits s t (fits_eq_true.2 h)
  · intro h
    -- what the pairs that fit justify is consistent itself
    refine ⟨v.justifies v.keysFit v.fits, fun a b hab => ?_, h⟩
    exact justifies_mono (fun _ _ _ => rfl) (fun x y _ hxy => consistent_fits x y hxy) hab

/-- What is decided at once is so in the largest relation. -/
theorem fits_of_atOnce? {b : Bool} (h : v.store.atOnce? v.flags s t = some b) :
    v.Fits s t ↔ b = true := by
  rw [fits_iff]
  unfold justifies
  rw [h]

/-- Any other pair fits where one step of the rules holds of what fits. -/
theorem fits_iff_step (h : v.store.atOnce? v.flags s t = none) :
    v.Fits s t ↔ ((Query.step v.flags s t).eval v v.keysFit v.fits).isTrue = true := by
  rw [fits_iff]
  unfold justifies
  rw [h]

/-! ## §4. Pairs taken for granted -/

/-- What fits does so up to anything that is granted. -/
theorem Fits.upTo (h : v.Fits s t) : v.FitsUpTo B s t := by
  obtain ⟨R, hR, hst⟩ := h
  exact ⟨R, hst, fun a b hab => .inr (hR a b hab)⟩

/-- What is granted fits up to it. -/
theorem FitsUpTo.granted (h : B s t) : v.FitsUpTo B s t := by
  refine ⟨fun a b => decide (a = s ∧ b = t), by simp, fun a b hab => .inl ?_⟩
  obtain ⟨rfl, rfl⟩ := of_decide_eq_true hab
  exact h

/-- The more is granted, the more fits up to it. -/
theorem FitsUpTo.mono {C : Handle → Handle → Prop} (hBC : ∀ a b, B a b → C a b)
    (h : v.FitsUpTo B s t) : v.FitsUpTo C s t := by
  obtain ⟨R, hst, hR⟩ := h
  exact ⟨R, hst, fun a b hab => (hR a b hab).imp_left (hBC a b)⟩

/-- **A PAIR MAY BE ASSUMED WHILE ITS RULE IS LOOKED AT.** -/
theorem FitsUpTo.accumulate {C : Handle → Handle → Prop}
    (hBC : ∀ a b, C a b → B a b ∨ a = s ∧ b = t)
    (h : v.justifies v.keysFit (v.fitsUpTo C) s t = true) : v.FitsUpTo B s t := by
  -- the pair itself, and all that fits where it is granted
  refine ⟨fun a b => v.fitsUpTo C a b || decide (a = s ∧ b = t), by simp, fun a b hab => ?_⟩
  have self : v.justifies v.keysFit
      (fun a b => v.fitsUpTo C a b || decide (a = s ∧ b = t)) s t = true :=
    justifies_mono (fun _ _ _ => rfl) (fun x y _ hxy => by rw [hxy]; rfl) h
  rcases Bool.or_eq_true_iff.1 hab with hab | hab
  · obtain ⟨R, hab, hR⟩ := fitsUpTo_eq_true.1 hab
    rcases hR a b hab with hC | hj
    · rcases hBC a b hC with hB | ⟨rfl, rfl⟩
      · exact .inl hB
      · exact .inr self
    · refine .inr (justifies_mono (fun _ _ _ => rfl) (fun x y _ hxy => ?_) hj)
      rw [fitsUpTo_eq_true.2 ⟨R, hxy, hR⟩]
      rfl
  · obtain ⟨rfl, rfl⟩ := of_decide_eq_true hab
    exact .inr self

/-! ## §5. Where questions lead -/

/-- A pair and a question that it poses. -/
def Posed (v : View ρ) (p q : Handle × Handle) : Prop := v.Poses p.1 p.2 q.1 q.2

/-- A pair and one that its questions lead to, or it itself. -/
def Leads (v : View ρ) : Handle × Handle → Handle × Handle → Prop :=
  Relation.ReflTransGen v.Posed

open Classical in
/-- Pairs that are granted are of no account where no question leads to them. -/
theorem FitsUpTo.of_apart (apart : ∀ a b, v.Leads (s, t) (a, b) → ¬ B a b)
    (h : v.FitsUpTo B s t) : v.Fits s t := by
  obtain ⟨R, hst, hR⟩ := h
  -- what the questions lead to is consistent by itself
  refine ⟨fun a b => R a b && decide (v.Leads (s, t) (a, b)), fun a b hab => ?_, ?_⟩
  · obtain ⟨hab, hl⟩ := Bool.and_eq_true_iff.1 hab
    have hl := of_decide_eq_true hl
    refine justifies_mono (fun _ _ _ => rfl) (fun x y hp hxy => ?_)
      ((hR a b hab).resolve_left (apart a b hl))
    have onward : v.Leads (s, t) (x, y) := Relation.ReflTransGen.tail hl hp
    rw [hxy, decide_eq_true onward]
    rfl
  · show (R s t && decide (v.Leads (s, t) (s, t))) = true
    rw [hst, decide_eq_true (show v.Leads (s, t) (s, t) from .refl)]
    rfl

/-- Up to nothing, only what fits at all does. -/
theorem FitsUpTo.of_none (none : ∀ a b, ¬ B a b) (h : v.FitsUpTo B s t) : v.Fits s t :=
  h.of_apart fun a b _ => none a b

/-! ## §6. Without recursion -/

/-- Key types that nest finitely deep fit as the largest relation has it. -/
theorem keysFit_eq_fits {n : Nat} (h : ∀ k, n < k → v.fitsWithin k s t = v.fits s t) :
    v.keysFit s t = v.fits s t := by
  rw [Bool.eq_iff_iff]
  unfold keysFit
  simp only [decide_eq_true_eq]
  constructor
  · rintro ⟨m, hm⟩
    rw [← h (max m (n + 1)) (by omega)]
    exact hm _ (by omega)
  · intro hf
    exact ⟨n + 1, fun m hm => by rw [h m (by omega), hf]⟩

/-- **WITHOUT RECURSION A BOUNDED COMPARISON GIVES THE SAME**, once it has as many levels as the
two sides nest deep. -/
theorem fitsWithin_eq_fits {n : Nat} : ∀ {s t : Handle}, v.NestsTogether n s t →
    ∀ k, n < k → v.fitsWithin k s t = v.fits s t := by
  -- on how deep the two sides nest together; every question nests less deep
  induction n using Nat.strongRecOn with
  | _ n ih =>
    intro s t hst k hk
    obtain ⟨k, rfl⟩ : ∃ m, k = m + 1 := ⟨k - 1, by omega⟩
    have below : ∀ a b, v.Poses s t a b →
        v.fitsWithin k a b = v.fits a b ∧ v.keysFit a b = v.fits a b := by
      intro a b hp
      obtain ⟨m, hm, hab⟩ := hst.poses hp
      exact ⟨ih m hm hab k (by omega), keysFit_eq_fits (ih m hm hab)⟩
    rw [Bool.eq_iff_iff, fits_eq_true, fits_iff, ← Bool.eq_iff_iff]
    refine justifies_congr (fun a b hp => ?_) fun a b hp => (below a b hp).1
    rw [(below a b hp.poses).1, (below a b hp.poses).2]

/-- For two finite types the levels of key questions do not matter. -/
theorem keysFit_eq_fits_of_isFinite (hs : v.IsFinite s) (ht : v.IsFinite t) :
    v.keysFit s t = v.fits s t := by
  obtain ⟨i, hs⟩ := hs
  obtain ⟨j, ht⟩ := ht
  exact keysFit_eq_fits (fitsWithin_eq_fits ⟨i, j, rfl, hs, ht⟩)

/-- Whatever a pair leads to nests less deep than the pair. -/
theorem NestsTogether.leads_lt {n : Nat} {p q : Handle × Handle} (h : v.NestsTogether n p.1 p.2)
    (hl : Relation.TransGen v.Posed p q) : ∃ m, m < n ∧ v.NestsTogether m q.1 q.2 := by
  induction hl with
  | single hp => exact h.poses hp
  | tail _ hp ih =>
    obtain ⟨m, hm, hq⟩ := ih
    obtain ⟨k, hk, hr⟩ := hq.poses hp
    exact ⟨k, by omega, hr⟩

/-- The questions of a pair that is not recursive never lead back to it. -/
theorem NestsTogether.not_leads_back {n : Nat} {p : Handle × Handle}
    (h : v.NestsTogether n p.1 p.2) : ¬ Relation.TransGen v.Posed p p := by
  induction n using Nat.strongRecOn with
  | _ n ih =>
    intro hl
    obtain ⟨m, hm, hp⟩ := h.leads_lt hl
    exact ih m hm hp hl

/-! ## §7. Pairs of nodes -/

variable {source target : Node}

/-- The handle of a node that is no built-in type is none of theirs. -/
theorem ne_handle_of_node (hs : v.store.node? s = some source) (h : source.kind ≠ .intrinsic)
    (k : Intrinsic) : s ≠ k.handle := by
  rintro rfl
  rw [v.store.node?_handle] at hs
  obtain rfl := Option.some.inj hs
  exact h rfl

/-- A source with parts fits at once what everything fits, and itself. -/
theorem atOnce?_of_node (hs : v.store.node? s = some source) (hi : source.kind ≠ .intrinsic)
    (hl : source.kind ≠ .literal) :
    v.store.atOnce? v.flags s t
      = if t = .unknown ∨ t = .any ∨ s = t then some true else none := by
  -- the table of leaves speaks of built-in types and literals on both sides
  have leaf : v.store.leafPair? s t = none := by
    unfold Store.leafPair?
    rw [hs]
    cases v.store.node? t with
    | none => rfl
    | some n =>
      cases source with
      | intrinsic k => exact absurd rfl hi
      | literal l => exact absurd rfl hl
      | _ => cases n <;> rfl
  have h₁ : s ≠ .never := ne_handle_of_node hs hi .never
  have h₂ : s ≠ .any := ne_handle_of_node hs hi .any
  unfold Store.atOnce?
  rw [leaf]
  by_cases hu : t = .unknown
  · simp [hu]
  · by_cases ha : t = .any
    · simp [ha]
    · simp [hu, ha, h₁, h₂]

/-- A source with parts is not decided at once against a target that is neither built in nor the
source. -/
theorem atOnce?_eq_none (hs : v.store.node? s = some source) (hi : source.kind ≠ .intrinsic)
    (hl : source.kind ≠ .literal) (ht : v.store.node? t = some target)
    (ti : target.kind ≠ .intrinsic) (other : s ≠ t) : v.store.atOnce? v.flags s t = none := by
  rw [atOnce?_of_node hs hi hl]
  refine if_neg fun h => ?_
  rcases h with h | h | h
  · exact ne_handle_of_node ht ti .unknown h
  · exact ne_handle_of_node ht ti .any h
  · exact other h

/-- The step between two nodes that are not lazy evaluates to the rules for the nodes. -/
theorem eval_step_of_nodes (hs : v.store.node? s = some source) (ht : v.store.node? t = some target)
    (ls : source.isLazy = false) (lt : target.isLazy = false) (keys fits : Handle → Handle → Bool) :
    (Query.step v.flags s t).eval v keys fits
      = (Query.nodes v.flags s t source target).eval v keys fits := by
  unfold Query.step
  rw [Query.bind_eq, Query.eval_bind, Query.eval_store, hs, ht]
  dsimp only
  rw [ls, lt]
  rfl

/-- A pair of nodes that is not decided at once fits by the rule for the nodes. -/
theorem fits_iff_nodes (h : v.store.atOnce? v.flags s t = none)
    (hs : v.store.node? s = some source) (ht : v.store.node? t = some target)
    (ls : source.isLazy = false) (lt : target.isLazy = false) :
    v.Fits s t
      ↔ ((Query.nodes v.flags s t source target).eval v v.keysFit v.fits).isTrue = true := by
  rw [fits_iff_step h, eval_step_of_nodes hs ht ls lt]

/-- A handle that names nothing is fit by what fits at once alone. -/
theorem not_fits_of_no_node (h : v.store.atOnce? v.flags s t = none)
    (ht : v.store.node? t = none) : ¬ v.Fits s t := by
  rw [fits_iff_step h]
  unfold Query.step
  rw [Query.bind_eq, Query.eval_bind, Query.eval_store, ht]
  split
  · next h' => cases h'
  · rw [Query.pure_eq, Query.eval_done]
    decide

end Assignability.View
