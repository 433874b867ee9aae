/-
  Assignability.Proofs.Checker.Decided
  ────────────────────────────────────
  **WHAT IS DECIDED IS DECIDED IN LATER STORES.**

  A comparison that is repeated in a later store poses the same questions
  about keys, and each is answered as before.  So none is cut off there
  where none was at first (`Question.KeysDecided.later`).
-/
import Assignability.Proofs.Checker.Finding
import Assignability.Proofs.Checker.Replay

namespace Assignability

variable {ρ α : Type} {run : Runner ρ} {σ τ : Store ρ} {s t : Handle} {c : Checker}

/-! ## §1. Queries -/

section

variable {related : Handle → Handle → Inquire ρ Answer} {good : Store ρ → α → Prop}
  (asked : ∀ s t w, Store.Orderly run w.store → w.store.Has s → w.store.Has t →
    Repeated run (related s t) w)
include asked

/-- A question is answered as before in what became of the store when the query was done. -/
theorem replayed_question {next : Answer → Query ρ α} {w : Inquiry ρ}
    (hs : w.store.Has s) (ht : w.store.Has t) (hn : ∀ a, (next a).Steady good σ)
    (later : σ.Extends w.store) (ho : Store.Orderly run w.store)
    (onward : (answer run related (next (related s t w).1) (related s t w).2).2.store.Extends τ) :
    (related s t w).2.store.Extends τ ∧ Replayed (related s t) w.checker w.store τ := by
  have first := asked s t w ho hs ht
  have rest := repeated_answer asked (hn (related s t w).1) (related s t w).2
    (later.trans first.later) first.orderly
  have after := rest.later.trans onward
  exact ⟨after, first.replayed after⟩

/-- Where the questions of a query stay decided, so does the query. -/
theorem Query.KeysDecided.later {decided : Handle → Handle → Inquiry ρ → Prop} {q : Query ρ α}
    (stays : ∀ s t w, Store.Orderly run w.store → w.store.Has s → w.store.Has t →
      (related s t w).2.store.Extends τ → decided s t w → decided s t ⟨τ, w.checker⟩)
    (hq : q.Steady good σ) : ∀ w, σ.Extends w.store → Store.Orderly run w.store →
      (answer run related q w).2.store.Extends τ → q.KeysDecided run related decided w →
      q.KeysDecided run related decided ⟨τ, w.checker⟩ := by
  -- On the steady query: a question that is replayed in the later store gives the same answer and
  -- leaves the same checker, so the rest goes on from where it did.
  induction hq with
  | done _ => exact fun _ _ _ _ _ => trivial
  | @ask _ s t _ hs ht hn ih =>
    intro w later ho onward h
    have first := asked s t w ho (later.has hs) (later.has ht)
    obtain ⟨after, again⟩ :=
      replayed_question asked (later.has hs) (later.has ht) hn later ho onward
    refine ⟨stays s t w ho (later.has hs) (later.has ht) after h.1, ?_⟩
    rw [again]
    exact ih _ _ (later.trans first.later) first.orderly onward h.2
  | @askKeys _ s t _ hs ht hn ih =>
    intro w later ho onward h
    have first := asked s t w ho (later.has hs) (later.has ht)
    obtain ⟨after, again⟩ :=
      replayed_question asked (later.has hs) (later.has ht) hn later ho onward
    refine ⟨stays s t w ho (later.has hs) (later.has ht) after h.1, ?_⟩
    rw [again]
    exact ⟨h.2.1, ih _ _ (later.trans first.later) first.orderly onward h.2.2⟩
  -- what is resolved may build; the rest runs in the store that is left
  | @resolve _ g next hg hn ih =>
    intro w later ho onward h
    have first := Store.repeats_resolve ho (later.has hg)
    have onset := later.trans first.later
    have rest := repeated_answer asked
      (hn (Store.resolve run g w.store).2 (Store.resolve run g w.store).1 onset
        first.orderly.whole first.gives)
      ⟨(Store.resolve run g w.store).2, w.checker⟩ (.refl _) first.orderly
    show (next (Store.resolve run g τ).1).KeysDecided run related decided
      ⟨(Store.resolve run g τ).2, w.checker⟩
    rw [first.again τ (rest.later.trans onward)]
    exact ih _ _ onset first.orderly.whole first.gives
      ⟨(Store.resolve run g w.store).2, w.checker⟩ (.refl _) first.orderly onward h
  -- what is looked at is the same in every later store
  | @look _ next same hn ih =>
    intro w later ho onward h
    have here : next w.store = next _ := same _ later
    change (answer run related (next w.store) w).2.store.Extends τ at onward
    change (next w.store).KeysDecided run related decided w at h
    rw [here] at onward h
    have grown := (repeated_answer asked hn w later ho).later
    show (next τ).KeysDecided run related decided ⟨τ, w.checker⟩
    rw [same τ (later.trans (grown.trans onward))]
    exact ih w later ho onward h

end

/-! ## §2. Comparisons -/

/-- In a later store the rule for a pair is looked at where it was before, with the same checker. -/
theorem Inquiry.opens?_later (hs : σ.Has s) (ht : σ.Has t) (later : σ.Extends τ) :
    (⟨τ, c⟩ : Inquiry ρ).opens? s t
      = ((⟨σ, c⟩ : Inquiry ρ).opens? s t).map fun w => ⟨τ, w.checker⟩ := by
  have known : (⟨τ, c⟩ : Inquiry ρ).known? s t = (⟨σ, c⟩ : Inquiry ρ).known? s t := by
    unfold Inquiry.known?
    rw [atOnce?_congr (later.node?_eq hs) (later.node?_eq ht)]
  have enters : ∀ υ : Store ρ, Inquire.update (Checker.enter (s, t)) (⟨υ, c⟩ : Inquiry ρ)
      = ((c.enter (s, t)).1, ⟨υ, (c.enter (s, t)).2⟩) := fun _ => rfl
  unfold Inquiry.opens?
  rw [known, enters, enters]
  cases (⟨σ, c⟩ : Inquiry ρ).known? s t with
  | some b => rfl
  | none =>
    obtain ⟨entry, c'⟩ := c.enter (s, t)
    cases entry <;> rfl

/-- Where the rule for a pair is looked at, that is done in the same store, and what it leaves behind
is what the comparison does. -/
theorem store_of_opens? (step : Flags → Handle → Handle → Inquire ρ Answer) {w w' : Inquiry ρ}
    (opens : w.opens? s t = some w') : w'.store = w.store ∧
      (compareWith step s t w).2.store = (step w'.checker.flags s t w').2.store := by
  have way := compared step s t w
  generalize compareWith step s t w = r at way
  cases way with
  | known _ none | cycle none _ | refused none =>
    rw [none] at opens
    cases opens
  | entered _ some _ _ =>
    obtain rfl := Option.some.inj (some.symm.trans opens)
    exact ⟨rfl, rfl⟩

/-- Key questions that were not cut off are not cut off in a later store either. -/
theorem KeysDecidedWithin.later (levels : Nat) : ∀ (s t : Handle) (w : Inquiry ρ),
    Store.Orderly run w.store → w.store.Has s → w.store.Has t →
    (compareWithin run levels s t w).2.store.Extends τ →
    KeysDecidedWithin run levels s t w → KeysDecidedWithin run levels s t ⟨τ, w.checker⟩ := by
  -- on the levels; if the pair opens later, it opened before, in the same checker
  induction levels with
  | zero => exact fun _ _ _ _ _ _ _ _ => trivial
  | succ levels ih =>
    intro s t ⟨σ, c⟩ ho hs ht onward h w' opens'
    have grown := (repeated_compareWithin (levels + 1) s t ⟨σ, c⟩ ho hs ht).later.trans onward
    rw [Inquiry.opens?_later hs ht grown, Option.map_eq_some_iff] at opens'
    obtain ⟨⟨σ', c'⟩, opens, rfl⟩ := opens'
    obtain ⟨rfl, store⟩ := store_of_opens?
      (fun flags s t => answer run (compareWithin run levels) (Query.step flags s t)) opens
    change (compareWithin run (levels + 1) s t ⟨σ', c⟩).2.store = _ at store
    rw [store] at onward
    exact (h _ opens).later (repeated_compareWithin levels) ih
      (Query.runs_step c'.flags ho.whole hs ht) ⟨σ', c'⟩ (.refl σ') ho onward

/-- So it is for a comparison with all its levels. -/
theorem KeysDecided.later {w : Inquiry ρ} (ho : Store.Orderly run w.store) (hs : w.store.Has s)
    (ht : w.store.Has t) (onward : (check run s t w).2.store.Extends τ)
    (h : KeysDecided run s t w) : KeysDecided run s t ⟨τ, w.checker⟩ :=
  KeysDecidedWithin.later _ s t w ho hs ht onward h

/-- **WHAT IS DECIDED IS DECIDED IN LATER STORES.** -/
theorem Question.KeysDecided.later {kind : Question} {w : Inquiry ρ}
    (ho : Store.Orderly run w.store) (hs : w.store.Has s) (ht : w.store.Has t)
    (onward : (Store.holds run kind s t w).2.store.Extends τ)
    (h : kind.KeysDecided run s t w) : kind.KeysDecided run s t ⟨τ, w.checker⟩ := by
  have first : Repeated run (check run s t) w := repeated_check ho hs ht
  -- the opposite direction is asked only if the pair holds, in the store that this leaves
  have grown : (check run s t w).2.store.Extends (Store.holds run kind s t w).2.store := by
    cases kind with
    | assignable => exact .refl _
    | identical =>
      rw [holds_identical]
      split
      · exact (repeated_check first.orderly (first.later.has ht) (first.later.has hs)).later
      · exact .refl _
  have again : check run s t ⟨τ, w.checker⟩ = _ := first.replayed (grown.trans onward)
  refine ⟨h.1.later ho hs ht (grown.trans onward), fun both related => ?_⟩
  rw [again] at related ⊢
  have second := h.2 both related
  refine second.later first.orderly (first.later.has ht) (first.later.has hs) ?_
  subst both
  rwa [holds_identical, if_pos related] at onward

end Assignability
