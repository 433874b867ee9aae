/-
  Assignability.Proofs.Diagnosis.Kept
  ───────────────────────────────────
  **A KEPT CHECKER EXPLAINS LIKE A NEW ONE.**

  A checker that is kept has verdicts, and knows whether it hit a limit.
  All that it did can be done again in one store in which nothing is left
  to be resolved (`Store.Begun.replayed`), and there its verdicts are right
  as long as it hit no limit (`InUse.ready`).  So its explanations are
  those of a new checker, until a limit was hit: from then on it reports
  the limit for every pair that fails.

  Main statement: `explain?_of_inUse`.
-/
import Assignability.Proofs.Checker.Equivalence
import Assignability.Proofs.Diagnosis.Right
import Assignability.Proofs.Diagnosis.Snapshot
import Assignability.Proofs.Diagnosis.Steady
import Assignability.Proofs.Relation.KeyType

namespace Assignability

variable {ρ α : Type} {run : Runner ρ} {policy : Policy} {σ ω : Store ρ} {s t : Handle}
  {c : Checker} {work : Inquire ρ α}

/-! ## §1. Work at some time -/

/-- A checker began its work on a pair in the store `σ`, and `ω` is what became of that: an orderly
store grew with this work and later on; or `ω` is the store as it is now, and nothing in it is left
to be resolved.

So resolvers may be carried out on the way as long as they do not define nodes that were declared
before, and all that is spoken of is there.  In a store at rest anything goes. -/
inductive Store.Begun (run : Runner ρ) (ω : Store ρ) (work : Inquire ρ α) (s t : Handle)
    (c : Checker) : Store ρ → Prop
  | earlier {σ : Store ρ} (orderly : Orderly run σ) (hs : σ.Has s) (ht : σ.Has t)
    (later : (work ⟨σ, c⟩).2.store.Extends ω) : Begun run ω work s t c σ
  | now (rest : ∀ h, ω.Quiescent h) : Begun run ω work s t c ω

/-- Work on a pair that comes to the same in later stores, and builds nothing where nothing is left
to be resolved. -/
structure Repeatable (run : Runner ρ) (work : Inquire ρ α) (s t : Handle) : Prop where
  repeated : ∀ w, Store.Orderly run w.store → w.store.Has s → w.store.Has t → Repeated run work w
  settled : ∀ w, (∀ h, w.store.Quiescent h) → (work w).2.store = w.store

/-- Nothing at rest changes the store when it is resolved. -/
theorem Store.resolve_snd_of_quiescent {h : Handle} (rest : σ.Quiescent h) :
    (resolve run h σ).2 = σ := by
  have tame : (View.of run σ {}).Tame run h := rest.tame
  exact congrArg Prod.snd (tame.settled h (.refl h))

/-- A check can be repeated: at rest, or in a store that grew under it. -/
theorem repeatable_check (s t : Handle) : Repeatable run (check run s t) s t where
  repeated := fun _ ho hs ht => repeated_check ho hs ht
  settled := by
    intro w rest
    refine store_check (I := (· = w.store)) (fun h σ same => ?_) s t w rfl
    rw [same]
    exact Store.resolve_snd_of_quiescent (rest h)

/-- An explanation can be repeated in the same way. -/
theorem repeatable_explain? (s t : Handle) : Repeatable run (Inquire.explain? run s t) s t where
  repeated := fun _ ho hs ht => Inquire.repeated_explain? ho hs ht
  settled := by
    intro w rest
    refine (Inquire.lasts_store (I := (· = w.store)) fun h σ same => ?_).explain? s t w rfl
    rw [same]
    exact Store.resolve_snd_of_quiescent (rest h)

open Classical in
/-- The store when nothing more is resolved; itself where nothing is left to be resolved. -/
noncomputable def Store.rested (ω : Store ρ) : Store ρ :=
  if ∀ h, ω.Quiescent h then ω else ω.closed

/-- A store in which everything is at rest has nothing left to carry out. -/
theorem Store.rested_of_quiescent (rest : ∀ h, ω.Quiescent h) : ω.rested = ω := if_pos rest

/-- Carrying out what is left only adds to the store. -/
theorem Store.extends_rested (ω : Store ρ) : ω.Extends ω.rested := by
  unfold rested
  split
  · exact .refl ω
  · exact extends_closed ω

/-- With what was left carried out, everything is at rest. -/
theorem Store.quiescent_rested (keys : ∀ h, ω.KeysFinite h) (h : Handle) :
    ω.rested.Quiescent h := by
  unfold rested
  split
  · next rest => exact rest h
  · exact quiescent_closed (keys h)

/-- **ALL WORK CAN BE DONE AGAIN IN ONE STORE AT REST.** -/
theorem Store.Begun.replayed (begun : ω.Begun run work s t c σ)
    (repeatable : Repeatable run work s t) : Replayed work c σ ω.rested := by
  cases begun with
  | earlier ho hs ht later =>
    exact (repeatable.repeated ⟨σ, c⟩ ho hs ht).replayed (later.trans ω.extends_rested)
  | now rest =>
    rw [Store.rested_of_quiescent rest]
    exact .of_parts rfl rfl (repeatable.settled ⟨_, c⟩ rest)

/-! ## §2. Checkers in use -/

/-- A checker that compared and explained pairs, at one time or another before the store became what
it is. -/
inductive InUse (run : Runner ρ) (policy : Policy) (ω : Store ρ) : Checker → Prop
  | new : InUse run policy ω (.new policy)
  | checked {c : Checker} {σ : Store ρ} {s t : Handle} (used : InUse run policy ω c)
    (begun : ω.Begun run (check run s t) s t c σ) :
    InUse run policy ω (check run s t ⟨σ, c⟩).2.checker
  | explained {c : Checker} {σ : Store ρ} {s t : Handle} (used : InUse run policy ω c)
    (begun : ω.Begun run (Inquire.explain? run s t) s t c σ) :
    InUse run policy ω (Inquire.explain? run s t ⟨σ, c⟩).2.checker

namespace InUse

/-- Between its calls a checker is idle. -/
theorem isIdle (used : InUse run policy ω c) : c.IsIdle := by
  induction used with
  | new => exact Checker.isIdle_new policy
  | checked _ _ ih => exact (ih.check (w := ⟨_, _⟩) _ _).2
  | explained _ _ ih => exact Inquire.lasts_isIdle.explain? _ _ ⟨_, _⟩ ih

/-- A checker in use has the flags of its policy. -/
theorem flags (used : InUse run policy ω c) : c.flags = policy.flags := by
  induction used with
  | new => rfl
  | checked _ _ ih => exact (kept_check _ _ _).flags.trans ih
  | explained _ _ ih => exact (Inquire.kept_explain? _ _ _).flags.trans ih

/-- And at the top of its levels. -/
theorem atLevel (used : InUse run policy ω c) : Inquire.AtLevel (.new policy) c := by
  induction used with
  | new => exact ⟨rfl, rfl⟩
  | checked _ _ ih => exact ih.trans (Inquire.levels_check _ _ _)
  | explained _ _ ih => exact ih.trans (Inquire.levels_explain? _ _ _)

/-- **ALL VERDICTS OF A CHECKER IN USE ARE RIGHT** that hit no limit. -/
theorem ready (used : InUse run policy ω c) (keys : ∀ h, ω.KeysFinite h)
    (within : c.exceeded = false) :
    Ready (.of run ω.rested policy.flags) ⟨ω.rested, c⟩ := by
  have tame : ∀ h, (View.of run ω.rested policy.flags).Tame run h :=
    fun h => (Store.quiescent_rested keys h).tame
  -- on how the checker was used: each use is repeated in the rested store, where it changes
  -- nothing
  induction used with
  | new => exact ready_new run ω.rested policy
  | @checked c σ s t used begun ih =>
    have again : check run s t ⟨ω.rested, c⟩ = _ := begun.replayed (repeatable_check s t)
    have before := (kept_check s t ⟨σ, c⟩).within_limits within
    have next := (ih before).check (tame s) (tame t) (by rw [again]; exact within)
    rw [again] at next
    exact next.2
  | @explained c σ s t used begun ih =>
    have again : Inquire.explain? run s t ⟨ω.rested, c⟩ = _ :=
      begun.replayed (repeatable_explain? s t)
    have before := (Inquire.kept_explain? s t ⟨σ, c⟩).within_limits within
    have next := (ih before).explain? (tame s) (tame t) used.atLevel.1
      (by rw [again]; exact within)
    rw [again] at next
    exact next.2

end InUse

/-! ## §3. Explanations -/

/-- In use or new, a checker explains a pair by the largest relation where it hits no limit. -/
theorem Inquire.explain?_eq_reason? (used : InUse run policy ω c) (keys : ∀ h, ω.KeysFinite h)
    (begun : ω.Begun run (explain? run s t) s t c σ)
    (within : (explain? run s t ⟨σ, c⟩).2.checker.exceeded = false) :
    (explain? run s t ⟨σ, c⟩).1
      = (View.of run ω.rested policy.flags).reason? Limits.explaining.depth s t := by
  have again : explain? run s t ⟨ω.rested, c⟩ = _ := begun.replayed (repeatable_explain? s t)
  have before := (kept_explain? s t ⟨σ, c⟩).within_limits within
  have ready := used.ready keys before
  obtain ⟨top, limit⟩ := used.atLevel
  have explained := ready.explain? (Store.quiescent_rested keys s).tame
    (Store.quiescent_rested keys t).tame top (by rw [again]; exact within)
  rw [again] at explained
  rw [explained.1]
  exact congrArg (View.reason? _ · s t) limit

/-- **A KEPT CHECKER EXPLAINS LIKE A NEW ONE**, whatever it compared and explained before, where no key
type is recursive and neither hits a limit.  Once it has hit one, in whatever comparison, it reports
the limit for every pair that fails. -/
theorem explain?_of_inUse (run : Runner ρ) (policy : Policy) (ω : Store ρ)
    (keys : ∀ h, ω.KeysFinite h) (c : Checker) (used : InUse run policy ω c) (s t : Handle)
    (σ σ' : Store ρ) (begun : ω.Begun run (Inquire.explain? run s t) s t c σ)
    (begun' : ω.Begun run (Inquire.explain? run s t) s t (.new policy) σ') :
    ((Inquire.explain? run s t ⟨σ, c⟩).2.checker.exceeded = false →
      (Inquire.explain? run s t ⟨σ', .new policy⟩).2.checker.exceeded = false →
      (Inquire.explain? run s t ⟨σ, c⟩).1 = (Inquire.explain? run s t ⟨σ', .new policy⟩).1) ∧
    (c.exceeded = true →
      (Inquire.explain? run s t ⟨σ, c⟩).1 = none ∨
        (Inquire.explain? run s t ⟨σ, c⟩).1 = some (.limitExceeded s t)) := by
  refine ⟨fun within within' => ?_, fun cut => Inquire.explain?_of_exceeded cut⟩
  rw [Inquire.explain?_eq_reason? used keys begun within,
    Inquire.explain?_eq_reason? .new keys begun' within']

/-- Whether all definitions of a listing are settled. -/
def Listing.isSettled (l : Listing ρ) : Bool :=
  l.definitions.all fun definition => definition.resolution.isSome || definition.resolver.isNone

/-- A listed store whose lazies are all settled is at rest. -/
theorem Listing.quiescent (l : Listing ρ) (settled : l.isSettled = true)
    (simple : l.store.keysAreSimple = true) (h : Handle) : l.store.Quiescent h where
  keys := (Store.SimpleKeys.of_keysAreSimple simple).keysFinite h
  settled := by
    intro g d _ _
    unfold Store.IsSettled Definitions.resolution? Definitions.isDefined
    cases hd : l.store.definitions.get? d with
    | none => exact .inr rfl
    | some definition =>
      obtain ⟨i, -, hi⟩ := Option.bind_eq_some_iff.1 hd
      change l.definitions.toArray[i]? = _ at hi
      rw [List.getElem?_toArray] at hi
      have each := List.all_eq_true.1 settled definition (List.mem_of_getElem? hi)
      rw [Bool.or_eq_true, Option.isNone_iff_eq_none] at each
      exact each.imp id fun none => congrArg Option.isSome none

/-- A list of itself, and a list of lists of strings, each behind a lazy node. -/
def listsApart : Listing Handle where
  nodes := [.lazy ⟨1⟩, .array ⟨13⟩, .lazy ⟨2⟩, .array ⟨17⟩, .array Intrinsic.string.handle]
  definitions := [⟨none, some ⟨14⟩⟩, ⟨none, some ⟨16⟩⟩]

/-- The lists are explained by a checker that compared before what they stand for. -/
theorem explain?_listsApart :
    let σ := listsApart.store
    (Inquire.explain? pure ⟨13⟩ ⟨15⟩ ⟨σ, .new {}⟩).1.isSome = true ∧
      (Inquire.explain? pure ⟨13⟩ ⟨15⟩ ⟨σ, (check pure ⟨14⟩ ⟨16⟩ ⟨σ, .new {}⟩).2.checker⟩).1
        = (Inquire.explain? pure ⟨13⟩ ⟨15⟩ ⟨σ, .new {}⟩).1 := by
  intro σ
  have rest : ∀ h, σ.Quiescent h := listsApart.quiescent (by decide +kernel) (by decide +kernel)
  obtain ⟨fresh, limit⟩ := explain?_eq_snapshot pure {} σ [] ⟨13⟩ ⟨15⟩
  obtain ⟨-, limit'⟩ := explain?_eq_snapshot pure {} σ [(⟨14⟩, ⟨16⟩)] ⟨13⟩ ⟨15⟩
  -- all is at rest, so the comparison before leaves the store alone
  have before : Repeatable pure (check pure ⟨14⟩ ⟨16⟩) ⟨14⟩ ⟨16⟩ := repeatable_check _ _
  have kept : Inquiry.after pure [(⟨14⟩, ⟨16⟩)] ⟨σ, .new {}⟩
      = ⟨σ, (check pure ⟨14⟩ ⟨16⟩ ⟨σ, .new {}⟩).2.checker⟩ :=
    congrArg (Inquiry.mk · _) (before.settled ⟨σ, .new {}⟩ rest)
  rw [kept] at limit'
  refine ⟨?_, (explain?_of_inUse pure {} σ (fun h => (rest h).keys) _ (.checked .new (.now rest))
    ⟨13⟩ ⟨15⟩ σ σ (.now rest) (.now rest)).1 (limit'.trans (by decide +kernel))
    (limit.trans (by decide +kernel))⟩
  change (Inquire.explain? pure ⟨13⟩ ⟨15⟩ ⟨σ, .new {}⟩).1 = _ at fresh
  rw [fresh]
  decide +kernel

end Assignability
