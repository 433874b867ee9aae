/-
  Assignability.Proofs.Diagnosis.Presented
  ────────────────────────────────────────
  **EXPLANATIONS NAME REAL MISMATCHES.**

  What an explanation presents as unrelated is not related
  (`isRight_reasonWithin`), and a new checker finds no pair to be related
  that is not.  So it does not contradict an explanation
  (`explained_unrelated`), unless a question about keys is cut off.  What
  is cut off is not related, but here that is taken for the answer that
  the two have no key in common, and what an index signature then asks for
  is not looked at: the cut-off makes the pair related
  (`presented_related`).
-/
import Assignability.Proofs.Checker.Decided
import Assignability.Proofs.Diagnosis.Blame
import Assignability.Proofs.Diagnosis.Kept

namespace Assignability

variable {ρ : Type} {run : Runner ρ} {policy : Policy} {σ ω : Store ρ} {kind : Question}
  {s t : Handle} {c : Checker}

/-! ## §1. A new checker is asked -/

/-- A question of either kind can be repeated. -/
theorem repeatable_holds (kind : Question) (s t : Handle) :
    Repeatable run (Store.holds run kind s t) s t where
  repeated := fun _ ho hs ht => repeated_holds ho hs ht
  settled := by
    intro w rest
    have first : (check run s t w).2.store = w.store := (repeatable_check s t).settled w rest
    cases kind with
    | assignable => exact first
    | identical =>
      rw [holds_identical]
      split
      · have rest' : ∀ h, (check run s t w).2.store.Quiescent h := by rwa [first]
        exact ((repeatable_check t s).settled _ rest').trans first
      · exact first

namespace Store

/-- A new checker is asked about a pair in the store `σ`. -/
abbrev Asked (run : Runner ρ) (policy : Policy) (ω : Store ρ) (kind : Question) (s t : Handle)
    (σ : Store ρ) : Prop :=
  ω.Begun run (holds run kind s t) s t (.new policy) σ

/-- It finds the same when nothing more is resolved. -/
theorem Asked.relate_rested (asked : Asked run policy ω kind s t σ) :
    (relate run policy kind s t ω.rested).1 = (relate run policy kind s t σ).1 := by
  have again : holds run kind s t ⟨ω.rested, .new policy⟩ = _ :=
    asked.replayed (repeatable_holds kind s t)
  rw [relate_fst, relate_fst, again]

/-- Key questions that were decided are decided in the rested store as well. -/
theorem Asked.keysDecided (asked : Asked run policy ω kind s t σ)
    (decided : kind.KeysDecided run s t ⟨σ, .new policy⟩) :
    kind.KeysDecided run s t ⟨ω.rested, .new policy⟩ := by
  cases asked with
  | earlier ho hs ht later => exact decided.later ho hs ht (later.trans ω.extends_rested)
  | now rest =>
    rw [rested_of_quiescent rest]
    exact decided

variable (keys : ∀ h, ω.KeysFinite h)
include keys

/-- It decides the question where it hits no limit. -/
theorem Asked.related_iff (asked : Asked run policy ω kind s t σ)
    (within : (relate run policy kind s t σ).1.exceeded = false) :
    (relate run policy kind s t σ).1.related = true
      ↔ (View.of run ω.rested policy.flags).Relates kind s t := by
  rw [← asked.relate_rested] at within ⊢
  exact relate_iff_of_quiescent (quiescent_rested keys s) (quiescent_rested keys t) within

/-- And what it finds to be related is so where it decides the questions about keys. -/
theorem Asked.relates (asked : Asked run policy ω kind s t σ)
    (decided : (relate run policy kind s t σ).1.exceeded = false ∨
      kind.KeysDecided run s t ⟨σ, .new policy⟩)
    (related : (relate run policy kind s t σ).1.related = true) :
    (View.of run ω.rested policy.flags).Relates kind s t := by
  rcases decided with within | decided
  · exact (asked.related_iff keys within).1 related
  · rw [← asked.relate_rested, relate_fst] at related
    exact (idle_new run ω.rested policy).holds_sound exact_new (quiescent_rested keys s).tame
      (quiescent_rested keys t).tame (asked.keysDecided decided) related

end Store

/-! ## §2. What is explained -/

/-- A view of a store at rest has everything resolved. -/
theorem View.isResolved_of_quiescent {flags : Flags} (rest : ∀ h, σ.Quiescent h) :
    (View.of run σ flags).IsResolved := by
  intro h
  have tame : (View.of run σ flags).Tame run h := (rest h).tame
  exact Store.lazyId?_of_resolve (tame.settled h (.refl h))

/-- **EXPLANATIONS NAME REAL MISMATCHES**, where no key type is recursive and the explaining checker
hit no limit.  There is one just where a new checker finds the pair to be unrelated, and no pair that
it presents is found to be related by a new checker that decides the questions about keys, as one
does that hits no limit.

The explanation and the new checkers may have their turns in any order, and resolvers carried out on
the way, if the store is orderly, so if all that it speaks of is there and none of them defines a node
that was declared before; or in a store at rest, whatever it holds (`Store.Begun`). -/
theorem explained_unrelated (run : Runner ρ) (policy : Policy) (ω : Store ρ)
    (keys : ∀ h, ω.KeysFinite h) (c : Checker) (used : InUse run policy ω c) (s t : Handle)
    (σ : Store ρ) (begun : ω.Begun run (Inquire.explain? run s t) s t c σ)
    (within : (Inquire.explain? run s t ⟨σ, c⟩).2.checker.exceeded = false) :
    (∀ σ', Store.Asked run policy ω .assignable s t σ' →
      (c = .new policy ∨ (Store.relate run policy .assignable s t σ').1.exceeded = false) →
      ((Inquire.explain? run s t ⟨σ, c⟩).1 = none
        ↔ (Store.relate run policy .assignable s t σ').1.related = true)) ∧
    ∀ reason, (Inquire.explain? run s t ⟨σ, c⟩).1 = some reason → ∀ p ∈ reason.presented,
      ∀ σ', Store.Asked run policy ω p.1 p.2.1 p.2.2 σ' →
        ((Store.relate run policy p.1 p.2.1 p.2.2 σ').1.exceeded = false ∨
          p.1.KeysDecided run p.2.1 p.2.2 ⟨σ', .new policy⟩) →
        (Store.relate run policy p.1 p.2.1 p.2.2 σ').1.related = false := by
  let v := View.of run ω.rested policy.flags
  have explained : (Inquire.explain? run s t ⟨σ, c⟩).1
      = v.reason? Limits.explaining.depth s t := Inquire.explain?_eq_reason? used keys begun within
  rw [explained]
  unfold View.reason?
  refine ⟨fun σ' asked fresh => ?_, fun reason some p presented σ' asked decided => ?_⟩
  · have within' : (Store.relate run policy .assignable s t σ').1.exceeded = false := by
      rcases fresh with rfl | within'
      · -- the comparison is the one that a new checker begins its explanation with
        have again : Inquire.explain? run s t ⟨ω.rested, .new policy⟩ = _ :=
          begun.replayed (repeatable_explain? s t)
        rw [← asked.relate_rested]
        exact (Inquire.kept_explain?_of_check s t ⟨ω.rested, .new policy⟩).within_limits
          (by rw [again]; exact within)
      · exact within'
    rw [asked.related_iff keys within', View.relates_assignable, ← View.fits_eq_true]
    split
    · next fits => exact ⟨fun _ => fits, fun _ => rfl⟩
    · next apart => exact ⟨nofun, fun fits => absurd fits apart⟩
  -- the reason is right level by level, since the pair did not fit
  · have resolved : v.IsResolved := View.isResolved_of_quiescent (Store.quiescent_rested keys)
    split at some
    · cases some
    · next apart =>
      cases some
      have right := isRight_reasonWithin resolved Limits.explaining.depth s t
        (fun fits => apart (View.fits_eq_true.2 fits)) p presented
      rw [← Bool.not_eq_true]
      exact fun related => right (asked.relates keys decided related)

/-- Two objects, each with a field for what a key type holds and one for lists of that. -/
def tables : Listing Handle where
  nodes := [.literal (.string ⟨64⟩), .object ⟨0⟩, .literal (.string ⟨128⟩), .union ⟨0⟩,
    .object ⟨1⟩, .object ⟨2⟩, .array ⟨14⟩, .array ⟨19⟩, .array ⟨20⟩, .array ⟨17⟩, .array ⟨22⟩,
    .array ⟨23⟩, .object ⟨3⟩, .union ⟨1⟩, .object ⟨4⟩]
  lists := [[⟨13⟩, ⟨15⟩], [⟨17⟩, ⟨18⟩]]
  objects := [{ index := some ⟨⟨13⟩, Intrinsic.string.handle⟩ },
    { index := some ⟨⟨16⟩, Intrinsic.number.handle⟩ }, {},
    { fields := [{ name := ⟨192⟩, type := ⟨14⟩ }, { name := ⟨256⟩, type := ⟨21⟩ }] },
    { fields := [{ name := ⟨192⟩, type := ⟨26⟩ }, { name := ⟨256⟩, type := ⟨24⟩ }] }]

/-- The lists are presented as unrelated, and found to be so. -/
theorem explained_tables :
    let σ := tables.store
    ∃ reason ∈ (Inquire.explain? pure ⟨25⟩ ⟨27⟩ ⟨σ, .new {}⟩).1,
      (.assignable, ⟨21⟩, ⟨24⟩) ∈ reason.presented ∧
        (Store.relate pure {} .assignable ⟨21⟩ ⟨24⟩ σ).1.related = false := by
  intro σ
  have rest : ∀ h, σ.Quiescent h := tables.quiescent (by decide +kernel) (by decide +kernel)
  obtain ⟨explained, limit⟩ := explain?_eq_snapshot pure {} σ [] ⟨25⟩ ⟨27⟩
  have presents : ∃ reason ∈ (Inquire.explain? pure ⟨25⟩ ⟨27⟩ ⟨σ, .new {}⟩).1,
      (.assignable, ⟨21⟩, ⟨24⟩) ∈ reason.presented := by
    change (Inquire.explain? pure ⟨25⟩ ⟨27⟩ ⟨σ, .new {}⟩).1 = _ at explained
    rw [explained]
    decide +kernel
  obtain ⟨reason, some, presented⟩ := presents
  have real := (explained_unrelated pure {} σ (fun h => (rest h).keys) (.new {}) .new ⟨25⟩ ⟨27⟩ σ
    (.now rest) (limit.trans (by decide +kernel))).2 reason some _ presented σ (.now rest)
  refine ⟨reason, some, presented, real (.inl ?_)⟩
  rw [relate_eq_finding]
  decide +kernel

/-- A new checker may find a pair to be related that is presented as unrelated, and that is not related.
The explaining one knows already that the objects under the key type do not fit; the new one reaches
them in the lists, and is cut off there before it has compared the keys.  It takes that for the answer
that they have none in common. -/
theorem presented_related :
    let σ := tables.store
    let policy : Policy := { limits := ⟨4, 1000⟩ }
    σ.keysAreSimple = true ∧
      (Inquire.explain? pure ⟨25⟩ ⟨27⟩ ⟨σ, .new policy⟩).2.checker.exceeded = false ∧
      ∃ reason ∈ (Inquire.explain? pure ⟨25⟩ ⟨27⟩ ⟨σ, .new policy⟩).1,
        (.assignable, ⟨21⟩, ⟨24⟩) ∈ reason.presented ∧
          (Store.relate pure policy .assignable ⟨21⟩ ⟨24⟩ σ).1.related = true := by
  intro σ policy
  obtain ⟨explained, limit⟩ := explain?_eq_snapshot pure policy σ [] ⟨25⟩ ⟨27⟩
  change (Inquire.explain? pure ⟨25⟩ ⟨27⟩ ⟨σ, .new policy⟩).1 = _ at explained
  refine ⟨by decide +kernel, limit.trans (by decide +kernel), ?_⟩
  rw [explained, relate_eq_finding]
  decide +kernel

end Assignability
