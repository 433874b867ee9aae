/-
  Assignability.Proofs.Checker.Verdicts
  ─────────────────────────────────────
  **VERDICTS ARE RIGHT.**

  A pair on the path is assumed to hold, and what is found under the
  assumption holds up to it.  The invariant speaks of depths: an answer
  that rests on no assumption above depth `m` holds up to the pairs of the
  path from `m` on (`Answered.sound`).  At the depth of the pair itself
  nothing but the pair is left, and a pair may be assumed for its own
  sake (`FitsUpTo.accumulate`): a verdict that is kept is one on the
  largest relation.

  That a pair fails never rests on an assumption, and a limit that was hit
  cuts the answer off.  Only a question about keys does harm when it is
  cut off; where all of them are decided, every answer is right.

  Main statement: `check_iff_fits`.
-/
import Assignability.Proofs.Checker.Settled
import Assignability.Proofs.Checker.Snapshot
import Assignability.Proofs.Relation.Largest
import Assignability.Proofs.Store.Listing

namespace Assignability

variable {ρ : Type} {run : Runner ρ} {v : View ρ}

/-! ## §1. Depths, assumptions and answers -/

/-- At the root nothing is assumed any more. -/
theorem isSelfContained_zero (a : Option Nat) : isSelfContained a 0 = true := by
  cases a with
  | none => rfl
  | some d => exact decide_eq_true (Nat.zero_le d)

/-- Of two assumptions the shallower decides whether an answer stands on its own. -/
theorem isSelfContained_shallower (a b : Option Nat) (m : Nat) :
    isSelfContained (shallower a b) m = (isSelfContained a m && isSelfContained b m) := by
  cases a with
  | none => cases b <;> rfl
  | some d =>
    cases b with
    | none => exact (Bool.and_true _).symm
    | some e =>
      show decide (m ≤ min d e) = (decide (m ≤ d) && decide (m ≤ e))
      rw [Bool.eq_iff_iff, Bool.and_eq_true, decide_eq_true_iff, decide_eq_true_iff,
        decide_eq_true_iff]
      exact Nat.le_min

/-- The pairs of the path from a depth on. -/
def Inquiry.pathFrom (w : Inquiry ρ) (m : Nat) (a b : Handle) : Prop :=
  ∃ d, w.checker.guard.path[(a, b)]? = some d ∧ m ≤ d

/-- Every verdict that is kept is right. -/
def Exact (v : View ρ) (w : Inquiry ρ) : Prop :=
  ∀ (p : Pair) (b : Bool), w.checker.verdicts[p]? = some b → (b = true ↔ v.Fits p.1 p.2)

/-- What an answer says that was found from the state `w`: it holds `upTo` the pairs from a depth
on where it rests on no assumption above, and it fails where there is no truth to it. -/
structure Answered (v : View ρ) (w : Inquiry ρ) (r : Answer × Inquiry ρ) (upTo : Nat → Prop)
    (truth : Prop) : Prop where
  exact : Exact v r.2
  rests : ∀ m, isSelfContained r.2.checker.assumption m = true →
    isSelfContained w.checker.assumption m = true
  sound : r.1.isTrue = true → ∀ m, isSelfContained r.2.checker.assumption m = true → upTo m
  complete : r.1 = .fails → ¬ truth

namespace Answered

variable {w : Inquiry ρ} {r r' : Answer × Inquiry ρ} {upTo upTo' : Nat → Prop}
  {truth truth' : Prop}

/-- Where the first answer is that it holds, the second tells whether both do. -/
theorem both (first : Answered v w r upTo truth) (holds : r.1.isTrue = true)
    (second : Answered v r.2 r' upTo' truth') :
    Answered v w r' (fun m => upTo m ∧ upTo' m) (truth ∧ truth') where
  exact := second.exact
  rests := fun m hm => first.rests m (second.rests m hm)
  sound := fun holds' m hm => ⟨first.sound holds m (second.rests m hm), second.sound holds' m hm⟩
  complete := fun fails h => second.complete fails h.2

/-- Where the first answer is not that it holds, it is that of both. -/
theorem notBoth (first : Answered v w r upTo truth) (not : r.1.isTrue = false) :
    Answered v w r (fun m => upTo m ∧ upTo' m) (truth ∧ truth') where
  exact := first.exact
  rests := first.rests
  sound := fun holds => by rw [not] at holds; cases holds
  complete := fun fails h => first.complete fails h.1

/-- Where the first answer is that it holds, one of the two does. -/
theorem holdsEither (first : Answered v w r upTo truth) (holds : r.1.isTrue = true) {a : Answer}
    (same : a = .holds ∨ a = r.1) :
    Answered v w (a, r.2) (fun m => upTo m ∨ upTo' m) (truth ∨ truth') where
  exact := first.exact
  rests := first.rests
  sound := fun _ m hm => .inl (first.sound holds m hm)
  complete := by
    rintro (rfl : a = .fails)
    rcases same with same | same
    · cases same
    · rw [← same] at holds
      cases holds

/-- Where the first answer is not that it holds, the second tells whether one of the two does, and
only where both fail do they fail together. -/
theorem either (first : Answered v w r upTo truth) (not : r.1.isTrue = false)
    (second : Answered v r.2 r' upTo' truth') :
    Answered v w (if r'.1 = .fails then r.1 else r'.1, r'.2) (fun m => upTo m ∨ upTo' m)
      (truth ∨ truth') where
  exact := second.exact
  rests := fun m hm => first.rests m (second.rests m hm)
  sound := by
    intro holds m hm
    refine .inr (second.sound ?_ m hm)
    change (if _ then _ else _ : Answer).isTrue = true at holds
    split at holds
    · rw [not] at holds; cases holds
    · exact holds
  complete := by
    intro fails
    change (if _ then _ else _) = Answer.fails at fails
    split at fails
    · next fails' =>
      rintro (h | h)
      · exact first.complete fails h
      · exact second.complete fails' h
    · next other => exact absurd fails other

end Answered

/-! ## §2. Queries -/

/-- Where the questions of a query are answered rightly, so is the query. -/
theorem answered_answer {c : Query.Scope} {related : Handle → Handle → Inquire ρ Answer}
    {decided : Handle → Handle → Inquiry ρ → Prop} {q : Query ρ Answer} {w₀ : Inquiry ρ}
    (hq : q.Positive v c) (keeps : ∀ a b w, Kept w (related a b w).2)
    (settled : ∀ h, c.follows h → Store.resolve run h v.store = (v.stands h, v.store))
    (ends : ∀ a b, c.asks a b ∨ c.keys a b → ∀ w, Kept w₀ w → w.store = v.store →
      Ends w (related a b w) False (decided a b w))
    (asked : ∀ a b, c.asks a b ∨ c.keys a b → ∀ w, Kept w₀ w → w.store = v.store → Exact v w →
      decided a b w →
      Answered v w (related a b w) (fun m => v.FitsUpTo (w₀.pathFrom m) a b) (v.Fits a b))
    (keys : ∀ a b, c.keys a b → v.keysFit a b = v.fits a b ∧
      ∀ m, v.FitsUpTo (w₀.pathFrom m) a b → v.Fits a b) :
    ∀ w, Kept w₀ w → w.store = v.store → Exact v w → q.KeysDecided run related decided w →
      Answered v w (answer run related q w)
        (fun m => (q.eval v v.keysFit (v.fitsUpTo (w₀.pathFrom m))).isTrue = true)
        ((q.eval v v.keysFit v.fits).isTrue = true) := by
  -- on how the query is put together; the whole rests on all that a part of it rests on
  induction hq with
  | holds =>
    intro w _ _ exact _
    exact ⟨exact, fun _ h => h, fun _ _ _ => rfl, fun h => (by cases h)⟩
  | fails =>
    intro w _ _ exact _
    exact ⟨exact, fun _ h => h, fun h => (by cases h), fun _ h => (by cases h)⟩
  | @related s t hc =>
    intro w hw store exact decided
    have h := asked s t (.inl hc) w hw store exact decided.1
    refine ⟨h.exact, h.rests, fun ht m hm => ?_, fun hf ht => ?_⟩
    · rw [Query.eval_related, Answer.isTrue_ofBool, View.fitsUpTo_eq_true]
      exact h.sound ht m hm
    · rw [Query.eval_related, Answer.isTrue_ofBool, View.fits_eq_true] at ht
      exact h.complete hf ht
  | @andThen q r hq hr ihq ihr =>
    intro w hw store exact decided
    unfold Query.andThen at decided
    rw [Query.bind_eq, Query.keysDecided_bind] at decided
    have mid : Kept w (answer run related q w).2 := kept_answer keeps q w
    have store' := (ends_answer hq False.elim keeps settled ends w hw store).store.trans store
    have first := ihq w hw store exact decided.1
    simp only [Query.isTrue_eval_andThen, Bool.and_eq_true]
    unfold Query.andThen
    rw [Query.bind_eq, answer_bind]
    cases ha : (answer run related q w).1.isTrue with
    | true =>
      -- the second is asked from where the first has led to
      rw [ha, if_pos rfl] at decided
      have second := ihr _ (hw.trans mid) store' first.exact decided.2
      rw [if_pos rfl]
      exact first.both ha second
    | false =>
      rw [if_neg (by decide)]
      exact first.notBoth ha
  | @orElse q r next hq hr ht hf ihq ihr =>
    intro w hw store exact decided
    rw [Query.keysDecided_bind] at decided
    have mid : Kept w (answer run related q w).2 := kept_answer keeps q w
    have store' := (ends_answer hq False.elim keeps settled ends w hw store).store.trans store
    have first := ihq w hw store exact decided.1
    simp only [Query.isTrue_eval_orElse ht hf, Bool.or_eq_true]
    rw [answer_bind]
    cases ha : (answer run related q w).1.isTrue with
    | true =>
      rcases ht _ ha with h | h
      · rw [h]
        exact first.holdsEither ha (.inl rfl)
      · rw [h]
        exact first.holdsEither ha (.inr rfl)
    | false =>
      rw [hf _ ha, Query.keysDecided_bind] at decided
      have second := ihr _ (hw.trans mid) store' first.exact decided.2.1
      rw [hf _ ha, answer_bind]
      exact first.either ha second
  | @look next _ ih =>
    intro w hw store exact decided
    change (next w.store).KeysDecided run related _ w at decided
    show Answered v w (answer run related (next w.store) w) _ _
    rw [store] at decided ⊢
    exact ih w hw store exact decided
  | @resolve h next hc _ ih =>
    intro w hw store exact decided
    have hr : Store.resolve run h w.store = (v.stands h, w.store) := by
      rw [store]
      exact settled h hc
    change (next (Store.resolve run h w.store).1).KeysDecided run related _
      ⟨(Store.resolve run h w.store).2, w.checker⟩ at decided
    show Answered v w (answer run related (next (Store.resolve run h w.store).1)
      ⟨(Store.resolve run h w.store).2, w.checker⟩) _ _
    rw [hr] at decided ⊢
    exact ih w hw store exact decided
  | @askKeys s t next hc hn _ ih =>
    intro w hw store exact decided
    obtain ⟨decidedKeys, notCut, decided⟩ := decided
    have store' := (ends s t (.inr hc) w hw store).store.trans store
    have first := asked s t (.inr hc) w hw store exact decidedKeys
    obtain ⟨same, apart⟩ := keys s t hc
    -- the answer about keys is that of the two on their own
    have value : (related s t w).1.isTrue = v.keysFit s t := by
      rw [same, Bool.eq_iff_iff, View.fits_eq_true]
      constructor
      · intro h
        exact apart 0 (first.sound h 0 (isSelfContained_zero _))
      · intro h
        cases ha : (related s t w).1 with
        | holds => rfl
        | assumed => rfl
        | fails => exact absurd h (first.complete ha)
        | cutOff => exact absurd ha notCut
    rw [hn, value] at decided
    have second := ih (v.keysFit s t) _ (hw.trans (keeps s t w)) store' first.exact
      decided
    show Answered v w (answer run related (next (related s t w).1) (related s t w).2) _ _
    rw [hn, value]
    exact ⟨second.exact, fun m hm => first.rests m (second.rests m hm), second.sound,
      second.complete⟩

/-! ## §3. Comparisons -/

/-- A pair is known rightly where the verdicts are right. -/
theorem fits_of_known? {s t : Handle} {w : Inquiry ρ} {b : Bool} (h : w.known? s t = some b)
    (store : w.store = v.store) (flags : w.checker.flags = v.flags) (exact : Exact v w) :
    v.Fits s t ↔ b = true := by
  unfold Inquiry.known? at h
  rw [store, flags] at h
  split at h
  · next b' hb =>
    rw [Option.some.inj h] at hb
    exact View.fits_of_atOnce? hb
  · exact (exact (s, t) b h).symm

/-- The verdicts after the end of a comparison. -/
theorem verdicts_conclude (p : Pair) (outer : Option Nat) (a : Answer) (w : Inquiry ρ) :
    (Inquire.update (Checker.conclude p outer a) w).2.checker.verdicts
      = if a = .fails then w.checker.verdicts.insert p false
        else if isSelfContained w.checker.assumption w.checker.guard.depth && a.isTrue then
          w.checker.verdicts.insert p true
        else w.checker.verdicts := by
  obtain ⟨store, flags, guard, verdicts, assumption, explaining⟩ := w
  show (Checker.conclude p outer a ⟨flags, guard, verdicts, assumption, explaining⟩).2.verdicts = _
  unfold Checker.conclude
  dsimp only
  cases isSelfContained assumption guard.depth <;> cases a <;> rfl

/-- What was assumed at the pair itself is discharged with it, and what was assumed further up is
handed on. -/
theorem assumption_conclude (p : Pair) (outer : Option Nat) (a : Answer) (w : Inquiry ρ) :
    (Inquire.update (Checker.conclude p outer a) w).2.checker.assumption
      = if isSelfContained w.checker.assumption w.checker.guard.depth then outer
        else shallower outer w.checker.assumption := rfl

/-- A conclusion is true where the rule's answer is, and fails where that fails. -/
theorem answer_conclude (p : Pair) (outer : Option Nat) (a : Answer) (w : Inquiry ρ) :
    (Inquire.update (Checker.conclude p outer a) w).1.isTrue = a.isTrue ∧
      ((Inquire.update (Checker.conclude p outer a) w).1 = .fails ↔ a = .fails) := by
  obtain ⟨store, flags, guard, verdicts, assumption, explaining⟩ := w
  unfold Inquire.update Checker.conclude
  dsimp only
  cases isSelfContained assumption guard.depth <;> cases a <;> simp [Answer.isTrue]

/-- A pair on the path is the one that came last, or was there before. -/
theorem getElem?_path_opened {w : Inquiry ρ} {p q : Pair} {attempts d : Nat}
    (h : (w.opened p attempts).checker.guard.path[q]? = some d) :
    q = p ∧ d = w.checker.guard.depth + 1 ∨ w.checker.guard.path[q]? = some d := by
  change (w.checker.guard.path.insert p _)[q]? = some d at h
  rw [Std.HashMap.getElem?_insert] at h
  split at h
  · next he => exact .inl ⟨(eq_of_beq he).symm, (Option.some.inj h).symm⟩
  · exact .inr h

/-- The verdict of a comparison is right where its answer is, if it is kept. -/
theorem exact_conclude {p : Pair} {outer : Option Nat} {a : Answer} {w : Inquiry ρ}
    (exact : Exact v w)
    (holds : isSelfContained w.checker.assumption w.checker.guard.depth = true →
      a.isTrue = true → v.Fits p.1 p.2)
    (fails : a = .fails → ¬ v.Fits p.1 p.2) :
    Exact v (Inquire.update (Checker.conclude p outer a) w).2 := by
  intro q b hb
  rw [verdicts_conclude] at hb
  -- kept as failed, kept as held, or not kept at all
  split at hb
  · next hf =>
    rw [Std.HashMap.getElem?_insert] at hb
    split at hb
    · next he =>
      obtain rfl := eq_of_beq he
      obtain rfl := Option.some.inj hb
      exact ⟨fun h => (by cases h), fun h => absurd h (fails hf)⟩
    · exact exact q b hb
  · split at hb
    -- a positive verdict is kept only where it rests on nothing outside the pair
    · next hc =>
      rw [Std.HashMap.getElem?_insert] at hb
      split at hb
      · next he =>
        obtain ⟨hc, ht⟩ := Bool.and_eq_true_iff.1 hc
        obtain rfl := eq_of_beq he
        obtain rfl := Option.some.inj hb
        exact ⟨fun _ => holds hc ht, fun _ => rfl⟩
      · exact exact q b hb
    · exact exact q b hb

/-- **THE END OF A COMPARISON.**  What was found with the pair on the path holds without it. -/
theorem answered_conclude {s t : Handle} {w w' : Inquiry ρ} {attempts : Nat} {a : Answer}
    (kept : Kept (w.opened (s, t) attempts) w')
    (bounded : ∀ (p : Pair) (d : Nat), w.checker.guard.path[p]? = some d →
      d ≤ w.checker.guard.depth)
    (inner : Answered v (w.opened (s, t) attempts) (a, w')
      (fun m => v.justifies v.keysFit (v.fitsUpTo ((w.opened (s, t) attempts).pathFrom m)) s t
        = true) (v.Fits s t)) :
    Answered v w (Inquire.update (Checker.conclude (s, t) w.checker.assumption a) w')
      (fun m => v.FitsUpTo (w.pathFrom m) s t) (v.Fits s t) := by
  -- the pair itself need not be assumed any more
  have upTo : a.isTrue = true → ∀ m, isSelfContained w'.checker.assumption m = true →
      v.FitsUpTo (w.pathFrom m) s t := by
    intro ht m hm
    refine View.FitsUpTo.accumulate ?_ (inner.sound ht m hm)
    rintro x y ⟨d, hd, hmd⟩
    rcases getElem?_path_opened hd with ⟨he, -⟩ | hd
    · exact .inr ⟨congrArg Prod.fst he, congrArg Prod.snd he⟩
    · exact .inl ⟨d, hd, hmd⟩
  -- and at its own depth it is alone
  have whole : isSelfContained w'.checker.assumption w'.checker.guard.depth = true →
      a.isTrue = true → v.Fits s t := by
    intro hc ht
    rw [kept.depth] at hc
    refine View.FitsUpTo.of_none ?_ (upTo ht _ hc)
    rintro x y ⟨d, hd, hmd⟩
    have := bounded _ _ hd
    change w.checker.guard.depth + 1 ≤ d at hmd
    omega
  obtain ⟨sameTruth, sameFails⟩ := answer_conclude (s, t) w.checker.assumption a w'
  constructor
  · exact exact_conclude inner.exact whole inner.complete
  · intro m hm
    rw [assumption_conclude] at hm
    split at hm
    · exact hm
    · rw [isSelfContained_shallower] at hm
      exact (Bool.and_eq_true_iff.1 hm).1
  · intro ht m hm
    rw [sameTruth] at ht
    rw [assumption_conclude] at hm
    split at hm
    · next hc => exact (whole hc ht).upTo
    · rw [isSelfContained_shallower] at hm
      exact upTo ht m (Bool.and_eq_true_iff.1 hm).2
  · intro hf
    exact inner.complete (sameFails.1 hf)

/-- A comparison is answered right where its rule is. -/
theorem answered_compareWith {step : Flags → Handle → Handle → Inquire ρ Answer} {s t : Handle}
    {w : Inquiry ρ} (store : w.store = v.store) (flags : w.checker.flags = v.flags)
    (exact : Exact v w)
    (bounded : ∀ (p : Pair) (d : Nat), w.checker.guard.path[p]? = some d →
      d ≤ w.checker.guard.depth)
    (entered : ∀ attempts, w.opens? s t = some (w.opened (s, t) attempts) →
      v.store.atOnce? v.flags s t = none →
      w.checker.guard.depth < w.checker.guard.limits.depth →
      Kept (w.opened (s, t) attempts) (step w.checker.flags s t (w.opened (s, t) attempts)).2 ∧
      Answered v (w.opened (s, t) attempts)
        (step w.checker.flags s t (w.opened (s, t) attempts))
        (fun m => v.justifies v.keysFit (v.fitsUpTo ((w.opened (s, t) attempts).pathFrom m)) s t
          = true) (v.Fits s t)) :
    Answered v w (compareWith step s t w) (fun m => v.FitsUpTo (w.pathFrom m) s t)
      (v.Fits s t) := by
  generalize hr : compareWith step s t w = r
  have h := compared step s t w
  rw [hr] at h
  cases h with
  | @known b h opens =>
    -- decided at once, or by a verdict that is right
    have right := fits_of_known? h store flags exact
    refine ⟨exact, fun _ h => h, fun ht m _ => ?_, fun hf ht => ?_⟩
    · rw [Answer.isTrue_ofBool] at ht
      exact (right.2 ht).upTo
    · rw [right.1 ht] at hf
      cases hf
  | @cycle d attempts opens onPath =>
    -- granted as a pair of the path, at the depth that is noted
    refine ⟨exact, fun m hm => ?_, fun _ m hm => ?_, fun h => (by cases h)⟩
    · rw [isSelfContained_shallower] at hm
      exact (Bool.and_eq_true_iff.1 hm).1
    · rw [isSelfContained_shallower] at hm
      exact .granted ⟨d, onPath, of_decide_eq_true (Bool.and_eq_true_iff.1 hm).2⟩
  | refused opens =>
    -- cut off, which is neither to hold nor to fail
    exact ⟨exact, fun _ h => h, fun h => (by cases h), fun h => (by cases h)⟩
  | @entered attempts h opens offPath deeper =>
    have notAtOnce : v.store.atOnce? v.flags s t = none := by
      unfold Inquiry.known? at h
      rw [store, flags] at h
      split at h
      · cases h
      · next h' => exact h'
    obtain ⟨kept, inner⟩ := entered attempts opens notAtOnce deeper
    exact answered_conclude kept bounded inner

/-! ## §4. The whole walk -/

/-- A state in which a pair comes to be compared with a number of levels left: the pairs of the
path lead to it. -/
structure Towards (v : View ρ) (levels : Nat) (s t : Handle) (w : Inquiry ρ) : Prop where
  store : w.store = v.store
  flags : w.checker.flags = v.flags
  room : w.checker.guard.limits.depth = w.checker.guard.depth + levels
  bounded : ∀ (p : Pair) (d : Nat), w.checker.guard.path[p]? = some d → d ≤ w.checker.guard.depth
  leads : ∀ (p : Pair) (d : Nat), w.checker.guard.path[p]? = some d →
    Relation.TransGen v.Posed p (s, t)

/-- From a pair on the path the walk goes on to the questions that it poses. -/
theorem Towards.ask {levels attempts : Nat} {s t a b : Handle} {w w' : Inquiry ρ}
    (h : Towards v (levels + 1) s t w) (hp : v.Poses s t a b)
    (kept : Kept (w.opened (s, t) attempts) w') (store : w'.store = v.store) :
    Towards v levels a b w' where
  store := store
  flags := kept.flags.trans h.flags
  room := by
    rw [kept.limits, kept.depth]
    show w.checker.guard.limits.depth = w.checker.guard.depth + 1 + levels
    have := h.room
    omega
  bounded := by
    intro p d hd
    rw [kept.path] at hd
    rw [kept.depth]
    show d ≤ w.checker.guard.depth + 1
    -- the new pair is at the new depth, the others are above it
    rcases getElem?_path_opened hd with ⟨rfl, rfl⟩ | hd
    · exact Nat.le_refl _
    · exact Nat.le_succ_of_le (h.bounded p d hd)
  leads := by
    intro p d hd
    rw [kept.path] at hd
    rcases getElem?_path_opened hd with ⟨rfl, -⟩ | hd
    · exact .single hp
    · exact .tail (h.leads p d hd) hp

/-- **EVERY ANSWER IS RIGHT** up to the pairs of the path, and every verdict that is kept is right,
where the questions about keys are decided. -/
theorem answered_compareWithin (levels : Nat) : ∀ (s t : Handle) (w : Inquiry ρ),
    Towards v levels s t w → v.PairTame run s t → Exact v w →
    KeysDecidedWithin run levels s t w →
    Answered v w (compareWithin run levels s t w) (fun m => v.FitsUpTo (w.pathFrom m) s t)
      (v.Fits s t) := by
  induction levels with
  | zero =>
    intro s t w way _ exact _
    refine answered_compareWith way.store way.flags exact way.bounded fun _ _ _ deeper => ?_
    have := way.room
    omega
  | succ levels ih =>
    intro s t w way tame exact decided
    refine answered_compareWith way.store way.flags exact way.bounded
      fun n opens notAtOnce _ => ?_
    have posed : ∀ a b, (v.scope s t).asks a b ∨ (v.scope s t).keys a b → v.Poses s t a b :=
      fun a b hab => hab.elim id View.PosesKeys.poses
    have ends : ∀ a b, (v.scope s t).asks a b ∨ (v.scope s t).keys a b →
        ∀ w', Kept (w.opened (s, t) n) w' → w'.store = v.store →
          Ends w' (compareWithin run levels a b w') False
            (KeysDecidedWithin run levels a b w') := by
      intro a b hab w' kept store
      have room := (way.ask (posed a b hab) kept store).room
      exact ends_compareWithin levels a b w' store room ((posed a b hab).pairTame tame) False.elim
    have inner := answered_answer (Query.positive_step w.checker.flags s t)
      (kept_compareWithin levels) tame.settled ends ?asked ?keys _ (.refl (w.opened (s, t) n))
      way.store exact (decided _ opens)
    case asked =>
      intro a b hab w' kept store exact' decided'
      have h := ih a b w' (way.ask (posed a b hab) kept store) ((posed a b hab).pairTame tame)
        exact' decided'
      -- the path is now what it was when the pair was entered
      refine ⟨h.exact, h.rests, fun ht m hm => (h.sound ht m hm).mono ?_, h.complete⟩
      rintro x y ⟨d, hd, hmd⟩
      exact ⟨d, by rw [← kept.path]; exact hd, hmd⟩
    case keys =>
      intro a b hab
      obtain ⟨ha, hb⟩ := tame.keys a b hab
      refine ⟨View.keysFit_eq_fits_of_isFinite ha hb, fun m hm => hm.of_apart ?_⟩
      -- a pair of the path that the keys led to would lead back to them
      rintro x y hl ⟨d, hd, -⟩
      obtain ⟨i, ha⟩ := ha
      obtain ⟨j, hb⟩ := hb
      have onward := (way.ask hab.poses (.refl (w.opened (s, t) n)) way.store).leads (x, y) d hd
      exact View.NestsTogether.not_leads_back (p := (a, b)) ⟨i, j, rfl, ha, hb⟩
        (Relation.TransGen.trans_right hl onward)
    have rule : ∀ R, v.justifies v.keysFit R s t
        = ((Query.step v.flags s t).eval v v.keysFit R).isTrue := by
      intro R
      unfold View.justifies
      rw [notAtOnce]
    simp only [rule]
    rw [View.fits_iff_step notAtOnce, ← way.flags]
    exact ⟨kept_answer (kept_compareWithin levels) _ _, inner⟩

/-! ## §5. A checker from the start -/

/-- A checker between two comparisons, at work on a store. -/
structure Idle (v : View ρ) (w : Inquiry ρ) : Prop where
  store : w.store = v.store
  flags : w.checker.flags = v.flags
  depth : w.checker.guard.depth = 0
  path : ∀ p : Pair, w.checker.guard.path[p]? = none

/-- A new checker is idle, and in the view of its store. -/
theorem idle_new (run : Runner ρ) (σ : Store ρ) (policy : Policy) :
    Idle (.of run σ policy.flags) ⟨σ, .new policy⟩ where
  store := rfl
  flags := rfl
  depth := rfl
  path := fun _ => Std.HashMap.getElem?_empty

/-- It has no verdicts, so none that is wrong. -/
theorem exact_new {σ : Store ρ} {policy : Policy} : Exact v ⟨σ, .new policy⟩ := by
  intro p b hb
  change (∅ : Std.HashMap Pair Bool)[p]? = some b at hb
  rw [Std.HashMap.getElem?_empty] at hb
  cases hb

/-- An idle checker has all its levels before it. -/
theorem Idle.towards {s t : Handle} {w : Inquiry ρ} (h : Idle v w) :
    Towards v w.checker.guard.limits.depth s t w where
  store := h.store
  flags := h.flags
  room := by
    rw [h.depth]
    omega
  bounded := by
    intro p d hd
    rw [h.path] at hd
    cases hd
  leads := by
    intro p d hd
    rw [h.path] at hd
    cases hd

variable (run) in
/-- No question about keys is cut off where a pair is compared. -/
def KeysDecided (s t : Handle) (w : Inquiry ρ) : Prop :=
  KeysDecidedWithin run w.checker.guard.limits.depth s t w

/-- A check of a tame pair ends, with the limits hit or with every key question decided. -/
theorem Idle.pairEnds {s t : Handle} {w : Inquiry ρ} (h : Idle v w) (tame : v.PairTame run s t) :
    Ends w (check run s t w) (∀ a b, ¬ v.PosesKeys s t a b) (KeysDecided run s t w) :=
  ends_compareWithin _ s t w h.store (by rw [h.depth]; omega) tame id

/-- It ends with an answer that counts for two tame handles. -/
theorem Idle.ends {s t : Handle} {w : Inquiry ρ} (h : Idle v w) (hs : v.Tame run s)
    (ht : v.Tame run t) :
    Ends w (check run s t w) (∀ a b, ¬ v.PosesKeys s t a b) (KeysDecided run s t w) :=
  h.pairEnds (hs.pair ht)

/-- Between two comparisons the checker is idle again. -/
theorem Idle.next {s t : Handle} {w : Inquiry ρ} (h : Idle v w) (hs : v.Tame run s)
    (ht : v.Tame run t) : Idle v (check run s t w).2 where
  store := (h.ends hs ht).store.trans h.store
  flags := (kept_check s t w).flags.trans h.flags
  depth := (kept_check s t w).depth.trans h.depth
  path := fun p => ((kept_check s t w).path p).trans (h.path p)

/-- What a comparison by an idle checker comes to: it is right when it holds, and right when it
fails unless a limit was hit. -/
structure Checked (v : View ρ) (s t : Handle) (r : Answer × Inquiry ρ) : Prop where
  exact : Exact v r.2
  sound : r.1.isTrue = true → v.Fits s t
  complete : r.1.isTrue = false → r.2.checker.exceeded = false → ¬ v.Fits s t

/-- A check of a tame pair answers as the largest relation does. -/
theorem Idle.pairChecked {s t : Handle} {w : Inquiry ρ} (h : Idle v w) (exact : Exact v w)
    (tame : v.PairTame run s t) (decided : KeysDecided run s t w) :
    Checked v s t (check run s t w) := by
  have answered := answered_compareWithin _ s t w h.towards tame exact decided
  refine ⟨answered.exact, fun hh => ?_, fun hh he => ?_⟩
  · refine (answered.sound hh 0 (isSelfContained_zero _)).of_none ?_
    rintro a b ⟨d, hd, -⟩
    rw [h.path] at hd
    cases hd
  · cases ha : (check run s t w).1 with
    | holds => rw [ha] at hh; cases hh
    | assumed => rw [ha] at hh; cases hh
    | fails => exact answered.complete ha
    | cutOff => rw [(h.pairEnds tame).cut ha] at he; cases he

/-- And its answer is right, with the verdicts that it leaves behind. -/
theorem Idle.checked {s t : Handle} {w : Inquiry ρ} (h : Idle v w) (exact : Exact v w)
    (hs : v.Tame run s) (ht : v.Tame run t) (decided : KeysDecided run s t w) :
    Checked v s t (check run s t w) :=
  h.pairChecked exact (hs.pair ht) decided

/-- The same where no limit was hit at all. -/
theorem Idle.pairCheck_iff {s t : Handle} {w : Inquiry ρ} (h : Idle v w) (exact : Exact v w)
    (tame : v.PairTame run s t) (within : (check run s t w).2.checker.exceeded = false) :
    (check run s t w).1.isTrue = true ↔ v.Fits s t := by
  have checked := h.pairChecked exact tame ((h.pairEnds tame).decided (.inr within))
  refine ⟨checked.sound, fun hf => ?_⟩
  cases ha : (check run s t w).1.isTrue with
  | true => rfl
  | false => exact absurd hf (checked.complete ha within)

/-- **AN IDLE CHECKER THAT HITS NO LIMIT ANSWERS WHAT IS SO.** -/
theorem Idle.check_iff {s t : Handle} {w : Inquiry ρ} (h : Idle v w) (exact : Exact v w)
    (hs : v.Tame run s) (ht : v.Tame run t)
    (within : (check run s t w).2.checker.exceeded = false) :
    (check run s t w).1.isTrue = true ↔ v.Fits s t :=
  h.pairCheck_iff exact (hs.pair ht) within

/-- Comparisons within the limits leave right verdicts only. -/
theorem Idle.after {earlier : List Pair} : ∀ {w : Inquiry ρ}, Idle v w → Exact v w →
    (∀ p ∈ earlier, v.Tame run p.1 ∧ v.Tame run p.2) →
    (Inquiry.after run earlier w).checker.exceeded = false →
    Idle v (.after run earlier w) ∧ Exact v (.after run earlier w) := by
  induction earlier with
  | nil => exact fun idle exact _ _ => ⟨idle, exact⟩
  | cons p ps ih =>
    intro w idle exact tame within
    obtain ⟨hs, ht⟩ := tame p List.mem_cons_self
    have mid := (kept_after ps (check run p.1 p.2 w).2).within_limits within
    have checked := idle.checked exact hs ht ((idle.ends hs ht).decided (.inr mid))
    exact ih (idle.next hs ht) checked.exact
      (fun q hq => tame q (List.mem_cons_of_mem p hq)) within

/-- **THE CHECKER DECIDES THE LARGEST RELATION.**  Whatever the checker compared before, what it
assumed on the way and what it kept, it answers by the largest relation that the rules justify, as
long as no limit is hit and all that is reached stays as it is.

A lazy node whose resolver was not carried out yet does not stay as it is (`Store.IsSettled`), also
where its chain leads to nothing in the end.  Once it was followed, it does. -/
theorem check_iff_fits (run : Runner ρ) (policy : Policy) (σ : Store ρ) (earlier : List Pair)
    (s t : Handle) (rest : ∀ p ∈ (s, t) :: earlier, σ.AtRest p.1 ∧ σ.AtRest p.2)
    (within : (check run s t (.after run earlier ⟨σ, .new policy⟩)).2.checker.exceeded = false) :
    (check run s t (.after run earlier ⟨σ, .new policy⟩)).1.isTrue = true
      ↔ (View.of run σ policy.flags).Fits s t := by
  have tame : ∀ p ∈ (s, t) :: earlier, (View.of run σ policy.flags).Tame run p.1 ∧
      (View.of run σ policy.flags).Tame run p.2 :=
    fun p hp => ⟨(rest p hp).1.tame, (rest p hp).2.tame⟩
  obtain ⟨hs, ht⟩ := tame (s, t) List.mem_cons_self
  have before : ∀ p ∈ earlier, _ := fun p hp => tame p (List.mem_cons_of_mem _ hp)
  have mid := (kept_check s t (.after run earlier ⟨σ, .new policy⟩)).within_limits within
  obtain ⟨idle, exact⟩ := (idle_new run σ policy).after exact_new before mid
  exact idle.check_iff exact hs ht within

/-- Two lazy nodes that stand for the lists of themselves. -/
def listsOfThemselves : Listing Handle where
  nodes := [.lazy ⟨1⟩, .array ⟨13⟩, .lazy ⟨2⟩, .array ⟨15⟩]
  definitions := [⟨some ⟨14⟩, some ⟨14⟩⟩, ⟨some ⟨16⟩, some ⟨16⟩⟩]

/-- The elements are compared before the lists, under an assumption; the lists then by what was kept
of that. -/
theorem fits_listsOfThemselves :
    (check pure ⟨13⟩ ⟨15⟩ (.after pure [(⟨14⟩, ⟨16⟩)]
        ⟨listsOfThemselves.store, .new {}⟩)).2.checker.exceeded = false ∧
      (View.of pure listsOfThemselves.store {}).Fits ⟨13⟩ ⟨15⟩ := by
  obtain ⟨answer, limit⟩ :=
    check_eq_snapshot pure {} listsOfThemselves.store [(⟨14⟩, ⟨16⟩)] ⟨13⟩ ⟨15⟩
  have within : (Snapshot.check pure ⟨13⟩ ⟨15⟩ (.after pure [(⟨14⟩, ⟨16⟩)]
      (.new listsOfThemselves.store {}))).2.exceeded = false := by decide +kernel
  have holds : (Snapshot.check pure ⟨13⟩ ⟨15⟩ (.after pure [(⟨14⟩, ⟨16⟩)]
      (.new listsOfThemselves.store {}))).1.isTrue = true := by decide +kernel
  have settled : ∀ h ∈ [(⟨13⟩ : Handle), ⟨14⟩, ⟨15⟩, ⟨16⟩], listsOfThemselves.store.AtRest h :=
    fun h => Store.AtRest.of_restsWithin (by decide +kernel)
  -- the two lists and their elements are all settled
  have rest : ∀ p ∈ [((⟨13⟩ : Handle), (⟨15⟩ : Handle)), (⟨14⟩, ⟨16⟩)],
      listsOfThemselves.store.AtRest p.1 ∧ listsOfThemselves.store.AtRest p.2 := by
    intro p hp
    rw [List.mem_cons, List.mem_singleton] at hp
    rcases hp with rfl | rfl
    · exact ⟨settled _ (by decide), settled _ (by decide)⟩
    · exact ⟨settled _ (by decide), settled _ (by decide)⟩
  rw [← limit] at within
  rw [← answer] at holds
  exact ⟨within, (check_iff_fits pure {} _ [(⟨14⟩, ⟨16⟩)] ⟨13⟩ ⟨15⟩ rest within).1 holds⟩

end Assignability
