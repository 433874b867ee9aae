/-
  Assignability.Proofs.Checker.Frame
  ──────────────────────────────────
  **WHAT A COMPARISON LEAVES AS IT WAS.**

  A comparison puts pairs on the path and takes them off again: when it
  has come to its answer, path and depth are as they were, and a limit
  that was hit stays hit (`Kept`).  Where all that can be reached is
  settled, the store stays as well, and an answer is cut off only where a
  limit was hit; so without one every question about keys is decided
  (`KeysDecidedWithin`).

  Main statements:
    • `compared` — the four ways in which a comparison can go,
    • `kept_compareWithin` — what is kept on each of them,
    • `ends_compareWithin` — what more is with a store at rest.
-/
import Assignability.Proofs.Relation.Rules
import Assignability.Relation.Relate

namespace Assignability

variable {ρ : Type} {run : Runner ρ}

/-! ## §1. Answering a query -/

section

variable {α β : Type} {related : Handle → Handle → Inquire ρ Answer}

/-- A query is answered before what follows it. -/
theorem answer_bind (q : Query ρ α) (f : α → Query ρ β) (w : Inquiry ρ) :
    answer run related (q.bind f) w
      = answer run related (f (answer run related q w).1) (answer run related q w).2 := by
  induction q generalizing w with
  | done a => rfl
  | ask s t next ih => exact ih _ _
  | askKeys s t next ih => exact ih _ _
  | resolve h next ih => exact ih _ _
  | look next ih => exact ih _ _

variable (run related) in
/-- Where a query is answered from a state, no question about keys is cut off, in its own answering
nor, by `decided`, in that of its questions. -/
def Query.KeysDecided (decided : Handle → Handle → Inquiry ρ → Prop) :
    Query ρ α → Inquiry ρ → Prop
  | done _, _ => True
  | ask s t next, w =>
    decided s t w ∧ (next (related s t w).1).KeysDecided decided (related s t w).2
  | askKeys s t next, w =>
    decided s t w ∧ (related s t w).1 ≠ .cutOff ∧
      (next (related s t w).1).KeysDecided decided (related s t w).2
  | .resolve h next, w =>
    (next (Store.resolve run h w.store).1).KeysDecided decided
      ⟨(Store.resolve run h w.store).2, w.checker⟩
  | .look next, w => (next w.store).KeysDecided decided w

/-- Two queries in a row decide their questions about keys where each does. -/
theorem Query.keysDecided_bind {decided : Handle → Handle → Inquiry ρ → Prop} (q : Query ρ α)
    (f : α → Query ρ β) (w : Inquiry ρ) :
    (q.bind f).KeysDecided run related decided w
      ↔ q.KeysDecided run related decided w ∧
        (f (answer run related q w).1).KeysDecided run related decided
          (answer run related q w).2 := by
  -- along the first query; its questions come first on both sides
  induction q generalizing w with
  | done a => exact (iff_of_eq (true_and _)).symm
  | ask s t next ih =>
    show _ ∧ _ ↔ (_ ∧ _) ∧ _
    rw [ih, and_assoc]
    rfl
  | askKeys s t next ih =>
    show _ ∧ _ ∧ _ ↔ (_ ∧ _ ∧ _) ∧ _
    rw [ih, and_assoc, and_assoc]
    rfl
  | resolve h next ih => exact ih _ _
  | look next ih => exact ih _ _

end

/-! ## §2. The ways of a comparison -/

namespace Inquiry

/-- The state with a pair on the path, where `attempts` have been counted, and nothing assumed. -/
def opened (w : Inquiry ρ) (p : Pair) (attempts : Nat) : Inquiry ρ where
  store := w.store
  checker := { w.checker with
    guard := { w.checker.guard with
      path := w.checker.guard.path.insert p (w.checker.guard.depth + 1)
      depth := w.checker.guard.depth + 1
      attempts }
    assumption := none }

/-- The state in which the rule for a pair is looked at, if it comes to that. -/
def opens? (w : Inquiry ρ) (s t : Handle) : Option (Inquiry ρ) :=
  match w.known? s t with
  | some _ => none
  | none =>
    match Inquire.update (Checker.enter (s, t)) w with
    | (.entered, w) => some (Inquire.update Checker.setAside w).2
    | _ => none

end Inquiry

/-- A comparison and how it ends: the pair is known, or on the path, or refused, or the rule for it
is looked at. -/
inductive Compared (step : Flags → Handle → Handle → Inquire ρ Answer) (s t : Handle)
    (w : Inquiry ρ) : Answer × Inquiry ρ → Prop
  | known {b : Bool} (h : w.known? s t = some b) (opens : w.opens? s t = none) :
    Compared step s t w (.ofBool b, w)
  | cycle {d attempts : Nat} (opens : w.opens? s t = none)
    (onPath : w.checker.guard.path[(s, t)]? = some d) :
    Compared step s t w (.assumed, ⟨w.store, { w.checker with
      guard := { w.checker.guard with attempts }
      assumption := shallower w.checker.assumption (some d) }⟩)
  | refused {attempts : Nat} (opens : w.opens? s t = none) :
    Compared step s t w (.cutOff, ⟨w.store, { w.checker with
      guard := { w.checker.guard with attempts, exceeded := true } }⟩)
  | entered {attempts : Nat} (h : w.known? s t = none)
    (opens : w.opens? s t = some (w.opened (s, t) attempts))
    (offPath : w.checker.guard.path[(s, t)]? = none)
    (deeper : w.checker.guard.depth < w.checker.guard.limits.depth) :
    Compared step s t w
      (Inquire.update (Checker.conclude (s, t) w.checker.assumption
          (step w.checker.flags s t (w.opened (s, t) attempts)).1)
        (step w.checker.flags s t (w.opened (s, t) attempts)).2)

/-- The ways of an attempt to enter a key. -/
theorem Guard.enter_cases {κ : Type} [BEq κ] [LawfulBEq κ] [Hashable κ] (g : Guard κ) (k : κ) :
    ∃ attempts,
      (∃ e : Entry, e.isRefused = true ∧
        g.enter k = (e, { g with attempts, exceeded := true })) ∨
      (∃ d, g.path[k]? = some d ∧ g.enter k = (.cycle, { g with attempts })) ∨
      (g.path[k]? = none ∧ g.depth < g.limits.depth ∧ g.enter k = (.entered, { g with
        path := g.path.insert k (g.depth + 1), depth := g.depth + 1, attempts })) := by
  obtain ⟨limits, path, depth, attempts, exceeded⟩ := g
  refine ⟨min (attempts + 1) lastAttempt, ?_⟩
  unfold enter
  -- in the order of the guard: attempts, path, depth
  by_cases exhausted : limits.attempts < min (attempts + 1) lastAttempt
  · exact .inl ⟨.exhausted, rfl, by simp only [exhausted, if_true]⟩
  · cases onPath : path[k]? with
    | some d =>
      have contained : path.contains k = true := by
        rw [Std.HashMap.contains_eq_isSome_getElem?, onPath]
        rfl
      exact .inr (.inl ⟨d, rfl, by simp only [exhausted, if_false, contained, if_true]⟩)
    | none =>
      have absent : ¬ path.contains k = true := by
        rw [Std.HashMap.contains_eq_isSome_getElem?, onPath]
        decide
      by_cases deep : limits.depth ≤ depth
      · exact .inl ⟨.tooDeep, rfl, by
          simp only [exhausted, if_false, if_neg absent, deep, if_true]⟩
      · exact .inr (.inr ⟨rfl, Nat.lt_of_not_le deep, by
          simp only [exhausted, if_false, if_neg absent, deep]⟩)

/-- Every attempt counts, whatever comes of it. -/
theorem Guard.enter_fields {κ : Type} [BEq κ] [Hashable κ] (g : Guard κ) (k : κ) :
    (g.enter k).2.limits = g.limits ∧
      (g.enter k).2.attempts = min (g.attempts + 1) lastAttempt := by
  obtain ⟨limits, path, depth, attempts, exceeded⟩ := g
  unfold enter
  dsimp only
  split
  · exact ⟨rfl, rfl⟩
  · split
    · exact ⟨rfl, rfl⟩
    · split
      · exact ⟨rfl, rfl⟩
      · exact ⟨rfl, rfl⟩

/-- A comparison goes one of the ways that are told apart here, and no other. -/
theorem compared (step : Flags → Handle → Handle → Inquire ρ Answer) (s t : Handle)
    (w : Inquiry ρ) : Compared step s t w (compareWith step s t w) := by
  cases hk : w.known? s t with
  | some b =>
    have opens : w.opens? s t = none := by
      unfold Inquiry.opens?
      rw [hk]
    unfold compareWith
    rw [hk]
    exact .known hk opens
  | none =>
    have entry : Inquire.update (Checker.enter (s, t)) w
        = ((w.checker.guard.enter (s, t)).1,
          ⟨w.store, { w.checker with guard := (w.checker.guard.enter (s, t)).2 }⟩) := rfl
    obtain ⟨n, ⟨e, he, hg⟩ | ⟨d, hd, hg⟩ | ⟨offPath, deeper, hg⟩⟩ :=
      w.checker.guard.enter_cases (s, t)
    · -- a limit stands against it
      have opens : w.opens? s t = none := by
        unfold Inquiry.opens?
        rw [hk, entry, hg]
        cases e <;> first | rfl | cases he
      unfold compareWith
      rw [hk, entry, hg]
      cases e with
      | entered => cases he
      | cycle => cases he
      | tooDeep => exact .refused opens
      | exhausted => exact .refused opens
    · -- the pair came back; the depth that is noted is the one it was entered at
      have opens : w.opens? s t = none := by
        unfold Inquiry.opens?
        rw [hk, entry, hg]
      have assumed : Inquire.update (fun c => (Answer.assumed, c.assume (s, t)))
          (⟨w.store, { w.checker with guard := { w.checker.guard with attempts := n } }⟩
            : Inquiry ρ)
          = (.assumed, ⟨w.store, { w.checker with
            guard := { w.checker.guard with attempts := n }
            assumption := shallower w.checker.assumption (some d) }⟩) := by
        show (Answer.assumed, (⟨w.store, { w.checker with
          guard := { w.checker.guard with attempts := n }
          assumption := shallower w.checker.assumption
            (some (w.checker.guard.path.getD (s, t) 0)) }⟩ : Inquiry ρ)) = _
        rw [Std.HashMap.getD_eq_getD_getElem?, hd]
        rfl
      unfold compareWith
      rw [hk, entry, hg]
      dsimp only
      rw [assumed]
      exact .cycle opens hd
    · have opens : w.opens? s t = some (w.opened (s, t) n) := by
        unfold Inquiry.opens?
        rw [hk, entry, hg]
        rfl
      unfold compareWith
      rw [hk, entry, hg]
      exact .entered hk opens offPath deeper

/-! ## §3. What is kept -/

/-- What a comparison that starts in the first state and ends in the second leaves as it was. -/
structure Kept (w w' : Inquiry ρ) : Prop where
  flags : w'.checker.flags = w.checker.flags
  limits : w'.checker.guard.limits = w.checker.guard.limits
  depth : w'.checker.guard.depth = w.checker.guard.depth
  path : ∀ p : Pair, w'.checker.guard.path[p]? = w.checker.guard.path[p]?
  exceeded : w.checker.exceeded = true → w'.checker.exceeded = true

/-- To do nothing keeps everything. -/
theorem Kept.refl (w : Inquiry ρ) : Kept w w := ⟨rfl, rfl, rfl, fun _ => rfl, id⟩

/-- What is kept twice in a row is kept. -/
theorem Kept.trans {w w' w'' : Inquiry ρ} (h : Kept w w') (h' : Kept w' w'') : Kept w w'' where
  flags := h'.flags.trans h.flags
  limits := h'.limits.trans h.limits
  depth := h'.depth.trans h.depth
  path := fun p => (h'.path p).trans (h.path p)
  exceeded := fun he => h'.exceeded (h.exceeded he)

/-- Where a limit was not hit in the end, it was not hit before. -/
theorem Kept.within_limits {w w' : Inquiry ρ} (h : Kept w w')
    (hw : w'.checker.exceeded = false) : w.checker.exceeded = false := by
  cases he : w.checker.exceeded with
  | false => rfl
  | true =>
    rw [h.exceeded he] at hw
    cases hw

/-- An answered query keeps what the answers to its questions keep. -/
theorem kept_answer {α : Type} {related : Handle → Handle → Inquire ρ Answer}
    (keeps : ∀ a b w, Kept w (related a b w).2) (q : Query ρ α) :
    ∀ w, Kept w (answer run related q w).2 := by
  induction q with
  | done a => exact .refl
  | ask s t next ih => exact fun w => (keeps s t w).trans (ih _ _)
  | askKeys s t next ih => exact fun w => (keeps s t w).trans (ih _ _)
  | resolve h next ih =>
    intro w
    have built : Kept w ⟨(Store.resolve run h w.store).2, w.checker⟩ :=
      ⟨rfl, rfl, rfl, fun _ => rfl, id⟩
    exact built.trans (ih _ _)
  | look next ih => exact fun w => ih _ w

/-- Taking a key off the path, as seen key by key. -/
theorem Guard.getElem?_path_leave {κ : Type} [BEq κ] [LawfulBEq κ] [Hashable κ] (g : Guard κ)
    (k q : κ) : (g.leave k).path[q]? = if k == q then none else g.path[q]? := by
  obtain ⟨limits, path, depth, attempts, exceeded⟩ := g
  unfold leave
  dsimp only
  by_cases onPath : path.contains k = true
  · rw [if_pos onPath]
    exact Std.HashMap.getElem?_erase
  · rw [if_neg onPath]
    split
    · next hq =>
      obtain rfl := eq_of_beq hq
      rw [Std.HashMap.contains_eq_isSome_getElem?, Option.not_isSome_iff_eq_none] at onPath
      exact onPath
    · rfl

/-- Taking a key off the path leaves all else but the depth. -/
theorem Guard.leave_fields {κ : Type} [BEq κ] [LawfulBEq κ] [Hashable κ] (g : Guard κ) (k : κ) :
    (g.leave k).limits = g.limits ∧
      (g.leave k).depth = (if (g.path[k]?).isSome then g.depth - 1 else g.depth) ∧
      (g.leave k).attempts = g.attempts ∧ (g.leave k).exceeded = g.exceeded := by
  obtain ⟨limits, path, depth, attempts, exceeded⟩ := g
  unfold leave
  dsimp only
  rw [← Std.HashMap.contains_eq_isSome_getElem?]
  by_cases onPath : path.contains k = true
  · rw [if_pos onPath, if_pos onPath]
    exact ⟨rfl, rfl, rfl, rfl⟩
  · rw [if_neg onPath, if_neg onPath]
    exact ⟨rfl, rfl, rfl, rfl⟩

/-- Concluding a pair hits no limit. -/
theorem exceeded_conclude (p : Pair) (outer : Option Nat) (a : Answer) (w : Inquiry ρ) :
    (Inquire.update (Checker.conclude p outer a) w).2.checker.exceeded = w.checker.exceeded :=
  (w.checker.guard.leave_fields p).2.2.2

/-- The end of a comparison takes the pair off the path, and keeps what was kept in between. -/
theorem kept_conclude {w w' : Inquiry ρ} {p : Pair} {attempts : Nat} {outer : Option Nat}
    {a : Answer} (h : Kept (w.opened p attempts) w') (offPath : w.checker.guard.path[p]? = none) :
    Kept w (Inquire.update (Checker.conclude p outer a) w').2 := by
  obtain ⟨limits, depth, -, -⟩ := w'.checker.guard.leave_fields p
  have onPath : w'.checker.guard.path[p]? = some (w.checker.guard.depth + 1) := by
    rw [h.path]
    exact Std.HashMap.getElem?_insert_self
  constructor
  · exact h.flags
  · show (w'.checker.guard.leave p).limits = _
    rw [limits]
    exact h.limits
  · show (w'.checker.guard.leave p).depth = _
    rw [depth, onPath, Option.isSome_some, if_pos rfl, h.depth]
    rfl
  · intro q
    show (w'.checker.guard.leave p).path[q]? = _
    rw [Guard.getElem?_path_leave]
    split
    · next hq => rw [← eq_of_beq hq, offPath]
    · next hq =>
      -- another key was there before the pair was entered, if it is there
      rw [h.path]
      show (w.checker.guard.path.insert p _)[q]? = _
      rw [Std.HashMap.getElem?_insert, if_neg hq]
  · intro he
    rw [exceeded_conclude]
    exact h.exceeded he

/-- A comparison keeps what its rule keeps. -/
theorem kept_compareWith {step : Flags → Handle → Handle → Inquire ρ Answer}
    (keeps : ∀ flags s t w, Kept w (step flags s t w).2) (s t : Handle) (w : Inquiry ρ) :
    Kept w (compareWith step s t w).2 := by
  generalize hr : compareWith step s t w = r
  have h := compared step s t w
  rw [hr] at h
  cases h with
  | known h opens => exact .refl w
  | cycle opens onPath => exact ⟨rfl, rfl, rfl, fun _ => rfl, id⟩
  | refused opens => exact ⟨rfl, rfl, rfl, fun _ => rfl, fun _ => rfl⟩
  | entered h opens offPath deeper => exact kept_conclude (keeps _ s t _) offPath

/-- **WHAT A COMPARISON KEEPS.** -/
theorem kept_compareWithin (levels : Nat) : ∀ (s t : Handle) (w : Inquiry ρ),
    Kept w (compareWithin run levels s t w).2 := by
  induction levels with
  | zero => exact kept_compareWith fun _ _ _ w => .refl w
  | succ levels ih => exact kept_compareWith fun _ _ _ => kept_answer ih _

/-! ## §4. Stores at rest -/

/-- All lazy nodes that a handle leads to are settled, and no key type is recursive. -/
structure View.Tame (v : View ρ) (run : Runner ρ) (h : Handle) : Prop where
  settled : ∀ g, v.Below h g → Store.resolve run g v.store = (v.stands g, v.store)
  keys : ∀ g, v.Below h g → ∀ k ∈ v.store.keyTypes g, v.IsFinite k

/-- What is below a tame handle is tame. -/
theorem View.Tame.below {v : View ρ} {h g : Handle} (ht : v.Tame run h) (hg : v.Below h g) :
    v.Tame run g :=
  ⟨fun x hx => ht.settled x (hg.trans hx), fun x hx => ht.keys x (hg.trans hx)⟩

/-- The questions about tame handles are about tame handles. -/
theorem View.Poses.tame {v : View ρ} {s t a b : Handle} (hp : v.Poses s t a b)
    (hs : v.Tame run s) (ht : v.Tame run t) : v.Tame run a ∧ v.Tame run b := by
  have descends : ∀ {a b}, v.Descends s t a b → v.Tame run a ∧ v.Tame run b := by
    rintro a b (⟨ha, hb⟩ | ⟨ha, hb⟩)
    · exact ⟨hs.below ha, ht.below hb.below⟩
    · exact ⟨hs.below ha.below, ht.below hb⟩
  rcases hp with h | h
  · exact descends h
  · exact (descends h).symm

/-- All lazy nodes that a pair leads to are settled, and where the pair poses a question about keys,
neither key type is recursive. -/
structure View.PairTame (v : View ρ) (run : Runner ρ) (s t : Handle) : Prop where
  settled : ∀ g, v.Below s g ∨ v.Below t g → Store.resolve run g v.store = (v.stands g, v.store)
  keys : ∀ a b, v.PosesKeys s t a b → v.IsFinite a ∧ v.IsFinite b

/-- Two tame handles are a tame pair. -/
theorem View.Tame.pair {v : View ρ} {s t : Handle} (hs : v.Tame run s) (ht : v.Tame run t) :
    v.PairTame run s t where
  settled := fun g hg => hg.elim (hs.settled g) (ht.settled g)
  keys := by
    rintro a b (⟨⟨g, hg, ha⟩, h, hh, hb⟩ | ⟨⟨g, hg, hb⟩, h, hh, ha⟩)
    · exact ⟨hs.keys g hg a ha, ht.keys h hh b hb⟩
    · exact ⟨ht.keys h hh a ha, hs.keys g hg b hb⟩

/-- What a pair asks about is tame where the pair is. -/
theorem View.Poses.pairTame {v : View ρ} {s t a b : Handle} (hp : v.Poses s t a b)
    (tame : v.PairTame run s t) : v.PairTame run a b where
  settled := by
    have descends : ∀ {a b}, v.Descends s t a b → (v.Below s a ∧ v.Below t b) := by
      rintro a b (⟨ha, hb⟩ | ⟨ha, hb⟩)
      · exact ⟨ha, hb.below⟩
      · exact ⟨ha.below, hb⟩
    intro g hg
    apply tame.settled
    rcases hp with h | h
    · exact hg.imp (descends h).1.trans (descends h).2.trans
    · exact hg.symm.imp (descends h).1.trans (descends h).2.trans
  keys := fun _ _ hk => tame.keys _ _ (hp.posesKeys hk)

/-- How a comparison ends that started in `w` with a store at rest: the store is the same, the
answer is cut off by a limit alone, and the questions about keys were `decided` without one, or
where there are none. -/
structure Ends (w : Inquiry ρ) (r : Answer × Inquiry ρ) (keyless decided : Prop) : Prop where
  store : r.2.store = w.store
  cut : r.1 = .cutOff → r.2.checker.exceeded = true
  decided : keyless ∨ r.2.checker.exceeded = false → decided

/-- An answered query ends as the answers to its questions do. -/
theorem ends_answer {v : View ρ} {c : Query.Scope} {related : Handle → Handle → Inquire ρ Answer}
    {keyless : Prop} {decided : Handle → Handle → Inquiry ρ → Prop} {q : Query ρ Answer}
    {w₀ : Inquiry ρ} (hq : q.Positive v c) (noKeys : keyless → ∀ a b, ¬ c.keys a b)
    (keeps : ∀ a b w, Kept w (related a b w).2)
    (settled : ∀ h, c.follows h → Store.resolve run h v.store = (v.stands h, v.store))
    (asked : ∀ a b, c.asks a b ∨ c.keys a b → ∀ w, Kept w₀ w → w.store = v.store →
      Ends w (related a b w) keyless (decided a b w)) :
    ∀ w, Kept w₀ w → w.store = v.store →
      Ends w (answer run related q w) keyless (q.KeysDecided run related decided w) := by
  induction hq with
  | holds =>
    intro w _ _
    exact ⟨rfl, fun h => (by cases h), fun _ => trivial⟩
  | fails =>
    intro w _ _
    exact ⟨rfl, fun h => (by cases h), fun _ => trivial⟩
  | related hc =>
    intro w hw store
    have h := asked _ _ (.inl hc) w hw store
    exact ⟨h.store, h.cut, fun he => ⟨h.decided he, trivial⟩⟩
  | @andThen q r _ _ ihq ihr =>
    intro w hw store
    have first := ihq w hw store
    have mid : Kept w (answer run related q w).2 := kept_answer keeps q w
    have second := ihr _ (hw.trans mid) (first.store.trans store)
    -- no limit in the end means none in between
    have last : Kept (answer run related q w).2
        (answer run related r (answer run related q w).2).2 := kept_answer keeps r _
    unfold Query.andThen
    rw [Query.bind_eq, answer_bind, Query.keysDecided_bind]
    cases ha : (answer run related q w).1.isTrue with
    | true =>
      rw [if_pos rfl]
      exact ⟨second.store.trans first.store, second.cut, fun he =>
        ⟨first.decided (he.imp_right last.within_limits), second.decided he⟩⟩
    | false =>
      rw [if_neg (by decide)]
      exact ⟨first.store, first.cut, fun he => ⟨first.decided he, trivial⟩⟩
  | @orElse q r next _ _ ht hf ihq ihr =>
    intro w hw store
    have first := ihq w hw store
    have mid : Kept w (answer run related q w).2 := kept_answer keeps q w
    have second := ihr _ (hw.trans mid) (first.store.trans store)
    have last : Kept (answer run related q w).2
        (answer run related r (answer run related q w).2).2 := kept_answer keeps r _
    rw [answer_bind, Query.keysDecided_bind]
    cases ha : (answer run related q w).1.isTrue with
    | true =>
      have notCut : (answer run related q w).1 ≠ .cutOff := by
        intro h
        rw [h] at ha
        cases ha
      rcases ht _ ha with h | h
      · rw [h]
        exact ⟨first.store, fun h => (by cases h), fun he => ⟨first.decided he, trivial⟩⟩
      · rw [h]
        exact ⟨first.store, fun h => absurd h notCut, fun he => ⟨first.decided he, trivial⟩⟩
    | false =>
      rw [hf _ ha, answer_bind, Query.keysDecided_bind]
      refine ⟨second.store.trans first.store, fun h => ?_, fun he =>
        ⟨first.decided (he.imp_right last.within_limits), second.decided he, trivial⟩⟩
      -- cut off is the whole where one of the two was
      change (if _ then _ else _) = Answer.cutOff at h
      split at h
      · exact last.exceeded (first.cut h)
      · exact second.cut h
  | @look next _ ih =>
    intro w hw store
    show Ends w (answer run related (next w.store) w) keyless
      ((next w.store).KeysDecided run related decided w)
    rw [store]
    exact ih w hw store
  | @resolve h next hc _ ih =>
    intro w hw store
    have hr : Store.resolve run h w.store = (v.stands h, w.store) := by
      rw [store]
      exact settled h hc
    show Ends w (answer run related (next (Store.resolve run h w.store).1)
        ⟨(Store.resolve run h w.store).2, w.checker⟩) keyless
      ((next (Store.resolve run h w.store).1).KeysDecided run related decided
        ⟨(Store.resolve run h w.store).2, w.checker⟩)
    rw [hr]
    exact ih w hw store
  | @askKeys s t next hc hn _ ih =>
    intro w hw store
    have first := asked s t (.inr hc) w hw store
    have second := ih (related s t w).1.isTrue _ (hw.trans (keeps s t w))
      (first.store.trans store)
    rw [← hn] at second
    have last : Kept (related s t w).2
        (answer run related (next (related s t w).1) (related s t w).2).2 := kept_answer keeps _ _
    refine ⟨second.store.trans first.store, second.cut, fun he => ?_⟩
    have mid := he.imp_right last.within_limits
    refine ⟨first.decided mid, fun h => ?_, second.decided he⟩
    -- the question about keys was cut off, so there was one, and a limit
    rcases mid with keyless | mid
    · exact noKeys keyless s t hc
    · rw [first.cut h] at mid
      cases mid

variable (run) in
/-- No question about keys is cut off where a pair is compared with a number of levels left. -/
def KeysDecidedWithin : Nat → Handle → Handle → Inquiry ρ → Prop
  | 0, _, _, _ => True
  | levels + 1, s, t, w => ∀ w', w.opens? s t = some w' →
    (Query.step w'.checker.flags s t).KeysDecided run (compareWithin run levels)
      (KeysDecidedWithin levels) w'

/-- An answer is not turned into a cut-off one in the end. -/
theorem conclude_cutOff {p : Pair} {outer : Option Nat} {a : Answer} {w : Inquiry ρ}
    (h : (Inquire.update (Checker.conclude p outer a) w).1 = .cutOff) : a = .cutOff := by
  change (if _ then _ else a) = _ at h
  split at h
  · cases h
  · exact h

/-- A comparison ends with an answer that counts where its rule does. -/
theorem ends_compareWith {step : Flags → Handle → Handle → Inquire ρ Answer} {s t : Handle}
    {w : Inquiry ρ} {keyless : Prop} {decided : Inquiry ρ → Prop}
    (entered : ∀ attempts, w.checker.guard.depth < w.checker.guard.limits.depth →
      Ends (w.opened (s, t) attempts) (step w.checker.flags s t (w.opened (s, t) attempts))
        keyless (decided (w.opened (s, t) attempts))) :
    Ends w (compareWith step s t w) keyless (∀ w', w.opens? s t = some w' → decided w') := by
  have unopened : w.opens? s t = none → ∀ w', w.opens? s t = some w' → decided w' := by
    intro h w' h'
    rw [h] at h'
    cases h'
  generalize hr : compareWith step s t w = r
  have h := compared step s t w
  rw [hr] at h
  cases h with
  | @known b h opens =>
    exact ⟨rfl, fun h => (by cases b <;> cases h), fun _ => unopened opens⟩
  -- known, back on the path or refused: no rule runs, and no key question is asked
  | cycle opens onPath => exact ⟨rfl, fun h => (by cases h), fun _ => unopened opens⟩
  | refused opens => exact ⟨rfl, fun _ => rfl, fun _ => unopened opens⟩
  -- entered: the mark of the limits is the one that the rule leaves
  | @entered attempts h opens offPath deeper =>
    have inner := entered attempts deeper
    refine ⟨inner.store, fun h => ?_, fun he w' hw' => ?_⟩
    · rw [exceeded_conclude]
      exact inner.cut (conclude_cutOff (w := (step _ s t (w.opened (s, t) attempts)).2) h)
    · rw [opens] at hw'
      obtain rfl := Option.some.inj hw'
      rw [exceeded_conclude] at he
      exact inner.decided he

/-- **WITH A STORE AT REST, A LIMIT ALONE CUTS AN ANSWER OFF.** -/
theorem ends_compareWithin {v : View ρ} {keyless : Prop} (levels : Nat) :
    ∀ (s t : Handle) (w : Inquiry ρ), w.store = v.store →
    w.checker.guard.limits.depth = w.checker.guard.depth + levels →
    v.PairTame run s t → (keyless → ∀ a b, ¬ v.PosesKeys s t a b) →
    Ends w (compareWithin run levels s t w) keyless (KeysDecidedWithin run levels s t w) := by
  -- on the levels that are left; without any the pair cannot be entered
  induction levels with
  | zero =>
    intro s t w _ room _ _
    have h : Ends w (compareWith (fun _ _ _ => pure .cutOff) s t w) keyless
        (∀ w', w.opens? s t = some w' → True) :=
      ends_compareWith fun _ deeper => absurd deeper (by omega)
    exact ⟨h.store, h.cut, fun _ => trivial⟩
  | succ levels ih =>
    intro s t w store room tame noKeys
    -- the rule of the pair asks for posed pairs only, and these are one level lower
    have posed : ∀ attempts, Ends (w.opened (s, t) attempts)
        (answer run (compareWithin run levels) (Query.step w.checker.flags s t)
          (w.opened (s, t) attempts)) keyless
        ((Query.step w.checker.flags s t).KeysDecided run (compareWithin run levels)
          (KeysDecidedWithin run levels) (w.opened (s, t) attempts)) := by
      intro attempts
      refine ends_answer (Query.positive_step _ s t) noKeys (kept_compareWithin levels)
        tame.settled ?_ _ (.refl (w.opened (s, t) attempts)) store
      intro a b hab w' hw' store'
      have hp : v.Poses s t a b := hab.elim id View.PosesKeys.poses
      refine ih a b w' store' ?_ (hp.pairTame tame) fun h x y hk => noKeys h x y (hp.posesKeys hk)
      rw [hw'.limits, hw'.depth]
      show w.checker.guard.limits.depth = w.checker.guard.depth + 1 + levels
      omega
    exact ends_compareWith fun attempts _ => posed attempts

/-! ## §5. Comparisons one after the other -/

/-- A check leaves flags, limits, depth and path as they were. -/
theorem kept_check (s t : Handle) (w : Inquiry ρ) : Kept w (check run s t w).2 :=
  kept_compareWithin _ s t w

variable (run) in
/-- Compares pairs one after the other, with one checker. -/
def Inquiry.after (earlier : List Pair) (w : Inquiry ρ) : Inquiry ρ :=
  earlier.foldl (fun w p => (check run p.1 p.2 w).2) w

/-- So do checks one after the other. -/
theorem kept_after (earlier : List Pair) : ∀ w : Inquiry ρ, Kept w (.after run earlier w) := by
  induction earlier with
  | nil => exact .refl
  | cons p ps ih => exact fun w => (kept_check p.1 p.2 w).trans (ih _)

/-- Whether a pair is assignable is asked in one check. -/
theorem holds_assignable (s t : Handle) (w : Inquiry ρ) :
    Store.holds run .assignable s t w
      = ((check run s t w).1.isTrue, (check run s t w).2) := rfl

/-- Whether two types are equivalent is asked in two checks, the second only where the first holds.
-/
theorem holds_identical (s t : Handle) (w : Inquiry ρ) :
    Store.holds run .identical s t w
      = if (check run s t w).1.isTrue then
          ((check run t s (check run s t w).2).1.isTrue, (check run t s (check run s t w).2).2)
        else (false, (check run s t w).2) := by
  show (if (check run s t w).1.isTrue = true then isRelated run t s else pure false)
    (check run s t w).2 = _
  split <;> rfl

/-- A finding is the answer of a new checker, and whether it hit a limit. -/
theorem relate_fst (policy : Policy) (kind : Question) (s t : Handle) (σ : Store ρ) :
    (Store.relate run policy kind s t σ).1
      = ⟨kind, (Store.holds run kind s t ⟨σ, .new policy⟩).1,
        (Store.holds run kind s t ⟨σ, .new policy⟩).2.checker.exceeded⟩ := rfl

end Assignability
