/-
  Assignability.Proofs.Checker.Replay
  ───────────────────────────────────
  **A COMPARISON CAN BE REPEATED IN A LATER STORE.**

  A comparison may carry out resolvers on its way, and the store grows
  under it.  Whatever it read and resolved is there afterwards: made again
  with the same checker in any later store, it goes the same way, and this
  time builds nothing (`Repeated`).  So a comparison in a growing store is
  one in a store that stays as it is.

  Main statements: `repeated_check` and `repeated_relate`.
-/
import Assignability.Proofs.Checker.Frame
import Assignability.Proofs.Relation.Steady

namespace Assignability

variable {ρ α β : Type} {run : Runner ρ} {σ τ : Store ρ}

/-! ## §1. Work that can be repeated -/

/-- Work with a checker as a step of building, which gives the checker as well. -/
def Inquire.asBuild (work : Inquire ρ α) (c : Checker) : Build ρ (α × Checker) := fun σ =>
  (((work ⟨σ, c⟩).1, (work ⟨σ, c⟩).2.checker), (work ⟨σ, c⟩).2.store)

/-- Work that leads to an orderly later store, and comes to the same in all stores after that,
without changing them. -/
abbrev Repeated (run : Runner ρ) (work : Inquire ρ α) (w : Inquiry ρ) : Prop :=
  Store.Repeats run (fun _ _ => True) (work.asBuild w.checker) w.store

/-- The work comes to the same in another store, without changing that. -/
def Replayed (work : Inquire ρ α) (c : Checker) (σ τ : Store ρ) : Prop :=
  work ⟨τ, c⟩ = ((work ⟨σ, c⟩).1, ⟨τ, (work ⟨σ, c⟩).2.checker⟩)

section

variable {work : Inquire ρ α} {c : Checker}

/-- A replay is an equal answer, an equal checker and a store that stays. -/
theorem Replayed.of_parts (result : (work ⟨τ, c⟩).1 = (work ⟨σ, c⟩).1)
    (checker : (work ⟨τ, c⟩).2.checker = (work ⟨σ, c⟩).2.checker)
    (store : (work ⟨τ, c⟩).2.store = τ) : Replayed work c σ τ := by
  unfold Replayed
  rw [← result, ← checker]
  exact Prod.ext rfl (congrArg (Inquiry.mk · _) store)

/-- What can be repeated is replayed in every later store. -/
theorem Repeated.replayed (h : Repeated run work ⟨σ, c⟩)
    (later : (work ⟨σ, c⟩).2.store.Extends τ) : Replayed work c σ τ := by
  obtain ⟨same, store⟩ := Prod.mk.inj (h.again τ later)
  obtain ⟨result, checker⟩ := Prod.mk.inj same
  exact Replayed.of_parts result checker store

end

/-- Steps in a row can be repeated where each can. -/
theorem Repeated.bind {x : Inquire ρ α} {f : α → Inquire ρ β} {w : Inquiry ρ}
    (hx : Repeated run x w) (hf : Repeated run (f (x w).1) (x w).2) :
    Repeated run (x >>= f) w :=
  have next : Store.Repeats run (fun _ _ => True)
      ((f (x.asBuild w.checker w.store).1.1).asBuild (x.asBuild w.checker w.store).1.2)
      (x.asBuild w.checker w.store).2 := hf
  Store.Repeats.bind (f := fun r => (f r.1).asBuild r.2) hx next

/-- What goes the same way in all later stores can be repeated where one can. -/
theorem Repeated.congr {x y : Inquire ρ α} {w : Inquiry ρ} (hy : Repeated run y w)
    (same : ∀ υ, w.store.Extends υ → x ⟨υ, w.checker⟩ = y ⟨υ, w.checker⟩) :
    Repeated run x w :=
  Store.Repeats.congr hy fun υ hυ => by unfold Inquire.asBuild; rw [same υ hυ]

/-- Work that only returns can be repeated. -/
theorem repeated_pure (a : α) {w : Inquiry ρ} (ho : Store.Orderly run w.store) :
    Repeated run (pure a) w := Store.repeats_pure (a := (a, w.checker)) trivial ho

/-- A change of the checker alone. -/
theorem repeated_update (f : Checker → α × Checker) {w : Inquiry ρ}
    (ho : Store.Orderly run w.store) : Repeated run (Inquire.update f) w :=
  Store.repeats_pure (a := f w.checker) trivial ho

/-- A step on the store alone leaves the checker out of it. -/
theorem repeated_build {good : Store ρ → α → Prop} {step : Build ρ α} {w : Inquiry ρ}
    (h : Store.Repeats run good step w.store) : Repeated run (Inquire.build step) w :=
  Store.Repeats.bind (f := fun a => pure (a, w.checker)) h (Store.repeats_pure trivial h.orderly)

/-! ## §2. Queries -/

/-- Where its questions can be repeated, so can a steady query. -/
theorem repeated_answer {related : Handle → Handle → Inquire ρ Answer}
    {good : Store ρ → α → Prop} {q : Query ρ α}
    (asked : ∀ s t w, Store.Orderly run w.store → w.store.Has s → w.store.Has t →
      Repeated run (related s t) w) (hq : q.Steady good σ) :
    ∀ w, σ.Extends w.store → Store.Orderly run w.store →
      Repeated run (answer run related q) w := by
  -- along the steady query: what each question leaves behind is enough for the next one
  induction hq with
  | done _ => exact fun w _ ho => repeated_pure _ ho
  | ask hs ht _ ih | askKeys hs ht _ ih =>
    intro w later ho
    have first := asked _ _ w ho (later.has hs) (later.has ht)
    exact first.bind (ih _ _ (later.trans first.later) first.orderly)
  | resolve hh _ ih =>
    intro w later ho
    have first := Store.repeats_resolve ho (later.has hh)
    exact (repeated_build first).bind (ih _ _ (later.trans first.later) first.orderly.whole
      first.gives _ (.refl _) first.orderly)
  | @look σ next same _ ih =>
    intro w later ho
    refine (ih w later ho).congr fun υ hυ => ?_
    show answer run related (next υ) ⟨υ, w.checker⟩ = _
    rw [same υ (later.trans hυ)]

/-! ## §3. Comparisons -/

/-- Whether a pair is decided at once depends on its two nodes. -/
theorem atOnce?_congr {s t : Handle} (hs : σ.node? s = τ.node? s) (ht : σ.node? t = τ.node? t)
    (flags : Flags) : σ.atOnce? flags s t = τ.atOnce? flags s t := by
  unfold Store.atOnce? Store.leafPair?
  rw [hs, ht]

section

variable {step : Flags → Handle → Handle → Inquire ρ Answer} {s t : Handle} {c : Checker}

/-- How a pair is compared that is not known, with a checker that tries to enter it. -/
def guarded (step : Flags → Handle → Handle → Inquire ρ Answer) (s t : Handle)
    (entry : Entry × Checker) : Inquire ρ Answer := do
  match ← Inquire.update fun _ => entry with
  | .cycle => Inquire.update fun c => (.assumed, c.assume (s, t))
  | .tooDeep | .exhausted => pure .cutOff
  | .entered =>
    let outer ← Inquire.update Checker.setAside
    let a ← step entry.2.setAside.2.flags s t
    Inquire.update (Checker.conclude (s, t) outer a)

/-- A comparison whose pair is not known goes on to the guard. -/
theorem compareWith_of_unknown (h : (⟨σ, c⟩ : Inquiry ρ).known? s t = none) :
    compareWith step s t ⟨σ, c⟩ = guarded step s t (c.enter (s, t)) ⟨σ, c⟩ := by
  have enters : Inquire.update (Checker.enter (s, t)) (⟨σ, c⟩ : Inquiry ρ)
      = ((c.enter (s, t)).1, ⟨σ, (c.enter (s, t)).2⟩) := rfl
  unfold compareWith guarded
  rw [h]
  dsimp only
  rw [enters]
  obtain ⟨entry, c'⟩ := c.enter (s, t)
  cases entry <;> rfl

/-- What the guard lets in can be repeated where the step of the rules can. -/
theorem repeated_guarded {entry : Entry × Checker} {w : Inquiry ρ}
    (ho : Store.Orderly run w.store)
    (steps : ∀ flags c, Repeated run (step flags s t) ⟨w.store, c⟩) :
    Repeated run (guarded step s t entry) w := by
  refine (repeated_update (fun _ => entry) ho).bind ?_
  show Repeated run (match entry.1 with
    | .cycle => _
    | .tooDeep | .exhausted => _
    | .entered => _) ⟨w.store, entry.2⟩
  cases entry.1 with
  | cycle => exact repeated_update _ ho
  | tooDeep | exhausted => exact repeated_pure _ ho
  | entered =>
    have inner := steps entry.2.setAside.2.flags entry.2.setAside.2
    refine Repeated.bind (repeated_update Checker.setAside ho) ?_
    exact Repeated.bind inner (repeated_update _ inner.orderly)

/-- A comparison can be repeated where its rule can. -/
theorem repeated_compareWith {w : Inquiry ρ} (ho : Store.Orderly run w.store)
    (hs : w.store.Has s) (ht : w.store.Has t)
    (steps : ∀ flags c, Repeated run (step flags s t) ⟨w.store, c⟩) :
    Repeated run (compareWith step s t) w := by
  -- what is known at once is read off the two nodes, which do not change
  have known : ∀ υ, w.store.Extends υ →
      (⟨υ, w.checker⟩ : Inquiry ρ).known? s t = w.known? s t := by
    intro υ hυ
    unfold Inquiry.known?
    rw [atOnce?_congr (hυ.node?_eq hs) (hυ.node?_eq ht)]
  cases hk : w.known? s t with
  | some b =>
    refine (repeated_pure (.ofBool b) ho).congr fun υ hυ => ?_
    unfold compareWith
    rw [known υ hυ, hk]
    rfl
  | none =>
    have guarded : Repeated run (guarded step s t (w.checker.enter (s, t))) w :=
      repeated_guarded ho steps
    refine guarded.congr fun υ hυ => ?_
    exact compareWith_of_unknown ((known υ hυ).trans hk)

end

/-- **A COMPARISON CAN BE REPEATED IN A LATER STORE.** -/
theorem repeated_compareWithin (levels : Nat) : ∀ (s t : Handle) (w : Inquiry ρ),
    Store.Orderly run w.store → w.store.Has s → w.store.Has t →
    Repeated run (compareWithin run levels s t) w := by
  induction levels with
  | zero =>
    intro s t w ho hs ht
    exact repeated_compareWith ho hs ht fun _ c => repeated_pure _ ho
  | succ levels ih =>
    intro s t w ho hs ht
    refine repeated_compareWith ho hs ht fun flags c => ?_
    exact repeated_answer ih (Query.runs_step flags ho.whole hs ht) _ (.refl _) ho

/-- **A CHECK CAN BE REPEATED**, and then it builds nothing. -/
theorem repeated_check {s t : Handle} {w : Inquiry ρ} (ho : Store.Orderly run w.store)
    (hs : w.store.Has s) (ht : w.store.Has t) : Repeated run (check run s t) w :=
  (repeated_compareWithin w.checker.guard.limits.depth s t w ho hs ht).congr fun _ _ => rfl

/-- So can a question. -/
theorem repeated_holds {kind : Question} {s t : Handle} {w : Inquiry ρ}
    (ho : Store.Orderly run w.store) (hs : w.store.Has s) (ht : w.store.Has t) :
    Repeated run (Store.holds run kind s t) w := by
  have checked : Repeated run (check run s t) w := repeated_check ho hs ht
  have first : Repeated run (isRelated run s t) w :=
    checked.bind (repeated_pure _ checked.orderly)
  refine first.bind ?_
  cases kind with
  | assignable => exact repeated_pure _ first.orderly
  | identical =>
    dsimp only
    split
    · have second := repeated_check (w := (isRelated run s t w).2) first.orderly
        (first.later.has ht) (first.later.has hs)
      exact second.bind (repeated_pure _ second.orderly)
    · exact repeated_pure _ first.orderly

/-- A question is answered the same way again in all later stores. -/
theorem repeated_relate {kind : Question} {policy : Policy} {s t : Handle}
    (ho : Store.Orderly run σ) (hs : σ.Has s) (ht : σ.Has t) :
    Store.Repeats run (fun _ _ => True) (Store.relate run policy kind s t) σ := by
  have whole : Repeated run (Store.holds run kind s t) ⟨σ, .new policy⟩ := repeated_holds ho hs ht
  let finding (r : Bool × Checker) : Finding := ⟨kind, r.1, r.2.exceeded⟩
  have found (r : Bool × Checker) : Store.Repeats run (fun _ _ => True) (pure (finding r))
      (Store.holds run kind s t ⟨σ, .new policy⟩).2.store :=
    Store.repeats_pure trivial whole.orderly
  exact Store.Repeats.bind (f := fun r => pure (finding r)) whole (found _)

end Assignability
