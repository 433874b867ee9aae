/-
  Assignability.Proofs.Walk.Printing
  ──────────────────────────────────
  **PRINTING AS A WALK THAT ASSERTS.**

  The printer's work, with all that it asserts: a lazy node that is left
  is being shown, and a level that is left was entered.  Every part of a
  text costs fuel.

  With fuel for one more than the levels that are left nothing of this
  fails, and the printer is where it was (`goes_format`).  Whatever the
  levels, what lasts through each step lasts through a text
  (`Lasts.format`).
-/
import Assignability.Printer
import Assignability.Proofs.Walk.Assertion

namespace Assignability

variable {ρ α β : Type}

/-! ## §1. The walk -/

namespace Walk

/-- Takes a lazy node off those that are being shown; it has to be one of them. -/
def leaveLazy (d : LazyId) : Walk (Printing ρ) Unit := fun w =>
  (w.printer.lazies.leave? d).map fun lazies => ((), ⟨w.store, { w.printer with lazies }⟩)

/-- Goes one level of nesting up, which must not be at the top. -/
def leaveLevel : Walk (Printing ρ) Unit := fun w =>
  w.printer.levels.leave?.map fun levels => ((), ⟨w.store, { w.printer with levels }⟩)

section

variable (run : Runner ρ) (format : Handle → Walk (Printing ρ) String)

/-- A lazy node, with `format` for what it stands for. -/
def lazyNode (d : LazyId) : Walk (Printing ρ) String := do
  match ← certain (Print.update fun p =>
      let r := p.lazies.enter d
      (r.1, { p with lazies := r.2 })) with
  | .entered => do
    let text ←
      match ← certain (Print.build (Store.destination? run d)) with
      | some h => format h
      | none => pure Intrinsic.never.keyword
    leaveLazy d
    pure text
  | .cycle => pure "<recursive>"
  | .tooDeep | .exhausted => pure Assignability.ellipsis

/-- A descriptor, with `format` for its parts. -/
def describeText (h : Handle) : Walk (Printing ρ) String :=
  (Draft.describe h).run format (lazyNode run format) (certain Print.store)

end

/-- A descriptor one level down; past the last level three dots. -/
def countedText (describe : Handle → Walk (Printing ρ) String) (h : Handle) :
    Walk (Printing ρ) String := do
  if ← certain (Print.update fun p =>
      let r := p.levels.enter
      (r.1, { p with levels := r.2 })) then do
    let text ← describe h
    leaveLevel
    pure text
  else pure Assignability.ellipsis

/-- The text of a descriptor, with fuel for the levels below it. -/
def format (run : Runner ρ) : Nat → Handle → Walk (Printing ρ) String
  | 0 => fun _ => broken
  | fuel + 1 => countedText (describeText run (format run fuel))

end Walk

/-! ## §2. What printing leaves as it was -/

namespace Print

/-- Two states at the same level of nesting, under the same limit. -/
def AtLevel (w w' : Printing ρ) : Prop :=
  w'.printer.levels.depth = w.printer.levels.depth ∧
    w'.printer.levels.limit = w.printer.levels.limit

theorem AtLevel.trans {w w' w'' : Printing ρ} (h : AtLevel w w') (h' : AtLevel w' w'') :
    AtLevel w w'' := ⟨h'.1.trans h.1, h'.2.trans h.2⟩

/-- The second state shows the same lazy nodes at the same level as the first, and its store has
kept what resolvers keep. -/
structure Kept (I : Store ρ → Prop) (w w' : Printing ρ) : Prop where
  store : I w.store → I w'.store
  path : ∀ d : LazyId, w'.printer.lazies.path[d]? = w.printer.lazies.path[d]?
  depth : w'.printer.lazies.depth = w.printer.lazies.depth
  level : AtLevel w w'

variable {I : Store ρ → Prop} {w w' w'' : Printing ρ}

theorem Kept.refl (I : Store ρ → Prop) (w : Printing ρ) : Kept I w w :=
  ⟨id, fun _ => rfl, rfl, rfl, rfl⟩

theorem Kept.trans (h : Kept I w w') (h' : Kept I w' w'') : Kept I w w'' where
  store := h'.store ∘ h.store
  path := fun d => (h'.path d).trans (h.path d)
  depth := h'.depth.trans h.depth
  level := h.level.trans h'.level

/-! ## §3. Texts -/

theorem update_apply (f : Printer → α × Printer) (w : Printing ρ) :
    update f w = ((f w.printer).1, ⟨w.store, (f w.printer).2⟩) := rfl

variable {run : Runner ρ} {walk : Handle → Walk (Printing ρ) String}
  {format : Handle → Print ρ String}

/-- A draft is written where its parts are. -/
theorem goes_draft {walkLazy : LazyId → Walk (Printing ρ) String}
    {lazyNode : LazyId → Print ρ String} {w₀ : Printing ρ}
    (formats : ∀ h w, AtLevel w₀ w → (walk h).Goes (Kept I w) (format h) w)
    (lazies : ∀ d w, AtLevel w₀ w → (walkLazy d).Goes (Kept I w) (lazyNode d) w) (q : Draft ρ α) :
    ∀ w, AtLevel w₀ w → (q.run walk walkLazy (.certain Print.store)).Goes (Kept I w)
      (q.run format lazyNode Print.store) w := by
  have goesOn : ∀ {β : Type} {x : Walk (Printing ρ) β} {x' : Print ρ β}
      {f : β → Walk (Printing ρ) α} {f' : β → Print ρ α} (w : Printing ρ), AtLevel w₀ w →
      x.Goes (Kept I w) x' w →
      (∀ b w', AtLevel w₀ w' → (f b).Goes (Kept I w') (f' b) w') →
      (x >>= f).Goes (Kept I w) (x' >>= f') w := by
    intro β x x' f f' w level first next
    refine .bind first.follows ((next _ _ (level.trans first.ends.level)).imp fun _ => ?_)
    exact first.ends.trans
  induction q with
  | done a => exact fun w _ => Walk.goes_pure a (.refl I w)
  | part h next ih => exact fun w level => goesOn w level (formats h w level) ih
  | lazyPart d next ih => exact fun w level => goesOn w level (lazies d w level) ih
  | look next ih =>
    exact fun w level => goesOn w level ⟨Walk.follows_certain Print.store w, .refl I w⟩ ih

/-- A state in which a lazy node is shown that was not being shown before. -/
structure Shows (I : Store ρ → Prop) (d : LazyId) (w w' : Printing ρ) : Prop where
  offPath : w.printer.lazies.path[d]? = none
  store : I w.store → I w'.store
  path : ∀ e : LazyId, w'.printer.lazies.path[e]?
    = if d == e then some (w.printer.lazies.depth + 1) else w.printer.lazies.path[e]?
  depth : w'.printer.lazies.depth = w.printer.lazies.depth + 1
  level : AtLevel w w'

theorem Shows.trans {d : LazyId} (h : Shows I d w w') (h' : Kept I w' w'') : Shows I d w w'' where
  offPath := h.offPath
  store := h'.store ∘ h.store
  path := fun e => (h'.path e).trans (h.path e)
  depth := h'.depth.trans h.depth
  level := h.level.trans h'.level

/-- A lazy node that is being shown can be left, and then the printer is where it was before. -/
theorem Shows.leave {d : LazyId} (h : Shows I d w w') (text : String) :
    (Walk.leaveLazy d >>= fun _ => pure text).Goes (Kept I w)
      (update (fun p => ((), { p with lazies := p.lazies.leave d })) >>= fun _ => pure text)
        w' := by
  have onPath : w'.printer.lazies.path[d]? = some (w.printer.lazies.depth + 1) := by
    rw [h.path, if_pos (beq_self_eq_true d)]
  have leaves : (Walk.leaveLazy d).Follows
      (update fun p => ((), { p with lazies := p.lazies.leave d })) w' := by
    unfold Walk.Follows Walk.leaveLazy
    rw [Guard.leave?_eq_some onPath]
    rfl
  refine .bind leaves (Walk.goes_pure text ⟨h.store, fun e => ?_, ?_, h.level⟩)
  · show (w'.printer.lazies.leave d).path[e]? = _
    rw [Guard.getElem?_path_leave, h.path]
    split
    · next same => rw [← eq_of_beq same, h.offPath]
    · rfl
  · show (w'.printer.lazies.leave d).depth = _
    obtain ⟨-, depth, -, -⟩ := w'.printer.lazies.leave_fields d
    rw [depth, onPath, h.depth]
    rfl

/-- A lazy node that is let in is shown from there on, also in the store with what it stands for. -/
theorem shows_entered (destination : ∀ d σ, I σ → I (Store.destination? run d σ).2) {d : LazyId}
    (offPath : w.printer.lazies.path[d]? = none) (attempts : Nat) :
    Shows I d w ⟨(Store.destination? run d w.store).2,
      { w.printer with
        lazies := { w.printer.lazies with
          path := w.printer.lazies.path.insert d (w.printer.lazies.depth + 1)
          depth := w.printer.lazies.depth + 1
          attempts } }⟩ where
  offPath := offPath
  store := destination d w.store
  path := fun _ => Std.HashMap.getElem?_insert
  depth := rfl
  level := ⟨rfl, rfl⟩

/-- A lazy node that was let in is still being shown when it is left. -/
theorem goes_lazyNode (destination : ∀ d σ, I σ → I (Store.destination? run d σ).2) {d : LazyId}
    (formats : ∀ h w', AtLevel w w' → (walk h).Goes (Kept I w') (format h) w') :
    (Walk.lazyNode run walk d).Goes (Kept I w) (lazyNode run format d) w := by
  refine .bind (Walk.follows_certain _ w) ?_
  rw [update_apply]
  dsimp only
  -- refused and back on the path the text is fixed; entered it is that of the destination
  obtain ⟨n, ⟨e, he, hg⟩ | ⟨_, -, hg⟩ | ⟨offPath, -, hg⟩⟩ := w.printer.lazies.enter_cases d
  · rw [hg]
    cases e with
    | entered | cycle => cases he
    | tooDeep | exhausted => exact Walk.goes_pure _ ⟨id, fun _ => rfl, rfl, rfl, rfl⟩
  · rw [hg]
    exact Walk.goes_pure _ ⟨id, fun _ => rfl, rfl, rfl, rfl⟩
  · rw [hg]
    refine .bind (Walk.follows_certain (build (Store.destination? run d)) _) ?_
    have shows := shows_entered destination offPath n
    dsimp only [build]
    cases (Store.destination? run d w.store).1 with
    | none =>
      refine .bind (Walk.follows_pure Intrinsic.never.keyword _) ?_
      exact shows.leave _
    | some h =>
      have text := formats h _ shows.level
      refine .bind text.follows ?_
      exact (shows.trans text.ends).leave _

/-- A descriptor is written where its parts are. -/
theorem goes_describe (destination : ∀ d σ, I σ → I (Store.destination? run d σ).2)
    (formats : ∀ h w', AtLevel w w' → (walk h).Goes (Kept I w') (format h) w') (h : Handle) :
    (Walk.describeText run walk h).Goes (Kept I w) (describe run format h) w := by
  have lazies : ∀ d w', AtLevel w w' →
      (Walk.lazyNode run walk d).Goes (Kept I w') (lazyNode run format d) w' :=
    fun d w' level => goes_lazyNode destination fun h w'' level' =>
      formats h w'' (level.trans level')
  exact goes_draft formats lazies (Draft.describe h) w ⟨rfl, rfl⟩

/-- One level down. -/
def lowered (w : Printing ρ) : Printing ρ :=
  ⟨w.store, { w.printer with
    levels := { w.printer.levels with depth := w.printer.levels.depth + 1 } }⟩

/-- Below the top a level can be left, and then the printer is where it was before. -/
theorem Kept.leave (h : Kept I (lowered w) w') (text : String) :
    (Walk.leaveLevel >>= fun _ => pure text).Goes (Kept I w)
      (update (fun p => ((), { p with levels := p.levels.leave })) >>= fun _ => pure text) w' := by
  have depth : w'.printer.levels.depth = w.printer.levels.depth + 1 := h.level.1
  have leaves : (Walk.leaveLevel : Walk (Printing ρ) Unit).Follows
      (update fun p => ((), { p with levels := p.levels.leave })) w' := by
    unfold Walk.Follows Walk.leaveLevel
    rw [Levels.leave?_eq_some (by rw [depth]; exact Nat.succ_ne_zero _)]
    rfl
  refine .bind leaves (Walk.goes_pure text ⟨h.store, h.path, h.depth, ?_, h.level.2⟩)
  show w'.printer.levels.depth - 1 = _
  rw [depth]
  rfl

/-- A level that is entered is left from below the top. -/
theorem goes_counted {walk : Handle → Walk (Printing ρ) String}
    {describe : Handle → Print ρ String} {h : Handle}
    (describes : w.printer.levels.depth < w.printer.levels.limit →
      (walk h).Goes (Kept I (lowered w)) (describe h) (lowered w)) :
    (Walk.countedText walk h).Goes (Kept I w) (counted describe h) w := by
  refine .bind (Walk.follows_certain _ w) ?_
  rw [update_apply]
  dsimp only
  unfold Levels.enter
  split
  · exact Walk.goes_pure _ ⟨id, fun _ => rfl, rfl, rfl, rfl⟩
  · next room =>
    have text := describes (Nat.lt_of_not_le room)
    refine .bind text.follows ?_
    exact text.ends.leave _

/-- Fuel for one more than the levels that are left is enough. -/
theorem goes_formatWithin (destination : ∀ d σ, I σ → I (Store.destination? run d σ).2)
    (levels : Nat) : ∀ (fuel : Nat) (h : Handle) (w : Printing ρ), levels < fuel →
      w.printer.levels.depth + levels = w.printer.levels.limit →
      (Walk.format run fuel h).Goes (Kept I w) (formatWithin run levels h) w := by
  induction levels with
  | zero =>
    intro fuel h w enough room
    obtain ⟨fuel, rfl⟩ : ∃ n, fuel = n + 1 := ⟨fuel - 1, by omega⟩
    -- no level is entered
    exact goes_counted fun deeper => absurd deeper (by omega)
  | succ levels ih =>
    intro fuel h w enough room
    obtain ⟨fuel, rfl⟩ : ∃ n, fuel = n + 1 := ⟨fuel - 1, by omega⟩
    refine goes_counted fun _ => goes_describe destination (fun h w' level => ?_) h
    have depth : w'.printer.levels.depth = w.printer.levels.depth + 1 := level.1
    have limit : w'.printer.levels.limit = w.printer.levels.limit := level.2
    exact ih fuel h w' (by omega) (by rw [depth, limit]; omega)

/-- **A TEXT FROM OUTSIDE BREAKS NO ASSERTION AND ENDS**, and the printer is where it was. -/
theorem goes_format (destination : ∀ d σ, I σ → I (Store.destination? run d σ).2) {fuel : Nat}
    (h : Handle) (top : w.printer.levels.depth = 0) (enough : w.printer.levels.limit < fuel) :
    (Walk.format run fuel h).Goes (Kept I w) (Print.format run h) w := by
  have within := goes_formatWithin destination _ fuel h w enough (by omega)
  exact ⟨within.follows, within.ends⟩

end Print

/-! ## §4. What lasts -/

namespace Print

variable {run : Runner ρ} {I : Store ρ → Prop}

theorem bind_apply (x : Print ρ α) (f : α → Print ρ β) (w : Printing ρ) :
    (x >>= f) w = f (x w).1 (x w).2 := rfl

/-- A property that is kept by resolving, by the path of lazy nodes, and by counting levels. -/
structure Lasts (run : Runner ρ) (P : Printing ρ → Prop) : Prop where
  destination : ∀ d w, P w → P ⟨(Store.destination? run d w.store).2, w.printer⟩
  enter : ∀ d w, P w → P ⟨w.store, { w.printer with lazies := (w.printer.lazies.enter d).2 }⟩
  leave : ∀ d w, P w → P ⟨w.store, { w.printer with lazies := w.printer.lazies.leave d }⟩
  down : ∀ w, P w → P ⟨w.store, { w.printer with levels := w.printer.levels.enter.2 }⟩
  up : ∀ w, P w → P ⟨w.store, { w.printer with levels := w.printer.levels.leave }⟩

theorem lasts_store (destination : ∀ d σ, I σ → I (Store.destination? run d σ).2) :
    Lasts run fun w => I w.store where
  destination := fun d w => destination d w.store
  enter := fun _ _ kept => kept
  leave := fun _ _ kept => kept
  down := fun _ kept => kept
  up := fun _ kept => kept

namespace Lasts

variable {P : Printing ρ → Prop}

/-- Writing a draft keeps what writing its parts keeps. -/
theorem draft {format : Handle → Print ρ String} {lazyNode : LazyId → Print ρ String}
    (formats : ∀ h w, P w → P (format h w).2) (lazies : ∀ d w, P w → P (lazyNode d w).2)
    (q : Draft ρ α) : ∀ w, P w → P (q.run format lazyNode Print.store w).2 := by
  induction q with
  | done a => exact fun _ kept => kept
  | part h next ih => exact fun w kept => ih _ _ (formats h w kept)
  | lazyPart d next ih => exact fun w kept => ih _ _ (lazies d w kept)
  | look next ih => exact fun w kept => ih _ w kept

variable (lasts : Lasts run P)
include lasts

theorem lazyNode {format : Handle → Print ρ String} (formats : ∀ h w, P w → P (format h w).2)
    (d : LazyId) (w : Printing ρ) (kept : P w) : P (lazyNode run format d w).2 := by
  have entered := lasts.enter d w kept
  unfold Print.lazyNode
  rw [bind_apply, update_apply]
  dsimp only
  cases (w.printer.lazies.enter d).1 with
  | entered =>
    have found := lasts.destination d _ entered
    dsimp only
    rw [bind_apply]
    dsimp only [build]
    cases (Store.destination? run d w.store).1 with
    | none => exact lasts.leave d _ found
    | some h => exact lasts.leave d _ (formats h _ found)
  | cycle | tooDeep | exhausted => exact entered

theorem counted {describe : Handle → Print ρ String} (describes : ∀ h w, P w → P (describe h w).2)
    (h : Handle) (w : Printing ρ) (kept : P w) : P (counted describe h w).2 := by
  have entered := lasts.down w kept
  unfold Print.counted
  show P ((if w.printer.levels.enter.1 = true then _ else _ : Print ρ String) _).2
  split
  · exact lasts.up _ (describes h _ entered)
  · exact entered

theorem formatWithin (levels : Nat) : ∀ h w, P w → P (formatWithin run levels h w).2 := by
  induction levels with
  | zero => exact lasts.counted fun _ _ kept => kept
  | succ levels ih => exact lasts.counted fun h => draft ih (lasts.lazyNode ih) (Draft.describe h)

/-- **WHAT LASTS THROUGH EACH STEP LASTS THROUGH A TEXT.** -/
theorem format (h : Handle) (w : Printing ρ) (kept : P w) : P (Print.format run h w).2 :=
  lasts.formatWithin _ h w kept

end Lasts

end Print

end Assignability
