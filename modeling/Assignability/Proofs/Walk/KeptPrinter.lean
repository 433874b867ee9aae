/-
  Assignability.Proofs.Walk.KeptPrinter
  ─────────────────────────────────────
  **A PRINTER THAT IS KEPT.**

  After a text a printer is where it was before, but for one thing: the
  lazy nodes it came to are counted, and the count is not taken back.  So
  a printer that is kept prints like a new one with as many attempts as
  are left.  As long as there are enough of them nobody can tell.

  Two printers are compared step by step.  What the steps need to know of
  the two is a relation of their guards that entering and leaving keep
  (`Guard.Simulates`); one relation compares what is left of two budgets,
  the other one the counts under one budget.

  Main statement: `kept_printer`.
-/
import Assignability.Proofs.Checker.Settled
import Assignability.Proofs.Store.Listing
import Assignability.Proofs.Walk.Printing

namespace Assignability

/-! ## §1. Two guards -/

namespace Guard

variable {κ : Type} [BEq κ] [LawfulBEq κ] [Hashable κ] {g g' : Guard κ} {k : κ}

/-- Guards with the same keys on their paths, under the same limit on depth. -/
structure SamePath (g g' : Guard κ) : Prop where
  path : ∀ k : κ, g'.path[k]? = g.path[k]?
  depth : g'.depth = g.depth
  limit : g'.limits.depth = g.limits.depth

/-- An attempt at a new key, within both limits. -/
theorem enter_of_room (offPath : g.path[k]? = none) (deeper : g.depth < g.limits.depth)
    (room : g.attempts < g.limits.attempts) :
    g.enter k = (.entered, { g with
      path := g.path.insert k (g.depth + 1)
      depth := g.depth + 1
      attempts := min (g.attempts + 1) lastAttempt }) := by
  obtain ⟨limits, path, depth, attempts, exceeded⟩ := g
  have absent : ¬ path.contains k = true := by
    rw [Std.HashMap.contains_eq_isSome_getElem?, offPath]
    decide
  have enough : ¬ limits.attempts < min (attempts + 1) lastAttempt := by
    dsimp only at room
    omega
  unfold enter
  dsimp only
  rw [if_neg enough, if_neg absent, if_neg (Nat.not_le_of_lt deeper)]

omit [LawfulBEq κ] in
/-- An attempt when there is none left. -/
theorem enter_of_exhausted (spent : g.limits.attempts ≤ g.attempts)
    (countable : g.limits.attempts < lastAttempt) : (g.enter k).1 = .exhausted := by
  obtain ⟨limits, path, depth, attempts, exceeded⟩ := g
  have last : limits.attempts < min (attempts + 1) lastAttempt := by
    dsimp only at spent countable
    omega
  unfold enter
  dsimp only
  rw [if_pos last]

/-- The same becomes of an attempt where it is the last straw for both guards or for neither. -/
theorem SamePath.enter (same : SamePath g g')
    (both : g'.limits.attempts < min (g'.attempts + 1) lastAttempt
      ↔ g.limits.attempts < min (g.attempts + 1) lastAttempt) :
    (g.enter k).1 = (g'.enter k).1 ∧ SamePath (g.enter k).2 (g'.enter k).2 := by
  obtain ⟨limits, path, depth, attempts, exceeded⟩ := g
  obtain ⟨limits', path', depth', attempts', exceeded'⟩ := g'
  obtain ⟨paths, depths, limit⟩ := same
  dsimp only at paths depths limit both
  subst depths
  have contains : path'.contains k = path.contains k := by
    rw [Std.HashMap.contains_eq_isSome_getElem?, Std.HashMap.contains_eq_isSome_getElem?, paths]
  unfold Guard.enter
  dsimp only
  -- the three questions of the guard have the same answers
  simp only [both, contains, limit]
  split
  · exact ⟨rfl, ⟨paths, rfl, limit⟩⟩
  · split
    · exact ⟨rfl, ⟨paths, rfl, limit⟩⟩
    · split
      · exact ⟨rfl, ⟨paths, rfl, limit⟩⟩
      · refine ⟨rfl, ⟨fun q => ?_, rfl, limit⟩⟩
        show (path'.insert k (depth' + 1))[q]? = (path.insert k (depth' + 1))[q]?
        rw [Std.HashMap.getElem?_insert, Std.HashMap.getElem?_insert, paths]

theorem SamePath.leave (same : SamePath g g') : SamePath (g.leave k) (g'.leave k) := by
  obtain ⟨limits, depth, -, -⟩ := g.leave_fields k
  obtain ⟨limits', depth', -, -⟩ := g'.leave_fields k
  constructor
  · intro q
    rw [getElem?_path_leave, getElem?_path_leave, same.path]
  · rw [depth, depth', same.path, same.depth]
  · rw [limits, limits', same.limit]

/-- A relation of guards that is kept while both of them enter and leave the same keys, as long as
the second one is well provided; then the same becomes of their attempts. -/
structure Simulates (related : Guard κ → Guard κ → Prop) (provided : Guard κ → Prop) : Prop where
  enter : ∀ {g g' : Guard κ} (k : κ), related g g' → provided (g'.enter k).2 →
    (g.enter k).1 = (g'.enter k).1 ∧ related (g.enter k).2 (g'.enter k).2
  leave : ∀ {g g' : Guard κ} (k : κ), related g g' → related (g.leave k) (g'.leave k)
  /-- What is well provided in the end was so before. -/
  entered : ∀ {g : Guard κ} (k : κ), provided (g.enter k).2 → provided g
  left : ∀ {g : Guard κ} (k : κ), provided (g.leave k) → provided g

/-- Guards with as many attempts left. -/
structure SameLeft (g g' : Guard κ) : Prop extends SamePath g g' where
  left : g'.limits.attempts - g'.attempts = g.limits.attempts - g.attempts
  countable : g.limits.attempts < lastAttempt
  countable' : g'.limits.attempts < lastAttempt

/-- Guards with as many attempts left go on in the same way. -/
theorem simulates_sameLeft : Simulates (SameLeft : Guard κ → Guard κ → Prop) fun _ => True where
  enter := by
    intro g g' k same _
    obtain ⟨path, left, countable, countable'⟩ := same
    obtain ⟨limits, attempts⟩ := g.enter_fields k
    obtain ⟨limits', attempts'⟩ := g'.enter_fields k
    have both : g'.limits.attempts < min (g'.attempts + 1) lastAttempt
        ↔ g.limits.attempts < min (g.attempts + 1) lastAttempt := by omega
    obtain ⟨entry, path'⟩ := path.enter both
    refine ⟨entry, path', ?_, by rw [limits]; exact countable, by rw [limits']; exact countable'⟩
    rw [limits, limits', attempts, attempts']
    omega
  leave := by
    intro g g' k same
    obtain ⟨path, left, countable, countable'⟩ := same
    obtain ⟨limits, -, attempts, -⟩ := g.leave_fields k
    obtain ⟨limits', -, attempts', -⟩ := g'.leave_fields k
    refine ⟨path.leave, ?_, by rw [limits]; exact countable, by rw [limits']; exact countable'⟩
    rw [limits, limits', attempts, attempts', left]
  entered := fun _ _ => trivial
  left := fun _ _ => trivial

/-- Guards under the same limits, of which the first has tried `before` times more. -/
structure Ahead (before : Nat) (g g' : Guard κ) : Prop extends SamePath g g' where
  limits : g'.limits = g.limits
  attempts : g.attempts = g'.attempts + before

/-- With `before` attempts more a guard would still be within its limit. -/
def HasRoom (before : Nat) (g : Guard κ) : Prop :=
  g.attempts + before ≤ g.limits.attempts ∧ g.limits.attempts < lastAttempt

/-- A guard that is ahead goes on in the same way while there is room. -/
theorem simulates_ahead (before : Nat) :
    Simulates (Ahead before : Guard κ → Guard κ → Prop) (HasRoom before) where
  enter := by
    intro g g' k ahead room
    obtain ⟨path, same, offset⟩ := ahead
    obtain ⟨limits, attempts⟩ := g.enter_fields k
    obtain ⟨limits', attempts'⟩ := g'.enter_fields k
    obtain ⟨enough, countable⟩ := room
    rw [limits', attempts'] at enough
    rw [limits'] at countable
    -- with room left, neither guard is out of attempts
    have both : g'.limits.attempts < min (g'.attempts + 1) lastAttempt
        ↔ g.limits.attempts < min (g.attempts + 1) lastAttempt := by
      rw [← same]
      omega
    obtain ⟨entry, path'⟩ := path.enter both
    refine ⟨entry, path', by rw [limits, limits', same], ?_⟩
    rw [attempts, attempts']
    omega
  leave := by
    intro g g' k ahead
    obtain ⟨path, same, offset⟩ := ahead
    obtain ⟨limits, -, attempts, -⟩ := g.leave_fields k
    obtain ⟨limits', -, attempts', -⟩ := g'.leave_fields k
    exact ⟨path.leave, by rw [limits, limits', same], by rw [attempts, attempts', offset]⟩
  entered := by
    intro g k room
    obtain ⟨limits, attempts⟩ := g.enter_fields k
    obtain ⟨enough, countable⟩ := room
    rw [limits, attempts] at enough
    rw [limits] at countable
    exact ⟨by omega, countable⟩
  left := by
    intro g k room
    obtain ⟨limits, -, attempts, -⟩ := g.leave_fields k
    obtain ⟨enough, countable⟩ := room
    rw [limits, attempts] at enough
    rw [limits] at countable
    exact ⟨enough, countable⟩

end Guard

/-! ## §2. Two printers -/

namespace Print

variable {ρ α β : Type} {run : Runner ρ} {related : Guard LazyId → Guard LazyId → Prop}
  {provided : Guard LazyId → Prop} {w w' : Printing ρ}

/-- Printers at work on one store, at one level of nesting, with related guards. -/
structure Abreast (related : Guard LazyId → Guard LazyId → Prop) (w w' : Printing ρ) : Prop where
  store : w'.store = w.store
  level : AtLevel w w'
  lazies : related w.printer.lazies w'.printer.lazies

/-- Work that two printers do in the same way, as long as the second is well provided. -/
structure Together (related : Guard LazyId → Guard LazyId → Prop)
    (provided : Guard LazyId → Prop) (work : Print ρ α) : Prop where
  abreast : ∀ w w', Abreast related w w' → provided (work w').2.printer.lazies →
    (work w).1 = (work w').1 ∧ Abreast related (work w).2 (work w').2
  before : ∀ w, provided (work w).2.printer.lazies → provided w.printer.lazies

theorem together_pure (a : α) : Together related provided (pure a : Print ρ α) where
  abreast := fun _ _ abreast _ => ⟨rfl, abreast⟩
  before := fun _ h => h

/-- What is done one after the other is done together where each part is. -/
theorem Together.bind {x : Print ρ α} {f : α → Print ρ β} (hx : Together related provided x)
    (hf : ∀ a, Together related provided (f a)) : Together related provided (x >>= f) where
  abreast := by
    intro w w' abreast enough
    rw [bind_apply] at enough ⊢
    rw [bind_apply]
    obtain ⟨same, abreast'⟩ := hx.abreast w w' abreast ((hf _).before _ enough)
    rw [same]
    exact (hf _).abreast _ _ abreast' enough
  before := fun w enough => hx.before w ((hf _).before _ enough)

theorem together_store : Together related provided (Print.store : Print ρ (Store ρ)) where
  abreast := fun _ _ abreast _ => ⟨abreast.store.symm, abreast⟩
  before := fun _ h => h

theorem together_build (step : Build ρ α) : Together related provided (build step) where
  abreast := by
    rintro ⟨σ, p⟩ ⟨σ', p'⟩ ⟨store, level, lazies⟩ _
    obtain rfl : σ' = σ := store
    exact ⟨rfl, rfl, level, lazies⟩
  before := fun _ h => h

/-- A level is entered by both printers or by neither. -/
theorem together_down : Together related provided (update fun p =>
    (p.levels.enter.1, { p with levels := p.levels.enter.2 }) : Print ρ Bool) where
  abreast := by
    intro w w' ⟨store, ⟨depth, limit⟩, lazies⟩ _
    have same : w'.printer.levels.limit ≤ w'.printer.levels.depth
        ↔ w.printer.levels.limit ≤ w.printer.levels.depth := by rw [depth, limit]
    rw [update_apply, update_apply]
    unfold Levels.enter
    simp only [same]
    split
    · exact ⟨rfl, store, ⟨depth, limit⟩, lazies⟩
    · exact ⟨rfl, store, ⟨congrArg (· + 1) depth, limit⟩, lazies⟩
  before := fun _ h => h

theorem together_up : Together related provided
    (update fun p => ((), { p with levels := p.levels.leave }) : Print ρ Unit) where
  abreast := fun _ _ ⟨store, ⟨depth, limit⟩, lazies⟩ _ =>
    ⟨rfl, store, ⟨congrArg (· - 1) depth, limit⟩, lazies⟩
  before := fun _ h => h

/-! ## §3. Texts -/

/-- A draft is written together where its parts are. -/
theorem together_draft {format : Handle → Print ρ String} {lazyNode : LazyId → Print ρ String}
    (formats : ∀ h, Together related provided (format h))
    (lazies : ∀ d, Together related provided (lazyNode d)) (q : Draft ρ α) :
    Together related provided (q.run format lazyNode Print.store) := by
  induction q with
  | done a => exact together_pure a
  | part h next ih => exact (formats h).bind ih
  | lazyPart d next ih => exact (lazies d).bind ih
  | look next ih => exact together_store.bind ih

theorem together_counted {describe : Handle → Print ρ String}
    (describes : ∀ h, Together related provided (describe h)) (h : Handle) :
    Together related provided (counted describe h) := by
  refine together_down.bind fun room => ?_
  split
  · exact (describes h).bind fun text => together_up.bind fun _ => together_pure text
  · exact together_pure _

section

variable (simulates : Guard.Simulates related provided)
include simulates

theorem together_enter (d : LazyId) : Together related provided (update fun p =>
    ((p.lazies.enter d).1, { p with lazies := (p.lazies.enter d).2 }) : Print ρ Entry) where
  abreast := by
    intro w w' ⟨store, level, lazies⟩ enough
    obtain ⟨entry, lazies'⟩ := simulates.enter d lazies enough
    exact ⟨entry, store, level, lazies'⟩
  before := fun _ enough => simulates.entered d enough

theorem together_leave (d : LazyId) : Together related provided
    (update fun p => ((), { p with lazies := p.lazies.leave d }) : Print ρ Unit) where
  abreast := fun _ _ ⟨store, level, lazies⟩ _ => ⟨rfl, store, level, simulates.leave d lazies⟩
  before := fun _ enough => simulates.left d enough

/-- A lazy node is shown by both printers in the same way, or by neither. -/
theorem together_lazyNode {format : Handle → Print ρ String}
    (formats : ∀ h, Together related provided (format h)) (d : LazyId) :
    Together related provided (lazyNode run format d) := by
  refine (together_enter simulates d).bind fun entry => ?_
  have leaves : ∀ text, Together related provided (do
      update fun p => ((), { p with lazies := p.lazies.leave d })
      pure text : Print ρ String) :=
    fun text => (together_leave simulates d).bind fun _ => together_pure text
  cases entry with
  | entered =>
    refine (together_build _).bind fun found => ?_
    cases found with
    | some h => exact (formats h).bind leaves
    | none => exact (together_pure _).bind leaves
  | cycle | tooDeep | exhausted => exact together_pure _

theorem together_formatWithin (levels : Nat) :
    ∀ h, Together related provided (formatWithin run levels h) := by
  induction levels with
  | zero => exact together_counted fun _ => together_pure _
  | succ levels ih =>
    exact together_counted fun h =>
      together_draft ih (together_lazyNode simulates ih) (Draft.describe h)

/-- **TWO PRINTERS PRINT THE SAME**, step by step. -/
theorem together_format (h : Handle) : Together related provided (Print.format run h) where
  abreast := by
    intro w w' abreast enough
    have within : Together related provided (formatWithin run w.printer.levels.limit h) :=
      together_formatWithin simulates _ h
    have same : Print.format run h w' = formatWithin run w.printer.levels.limit h w' :=
      congrArg (fun levels => formatWithin run levels h w') abreast.level.2
    rw [same] at enough ⊢
    exact within.abreast w w' abreast enough
  before := fun w enough => (together_formatWithin simulates _ h).before w enough

end

end Print

/-! ## §4. Kept printers -/

/-- A new printer that may come to so many lazy nodes. -/
def Printer.allowing (attempts : Nat) : Printer :=
  { lazies := { limits := { Limits.printing with attempts } } }

/-- A printer between two texts: it is at the top, and nothing is being shown. -/
structure Printer.IsIdle (p : Printer) : Prop where
  path : ∀ d : LazyId, p.lazies.path[d]? = none
  depth : p.lazies.depth = 0
  limits : p.lazies.limits = .printing
  top : p.levels.depth = 0
  limit : p.levels.limit = Limits.printing.depth

theorem Printer.isIdle_new : ({} : Printer).IsIdle :=
  ⟨fun _ => Std.HashMap.getElem?_empty, rfl, rfl, rfl, rfl⟩

variable {ρ : Type} {run : Runner ρ} {w : Printing ρ}

namespace Store

variable (run)

/-- The lazy nodes that a new printer comes to, each as often as it comes to it. -/
def visits (h : Handle) (σ : Store ρ) : Nat :=
  (Print.format run h ⟨σ, {}⟩).2.printer.lazies.attempts

/-- The lazy nodes that new printers come to, one printer for each text. -/
def visitsAll : List Handle → Store ρ → Nat
  | [], _ => 0
  | h :: hs, σ => visits run h σ + visitsAll hs (Store.format run h σ).2

end Store

namespace Printer.IsIdle

variable (idle : w.printer.IsIdle)
include idle

/-- After a text a printer is idle again. -/
theorem format (h : Handle) : (Print.format run h w).2.printer.IsIdle := by
  have limits : Print.Lasts run fun w => w.printer.lazies.limits = .printing := {
    destination := fun _ _ same => same
    enter := fun d w same => (w.printer.lazies.enter_fields d).1.trans same
    leave := fun d w same => (w.printer.lazies.leave_fields d).1.trans same
    down := fun _ same => same
    up := fun _ same => same }
  have kept : Print.Kept (fun _ => True) w (Print.format run h w).2 :=
    (Print.goes_format (fun _ _ _ => trivial) h idle.top (Nat.lt_succ_self _)).ends
  exact ⟨fun d => (kept.path d).trans (idle.path d), kept.depth.trans idle.depth,
    limits.format h w idle.limits, kept.level.1.trans idle.top, kept.level.2.trans idle.limit⟩

theorem samePath (attempts : Nat) :
    w.printer.lazies.SamePath (Printer.allowing attempts).lazies where
  path := fun d => Std.HashMap.getElem?_empty.trans (idle.path d).symm
  depth := idle.depth.symm
  limit := by rw [idle.limits]; rfl

theorem atLevel (attempts : Nat) : Print.AtLevel w ⟨w.store, .allowing attempts⟩ :=
  ⟨idle.top.symm, idle.limit.symm⟩

/-- An idle printer prints like a new one with what is left of its attempts. -/
theorem format_eq_allowing (h : Handle) :
    let new := Print.format run h ⟨w.store, .allowing (10000 - w.printer.lazies.attempts)⟩
    (Print.format run h w).1 = new.1 ∧ (Print.format run h w).2.store = new.2.store := by
  intro new
  let left := 10000 - w.printer.lazies.attempts
  have same : w.printer.lazies.SameLeft (Printer.allowing left).lazies := by
    refine ⟨idle.samePath left, ?_, ?_, ?_⟩
    · rw [idle.limits]
      rfl
    · rw [idle.limits]
      decide
    · show 10000 - w.printer.lazies.attempts < 0xffffffff
      omega
  have together : Print.Together Guard.SameLeft (fun _ => True) (Print.format run h) :=
    Print.together_format Guard.simulates_sameLeft h
  obtain ⟨text, after⟩ := together.abreast w ⟨w.store, .allowing left⟩
    ⟨rfl, idle.atLevel left, same⟩ trivial
  exact ⟨text, after.store.symm⟩

/-- While there are enough attempts an idle printer prints like a new one, and counts on. -/
theorem format_eq_new (h : Handle)
    (room : w.printer.lazies.attempts + Store.visits run h w.store ≤ 10000) :
    ((Print.format run h w).1, (Print.format run h w).2.store) = Store.format run h w.store ∧
      (Print.format run h w).2.printer.lazies.attempts
        = w.printer.lazies.attempts + Store.visits run h w.store := by
  let new : Printing ρ := ⟨w.store, {}⟩
  have ahead : w.printer.lazies.Ahead w.printer.lazies.attempts new.printer.lazies :=
    ⟨idle.samePath 10000, idle.limits.symm, (Nat.zero_add _).symm⟩
  have limits : (Print.format run h new).2.printer.lazies.limits = .printing :=
    ((show new.printer.IsIdle from isIdle_new).format h).limits
  have enough : Guard.HasRoom w.printer.lazies.attempts
      (Print.format run h new).2.printer.lazies := by
    unfold Guard.HasRoom
    rw [limits]
    refine ⟨?_, by decide⟩
    rw [Nat.add_comm]
    exact room
  have together : Print.Together (Guard.Ahead w.printer.lazies.attempts) (Guard.HasRoom _)
      (Print.format run h) := Print.together_format (Guard.simulates_ahead _) h
  obtain ⟨text, after⟩ := together.abreast w new ⟨rfl, idle.atLevel 10000, ahead⟩ enough
  refine ⟨Prod.ext text after.store.symm, ?_⟩
  rw [after.lazies.attempts, Nat.add_comm]
  rfl

end Printer.IsIdle

/-- One text after the other, by one printer. -/
theorem Print.formatAll_cons (h : Handle) (hs : List Handle) :
    ((h :: hs).mapM (Print.format run) w).2
      = (hs.mapM (Print.format run) (Print.format run h w).2).2 := by
  rw [List.mapM_cons]
  rfl

/-- What each text keeps, all texts together keep. -/
theorem Print.keeps_formatAll {P : Printing ρ → Prop}
    (each : ∀ h w, P w → P (Print.format run h w).2) (hs : List Handle) :
    ∀ w, P w → P (hs.mapM (Print.format run) w).2 := by
  induction hs with
  | nil => exact fun _ kept => kept
  | cons h hs ih =>
    intro w kept
    rw [formatAll_cons]
    exact ih _ (each h w kept)

/-- The count of a printer that is kept, while there are enough attempts. -/
theorem Printer.IsIdle.attempts_formatAll (hs : List Handle) : ∀ {w : Printing ρ},
    w.printer.IsIdle → w.printer.lazies.attempts + Store.visitsAll run hs w.store ≤ 10000 →
    (hs.mapM (Print.format run) w).2.printer.lazies.attempts
      = w.printer.lazies.attempts + Store.visitsAll run hs w.store := by
  induction hs with
  | nil => exact fun _ _ => rfl
  | cons h hs ih =>
    intro w idle room
    rw [Print.formatAll_cons]
    unfold Store.visitsAll at room ⊢
    have few : w.printer.lazies.attempts + Store.visits run h w.store ≤ 10000 := by omega
    obtain ⟨text, count⟩ := idle.format_eq_new h few
    have store : (Print.format run h w).2.store = (Store.format run h w.store).2 :=
      congrArg Prod.snd text
    rw [← store] at room ⊢
    rw [ih (idle.format h) (by rw [count]; omega), count]
    omega

/-- **A PRINTER THAT IS KEPT** prints like a new one with as many attempts as are left, and like any
new one while the lazy nodes that all its texts come to are no more than the attempts allow. -/
theorem kept_printer (run : Runner ρ) (σ : Store ρ) (earlier : List Handle) (h : Handle) :
    let kept := (earlier.mapM (Print.format run) ⟨σ, {}⟩).2
    let printed := Print.format run h kept
    let left := 10000 - kept.printer.lazies.attempts
    let limited := Print.format run h ⟨kept.store, .allowing left⟩
    (printed.1 = limited.1 ∧ printed.2.store = limited.2.store) ∧
      (Store.visitsAll run earlier σ + Store.visits run h kept.store ≤ 10000 →
        (printed.1, printed.2.store) = Store.format run h kept.store) := by
  intro kept printed left limited
  have new : (⟨σ, {}⟩ : Printing ρ).printer.IsIdle := Printer.isIdle_new
  have idle : kept.printer.IsIdle :=
    Print.keeps_formatAll (P := fun w => w.printer.IsIdle) (fun h _ idle => idle.format h) earlier
      _ new
  refine ⟨idle.format_eq_allowing h, fun room => ?_⟩
  have counted : kept.printer.lazies.attempts = 0 + Store.visitsAll run earlier σ :=
    new.attempts_formatAll earlier (show 0 + Store.visitsAll run earlier σ ≤ 10000 by omega)
  exact (idle.format_eq_new h (by rw [counted]; omega)).1

/-! ## §5. One lazy node, over and over -/

namespace Print

theorem lazyNode_of_entered {format : Handle → Print ρ String} {d : LazyId} {g : Guard LazyId}
    {h : Handle} {σ : Store ρ} (entered : w.printer.lazies.enter d = (.entered, g))
    (stands : Store.destination? run d w.store = (some h, σ)) :
    let shown := format h ⟨σ, { w.printer with lazies := g }⟩
    lazyNode run format d w = (shown.1, ⟨shown.2.store,
      { shown.2.printer with lazies := shown.2.printer.lazies.leave d }⟩) := by
  unfold lazyNode
  rw [bind_apply, update_apply, entered]
  dsimp only
  rw [bind_apply]
  dsimp only [build]
  rw [stands]
  rfl

theorem lazyNode_of_exhausted {format : Handle → Print ρ String} {d : LazyId}
    (exhausted : (w.printer.lazies.enter d).1 = .exhausted) :
    (lazyNode run format d w).1 = ellipsis := by
  unfold lazyNode
  rw [bind_apply, update_apply, exhausted]
  rfl

end Print

/-- A lazy node that stands for the strings. -/
def lazyString : Listing Handle where
  nodes := [.lazy ⟨1⟩]
  definitions := [⟨none, some Intrinsic.string.handle⟩]

/-- Its definition is settled, so resolving changes nothing. -/
theorem store_destination?_lazyString (d : LazyId) :
    (Store.destination? pure d lazyString.store).2 = lazyString.store := by
  have settled : ∀ d, lazyString.store.IsSettled d := by
    rintro ⟨n⟩
    match n with
    | 0 => exact .inr rfl
    | 1 => exact .inl rfl
    | n + 2 => exact .inr rfl
  refine Store.follow_keeps (I := (· = lazyString.store)) (fun d σ same => ?_) _ [] d _ rfl
  subst same
  rw [Store.force_of_settled (settled d)]

/-- A new printer writes what the node stands for, if it may come to any lazy node. -/
theorem format_lazyString (n : Nat) :
    let printed := Print.format pure ⟨13⟩ ⟨lazyString.store, .allowing (n + 1)⟩
    printed.1 = "string" ∧ printed.2.store = lazyString.store ∧
      printed.2.printer.lazies.attempts = 1 := by
  intro printed
  let entering : Printing Handle := ⟨lazyString.store,
    { Printer.allowing (n + 1) with levels := ⟨8, 1, false⟩ }⟩
  have stands : Store.destination? pure ⟨1⟩ entering.store
    = (some Intrinsic.string.handle, lazyString.store) := rfl
  have entered := (Printer.allowing (n + 1)).lazies.enter_of_room (k := ⟨1⟩)
    Std.HashMap.getElem?_empty (show 0 < 8 by decide) (Nat.succ_pos n)
  have node : printed = (let shown := Print.lazyNode pure (Print.formatWithin pure 7) ⟨1⟩ entering
      (shown.1, ⟨shown.2.store,
        { shown.2.printer with levels := shown.2.printer.levels.leave }⟩)) := rfl
  rw [node, Print.lazyNode_of_entered (w := entering) entered stands]
  refine ⟨rfl, rfl, ?_⟩
  exact (Guard.leave_fields _ _).2.2.1

/-- One that may come to none writes dots. -/
theorem format_lazyString_exhausted :
    (Print.format pure ⟨13⟩ ⟨lazyString.store, .allowing 0⟩).1 = "..." := by
  have exhausted := (Printer.allowing 0).lazies.enter_of_exhausted (k := ⟨1⟩) (Nat.le_refl 0)
    (by decide)
  let entering : Printing Handle := ⟨lazyString.store,
    { Printer.allowing 0 with levels := ⟨8, 1, false⟩ }⟩
  show (Print.lazyNode pure (Print.formatWithin pure 7) ⟨1⟩ entering).1 = _
  exact Print.lazyNode_of_exhausted exhausted

/-- One printer writes the strings ten thousand times, and dots from then on. -/
theorem kept_printer_lazyString :
    let kept (n : Nat) : Printing Handle :=
      ((List.replicate n ⟨13⟩).mapM (Print.format pure) ⟨lazyString.store, {}⟩).2
    (∀ n < 10000, (Print.format pure ⟨13⟩ (kept n)).1 = "string") ∧
      (Print.format pure ⟨13⟩ (kept 10000)).1 = "..." ∧
      (Store.format pure ⟨13⟩ (kept 10000).store).1 = "string" := by
  intro kept
  obtain ⟨text, store, count⟩ := format_lazyString 9999
  have fresh : Store.format pure ⟨13⟩ lazyString.store = ("string", lazyString.store) :=
    Prod.ext text store
  -- each text visits one lazy node, so the texts are as many as the attempts
  have visits : ∀ n, Store.visitsAll pure (List.replicate n ⟨13⟩) lazyString.store = n := by
    intro n
    induction n with
    | zero => rfl
    | succ n ih =>
      rw [List.replicate_succ]
      unfold Store.visitsAll
      rw [fresh, ih, show Store.visits pure ⟨13⟩ lazyString.store = 1 from count]
      omega
  -- the lazy node was resolved before, and formatting leaves the store
  have same : ∀ n, (kept n).store = lazyString.store := by
    have lasts : Print.Lasts pure fun w : Printing Handle => w.store = lazyString.store :=
      Print.lasts_store (I := (· = lazyString.store)) fun d σ same => by
        subst same
        exact store_destination?_lazyString d
    exact fun n => Print.keeps_formatAll lasts.format (List.replicate n ⟨13⟩) _ rfl
  have counts : ∀ n ≤ 10000, (kept n).printer.lazies.attempts = n := by
    intro n few
    have idle : (⟨lazyString.store, {}⟩ : Printing Handle).printer.IsIdle := Printer.isIdle_new
    have counted := idle.attempts_formatAll (List.replicate n ⟨13⟩) (by
      rw [visits]
      show 0 + n ≤ 10000
      omega)
    rw [visits] at counted
    exact counted.trans (Nat.zero_add n)
  refine ⟨fun n few => ?_, ?_, ?_⟩
  · have room : Store.visitsAll pure (List.replicate n ⟨13⟩) lazyString.store
        + Store.visits pure ⟨13⟩ (kept n).store ≤ 10000 := by
      rw [visits, same, show Store.visits pure ⟨13⟩ lazyString.store = 1 from count]
      omega
    have new := (kept_printer pure lazyString.store (List.replicate n ⟨13⟩) ⟨13⟩).2 room
    rw [same, fresh] at new
    exact congrArg Prod.fst new
  · have last : ∀ n, n = 10000 → (Print.format pure ⟨13⟩ (kept n)).1 = "..." := by
      intro n all
      have limited : (Print.format pure ⟨13⟩ (kept n)).1 = (Print.format pure ⟨13⟩
          ⟨(kept n).store, .allowing (10000 - (kept n).printer.lazies.attempts)⟩).1 :=
        (kept_printer pure lazyString.store (List.replicate n ⟨13⟩) ⟨13⟩).1.1
      rw [limited, counts n (by omega), same, show 10000 - n = 0 by omega]
      exact format_lazyString_exhausted
    exact last 10000 rfl
  · rw [same, fresh]

end Assignability
