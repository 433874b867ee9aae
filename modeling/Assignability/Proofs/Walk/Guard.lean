/-
  Assignability.Proofs.Walk.Guard
  ───────────────────────────────
  **A GUARD KNOWS ITS PATH.**

  Whoever uses a guard may note which keys were entered and not left
  since, and what came of each attempt since the last reset.  Whatever is
  done with the guard, in whatever order, it agrees with these notes
  (`Agrees`).  That takes in a key that is left without being on the path,
  which breaks off and leaves the guard as it is, and work under a key
  that breaks off itself, after which the key stays on the path.

  Main statement: `knows_its_path`.
-/
import Assignability.Proofs.Checker.Frame

namespace Assignability.Guard

variable {κ α : Type} [BEq κ] [Hashable κ]

/-! ## §1. What is done with a guard -/

/-- Enters a key, works, and leaves the key; where it cannot be entered, says why.  Work that
breaks off takes the end with it: there is no result, and the key stays on the path. -/
def scope? (k : κ) (work : Unit → Option α) (g : Guard κ) : Option (Except Entry α) × Guard κ :=
  match g.enter k with
  | (.entered, g) =>
    match work () with
    | some a => (some (.ok a), (g.leave? k).getD g)
    | none => (none, g)
  | (refusal, g) => (some (.error refusal), g)

/-- Work that does not break off. -/
theorem scope?_eq_scope (k : κ) (f : Unit → α) (g : Guard κ) :
    g.scope? k (fun u => some (f u)) = (some (g.scope k f).1, (g.scope k f).2) := by
  unfold scope? scope
  obtain ⟨e, g'⟩ := g.enter k
  cases e with
  | entered =>
    dsimp only
    rw [leave_eq]
  | cycle | tooDeep | exhausted => rfl

/-- Something that is done with a guard. -/
inductive Operation (κ : Type) : Type 1 where
  | enter (k : κ)
  | leave (k : κ)
  | scope (k : κ) {α : Type} (work : Unit → Option α)
  | reset

/-- The guard after an operation; if that breaks off, the guard as it was then. -/
def Operation.perform : Operation κ → Guard κ → Guard κ
  | enter k, g => (g.enter k).2
  | leave k, g => (g.leave? k).getD g
  | scope k work, g => (g.scope? k work).2
  | reset, g => g.reset

/-! ## §2. Notes -/

/-- What a user of a guard can note. -/
structure Notes (κ : Type) where
  /-- The keys that were entered and not left since, the last one first. -/
  keys : List κ := []
  /-- What came of the attempts since the last reset, the last one first. -/
  answers : List Entry := []

namespace Notes

/-- An attempt to enter a key, with what came of it. -/
def enter (k : κ) (e : Entry) (n : Notes κ) : Notes κ where
  keys := if e = .entered then k :: n.keys else n.keys
  answers := e :: n.answers

def leave (k : κ) (n : Notes κ) : Notes κ := { n with keys := n.keys.erase k }

/-- A scope, with its result, if it has one. -/
def scope (k : κ) (result : Option (Except Entry α)) (n : Notes κ) : Notes κ :=
  match result with
  | some (.ok _) => (n.enter k .entered).leave k
  | some (.error refusal) => n.enter k refusal
  | none => n.enter k .entered

end Notes

/-- The notes after an operation on the guard. -/
def Operation.note : Operation κ → Guard κ → Notes κ → Notes κ
  | enter k, g, n => n.enter k (g.enter k).1
  | leave k, _, n => n.leave k
  | scope k work, g, n => n.scope k (g.scope? k work).1
  | reset, _, _ => {}

/-- A guard in use, and the notes of its user. -/
structure Use (κ : Type) [BEq κ] [Hashable κ] where
  guard : Guard κ
  notes : Notes κ

def Use.after (u : Use κ) (op : Operation κ) : Use κ :=
  ⟨op.perform u.guard, op.note u.guard u.notes⟩

/-- A new guard after some operations. -/
def Use.of (limits : Limits) (ops : List (Operation κ)) : Use κ :=
  ops.foldl after ⟨{ limits }, {}⟩

/-- The guard is as the notes say. -/
structure Agrees (limits : Limits) (g : Guard κ) (n : Notes κ) : Prop where
  limits_eq : g.limits = limits
  nodup : n.keys.Nodup
  path : ∀ k : κ, g.contains k = true ↔ k ∈ n.keys
  size : g.path.size = n.keys.length
  depth : g.depth = n.keys.length
  depth_le : g.depth ≤ limits.depth
  attempts : g.attempts = min lastAttempt n.answers.length
  exceeded : g.exceeded = n.answers.any Entry.isRefused

/-! ## §3. Each step keeps to the notes -/

variable {limits : Limits} {g : Guard κ} {n : Notes κ} {k : κ}

theorem agrees_new (limits : Limits) : Agrees limits ({ limits } : Guard κ) {} where
  limits_eq := rfl
  nodup := .nil
  path := fun k => by simp [contains]
  size := Std.HashMap.size_empty
  depth := rfl
  depth_le := Nat.zero_le _
  attempts := rfl
  exceeded := rfl

variable [LawfulBEq κ]

theorem contains_eq (g : Guard κ) (k : κ) : g.contains k = (g.path[k]?).isSome :=
  Std.HashMap.contains_eq_isSome_getElem?

/-- Taking a key off the path takes one key off it, if it was there. -/
theorem size_leave (g : Guard κ) (k : κ) :
    (g.leave k).path.size = if g.contains k then g.path.size - 1 else g.path.size := by
  obtain ⟨limits, path, depth, attempts, exceeded⟩ := g
  unfold leave contains
  dsimp only
  split
  · next onPath =>
    rw [Std.HashMap.size_erase, if_pos (Std.HashMap.mem_iff_contains.2 onPath)]
  · rfl

/-- An attempt is denied by a limit, meets the key on the path, or puts it there. -/
theorem Agrees.enter (agrees : Agrees limits g n) (k : κ) :
    Agrees limits (g.enter k).2 (n.enter k (g.enter k).1) := by
  obtain ⟨same, counted⟩ := g.enter_fields k
  have attempts : (g.enter k).2.attempts = min lastAttempt (n.answers.length + 1) := by
    rw [counted, agrees.attempts]
    omega
  -- refused: only the mark changes; on the path: nothing does; entered: one key more
  obtain ⟨m, ⟨e, refused, h⟩ | ⟨d, onPath, h⟩ | ⟨offPath, deeper, h⟩⟩ := g.enter_cases k
  · have other : e ≠ .entered := by
      rintro rfl
      cases refused
    rw [h] at attempts ⊢
    have keys : (n.enter k e).keys = n.keys := if_neg other
    constructor
    case limits_eq => exact agrees.limits_eq
    case nodup => exact keys ▸ agrees.nodup
    case path => exact keys ▸ agrees.path
    case size => exact keys ▸ agrees.size
    case depth => exact keys ▸ agrees.depth
    case depth_le => exact agrees.depth_le
    case attempts => exact attempts
    case exceeded =>
      show true = (e.isRefused || n.answers.any Entry.isRefused)
      rw [refused, Bool.true_or]
  · rw [h] at attempts ⊢
    exact { agrees with attempts, exceeded := agrees.exceeded }
  · have new : k ∉ n.keys := by
      rw [← agrees.path, contains_eq, offPath]
      decide
    rw [h] at attempts ⊢
    constructor
    case limits_eq => exact agrees.limits_eq
    case nodup => exact List.nodup_cons.2 ⟨new, agrees.nodup⟩
    case path =>
      intro q
      rw [contains_eq]
      show ((g.path.insert k (g.depth + 1))[q]?).isSome = true ↔ q ∈ k :: n.keys
      rw [Std.HashMap.getElem?_insert, List.mem_cons, ← agrees.path, contains_eq]
      split
      · next same => simp [eq_of_beq same]
      · next other =>
        have other : q ≠ k := fun h => other (beq_iff_eq.2 h.symm)
        simp [other]
    case size =>
      show (g.path.insert k (g.depth + 1)).size = n.keys.length + 1
      have absent : ¬ k ∈ g.path := by
        rwa [Std.HashMap.mem_iff_contains, ← contains, agrees.path]
      rw [Std.HashMap.size_insert, if_neg absent, agrees.size]
    case depth => exact congrArg (· + 1) agrees.depth
    case depth_le => exact agrees.limits_eq ▸ deeper
    case attempts => exact attempts
    case exceeded => exact agrees.exceeded

/-- A key is taken off the path, or was not there. -/
theorem Agrees.leave (agrees : Agrees limits g n) (k : κ) :
    Agrees limits ((g.leave? k).getD g) (n.leave k) := by
  rw [← leave_eq]
  obtain ⟨sameLimits, depth, attempts, exceeded⟩ := g.leave_fields k
  rw [← contains_eq] at depth
  -- a key that is on the path is there once, so leaving takes it away
  have fewer : (n.leave k).keys.length
      = if g.contains k then n.keys.length - 1 else n.keys.length := by
    unfold Notes.leave
    rw [List.length_erase]
    simp only [agrees.path]
  constructor
  case limits_eq => rw [sameLimits, agrees.limits_eq]
  case nodup => exact agrees.nodup.erase k
  case path =>
    intro q
    unfold Notes.leave
    rw [contains_eq, getElem?_path_leave, agrees.nodup.mem_erase_iff, ← agrees.path, contains_eq]
    split
    · next same => simp [eq_of_beq same]
    · next other =>
      have other : q ≠ k := fun h => other (beq_iff_eq.2 h.symm)
      simp [other]
  case size => rw [size_leave, fewer, agrees.size]
  case depth => rw [depth, fewer, agrees.depth]
  case depth_le =>
    have le := agrees.depth_le
    rw [depth]
    split <;> omega
  case attempts => rw [attempts, agrees.attempts]; rfl
  case exceeded => rw [exceeded, agrees.exceeded]; rfl

/-- A scope enters, and leaves unless its work breaks off. -/
theorem Agrees.scope (agrees : Agrees limits g n) (k : κ) (work : Unit → Option α) :
    Agrees limits (g.scope? k work).2 (n.scope k (g.scope? k work).1) := by
  have entered := agrees.enter k
  unfold scope?
  generalize g.enter k = r at entered
  obtain ⟨e, g'⟩ := r
  cases e with
  | entered =>
    dsimp only
    cases work () with
    | some a => exact entered.leave k
    | none => exact entered
  | cycle | tooDeep | exhausted => exact entered

/-- **WHAT IS DONE WITH A GUARD KEEPS IT IN AGREEMENT WITH THE NOTES.** -/
theorem Agrees.perform (agrees : Agrees limits g n) (op : Operation κ) :
    Agrees limits (op.perform g) (op.note g n) := by
  cases op with
  | enter k => exact agrees.enter k
  | leave k => exact agrees.leave k
  | scope k work => exact agrees.scope k work
  | reset =>
    obtain rfl := agrees.limits_eq
    exact agrees_new g.limits

theorem agrees_foldl (ops : List (Operation κ)) :
    ∀ u : Use κ, Agrees limits u.guard u.notes →
      Agrees limits (ops.foldl Use.after u).guard (ops.foldl Use.after u).notes := by
  induction ops with
  | nil => exact fun _ agrees => agrees
  | cons op ops ih => exact fun u agrees => ih (u.after op) (agrees.perform op)

theorem agrees_of (limits : Limits) (ops : List (Operation κ)) :
    Agrees limits (Use.of limits ops).guard (Use.of limits ops).notes :=
  agrees_foldl ops _ (agrees_new limits)

/-! ## §4. The guard -/

/-- What comes of an attempt says whether the key was on the path. -/
theorem entry_enter (g : Guard κ) (k : κ) :
    ((g.enter k).1 = .cycle → g.contains k = true) ∧
      ((g.enter k).1 = .entered → g.contains k = false) := by
  rw [contains_eq]
  obtain ⟨m, ⟨e, refused, h⟩ | ⟨d, onPath, h⟩ | ⟨offPath, -, h⟩⟩ := g.enter_cases k
  · rw [h]
    constructor
    · rintro rfl
      cases refused
    · rintro rfl
      cases refused
  · rw [h, onPath]
    exact ⟨fun _ => rfl, nofun⟩
  · rw [h, offPath]
    exact ⟨nofun, fun _ => rfl⟩

omit [LawfulBEq κ] in
/-- Only a key on the path can be left. -/
theorem leave?_eq_none_iff (g : Guard κ) (k : κ) : g.leave? k = none ↔ g.contains k = false := by
  obtain ⟨limits, path, depth, attempts, exceeded⟩ := g
  unfold leave? contains
  dsimp only
  split
  · next onPath => simp [onPath]
  · next offPath => simpa using offPath

/-- **A GUARD KNOWS ITS PATH.**  Whatever its limits and whatever was done with it: it is as deep as
there are keys on its path, and within its limit; a key is on the path if it was entered and not
left since; a cycle is met only at such a key, and no such key is entered again or can fail to be
left; the attempts since the last reset are counted as far as that goes; and a limit was hit if and
only if one of them was denied by a limit. -/
theorem knows_its_path (limits : Limits) (ops : List (Operation κ)) (g : Guard κ) (n : Notes κ)
    (h : Use.of limits ops = ⟨g, n⟩) :
    g.limits = limits ∧ g.depth = g.path.size ∧ g.depth ≤ limits.depth ∧
      (n.keys.Nodup ∧ g.depth = n.keys.length ∧ ∀ k : κ, g.contains k = true ↔ k ∈ n.keys) ∧
      (∀ k : κ, ((g.enter k).1 = .cycle → g.contains k = true) ∧
        ((g.enter k).1 = .entered → g.contains k = false) ∧
        (g.leave? k = none ↔ g.contains k = false)) ∧
      g.attempts = min 0xffffffff n.answers.length ∧
      (g.exceeded = true ↔ ∃ e ∈ n.answers, e.isRefused = true) := by
  have agrees := agrees_of limits ops
  rw [h] at agrees
  obtain ⟨limits_eq, nodup, path, size, depth, depth_le, attempts, exceeded⟩ := agrees
  refine ⟨limits_eq, by rw [depth, size], depth_le, ⟨nodup, depth, path⟩, fun k => ?_, attempts, ?_⟩
  · exact ⟨(g.entry_enter k).1, (g.entry_enter k).2, g.leave?_eq_none_iff k⟩
  · rw [exceeded, List.any_eq_true]

/-- A key that is not on the path is left, a cycle is met, and a scope is one level too deep. -/
theorem knows_its_path_unpaired : ∃ (g : Guard Nat) (n : Notes Nat),
    Use.of ⟨1, 3⟩ [.enter 7, .leave 8, .enter 7, .scope 9 fun _ => some ()] = ⟨g, n⟩ ∧
      n = ⟨[7], [.tooDeep, .cycle, .entered]⟩ ∧ g.depth = 1 ∧ g.path.size = 1 ∧
      g.contains 7 = true ∧ g.attempts = 3 ∧ g.exceeded = true := by
  have used : Use.of ⟨1, 3⟩ [.enter 7, .leave 8, .enter 7, .scope 9 fun _ => some ()]
      = (⟨⟨⟨1, 3⟩, (∅ : Std.HashMap Nat Nat).insert 7 1, 1, 3, true⟩,
        ⟨[7], [.tooDeep, .cycle, .entered]⟩⟩ : Use Nat) := by
    simp [Use.of, Use.after, Operation.perform, Operation.note, Notes.enter, Notes.leave,
      Notes.scope, Guard.enter, leave?, scope?_eq_scope, scope, lastAttempt]
  obtain ⟨-, size, -, ⟨-, depth, path⟩, -, attempts, exceeded⟩ := knows_its_path _ _ _ _ used
  exact ⟨_, _, used, rfl, depth, size.symm.trans depth, (path 7).2 (.head _), attempts,
    exceeded.2 ⟨.tooDeep, .head _, rfl⟩⟩

end Assignability.Guard
