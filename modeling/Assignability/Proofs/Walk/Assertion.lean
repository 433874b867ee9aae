/-
  Assignability.Proofs.Walk.Assertion
  ───────────────────────────────────
  **WALKS THAT ASSERT.**

  A walk may assert something on its way and breaks off where that is not
  so: a key that is left has to be on the path, a level that is left has
  to be below the top.  A walk that nests has fuel for each level, and
  breaks off as well where that is used up.  Work that asserts nothing and
  always ends is what the walk does where it goes through
  (`Walk.Follows`).
-/
import Assignability.Proofs.Checker.Frame
import Assignability.Walk.Levels

namespace Assignability

variable {ω α β : Type}

/-! ## §1. Walks -/

/-- Steps that may break off. -/
abbrev Walk (ω : Type) := StateT ω Option

namespace Walk

/-- A step that does not break off. -/
def certain (work : StateM ω α) : Walk ω α := fun w => some (work w)

/-- The end of a walk that may not go on. -/
def broken : Walk ω α := fun _ => none

/-- From the state `w` the walk goes through, and does what the work does. -/
def Follows (walk : Walk ω α) (work : StateM ω α) (w : ω) : Prop := walk w = some (work w)

theorem follows_certain (work : StateM ω α) (w : ω) : (certain work).Follows work w := rfl

theorem follows_pure (a : α) (w : ω) : (pure a : Walk ω α).Follows (pure a) w := rfl

theorem Follows.bind {x : Walk ω α} {x' : StateM ω α} {f : α → Walk ω β} {f' : α → StateM ω β}
    {w : ω} (hx : x.Follows x' w) (hf : (f (x' w).1).Follows (f' (x' w).1) (x' w).2) :
    (x >>= f).Follows (x' >>= f') w := by
  unfold Follows at hx hf ⊢
  show (x w).bind (fun r => f r.1 r.2) = some (f' (x' w).1 (x' w).2)
  rw [hx]
  exact hf

theorem Follows.map {x : Walk ω α} {x' : StateM ω α} {w : ω} (hx : x.Follows x' w) (f : α → β) :
    (x >>= fun a => pure (f a)).Follows (x' >>= fun a => pure (f a)) w :=
  hx.bind (follows_pure (f (x' w).1) (x' w).2)

/-- From the state `w` the walk goes through as the work does, and ends in a state as `P` says. -/
structure Goes (P : ω → Prop) (walk : Walk ω α) (work : StateM ω α) (w : ω) : Prop where
  follows : walk.Follows work w
  ends : P (work w).2

section

variable {P Q : ω → Prop} {w : ω}

theorem goes_pure (a : α) (h : P w) : Goes P (pure a) (pure a) w := ⟨follows_pure a w, h⟩

theorem Goes.bind {x : Walk ω α} {x' : StateM ω α} {f : α → Walk ω β} {f' : α → StateM ω β}
    (hx : x.Follows x' w) (hf : Goes P (f (x' w).1) (f' (x' w).1) (x' w).2) :
    Goes P (x >>= f) (x' >>= f') w :=
  ⟨hx.bind hf.follows, hf.ends⟩

theorem Goes.map {x : Walk ω α} {x' : StateM ω α} (hx : Goes P x x' w) (f : α → β) :
    Goes P (x >>= fun a => pure (f a)) (x' >>= fun a => pure (f a)) w :=
  ⟨hx.follows.map f, hx.ends⟩

theorem Goes.imp {x : Walk ω α} {x' : StateM ω α} (hx : Goes P x x' w) (h : ∀ w, P w → Q w) :
    Goes Q x x' w :=
  ⟨hx.follows, h _ hx.ends⟩

end

end Walk

/-! ## §2. Leaving -/

namespace Guard

variable {κ : Type} [BEq κ] [LawfulBEq κ] [Hashable κ] {g : Guard κ} {k : κ} {d : Nat}

/-- A key on the path is left without an objection. -/
theorem leave?_eq_some (onPath : g.path[k]? = some d) : g.leave? k = some (g.leave k) := by
  obtain ⟨limits, path, depth, attempts, exceeded⟩ := g
  have onPath : path.contains k = true := by
    rw [Std.HashMap.contains_eq_isSome_getElem?, onPath]
    rfl
  unfold leave? leave
  dsimp only
  rw [if_pos onPath, if_pos onPath]

/-- Whether a guard may be dropped: no key is on its path. -/
def isClear (g : Guard κ) : Bool := g.path.isEmpty

end Guard

namespace Levels

variable {c : Levels}

theorem leave?_eq_some (below : c.depth ≠ 0) : c.leave? = some c.leave := if_neg below

/-- Whether a count of levels may be dropped: it is at the top. -/
def isTop (c : Levels) : Bool := c.depth == 0

end Levels

end Assignability
