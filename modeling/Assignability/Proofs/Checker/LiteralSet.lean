/-
  Assignability.Proofs.Checker.LiteralSet
  ───────────────────────────────────────
  **SETS OF LITERALS TAKE ONE ENTRY EACH.**

  A union or an enumeration of literals against one that has them, or
  their primitives, among its members: each literal is entered once and is
  found among the members without a question (`runs_literal`).  So one
  entry for the pair and one for each literal is all there is to count,
  two levels deep, however many members the target has.

  No literal is known before it is asked, as each is asked once; so what
  is left to be asked stays to be entered (`Awaits`).

  Main statement: `holds_check_literals`.
-/
import Assignability.Proofs.Checker.Budget
import Assignability.Proofs.Checker.Verdicts
import Assignability.Proofs.Relation.Dispatch
import Assignability.Proofs.Relation.Leaf

namespace Assignability

variable {ρ : Type} {run : Runner ρ} {σ : Store ρ} {m t : Handle} {target : Node}
  {members ms : List Handle} {w : Inquiry ρ}

/-! ## §1. One literal -/

/-- A literal that stands among the members of a union: as itself, by its primitive, or as what is
not a number. -/
def Store.StandsAmong (σ : Store ρ) (members : List Handle) (m : Handle) : Prop :=
  ∃ value, σ.node? m = some (.literal value) ∧
    (m ∈ members ∨ value.primitive.handle ∈ members ∨
      value.isNaN = true ∧ Intrinsic.nan.handle ∈ members)

/-- A literal that stands among the members is found there without a question. -/
theorem Query.isMember_of_standsAmong (h : σ.StandsAmong members m) :
    Query.isMember σ m members = true := by
  obtain ⟨value, node, among⟩ := h
  unfold Query.isMember
  rw [node]
  simp only [List.contains_eq_mem, Bool.or_eq_true, Bool.and_eq_true, decide_eq_true_eq]
  exact among

/-- The rule for a literal among the members asks nothing. -/
theorem runs_rule_literal (ht : σ.node? t = some target) (ha : σ.alternatives? target = some ms)
    (among : σ.StandsAmong ms m) (flags : Flags) (c : Checker) :
    Runs run (.rule (Query.step flags m t)) ⟨σ, c⟩ [] .holds ⟨σ, c⟩ := by
  have member := Query.isMember_of_standsAmong among
  obtain ⟨value, hm, -⟩ := among
  have notLazy : target.isLazy = false := View.isLazy_of_alternatives? (v := .of run σ flags) ha
  -- it looks for the two nodes, for the members, and for the literal among them
  refine .looking ?_
  rw [hm, ht]
  dsimp only
  rw [notLazy]
  refine .looking ?_
  rw [ha]
  refine .looking ?_
  rw [member]
  exact .done

/-! ## §2. One literal after the other -/

/-- A checker that has still to be asked whether some literals fit a target, and has room for them. -/
structure Awaits (w : Inquiry ρ) (literals : List Handle) (t : Handle) : Prop where
  distinct : literals.Nodup
  /-- Nothing that was assumed is still open. -/
  settled : w.checker.assumption = none
  deeper : w.checker.guard.depth < w.checker.guard.limits.depth
  room : w.checker.guard.attempts + literals.length ≤ w.checker.guard.limits.attempts
  words : w.checker.guard.limits.attempts ≤ Guard.lastAttempt
  unknown : ∀ m ∈ literals, w.checker.verdicts[(m, t)]? = none
  offPath : ∀ m ∈ literals, w.checker.guard.path[(m, t)]? = none

variable {literals : List Handle}

/-- One attempt is counted for the first literal, and there is room for the others. -/
theorem Awaits.counting (awaits : Awaits w (m :: literals) t) :
    w.checker.guard.counting.attempts = w.checker.guard.attempts + 1 ∧
      w.checker.guard.attempts + 1 + literals.length ≤ w.checker.guard.limits.attempts := by
  have room := awaits.room
  have words := awaits.words
  have counted : w.checker.guard.counting.attempts
      = min (w.checker.guard.attempts + 1) Guard.lastAttempt := rfl
  rw [List.length_cons] at room
  omega

/-- **ONE LITERAL IS ENTERED ONCE**, and nothing else; the others are left to be asked. -/
theorem runs_literal (run : Runner ρ) (ht : w.store.node? t = some target)
    (ha : w.store.alternatives? target = some ms) (among : w.store.StandsAmong ms m)
    (awaits : Awaits w (m :: literals) t) :
    ∃ w', Runs run (.pair m t) w [⟨.entered, w.checker.guard.depth + 1⟩] .holds w' ∧
      w'.store = w.store ∧ w'.checker.guard.attempts = w.checker.guard.attempts + 1 ∧
      Awaits w' literals t := by
  obtain ⟨value, hm, -⟩ := id among
  obtain ⟨distinct, others⟩ := List.nodup_cons.1 awaits.distinct
  obtain ⟨counting, room⟩ := awaits.counting
  have first : m ∈ m :: literals := List.mem_cons_self
  -- the pair is new: not decided at once and not among the verdicts
  have known : w.known? m t = none := by
    have apart : w.store.atOnce? w.checker.flags m t = none :=
      (View.isLeafOf_literal (v := .of run w.store w.checker.flags) hm).apart ht
        (View.isLeaf_of_alternatives? (v := .of run w.store w.checker.flags) ha)
    unfold Inquiry.known?
    rw [apart]
    exact awaits.unknown m first
  have course : Runs run (.pair m t) w [⟨.entered, w.checker.guard.depth + 1⟩] _ _ :=
    .opened known (awaits.offPath m first) awaits.deeper (by omega)
      (runs_rule_literal ht ha among _ _)
  have kept := course.kept
  have attempts := ((w.opened (m, t) w.checker.guard.counting.attempts).checker.guard.leave_fields
    (m, t)).2.2.1.trans counting
  -- the other literals still wait, with one attempt less for them
  refine ⟨_, course, rfl, attempts, others, awaits.settled, ?_, ?_, ?_, fun x hx => ?_, fun x hx => ?_⟩
  · rw [kept.limits, kept.depth]
    exact awaits.deeper
  · rw [kept.limits]
    exact attempts ▸ room
  · rw [kept.limits]
    exact awaits.words
  -- the verdict kept is that of this literal, which is none of the others
  · have other : ((m, t) == (x, t)) = false :=
      beq_eq_false_iff_ne.2 fun h => distinct ((Prod.mk.inj h).1 ▸ hx)
    show (w.checker.verdicts.insert (m, t) true)[(x, t)]? = none
    rw [Std.HashMap.getElem?_insert, other]
    exact awaits.unknown x (List.mem_cons_of_mem m hx)
  · rw [kept.path]
    exact awaits.offPath x (List.mem_cons_of_mem m hx)

/-- **EVERY LITERAL IS ENTERED ONCE.** -/
theorem runs_literals (run : Runner ρ) (ht : σ.node? t = some target)
    (ha : σ.alternatives? target = some ms) :
    ∀ (literals : List Handle) (w : Inquiry ρ), w.store = σ → (∀ m ∈ literals, σ.StandsAmong ms m) →
      Awaits w literals t → ∃ w',
        Runs run (.rule (Query.every (Query.related · t) literals)) w
          (List.replicate literals.length ⟨.entered, w.checker.guard.depth + 1⟩) .holds w' ∧
        w'.store = σ ∧ w'.checker.guard.attempts = w.checker.guard.attempts + literals.length := by
  intro literals
  -- one literal after the other, each entered and left again at the same depth
  induction literals with
  | nil => exact fun w store _ _ => ⟨w, .done, store, rfl⟩
  | cons m literals ih =>
    intro w store among awaits
    subst store
    obtain ⟨w₁, first, store, attempts, left⟩ :=
      runs_literal run ht ha (among m List.mem_cons_self) awaits
    obtain ⟨w₂, rest, store', attempts'⟩ :=
      ih w₁ store (fun x hx => among x (List.mem_cons_of_mem m hx)) left
    rw [first.kept.depth] at rest
    refine ⟨w₂, .ask first rest, store', ?_⟩
    rw [attempts', attempts, List.length_cons]
    omega

/-- The rule for a set of literals asks about each of them. -/
theorem runs_rule_literals (run : Runner ρ) {s : Handle} {source : Node}
    (hs : w.store.node? s = some source)
    (has : w.store.alternatives? source = some literals) (ht : w.store.node? t = some target)
    (hat : w.store.alternatives? target = some ms)
    (among : ∀ m ∈ literals, w.store.StandsAmong ms m) (awaits : Awaits w literals t)
    (flags : Flags) : ∃ w', Runs run (.rule (Query.step flags s t)) w
      (List.replicate literals.length ⟨.entered, w.checker.guard.depth + 1⟩) .holds w' ∧
        w'.checker.guard.attempts = w.checker.guard.attempts + literals.length := by
  obtain ⟨w', each, -, attempts⟩ := runs_literals run ht hat literals w rfl among awaits
  have notLazy : source.isLazy = false ∧ target.isLazy = false :=
    ⟨View.isLazy_of_alternatives? (v := .of run w.store flags) has,
      View.isLazy_of_alternatives? (v := .of run w.store flags) hat⟩
  refine ⟨w', .looking ?_, attempts⟩
  rw [hs, ht]
  dsimp only
  rw [notLazy.1, notLazy.2]
  refine .looking ?_
  rw [has]
  exact each

/-! ## §3. Sets of literals -/

/-- **A SET OF LITERALS NEVER RUNS OUT OF BUDGET.**  Against another union or enumeration that has each
of its literals, or its primitive, among its members, it is found to be assignable by a new checker
whose limits admit one entry for each literal and one for the pair, and exactly so many are counted.

Limits are numbers of thirty-two bits. -/
theorem holds_check_literals (run : Runner ρ) (policy : Policy) (σ : Store ρ) (s t : Handle)
    (source target : Node) (literals members : List Handle) (hs : σ.node? s = some source)
    (has : σ.alternatives? source = some literals) (ht : σ.node? t = some target)
    (hat : σ.alternatives? target = some members) (other : s ≠ t) (distinct : literals.Nodup)
    (among : ∀ m ∈ literals, σ.StandsAmong members m) (deep : 2 ≤ policy.limits.depth)
    (room : literals.length + 1 ≤ policy.limits.attempts)
    (words : policy.limits.attempts ≤ Guard.lastAttempt) :
    let r := check run s t ⟨σ, .new policy⟩
    r.1 = .holds ∧ r.2.checker.exceeded = false ∧
      r.2.checker.guard.attempts = literals.length + 1 := by
  intro r
  let w : Inquiry ρ := ⟨σ, .new policy⟩
  -- a new checker knows nothing, and two unions are not decided at once
  have unknown : w.known? s t = none := by
    let v := View.of run σ policy.flags
    have notLiteral : source.kind ≠ .literal := by
      cases source with
      | union | enumeration => exact fun h => nomatch h
      | _ => cases has
    have apart : σ.atOnce? policy.flags s t = none :=
      View.atOnce?_eq_none (v := v) hs (View.kind_of_alternatives? (v := v) has) notLiteral ht
        (View.kind_of_alternatives? (v := v) hat) other
    unfold Inquiry.known?
    rw [show w.store.atOnce? w.checker.flags s t = none from apart]
    exact Std.HashMap.getElem?_empty
  -- all literals wait inside the pair: one attempt is gone, and the room is for the rest
  have awaits : Awaits (w.opened (s, t) 1) literals t := by
    refine ⟨distinct, rfl, deep, ?_, words, fun m _ => Std.HashMap.getElem?_empty, fun m hm => ?_⟩
    · show 1 + literals.length ≤ policy.limits.attempts
      omega
    · obtain ⟨value, node, -⟩ := among m hm
      have apart : ((s, t) == (m, t)) = false := by
        refine beq_eq_false_iff_ne.2 fun h => ?_
        rw [(Prod.mk.inj h).1, node] at hs
        cases hs
        cases has
      show ((∅ : Std.HashMap Pair Nat).insert (s, t) 1)[(m, t)]? = none
      rw [Std.HashMap.getElem?_insert, apart]
      exact Std.HashMap.getElem?_empty
  obtain ⟨w', rule, attempts⟩ := runs_rule_literals run (w := w.opened (s, t) 1) hs has ht
    hat among awaits w.checker.flags
  have course : Runs run (.pair s t) w _ _ _ := .opened unknown Std.HashMap.getElem?_empty
    (show 0 < policy.limits.depth by omega) (show min 1 _ ≤ policy.limits.attempts by omega) rule
  -- the course of the check is unique, so it is the one just found
  obtain ⟨trace, checked⟩ : ∃ trace, Runs run (.pair s t) w trace r.1 r.2 :=
    runs_compareWithin policy.limits.depth s t w (Nat.zero_add _).symm
  obtain ⟨rfl, answer, state⟩ := checked.unique course
  refine ⟨answer.trans (Checker.conclude_holds (s, t) none w'.checker), ?_, ?_⟩
  · rw [checked.exceeded]
    refine List.any_eq_false.2 fun x hx => ?_
    obtain rfl | hx := List.mem_cons.1 hx
    · exact nofun
    · rw [List.eq_of_mem_replicate hx]
      exact nofun
  · rw [state]
    refine (w'.checker.guard.leave_fields (s, t)).2.2.1.trans (attempts.trans ?_)
    exact Nat.add_comm 1 _

/-- A text, what is not a number and `true`; what is not a number, a truth value, or the text. -/
def differentLiterals : Listing Handle where
  nodes := [.literal (.string ⟨64⟩), .literal (.number ⟨0x7ff8000000000000⟩), .literal (.boolean true),
    .enumeration ⟨0⟩, .union ⟨1⟩]
  lists := [[⟨13⟩, ⟨14⟩, ⟨15⟩], [Intrinsic.nan.handle, Intrinsic.boolean.handle, ⟨13⟩]]

/-- Two levels and four entries are enough for the three. -/
theorem holds_check_differentLiterals :
    let r := check pure ⟨16⟩ ⟨17⟩ ⟨differentLiterals.store, .new { limits := ⟨2, 4⟩ }⟩
    r.1 = .holds ∧ r.2.checker.exceeded = false ∧ r.2.checker.guard.attempts = 4 :=
  holds_check_literals pure { limits := ⟨2, 4⟩ } differentLiterals.store ⟨16⟩ ⟨17⟩ (.enumeration ⟨0⟩)
    (.union ⟨1⟩) [⟨13⟩, ⟨14⟩, ⟨15⟩] [Intrinsic.nan.handle, Intrinsic.boolean.handle, ⟨13⟩]
    (by decide +kernel) (by decide +kernel) (by decide +kernel) (by decide +kernel) (by decide)
    (by decide) (by
      intro m hm
      simp only [List.mem_cons, List.not_mem_nil, or_false] at hm
      rcases hm with rfl | rfl | rfl
      · exact ⟨.string ⟨64⟩, by decide +kernel, .inl (by decide)⟩
      · exact ⟨.number ⟨0x7ff8000000000000⟩, by decide +kernel, .inr (.inr (by decide))⟩
      · exact ⟨.boolean true, by decide +kernel, .inr (.inl (by decide))⟩)
    (by decide) (by decide) (by decide)

end Assignability
