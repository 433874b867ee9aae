/-
  Assignability.Proofs.Checker.Top
  ────────────────────────────────
  **THE ENDS AT THE TOP FIT NOTHING BELOW THEM.**

  The type of all values, and the unchecked type where it is checked, are
  at the top.  A type below the two that has no lazy nodes takes neither:
  it is taken apart into more types below (`Store.IsLower.inner`), some of
  which would have to, and in the end there is nothing left that could.

  This holds of every answer that a checker gives, whatever limits it has
  and hits, and of every verdict that it keeps (`Sober`).  Answers rest on
  pairs on the path; but a type without lazy nodes does not come back to
  itself, so a pair of this kind is never assumed.

  Main statements:
    • `denied_compareWithin` — a comparison of such a pair is denied,
    • `sober_compareWithin` — and no comparison leads to another verdict
      on one,
    • `isTrue_check_top_iff` — the two ends fit themselves alone.
-/
import Assignability.Proofs.Checker.Finding
import Assignability.Proofs.Checker.Idle
import Assignability.Proofs.Relation.Plain
import Assignability.Proofs.Store.Normal

namespace Assignability

variable {ρ : Type} {run : Runner ρ} {σ τ : Store ρ} {s t h m : Handle} {n : Node} {flags : Flags}

/-! ## §1. Types below the top -/

/-- The ends at the top: all values, and the unchecked type where it is checked. -/
def Flags.IsTop (flags : Flags) (s : Handle) : Prop :=
  s = .unknown ∨ s = .any ∧ flags.strictAny = true

/-- The top types are `unknown`, and `any` under the strict reading. -/
theorem Flags.IsTop.exists_intrinsic (top : flags.IsTop s) :
    ∃ k : Intrinsic, s = k.handle ∧ (k = .unknown ∨ k = .any ∧ flags.strictAny = true) := by
  rcases top with rfl | ⟨rfl, strict⟩
  · exact ⟨.unknown, rfl, .inl rfl⟩
  · exact ⟨.any, rfl, .inr ⟨rfl, strict⟩⟩

namespace Store

/-- A type without lazy nodes that is neither end at the top. -/
structure IsLower (σ : Store ρ) (t : Handle) : Prop where
  free : σ.LazyFree t
  notUnknown : t ≠ .unknown
  notAny : t ≠ .any

/-- What has no lazy nodes had none before. -/
theorem LazyFree.earlier (whole : σ.IsWhole) (grows : σ.Grows τ) (free : τ.LazyFree h) :
    σ.LazyFree h := by
  obtain ⟨k, levels⟩ := free
  refine ⟨k, ?_⟩
  -- on the depth: the parts of a node were complete when it was made
  induction k generalizing h with
  | zero => cases levels
  | succ k ih =>
    obtain ⟨notLazy, parts⟩ := nests_succ.1 levels
    refine nests_succ.2 ⟨?_, fun g hg => ih (parts g ?_)⟩
    · cases hd : σ.lazyId? h with
      | none => rfl
      | some d =>
        rw [grows.lazyId?_eq (has_of_lazyId? hd), hd] at notLazy
        cases notLazy
    · obtain ⟨n, hn⟩ := has_of_mem_parts hg
      rw [parts_of_node (grows.node? hn), grows.components (whole.keeps h n hn), ← parts_of_node hn]
      exact hg

/-- What is lower than the tops was so before the store grew. -/
theorem IsLower.earlier (whole : σ.IsWhole) (grows : σ.Grows τ) (low : τ.IsLower t) : σ.IsLower t :=
  { low with free := low.free.earlier whole grows }

/-- The members that a type is taken apart into, if it is. -/
def pieces? (σ : Store ρ) : Node → Option (List Handle)
  | .union l | .enumeration l | .intersection l => some (σ.list l)
  | _ => none

/-- The members of a union or an intersection are components of it. -/
theorem mem_components_of_pieces? {members : List Handle} (hp : σ.pieces? n = some members)
    (hm : m ∈ members) : m ∈ σ.components n := by
  cases n with
  | union | enumeration | intersection =>
    obtain rfl := Option.some.inj hp
    exact hm
  | _ => cases hp

/-- **A TYPE BELOW THE TOP IS TAKEN APART INTO TYPES BELOW IT**, and there are some. -/
theorem IsLower.inner {members : List Handle} (low : σ.IsLower t) (built : σ.WellBuilt)
    (hn : σ.node? t = some n) (hp : σ.pieces? n = some members) :
    members ≠ [] ∧ ∀ m ∈ members, σ.IsLower m := by
  have normal := built.normal t n hn
  have component : ∀ m ∈ σ.components n, σ.LazyFree m := fun m => low.free.component hn
  -- literals are not built in, and joined members are no ends
  cases n with
  | enumeration l =>
    obtain rfl := Option.some.inj hp
    obtain ⟨nonempty, literals⟩ := normal
    refine ⟨nonempty, fun m hm => ?_⟩
    have other : ∀ k : Intrinsic, m ≠ k.handle := by
      rintro k rfl
      cases (isOfKind_of_node (σ.node?_handle k)).1 (literals _ hm)
    exact ⟨component m hm, other .unknown, other .any⟩
  | union l | intersection l =>
    obtain rfl := Option.some.inj hp
    refine ⟨fun empty => ?_, fun m hm => ?_⟩
    · have several := normal.several
      rw [empty] at several
      cases several
    · obtain ⟨notAny, notUnknown, -⟩ := not_mem_ends.1 (normal.inner m hm)
      exact ⟨component m hm, notUnknown, notAny⟩
  | _ => cases hp

end Store

/-- The ends at the top are widened to themselves alone. -/
theorem Intrinsic.eq_of_widensTo {k : Intrinsic} (top : k = .unknown ∨ k = .any) :
    ∀ l, k.widensTo l = true → k = l := by
  rcases top with rfl | rfl <;> intro l h <;> cases l <;> first | rfl | cases h

/-- A built-in type that is widened to itself alone fits no other leaf. -/
theorem Store.leafPair?_handle {k : Intrinsic} (itself : ∀ l, k.widensTo l = true → k = l)
    (other : t ≠ k.handle) : σ.leafPair? k.handle t ≠ some true := by
  unfold leafPair?
  rw [σ.node?_handle]
  intro h
  cases hn : σ.node? t with
  | none => rw [hn] at h; cases h
  | some n =>
    rw [hn] at h
    change (Node.intrinsic k).leafPair? n = some true at h
    cases n with
    | intrinsic l =>
      obtain rfl := itself l (Option.some.inj h)
      exact other (node?_injective hn (σ.node?_handle k))
    | _ => cases h

/-- Nothing at the top is decided at once to fit a type below it. -/
theorem Flags.IsTop.atOnce? (top : flags.IsTop s) (low : σ.IsLower t) :
    σ.atOnce? flags s t ≠ some true := by
  obtain ⟨notEmpty, checked, apart, leaf⟩ : s ≠ .never ∧ ¬ (s = .any ∧ flags.strictAny = false) ∧
      s ≠ t ∧ σ.leafPair? s t ≠ some true := by
    rcases top with rfl | ⟨rfl, strict⟩
    · exact ⟨by decide, fun h => absurd h.1 (by decide), low.notUnknown.symm,
        Store.leafPair?_handle (k := .unknown) (Intrinsic.eq_of_widensTo (.inl rfl)) low.notUnknown⟩
    · have checked : flags.strictAny ≠ false := by
        rw [strict]
        exact nofun
      exact ⟨by decide, fun h => checked h.2, low.notAny.symm,
        Store.leafPair?_handle (k := .any) (Intrinsic.eq_of_widensTo (.inr rfl)) low.notAny⟩
  have ends : ¬ (t = .unknown ∨ s = .never ∨ t = .any) := by
    rintro (h | h | h)
    · exact low.notUnknown h
    · exact notEmpty h
    · exact low.notAny h
  unfold Store.atOnce?
  rw [if_neg ends, if_neg checked, if_neg apart]
  exact leaf

/-! ## §2. Comparisons that are denied -/

/-- The store is in normal form, and no verdict says that something at the top fits a type below. -/
structure Sober (I : Store ρ → Prop) (flags : Flags) (w : Inquiry ρ) : Prop where
  store : I w.store
  policy : w.checker.flags = flags
  verdicts : ∀ s t, flags.IsTop s → w.store.IsLower t → w.checker.verdicts[(s, t)]? ≠ some true

/-- A comparison that started in `w` and was denied: the store is as it was. -/
structure Denied (I : Store ρ → Prop) (flags : Flags) (w : Inquiry ρ) (r : Answer × Inquiry ρ) :
    Prop where
  answer : r.1.isTrue = false
  sober : Sober I flags r.2
  store : r.2.store = w.store
  kept : Kept w r.2

variable {I : Store ρ → Prop} {w w₀ : Inquiry ρ} {related : Handle → Handle → Inquire ρ Answer}
  {members : List Handle}

/-- What is denied at the end of two steps is denied. -/
theorem Denied.trans {w' : Inquiry ρ} {a : Answer} {r : Answer × Inquiry ρ}
    (h : Denied I flags w (a, w')) (h' : Denied I flags w' r) : Denied I flags w r :=
  ⟨h'.answer, h'.sober, h'.store.trans h.store, h.kept.trans h'.kept⟩

/-- A question that is denied whenever it is asked in the course of some work. -/
def Denies (I : Store ρ → Prop) (flags : Flags) (w₀ : Inquiry ρ)
    (related : Handle → Handle → Inquire ρ Answer) (s m : Handle) : Prop :=
  ∀ w, w.store = w₀.store → Kept w₀ w → Sober I flags w → Denied I flags w (related s m w)

/-- An answer that fails is not made true by another that does. -/
theorem isTrue_failing (a : Answer) {b : Answer} (hb : b.isTrue = false) :
    (a.failing b).isTrue = false := by
  unfold Answer.failing
  split
  · rfl
  · exact hb

/-- Where all questions are denied, so is whether one of them holds. -/
theorem denied_any (each : ∀ m ∈ members, Denies I flags w₀ related s m) :
    ∀ w, w.store = w₀.store → Kept w₀ w → Sober I flags w →
      Denied I flags w (answer run related (Query.any (Query.related s ·) members) w) := by
  induction members with
  | nil => exact fun w _ _ sober => ⟨rfl, sober, rfl, .refl w⟩
  | cons m members ih =>
    intro w store kept sober
    have first := each m List.mem_cons_self w store kept sober
    have rest := ih (fun x hx => each x (List.mem_cons_of_mem m hx)) _ (first.store.trans store)
      (kept.trans first.kept) first.sober
    have asked : answer run related (Query.related s m) w = related s m w := rfl
    unfold Query.any
    rw [Query.bind_eq, answer_bind, asked, first.answer, if_neg (by decide), Query.bind_eq,
      answer_bind]
    refine first.trans ⟨?_, rest.sober, rest.store, rest.kept⟩
    -- where no answer holds, it only matters whether one was cut off
    rw [rest.answer, if_neg (by decide)]
    exact isTrue_failing _ rest.answer

/-- Where the first of several questions is denied, so is whether all of them hold. -/
theorem denied_every (first : Denies I flags w₀ related s m) (store : w.store = w₀.store)
    (kept : Kept w₀ w) (sober : Sober I flags w) :
    Denied I flags w (answer run related (Query.every (Query.related s ·) (m :: members)) w) := by
  have denied := first w store kept sober
  have asked : answer run related (Query.related s m) w = related s m w := rfl
  unfold Query.every Query.andThen
  rw [Query.bind_eq, answer_bind, asked, denied.answer, if_neg (by decide)]
  exact denied

/-- Looking at the store changes nothing and asks nothing. -/
theorem looked (w : Inquiry ρ) :
    answer run related (Query.store : Query ρ (Store ρ)) w = (w.store, w) := rfl

/-- A union denies a top if each member does. -/
theorem denied_unionTarget (top : flags.IsTop s) (sober : Sober I flags w)
    (inner : ∀ m ∈ members, w.store.IsLower m) (each : ∀ m ∈ members, Denies I flags w related s m) :
    Denied I flags w (answer run related (Query.unionTarget s members) w) := by
  obtain ⟨notMember, notBoolean⟩ : Query.isMember w.store s members = false ∧ s ≠ .boolean := by
    obtain ⟨k, rfl, hk⟩ := top.exists_intrinsic
    -- a top among the members would have absorbed the union
    have absent : k.handle ∉ members := by
      intro hm
      rcases hk with rfl | ⟨rfl, -⟩
      · exact (inner _ hm).notUnknown rfl
      · exact (inner _ hm).notAny rfl
    unfold Query.isMember
    rw [w.store.node?_handle, Bool.or_false]
    refine ⟨Bool.eq_false_iff.2 fun h => absent (List.contains_iff_mem.1 h), ?_⟩
    rcases hk with rfl | ⟨rfl, -⟩ <;> decide
  have denied : Denied I flags w (answer run related (Query.any (Query.related s ·) members) w) :=
    denied_any each w rfl (.refl w) sober
  unfold Query.unionTarget
  rw [Query.bind_eq, answer_bind, looked, notMember, if_neg (by decide), Query.bind_eq,
    answer_bind, denied.answer, if_neg (by decide), Query.bind_eq, answer_bind, looked,
    beq_eq_false_iff_ne.2 notBoolean]
  exact denied

/-- **THE RULES DENY SUCH A PAIR WHERE THEY ARE DENIED THE PAIRS THEY ASK ABOUT.** -/
theorem denied_step (built : w.store.WellBuilt) (top : flags.IsTop s) (low : w.store.IsLower t)
    (sober : Sober I flags w)
    (each : ∀ n members, w.store.node? t = some n → w.store.pieces? n = some members →
      ∀ m ∈ members, Denies I flags w related s m) :
    Denied I flags w (answer run related (Query.step flags s t) w) := by
  -- a rule that fails without a question denies at once
  have fails : ∀ q : Query ρ Answer, answer run related q w = (.fails, w) →
      Denied I flags w (answer run related q w) := by
    intro q hq
    rw [hq]
    exact ⟨rfl, sober, rfl, .refl w⟩
  obtain ⟨k, rfl, hk⟩ := top.exists_intrinsic
  unfold Query.step
  rw [Query.bind_eq, answer_bind, looked, w.store.node?_handle]
  cases hn : w.store.node? t with
  | none => exact fails _ rfl
  | some n =>
    have notLazy : ((Node.intrinsic k).isLazy || n.isLazy) = false := low.free.isLazy hn
    dsimp only
    rw [notLazy, if_neg (by decide)]
    unfold Query.nodes
    rw [Query.bind_eq, answer_bind, looked]
    cases hp : w.store.pieces? n with
    -- a union, an enumeration or an intersection: some member was denied
    | some members =>
      obtain ⟨nonempty, inner⟩ := low.inner built hn hp
      have asked := each n members hn hp
      cases n with
      | union l | enumeration l =>
        obtain rfl := Option.some.inj hp
        exact denied_unionTarget top sober inner asked
      | intersection l =>
        obtain rfl := Option.some.inj hp
        show Denied I flags w (answer run related
          (Query.every (Query.related k.handle ·) (w.store.list l)) w)
        obtain ⟨m, ms, hms⟩ := List.exists_cons_of_ne_nil nonempty
        rw [hms] at asked ⊢
        exact denied_every (asked m List.mem_cons_self) rfl (.refl w) sober
      | _ => cases hp
    | none =>
      cases n with
      -- two built-in types: nothing but a top type is wider than one
      | intrinsic l =>
        refine fails _ ?_
        have other : k.widensTo l = false := by
          refine Bool.eq_false_iff.2 fun h => ?_
          obtain rfl := Intrinsic.eq_of_widensTo (hk.imp_right And.left) l h
          obtain rfl := Store.node?_injective hn (w.store.node?_handle k)
          rcases hk with rfl | ⟨rfl, -⟩
          · exact low.notUnknown rfl
          · exact low.notAny rfl
        show (Answer.ofBool (k.widensTo l), w) = _
        rw [other]
        rfl
      | union | enumeration | intersection => cases hp
      | _ => exact fails _ rfl

/-! ## §3. All comparisons -/

/-- A comparison denies a top what its rule denies it. -/
theorem denied_compareWith {step : Flags → Handle → Handle → Inquire ρ Answer}
    (top : flags.IsTop s) (low : w.store.IsLower t) (sober : Sober I flags w)
    (offPath : w.checker.guard.path[(s, t)]? = none)
    (steps : ∀ attempts, Denied I flags (w.opened (s, t) attempts)
      (step w.checker.flags s t (w.opened (s, t) attempts))) :
    Denied I flags w (compareWith step s t w) := by
  generalize hr : compareWith step s t w = r
  have way := compared step s t w
  rw [hr] at way
  cases way with
  | @known b h =>
    have notTrue : b ≠ true := by
      rintro rfl
      unfold Inquiry.known? at h
      rw [sober.policy] at h
      split at h
      · next known => exact top.atOnce? low (known.trans h)
      · exact sober.verdicts s t top low h
    rw [Bool.eq_false_iff.2 notTrue]
    exact ⟨rfl, sober, rfl, .refl w⟩
  | cycle _ onPath =>
    rw [offPath] at onPath
    cases onPath
  | refused =>
    exact ⟨rfl, ⟨sober.store, sober.policy, sober.verdicts⟩, rfl,
      ⟨rfl, rfl, rfl, fun _ => rfl, fun _ => rfl⟩⟩
  | @entered attempts =>
    have inner := steps attempts
    refine ⟨(answer_conclude _ _ _ _).1.trans inner.answer, ⟨inner.sober.store, inner.sober.policy,
      fun a b hab lower => ?_⟩, inner.store, kept_conclude inner.kept offPath⟩
    -- that the pair fails is the only verdict there can be
    have others := inner.sober.verdicts a b hab lower
    rw [verdicts_conclude, inner.answer, Bool.and_false]
    split
    · rw [Std.HashMap.getElem?_insert]
      split
      · exact nofun
      · exact others
    · exact others

/-- No pair of something at the top and a type below it that nests less than `n` deep is on the
path. -/
def IsClearBelow (flags : Flags) (n : Nat) (w : Inquiry ρ) : Prop :=
  ∀ s t, flags.IsTop s → w.store.IsLower t → w.store.nests n t = true →
    w.checker.guard.path[(s, t)]? = none

/-- **NOTHING AT THE TOP FITS A TYPE BELOW IT.**  The comparison is denied, whatever the limits, as
long as no pair of this kind that it could lead to is on the path. -/
theorem denied_compareWithin (built : ∀ σ, I σ → σ.WellBuilt) (top : flags.IsTop s) (n : Nat) :
    ∀ (levels : Nat) (t : Handle) (w : Inquiry ρ), Sober I flags w → w.store.IsLower t →
      w.store.nests n t = true → IsClearBelow flags n w →
      Denied I flags w (compareWithin run levels s t w) := by
  induction n with
  | zero => exact fun _ _ _ _ _ h _ => nomatch h
  | succ n ih =>
    intro levels t w sober low nests clear
    have clearBelow : IsClearBelow flags n w := fun a b hab lower hb =>
      clear a b hab lower (Store.nests_mono (Nat.le_succ n) hb)
    -- the target itself nests exactly as deep, else the induction has it already
    by_cases deeper : w.store.nests n t = true
    · exact ih levels t w sober low deeper clearBelow
    have offPath := clear s t top low nests
    cases levels with
    | zero =>
      exact denied_compareWith top low sober offPath fun attempts =>
        ⟨rfl, ⟨sober.store, sober.policy, sober.verdicts⟩, rfl, .refl _⟩
    | succ levels =>
      refine denied_compareWith top low sober offPath fun attempts => ?_
      rw [sober.policy]
      refine denied_step (built _ sober.store) top low ⟨sober.store, sober.policy, sober.verdicts⟩
        fun node members hn hp m hm w' store kept sober' => ?_
      have lower := (low.inner (built _ sober.store) hn hp).2 m hm
      have part : m ∈ w.store.parts t := by
        rw [Store.parts_of_node (show w.store.node? t = some node from hn)]
        exact Store.mem_components_of_pieces? hp hm
      refine ih levels m w' sober' (store ▸ lower) (store ▸ (Store.nests_succ.1 nests).2 m part) ?_
      intro a b hab lower' hb
      rw [store] at lower' hb
      rw [kept.path]
      show (w.checker.guard.path.insert (s, t) _)[(a, b)]? = none
      rw [Std.HashMap.getElem?_insert]
      split
      · next same =>
        obtain ⟨-, rfl⟩ := Prod.mk.inj (eq_of_beq same)
        exact absurd hb deeper
      · exact clearBelow a b hab lower' hb

/-- No pair of something at the top and a type below it is on the path. -/
def IsClear (flags : Flags) (w : Inquiry ρ) : Prop :=
  ∀ s t, flags.IsTop s → w.store.IsLower t → w.checker.guard.path[(s, t)]? = none

/-- What is known of a store is known in its later states: more types below the top there may be,
but not among what was there. -/
theorem IsClear.later {w' : Inquiry ρ} (clear : IsClear flags w) (whole : w.store.IsWhole)
    (grows : w.store.Grows w'.store)
    (path : ∀ p : Pair, w'.checker.guard.path[p]? = w.checker.guard.path[p]?) :
    IsClear flags w' := by
  intro s t top low
  rw [path]
  exact clear s t top (low.earlier whole grows)

/-- A sober checker stays sober when the store grows. -/
theorem Sober.later (sober : Sober I flags w) (whole : w.store.IsWhole) (grows : w.store.Grows τ)
    (hτ : I τ) : Sober I flags ⟨τ, w.checker⟩ :=
  ⟨hτ, sober.policy, fun s t top low => sober.verdicts s t top (low.earlier whole grows)⟩

section

variable (built : ∀ σ, I σ → σ.WellBuilt)
  (resolved : ∀ h σ, I σ → I (Store.resolve run h σ).2 ∧ σ.Grows (Store.resolve run h σ).2)
include built resolved

omit resolved in
/-- A comparison of other pairs leaves the checker sober, if its rule does. -/
theorem sober_compareWith {step : Flags → Handle → Handle → Inquire ρ Answer}
    (sober : Sober I flags w) (clear : IsClear flags w)
    (other : ¬ (flags.IsTop s ∧ w.store.IsLower t))
    (steps : ∀ w', Sober I flags w' → IsClear flags w' →
      Sober I flags (step w.checker.flags s t w').2 ∧
        w'.store.Grows (step w.checker.flags s t w').2.store) :
    Sober I flags (compareWith step s t w).2 ∧
      w.store.Grows (compareWith step s t w).2.store := by
  generalize hr : compareWith step s t w = r
  have way := compared step s t w
  rw [hr] at way
  cases way with
  | known => exact ⟨sober, .refl _⟩
  | cycle | refused => exact ⟨⟨sober.store, sober.policy, sober.verdicts⟩, .refl _⟩
  | @entered attempts =>
    have notSame : ∀ {a b : Handle}, flags.IsTop a → w.store.IsLower b → ((s, t) == (a, b)) = false :=
      fun top low => beq_eq_false_iff_ne.2 fun same => by
        obtain ⟨rfl, rfl⟩ := Prod.mk.inj same
        exact other ⟨top, low⟩
    have opened : IsClear flags (w.opened (s, t) attempts) := by
      intro a b top low
      show (w.checker.guard.path.insert (s, t) _)[(a, b)]? = none
      rw [Std.HashMap.getElem?_insert, notSame top low]
      exact clear a b top low
    obtain ⟨inner, grows⟩ := steps (w.opened (s, t) attempts)
      ⟨sober.store, sober.policy, sober.verdicts⟩ opened
    refine ⟨⟨inner.store, inner.policy, fun a b top low => ?_⟩, grows⟩
    -- the verdict that is kept, if one is, is about another pair
    have others := inner.verdicts a b top low
    have apart := notSame top (low.earlier (built _ sober.store).isWhole grows)
    rw [verdicts_conclude]
    split
    · rw [Std.HashMap.getElem?_insert, apart]
      exact others
    · split
      · rw [Std.HashMap.getElem?_insert, apart]
        exact others
      · exact others

/-- **NO COMPARISON FINDS SOMETHING AT THE TOP TO FIT A TYPE BELOW IT**, whatever pair it is of. -/
theorem sober_compareWithin (levels : Nat) : ∀ (s t : Handle) (w : Inquiry ρ), Sober I flags w →
    IsClear flags w → Sober I flags (compareWithin run levels s t w).2 ∧
      w.store.Grows (compareWithin run levels s t w).2.store := by
  -- from a top type to a lower one the pair is denied, and nothing else happens
  have ofPair : ∀ levels s t w, Sober I flags w → IsClear flags w → flags.IsTop s →
      w.store.IsLower t → Sober I flags (compareWithin run levels s t w).2 ∧
        w.store.Grows (compareWithin run levels s t w).2.store := by
    intro levels s t w sober clear top low
    obtain ⟨n, nests⟩ := low.free
    have denied : Denied I flags w (compareWithin run levels s t w) :=
      denied_compareWithin built top n levels t w sober low nests
        fun a b hab lower _ => clear a b hab lower
    rw [denied.store]
    exact ⟨denied.sober, .refl _⟩
  -- any other pair is sober because the pairs that it asks for are
  induction levels with
  | zero =>
    intro s t w sober clear
    by_cases pair : flags.IsTop s ∧ w.store.IsLower t
    · exact ofPair 0 s t w sober clear pair.1 pair.2
    · exact sober_compareWith built sober clear pair fun w' sober' _ => ⟨sober', .refl _⟩
  | succ levels ih =>
    intro s t w sober clear
    by_cases pair : flags.IsTop s ∧ w.store.IsLower t
    · exact ofPair (levels + 1) s t w sober clear pair.1 pair.2
    · refine sober_compareWith built sober clear pair fun w₀ sober₀ clear₀ => ?_
      let asked := answer run (compareWithin run levels) (Query.step w.checker.flags s t) w₀
      suffices after : (Sober I flags asked.2 ∧ IsClear flags asked.2) ∧ w₀.store.Grows asked.2.store
        from ⟨after.1.1, after.2⟩
      refine answer_invariant
        (P := fun w' => (Sober I flags w' ∧ IsClear flags w') ∧ w₀.store.Grows w'.store)
        ?_ ?_ _ w₀ ⟨⟨sober₀, clear₀⟩, .refl _⟩
      -- resolving adds to the store and leaves the checker
      · intro h w' ⟨⟨sober', clear'⟩, grows⟩
        obtain ⟨kept, later⟩ := resolved h w'.store sober'.store
        have whole := (built _ sober'.store).isWhole
        exact ⟨⟨sober'.later whole later kept, clear'.later whole later fun _ => rfl⟩,
          grows.trans later⟩
      -- a question is sober by the induction
      · intro a b w' ⟨⟨sober', clear'⟩, grows⟩
        obtain ⟨asked, later⟩ := ih a b w' sober' clear'
        have kept : Kept w' (compareWithin run levels a b w').2 := kept_compareWithin levels a b w'
        exact ⟨⟨asked, clear'.later (built _ sober'.store).isWhole later kept.path⟩,
          grows.trans later⟩

/-- The same of several comparisons. -/
theorem sober_after (earlier : List Pair) : ∀ w : Inquiry ρ, Sober I flags w →
    (∀ p : Pair, w.checker.guard.path[p]? = none) →
    Sober I flags (Inquiry.after run earlier w) := by
  induction earlier with
  | nil => exact fun _ sober _ => sober
  | cons p ps ih =>
    intro w sober path
    have next := sober_compareWithin built resolved w.checker.guard.limits.depth p.1 p.2 w sober
      fun _ _ _ _ => path _
    have kept : Kept w (check run p.1 p.2 w).2 := kept_check p.1 p.2 w
    exact ih _ next.1 fun q => (kept.path q).trans (path q)

end

/-! ## §4. Answers -/

namespace Store

/-- Resolvers that do nothing but call constructors, whenever they are carried out. -/
def CallsConstructors (run : Runner ρ) (σ : Store ρ) : Prop :=
  ∀ τ, Comes run σ τ → ∀ d resolver, τ.definitions.get? d = some ⟨some resolver, none⟩ →
    Comes run τ (run resolver τ).2 ∧ (run resolver τ).2.Has (run resolver τ).1

/-- Where resolvers call constructors, looking into a lazy node comes to such calls. -/
theorem Comes.force (calls : CallsConstructors run σ) (comes : Comes run σ τ) (d : LazyId) :
    Comes run σ (force run d τ).2 ∧ τ.Grows (force run d τ).2 := by
  by_cases settled : τ.IsSettled d
  · rw [force_of_settled settled]
    exact ⟨comes, .refl τ⟩
  · obtain ⟨resolver, pending⟩ := exists_pending settled
    obtain ⟨inner, has⟩ := calls τ comes d resolver pending
    rw [force_of_pending pending]
    exact ⟨comes.resolve pending inner has, inner.grows.trans (grows_recordResolution d _ _)⟩

/-- Resolvers that call constructors lead to stores that are built by these. -/
theorem Comes.resolved (calls : CallsConstructors run σ) (comes : Comes run σ τ) (h : Handle) :
    Comes run σ (Store.resolve run h τ).2 ∧ τ.Grows (Store.resolve run h τ).2 := by
  refine resolve_keeps (I := fun υ => Comes run σ υ ∧ τ.Grows υ) (fun d υ ⟨before, grows⟩ => ?_) h τ
    ⟨comes, .refl τ⟩
  obtain ⟨after, later⟩ := before.force calls d
  exact ⟨after, grows.trans later⟩

end Store

/-- **THE ENDS AT THE TOP FIT THEMSELVES ALONE**, among the types without lazy nodes of a store that
constructors built, whatever the limits and whatever the checker compared before. -/
theorem isTrue_check_top_iff (run : Runner ρ) (assign : String → Fin 64) (policy : Policy)
    (σ : Store ρ) (comes : Store.Comes run (.new assign) σ) (earlier : List Pair)
    (calls : earlier = [] ∨ Store.CallsConstructors run (.new assign)) (t : Handle)
    (free : (Inquiry.after run earlier ⟨σ, .new policy⟩).store.LazyFree t) :
    ((check run .unknown t (.after run earlier ⟨σ, .new policy⟩)).1.isTrue = true
        ↔ t = .any ∨ t = .unknown) ∧
      (policy.flags.strictAny = true →
        ((check run .any t (.after run earlier ⟨σ, .new policy⟩)).1.isTrue = true
          ↔ t = .any ∨ t = .unknown)) := by
  -- what carries through the earlier checks: no verdict from a top type to a lower one
  have built : ∀ τ, Store.Comes run (.new assign) τ → τ.WellBuilt :=
    fun τ => Store.wellBuilt_of_comes assign
  have new : Sober (Store.Comes run (.new assign)) policy.flags ⟨σ, .new policy⟩ := by
    refine ⟨comes, rfl, fun a b _ _ => ?_⟩
    show (∅ : Std.HashMap Pair Bool)[(a, b)]? ≠ some true
    rw [Std.HashMap.getElem?_empty]
    exact nofun
  have idle : ∀ p : Pair, (Inquiry.after run earlier ⟨σ, .new policy⟩).checker.guard.path[p]? = none :=
    fun p => ((kept_after earlier _).path p).trans Std.HashMap.getElem?_empty
  have sober : Sober (Store.Comes run (.new assign)) policy.flags
      (Inquiry.after run earlier ⟨σ, .new policy⟩) := by
    rcases calls with rfl | calls
    · exact new
    · exact sober_after built (fun h τ comes => comes.resolved calls h) earlier _ new
        fun _ => Std.HashMap.getElem?_empty
  generalize Inquiry.after run earlier ⟨σ, .new policy⟩ = w at free idle sober ⊢
  -- both tops are treated alike; only the policy makes `any` one
  have only : ∀ s, policy.flags.IsTop s →
      ((check run s t w).1.isTrue = true ↔ t = .any ∨ t = .unknown) := by
    intro s top
    by_cases ends : t = .any ∨ t = .unknown
    · have known : w.store.atOnce? w.checker.flags s t = some true := by
        unfold Store.atOnce?
        rw [if_pos (ends.elim (fun h => .inr (.inr h)) .inl)]
      rw [check_of_atOnce? known]
      exact iff_of_true rfl ends
    · obtain ⟨notAny, notUnknown⟩ := not_or.1 ends
      obtain ⟨n, nests⟩ := id free
      have denied : Denied (Store.Comes run (.new assign)) policy.flags w (check run s t w) :=
        denied_compareWithin built top n w.checker.guard.limits.depth t w
          sober ⟨free, notUnknown, notAny⟩ nests fun a b _ _ _ => idle (a, b)
      refine iff_of_false ?_ ends
      rw [denied.answer]
      exact nofun
  exact ⟨only .unknown (.inl rfl), fun strict => only .any (.inr ⟨rfl, strict⟩)⟩

/-- The list of strings, which is built in a new store and takes neither end at the top, also of a
checker that has just been asked. -/
theorem not_isTrue_check_listOfStrings :
    let run : Runner Unit := fun _ => pure .never
    let new : Store Unit := .new fun _ => 0
    let strings := Intrinsic.string.handle
    let t := (Store.array strings new).1
    let w := Inquiry.after run [(.unknown, t)]
      ⟨(Store.array strings new).2, .new { flags := { strictAny := true } }⟩
    (check run .unknown t w).1.isTrue = false ∧ (check run .any t w).1.isTrue = false := by
  intro run new strings t w
  let σ : Store Unit := (Store.array strings new).2
  have calls : Store.CallsConstructors run new := by
    intro τ _ d resolver _
    exact ⟨.refl τ, τ.has_handle .never⟩
  -- the store is made by one call, of a constructor
  have comes : Store.Comes run new σ := by
    refine .call (.array strings) (.refl new) (fun h hh => ?_) nofun
    obtain rfl := List.mem_singleton.1 hh
    exact new.has_handle .string
  have node : σ.node? t = some (.array strings) := Store.node?_intern (n := .array strings) nofun new
  have leaf : ∀ k : Intrinsic, σ.LazyFree k.handle := fun k =>
    .of_components (σ.node?_handle k) rfl fun _ hg => absurd hg List.not_mem_nil
  have free : σ.LazyFree t := .of_components node rfl fun g hg => by
    obtain rfl := List.mem_singleton.1 hg
    exact leaf .string
  -- the earlier check leaves it as it is
  have same : w.store = σ :=
    ((idle_new run σ _).ends (leaf .unknown).atRest.tame free.atRest.tame).store
  have top := isTrue_check_top_iff run (fun _ => 0) { flags := { strictAny := true } } σ comes
    [(.unknown, t)] (.inr calls) t (by rw [show _ = w.store from rfl, same]; exact free)
  have other : ¬ (t = .any ∨ t = .unknown) := by
    have apart := View.ne_handle_of_node (v := .of run σ {}) node nofun
    exact not_or.2 ⟨apart .any, apart .unknown⟩
  exact ⟨Bool.eq_false_iff.2 (mt top.1.1 other), Bool.eq_false_iff.2 (mt (top.2 rfl).1 other)⟩

end Assignability
