/-
  Assignability.Proofs.Diagnosis.Steady
  ─────────────────────────────────────
  **THE BLAME GOES ON IN A GROWING STORE.**

  What is to blame for a pair is found by a query, which is steady like
  the step of a comparison, and the part that it names is in the store.
  The one search without questions, that for a brand along the bases of a
  descriptor, comes to the same in every later store: it meets no handle
  twice unless it comes to no end, so it ends within the size of the store
  or never (`hasBrand?_eq_some_iff`).

  So an explanation can be repeated in a later store, like a comparison.

  Main statements: `steady_blame` and `repeated_explain?`.
-/
import Assignability.Diagnosis.Explain
import Assignability.Proofs.Checker.Replay
import Mathlib.Data.List.Nodup
import Mathlib.Data.List.Perm.Subperm
import Mathlib.Data.Nat.Find

namespace Assignability

variable {ρ : Type} {σ τ : Store ρ}

/-! ## §1. Brands further down -/

namespace Store

variable {brand : Atom} {h : Handle} {b : Bool} {n m : Nat}

/-- The search for a brand looks at one layer and goes on at its base. -/
theorem hasBrandWithin?_succ (σ : Store ρ) (brand : Atom) (n : Nat) (h : Handle) :
    σ.hasBrandWithin? brand (n + 1) h
      = match σ.node? h with
        | some (.branded base c) =>
          if c = brand then some true else σ.hasBrandWithin? brand n base
        | _ => some false := rfl

/-- A search that ended ends with more bases to look at, too. -/
theorem hasBrandWithin?_mono (found : σ.hasBrandWithin? brand n h = some b) (le : n ≤ m) :
    σ.hasBrandWithin? brand m h = some b := by
  -- on the levels: every layer that is passed is passed with more levels too
  induction n generalizing h m with
  | zero => cases found
  | succ n ih =>
    obtain ⟨m, rfl⟩ : ∃ k, m = k + 1 := ⟨m - 1, by omega⟩
    rw [hasBrandWithin?_succ] at found ⊢
    split
    · next base c hn =>
      rw [hn] at found
      dsimp only at found
      split
      · next same => rw [if_pos same] at found; exact found
      · next other => rw [if_neg other] at found; exact ih found (by omega)
    · next hn =>
      split at found
      · next hn' => exact absurd hn' (hn _ _)
      · exact found

/-- A search that needs `n` bases and one descriptor more passes `n` different handles. -/
theorem nodup_bases (found : σ.hasBrandWithin? brand (n + 1) h = some b)
    (pending : σ.hasBrandWithin? brand n h = none) :
    ∃ passed : List Handle, passed.Nodup ∧ passed.length = n ∧
      ∀ g ∈ passed, σ.Has g ∧ ∃ c, σ.hasBrandWithin? brand (n + 1) g = some c := by
  -- on the steps of the search, collecting the branded nodes that it passes
  induction n generalizing h with
  | zero => exact ⟨[], .nil, rfl, nofun⟩
  | succ n ih =>
    have whole := found
    have searching := pending
    rw [hasBrandWithin?_succ] at found pending
    split at found
    · next base c hn =>
      rw [hn] at pending
      dsimp only at pending
      split at found
      · next same => rw [if_pos same] at pending; cases pending
      · next other =>
        rw [if_neg other] at pending
        obtain ⟨passed, nodup, length, each⟩ := ih found pending
        refine ⟨h :: passed, List.nodup_cons.2 ⟨fun hh => ?_, nodup⟩, congrArg (· + 1) length, ?_⟩
        · -- from here the search takes one step more than from any base
          obtain ⟨-, c, hc⟩ := each h hh
          rw [searching] at hc
          cases hc
        · intro g hg
          rcases List.mem_cons.1 hg with rfl | hg
          · exact ⟨⟨_, hn⟩, b, whole⟩
          · obtain ⟨has, c, hc⟩ := each g hg
            exact ⟨has, c, hasBrandWithin?_mono hc (Nat.le_succ _)⟩
    · next hn =>
      split at pending
      · next hn' => exact absurd hn' (hn _ _)
      · cases pending

/-- Different handles of a store are no more than its size. -/
theorem length_le_size {handles : List Handle} (nodup : handles.Nodup)
    (has : ∀ g ∈ handles, σ.Has g) : handles.length ≤ σ.size := by
  have numbers : (handles.map Handle.number).Nodup := by
    refine nodup.map fun g g' same => ?_
    cases g
    cases g'
    exact congrArg Handle.mk same
  have inner : handles.map Handle.number ⊆ List.range σ.size := by
    intro i hi
    obtain ⟨g, hg, rfl⟩ := List.mem_map.1 hi
    exact List.mem_range.2 (has_iff.1 (has g hg))
  simpa using (List.subperm_of_subset numbers inner).length_le

/-- The search for a brand ends within the size of the store, if it does. -/
theorem hasBrand?_eq_some_iff :
    σ.hasBrand? brand h = some b ↔ ∃ n, σ.hasBrandWithin? brand n h = some b := by
  refine ⟨fun found => ⟨_, found⟩, fun ends => ?_⟩
  -- take the fewest steps that end: they pass different nodes, so they are fewer than the nodes
  obtain ⟨found, first⟩ := Nat.find_spec ends, fun m => Nat.find_min (H := ends) (m := m)
  cases hn : Nat.find ends with
  | zero => rw [hn] at found; cases found
  | succ n =>
    rw [hn] at found first
    cases pending : σ.hasBrandWithin? brand n h with
    | some c =>
      have same := hasBrandWithin?_mono pending (Nat.le_succ n)
      rw [found] at same
      obtain rfl := Option.some.inj same
      exact absurd pending (first n (Nat.lt_succ_self n))
    | none =>
      obtain ⟨passed, nodup, length, each⟩ := nodup_bases found pending
      have bound := length_le_size nodup fun g hg => (each g hg).1
      exact hasBrandWithin?_mono found (by omega)

/-- The search for a brand finds the same in a later store. -/
theorem Extends.hasBrandWithin?_eq (later : σ.Extends τ) (whole : σ.IsWhole) (hh : σ.Has h) :
    τ.hasBrandWithin? brand n h = σ.hasBrandWithin? brand n h := by
  induction n generalizing h with
  | zero => rfl
  | succ n ih =>
    rw [hasBrandWithin?_succ, hasBrandWithin?_succ, later.node?_eq hh]
    split
    · next hn => rw [ih (whole.has_component hn (List.mem_singleton_self _))]
    · rfl

/-- Whether there is a brand further down is the same in later stores. -/
theorem Extends.hasBrand?_eq (later : σ.Extends τ) (whole : σ.IsWhole) (hh : σ.Has h) :
    τ.hasBrand? brand h = σ.hasBrand? brand h := by
  ext b
  rw [hasBrand?_eq_some_iff, hasBrand?_eq_some_iff]
  exact exists_congr fun n => by rw [later.hasBrandWithin?_eq whole hh]

end Store

/-! ## §2. The part that fails -/

/-- The part that is to blame is in the store. -/
def Blame.LiesIn (σ : Store ρ) : Blame → Prop
  | .part s t _ => σ.Has s ∧ σ.Has t
  | .reason _ | .endless => True

/-- Blame that lies in a store lies in every later one. -/
theorem Blame.LiesIn.mono {blame : Blame} (h : blame.LiesIn σ) (later : σ.Extends τ) :
    blame.LiesIn τ := by
  cases blame with
  | part s t around => exact ⟨later.has h.1, later.has h.2⟩
  | reason reason => trivial
  | endless => trivial

namespace Query

/-- What is to blame, if anything is, is in the store. -/
def HasBlame (σ : Store ρ) (blame : Option Blame) : Prop := ∀ b ∈ blame, b.LiesIn σ

/-- No blame lies in every store. -/
theorem hasBlame_none : HasBlame σ none := nofun

/-- The blame that was found is all that must lie there. -/
theorem hasBlame_some {b : Blame} (h : b.LiesIn σ) : HasBlame σ (some b) := by
  rintro _ ⟨⟩
  exact h

/-- A reason at once names no part, and lies in every store. -/
theorem hasBlame_reason (r : Reason) : HasBlame σ (some (.reason r)) := hasBlame_some trivial

/-- What lies in a store lies in every later one, blame or none. -/
theorem hasBlame_mono (σ τ : Store ρ) (blame : Option Blame) (later : σ.Extends τ)
    (h : HasBlame σ blame) : HasBlame τ blame := fun b hb => (h b hb).mono later

variable {s t : Handle} {around : Reason → Reason}

section

variable (hs : σ.Has s) (ht : σ.Has t)
include hs ht

/-- To ask for a part of the store is steady. -/
theorem steady_blamePart? : (blamePart? s t around : Query ρ _).Steady HasBlame σ := by
  refine .ask hs ht fun a => .done ?_
  split
  · exact hasBlame_none
  · exact hasBlame_some ⟨hs, ht⟩

/-- To ask for a pair of the store is steady. -/
theorem steady_reasonPart? {r : Reason} :
    (reasonPart? s t r : Query ρ _).Steady HasBlame σ := by
  refine .ask hs ht fun a => .done ?_
  split
  · exact hasBlame_none
  · exact hasBlame_reason r

end

/-- Looking at one field is steady. -/
theorem steady_blameField? {a : Layout} {f : Field} (ha : σ.HasLayout a) (hf : σ.Has f.type) :
    (blameField? s a t f : Query ρ _).Steady HasBlame σ := by
  unfold blameField?
  split
  · refine .done ?_
    split
    · exact hasBlame_none
    · exact hasBlame_reason _
  · next hg =>
    split
    · exact .done (hasBlame_reason _)
    · exact steady_blamePart? (ha.parts _ (mem_parts_of_field? hg)) hf

section

variable {α : Type} (whole : σ.IsWhole)
include whole

/-- One search after the other is steady where both are. -/
theorem Steady.orBlame {q r : Query ρ (Option Blame)} (hq : q.Steady HasBlame σ)
    (hr : r.Steady HasBlame σ) : (q.orBlame r).Steady HasBlame σ := by
  refine hq.bind whole fun τ blame later whole' hb => ?_
  cases blame with
  | some blame => exact .done hb
  | none => exact hr.mono hasBlame_mono later

/-- A search through a list is steady where it is for each of the elements. -/
theorem Steady.findSomeM? {q : α → Query ρ (Option Blame)} {xs : List α}
    (h : ∀ x ∈ xs, (q x).Steady HasBlame σ) : (xs.findSomeM? q).Steady HasBlame σ := by
  induction xs with
  | nil => exact .done hasBlame_none
  | cons x xs ih =>
    have tail := ih fun y hy => h y (List.mem_cons_of_mem x hy)
    rw [findSomeM?_cons]
    exact Steady.orBlame whole (h x List.mem_cons_self) tail

variable {a b : Layout} {index : IndexSignature}

/-- Looking at a source field for an index signature is steady. -/
theorem steady_blameIndexedField? {f : Field} (hk : σ.Has index.key) (hv : σ.Has index.value)
    (hf : σ.Has f.type) (hn : σ.Spells f.name) :
    (blameIndexedField? index f : Query ρ _).Steady HasBlame σ := by
  refine Steady.bind (runs_admits whole hk hn) whole fun τ admitted later whole' _ => ?_
  cases admitted with
  | true => exact steady_reasonPart? (later.has hf) (later.has hv)
  | false => exact .done hasBlame_none

/-- Looking at the index signature is steady. -/
theorem steady_blameIndex? (ha : σ.HasLayout a) (hk : σ.Has index.key) (hv : σ.Has index.value) :
    (blameIndex? a index : Query ρ _).Steady HasBlame σ := by
  refine Steady.orBlame whole (Steady.findSomeM? whole fun f hf => ?_) ?_
  · exact steady_blameIndexedField? whole hk hv (ha.parts _ (mem_parts_of_field hf))
      (ha.names f hf)
  · split
    · next own => exact steady_reasonPart? (ha.parts _ (value_mem_parts own)) hv
    · exact .done hasBlame_none

/-- Looking for blame in an object is steady. -/
theorem steady_blameObject? (ha : σ.HasLayout a) (hb : σ.HasLayout b) :
    (blameObject? s a t b : Query ρ _).Steady HasBlame σ := by
  refine Steady.orBlame whole (Steady.findSomeM? whole fun f hf => ?_) ?_
  · exact steady_blameField? ha (hb.parts _ (mem_parts_of_field hf))
  · split
    · next hi =>
      exact steady_blameIndex? whole ha (hb.parts _ (key_mem_parts hi))
        (hb.parts _ (value_mem_parts hi))
    · exact .done hasBlame_none

/-- Looking at the elements is steady, from every position. -/
theorem steady_blameElement? {pairs : List (Handle × Handle)} {position : Nat}
    (has : ∀ p ∈ pairs, σ.Has p.1 ∧ σ.Has p.2) :
    (blameElement? position pairs : Query ρ _).Steady HasBlame σ := by
  induction pairs generalizing position with
  | nil => exact .done hasBlame_none
  | cons p pairs ih =>
    obtain ⟨hs, ht⟩ := has p List.mem_cons_self
    exact Steady.orBlame whole (steady_blamePart? hs ht)
      (ih fun q hq => has q (List.mem_cons_of_mem p hq))

/-- Looking for blame in a tuple is steady. -/
theorem steady_blameTuple? {flags : Flags} {a b : Sequence} (ha : ∀ g ∈ a.parts, σ.Has g)
    (hb : ∀ g ∈ b.parts, σ.Has g) : (blameTuple? flags a b : Query ρ _).Steady HasBlame σ := by
  unfold blameTuple?
  split
  · refine steady_blameElement? whole fun p hp => ?_
    obtain ⟨left, right⟩ := mem_parts_of_mem_pairs hp
    exact ⟨ha _ left, hb _ right⟩
  · exact .done (hasBlame_reason _)

/-- Looking at the parameters is steady, from every position. -/
theorem steady_blameParameter? {pairs : List (Handle × Handle)} {position : Nat}
    (has : ∀ p ∈ pairs, σ.Has p.1 ∧ σ.Has p.2) :
    (blameParameter? position pairs : Query ρ _).Steady HasBlame σ := by
  induction pairs generalizing position with
  | nil => exact .done hasBlame_none
  | cons p pairs ih =>
    obtain ⟨hs, ht⟩ := has p List.mem_cons_self
    exact Steady.orBlame whole (steady_reasonPart? ht hs)
      (ih fun q hq => has q (List.mem_cons_of_mem p hq))

end

/-- Parameters are paired part by part. -/
theorem mem_parts_of_mem_zip {a b : Sequence} {p : Handle × Handle} (hp : p ∈ a.zip b) :
    p.1 ∈ a.parts ∧ p.2 ∈ b.parts := by
  obtain ⟨items, rest⟩ := a
  obtain ⟨items', rest'⟩ := b
  unfold Sequence.parts
  rcases List.mem_append.1 hp with hp | hp
  · obtain ⟨left, right⟩ := List.of_mem_zip hp
    exact ⟨List.mem_append_left _ left, List.mem_append_left _ right⟩
  · cases rest with
    | none => cases hp
    | some r =>
      cases rest' with
      | none => cases hp
      | some r' =>
        obtain rfl := List.mem_singleton.1 hp
        exact ⟨List.mem_append_right _ (List.mem_singleton_self r),
          List.mem_append_right _ (List.mem_singleton_self r')⟩

/-- Looking for blame in a function is steady. -/
theorem steady_blameFunction? {a b : Signature} (whole : σ.IsWhole)
    (ha : ∀ g ∈ a.parts, σ.Has g) (hb : ∀ g ∈ b.parts, σ.Has g) :
    (blameFunction? a b : Query ρ _).Steady HasBlame σ := by
  unfold blameFunction?
  dsimp only
  split
  · exact .done (hasBlame_reason _)
  · refine Steady.orBlame whole (steady_blameParameter? whole fun p hp => ?_) ?_
    · obtain ⟨left, right⟩ := mem_parts_of_mem_zip hp
      exact ⟨ha _ (List.mem_cons_of_mem _ left), hb _ (List.mem_cons_of_mem _ right)⟩
    · exact steady_blamePart? (ha _ List.mem_cons_self) (hb _ List.mem_cons_self)

/-! ## §3. The rule that fails -/

section

variable {flags : Flags} {rule : Rule} {source target : Node} (whole : σ.IsWhole)
  (hs : σ.node? s = some source) (ht : σ.node? t = some target)
include whole hs ht

/-- Each rule of the table is steady. -/
theorem steady_blameRule? :
    (blameRule? flags rule s t source target : Query ρ _).Steady HasBlame σ := by
  have left : ∀ g ∈ σ.components source, σ.Has g := fun g hg => whole.has_component hs hg
  have right : ∀ g ∈ σ.components target, σ.Has g := fun g hg => whole.has_component ht hg
  have keeps := whole.keeps s source hs
  have keeps' := whole.keeps t target ht
  have element : ∀ {a b : Handle}, σ.Has a → σ.Has b → ((do
      let blame ← blamePart? a b fun cause => .elementMismatch a b (some cause)
      pure (some (blame.getD (.reason (.elementMismatch a b none))))) :
        Query ρ (Option Blame)).Steady HasBlame σ := by
    intro a b ha hb
    refine (steady_blamePart? ha hb).bind whole fun τ blame later _ hblame => .done ?_
    cases blame with
    | none => exact hasBlame_reason _
    | some blame => exact hblame
  refine .look (fun τ later => ?_) ?_
  · -- the shapes of the two nodes are the same later on
    dsimp only [Query.bind]
    split
    · rfl
    · rfl
    · rfl
    · rfl
    · rw [later.tuple keeps, later.tuple keeps']
    · rw [later.function keeps, later.function keeps']
    · rw [later.object keeps, later.object keeps']
    · rw [later.object keeps]
    · rfl
  · dsimp only [Query.bind]
    split
    · exact element (left _ (by simp [Store.components])) (right _ (by simp [Store.components]))
    · exact element (left _ (by simp [Store.components])) (right _ (by simp [Store.components]))
    · exact .done (hasBlame_reason _)
    · exact Steady.bind (runs_relate whole (left _ (by simp [Store.components]))
        (right _ (by simp [Store.components]))) whole fun τ a _ _ _ => .done (hasBlame_reason _)
    · exact steady_blameTuple? whole left right
    · exact steady_blameFunction? whole left right
    · exact steady_blameObject? whole (whole.hasLayout hs) (whole.hasLayout ht)
    · have fieldless : ∀ f ∈ Layout.fields {}, σ.Spells f.name :=
        fun f hf => absurd hf List.not_mem_nil
      refine steady_blameObject? whole (whole.hasLayout hs) ⟨fun g hg => ?_, fieldless⟩
      exact right g (by simpa [Layout.parts, IndexSignature.parts, Store.components] using hg)
    · exact .done hasBlame_none

/-- Looking for blame at a brand is steady. -/
theorem steady_blameBrand? :
    (blameBrand? flags s t source target : Query ρ _).Steady HasBlame σ := by
  -- a brand found below the base now is found there in every later store
  refine .look (fun τ later => ?_) ?_
  · dsimp only [Query.bind]
    split
    · have base := whole.has_component hs (List.mem_singleton_self _)
      rw [later.hasBrand?_eq whole base]
    · rfl
    · rfl
    · rfl
  · dsimp only [Query.bind]
    split
    · have base := whole.has_component hs (List.mem_singleton_self _)
      split
      · exact .done (hasBlame_some ⟨base, whole.has_component ht (List.mem_singleton_self _)⟩)
      · split
        · exact .done (hasBlame_some ⟨base, _, ht⟩)
        · exact .done (hasBlame_reason _)
        · exact .done (hasBlame_some trivial)
    · exact .done (hasBlame_reason _)
    · exact .done (hasBlame_some ⟨whole.has_component hs (List.mem_singleton_self _), _, ht⟩)
    · split
      · exact steady_blameRule? whole hs ht
      · exact .done hasBlame_none

/-- Between two nodes the search for blame is steady. -/
theorem steady_blameNodes? :
    (blameNodes? flags s t source target : Query ρ _).Steady HasBlame σ := by
  -- the components of both nodes are in the store, so all that is asked for is
  have left : ∀ g ∈ σ.components source, σ.Has g := fun g hg => whole.has_component hs hg
  have right : ∀ g ∈ σ.components target, σ.Has g := fun g hg => whole.has_component ht hg
  have keeps := whole.keeps s source hs
  have keeps' := whole.keeps t target ht
  refine .look (fun τ later => ?_) ?_
  · dsimp only [Query.bind]
    rw [later.alternatives?_eq keeps, later.alternatives?_eq keeps']
    split
    · rfl
    · rfl
    · split
      · rw [later.list keeps']
      · rfl
      · rfl
  · dsimp only [Query.bind]
    split
    · next members h =>
      exact Steady.findSomeM? whole fun m hm =>
        steady_blamePart? (left m (Store.mem_components_of_alternatives? h hm)) ⟨_, ht⟩
    · exact .done (hasBlame_reason _)
    · split
      · exact Steady.findSomeM? whole fun m hm => steady_blamePart? ⟨_, hs⟩ (right m hm)
      · exact .done (hasBlame_reason _)
      · exact steady_blameBrand? whole hs ht

end

/-- **THE BLAME GOES ON IN A GROWING STORE**, and the part that is to blame is there. -/
theorem steady_blame (flags : Flags) (whole : σ.IsWhole) (hs : σ.Has s) (ht : σ.Has t) :
    (blame flags s t : Query ρ Blame).Steady Blame.LiesIn σ := by
  refine (steady_resolved hs).bind whole fun τ a later whole' ha => ?_
  refine (steady_resolved (later.has ht)).bind whole' fun υ b later' whole'' hb => ?_
  obtain ⟨source, ha⟩ := later'.has ha
  obtain ⟨target, hb⟩ := hb
  refine .look (fun _ later => ?_) ?_
  · dsimp only [Query.bind]
    rw [later.node? ha, later.node? hb, ha, hb]
  · dsimp only [Query.bind]
    rw [ha, hb]
    dsimp only
    refine (steady_blameNodes? whole'' ha hb).bind whole'' fun _ blame _ _ hblame => .done ?_
    cases blame with
    | none => trivial
    | some blame => exact hblame blame rfl

end Query

/-! ## §4. Explanations -/

variable {run : Runner ρ} {s t : Handle} {w : Inquiry ρ}

/-- What a steady query comes to is good in the store that answering it led to. -/
theorem good_answer {α : Type} {good : Store ρ → α → Prop}
    {related : Handle → Handle → Inquire ρ Answer} {q : Query ρ α} (hq : q.Steady good σ)
    (kept : ∀ σ τ a, σ.Extends τ → good σ a → good τ a)
    (asked : ∀ s t w, Store.Orderly run w.store → w.store.Has s → w.store.Has t →
      Repeated run (related s t) w) :
    ∀ w, σ.Extends w.store → Store.Orderly run w.store →
      good (answer run related q w).2.store (answer run related q w).1 := by
  induction hq with
  | done h => exact fun w later _ => kept _ _ _ later h
  | ask hs ht _ ih | askKeys hs ht _ ih =>
    intro w later ho
    have first := asked _ _ w ho (later.has hs) (later.has ht)
    exact ih _ _ (later.trans first.later) first.orderly
  | resolve hh _ ih =>
    intro w later ho
    have first := Store.repeats_resolve ho (later.has hh)
    exact ih _ _ (later.trans first.later) first.orderly.whole first.gives _ (.refl _)
      first.orderly
  | @look σ next same _ ih =>
    intro w later ho
    show good (answer run related (next w.store) w).2.store
      (answer run related (next w.store) w).1
    rw [same w.store later]
    exact ih w later ho

/-- A check is repeated in the store that it leaves. -/
theorem asked_check (s t : Handle) (w : Inquiry ρ) (ho : Store.Orderly run w.store)
    (hs : w.store.Has s) (ht : w.store.Has t) : Repeated run (check run s t) w :=
  repeated_check ho hs ht

namespace Inquire

/-- Counting a level is repeated where the level is. -/
theorem repeated_counted {describe : Handle → Handle → Inquire ρ Reason}
    (ho : Store.Orderly run w.store)
    (describes : ∀ c, Repeated run (describe s t) ⟨w.store, c⟩) :
    Repeated run (counted describe s t) w := by
  refine (repeated_update _ ho).bind ?_
  split
  · have described := describes w.checker.descend.2
    have ho' := described.orderly
    refine described.bind ?_
    exact (repeated_update _ ho').bind (repeated_pure _ ho')
  · exact repeated_pure _ ho

/-- One level is repeated where those below it are. -/
theorem repeated_describe {explain : Handle → Handle → Inquire ρ Reason}
    (explains : ∀ s t w, Store.Orderly run w.store → w.store.Has s → w.store.Has t →
      Repeated run (explain s t) w)
    (ho : Store.Orderly run w.store) (hs : w.store.Has s) (ht : w.store.Has t) :
    Repeated run (describe run explain s t) w := by
  have steady := Query.steady_blame w.checker.flags ho.whole hs ht
  -- looking for the blame is repeated first, then the reason for the part
  have asked : Repeated run (inquire run (Query.blame w.checker.flags s t)) w :=
    repeated_answer asked_check steady w (.refl _) ho
  have named := good_answer steady (fun _ _ _ later h => h.mono later) asked_check w (.refl _) ho
  refine (asked.bind (f := reasonFor explain s t) ?_).congr fun _ _ => rfl
  change Blame.LiesIn (inquire run (Query.blame w.checker.flags s t) w).2.store
    (inquire run (Query.blame w.checker.flags s t) w).1 at named
  have ho' : Store.Orderly run (inquire run (Query.blame w.checker.flags s t) w).2.store :=
    asked.orderly
  generalize inquire run (Query.blame w.checker.flags s t) w = r at named ho'
  obtain ⟨blame, w'⟩ := r
  cases blame with
  | reason reason => exact repeated_pure _ ho'
  | part a b around =>
    have part := explains a b w' ho' named.1 named.2
    exact part.bind (repeated_pure _ part.orderly)
  | endless => exact repeated_pure _ ho'

/-- Explanations are repeated in the store that they leave. -/
theorem repeated_explainWithin (levels : Nat) : ∀ (s t : Handle) (w : Inquiry ρ),
    Store.Orderly run w.store → w.store.Has s → w.store.Has t →
    Repeated run (explainWithin run levels s t) w := by
  induction levels with
  | zero => exact fun s t w ho _ _ => repeated_counted ho fun _ => repeated_pure _ ho
  | succ levels ih =>
    exact fun s t w ho hs ht => repeated_counted ho fun c => repeated_describe ih ho hs ht

/-- So is the explanation of a failing pair. -/
theorem repeated_explainFailing (ho : Store.Orderly run w.store) (hs : w.store.Has s)
    (ht : w.store.Has t) : Repeated run (explainFailing run s t) w := by
  by_cases cut : w.checker.exceeded = true
  · refine (repeated_pure (.limitExceeded s t) ho).congr fun υ _ => ?_
    show (if w.checker.exceeded = true then pure _ else _ : Inquire ρ Reason) _ = _
    rw [if_pos cut]
  · refine (repeated_explainWithin w.checker.explaining.limit s t w ho hs ht).congr fun υ _ => ?_
    show (if w.checker.exceeded = true then pure _ else _ : Inquire ρ Reason) _ = _
    rw [if_neg cut]

/-- **AN EXPLANATION CAN BE REPEATED IN A LATER STORE.** -/
theorem repeated_explain? (ho : Store.Orderly run w.store) (hs : w.store.Has s)
    (ht : w.store.Has t) : Repeated run (explain? run s t) w := by
  have checked : Repeated run (check run s t) w := repeated_check ho hs ht
  have related : Repeated run (isRelated run s t) w :=
    checked.bind (repeated_pure _ checked.orderly)
  refine related.bind ?_
  split
  · exact repeated_pure _ related.orderly
  · have failing : Repeated run (explainFailing run s t) (isRelated run s t w).2 :=
      repeated_explainFailing related.orderly (related.later.has hs) (related.later.has ht)
    exact failing.bind (repeated_pure _ failing.orderly)

end Inquire

end Assignability
