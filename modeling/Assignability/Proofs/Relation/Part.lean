/-
  Assignability.Proofs.Relation.Part
  ──────────────────────────────────
  **WHAT A RULE MAY ASK ABOUT.**

  A descriptor is made of parts; a lazy node has the one part that it
  stands for.  `Below` and `Within` are the parts of parts, `Within`
  without the whole.  The rule for a pair asks about a part of one side
  and a part of the other, in either direction, and never about the two
  wholes again (`View.Poses`).

  A descriptor that is not recursive is finite: its nesting is a number
  (`EndsWithin`), and the questions about two such descriptors nest less
  deep than the two together (`NestsTogether.poses`).
-/
import Assignability.Proofs.Query.Positive
import Mathlib.Logic.Relation

namespace Assignability

/-! ## §1. Parts -/

/-- The types of the items, and that of the further ones. -/
def Sequence.parts (s : Sequence) : List Handle := s.items ++ s.rest.toList

/-- The types of the parameters and of the result. -/
def Signature.parts (s : Signature) : List Handle := s.result :: s.parameters.parts

/-- The key type of an index signature and the type of what it holds. -/
def IndexSignature.parts (s : IndexSignature) : List Handle := [s.key, s.value]

/-- The types of the fields and those of the index signature. -/
def Layout.parts (s : Layout) : List Handle :=
  s.fields.map (·.type) ++ (s.index.map IndexSignature.parts).getD []

namespace Store

variable {ρ : Type}

/-- The handles that a descriptor is made of. -/
def components (σ : Store ρ) : Node → List Handle
  | .intrinsic _ | .literal _ | .lazy _ => []
  | .enumeration members | .union members | .intersection members => σ.list members
  | .array part | .set part | .promise part | .branded part _ => [part]
  | .tuple shape => (σ.tuple shape).parts
  | .object shape => (σ.object shape).parts
  | .record key value | .map key value => [key, value]
  | .function shape => (σ.function shape).parts

/-- The parts of what a handle names. -/
def parts (σ : Store ρ) (h : Handle) : List Handle := ((σ.node? h).map σ.components).getD []

/-- The key type of an object's index signature or of a record. -/
def keyTypes (σ : Store ρ) (h : Handle) : List Handle :=
  match σ.node? h with
  | some (.object shape) => ((σ.object shape).index.map (·.key)).toList
  | some (.record key _) => [key]
  | _ => []

/-- The parts of a type are the components of its node. -/
theorem parts_of_node {σ : Store ρ} {h : Handle} {n : Node} (hn : σ.node? h = some n) :
    σ.parts h = σ.components n := by
  unfold parts
  rw [hn]
  rfl

/-- A lazy node is known by its number. -/
theorem lazyId?_of_node {σ : Store ρ} {h : Handle} {d : LazyId}
    (hn : σ.node? h = some (.lazy d)) : σ.lazyId? h = some d := by
  unfold lazyId?
  rw [hn]

/-- Any other node has no such number. -/
theorem lazyId?_of_notLazy {σ : Store ρ} {h : Handle} {n : Node} (hn : σ.node? h = some n)
    (notLazy : n.isLazy = false) : σ.lazyId? h = none := by
  unfold lazyId?
  rw [hn]
  cases n <;> first | rfl | cases notLazy

/-- The key types of a node are parts of it. -/
theorem mem_parts_of_mem_keyTypes {σ : Store ρ} {h k : Handle} (hk : k ∈ σ.keyTypes h) :
    k ∈ σ.parts h := by
  unfold keyTypes at hk
  split at hk
  · next shape hn =>
    rw [parts_of_node hn]
    show k ∈ (σ.object shape).parts
    cases hi : (σ.object shape).index with
    | none => rw [hi] at hk; cases hk
    | some index =>
      rw [hi] at hk
      have : k = index.key := by simpa using hk
      simp [Layout.parts, hi, IndexSignature.parts, this]
  · next key value hn =>
    rw [parts_of_node hn]
    have : k = key := by simpa using hk
    simp [components, this]
  · cases hk

/-- Whether a handle has no lazy node among its parts and nests less deep than `n`. -/
def nests (σ : Store ρ) : Nat → Handle → Bool
  | 0, _ => false
  | n + 1, h => (σ.lazyId? h).isNone && (σ.parts h).all (nests σ n)

/-- A handle without lazy nodes among its parts. -/
def LazyFree (σ : Store ρ) (h : Handle) : Prop := ∃ n, σ.nests n h = true

/-- A type nests one level deeper than its parts. -/
theorem nests_succ {σ : Store ρ} {n : Nat} {h : Handle} : σ.nests (n + 1) h = true
    ↔ σ.lazyId? h = none ∧ ∀ g ∈ σ.parts h, σ.nests n g = true := by
  simp [nests]

/-- A type without lazies is not lazy itself. -/
theorem LazyFree.lazyId? {σ : Store ρ} {h : Handle} (hh : σ.LazyFree h) : σ.lazyId? h = none := by
  obtain ⟨n, hn⟩ := hh
  cases n with
  | zero => cases hn
  | succ n => exact (nests_succ.1 hn).1

/-- Nor is its node. -/
theorem LazyFree.isLazy {σ : Store ρ} {h : Handle} {n : Node} (hh : σ.LazyFree h)
    (hn : σ.node? h = some n) : n.isLazy = false := by
  cases n with
  | lazy d => cases (lazyId?_of_node hn).symm.trans hh.lazyId?
  | _ => rfl

/-- The parts of a type without lazies have none. -/
theorem LazyFree.part {σ : Store ρ} {h g : Handle} (hh : σ.LazyFree h) (hg : g ∈ σ.parts h) :
    σ.LazyFree g := by
  obtain ⟨n, hn⟩ := hh
  cases n with
  | zero => cases hn
  | succ n => exact ⟨n, (nests_succ.1 hn).2 g hg⟩

/-- Nor have the components of its node. -/
theorem LazyFree.component {σ : Store ρ} {h g : Handle} {n : Node} (hh : σ.LazyFree h)
    (hn : σ.node? h = some n) (hg : g ∈ σ.components n) : σ.LazyFree g := by
  refine hh.part ?_
  rw [parts_of_node hn]
  exact hg

/-- A statement about handles without lazy nodes, by what it says of their parts. -/
@[elab_as_elim]
theorem LazyFree.induction {σ : Store ρ} {motive : (h : Handle) → σ.LazyFree h → Prop}
    (step : ∀ h (hh : σ.LazyFree h), (∀ n (hn : σ.node? h = some n) g (hg : g ∈ σ.components n),
      motive g (hh.component hn hg)) → motive h hh) {h : Handle} (hh : σ.LazyFree h) :
    motive h hh := by
  obtain ⟨n, levels⟩ := id hh
  induction n generalizing h with
  | zero => cases levels
  | succ n ih =>
    refine step h hh fun node hn g hg => ih _ ((nests_succ.1 levels).2 g ?_)
    rw [parts_of_node hn]
    exact hg

/-- What nests within a depth does so within every greater one. -/
theorem nests_mono {σ : Store ρ} {n m : Nat} {h : Handle} (le : n ≤ m) (hn : σ.nests n h = true) :
    σ.nests m h = true := by
  induction m generalizing n h with
  | zero =>
    obtain rfl := Nat.le_zero.1 le
    exact hn
  | succ m ih =>
    cases n with
    | zero => cases hn
    | succ n =>
      obtain ⟨notLazy, parts⟩ := nests_succ.1 hn
      exact nests_succ.2 ⟨notLazy, fun g hg => ih (Nat.le_of_succ_le_succ le) (parts g hg)⟩

/-- A bound for all elements of a list, where each has one. -/
theorem exists_bound {α : Type} {p : Nat → α → Prop}
    (mono : ∀ {n m a}, n ≤ m → p n a → p m a) (as : List α)
    (each : ∀ a ∈ as, ∃ n, p n a) : ∃ n, ∀ a ∈ as, p n a := by
  induction as with
  | nil => exact ⟨0, nofun⟩
  | cons a as ih =>
    obtain ⟨n, hn⟩ := each a List.mem_cons_self
    obtain ⟨m, hm⟩ := ih fun a ha => each a (List.mem_cons_of_mem _ ha)
    refine ⟨max n m, fun b hb => ?_⟩
    rcases List.mem_cons.1 hb with rfl | hb
    · exact mono (Nat.le_max_left n m) hn
    · exact mono (Nat.le_max_right n m) (hm b hb)

/-- What is no lazy node and has no lazy nodes among the parts of its parts has none at all. -/
theorem LazyFree.of_components {σ : Store ρ} {h : Handle} {n : Node} (hn : σ.node? h = some n)
    (notLazy : n.isLazy = false) (parts : ∀ g ∈ σ.components n, σ.LazyFree g) : σ.LazyFree h := by
  obtain ⟨k, levels⟩ := exists_bound (p := fun k g => σ.nests k g = true) nests_mono _ parts
  refine ⟨k + 1, nests_succ.2 ⟨lazyId?_of_notLazy hn notLazy, ?_⟩⟩
  rwa [parts_of_node hn]

end Store

namespace View

variable {ρ : Type} (v : View ρ)

/-- A handle and one that it is made of, or that it stands for. -/
inductive Part : Handle → Handle → Prop
  | component {h g : Handle} (hg : g ∈ v.store.parts h) : Part h g
  | stands {h : Handle} {d : LazyId} (hd : v.store.lazyId? h = some d) : Part h (v.stands h)

/-- A handle and a part of it, or it itself. -/
def Below : Handle → Handle → Prop := Relation.ReflTransGen v.Part

/-- A handle and a part of it other than the whole. -/
def Within : Handle → Handle → Prop := Relation.TransGen v.Part

/-- A key type among the parts of a handle. -/
def KeyBelow (h k : Handle) : Prop := ∃ g, v.Below h g ∧ k ∈ v.store.keyTypes g

/-- Parts of two handles, not both of them the wholes. -/
def Descends (s t a b : Handle) : Prop := v.Below s a ∧ v.Within t b ∨ v.Within s a ∧ v.Below t b

/-- A question that may come up where `s` is compared with `t`. -/
def Poses (s t a b : Handle) : Prop := v.Descends s t a b ∨ v.Descends s t b a

/-- A question about keys that may come up where `s` is compared with `t`. -/
def PosesKeys (s t a b : Handle) : Prop :=
  v.KeyBelow s a ∧ v.KeyBelow t b ∨ v.KeyBelow s b ∧ v.KeyBelow t a

/-- What may come up where `s` is compared with `t`. -/
def scope (s t : Handle) : Query.Scope where
  asks := v.Poses s t
  keys := v.PosesKeys s t
  follows := fun h => v.Below s h ∨ v.Below t h

variable {v} {s t a b g h k : Handle}

/-- A type is below itself. -/
theorem Below.refl (h : Handle) : v.Below h h := Relation.ReflTransGen.refl

/-- What is below something below a type is below the type. -/
theorem Below.trans (h₁ : v.Below a g) (h₂ : v.Below g b) : v.Below a b :=
  Relation.ReflTransGen.trans h₁ h₂

/-- What is within a type is below it. -/
theorem Within.below (h : v.Within a b) : v.Below a b := Relation.TransGen.to_reflTransGen h

/-- What is within something below a type is within the type. -/
theorem Below.within (h₁ : v.Below a g) (h₂ : v.Within g b) : v.Within a b :=
  Relation.TransGen.trans_right h₁ h₂

/-- The parts of a type are within it. -/
theorem within_of_mem (hg : g ∈ v.store.parts h) : v.Within h g := .single (.component hg)

/-- A part of a node is within every handle of the node. -/
theorem within_component {n : Node} (hn : v.store.node? h = some n)
    (hg : g ∈ v.store.components n) : v.Within h g :=
  within_of_mem (by rw [Store.parts_of_node hn]; exact hg)

/-- What a lazy node stands for is within it. -/
theorem within_stands {d : LazyId} (hd : v.store.lazyId? h = some d) : v.Within h (v.stands h) :=
  .single (.stands hd)

/-- What a type stands for is below it. -/
theorem below_stands (h : Handle) : v.Below h (v.stands h) := by
  cases hd : v.store.lazyId? h with
  | none =>
    rw [v.stands_of_not_lazy h hd]
    exact .refl h
  | some d => exact (within_stands hd).below

/-- The key types below a type are within it. -/
theorem KeyBelow.within (hk : v.KeyBelow h k) : v.Within h k := by
  obtain ⟨g, hg, hk⟩ := hk
  exact hg.within (within_of_mem (Store.mem_parts_of_mem_keyTypes hk))

/-- A pair asks in both directions. -/
theorem Poses.swap (hp : v.Poses s t a b) : v.Poses s t b a := Or.symm hp

/-- A step down in the source is asked for. -/
theorem Poses.left (hs : v.Within s a) (ht : v.Below t b) : v.Poses s t a b :=
  .inl (.inr ⟨hs, ht⟩)

/-- A step down in the target is asked for. -/
theorem Poses.right (hs : v.Below s a) (ht : v.Within t b) : v.Poses s t a b :=
  .inl (.inl ⟨hs, ht⟩)

/-- The key types below a part are below the type. -/
theorem KeyBelow.of_below (hg : v.Below h g) (hk : v.KeyBelow g k) : v.KeyBelow h k := by
  obtain ⟨x, hx, hk⟩ := hk
  exact ⟨x, hg.trans hx, hk⟩

/-- Key questions are asked in both directions. -/
theorem PosesKeys.swap (hk : v.PosesKeys s t a b) : v.PosesKeys t s a b := by
  rcases hk with ⟨ha, hb⟩ | ⟨hb, ha⟩
  · exact .inr ⟨hb, ha⟩
  · exact .inl ⟨ha, hb⟩

/-- A question about keys that a question leads to may come up with it. -/
theorem Poses.posesKeys {x y : Handle} (hp : v.Poses s t a b) (hk : v.PosesKeys a b x y) :
    v.PosesKeys s t x y := by
  have below : v.Below s a ∧ v.Below t b ∨ v.Below s b ∧ v.Below t a := by
    rcases hp with (⟨h, h'⟩ | ⟨h, h'⟩) | (⟨h, h'⟩ | ⟨h, h'⟩)
    · exact .inl ⟨h, h'.below⟩
    · exact .inl ⟨h.below, h'⟩
    · exact .inr ⟨h, h'.below⟩
    · exact .inr ⟨h.below, h'⟩
  rcases below with ⟨ha, hb⟩ | ⟨hb, ha⟩
  · exact hk.imp (fun h => ⟨h.1.of_below ha, h.2.of_below hb⟩)
      fun h => ⟨h.1.of_below ha, h.2.of_below hb⟩
  · rcases hk with ⟨hx, hy⟩ | ⟨hy, hx⟩
    · exact .inr ⟨hy.of_below hb, hx.of_below ha⟩
    · exact .inl ⟨hx.of_below hb, hy.of_below ha⟩

/-- Questions about keys are questions about parts. -/
theorem PosesKeys.poses (hp : v.PosesKeys s t a b) : v.Poses s t a b := by
  rcases hp with ⟨ha, hb⟩ | ⟨hb, ha⟩
  · exact .left ha.within hb.within.below
  · exact (Poses.left hb.within ha.within.below).swap

/-! ## §2. Descriptors that are not recursive -/

end View

/-- Whether all chains of a relation that start from a handle are shorter than `n`. -/
def EndsWithin (r : Handle → Handle → Prop) : Nat → Handle → Prop
  | 0, _ => False
  | n + 1, h => ∀ g, r h g → EndsWithin r n g

namespace EndsWithin

variable {r : Handle → Handle → Prop} {n m : Nat} {h g : Handle}

/-- One step ends sooner than its start does. -/
theorem of_step (hn : EndsWithin r n h) (hg : r h g) : ∃ m, m < n ∧ EndsWithin r m g := by
  cases n with
  | zero => cases hn
  | succ n => exact ⟨n, Nat.lt_succ_self n, hn g hg⟩

/-- And so do several steps. -/
theorem of_transGen (hn : EndsWithin r n h) (hg : Relation.TransGen r h g) :
    ∃ m, m < n ∧ EndsWithin r m g := by
  induction hg with
  | single hg => exact hn.of_step hg
  | tail _ hg ih =>
    obtain ⟨m, hm, hx⟩ := ih
    obtain ⟨l, hl, hg⟩ := hx.of_step hg
    exact ⟨l, Nat.lt_trans hl hm, hg⟩

/-- Steps, or none, end no later than their start does. -/
theorem of_reflTransGen (hn : EndsWithin r n h) (hg : Relation.ReflTransGen r h g) :
    ∃ m, m ≤ n ∧ EndsWithin r m g := by
  rcases Relation.reflTransGen_iff_eq_or_transGen.1 hg with rfl | hg
  · exact ⟨n, Nat.le_refl n, hn⟩
  · obtain ⟨m, hm, hg⟩ := hn.of_transGen hg
    exact ⟨m, Nat.le_of_lt hm, hg⟩

/-- What ends within a depth does so within every greater one. -/
theorem mono (hn : EndsWithin r n h) (hnm : n ≤ m) : EndsWithin r m h := by
  induction n generalizing m h with
  | zero => cases hn
  | succ n ih =>
    obtain ⟨m, rfl⟩ : ∃ k, m = k + 1 := ⟨m - 1, by omega⟩
    exact fun g hg => ih (hn g hg) (by omega)

end EndsWithin

namespace View

variable {ρ : Type} {v : View ρ} {s t a b h : Handle}

variable (v) in
/-- A handle that is not recursive: chains of parts of parts that start from it end. -/
def IsFinite (h : Handle) : Prop := ∃ n, EndsWithin v.Part n h

/-- A type that nests within a depth ends within it. -/
theorem endsWithin_of_nests {n : Nat} :
    ∀ {h : Handle}, v.store.nests n h = true → EndsWithin v.Part n h := by
  induction n with
  | zero => exact fun h => nomatch h
  | succ n ih =>
    intro h hn g hg
    obtain ⟨notLazy, parts⟩ := Store.nests_succ.1 hn
    cases hg with
    | component hg => exact ih (parts g hg)
    | stands hd => rw [notLazy] at hd; cases hd

/-- What has no lazy nodes is not recursive. -/
theorem isFinite_of_lazyFree (hh : v.store.LazyFree h) : v.IsFinite h :=
  hh.imp fun _ hn => endsWithin_of_nests hn

/-- Two handles that nest less deep than `n` taken together. -/
def NestsTogether (v : View ρ) (n : Nat) (s t : Handle) : Prop :=
  ∃ i j, i + j = n ∧ EndsWithin v.Part i s ∧ EndsWithin v.Part j t

/-- The depth of a pair does not depend on the direction. -/
theorem NestsTogether.swap {n : Nat} (h : v.NestsTogether n s t) : v.NestsTogether n t s := by
  obtain ⟨i, j, hij, hs, ht⟩ := h
  exact ⟨j, i, by omega, ht, hs⟩

/-- A step down makes the depth of a pair smaller. -/
theorem NestsTogether.descends {n : Nat} (h : v.NestsTogether n s t) (hd : v.Descends s t a b) :
    ∃ m, m < n ∧ v.NestsTogether m a b := by
  obtain ⟨i, j, hij, hs, ht⟩ := h
  rcases hd with ⟨ha, hb⟩ | ⟨ha, hb⟩
  · obtain ⟨i', hi, ha⟩ := hs.of_reflTransGen ha
    obtain ⟨j', hj, hb⟩ := ht.of_transGen hb
    exact ⟨i' + j', by omega, i', j', rfl, ha, hb⟩
  · obtain ⟨i', hi, ha⟩ := hs.of_transGen ha
    obtain ⟨j', hj, hb⟩ := ht.of_reflTransGen hb
    exact ⟨i' + j', by omega, i', j', rfl, ha, hb⟩

/-- Questions nest less deep than the pair that poses them. -/
theorem NestsTogether.poses {n : Nat} (h : v.NestsTogether n s t) (hp : v.Poses s t a b) :
    ∃ m, m < n ∧ v.NestsTogether m a b := by
  rcases hp with hd | hd
  · exact h.descends hd
  · obtain ⟨m, hm, hba⟩ := h.descends hd
    exact ⟨m, hm, hba.swap⟩

end View

end Assignability
