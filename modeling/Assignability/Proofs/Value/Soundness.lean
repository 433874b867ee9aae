/-
  Assignability.Proofs.Value.Soundness
  ────────────────────────────────────
  **WHAT FITS IS INCLUDED.**

  Read as a set of values, a source that fits a target has no value that
  the target lacks.  One lemma for the rules for two constructors
  (`Matches.hasValue`) and one for objects taken as one
  (`FitAsOne.hasValue`) speak of the parts; the inclusion of the wholes
  is by induction on how deep the two sides nest together
  (`Fits.hasValue`).  The checker finds no more than what fits, whatever
  its limits are, since nothing in such descriptors is compared as a key
  (`hasValue_of_check`).
-/
import Assignability.Proofs.Checker.Snapshot
import Assignability.Proofs.Store.Normal
import Assignability.Proofs.Value.Basic

namespace Assignability

variable {ρ : Type}

/-- Whether a node is a plain one, and no function. -/
def Store.isData (σ : Store ρ) : Node → Bool
  | .function _ => false
  | n => σ.isPlain n

/-- Whether a node is one of a descriptor that is read as a set of values: one of data, in which
every intersection has members; so they are built. -/
def Store.isReadable (σ : Store ρ) : Node → Bool
  | .function _ => false
  | .intersection l => !(σ.list l).isEmpty
  | n => σ.isPlain n

/-- What the constructors build of nodes of data is read as a set of values. -/
theorem Store.WellBuilt.isReadable {σ : Store ρ} (built : σ.WellBuilt) {h : Handle}
    (hh : σ.MadeOf σ.isData h) : σ.MadeOf σ.isReadable h := by
  refine hh.mono fun g n hn data => ?_
  have normal := built.normal g n hn
  cases n with
  | intersection l =>
    have several : 2 ≤ (σ.list l).length := IsJoined.several normal
    show (!(σ.list l).isEmpty) = true
    cases hl : σ.list l with
    | nil => rw [hl] at several; cases several
    | cons => rfl
  | _ => exact data

theorem Store.isPlain_of_isReadable {σ : Store ρ} (n : Node) (h : σ.isReadable n = true) :
    σ.isPlain n = true := by
  cases n <;> first | exact h | rfl

theorem Store.isLazy_of_isReadable {σ : Store ρ} (n : Node) (h : σ.isReadable n = true) :
    n.isLazy = false := Store.isLazy_of_isPlain (Store.isPlain_of_isReadable n h)

namespace View

variable {v : View ρ} {s t : Handle} {source target : Node} {x : Value}

/-! ## §1. One rule -/

/-- **THE RULE FOR TWO CONSTRUCTORS IS AN INCLUSION** where it is one for their parts. -/
theorem Matches.hasValue (h : v.Matches source target) (exact : v.flags.exactTupleArity = true)
    (ps : v.store.isPlain source = true) (pt : v.store.isPlain target = true)
    (parts : ∀ a ∈ v.store.components source, ∀ b ∈ v.store.components target, v.Fits a b →
      ∀ x, v.store.HasValue a x → v.store.HasValue b x)
    (hx : v.store.NodeHas source x) : v.store.NodeHas target x := by
  -- one case for each rule: a value of the source is taken apart and put together for the target
  cases h with
  | array h =>
    cases hx with
    | array hx =>
      exact .array fun x hm => parts _ List.mem_cons_self _ List.mem_cons_self h x (hx x hm)
  | tuple h =>
    cases hx with
    | tuple long typed hx =>
      -- exact arities make the target no longer than the source, position by position
      obtain ⟨shorter, fits⟩ := (sequencesFit_atLeast_iff exact).1 h
      refine .tuple (Nat.le_trans shorter long) (fun i hi => ?_) fun i b x hb hxi => ?_
      · obtain ⟨a, ha⟩ := Option.isSome_iff_exists.1 (typed i hi)
        obtain ⟨b, hb, -⟩ := fits i a ha
        rw [hb]
        rfl
      · obtain ⟨a, ha⟩ := Option.isSome_iff_exists.1
          (typed i (List.getElem?_eq_some_iff.1 hxi).1)
        obtain ⟨b', hb', hf⟩ := fits i a ha
        obtain rfl := Option.some.inj (hb.symm.trans hb')
        exact parts a (Sequence.mem_parts_iff.2 ⟨i, ha⟩) b (Sequence.mem_parts_iff.2 ⟨i, hb⟩) hf x
          (hx i a x ha hxi)
  | tupleToArray h =>
    cases hx with
    | tuple long typed hx =>
      refine .array fun x hm => ?_
      obtain ⟨i, hi⟩ := List.mem_iff_getElem?.1 hm
      obtain ⟨a, ha⟩ := Option.isSome_iff_exists.1 (typed i (List.getElem?_eq_some_iff.1 hi).1)
      have hp := Sequence.mem_parts_iff.2 ⟨i, ha⟩
      exact parts a hp _ List.mem_cons_self (h a hp) x (hx i a x ha hi)
  | @arrayToTuple a b p hi hr h =>
    cases hx with
    | @array _ xs hx =>
      have typeAt : ∀ i, (v.store.tuple p).typeAt? i = some b := fun i => by
        rw [Sequence.typeAt?_of_le (by rw [hi]; exact Nat.zero_le i), hr]
      refine .tuple (by rw [hi]; exact Nat.zero_le _) (fun i _ => by rw [typeAt i]; rfl) ?_
      intro i c x hc hxi
      obtain rfl := Option.some.inj ((typeAt i).symm.trans hc)
      exact parts _ List.mem_cons_self b (Sequence.mem_parts_iff.2 ⟨i, typeAt i⟩) h x
        (hx x (List.mem_of_getElem? hxi))
  | object h =>
    cases hx with
    | object present hx =>
      have fields := (isTrue_eval_objects_iff pt).1 h
      refine .object (fun f hf _ => ?_) fun f hf y hy => ?_
      · obtain ⟨g, hg, -, -⟩ := fields f hf
        obtain ⟨mem, name⟩ := Layout.of_field? hg
        rw [← name]
        exact present g mem (Layout.required_of_isPlain ps mem)
      · obtain ⟨g, hg, -, fits⟩ := fields f hf
        obtain ⟨mem, name⟩ := Layout.of_field? hg
        rw [← name] at hy
        exact parts _ (Query.mem_parts_of_field mem) _ (Query.mem_parts_of_field hf) fits y
          (hx g mem y hy)
  | promise h =>
    cases hx with
    | promise hx => exact .promise (parts _ List.mem_cons_self _ List.mem_cons_self h _ hx)
  | set h =>
    cases hx with
    | set hx => exact .set fun x hm => parts _ List.mem_cons_self _ List.mem_cons_self h x (hx x hm)
  | map h _ k =>
    cases hx with
    | map hk hx =>
      have second : ∀ a b : Handle, b ∈ [a, b] := fun a b => by simp
      exact .map (fun e he => parts _ List.mem_cons_self _ List.mem_cons_self h _ (hk e he))
        fun e he => parts _ (second _ _) _ (second _ _) k _ (hx e he)
  | function => cases hx

/-- Objects that fit an object as one have its fields between them. -/
theorem FitAsOne.hasValue {members : List Handle} (h : v.FitAsOne members target)
    (nonempty : members ≠ []) (pt : v.store.isPlain target = true)
    (own : ∀ m ∈ members, v.stands m = m)
    (plain : ∀ m ∈ members, ∀ n, v.store.node? m = some n → v.store.isPlain n = true)
    (parts : ∀ m ∈ members, ∀ a ∈ v.store.parts m, ∀ b ∈ v.store.components target, v.Fits a b →
      ∀ x, v.store.HasValue a x → v.store.HasValue b x)
    (hx : ∀ m ∈ members, v.store.HasValue m x) : v.store.NodeHas target x := by
  obtain ⟨p, rfl, objects, fields⟩ := h.fields pt
  -- there is a member, so the value is an object
  obtain ⟨first, hf⟩ := List.exists_mem_of_ne_nil members nonempty
  obtain ⟨o, ho⟩ := objects first hf
  rw [own first hf] at ho
  have value := (Store.hasValue_iff ho).1 (hx first hf)
  cases value with
  | object =>
    refine .object (fun f hf _ => ?_) fun f hf y hy => ?_
    · obtain ⟨m, hm, o, g, ho, hg, -⟩ := fields f hf
      rw [own m hm] at ho
      obtain ⟨mem, name⟩ := Layout.of_field? hg
      cases (Store.hasValue_iff ho).1 (hx m hm) with
      | object present _ =>
        rw [← name]
        exact present g mem (Layout.required_of_isPlain (plain m hm _ ho) mem)
    · obtain ⟨m, hm, o, g, ho, hg, fits⟩ := fields f hf
      rw [own m hm] at ho
      obtain ⟨mem, name⟩ := Layout.of_field? hg
      cases (Store.hasValue_iff ho).1 (hx m hm) with
      | object _ hx =>
        rw [← name] at hy
        refine parts m hm g.type ?_ f.type (Query.mem_parts_of_field hf) fits y (hx g mem y hy)
        rw [Store.parts_of_node ho]
        exact Query.mem_parts_of_field mem

/-! ## §2. All rules -/

/-- **WHAT FITS IS INCLUDED.** -/
theorem Fits.hasValue (exact : v.flags.exactTupleArity = true) {n : Nat} :
    ∀ {i j : Nat} {s t : Handle} {x : Value}, i + j = n →
      v.store.madeWithin v.store.isReadable i s = true →
      v.store.madeWithin v.store.isReadable j t = true →
      v.Fits s t → v.store.HasValue s x → v.store.HasValue t x := by
  -- on how deep the two sides nest together; each rule asks about a part of one side at least
  induction n using Nat.strongRecOn with
  | _ n ih =>
    intro i j s t x hn hi hj h hx
    obtain ⟨i, source, rfl, hs, rs, parts⟩ := Store.exists_of_madeWithin hi
    obtain ⟨j, target, rfl, ht, rt, parts'⟩ := Store.exists_of_madeWithin hj
    have ps := Store.isPlain_of_isReadable _ rs
    have pt := Store.isPlain_of_isReadable _ rt
    rw [Store.hasValue_iff ht]
    have source := (Store.hasValue_iff hs).1 hx
    cases h.ways hs ht (Store.isOrdinary_of_isPlain ps) (Store.isOrdinary_of_isPlain pt) with
    | atOnce h =>
      exact (Store.hasValue_iff ht).1 (hx.of_atOnce h (Store.ne_any_of_isPlain hs ps)
        (Store.ne_any_of_isPlain ht pt))
    | members ha h =>
      obtain ⟨m, hm, hx⟩ := (Store.nodeHas_alternatives ha).1 source
      rw [← Store.hasValue_iff ht]
      exact ih (i + (j + 1)) (by omega) rfl (parts m (Store.mem_components_of_alternatives? ha hm))
        hj (h m hm) hx
    | member _ ha h =>
      rw [Store.nodeHas_alternatives ha]
      rcases h with h | ⟨m, hm, h⟩ | ⟨rfl, both⟩
      · exact hx.of_isMember h
      · exact ⟨m, hm, ih (i + 1 + j) (by omega) rfl hi
        (parts' m (Store.mem_components_of_alternatives? ha hm)) h hx⟩
      · exact hx.of_haveBooleans both
    | every _ he h =>
      subst he
      exact .intersection fun m hm => ih (i + 1 + j) (by omega) rfl hi (parts' m hm) (h m hm) hx
    | some he hm h =>
      subst he
      cases source with
      | intersection hx =>
        rw [← Store.hasValue_iff ht]
        exact ih (i + (j + 1)) (by omega) rfl (parts _ hm) hj h (hx _ hm)
    | asOne he h =>
      subst he
      cases source with
      | intersection hx =>
        refine h.hasValue (by simpa [Store.isReadable] using rs) pt ?_ ?_ ?_ hx
        · intro m hm
          refine v.stands_of_not_lazy m (Store.LazyFree.lazyId? ?_)
          exact ⟨i, Store.nests_of_madeWithin Store.isLazy_of_isReadable (parts m hm)⟩
        · intro m hm n hn
          obtain ⟨_, node, -, hn', rn, -⟩ := Store.exists_of_madeWithin (parts m hm)
          obtain rfl := Option.some.inj (hn.symm.trans hn')
          exact Store.isPlain_of_isReadable _ rn
        · intro m hm a ha b hb h x hx
          obtain ⟨k, node, rfl, hn, -, below⟩ := Store.exists_of_madeWithin (parts m hm)
          rw [Store.parts_of_node hn] at ha
          exact ih (k + j) (by omega) rfl (below a ha) (parts' b hb) h hx
    | shapes _ _ h =>
      refine h.hasValue exact ps pt (fun a ha b hb h x hx => ?_) source
      exact ih (i + j) (by omega) rfl (parts a ha) (parts' b hb) h hx

end View

/-! ## §3. What the checker finds -/

/-- Comparisons in which no question about keys comes up leave right verdicts only, whatever limit
they hit. -/
theorem Idle.after_of_not_posesKeys {run : Runner ρ} {v : View ρ} {earlier : List Pair} :
    ∀ {w : Inquiry ρ}, Idle v w → Exact v w →
      (∀ p ∈ earlier, v.Tame run p.1 ∧ v.Tame run p.2 ∧ ∀ a b, ¬ v.PosesKeys p.1 p.2 a b) →
      Idle v (.after run earlier w) ∧ Exact v (.after run earlier w) := by
  induction earlier with
  | nil => exact fun idle exact _ => ⟨idle, exact⟩
  | cons p ps ih =>
    intro w idle exact tame
    obtain ⟨hs, ht, noKeys⟩ := tame p List.mem_cons_self
    have checked := idle.checked exact hs ht ((idle.ends hs ht).decided (.inl noKeys))
    exact ih (idle.next hs ht) checked.exact fun q hq => tame q (List.mem_cons_of_mem p hq)

/-- **WHAT THE CHECKER FINDS TO HOLD IS AN INCLUSION OF VALUES.**  Under exact tuple arity, for any
limits, and whatever was compared before. -/
theorem hasValue_of_check (run : Runner ρ) (policy : Policy) (σ : Store ρ) (earlier : List Pair)
    (s t : Handle) (exact : policy.flags.exactTupleArity = true)
    (made : ∀ p ∈ (s, t) :: earlier, σ.MadeOf σ.isReadable p.1 ∧ σ.MadeOf σ.isReadable p.2)
    (holds : (check run s t (.after run earlier ⟨σ, .new policy⟩)).1.isTrue = true)
    (x : Value) (hx : σ.HasValue s x) : σ.HasValue t x := by
  have tame : ∀ p ∈ (s, t) :: earlier, (View.of run σ policy.flags).Tame run p.1 ∧
      (View.of run σ policy.flags).Tame run p.2 ∧
        ∀ a b, ¬ (View.of run σ policy.flags).PosesKeys p.1 p.2 a b := by
    intro p hp
    obtain ⟨hs, ht⟩ := made p hp
    exact ⟨(hs.lazyFree Store.isLazy_of_isReadable).atRest.tame,
      (ht.lazyFree Store.isLazy_of_isReadable).atRest.tame,
      hs.not_posesKeys Store.isPlain_of_isReadable⟩
  obtain ⟨hs, ht, noKeys⟩ := tame (s, t) List.mem_cons_self
  -- a checker that asked no question about keys keeps only right verdicts
  obtain ⟨idle, right⟩ := (idle_new run σ policy).after_of_not_posesKeys exact_new
    fun p hp => tame p (List.mem_cons_of_mem _ hp)
  have fits := (idle.checked right hs ht ((idle.ends hs ht).decided (.inl noKeys))).sound holds
  obtain ⟨⟨i, hi⟩, ⟨j, hj⟩⟩ := made (s, t) List.mem_cons_self
  exact fits.hasValue exact rfl hi hj hx

/-- Lists of truth values, and lists of the two literals. -/
def truthValues : Listing Handle where
  nodes := [.literal (.boolean true), .literal (.boolean false), .union ⟨0⟩, .array .boolean,
    .array ⟨15⟩]
  lists := [[⟨13⟩, ⟨14⟩]]

/-- A list of truth values is one of literals. -/
theorem hasValue_truthValues :
    truthValues.store.HasValue ⟨16⟩ (.list [.boolean true, .boolean false]) ∧
      truthValues.store.HasValue ⟨17⟩ (.list [.boolean true, .boolean false]) := by
  -- the pair before goes the other way, so there is a verdict on record
  have made : ∀ p ∈ [((⟨16⟩ : Handle), (⟨17⟩ : Handle)), (⟨17⟩, ⟨16⟩)],
      truthValues.store.MadeOf truthValues.store.isReadable p.1 ∧
        truthValues.store.MadeOf truthValues.store.isReadable p.2 := by
    have both : truthValues.store.MadeOf truthValues.store.isReadable ⟨16⟩ ∧
        truthValues.store.MadeOf truthValues.store.isReadable ⟨17⟩ :=
      ⟨⟨2, by decide +kernel⟩, 3, by decide +kernel⟩
    intro p hp
    rw [List.mem_cons, List.mem_singleton] at hp
    rcases hp with rfl | rfl
    · exact both
    · exact both.symm
  have holds : (Snapshot.check pure ⟨16⟩ ⟨17⟩ (.after pure [(⟨17⟩, ⟨16⟩)]
      (.new truthValues.store { flags := { exactTupleArity := true }, limits := ⟨3, 9⟩ }))).1.isTrue
        = true := by
    decide +kernel
  rw [← (check_eq_snapshot pure _ truthValues.store [(⟨17⟩, ⟨16⟩)] ⟨16⟩ ⟨17⟩).1] at holds
  have source : truthValues.store.HasValue ⟨16⟩ (.list [.boolean true, .boolean false]) := by
    have node : truthValues.store.node? ⟨16⟩ = some (.array .boolean) := by decide +kernel
    refine .of node (.array fun x hx => Store.hasValue_handle.2 ?_)
    simp only [List.mem_cons, List.not_mem_nil, or_false] at hx
    rcases hx with rfl | rfl
    · exact .boolean true
    · exact .boolean false
  exact ⟨source, hasValue_of_check pure _ truthValues.store [(⟨17⟩, ⟨16⟩)] ⟨16⟩ ⟨17⟩ rfl made
    holds _ source⟩

end Assignability
