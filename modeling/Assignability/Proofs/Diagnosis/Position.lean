/-
  Assignability.Proofs.Diagnosis.Position
  ───────────────────────────────────────
  **THE FIRST BAD POSITION.**

  Tuples are explained by the first position at which the types of the two
  do not fit, functions by the first parameter that does not.  The checker
  and the explanation each list the positions in their own way; for
  parameters the checker goes from the target to the source.  Both lists
  come to the types that stand at one position (`Sequence.typeAt?`), so
  they agree for all lengths and rests.

  Main statement: `explained_position`.
-/
import Assignability.Proofs.Diagnosis.First
import Assignability.Proofs.Diagnosis.Snapshot
import Assignability.Proofs.Relation.Plain
import Assignability.Proofs.Store.Listing

namespace Assignability

variable {ρ : Type}

/-! ## §1. Lists of positions -/

namespace Sequence

variable {s t : Sequence} {holds : Handle → Handle → Prop} {k : Nat} {a b : Handle}

/-- The types at the least position of two sequences at which a type of the one does not go with that
of the other. -/
structure FirstApart (holds : Handle → Handle → Prop) (s t : Sequence) (k : Nat) (a b : Handle) :
    Prop where
  source : s.typeAt? k = some a
  target : t.typeAt? k = some b
  apart : ¬ holds a b
  before : ∀ i, i < k → ∀ x y, s.typeAt? i = some x → t.typeAt? i = some y → holds x y

/-- A source of fitting arity has at least the elements of the target. -/
theorem length_le_of_arityFits {flags : Flags} (h : s.arityFits flags .atLeast t = true) :
    t.items.length ≤ s.items.length := of_decide_eq_true (Bool.and_eq_true_iff.1 h).1

/-- What stands past the items of the target is compared with its rest. -/
theorem getElem?_pairs (arity : t.items.length ≤ s.items.length) {i : Nat}
    (hi : i ≤ s.items.length) :
    (s.pairs t)[i]? = (s.typeAt? i).bind fun a => (t.typeAt? i).map fun b => (a, b) := by
  have zipped : (s.items.zip t.items).length = t.items.length := by
    rw [List.length_zip]
    omega
  unfold pairs
  -- a place among the items of the target, or past them
  by_cases lt : i < t.items.length
  · rw [List.getElem?_append_left (by omega), typeAt?_of_lt (by omega), typeAt?_of_lt lt]
    exact List.getElem?_zip_eq_some.2 ⟨List.getElem?_eq_getElem _, List.getElem?_eq_getElem _⟩
  · rw [List.getElem?_append_right (by omega), typeAt?_of_le (Nat.le_of_not_lt lt), zipped]
    cases t.rest with
    | none => cases s.typeAt? i <;> rfl
    | some rest =>
      have further : (s.items.drop t.items.length ++ s.rest.toList)[i - t.items.length]?
          = s.typeAt? i := by
        rcases Nat.lt_or_eq_of_le hi with within | rfl
        · rw [List.getElem?_append_left (by rw [List.length_drop]; omega), List.getElem?_drop,
            Nat.add_sub_cancel' (Nat.le_of_not_lt lt), typeAt?_of_lt within]
          exact List.getElem?_eq_getElem within
        · rw [List.getElem?_append_right (by rw [List.length_drop]), List.length_drop, Nat.sub_self,
            typeAt?_of_le (Nat.le_refl _)]
          cases s.rest <;> rfl
      rw [List.getElem?_map, further]
      cases s.typeAt? i <;> rfl

/-- At most one pair stands behind those of the source elements, that of the rests. -/
theorem length_pairs_le (arity : t.items.length ≤ s.items.length) :
    (s.pairs t).length ≤ s.items.length + 1 := by
  unfold pairs
  rw [List.length_append, List.length_zip]
  cases t.rest with
  | none =>
    rw [List.length_nil]
    omega
  | some rest =>
    have one : s.rest.toList.length ≤ 1 := by cases s.rest <;> simp
    rw [List.length_map, List.length_append, List.length_drop]
    omega

/-- Two sequences of one length are compared item by item, and at last their rests. -/
theorem pairs_eq_zip (same : s.items.length = t.items.length) : s.pairs t = s.zip t := by
  unfold pairs zip
  rw [List.drop_of_length_le (Nat.le_of_eq same)]
  cases t.rest <;> cases s.rest <;> rfl

/-- The first pair that does not hold stands at the least position where the types do not. -/
theorem firstApart_of_pairs (arity : t.items.length ≤ s.items.length)
    (first : FirstNot (fun p : Handle × Handle => holds p.1 p.2) (s.pairs t) k (a, b)) :
    FirstApart holds s t k a b := by
  have place := first.place
  obtain ⟨lt, -⟩ := List.getElem?_eq_some_iff.1 place
  have bound := length_pairs_le arity
  rw [getElem?_pairs arity (by omega), Option.bind_eq_some_iff] at place
  obtain ⟨x, source, hx⟩ := place
  obtain ⟨y, target, hy⟩ := Option.map_eq_some_iff.1 hx
  cases hy
  refine ⟨source, target, first.fails, fun i hi x y hx hy => first.before i hi (x, y) ?_⟩
  rw [getElem?_pairs arity (by omega), hx, hy]
  rfl

end Sequence

/-! ## §2. What is to blame -/

namespace View

variable {v : View ρ} {s t : Handle}

/-- The first of two tuples' pairs that does not fit is to blame. -/
theorem eval_blameElement? (pairs : List (Handle × Handle)) :
    (∀ p ∈ pairs, v.Fits p.1 p.2) ∧
        (Query.blameElement? 0 pairs).eval v v.fits v.fits = none ∨
      ∃ k p, FirstNot (fun p : Handle × Handle => v.Fits p.1 p.2) pairs k p ∧
        (Query.blameElement? 0 pairs).eval v v.fits v.fits
          = some (.part p.1 p.2 fun cause => .tupleElement k p.1 p.2 (some cause)) := by
  have found := v.eval_search Query.blameElement?
    (fun n p => Query.blamePart? p.1 p.2 fun cause => .tupleElement n p.1 p.2 (some cause))
    (fun p : Handle × Handle => v.Fits p.1 p.2)
    (fun n p => .part p.1 p.2 fun cause => .tupleElement n p.1 p.2 (some cause))
    (fun _ => rfl) (fun _ _ _ => rfl) ?_ ?_ pairs 0
  · simpa only [Nat.zero_add] using found
  · intro n p hp
    rw [Query.eval_blamePart?, if_pos (fits_eq_true.2 hp)]
  · intro n p hp
    rw [Query.eval_blamePart?, if_neg fun fits => hp (fits_eq_true.1 fits)]

/-- The first of two functions' pairs of parameters is to blame of which that of the target does not
fit that of the source. -/
theorem eval_blameParameter? (pairs : List (Handle × Handle)) :
    (∀ p ∈ pairs, v.Fits p.2 p.1) ∧
        (Query.blameParameter? 0 pairs).eval v v.fits v.fits = none ∨
      ∃ k p, FirstNot (fun p : Handle × Handle => v.Fits p.2 p.1) pairs k p ∧
        (Query.blameParameter? 0 pairs).eval v v.fits v.fits
          = some (.reason (.parameterMismatch k p.1 p.2)) := by
  have found := v.eval_search Query.blameParameter?
    (fun n p => Query.reasonPart? p.2 p.1 (.parameterMismatch n p.1 p.2))
    (fun p : Handle × Handle => v.Fits p.2 p.1)
    (fun n p => .reason (.parameterMismatch n p.1 p.2))
    (fun _ => rfl) (fun _ _ _ => rfl) ?_ ?_ pairs 0
  · simpa only [Nat.zero_add] using found
  · intro n p hp
    rw [Query.eval_reasonPart?, if_pos (fits_eq_true.2 hp)]
  · intro n p hp
    rw [Query.eval_reasonPart?, if_neg fun fits => hp (fits_eq_true.1 fits)]

variable (apart : ¬ v.Fits s t)
include apart

/-- Why tuples do not fit: their numbers of items, or else their first bad position. -/
theorem blame_of_tuples {o p : TupleId} (hs : v.store.node? s = some (.tuple o))
    (ht : v.store.node? t = some (.tuple p)) :
    (v.store.tuple o).arityFits v.flags .atLeast (v.store.tuple p) = false ∧
        v.blame s t = .reason (.tupleArity (v.store.tuple o).items.length
          (v.store.tuple p).items.length) ∨
      (v.store.tuple o).arityFits v.flags .atLeast (v.store.tuple p) = true ∧
        ∃ k a b, (v.store.tuple o).FirstApart v.Fits (v.store.tuple p) k a b ∧
          v.blame s t = .part a b fun cause => .tupleElement k a b (some cause) := by
  have unmatched := Query.not_matches hs ht apart rfl rfl rfl
  have rule : v.blame s t = ((Query.blameTuple? v.flags (v.store.tuple o) (v.store.tuple p)).eval v
      v.fits v.fits).getD (.reason (.mismatch s t)) := blame_of_rule hs ht rfl rfl rfl
  rw [rule]
  unfold Query.blameTuple?
  cases arity : (v.store.tuple o).arityFits v.flags .atLeast (v.store.tuple p) with
  | false => exact .inl ⟨rfl, rfl⟩
  | true =>
    -- with a fitting arity the pairs stand in the order of the positions
    have long := Sequence.length_le_of_arityFits arity
    rcases eval_blameElement? (v := v) ((v.store.tuple o).pairs (v.store.tuple p)) with
      ⟨all, -⟩ | ⟨k, ⟨a, b⟩, first, found⟩
    · exact absurd (.tuple ⟨arity, all⟩) unmatched
    · refine .inr ⟨rfl, k, a, b, Sequence.firstApart_of_pairs long first, ?_⟩
      rw [if_pos rfl, found]
      rfl

/-- Why functions do not fit: their numbers of parameters, or else the first parameter that does not
fit, or else the result. -/
theorem blame_of_functions {f g : FunctionId} (hs : v.store.node? s = some (.function f))
    (ht : v.store.node? t = some (.function g)) {a b : Signature} (ha : v.store.function f = a)
    (hb : v.store.function g = b) :
    a.parameters.items.length ≠ b.parameters.items.length ∧
        v.blame s t = .reason (.parameterCount a.parameters.items.length
          b.parameters.items.length) ∨
      a.parameters.items.length = b.parameters.items.length ∧
        ((∃ k x y, a.parameters.FirstApart (fun x y => v.Fits y x) b.parameters k x y ∧
            v.blame s t = .reason (.parameterMismatch k x y)) ∨
          (∀ i x y, a.parameters.typeAt? i = some x → b.parameters.typeAt? i = some y →
            v.Fits y x) ∧ ¬ v.Fits a.result b.result ∧
            v.blame s t = .part a.result b.result fun cause =>
              .returnMismatch a.result b.result (some cause)) := by
  have unmatched := Query.not_matches hs ht apart rfl rfl rfl
  have rule : v.blame s t = ((Query.blameFunction? a b).eval v v.fits v.fits).getD
      (.reason (.mismatch s t)) := by
    rw [← ha, ← hb]
    exact blame_of_rule hs ht rfl rfl rfl
  rw [rule]
  unfold Query.blameFunction?
  dsimp only
  by_cases same : a.parameters.items.length = b.parameters.items.length
  · rw [if_neg (fun h => h same), Query.eval_orBlame, ← Sequence.pairs_eq_zip same]
    refine .inr ⟨same, ?_⟩
    -- the checker lists the same parameters, from the target to the source
    rcases eval_blameParameter? (v := v) (a.parameters.pairs b.parameters) with
      ⟨all, found⟩ | ⟨k, ⟨x, y⟩, first, found⟩
    · have fits : ∀ i x y, a.parameters.typeAt? i = some x → b.parameters.typeAt? i = some y →
          v.Fits y x := fun i x y hx hy =>
        all (x, y) ((Sequence.mem_pairs_iff (Nat.le_of_eq same.symm)).2 ⟨i, hx, hy⟩)
      have result : ¬ v.Fits a.result b.result := by
        intro result
        refine unmatched (.function (sequencesFit_exact_iff.2 ⟨?_, ?_⟩) ?_)
        · rw [ha, hb]
          exact same.symm
        · rw [ha, hb]
          exact fun i y x hy hx => fits i x y hx hy
        · rw [ha, hb]
          exact result
      refine .inr ⟨fits, result, ?_⟩
      rw [found, Query.eval_blamePart?, if_neg fun h => result (fits_eq_true.1 h)]
      rfl
    · refine .inl ⟨k, x, y, Sequence.firstApart_of_pairs (Nat.le_of_eq same.symm) first, ?_⟩
      rw [found]
      rfl
  · rw [if_pos same]
    exact .inl ⟨same, rfl⟩

end View

/-! ## §3. What is explained -/

/-- **SEQUENCES ARE EXPLAINED BY THE FIRST BAD POSITION.**  Two tuples without lazy nodes that are
found to be unrelated are explained by their numbers of items where these do not fit, and else by the
least position at which their types do not fit; where there are no fewer items in the source, the
further ones can be cut off.  Two functions are explained by their numbers of parameters, or else by
the least position at which the parameter of the target does not fit that of the source, or else by
their results. -/
theorem explained_position (run : Runner ρ) (policy : Policy) (σ : Store ρ) (s t : Handle)
    (fs : σ.LazyFree s) (ft : σ.LazyFree t)
    (unrelated : (Store.assignable run policy s t σ).1 = false)
    (within : (Inquire.explain? run s t ⟨σ, .new policy⟩).2.checker.exceeded = false) :
    (∀ o p, σ.node? s = some (.tuple o) → σ.node? t = some (.tuple p) →
      let source := σ.tuple o
      let target := σ.tuple p
      (source.arityFits policy.flags .atLeast target = false →
        (Store.explain? run policy s t σ).1
          = some (.tupleArity source.items.length target.items.length)) ∧
      (source.arityFits policy.flags .atLeast target = true →
        target.items.length ≤ source.items.length ∧
          ∃ k a b cause, source.FirstApart (View.of run σ policy.flags).Fits target k a b ∧
            (Store.explain? run policy s t σ).1 = some (.tupleElement k a b (some cause)))) ∧
    ∀ f g, σ.node? s = some (.function f) → σ.node? t = some (.function g) →
      let source := σ.function f
      let target := σ.function g
      let n := source.parameters.items.length
      let m := target.parameters.items.length
      (n ≠ m → (Store.explain? run policy s t σ).1 = some (.parameterCount n m)) ∧
      (n = m →
        (∃ k a b, source.parameters.FirstApart
            (fun a b => (View.of run σ policy.flags).Fits b a) target.parameters k a b ∧
          (Store.explain? run policy s t σ).1 = some (.parameterMismatch k a b)) ∨
        (∀ k a b, source.parameters.typeAt? k = some a → target.parameters.typeAt? k = some b →
          (View.of run σ policy.flags).Fits b a) ∧
        ¬ (View.of run σ policy.flags).Fits source.result target.result ∧
        ∃ cause, (Store.explain? run policy s t σ).1
          = some (.returnMismatch source.result target.result (some cause))) := by
  -- Without lazies the explanation is the blame of the view, given at the first level. What is
  -- left is to compare the blame case by case.
  obtain ⟨apart, below, explained⟩ := explain?_of_lazyFree fs ft unrelated within
  rw [explained]
  constructor
  · intro o p hs ht source target
    rcases View.blame_of_tuples apart hs ht with ⟨arity, blame⟩ | ⟨arity, k, a, b, first, blame⟩
    · refine ⟨fun _ => ?_, fun fits => ?_⟩
      · rw [blame]
        rfl
      · exact absurd (arity.symm.trans fits) Bool.false_ne_true
    · refine ⟨fun short => ?_, fun fits => ?_⟩
      · exact absurd (short.symm.trans arity) Bool.false_ne_true
      · refine ⟨Sequence.length_le_of_arityFits fits, k, a, b, below a b, first, ?_⟩
        rw [blame]
        rfl
  · intro f g hs ht source target n m
    rcases View.blame_of_functions apart hs ht (a := source) (b := target) rfl rfl with
      ⟨differ, blame⟩ | ⟨same, ⟨k, a, b, first, blame⟩ | ⟨fits, result, blame⟩⟩
    · refine ⟨fun _ => ?_, fun same => absurd same differ⟩
      rw [blame]
      rfl
    · refine ⟨fun differ => absurd same differ, fun _ => .inl ⟨k, a, b, first, ?_⟩⟩
      rw [blame]
      rfl
    · refine ⟨fun differ => absurd same differ, fun _ => .inr ⟨fits, result, ?_⟩⟩
      refine ⟨below source.result target.result, ?_⟩
      rw [blame]
      rfl

/-- A tuple of two strings and any numbers, and one of a string and any truth values. -/
def openTuples : Store Handle where
  __ := Listing.store { nodes := [.tuple ⟨0⟩, .tuple ⟨1⟩] }
  tuples := .ofList [⟨[Intrinsic.string.handle, Intrinsic.string.handle],
    some Intrinsic.number.handle⟩, ⟨[Intrinsic.string.handle], some Intrinsic.boolean.handle⟩]
    (by decide)

/-- The tuples are told apart right after the items of the second. -/
theorem explained_openTuples :
    (Store.assignable pure {} ⟨13⟩ ⟨14⟩ openTuples).1 = false ∧
      ∃ k a b cause, (openTuples.tuple ⟨0⟩).FirstApart (View.of pure openTuples {}).Fits
        (openTuples.tuple ⟨1⟩) k a b ∧
          (Store.explain? pure {} ⟨13⟩ ⟨14⟩ openTuples).1
            = some (.tupleElement k a b (some cause)) := by
  have unrelated : (Store.relate pure {} .assignable ⟨13⟩ ⟨14⟩ openTuples).1.related = false := by
    rw [relate_eq_finding]
    decide +kernel
  obtain ⟨-, limit⟩ := explain?_eq_snapshot pure {} openTuples [] ⟨13⟩ ⟨14⟩
  have explained := explained_position pure {} openTuples ⟨13⟩ ⟨14⟩ ⟨2, by decide +kernel⟩
    ⟨2, by decide +kernel⟩ unrelated (limit.trans (by decide +kernel))
  have tuples := explained.1 ⟨0⟩ ⟨1⟩ (by decide +kernel) (by decide +kernel)
  exact ⟨unrelated, (tuples.2 (by decide +kernel)).2⟩

end Assignability
