/-
  Assignability.Proofs.Relation.TruthValues
  ─────────────────────────────────────────
  **BOOLEAN AND ITS TWO LITERALS.**

  What takes `boolean` takes both truth values (`fits_literal_of_boolean`).
  The other way round a union may take the two in different members.  The
  rule then looks for members that show a truth value: the literal itself,
  or an enumeration that lists it.  What a member takes behind a lazy node
  or as an intersection it does not show, and a union that takes one truth
  value there alone does not take `boolean`.

  Main statements:
    • `fits_boolean_iff` — where every truth value is shown
      (`ShowsBooleans`), `boolean` fits where both literals do,
    • `showsBooleans_of_plain` — it is where unions have no lazy nodes,
      unions and intersections among their members,
    • `related_boolean_iff` — and so the checker finds.
-/
import Assignability.Proofs.Checker.Equivalence
import Assignability.Proofs.Relation.Leaf
import Assignability.Proofs.Relation.Transitive

namespace Assignability

variable {ρ : Type}

namespace View

variable {v : View ρ} {s t u m : Handle} {source target n : Node} {members : List Handle}
  {l : ListId} {d : LazyId} {literal : Bool → Handle} {b : Bool}

/-! ## §1. Truth values that are shown -/

/-- A truth value that a member of a union among the pieces of a target takes without the other is
shown: the member is the literal, or an enumeration that lists it. -/
def ShowsBooleans (v : View ρ) (literal : Bool → Handle) (t : Handle) : Prop :=
  ∀ u n members, v.Piece t u → v.store.node? u = some n → v.store.alternatives? n = some members →
    ∀ m ∈ members, ∀ b, v.Fits (literal b) m →
      v.Fits (literal !b) m ∨ v.store.hasBoolean b m = true

/-! ## §2. Both literals -/

/-- `boolean` is a leaf. -/
theorem isLeafOf_boolean (v : View ρ) : v.IsLeafOf .boolean (.intrinsic .boolean) :=
  ⟨v.store.node?_handle .boolean, rfl, by decide, by decide⟩

/-- Where a union takes both literals, a member takes both or both are shown. -/
theorem exists_both_or_haveBooleans
    (shows : ∀ m ∈ members, ∀ b, v.Fits (literal b) m →
      v.Fits (literal !b) m ∨ v.store.hasBoolean b m = true)
    (each : ∀ b, ∃ m ∈ members, v.Fits (literal b) m) :
    (∃ m ∈ members, ∀ b, v.Fits (literal b) m) ∨ Query.haveBooleans v.store members = true := by
  -- a member that one literal fits is fit by the other as well, or shows the first
  have one : ∀ b, (∃ m ∈ members, ∀ b, v.Fits (literal b) m) ∨
      members.any (v.store.hasBoolean b) = true := by
    intro b
    obtain ⟨m, hm, h⟩ := each b
    rcases shows m hm b h with other | shown
    · refine .inl ⟨m, hm, fun b' => ?_⟩
      by_cases same : b' = b
      · exact same ▸ h
      · rw [Bool.eq_not_of_ne same]
        exact other
    · exact .inr (List.any_eq_true.2 ⟨m, hm, shown⟩)
  rcases one true with both | shown
  · exact .inl both
  · exact (one false).imp_right fun shown' => Bool.and_eq_true_iff.2 ⟨shown, shown'⟩

section

variable (hl : ∀ b, v.store.node? (literal b) = some (.literal (.boolean b)))
include hl

/-- Both truth values fit `boolean`. -/
theorem literal_fits_boolean (b : Bool) : v.Fits (literal b) .boolean :=
  fits_handle_of_literal (hl b) rfl

/-- What is not to be taken apart takes a truth value as itself, as `boolean` or as a type at the top. -/
theorem cases_of_fits_truthValue (h : v.Fits (literal b) t) (ht : v.store.node? t = some target)
    (lt : target.isLazy = false) (ha : v.store.alternatives? target = none)
    (it : target.kind ≠ .intersection) :
    (t = .unknown ∨ t = .any) ∨ t = literal b ∨ t = .boolean := by
  refine (cases_of_fits_literal (hl b) h ht lt ha it).imp_right (Or.imp_right ?_)
  rintro ⟨k, rfl, fits⟩
  obtain rfl : .boolean = k := by
    simpa [Literal.fits, Literal.primitive, Literal.isNaN] using fits
  rfl

/-- A union takes `boolean` by a member, or its members show both truth values. -/
theorem exists_member_of_fits_boolean (h : v.Fits .boolean t) (ht : v.store.node? t = some target)
    (ha : v.store.alternatives? target = some members) (b : Bool) :
    ∃ m ∈ members, v.Fits .boolean m ∨ v.Fits (literal b) m := by
  rcases ((v.isLeafOf_boolean.fits_alternatives_iff ht ha).1 h).cases with ⟨m, hm, h⟩ | ⟨-, h⟩
  · exact ⟨m, hm, .inl h⟩
  · unfold Query.haveBooleans at h
    rw [Bool.and_eq_true, List.any_eq_true, List.any_eq_true] at h
    obtain ⟨m, hm, shown⟩ : ∃ m ∈ members, v.store.hasBoolean b m = true := by
      cases b with
      | true => exact h.1
      | false => exact h.2
    exact ⟨m, hm, .inr (fits_of_hasBoolean (hl b) shown)⟩

/-- **WHAT TAKES BOOLEAN TAKES BOTH TRUTH VALUES.** -/
theorem fits_literal_of_boolean (h : v.Fits .boolean t) (b : Bool) : v.Fits (literal b) t := by
  have whole := v.isLeafOf_boolean
  -- the target is followed down, through lazy nodes that may lead back to it
  refine fits_of_closed_or (fun a c => a = literal b ∧ v.Fits .boolean c) ?_ ⟨rfl, h⟩
  rintro fits granted a c ⟨rfl, h⟩
  obtain ⟨target, hc⟩ := whole.exists_node h
  cases lazy : target.isLazy with
  | true =>
    obtain ⟨d, rfl⟩ : ∃ d, target = .lazy d := by
      cases target <;> first | exact ⟨_, rfl⟩ | cases lazy
    apply justifies_of_lazy (hl b) hc rfl
    rw [stands_of_node (hl b) rfl]
    exact granted _ _ (.inl ⟨rfl, (whole.fits_lazy_iff hc).1 h⟩)
  | false =>
    cases ha : v.store.alternatives? target with
    | some members =>
      obtain ⟨m, hm, h⟩ := exists_member_of_fits_boolean hl h hc ha b
      apply justifies_into_alternatives (hl b) hc rfl rfl ha hm
      exact granted _ _ (h.imp_left fun h => ⟨rfl, h⟩)
    | none =>
      by_cases it : target.kind = .intersection
      · obtain ⟨l, rfl⟩ := Node.exists_intersection it
        apply justifies_into_intersection (hl b) hc rfl rfl
        exact fun m hm => granted _ _ (.inl ⟨rfl, (whole.fits_intersection_iff hc).1 h m hm⟩)
      · have here : v.Fits (literal b) c := by
          cases whole.atOnce h hc lazy ha it with
          | top h => exact AtOnce.fits (.top h)
          | bottom h | unchecked h => cases h
          | self h => exact h ▸ literal_fits_boolean hl b
          | leaf h =>
            rcases (leafPair?_eq_some_true whole.node hc).1 h with
              ⟨k, k', h, rfl, widens⟩ | ⟨_, _, h, -⟩
            · obtain rfl := Node.intrinsic.inj h
              rcases Intrinsic.widensTo_eq_true.1 widens with rfl | ⟨h, -⟩ | ⟨h, -⟩
              · rw [Store.node?_injective hc whole.node]
                exact literal_fits_boolean hl b
              · cases h
              · cases h
            · cases h
        exact here.justifies fun x y hxy => granted x y (.inr hxy)

/-- **WHERE EVERY TRUTH VALUE IS SHOWN, BOOLEAN FITS WHERE BOTH LITERALS DO.** -/
theorem fits_boolean_iff (shows : v.ShowsBooleans literal t) :
    v.Fits .boolean t ↔ ∀ b, v.Fits (literal b) t := by
  have whole := v.isLeafOf_boolean
  refine ⟨fits_literal_of_boolean hl, fun h => ?_⟩
  -- the same, where the pieces met on the way are known to show their truth values
  refine fits_of_closed_or
    (fun a c => a = .boolean ∧ v.Piece t c ∧ ∀ b, v.Fits (literal b) c) ?_ ⟨rfl, .whole, h⟩
  rintro fits granted a c ⟨rfl, piece, h⟩
  obtain ⟨target, hc⟩ := (isLeafOf_literal (hl true)).exists_node (h true)
  cases lazy : target.isLazy with
  | true =>
    obtain ⟨d, rfl⟩ : ∃ d, target = .lazy d := by
      cases target <;> first | exact ⟨_, rfl⟩ | cases lazy
    apply justifies_of_lazy whole.node hc rfl
    rw [stands_of_node whole.node rfl]
    refine granted _ _ (.inl ⟨rfl, piece.stands hc, fun b => ?_⟩)
    exact ((isLeafOf_literal (hl b)).fits_lazy_iff hc).1 (h b)
  | false =>
    cases ha : v.store.alternatives? target with
    | some members =>
      have each : ∀ b, ∃ m ∈ members, v.Fits (literal b) m :=
        fun b => (fits_literal_alternatives_iff (hl b) hc ha).1 (h b)
      rcases exists_both_or_haveBooleans (shows c target members piece hc ha) each
        with ⟨m, hm, both⟩ | both
      · apply justifies_into_alternatives whole.node hc rfl rfl ha hm
        exact granted _ _ (.inl ⟨rfl, piece.member hc ha hm, both⟩)
      · refine justifies_of_nodes whole.node hc rfl lazy (.inr (isLeaf_of_alternatives? ha)) ?_
        unfold Query.nodes
        rw [Query.bind_eq, Query.eval_bind, Query.eval_store, ha]
        show ((Query.unionTarget .boolean members).eval v v.keysFit fits).isTrue = true
        rw [Query.isTrue_eval_unionTarget, both]
        exact Bool.or_true _
    | none =>
      by_cases it : target.kind = .intersection
      · obtain ⟨l, rfl⟩ := Node.exists_intersection it
        apply justifies_into_intersection whole.node hc rfl rfl
        intro m hm
        refine granted _ _ (.inl ⟨rfl, piece.every hc hm, fun b => ?_⟩)
        exact ((isLeafOf_literal (hl b)).fits_intersection_iff hc).1 (h b) m hm
      · -- neither literal is the other, so the target is `boolean` or at the top
        have only : (c = .unknown ∨ c = .any) ∨ c = .boolean := by
          rcases cases_of_fits_truthValue hl (h true) hc lazy ha it with top | rfl | same
          · exact .inl top
          · rcases cases_of_fits_truthValue hl (h false) hc lazy ha it with top | same | same
            · exact .inl top
            · have one := hl true
              rw [same, hl false] at one
              cases one
            · exact .inr same
          · exact .inr same
        rcases only with top | rfl
        · exact (AtOnce.top top).justifies _ fits
        · exact (AtOnce.self rfl).justifies _ fits

end

end View

/-! ## §3. Unions that show their values -/

/-- Whether a node shows the values that it takes: it is not to be taken apart, or lists leaves. -/
def Store.showsValues (σ : Store ρ) : Node → Bool
  | .enumeration l => (σ.list l).all fun x => (σ.node? x).any Node.isLeaf
  | .union _ | .intersection _ | .lazy _ => false
  | _ => true

namespace View

variable {v : View ρ} {t : Handle} {literal : Bool → Handle}

/-- **WHERE UNIONS HAVE NO LAZY NODES, UNIONS AND INTERSECTIONS AMONG THEIR MEMBERS, EVERY TRUTH VALUE
IS SHOWN.** -/
theorem showsBooleans_of_plain
    (hl : ∀ b, v.store.node? (literal b) = some (.literal (.boolean b)))
    (plain : ∀ u n members, v.Piece t u → v.store.node? u = some n →
      v.store.alternatives? n = some members →
      ∀ m ∈ members, (v.store.node? m).any v.store.showsValues = true) :
    v.ShowsBooleans literal t := by
  intro u n members piece hu ha m hm b h
  obtain ⟨k, hk, shows⟩ := (Option.any_eq_true _ _).1 (plain u n members piece hu ha m hm)
  -- what is not taken apart takes both, unless it is the literal
  have single : ∀ {x target}, v.Fits (literal b) x → v.store.node? x = some target →
      target.isLazy = false → v.store.alternatives? target = none → target.kind ≠ .intersection →
      v.Fits (literal !b) x ∨ x = literal b := by
    intro x target h hx lt ha it
    rcases cases_of_fits_truthValue hl h hx lt ha it with top | same | rfl
    · exact .inl (AtOnce.fits (.top top))
    · exact .inr same
    · exact .inl (literal_fits_boolean hl _)
  cases k with
  | enumeration l =>
    obtain ⟨x, hx, h⟩ := (fits_literal_alternatives_iff (hl b) hk rfl).1 h
    obtain ⟨target, hn, leaf⟩ := (Option.any_eq_true _ _).1 (List.all_eq_true.1 shows x hx)
    have only : v.Fits (literal !b) x ∨ x = literal b := by
      cases target with
      | intrinsic | literal => exact single h hn rfl rfl fun h => nomatch h
      | _ => cases leaf
    rcases only with other | rfl
    · exact .inl (fits_into_alternatives (hl _) hk rfl rfl rfl hx other)
    · right
      unfold Store.hasBoolean
      rw [hk]
      refine List.any_eq_true.2 ⟨literal b, hx, ?_⟩
      rw [hl b]
      exact beq_self_eq_true b
  | union | intersection | lazy => cases shows
  | _ =>
    rcases single h hk rfl rfl (fun h => nomatch h) with other | rfl
    · exact .inl other
    · right
      unfold Store.hasBoolean
      rw [hl b]
      exact beq_self_eq_true b

/-- The same of handles that are listed, with all that they lead to. -/
theorem showsBooleans_of_restsWithin (run : Runner ρ) (flags : Flags) {ω : Store ρ}
    {handles : List Handle} (rests : ω.restsWithin handles = true) (ht : t ∈ handles)
    (hl : ∀ b, ω.node? (literal b) = some (.literal (.boolean b)))
    (plain : ∀ u ∈ handles, (((ω.node? u).bind ω.alternatives?).getD []).all
      (fun m => (ω.node? m).any ω.showsValues) = true) :
    (View.of run ω.closed flags).ShowsBooleans literal t := by
  have keys := (Store.AtRest.of_restsWithin rests ht).quiescent.keys
  refine showsBooleans_of_plain hl fun u n members piece hu ha m hm => ?_
  have members' : (ω.node? u).bind ω.alternatives? = some members :=
    Option.bind_eq_some_iff.2 ⟨n, hu, ha⟩
  -- a piece is reached from `t`, so it is among the handles that were looked at
  rcases (Store.quiescent_closed keys).reaches_of_below (below_of_piece piece) with reach | rfl
  · unfold Store.Reaches at reach
    rw [Store.leads_closed] at reach
    have each := plain u (Store.Reaches.of_closed (Store.mem_of_leads rests) reach ht)
    rw [members'] at each
    exact List.all_eq_true.1 each m hm
  · rw [show ω.node? .never = _ from ω.node?_handle .never] at members'
    cases members'

end View

/-! ## §4. What the checker finds -/

/-- **BOOLEAN AND ITS TWO LITERALS.**  What is found to take `boolean` is found to take both truth
values, and the other way round where unions show the truth values that their members take.  The
three questions may be asked at different times, and resolvers carried out on the way. -/
theorem related_boolean_iff (run : Runner ρ) (policy : Policy) (ω : Store ρ)
    (literal : Bool → Handle) (hl : ∀ b, ω.node? (literal b) = some (.literal (.boolean b)))
    (t : Handle) (whole : Finding) (single : Bool → Finding)
    (found : Store.Found run policy .assignable ω .boolean t whole)
    (founds : ∀ b, Store.Found run policy .assignable ω (literal b) t (single b))
    (within : whole.exceeded = false ∧ ∀ b, (single b).exceeded = false) :
    (whole.related = true → ∀ b, (single b).related = true) ∧
      ((View.of run ω.closed policy.flags).ShowsBooleans literal t →
        (∀ b, (single b).related = true) → whole.related = true) := by
  let v := View.of run ω.closed policy.flags
  have hl' : ∀ b, v.store.node? (literal b) = some (.literal (.boolean b)) := hl
  obtain ⟨within, within'⟩ := within
  -- no question about keys is posed by a built-in type or a literal
  have hw : whole.related = true ↔ v.Fits .boolean t :=
    found.fits_iff v.isLeafOf_boolean.not_posesKeys within
  have hs : ∀ b, (single b).related = true ↔ v.Fits (literal b) t := fun b =>
    (founds b).fits_iff (View.isLeafOf_literal (hl' b)).not_posesKeys (within' b)
  simp only [hw, hs]
  exact ⟨View.fits_literal_of_boolean hl', fun shows => (View.fits_boolean_iff hl' shows).2⟩

/-- A declaration for `true` in an enumeration, `false`, or a list of what is declared; and its
literals. -/
def truthTrees : Listing Handle where
  nodes := [.literal (.boolean true), .literal (.boolean false), .enumeration ⟨0⟩, .union ⟨1⟩,
    .array ⟨18⟩, .lazy ⟨1⟩]
  lists := [[⟨13⟩], [⟨14⟩, ⟨15⟩, ⟨17⟩]]
  definitions := [⟨some ⟨16⟩, none⟩]

/-- Both literals fit the declaration, the first question having resolved it, and so does
`boolean`. -/
theorem related_truthTrees :
    let one := Store.relate pure {} .assignable ⟨13⟩ ⟨18⟩ truthTrees.store
    let other := Store.relate pure {} .assignable ⟨14⟩ ⟨18⟩ one.2
    (one.1.related = true ∧ other.1.related = true) ∧
      (Store.relate pure {} .assignable .boolean ⟨18⟩ other.2).1.related = true := by
  intro one other
  let both := Store.relate pure {} .assignable .boolean ⟨18⟩ other.2
  have orderly : Store.Orderly pure truthTrees.store := truthTrees.orderly (by decide +kernel)
  have ht : truthTrees.store.Has ⟨18⟩ := ⟨.lazy ⟨1⟩, by decide +kernel⟩
  have hs : truthTrees.store.Has ⟨13⟩ := ⟨.literal (.boolean true), by decide +kernel⟩
  have hs' : truthTrees.store.Has ⟨14⟩ := ⟨.literal (.boolean false), by decide +kernel⟩
  -- each question leads to an orderly later store
  have first : Store.Repeats pure _ (Store.relate pure {} .assignable ⟨13⟩ ⟨18⟩) _ :=
    repeated_relate orderly hs ht
  have second : Store.Repeats pure _ (Store.relate pure {} .assignable ⟨14⟩ ⟨18⟩) one.2 :=
    repeated_relate first.orderly (first.later.has hs') (first.later.has ht)
  have upTo := first.later.trans second.later
  have third : Store.Repeats pure _ (Store.relate pure {} .assignable .boolean ⟨18⟩) other.2 :=
    repeated_relate second.orderly (other.2.has_handle .boolean) (upTo.has ht)
  let literal (b : Bool) : Handle := if b then ⟨13⟩ else ⟨14⟩
  let single (b : Bool) : Finding := if b then one.1 else other.1
  let handles : List Handle := [⟨13⟩, ⟨14⟩, ⟨15⟩, ⟨16⟩, ⟨17⟩, ⟨18⟩]
  have entries : (∀ b, both.2.node? (literal b) = some (.literal (.boolean b))) ∧
      both.2.restsWithin handles = true ∧ ∀ u ∈ handles,
        (((both.2.node? u).bind both.2.alternatives?).getD []).all
          (fun m => (both.2.node? m).any both.2.showsValues) = true := by
    simp only [both, other, one, relate_snd_eq]
    decide +kernel
  obtain ⟨hl, rests, plain⟩ := entries
  have within : both.1.exceeded = false ∧ one.1.exceeded = false ∧ other.1.exceeded = false := by
    simp only [both, other, one, relate_snd_eq, relate_eq_finding]
    decide +kernel
  have parts : one.1.related = true ∧ other.1.related = true := by
    simp only [other, one, relate_snd_eq, relate_eq_finding]
    decide +kernel
  have shows : (View.of pure both.2.closed {}).ShowsBooleans literal ⟨18⟩ :=
    View.showsBooleans_of_restsWithin pure {} rests (by decide) hl plain
  have found : Store.Found pure {} .assignable both.2 .boolean ⟨18⟩ both.1 :=
    ⟨other.2, second.orderly, other.2.has_handle .boolean, upTo.has ht, rfl, .refl _⟩
  have founds : ∀ b, Store.Found pure {} .assignable both.2 (literal b) ⟨18⟩ (single b) := by
    intro b
    cases b with
    | true => exact ⟨truthTrees.store, orderly, hs, ht, rfl, second.later.trans third.later⟩
    | false =>
      exact ⟨one.2, first.orderly, first.later.has hs', first.later.has ht, rfl, third.later⟩
  have singles : ∀ b, (single b).exceeded = false ∧ (single b).related = true := by
    intro b
    cases b with
    | true => exact ⟨within.2.1, parts.1⟩
    | false => exact ⟨within.2.2, parts.2⟩
  have related := related_boolean_iff pure {} both.2 literal hl ⟨18⟩ both.1 single found founds
    ⟨within.1, fun b => (singles b).1⟩
  exact ⟨parts, related.2 shows fun b => (singles b).2⟩

end Assignability
