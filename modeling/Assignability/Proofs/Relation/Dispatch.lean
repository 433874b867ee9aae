/-
  Assignability.Proofs.Relation.Dispatch
  ──────────────────────────────────────
  **WHICH RULE DECIDES A PAIR.**

  Some pairs hold at once (`View.AtOnce`).  Of the others the first rule
  that applies decides, and every rule comes to a condition on the parts:

    • `fits_alternatives_iff` — a union fits where all its members do,
    • `fits_into_alternatives_iff` — a source fits a union where it is a
      member, fits one, or is the truth values and both are covered,
    • `fits_into_intersection_iff` — a source fits all members,
    • `fits_intersection_iff` — a member fits, or all of them as one object,
    • `fits_iff_matches` — what is left fits by the rule for the two
      constructors (`View.Matches`).

  `Fits.ways` puts these together: in which ways a pair can fit where
  neither side is a record, a brand or a lazy node.
-/
import Assignability.Proofs.Relation.Largest

namespace Assignability

variable {ρ : Type}

/-- Whether a node has no parts and is compared as a value. -/
def Node.isLeaf : Node → Bool
  | .intrinsic _ | .literal _ => true
  | _ => false

/-- Whether a node with parts is compared by the rule for its constructor; records are left out. -/
def Node.isShape : Node → Bool
  | .array _ | .tuple _ | .object _ | .promise _ | .set _ | .map _ _ | .function _ => true
  | _ => false

/-- Whether a node is neither a record nor a brand nor a lazy node. -/
def Node.isOrdinary : Node → Bool
  | .record _ _ | .branded _ _ | .lazy _ => false
  | _ => true

/-- An ordinary node is not lazy. -/
theorem Node.isLazy_of_isOrdinary {n : Node} (h : n.isOrdinary = true) : n.isLazy = false := by
  cases n <;> first | rfl | cases h

/-- An intersection is given by a list of members. -/
theorem Node.exists_intersection {n : Node} (h : n.kind = .intersection) :
    ∃ l, n = .intersection l := by
  cases n <;> first | exact ⟨_, rfl⟩ | cases h

/-- The built-in types that widen to another one are few. -/
theorem Intrinsic.widensTo_eq_true {k l : Intrinsic} : k.widensTo l = true
    ↔ k = l ∨ k = .nan ∧ l = .number ∨ k = .undefined ∧ l = .void := by
  cases k <;> cases l <;> decide

/-! ## §1. What the rules for unions and intersections come to -/

namespace Query

variable {v : View ρ} {keys fits : Handle → Handle → Bool}

/-- A union takes its members, what fits one of them, and `boolean` if it has both of its values. -/
theorem isTrue_eval_unionTarget (s : Handle) (members : List Handle) :
    ((unionTarget s members).eval v keys fits).isTrue
      = (isMember v.store s members || members.any (fits s) ||
        (s == .boolean && haveBooleans v.store members)) := by
  unfold unionTarget
  rw [bind_eq, eval_bind, eval_store]
  -- member, then one that fits, then both truth values: each only if the one before fails
  cases hm : isMember v.store s members with
  | true => rfl
  | false =>
    have any : ((any (related s ·) members : Query ρ Answer).eval v keys fits).isTrue
        = members.any (fits s) := by
      rw [isTrue_eval_any]
      simp only [eval_related, Answer.isTrue_ofBool]
    rw [if_neg (by decide), bind_eq, eval_bind, Bool.false_or, ← any]
    cases ha : ((Query.any (related s ·) members : Query ρ Answer).eval v keys fits).isTrue with
    | true => rfl
    | false =>
      rw [if_neg (by decide), bind_eq, eval_bind, eval_store, Bool.false_or]
      show (if _ then Answer.holds else _).isTrue = _
      cases s == Handle.boolean && haveBooleans v.store members with
      | true => rfl
      | false => exact ha

/-- The members of an intersection one by one, and then all as one object. -/
theorem isTrue_eval_intersectionSource (members : List Handle) (t : Handle) (n : Node) :
    ((intersectionSource members t n).eval v keys fits).isTrue
      = (members.any (fits · t) || ((asOneObject members n).eval v keys fits).isTrue) := by
  have any : ((any (related · t) members : Query ρ Answer).eval v keys fits).isTrue
      = members.any (fits · t) := by
    rw [isTrue_eval_any]
    simp only [eval_related, Answer.isTrue_ofBool]
  -- the second attempt may not turn a failure into a different one
  have instead : ∀ a : Answer, (if a = .fails then a else .fails).isTrue = Answer.fails.isTrue := by
    intro a
    cases a <;> rfl
  unfold intersectionSource
  rw [bind_eq, eval_bind, ← any]
  cases ha : ((Query.any (related · t) members : Query ρ Answer).eval v keys fits).isTrue with
  | true => rfl
  | false =>
    rw [if_neg (by decide), Bool.false_or]
    unfold asOneObject
    cases n with
    | object shape =>
      dsimp only
      simp only [bind_eq, eval_bind]
      cases (layouts members).eval v keys fits with
      | none => exact ha
      | some shapes =>
        simp only [eval_bind, eval_store, pure_eq, eval_done]
        split
        · next hb => rw [ha, hb]; rfl
        · rfl
    | _ => exact ha

/-- An intersection fits a union in the way of a member or in its own. -/
theorem isTrue_eval_intersectionToUnion (s : Handle) (l : ListId) (t : Handle) (n : Node)
    (members : List Handle) :
    ((intersectionToUnion s l t n members).eval v keys fits).isTrue
      = (((unionTarget s members).eval v keys fits).isTrue ||
        ((intersectionSource (v.store.list l) t n).eval v keys fits).isTrue) := by
  unfold intersectionToUnion
  rw [bind_eq, eval_bind]
  cases ha : ((unionTarget s members).eval v keys fits).isTrue with
  | true =>
    rw [if_pos rfl, pure_eq, eval_done, ha]
    rfl
  | false =>
    rw [if_neg (by decide), Bool.false_or]
    simp only [bind_eq, eval_bind, eval_store, pure_eq, eval_done]
    split
    · next hb => rw [ha, hb]; rfl
    · rfl

end Query

namespace View

variable {v : View ρ} {s t : Handle} {source target : Node} {members : List Handle}

/-! ## §2. Pairs that hold at once -/

/-- The ways in which a pair holds at once. -/
inductive AtOnce (v : View ρ) (s t : Handle) : Prop
  /-- The target has all values, or is not checked. -/
  | top (h : t = .unknown ∨ t = .any)
  | bottom (h : s = .never)
  | unchecked (h : s = .any) (hf : v.flags.strictAny = false)
  | self (h : s = t)
  | leaf (h : v.store.leafPair? s t = some true)

/-- What fits at once is decided so. -/
theorem AtOnce.atOnce? (h : v.AtOnce s t) : v.store.atOnce? v.flags s t = some true := by
  unfold Store.atOnce?
  cases h with
  | top h => rw [if_pos (h.imp_right .inr)]
  | bottom h => rw [if_pos (.inr (.inl h))]
  | unchecked h hf =>
    rw [if_pos (show s = .any ∧ v.flags.strictAny = false from ⟨h, hf⟩)]
    split <;> rfl
  | self h =>
    rw [if_pos h]
    split
    · rfl
    · split <;> rfl
  | leaf h =>
    rw [h]
    split
    · rfl
    · split
      · rfl
      · split <;> rfl

/-- What fits at once fits. -/
theorem AtOnce.fits (h : v.AtOnce s t) : v.Fits s t := (fits_of_atOnce? h.atOnce?).2 rfl

/-- What fits at once is justified by any relation. -/
theorem AtOnce.justifies (h : v.AtOnce s t) (keys fits : Handle → Handle → Bool) :
    v.justifies keys fits s t = true := by
  unfold View.justifies
  rw [h.atOnce?]

/-- Every type fits itself. -/
theorem Fits.refl (s : Handle) : v.Fits s s := AtOnce.fits (.self rfl)

/-- A pair that fits does so at once, or is not decided at once. -/
theorem Fits.atOnce_or (h : v.Fits s t) :
    v.AtOnce s t ∨ v.store.atOnce? v.flags s t = none := by
  cases hb : v.store.atOnce? v.flags s t with
  | none => exact .inr rfl
  | some b =>
    obtain rfl := (fits_of_atOnce? hb).1 h
    refine .inl ?_
    -- the tests in their order are the ways to fit at once
    unfold Store.atOnce? at hb
    split at hb
    · next h =>
      rcases h with h | h | h
      · exact .top (.inl h)
      · exact .bottom h
      · exact .top (.inr h)
    · split at hb
      · next h => exact .unchecked h.1 h.2
      · split at hb
        · next h => exact .self h
        · exact .leaf hb

/-- A pair that fits does so at once, or there is a target to be looked into. -/
theorem Fits.atOnce_or_node (h : v.Fits s t) :
    v.AtOnce s t ∨ ∃ n, v.store.node? t = some n ∧ v.store.atOnce? v.flags s t = none := by
  refine h.atOnce_or.imp_right fun apart => ?_
  cases hn : v.store.node? t with
  | none => exact absurd h (not_fits_of_no_node apart hn)
  | some n => exact ⟨n, rfl, apart⟩

/-- A source that fits what it does not fit at once is there. -/
theorem Fits.exists_source (h : v.Fits s t) (apart : v.store.atOnce? v.flags s t = none) :
    ∃ n, v.store.node? s = some n := by
  cases hs : v.store.node? s with
  | some n => exact ⟨n, rfl⟩
  | none =>
    rw [fits_iff_step apart] at h
    unfold Query.step at h
    rw [Query.bind_eq, Query.eval_bind, Query.eval_store, hs] at h
    cases h

/-- A source with parts fits at once only what everything fits, and itself. -/
theorem AtOnce.cases_of_node (h : v.AtOnce s t) (hs : v.store.node? s = some source)
    (hi : source.kind ≠ .intrinsic) (hl : source.kind ≠ .literal) :
    (t = .unknown ∨ t = .any) ∨ s = t := by
  have known := h.atOnce?
  rw [atOnce?_of_node hs hi hl] at known
  split at known
  · next h => exact or_assoc.2 h
  · cases known

/-- A pair of leaves that holds at once. -/
theorem leafPair?_eq_some_true (hs : v.store.node? s = some source)
    (ht : v.store.node? t = some target) :
    v.store.leafPair? s t = some true
      ↔ (∃ k l, source = .intrinsic k ∧ target = .intrinsic l ∧ k.widensTo l = true) ∨
        ∃ value l, source = .literal value ∧ target = .intrinsic l ∧ value.fits l = true := by
  have pair : v.store.leafPair? s t = source.leafPair? target := by
    unfold Store.leafPair?
    rw [hs, ht]
    rfl
  rw [pair]
  cases source <;> cases target <;> simp [Node.leafPair?]

/-- A target that is no built-in type holds at once of what fits everything, and of itself. -/
theorem AtOnce.cases_into_node (h : v.AtOnce s t) (ht : v.store.node? t = some target)
    (other : target.kind ≠ .intrinsic) :
    (s = .never ∨ s = .any ∧ v.flags.strictAny = false) ∨ s = t := by
  have notEnd := ne_handle_of_node ht other
  cases h with
  | top h => exact absurd h (not_or.2 ⟨notEnd .unknown, notEnd .any⟩)
  | bottom h => exact .inl (.inl h)
  | unchecked h lax => exact .inl (.inr ⟨h, lax⟩)
  | self h => exact .inr h
  | leaf h =>
    cases hs : v.store.node? s with
    | none =>
      unfold Store.leafPair? at h
      rw [hs] at h
      cases h
    | some source =>
      rcases (leafPair?_eq_some_true hs ht).1 h with ⟨_, _, -, rfl, -⟩ | ⟨_, _, -, rfl, -⟩
      · exact absurd rfl other
      · exact absurd rfl other

/-- A literal fits the built-in types that have its value. -/
theorem fits_handle_of_literal {value : Literal} {k : Intrinsic}
    (hs : v.store.node? s = some (.literal value)) (h : value.fits k = true) : v.Fits s k.handle :=
  AtOnce.fits (.leaf ((leafPair?_eq_some_true hs (v.store.node?_handle k)).2
    (.inr ⟨value, k, rfl, rfl, h⟩)))

/-- Only leaves are decided at once not to fit. -/
theorem eq_true_of_atOnce? (hs : v.store.node? s = some source) (ht : v.store.node? t = some target)
    (parts : source.isLeaf = false ∨ target.isLeaf = false) {b : Bool}
    (h : v.store.atOnce? v.flags s t = some b) : b = true := by
  -- only the table of leaves says no at once
  have notLeaf : v.store.leafPair? s t = none := by
    unfold Store.leafPair?
    rw [hs, ht]
    show source.leafPair? target = none
    cases source <;> cases target <;> first | rfl | exact absurd parts (by simp [Node.isLeaf])
  unfold Store.atOnce? at h
  split at h
  · exact (Option.some.inj h).symm
  · split at h
    · exact (Option.some.inj h).symm
    · split at h
      · exact (Option.some.inj h).symm
      · rw [notLeaf] at h
        cases h

/-- Of pairs that are not two leaves the rule need only be looked at where they do not hold at
once. -/
theorem fits_of_apart (hs : v.store.node? s = some source) (ht : v.store.node? t = some target)
    (parts : source.isLeaf = false ∨ target.isLeaf = false)
    (h : v.store.atOnce? v.flags s t = none → v.Fits s t) : v.Fits s t := by
  cases hb : v.store.atOnce? v.flags s t with
  | none => exact h hb
  | some b => exact (fits_of_atOnce? hb).2 (eq_true_of_atOnce? hs ht parts hb)

/-! ## §3. Unions and intersections -/

/-- A node with alternatives is not lazy. -/
theorem isLazy_of_alternatives? (h : v.store.alternatives? source = some members) :
    source.isLazy = false := by
  cases source <;> first | rfl | cases h

/-- A node with alternatives is no leaf. -/
theorem isLeaf_of_alternatives? (h : v.store.alternatives? source = some members) :
    source.isLeaf = false := by
  cases source <;> first | rfl | cases h

/-- A node with alternatives is no shape. -/
theorem isShape_of_alternatives? (h : v.store.alternatives? source = some members) :
    source.isShape = false := by
  cases source <;> first | rfl | cases h

theorem kind_of_alternatives? (h : v.store.alternatives? source = some members) :
    source.kind ≠ .intrinsic := by
  cases source with
  | union | enumeration => exact nofun
  | _ => cases h

/-- A node with alternatives is no intersection. -/
theorem not_intersection_of_alternatives? (h : v.store.alternatives? source = some members) :
    source.kind ≠ .intersection := by
  cases source with
  | union | enumeration => exact nofun
  | _ => cases h

/-- A union, or an enumeration, fits where all its members do. -/
theorem fits_alternatives_iff (apart : v.store.atOnce? v.flags s t = none)
    (hs : v.store.node? s = some source) (ht : v.store.node? t = some target)
    (lt : target.isLazy = false) (ha : v.store.alternatives? source = some members) :
    v.Fits s t ↔ ∀ m ∈ members, v.Fits m t := by
  have rule : (Query.nodes v.flags s t source target).eval v v.keysFit v.fits
      = (Query.unionSource members t).eval v v.keysFit v.fits := by
    unfold Query.nodes
    rw [Query.bind_eq, Query.eval_bind, Query.eval_store, ha]
  rw [fits_iff_nodes apart hs ht (isLazy_of_alternatives? ha) lt, rule]
  unfold Query.unionSource
  rw [Query.isTrue_eval_every, List.all_eq_true]
  simp only [Query.eval_related, Answer.isTrue_ofBool, fits_eq_true]

/-- What makes a source fit a union: it is a member or a literal of one, it fits a member, or it is
the truth values and both are covered. -/
def FitsMember (v : View ρ) (s : Handle) (members : List Handle) : Prop :=
  Query.isMember v.store s members = true ∨ (∃ m ∈ members, v.Fits s m) ∨
    s = .boolean ∧ Query.haveBooleans v.store members = true

/-- A source among the members of a union fits one of them, unless it is the truth values. -/
theorem FitsMember.cases (h : v.FitsMember s members) :
    (∃ m ∈ members, v.Fits s m) ∨ s = .boolean ∧ Query.haveBooleans v.store members = true := by
  -- to be a member, or to be of the type of one, is to fit that member
  rcases h with h | h | h
  · left
    unfold Query.isMember at h
    rcases Bool.or_eq_true_iff.1 h with h | h
    · exact ⟨s, List.contains_iff_mem.1 h, .refl s⟩
    · split at h
      · next value hn =>
        rcases Bool.or_eq_true_iff.1 h with h | h
        · refine ⟨_, List.contains_iff_mem.1 h, fits_handle_of_literal hn ?_⟩
          unfold Literal.fits
          rw [beq_self_eq_true, Bool.true_or]
        · obtain ⟨notNumber, h⟩ := Bool.and_eq_true_iff.1 h
          refine ⟨Intrinsic.nan.handle, List.contains_iff_mem.1 h, fits_handle_of_literal hn ?_⟩
          unfold Literal.fits
          rw [notNumber, beq_self_eq_true, Bool.and_self, Bool.or_true]
      · cases h
  · exact .inl h
  · exact .inr h

/-- A source that is no built-in type fits a member. -/
theorem FitsMember.exists_of_node (h : v.FitsMember s members) (hs : v.store.node? s = some source)
    (other : source.kind ≠ .intrinsic) : ∃ m ∈ members, v.Fits s m :=
  h.cases.resolve_right fun h => ne_handle_of_node hs other .boolean h.1

/-- For the largest relation, the rule of union targets says that the source fits a member. -/
theorem isTrue_eval_unionTarget_iff :
    ((Query.unionTarget s members).eval v v.keysFit v.fits).isTrue = true
      ↔ v.FitsMember s members := by
  rw [Query.isTrue_eval_unionTarget]
  unfold FitsMember
  simp only [Bool.or_eq_true, Bool.and_eq_true, List.any_eq_true, fits_eq_true, beq_iff_eq,
    or_assoc]

/-- A node without alternatives fits a union exactly as one of its members. -/
theorem fits_into_alternatives_iff (apart : v.store.atOnce? v.flags s t = none)
    (hs : v.store.node? s = some source) (ht : v.store.node? t = some target)
    (ls : source.isLazy = false) (hn : v.store.alternatives? source = none)
    (hi : source.kind ≠ .intersection) (ha : v.store.alternatives? target = some members) :
    v.Fits s t ↔ v.FitsMember s members := by
  have rule : (Query.nodes v.flags s t source target).eval v v.keysFit v.fits
      = (Query.unionTarget s members).eval v v.keysFit v.fits := by
    unfold Query.nodes
    rw [Query.bind_eq, Query.eval_bind, Query.eval_store, hn, ha]
    cases source with
    | intersection l => exact absurd rfl hi
    | _ => rfl
  rw [fits_iff_nodes apart hs ht ls (isLazy_of_alternatives? ha), rule,
    isTrue_eval_unionTarget_iff]

/-- The members of an intersection fit a node as one object. -/
def FitAsOne (v : View ρ) (members : List Handle) (target : Node) : Prop :=
  ((Query.asOneObject members target).eval v v.keysFit v.fits).isTrue = true

/-- Members are put together as one object only against an object. -/
theorem not_fitAsOne_of_alternatives? {ms : List Handle}
    (ha : v.store.alternatives? target = some members) : ¬ v.FitAsOne ms target := by
  cases target with
  | union | enumeration => exact nofun
  | _ => cases ha

/-- An intersection fits by one of its members, or by all of them as one object. -/
theorem isTrue_eval_intersectionSource_iff :
    ((Query.intersectionSource members t target).eval v v.keysFit v.fits).isTrue = true
      ↔ (∃ m ∈ members, v.Fits m t) ∨ v.FitAsOne members target := by
  rw [Query.isTrue_eval_intersectionSource]
  unfold FitAsOne
  simp only [Bool.or_eq_true, List.any_eq_true, fits_eq_true]

/-- Against a union an intersection has the ways of both rules. -/
theorem fits_intersection_into_alternatives_iff {l : ListId}
    (apart : v.store.atOnce? v.flags s t = none) (hs : v.store.node? s = some (.intersection l))
    (ht : v.store.node? t = some target) (ha : v.store.alternatives? target = some members) :
    v.Fits s t ↔ v.FitsMember s members ∨ (∃ m ∈ v.store.list l, v.Fits m t) ∨
      v.FitAsOne (v.store.list l) target := by
  have rule : (Query.nodes v.flags s t (.intersection l) target).eval v v.keysFit v.fits
      = (Query.intersectionToUnion s l t target members).eval v v.keysFit v.fits := by
    unfold Query.nodes
    rw [Query.bind_eq, Query.eval_bind, Query.eval_store, ha]
    rfl
  rw [fits_iff_nodes apart hs ht rfl (isLazy_of_alternatives? ha), rule,
    Query.isTrue_eval_intersectionToUnion, Bool.or_eq_true, isTrue_eval_unionTarget_iff,
    isTrue_eval_intersectionSource_iff]

/-- A source that is no union fits an intersection where it fits all members. -/
theorem fits_into_intersection_iff {l : ListId} (apart : v.store.atOnce? v.flags s t = none)
    (hs : v.store.node? s = some source) (ht : v.store.node? t = some (.intersection l))
    (ls : source.isLazy = false) (hn : v.store.alternatives? source = none) :
    v.Fits s t ↔ ∀ m ∈ v.store.list l, v.Fits s m := by
  have rule : (Query.nodes v.flags s t source (.intersection l)).eval v v.keysFit v.fits
      = (Query.intersectionTarget s (v.store.list l)).eval v v.keysFit v.fits := by
    unfold Query.nodes
    rw [Query.bind_eq, Query.eval_bind, Query.eval_store, hn]
    cases source <;> rfl
  rw [fits_iff_nodes apart hs ht ls rfl, rule]
  unfold Query.intersectionTarget
  rw [Query.isTrue_eval_every, List.all_eq_true]
  simp only [Query.eval_related, Answer.isTrue_ofBool, fits_eq_true]

/-- An intersection fits a target that is no union and no intersection where one of its members
does, or all as one object. -/
theorem fits_intersection_iff {l : ListId} (apart : v.store.atOnce? v.flags s t = none)
    (hs : v.store.node? s = some (.intersection l)) (ht : v.store.node? t = some target)
    (lt : target.isLazy = false) (hn : v.store.alternatives? target = none)
    (hi : target.kind ≠ .intersection) :
    v.Fits s t ↔ (∃ m ∈ v.store.list l, v.Fits m t) ∨ v.FitAsOne (v.store.list l) target := by
  have rule : (Query.nodes v.flags s t (.intersection l) target).eval v v.keysFit v.fits
      = (Query.intersectionSource (v.store.list l) t target).eval v v.keysFit v.fits := by
    unfold Query.nodes
    rw [Query.bind_eq, Query.eval_bind, Query.eval_store, hn]
    cases target with
    | intersection k => exact absurd rfl hi
    | _ => rfl
  rw [fits_iff_nodes apart hs ht rfl lt, rule, isTrue_eval_intersectionSource_iff]

/-! ## §4. The rule for two constructors -/

/-- The parts of two sequences fit position by position. -/
def SequencesFit (v : View ρ) (arity : Arity) (s t : Sequence) : Prop :=
  s.arityFits v.flags arity t = true ∧ ∀ p ∈ s.pairs t, v.Fits p.1 p.2

/-- Two nodes fit by the rule for their constructors; records, and leaves among themselves, are left
out. -/
inductive Matches (v : View ρ) : Node → Node → Prop
  | array {a b : Handle} (h : v.Fits a b) : Matches v (.array a) (.array b)
  | tuple {o p : TupleId} (h : v.SequencesFit .atLeast (v.store.tuple o) (v.store.tuple p)) :
    Matches v (.tuple o) (.tuple p)
  | tupleToArray {o : TupleId} {b : Handle} (h : ∀ a ∈ (v.store.tuple o).parts, v.Fits a b) :
    Matches v (.tuple o) (.array b)
  | arrayToTuple {a b : Handle} {p : TupleId} (hi : (v.store.tuple p).items = [])
    (hr : (v.store.tuple p).rest = some b) (h : v.Fits a b) : Matches v (.array a) (.tuple p)
  | object {o p : ObjectId}
    (h : ((Query.objects (v.store.object o) (v.store.object p)).eval v v.keysFit v.fits).isTrue
      = true) : Matches v (.object o) (.object p)
  | promise {a b : Handle} (h : v.Fits a b) : Matches v (.promise a) (.promise b)
  | set {a b : Handle} (h : v.Fits a b) (h' : v.Fits b a) : Matches v (.set a) (.set b)
  | map {a b x y : Handle} (h : v.Fits a b) (h' : v.Fits b a) (k : v.Fits x y) (k' : v.Fits y x) :
    Matches v (.map a x) (.map b y)
  | function {f g : FunctionId}
    (hp : v.SequencesFit .exact (v.store.function g).parameters (v.store.function f).parameters)
    (hr : v.Fits (v.store.function f).result (v.store.function g).result) :
    Matches v (.function f) (.function g)

/-- For the largest relation, the rule of sequences says that they fit. -/
theorem isTrue_eval_sequence {arity : Arity} {a b : Sequence} :
    ((Query.sequence v.flags arity a b).eval v v.keysFit v.fits).isTrue = true
      ↔ v.SequencesFit arity a b := by
  unfold Query.sequence SequencesFit
  cases ha : a.arityFits v.flags arity b with
  | false => simp
  | true => simp

/-- An array fits a tuple of nothing but a rest. -/
theorem isTrue_eval_arrayToTuple {a : Handle} {b : Sequence} :
    ((Query.arrayToTuple .covariant a b).eval v v.keysFit v.fits).isTrue = true
      ↔ b.items = [] ∧ ∃ r, b.rest = some r ∧ v.Fits a r := by
  obtain ⟨items, rest⟩ := b
  cases items with
  | nil => cases rest <;> simp [Query.arrayToTuple, Query.relate]
  | cons item items => simp [Query.arrayToTuple]

/-- Nodes that are no unions, intersections, brands and lazy nodes are compared by their
constructors. -/
theorem eval_nodes_of_shapes (ps : source.isShape = true) (pt : target.isShape = true) :
    (Query.nodes v.flags s t source target).eval v v.keysFit v.fits
      = (match Rule.of? source.kind target.kind with
        | some rule => Query.byRule v.flags rule source target
        | none => .done .fails).eval v v.keysFit v.fits := by
  unfold Query.nodes
  rw [Query.bind_eq, Query.eval_bind, Query.eval_store]
  cases source <;> cases ps <;> cases target <;> cases pt <;> rfl

/-- **WHAT IS LEFT FITS BY THE RULE FOR THE TWO CONSTRUCTORS.** -/
theorem fits_iff_matches (apart : v.store.atOnce? v.flags s t = none)
    (hs : v.store.node? s = some source) (ht : v.store.node? t = some target)
    (ps : source.isShape = true) (pt : target.isShape = true) :
    v.Fits s t ↔ v.Matches source target := by
  have ls : source.isLazy = false := by cases source <;> first | rfl | cases ps
  have lt : target.isLazy = false := by cases target <;> first | rfl | cases pt
  rw [fits_iff_nodes apart hs ht ls lt, eval_nodes_of_shapes ps pt]
  have one : ∀ a b, ((Query.relate .covariant a b).eval v v.keysFit v.fits).isTrue = true
      ↔ v.Fits a b := by simp [Query.relate]
  have both : ∀ a b, ((Query.relate .invariant a b).eval v v.keysFit v.fits).isTrue = true
      ↔ v.Fits a b ∧ v.Fits b a := by simp [Query.relate]
  -- pairs of constructors without a rule fail, and nothing matches them
  cases source with
  | array a =>
    cases target with
    | array b => exact (one a b).trans ⟨.array, fun | .array h => h⟩
    | tuple p =>
      exact isTrue_eval_arrayToTuple.trans
        ⟨fun ⟨hi, r, hr, h⟩ => .arrayToTuple hi hr h, fun | .arrayToTuple hi hr h => ⟨hi, _, hr, h⟩⟩
    | _ => exact iff_of_false (fun h => nomatch h) fun h => nomatch h
  | tuple o =>
    cases target with
    | tuple p => exact isTrue_eval_sequence.trans ⟨.tuple, fun | .tuple h => h⟩
    | array b =>
      have every : ((Query.tupleToArray .covariant (v.store.tuple o) b).eval v v.keysFit
          v.fits).isTrue = true ↔ ∀ a ∈ (v.store.tuple o).parts, v.Fits a b := by
        simp only [Query.tupleToArray, Query.isTrue_eval_every, List.all_eq_true, one]
        rfl
      exact every.trans ⟨.tupleToArray, fun | .tupleToArray h => h⟩
    | _ => exact iff_of_false (fun h => nomatch h) fun h => nomatch h
  | object o =>
    cases target with
    | object p => exact ⟨.object, fun | .object h => h⟩
    | record => cases pt
    | _ => exact iff_of_false (fun h => nomatch h) fun h => nomatch h
  | promise a =>
    cases target with
    | promise b => exact (one a b).trans ⟨.promise, fun | .promise h => h⟩
    | _ => exact iff_of_false (fun h => nomatch h) fun h => nomatch h
  | set a =>
    cases target with
    | set b => exact (both a b).trans ⟨fun h => .set h.1 h.2, fun | .set h h' => ⟨h, h'⟩⟩
    | _ => exact iff_of_false (fun h => nomatch h) fun h => nomatch h
  | map a x =>
    cases target with
    | map b y =>
      have pair := Query.isTrue_eval_andThen v v.keysFit v.fits (Query.relate .invariant a b)
        (Query.relate .invariant x y)
      rw [Bool.eq_iff_iff, Bool.and_eq_true, both, both] at pair
      exact pair.trans ⟨fun h => .map h.1.1 h.1.2 h.2.1 h.2.2,
        fun | .map h h' k k' => ⟨⟨h, h'⟩, k, k'⟩⟩
    | _ => exact iff_of_false (fun h => nomatch h) fun h => nomatch h
  | function f =>
    cases target with
    | function g =>
      have pair := Query.isTrue_eval_andThen v v.keysFit v.fits
        (Query.sequences v.flags .contravariant .exact (v.store.function f).parameters
          (v.store.function g).parameters)
        (Query.relate .covariant (v.store.function f).result (v.store.function g).result)
      rw [Bool.eq_iff_iff, Bool.and_eq_true, one] at pair
      have parameters : _ ↔ v.SequencesFit .exact (v.store.function g).parameters
        (v.store.function f).parameters := isTrue_eval_sequence
      exact pair.trans ((and_congr_left' parameters).trans
        ⟨fun h => .function h.1 h.2, fun | .function h h' => ⟨h, h'⟩⟩)
    | _ => exact iff_of_false (fun h => nomatch h) fun h => nomatch h
  | _ => cases ps

/-- Two leaves are decided at once, whatever the answer. -/
theorem not_isLeaf_of_apart (apart : v.store.atOnce? v.flags s t = none)
    (hs : v.store.node? s = some source) (ht : v.store.node? t = some target)
    (ps : source.isLeaf = true) : target.isLeaf = false := by
  cases pt : target.isLeaf with
  | false => rfl
  | true =>
    have table : v.store.leafPair? s t ≠ none := by
      unfold Store.leafPair?
      rw [hs, ht]
      show source.leafPair? target ≠ none
      cases source <;> cases ps <;> cases target <;> cases pt <;> exact nofun
    unfold Store.atOnce? at apart
    split at apart
    · cases apart
    · split at apart
      · cases apart
      · split at apart
        · cases apart
        · exact absurd apart table

/-- A leaf neither fits a shape nor is fit by one. -/
theorem not_fits_of_isLeaf (apart : v.store.atOnce? v.flags s t = none)
    (hs : v.store.node? s = some source) (ht : v.store.node? t = some target)
    (h : source.isLeaf = true ∧ target.isShape = true ∨
      source.isShape = true ∧ target.isLeaf = true) : ¬ v.Fits s t := by
  have rule : source.isLazy = false ∧ target.isLazy = false ∧
      (Query.nodes v.flags s t source target).eval v v.keysFit v.fits = .fails := by
    rcases h with ⟨ps, pt⟩ | ⟨ps, pt⟩
    · cases source <;> cases ps <;> cases target <;> cases pt <;> exact ⟨rfl, rfl, rfl⟩
    · cases source <;> cases ps <;> cases target <;> cases pt <;> exact ⟨rfl, rfl, rfl⟩
  obtain ⟨ls, lt, rule⟩ := rule
  rw [fits_iff_nodes apart hs ht ls lt, rule]
  exact nofun

/-! ## §5. The ways in which a pair can fit -/

/-- The ways in which a source fits a target. -/
inductive Ways (v : View ρ) (s t : Handle) (source target : Node) : Prop
  | atOnce (h : v.AtOnce s t)
  /-- All members of the source do. -/
  | members {members : List Handle} (ha : v.store.alternatives? source = some members)
    (h : ∀ m ∈ members, v.Fits m t)
  /-- It is among the members of the target, or fits one. -/
  | member {members : List Handle} (hn : v.store.alternatives? source = none)
    (ha : v.store.alternatives? target = some members) (h : v.FitsMember s members)
  /-- It fits all members of the target. -/
  | every {l : ListId} (hn : v.store.alternatives? source = none) (ht : target = .intersection l)
    (h : ∀ m ∈ v.store.list l, v.Fits s m)
  /-- A member of the source does. -/
  | some {l : ListId} {m : Handle} (hs : source = .intersection l) (hm : m ∈ v.store.list l)
    (h : v.Fits m t)
  /-- The members of the source do, as one object. -/
  | asOne {l : ListId} (hs : source = .intersection l) (h : v.FitAsOne (v.store.list l) target)
  | shapes (ps : source.isShape = true) (pt : target.isShape = true) (h : v.Matches source target)

/-- An ordinary node without parts to be split into is a leaf or a shape. -/
theorem isLeaf_or_isShape (os : source.isOrdinary = true)
    (hn : v.store.alternatives? source = none) (hi : source.kind ≠ .intersection) :
    source.isLeaf = true ∨ source.isShape = true := by
  cases source with
  | intrinsic | literal => exact .inl rfl
  | array | tuple | object | promise | set | map | function => exact .inr rfl
  | enumeration | union => cases hn
  | intersection => exact absurd rfl hi
  | record | branded | lazy => cases os

/-- **IN WHICH WAYS A PAIR CAN FIT** where neither side is a record, a brand or a lazy node. -/
theorem Fits.ways (h : v.Fits s t) (hs : v.store.node? s = some source)
    (ht : v.store.node? t = some target) (os : source.isOrdinary = true)
    (ot : target.isOrdinary = true) : v.Ways s t source target := by
  rcases h.atOnce_or with h' | apart
  · exact .atOnce h'
  have ls := Node.isLazy_of_isOrdinary os
  have lt := Node.isLazy_of_isOrdinary ot
  -- In the order of the rules: a union on the left, then on the right or an intersection there,
  -- then an intersection on the left, and last the leaves and the shapes.
  cases ha : v.store.alternatives? source with
  | some members => exact .members ha ((fits_alternatives_iff apart hs ht lt ha).1 h)
  | none =>
    by_cases is : source.kind = .intersection
    · obtain ⟨l, rfl⟩ := Node.exists_intersection is
      have split (h : (∃ m ∈ v.store.list l, v.Fits m t) ∨ v.FitAsOne (v.store.list l) target) :
          v.Ways s t (.intersection l) target :=
        h.elim (fun ⟨_, hm, h⟩ => .some rfl hm h) (.asOne rfl)
      cases hb : v.store.alternatives? target with
      | some members =>
        exact ((fits_intersection_into_alternatives_iff apart hs ht hb).1 h).elim
          (.member ha hb) split
      | none =>
        by_cases it : target.kind = .intersection
        · obtain ⟨k, rfl⟩ : ∃ k, target = .intersection k := by
            cases target <;> first | exact ⟨_, rfl⟩ | cases it
          exact .every ha rfl ((fits_into_intersection_iff apart hs ht ls ha).1 h)
        · exact split ((fits_intersection_iff apart hs ht lt hb it).1 h)
    · cases hb : v.store.alternatives? target with
      | some members =>
        exact .member ha hb ((fits_into_alternatives_iff apart hs ht ls ha is hb).1 h)
      | none =>
        by_cases it : target.kind = .intersection
        · obtain ⟨k, rfl⟩ : ∃ k, target = .intersection k := by
            cases target <;> first | exact ⟨_, rfl⟩ | cases it
          exact .every ha rfl ((fits_into_intersection_iff apart hs ht ls ha).1 h)
        · -- what is left are leaves and shapes
          rcases isLeaf_or_isShape os ha is with ps | ps
          · rcases isLeaf_or_isShape ot hb it with pt | pt
            · rw [not_isLeaf_of_apart apart hs ht ps] at pt
              cases pt
            · exact absurd h (not_fits_of_isLeaf apart hs ht (.inl ⟨ps, pt⟩))
          · rcases isLeaf_or_isShape ot hb it with pt | pt
            · exact absurd h (not_fits_of_isLeaf apart hs ht (.inr ⟨ps, pt⟩))
            · exact .shapes ps pt ((fits_iff_matches apart hs ht ps pt).1 h)

end View

end Assignability
