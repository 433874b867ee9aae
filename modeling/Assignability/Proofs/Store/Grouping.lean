/-
  Assignability.Proofs.Store.Grouping
  ───────────────────────────────────
  **MEMBERS MAY BE GROUPED AT WILL.**

  The constructors of unions and intersections take their members apart
  by one level, put them in order and leave out the ends.  One level is
  enough, as no union that a constructor built has a union among its
  members.  So what is built depends on the set of the members alone, and
  building it in groups first comes to the same: the ends that absorb, or
  are absorbed, do so in every grouping.

  Main statements:
    • `Joined.union_regroup`, `Joined.intersection_regroup` — what is left
      of members in groups is what is left of all of them,
    • `joined_freely` — the normal form of what the constructors build, and
      that grouping, order and repetition make no difference to it.
-/
import Assignability.Proofs.Store.Joined
import Mathlib.Data.List.Sort

namespace Assignability

variable {ρ : Type} {run : Runner ρ} {assign : String → Fin 64} {σ τ υ : Store ρ} {h g : Handle}
  {as bs : List Handle}

/-! ## §1. What is left depends on the set of the members -/

instance : Std.Irrefl fun a b : Handle => a < b := ⟨fun h => Nat.lt_irrefl h.number⟩

instance : Std.Antisymm fun a b : Handle => a < b :=
  ⟨fun _ _ h h' => absurd (Nat.lt_trans h h') (Nat.lt_irrefl _)⟩

/-- The handles of a set stand in one order. -/
theorem Members.filter_sort_congr {p : Handle → Bool}
    (same : ∀ m, p m = true → (m ∈ as ↔ m ∈ bs)) :
    (sort as).filter p = (sort bs).filter p := by
  refine ((pairwise_sort as).filter p).eq_of_mem_iff ((pairwise_sort bs).filter p) fun m => ?_
  rw [List.mem_filter, List.mem_filter, mem_sort, mem_sort]
  exact and_congr_left (same m)

namespace Joined

/-- The empty type makes no difference to a union. -/
theorem union_congr (same : ∀ m, m ≠ .never → (m ∈ as ↔ m ∈ bs)) : union as = union bs := by
  unfold union
  dsimp only
  rw [Members.filter_sort_congr fun m hm => same m (by simpa using hm)]
  simp only [Members.mem_sort, same .any (by decide), same .unknown (by decide)]

theorem union_of_any (h : .any ∈ as) : union as = .single .any :=
  if_pos (Members.mem_sort.2 h)

theorem union_of_unknown (checked : .any ∉ as) (h : .unknown ∈ as) :
    union as = .single .unknown :=
  (if_neg (mt Members.mem_sort.1 checked)).trans (if_pos (Members.mem_sort.2 h))

/-- What is left of members that are none of the ends at the top. -/
theorem mem_toList_union (checked : .any ∉ as) (known : .unknown ∉ as) {m : Handle}
    (hm : m ≠ .never) : m ∈ (union as).toList ↔ m ∈ as := by
  have kept : m ∈ (Members.sort as).filter (· ≠ .never) ↔ m ∈ as := by
    rw [List.mem_filter, Members.mem_sort, decide_eq_true_eq]
    exact and_iff_left hm
  unfold union
  dsimp only
  rw [if_neg (mt Members.mem_sort.1 checked), if_neg (mt Members.mem_sort.1 known)]
  by_cases none : (Members.sort as).filter (· ≠ .never) = []
  · rw [none] at kept ⊢
    rw [← kept]
    exact iff_of_false (fun h => hm (List.mem_singleton.1 h)) List.not_mem_nil
  · rw [toList_ofMembers none]
    exact kept

/-- What is left of some members may stand for them. -/
theorem union_toList_append (as bs : List Handle) :
    union ((union as).toList ++ bs) = union (as ++ bs) := by
  -- the unchecked type absorbs all, then the top does, unless the other list has the unchecked
  -- one
  by_cases unchecked : Handle.any ∈ as
  · rw [union_of_any unchecked, union_of_any (List.mem_append_left bs unchecked)]
    exact union_of_any (List.mem_append_left bs (List.mem_singleton_self _))
  · by_cases all : Handle.unknown ∈ as
    · rw [union_of_unknown unchecked all]
      by_cases later : Handle.any ∈ bs
      · rw [union_of_any (List.mem_append_right _ later)]
        exact (union_of_any (List.mem_append_right _ later)).symm
      · have apart : ∀ cs, Handle.any ∉ cs → Handle.any ∉ cs ++ bs := fun cs hc h =>
          (List.mem_append.1 h).elim hc later
        rw [union_of_unknown (apart as unchecked) (List.mem_append_left bs all)]
        exact union_of_unknown (apart _ (by decide))
          (List.mem_append_left bs (List.mem_singleton_self _))
    · refine union_congr fun m hm => ?_
      rw [List.mem_append, List.mem_append, mem_toList_union unchecked all hm]

/-- **GROUPS MAKE NO DIFFERENCE TO A UNION.** -/
theorem union_regroup (as bs : List Handle) :
    union ((union as).toList ++ (union bs).toList) = union (as ++ bs) := by
  have swap : ∀ cs ds : List Handle, union (cs ++ ds) = union (ds ++ cs) := fun cs ds =>
    union_congr fun m _ => by rw [List.mem_append, List.mem_append, or_comm]
  calc union ((union as).toList ++ (union bs).toList)
      = union (as ++ (union bs).toList) := union_toList_append as _
    _ = union ((union bs).toList ++ as) := swap _ _
    _ = union (bs ++ as) := union_toList_append bs as
    _ = union (as ++ bs) := swap _ _

theorem intersection_of_any (h : .any ∈ as) : intersection as = .single .any :=
  if_pos (Members.mem_sort.2 h)

theorem intersection_of_never (checked : .any ∉ as) (h : .never ∈ as) :
    intersection as = .single .never :=
  (if_neg (mt Members.mem_sort.1 checked)).trans (if_pos (Members.mem_sort.2 h))

theorem intersection_congr (same : ∀ m, m ∈ as ↔ m ∈ bs) :
    intersection as = intersection bs := by
  have sorted : Members.sort as = Members.sort bs :=
    (Members.pairwise_sort as).eq_of_mem_iff (Members.pairwise_sort bs) fun m => by
      rw [Members.mem_sort, Members.mem_sort, same]
  unfold intersection
  rw [sorted]

/-- The type of all values is left out where there is another member. -/
theorem intersection_of_inner (checked : .any ∉ as) (populated : .never ∉ as)
    (inner : ∃ m ∈ as, m ≠ .unknown) :
    intersection as = ofMembers ((Members.sort as).filter (· ≠ .unknown)) := by
  unfold intersection
  dsimp only
  rw [if_neg (mt Members.mem_sort.1 checked), if_neg (mt Members.mem_sort.1 populated)]
  split
  · next short =>
    -- the one member is the other one
    obtain ⟨m, hm, hu⟩ := inner
    have sorted := Members.mem_sort.2 hm
    match h : Members.sort as, sorted, short with
    | [x], sorted, _ =>
      obtain rfl := List.mem_singleton.1 sorted
      rw [List.filter_cons_of_pos (by simpa using hu)]
      rfl
  · rfl

/-- What is left of an intersection's members that are none of the other ends. -/
theorem mem_toList_intersection (checked : .any ∉ as) (populated : .never ∉ as)
    (inner : ∃ m ∈ as, m ≠ .unknown) {m : Handle} :
    m ∈ (intersection as).toList ↔ m ∈ as ∧ m ≠ .unknown := by
  have kept : ∀ m, m ∈ (Members.sort as).filter (· ≠ .unknown) ↔ m ∈ as ∧ m ≠ .unknown := by
    intro m
    rw [List.mem_filter, Members.mem_sort, decide_eq_true_eq]
  obtain ⟨x, hx⟩ := inner
  rw [intersection_of_inner checked populated ⟨x, hx⟩,
    toList_ofMembers (List.ne_nil_of_mem ((kept x).2 hx)), kept]

/-- Where there is another member, the type of all values makes no difference to an
intersection. -/
theorem intersection_congr_inner (inner : ∃ m ∈ as, m ≠ .unknown)
    (same : ∀ m, m ≠ .unknown → (m ∈ as ↔ m ∈ bs)) : intersection as = intersection bs := by
  have inner' : ∃ m ∈ bs, m ≠ .unknown := inner.imp fun m hm => ⟨(same m hm.2).1 hm.1, hm.2⟩
  have any := same .any (by decide)
  have never := same .never (by decide)
  by_cases unchecked : Handle.any ∈ as
  · rw [intersection_of_any unchecked, intersection_of_any (any.1 unchecked)]
  · by_cases empty : Handle.never ∈ as
    · rw [intersection_of_never unchecked empty,
        intersection_of_never (mt any.2 unchecked) (never.1 empty)]
    · rw [intersection_of_inner unchecked empty inner,
        intersection_of_inner (mt any.2 unchecked) (mt never.2 empty) inner',
        Members.filter_sort_congr fun m hm => same m (by simpa using hm)]

/-- What is left of some members may stand for them. -/
theorem intersection_toList_append (some : as ≠ []) (bs : List Handle) :
    intersection ((intersection as).toList ++ bs) = intersection (as ++ bs) := by
  -- in the order of absorption: `any`, then the empty type, then the type of all values
  by_cases unchecked : Handle.any ∈ as
  · rw [intersection_of_any unchecked, intersection_of_any (List.mem_append_left bs unchecked)]
    exact intersection_of_any (List.mem_append_left bs (List.mem_singleton_self _))
  · by_cases empty : Handle.never ∈ as
    · rw [intersection_of_never unchecked empty]
      by_cases later : Handle.any ∈ bs
      · rw [intersection_of_any (List.mem_append_right _ later)]
        exact (intersection_of_any (List.mem_append_right _ later)).symm
      · have apart : ∀ cs, Handle.any ∉ cs → Handle.any ∉ cs ++ bs := fun cs hc h =>
          (List.mem_append.1 h).elim hc later
        rw [intersection_of_never (apart as unchecked) (List.mem_append_left bs empty)]
        exact intersection_of_never (apart _ (by decide))
          (List.mem_append_left bs (List.mem_singleton_self _))
    · by_cases inner : ∃ m ∈ as, m ≠ Handle.unknown
      · have left := @mem_toList_intersection as unchecked empty inner
        obtain ⟨x, hx, hu⟩ := inner
        refine intersection_congr_inner ⟨x, List.mem_append_left bs (left.2 ⟨hx, hu⟩), hu⟩ ?_
        intro m hm
        rw [List.mem_append, List.mem_append, left, and_iff_left hm]
      · -- the type of all values is the only member, and is left as it is
        have only : ∀ m ∈ as, m = Handle.unknown := fun m hm => by
          by_contra other
          exact inner ⟨m, hm, other⟩
        obtain ⟨x, hx⟩ := List.exists_mem_of_ne_nil as some
        have alone : ∀ m, m ∈ as ↔ m ∈ [Handle.unknown] := fun m =>
          ⟨fun hm => List.mem_singleton.2 (only m hm),
            fun hm => (List.mem_singleton.1 hm).trans (only x hx).symm ▸ hx⟩
        have single : intersection as = .single .unknown := intersection_congr alone
        rw [single]
        exact intersection_congr fun m => by
          rw [List.mem_append, List.mem_append, alone]
          rfl

/-- **GROUPS MAKE NO DIFFERENCE TO AN INTERSECTION**, as long as none is empty. -/
theorem intersection_regroup (some : as ≠ []) (some' : bs ≠ []) :
    intersection ((intersection as).toList ++ (intersection bs).toList)
      = intersection (as ++ bs) := by
  have swap : ∀ cs ds : List Handle, intersection (cs ++ ds) = intersection (ds ++ cs) :=
    fun cs ds => intersection_congr fun m => by rw [List.mem_append, List.mem_append, or_comm]
  calc intersection ((intersection as).toList ++ (intersection bs).toList)
      = intersection (as ++ (intersection bs).toList) := intersection_toList_append some _
    _ = intersection ((intersection bs).toList ++ as) := swap _ _
    _ = intersection (bs ++ as) := intersection_toList_append some' as
    _ = intersection (as ++ bs) := swap _ _

theorem mem_toList_ofMembers {m : Handle} (hm : m ∈ (ofMembers as).toList) :
    m = .never ∨ m ∈ as := by
  match as, hm with
  | [], hm => exact .inl (List.mem_singleton.1 hm)
  | [_], hm => exact .inr hm
  | _ :: _ :: _, hm => exact .inr hm

end Joined

/-! ## §2. Both constructors alike -/

/-- The two ways of joining members. -/
inductive Joint where
  | union
  | intersection

namespace Joint

/-- The constructor of the nodes. -/
def kind : Joint → Kind
  | union => .union
  | intersection => .intersection

/-- The node of a member list. -/
def node : Joint → ListId → Node
  | union => .union
  | intersection => .intersection

/-- What is left of members that are none of the kind themselves. -/
def join : Joint → List Handle → Joined
  | union => Joined.union
  | intersection => Joined.intersection

/-- The call that joins members. -/
def call : Joint → List Handle → Call ρ
  | union => .union
  | intersection => .intersection

/-- Whether members may be a group: what is left of none is the empty type, which an intersection
does not absorb. -/
def Groups : Joint → List Handle → Prop
  | union, _ => True
  | intersection, members => members ≠ []

variable {j : Joint}

theorem kind_node (l : ListId) : (j.node l).kind = j.kind := by
  cases j <;> rfl

theorem kind_cases : j.kind = .union ∨ j.kind = .intersection := by
  cases j
  · exact .inl rfl
  · exact .inr rfl

theorem components_node (σ : Store ρ) (l : ListId) : σ.components (j.node l) = σ.list l := by
  cases j <;> rfl

theorem join_congr (same : ∀ m, m ∈ as ↔ m ∈ bs) : j.join as = j.join bs := by
  cases j
  · exact Joined.union_congr fun m _ => same m
  · exact Joined.intersection_congr same

theorem join_regroup (group : j.Groups as) (group' : j.Groups bs) :
    j.join ((j.join as).toList ++ (j.join bs).toList) = j.join (as ++ bs) := by
  cases j
  · exact Joined.union_regroup as bs
  · exact Joined.intersection_regroup group group'

/-- What is left was among the members, unless it is one of the ends. -/
theorem mem_toList_join {m : Handle} (hm : m ∈ (j.join as).toList) : m ∈ Store.ends ∨ m ∈ as := by
  -- a join is one of its ends, or what is left of the sorted members
  have end_ : ∀ e ∈ Store.ends, m ∈ (Joined.single e).toList → m ∈ Store.ends ∨ m ∈ as :=
    fun e he hm => .inl (List.mem_singleton.1 hm ▸ he)
  have kept : ∀ ms : List Handle, (∀ x ∈ ms, x ∈ Members.sort as) →
      m ∈ (Joined.ofMembers ms).toList → m ∈ Store.ends ∨ m ∈ as := fun ms inner hm =>
    (Joined.mem_toList_ofMembers hm).imp (fun h => by rw [h]; decide)
      fun h => Members.mem_sort.1 (inner m h)
  have filtered : ∀ p : Handle → Bool, ∀ x ∈ (Members.sort as).filter p, x ∈ Members.sort as :=
    fun p x hx => (List.mem_filter.1 hx).1
  cases j with
  | union =>
    change m ∈ (Joined.union as).toList at hm
    unfold Joined.union at hm
    dsimp only at hm
    split at hm
    · exact end_ _ (by decide) hm
    · split at hm
      · exact end_ _ (by decide) hm
      · exact kept _ (filtered _) hm
  | intersection =>
    change m ∈ (Joined.intersection as).toList at hm
    unfold Joined.intersection at hm
    dsimp only at hm
    split at hm
    · exact end_ _ (by decide) hm
    · split at hm
      · exact end_ _ (by decide) hm
      · split at hm
        · exact kept _ (fun _ hx => hx) hm
        · exact kept _ (filtered _) hm

end Joint

/-! ## §3. What a call gave -/

/-- The handle that a call gives, if it gives one. -/
def Call.handle? : Call ρ → Store ρ → Option Handle
  | .literal value, σ => some (Store.literal value σ).1
  | .enumeration values, σ => some (Store.enumeration values σ).1
  | .array element, σ => some (Store.array element σ).1
  | .set element, σ => some (Store.set element σ).1
  | .promise inner, σ => some (Store.promise inner σ).1
  | .record key value, σ => some (Store.record key value σ).1
  | .map key value, σ => some (Store.map key value σ).1
  | .tuple shape, σ => some (Store.tupleOf shape σ).1
  | .function shape, σ => some (Store.functionOf shape σ).1
  | .object fields index, σ => some (Store.objectOf fields index σ).1
  | .union members, σ => some (Store.union members σ).1
  | .intersection members, σ => some (Store.intersection members σ).1
  | .branded base brand, σ => some (Store.branded base brand σ).1
  | .declare, σ => some (Store.declare σ).1
  | .text _, _ | .define _ _, _ => none

namespace Store

variable (run assign) in
/-- On the way to the store a call was made, about what was there, and gave the handle. -/
def Gave (σ : Store ρ) (c : Call ρ) (h : Handle) : Prop :=
  ∃ υ, Comes run (.new assign) υ ∧ (∀ g ∈ c.handles, υ.Has g) ∧ (∀ a ∈ c.names, υ.Spells a) ∧
    c.handle? υ = some h ∧ Comes run (c.carryOut υ) σ

theorem Comes.trans (before : Comes run σ τ) (after : Comes run τ υ) : Comes run σ υ := by
  induction after with
  | refl => exact before
  | call c _ has spells ih => exact (ih before).call c has spells
  | resolve _ pending inner has ih _ => exact (ih before).resolve pending inner has

theorem gave_of_call {c : Call ρ} (comes : Comes run (.new assign) σ)
    (has : ∀ g ∈ c.handles, σ.Has g) (spells : ∀ a ∈ c.names, σ.Spells a)
    (gives : c.handle? σ = some h) : (c.carryOut σ).Gave run assign c h :=
  ⟨σ, comes, has, spells, gives, .refl _⟩

theorem Gave.later {c : Call ρ} (gave : σ.Gave run assign c h) (later : Comes run σ τ) :
    τ.Gave run assign c h := by
  obtain ⟨υ, comes, has, spells, gives, before⟩ := gave
  exact ⟨υ, comes, has, spells, gives, before.trans later⟩

/-- What stands for what is left of members: the one that is left, or a node of them. -/
def Represents (σ : Store ρ) (j : Joint) : Joined → Handle → Prop
  | .single g, h => h = g
  | .several ms, h => ∃ l, σ.node? h = some (j.node l) ∧ σ.lists.get? l.number = some ms

variable {j : Joint} {joined : Joined}

theorem Represents.grows (grows : σ.Grows τ) (represents : σ.Represents j joined h) :
    τ.Represents j joined h := by
  cases joined with
  | single g => exact represents
  | several ms =>
    obtain ⟨l, hl, hms⟩ := represents
    exact ⟨l, grows.node? hl, grows.lists _ _ hms⟩

/-- One handle stands for what is left. -/
theorem Represents.unique (represents : σ.Represents j joined h)
    (represents' : σ.Represents j joined g) : h = g := by
  cases joined with
  | single x => exact represents.trans represents'.symm
  | several ms =>
    obtain ⟨l, hl, hms⟩ := represents
    obtain ⟨k, hk, hms'⟩ := represents'
    have number := Table.get?_injective hms hms' rfl
    have node : j.node l = j.node k := congrArg (fun n => j.node ⟨n⟩) number
    rw [node] at hl
    have number := Table.get?_injective hl hk rfl
    cases h
    cases g
    exact congrArg Handle.mk number

theorem represents_build (σ : Store ρ) (j : Joint) (joined : Joined) :
    (joined.build j.node σ).2.Represents j joined (joined.build j.node σ).1 := by
  cases joined with
  | single h => exact rfl
  | several ms =>
    have node : (j.node (internList ms σ).1).kind ≠ .literal := by
      rw [Joint.kind_node]
      cases j <;> decide
    exact ⟨_, node?_intern node _, (grows_intern _ _).lists _ _ (list_internList ms σ)⟩

/-- A handle of a whole store is taken apart in the same way later. -/
theorem Grows.piecesOf_eq (whole : σ.IsWhole) (grows : σ.Grows τ) (hh : σ.Has h) (k : Kind) :
    τ.piecesOf k h = σ.piecesOf k h := by
  obtain ⟨n, hn⟩ := hh
  rw [piecesOf_of_node hn, piecesOf_of_node (grows.node? hn),
    grows.components (whole.keeps h n hn)]

theorem handle?_call (j : Joint) (members : List Handle) (σ : Store ρ) :
    (j.call members).handle? σ
      = some ((j.join (members.flatMap (σ.piecesOf j.kind))).build j.node σ).1 := by
  cases j
  · exact congrArg (fun r => some r.1) (union_eq_build members σ)
  · exact congrArg (fun r => some r.1) (intersection_eq_build members σ)

theorem carryOut_call (j : Joint) (members : List Handle) (σ : Store ρ) :
    (j.call members).carryOut σ
      = ((j.join (members.flatMap (σ.piecesOf j.kind))).build j.node σ).2 := by
  cases j
  · exact congrArg Prod.snd (union_eq_build members σ)
  · exact congrArg Prod.snd (intersection_eq_build members σ)

/-- A call that joins members gives what stands for them, taken apart by one level. -/
theorem represents_of_gave {members : List Handle} (gave : σ.Gave run assign (j.call members) h) :
    (∀ m ∈ members, σ.Has m) ∧ σ.Represents j (j.join (members.flatMap (σ.piecesOf j.kind))) h := by
  obtain ⟨υ, comes, has, -, gives, later⟩ := gave
  have has : ∀ m ∈ members, υ.Has m := by cases j <;> exact has
  have grows := (grows_carryOut (j.call members) υ).trans later.grows
  have pieces : members.flatMap (σ.piecesOf j.kind) = members.flatMap (υ.piecesOf j.kind) :=
    List.flatMap_congr fun m hm =>
      grows.piecesOf_eq (wellBuilt_of_comes assign comes).isWhole (has m hm) j.kind
  refine ⟨fun m hm => grows.has (has m hm), ?_⟩
  have represents := represents_build υ j (j.join (members.flatMap (υ.piecesOf j.kind)))
  rw [handle?_call] at gives
  rw [Option.some.inj gives, ← carryOut_call, ← pieces] at represents
  exact represents.grows later.grows

theorem handle_of_mem_ends (hh : h ∈ ends) : ∃ k : Intrinsic, h = k.handle := by
  rcases List.mem_cons.1 hh with rfl | hh
  · exact ⟨.any, rfl⟩
  · rcases List.mem_cons.1 hh with rfl | hh
    · exact ⟨.unknown, rfl⟩
    · exact ⟨.never, List.mem_singleton.1 hh⟩

/-- What is left was a member, or a member of one, unless it is one of the ends. -/
theorem mem_of_join {members : List Handle} {m : Handle}
    (hm : m ∈ (j.join (members.flatMap (σ.piecesOf j.kind))).toList) :
    (∃ k : Intrinsic, m = k.handle) ∨ ∃ a ∈ members, m ∈ σ.piecesOf j.kind a := by
  rcases Joint.mem_toList_join hm with end_ | piece
  · exact .inl (handle_of_mem_ends end_)
  · exact .inr (List.mem_flatMap.1 piece)

/-- What a call gave is in the store. -/
theorem has_of_gave {members : List Handle} (comes : Comes run (.new assign) σ)
    (gave : σ.Gave run assign (j.call members) h) : σ.Has h := by
  obtain ⟨has, represents⟩ := represents_of_gave gave
  cases hj : j.join (members.flatMap (σ.piecesOf j.kind)) with
  | single g =>
    rw [hj] at represents
    obtain rfl : h = g := represents
    have left : h ∈ (j.join (members.flatMap (σ.piecesOf j.kind))).toList := by
      rw [hj]
      exact List.mem_singleton_self h
    -- what is left alone is an end of the lattice or a piece of a member
    rcases mem_of_join left with ⟨k, rfl⟩ | inner
    · exact σ.has_handle k
    · exact has_pieces (wellBuilt_of_comes assign comes).isWhole (.refl σ) has h
        (List.mem_flatMap.2 inner)
  | several ms =>
    rw [hj] at represents
    obtain ⟨l, hl, -⟩ := represents
    exact ⟨_, hl⟩

/-- What is there can be joined at any time. -/
theorem exists_gave {members : List Handle} (comes : Comes run (.new assign) σ)
    (has : ∀ m ∈ members, σ.Has m) :
    ∃ τ h, Comes run σ τ ∧ τ.Gave run assign (j.call members) h := by
  have has : ∀ g ∈ (j.call members : Call ρ).handles, σ.Has g := by cases j <;> exact has
  have spells : ∀ a ∈ (j.call members : Call ρ).names, σ.Spells a := by cases j <;> exact nofun
  exact ⟨_, _, (Comes.refl σ).call _ has spells, gave_of_call comes has spells (handle?_call ..)⟩

/-- What a joined type is taken apart to is what was left of its members. -/
theorem piecesOf_of_represents (flat : ∀ m ∈ as, σ.isOfKind j.kind m = false)
    (represents : σ.Represents j (j.join as) h) : σ.piecesOf j.kind h = (j.join as).toList := by
  -- joined to one type it is no joint, joined to several it is one of them
  cases hj : j.join as with
  | single g =>
    rw [hj] at represents
    obtain rfl : h = g := represents
    have other : σ.isOfKind j.kind h = false := by
      have left : h ∈ (j.join as).toList := by
        rw [hj]
        exact List.mem_singleton_self h
      rcases Joint.mem_toList_join left with end_ | inner
      · -- the ends are built in
        obtain ⟨k, rfl⟩ := handle_of_mem_ends end_
        refine Bool.eq_false_iff.2 fun same => ?_
        have kind := (isOfKind_of_node (σ.node?_handle k)).1 same
        cases j <;> cases kind
      · exact flat h inner
    unfold piecesOf
    rw [if_neg (Bool.eq_false_iff.1 other)]
    rfl
  | several ms =>
    rw [hj] at represents
    obtain ⟨l, hl, hms⟩ := represents
    rw [piecesOf_of_node hl, if_pos (Joint.kind_node l), Joint.components_node]
    unfold Store.list
    rw [hms]
    rfl

/-! ## §4. Grouping, order and repetition -/

variable {members members' : List Handle} {a b c d : Handle}

/-- The handle depends on the set of the members alone, taken apart by one level. -/
theorem gave_congr
    (ha : σ.Gave run assign (j.call members) a) (hb : σ.Gave run assign (j.call members') b)
    (same : ∀ m, m ∈ members.flatMap (σ.piecesOf j.kind)
      ↔ m ∈ members'.flatMap (σ.piecesOf j.kind)) : a = b := by
  have represents := (represents_of_gave ha).2
  rw [Joint.join_congr same] at represents
  exact represents.unique (represents_of_gave hb).2

/-- Joining in groups first comes to the same. -/
theorem gave_regroup (comes : Comes run (.new assign) σ) (group : j.Groups members)
    (group' : j.Groups members') (ha : σ.Gave run assign (j.call members) a)
    (hb : σ.Gave run assign (j.call members') b) (hc : σ.Gave run assign (j.call [a, b]) c)
    (hd : σ.Gave run assign (j.call (members ++ members')) d) : c = d := by
  have built := wellBuilt_of_comes assign comes
  have pieces : ∀ {members h}, σ.Gave run assign (j.call members) h →
      σ.piecesOf j.kind h = (j.join (members.flatMap (σ.piecesOf j.kind))).toList := by
    intro members h gave
    obtain ⟨has, represents⟩ := represents_of_gave gave
    exact piecesOf_of_represents (fun m hm => (built.flat has Joint.kind_cases m hm).2)
      represents
  have groups : ∀ {members h}, σ.Gave run assign (j.call members) h → j.Groups members →
      j.Groups (members.flatMap (σ.piecesOf j.kind)) := by
    intro members h gave group
    cases j with
    | union => trivial
    | intersection =>
      exact pieces_ne_nil built.isWhole (.refl σ) (.inr rfl) (represents_of_gave gave).1
        built.jointsPopulated group
  have represents := (represents_of_gave hc).2
  -- the pieces of the two parts are joined, and then the results: that is joining all pieces
  rw [List.flatMap_cons, List.flatMap_cons, List.flatMap_nil, List.append_nil, pieces ha, pieces hb,
    Joint.join_regroup (groups ha group) (groups hb group'), ← List.flatMap_append] at represents
  exact represents.unique (represents_of_gave hd).2

/-- **THE NORMAL FORM OF WHAT IS JOINED.**  In a store that comes of constructor calls about what is
there, unions and intersections list at least two members in order, none of them an end or of the
same kind.  Members may be joined in groups first, at any time and in any order, and the handle
depends on the set of the members alone, taken apart by one level. -/
theorem joined_freely (comes : Comes run (.new assign) σ) :
    (∀ h l, σ.node? h = some (.union l) → σ.IsJoined .union (σ.list l)) ∧
    (∀ h l, σ.node? h = some (.intersection l) → σ.IsJoined .intersection (σ.list l)) ∧
    (∀ xs ys a b c d, σ.Gave run assign (.union xs) a → σ.Gave run assign (.union ys) b →
      σ.Gave run assign (.union [a, b]) c → σ.Gave run assign (.union (xs ++ ys)) d → c = d) ∧
    (∀ xs ys a b c d, xs ≠ [] → ys ≠ [] →
      σ.Gave run assign (.intersection xs) a → σ.Gave run assign (.intersection ys) b →
      σ.Gave run assign (.intersection [a, b]) c →
      σ.Gave run assign (.intersection (xs ++ ys)) d → c = d) ∧
    (∀ xs ys a b, σ.Gave run assign (.union xs) a → σ.Gave run assign (.union ys) b →
      (∀ m, m ∈ flattenUnions σ xs ↔ m ∈ flattenUnions σ ys) → a = b) ∧
    (∀ xs ys a b, σ.Gave run assign (.intersection xs) a →
      σ.Gave run assign (.intersection ys) b →
      (∀ m, m ∈ flattenIntersections σ xs ↔ m ∈ flattenIntersections σ ys) → a = b) := by
  -- Three facts, each for unions and for intersections: the members are in normal form, grouping
  -- does not matter, and only the set of the pieces does.
  have built := wellBuilt_of_comes assign comes
  refine ⟨fun h l hn => built.normal h _ hn, fun h l hn => built.normal h _ hn, ?_, ?_, ?_, ?_⟩
  · exact fun xs ys a b c d ha hb hc hd =>
      gave_regroup (j := .union) comes trivial trivial ha hb hc hd
  · exact fun xs ys a b c d some some' ha hb hc hd =>
      gave_regroup (j := .intersection) comes some some' ha hb hc hd
  · intro xs ys a b ha hb same
    rw [flattenUnions_eq, flattenUnions_eq] at same
    exact gave_congr (j := .union) ha hb same
  · intro xs ys a b ha hb same
    rw [flattenIntersections_eq, flattenIntersections_eq] at same
    exact gave_congr (j := .intersection) ha hb same

/-- Strings or numbers, and truth values or nothing, are the union of the four. -/
theorem joined_freely_fourTypes :
    let xs := [Intrinsic.string.handle, Intrinsic.number.handle]
    let ys := [Intrinsic.boolean.handle, Intrinsic.null.handle]
    ∃ (σ : Store Handle) (a b c d : Handle), Comes pure (.new fun _ => 0) σ ∧
      σ.Gave pure (fun _ => 0) (.union xs) a ∧ σ.Gave pure (fun _ => 0) (.union ys) b ∧
      σ.Gave pure (fun _ => 0) (.union [a, b]) c ∧
      σ.Gave pure (fun _ => 0) (.union (xs ++ ys)) d ∧ c = d := by
  intro xs ys
  have builtIn : ∀ τ : Store Handle, ∀ m ∈ xs ++ ys, τ.Has m := by
    intro τ m hm
    have named : ∃ k : Intrinsic, m = k.handle := by
      simp only [xs, ys, List.mem_append, List.mem_cons, List.not_mem_nil, or_false] at hm
      rcases hm with (rfl | rfl) | rfl | rfl <;> exact ⟨_, rfl⟩
    obtain ⟨k, rfl⟩ := named
    exact τ.has_handle k
  -- the four calls, one after the other
  have start : Comes pure (.new fun _ => 0 : Store Handle) (.new fun _ => 0) := .refl _
  obtain ⟨σ₁, a, first, ha⟩ := exists_gave (j := .union) start
    fun m hm => builtIn _ m (List.mem_append_left ys hm)
  obtain ⟨σ₂, b, second, hb⟩ := exists_gave (j := .union) first
    fun m hm => builtIn _ m (List.mem_append_right xs hm)
  have ha := ha.later second
  have joins : ∀ m ∈ [a, b], σ₂.Has m := by
    intro m hm
    rcases List.mem_cons.1 hm with rfl | hm
    · exact has_of_gave (j := .union) (first.trans second) ha
    · obtain rfl := List.mem_singleton.1 hm
      exact has_of_gave (j := .union) (first.trans second) hb
  obtain ⟨σ₃, c, third, hc⟩ := exists_gave (j := .union) (first.trans second) joins
  have before := (first.trans second).trans third
  obtain ⟨σ₄, d, last, hd⟩ := exists_gave (j := .union) before (builtIn σ₃)
  have ha := ha.later (third.trans last)
  have hb := hb.later (third.trans last)
  have hc := hc.later last
  obtain ⟨-, -, regroup, -⟩ := joined_freely (before.trans last)
  exact ⟨σ₄, a, b, c, d, before.trans last, ha, hb, hc, hd, regroup xs ys a b c d ha hb hc hd⟩

end Store

end Assignability
