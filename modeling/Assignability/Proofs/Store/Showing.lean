/-
  Assignability.Proofs.Store.Showing
  ──────────────────────────────────
  **WHAT A HANDLE SHOWS OF ITS CALL.**

  The handle that a constructor call gives shows, in the store after the
  call and ever after, what it was called for: the node, with its list or
  shape (`Store.Shows`).  So the handles of calls in different stores can
  be compared by what the calls were about, and what was interned before,
  between or after them is of no account.

  Main statements:
    • `shows_carryOut`, `Shows.grows` — what a call gives shows what it was
      called for, at once and later,
    • `Shows.mirrors` — calls for what mirrors each other, in two stores,
      give handles that mirror each other.
-/
import Assignability.Proofs.Relation.Renumbering

namespace Assignability

variable {ρ ρ' : Type}

/-! ## §1. What is shown -/

/-- The brand of a call is under a name of its own: its shard has a place for it. -/
def Call.IsNamed (σ : Store ρ) : Call ρ → Prop
  | .branded _ brand => (Store.internText brand σ).2.Names (Store.internText brand σ).1 brand
  | _ => True

namespace Store

variable {σ τ : Store ρ} {c : Call ρ} {h m : Handle} {n : Node} {k : Kind}

/-- What a handle shows that a call gave.  The other calls give none, or that of a lazy node. -/
def Shows (σ : Store ρ) : Call ρ → Handle → Prop
  | .literal value, h => σ.ShowsLiteral h value.key
  | .enumeration values, h => σ.ShowsEnumeration h (values.map Literal.key).eraseDups
  | .array element, h => σ.node? h = some (.array element)
  | .set element, h => σ.node? h = some (.set element)
  | .promise inner, h => σ.node? h = some (.promise inner)
  | .record key value, h => σ.node? h = some (.record key value)
  | .map key value, h => σ.node? h = some (.map key value)
  | .tuple shape, h => σ.ShowsTuple h shape
  | .function shape, h => σ.ShowsFunction h shape
  | .object fields index, h => σ.ShowsObject h (.of fields index)
  | .union members, h =>
    σ.Represents .union (Joined.union (members.flatMap (σ.piecesOf .union))) h
  | .intersection members, h =>
    σ.Represents .intersection (Joined.intersection (members.flatMap (σ.piecesOf .intersection))) h
  | .branded base brand, h => ∃ m, σ.Names m brand ∧ σ.node? h = some (.branded base m)
  | .text _, _ | .declare, _ | .define _ _, _ => False

/-- A handle that was built, with all its parts. -/
def Built (σ : Store ρ) (h : Handle) : Prop := σ.MadeOf σ.isBuilt h

theorem Built.node (built : σ.Built h) : ∃ n, σ.node? h = some n ∧ n.isLazy = false ∧
    σ.keeps n = true ∧ ∀ g ∈ σ.components n, σ.Built g := by
  obtain ⟨n, hn, isBuilt, parts⟩ := MadeOf.node built
  obtain ⟨notLazy, keeps⟩ := Bool.and_eq_true_iff.1 isBuilt
  exact ⟨n, hn, by simpa using notLazy, keeps, parts⟩

theorem madeWithin_le {p : Node → Bool} {i j : Nat} (le : i ≤ j)
    (within : σ.madeWithin p i h = true) : σ.madeWithin p j h = true := by
  induction i generalizing j h with
  | zero => cases within
  | succ i ih =>
    obtain ⟨j, rfl⟩ : ∃ k, j = k + 1 := ⟨j - 1, by omega⟩
    obtain ⟨n, hn, hp, parts⟩ := madeWithin_succ.1 within
    exact madeWithin_succ.2 ⟨n, hn, hp, fun g hg => ih (by omega) (parts g hg)⟩

theorem Built.of_node (hn : σ.node? h = some n) (notLazy : n.isLazy = false)
    (keeps : σ.keeps n = true) (parts : ∀ g ∈ σ.components n, σ.Built g) : σ.Built h := by
  obtain ⟨levels, each⟩ := exists_bound (p := fun i g => σ.madeWithin σ.isBuilt i g = true)
    (fun le within => madeWithin_le le within) (σ.components n) parts
  refine ⟨levels + 1, madeWithin_succ.2 ⟨n, hn, ?_, each⟩⟩
  unfold isBuilt
  rw [notLazy, keeps]
  rfl

theorem Built.pieces (grows : σ.Grows τ) {members : List Handle}
    (built : ∀ m ∈ members, σ.Built m) (k : Kind) :
    members.flatMap (τ.piecesOf k) = members.flatMap (σ.piecesOf k) := by
  refine List.flatMap_congr fun m hm => ?_
  obtain ⟨n, hn, -, keeps, -⟩ := (built m hm).node
  rw [piecesOf_of_node hn, piecesOf_of_node (grows.node? hn), grows.components keeps]

/-- **WHAT A CALL GIVES SHOWS WHAT IT WAS CALLED FOR.** -/
theorem shows_carryOut (gives : c.handle? σ = some h) (notLazy : c ≠ .declare)
    (named : c.IsNamed σ) (built : ∀ m ∈ c.handles, σ.Built m) : (c.carryOut σ).Shows c h := by
  -- a join shows its members by their pieces, which do not change by building it
  have joint : ∀ (j : Joint) (members : List Handle), (j.call members).handle? σ = some h →
      (∀ m ∈ members, σ.Built m) → ((j.call members).carryOut σ).Represents j
        (j.join (members.flatMap (((j.call members).carryOut σ).piecesOf j.kind))) h := by
    intro j members gives built
    have represents := represents_build σ j (j.join (members.flatMap (σ.piecesOf j.kind)))
    rw [handle?_call] at gives
    rw [Option.some.inj gives, ← carryOut_call] at represents
    rw [Built.pieces (grows_carryOut (j.call members) σ) built]
    exact represents
  cases c with
  | literal value =>
    obtain rfl := Option.some.inj gives
    exact showsLiteral_literal value σ
  | enumeration values =>
    obtain rfl := Option.some.inj gives
    exact showsEnumeration_enumeration values σ
  | array | set | promise | record | map =>
    obtain rfl := Option.some.inj gives
    exact node?_intern (fun h => by cases h) σ
  | tuple shape =>
    obtain rfl := Option.some.inj gives
    exact showsTuple_tupleOf shape σ
  | function shape =>
    obtain rfl := Option.some.inj gives
    exact showsFunction_functionOf shape σ
  | object fields index =>
    obtain rfl := Option.some.inj gives
    exact showsObject_objectOf fields index σ
  | union members => exact joint .union members gives built
  | intersection members => exact joint .intersection members gives built
  | branded base brand =>
    obtain rfl := Option.some.inj gives
    exact ⟨_, named.grows (grows_intern _ _), node?_intern (fun h => by cases h) _⟩
  | declare => exact absurd rfl notLazy
  | text | define => cases gives

/-- What is shown is shown by the same handle later. -/
theorem Shows.grows (shows : σ.Shows c h) (grows : σ.Grows τ)
    (built : ∀ m ∈ c.handles, σ.Built m) : τ.Shows c h := by
  have joint : ∀ (j : Joint) (members : List Handle), (∀ m ∈ members, σ.Built m) →
      σ.Represents j (j.join (members.flatMap (σ.piecesOf j.kind))) h →
      τ.Represents j (j.join (members.flatMap (τ.piecesOf j.kind))) h := by
    intro j members built represents
    rw [Built.pieces grows built]
    exact represents.grows grows
  -- a node and its shape stay as they are; unions and intersections also speak of the pieces of
  -- their members
  cases c with
  | literal value => exact discerns_literal.later grows shows
  | enumeration values => exact discerns_enumeration.later grows shows
  | array | set | promise | record | map => exact grows.node? shows
  | tuple shape => exact discerns_tuple.later grows shows
  | function shape => exact discerns_function.later grows shows
  | object fields index => exact discerns_object.later grows shows
  | union members => exact joint .union members built shows
  | intersection members => exact joint .intersection members built shows
  | branded base brand =>
    obtain ⟨m, names, hn⟩ := shows
    exact ⟨m, names.grows grows, grows.node? hn⟩
  | text | declare | define => exact shows.elim

/-! ## §2. What it is made of -/

/-- One descriptor that is left stands for itself, and several are the members of a node. -/
theorem Represents.cases {j : Joint} {joined : Joined} (represents : σ.Represents j joined h) :
    joined.toList = [h] ∨ ∃ l, σ.node? h = some (j.node l) ∧
      σ.keeps (j.node l) = true ∧ σ.components (j.node l) = joined.toList := by
  cases joined with
  | single g =>
    obtain rfl : h = g := represents
    exact .inl rfl
  | several ms =>
    obtain ⟨l, hl, hms⟩ := represents
    refine .inr ⟨l, hl, ?_, ?_⟩
    · cases j <;> exact Option.isSome_of_eq_some hms
    · rw [Joint.components_node, list_of_get? hms]
      rfl

theorem ShowsLiteral.node {value : Literal} (shows : σ.ShowsLiteral h value) :
    ∃ written : Literal, σ.node? h = some (.literal written) ∧ written.key = value := by
  obtain ⟨n, hn, key⟩ := shows
  cases n with
  | literal written => exact ⟨written, hn, Node.literal.inj key⟩
  | _ => cases key

/-- What goes over from the parts of a node to the node and back holds of what a call gave, where it
holds of what the call was about.  Records are made by calls for records alone. -/
theorem Shows.of_handles {P : Handle → Prop} (shows : σ.Shows c h)
    (node : ∀ g n, σ.node? g = some n → n.isLazy = false → σ.keeps n = true →
      (∀ x ∈ σ.components n, P x) → (∀ key value, n = .record key value → c = .record key value) →
      P g)
    (part : ∀ g, P g → ∀ x ∈ σ.parts g, P x) (handles : ∀ m ∈ c.handles, P m) : P h := by
  -- a built-in type has no parts at all
  have builtIn : ∀ k : Intrinsic, P k.handle := fun k =>
    node _ _ (σ.node?_handle k) rfl rfl nofun nofun
  -- what a join is made of are its ends and pieces of its members
  have joint : ∀ (j : Joint) (members : List Handle), (∀ m ∈ members, P m) →
      σ.Represents j (j.join (members.flatMap (σ.piecesOf j.kind))) h → P h := by
    intro j members handles represents
    have left : ∀ m ∈ (j.join (members.flatMap (σ.piecesOf j.kind))).toList, P m := by
      intro m hm
      rcases mem_of_join hm with ⟨k, rfl⟩ | ⟨a, ha, piece⟩
      · exact builtIn k
      · unfold piecesOf at piece
        split at piece
        · exact part a (handles a ha) m piece
        · exact List.mem_singleton.1 piece ▸ handles a ha
    rcases represents.cases with single | ⟨l, hl, keeps, components⟩
    · exact left h (single ▸ List.mem_singleton_self h)
    · refine node h _ hl (by cases j <;> rfl) keeps (fun g hg => left g ?_) (by cases j <;> nofun)
      rwa [components] at hg
  cases c with
  | literal value =>
    obtain ⟨written, hn, -⟩ := ShowsLiteral.node shows
    exact node h _ hn rfl rfl nofun nofun
  -- an enumeration has literals for its parts, and they have none
  | enumeration values =>
    rcases shows with ⟨rfl, -⟩ | ⟨l, ms, hl, hms, each, -⟩
    · exact builtIn .never
    · refine node h _ hl rfl (Option.isSome_of_eq_some hms) (fun g hg => ?_) nofun
      change g ∈ σ.list l at hg
      rw [list_of_get? hms] at hg
      obtain ⟨value, -, shows⟩ := (Matched.of_forall₂ each).left g hg
      obtain ⟨written, hn, -⟩ := shows.node
      exact node g _ hn rfl rfl nofun nofun
  | array | set | promise | map => exact node h _ shows rfl rfl handles nofun
  | record key value =>
    exact node h _ shows rfl rfl handles fun key' value' same => by cases same; rfl
  | tuple shape =>
    obtain ⟨i, hi, hs⟩ := shows
    refine node h _ hi rfl (Option.isSome_of_eq_some hs) (fun g hg => handles g ?_) nofun
    change g ∈ (σ.tuple ⟨i⟩).parts at hg
    rwa [tuple_of_get? hs] at hg
  | function shape =>
    obtain ⟨i, hi, hs⟩ := shows
    refine node h _ hi rfl (Option.isSome_of_eq_some hs) (fun g hg => handles g ?_) nofun
    change g ∈ (σ.function ⟨i⟩).parts at hg
    rwa [function_of_get? hs] at hg
  | object fields index =>
    obtain ⟨i, hi, hs⟩ := shows
    refine node h _ hi rfl (Option.isSome_of_eq_some hs) (fun g hg => handles g ?_) nofun
    change g ∈ (σ.object ⟨i⟩).parts at hg
    rw [object_of_get? hs] at hg
    exact Layout.mem_parts_of_mem hg
  | union members => exact joint .union members handles shows
  | intersection members => exact joint .intersection members handles shows
  | branded base brand =>
    obtain ⟨m, -, hn⟩ := shows
    exact node h _ hn rfl rfl handles nofun
  | text | declare | define => exact shows.elim

theorem built_handle (σ : Store ρ) (k : Intrinsic) : σ.Built k.handle :=
  .of_node (σ.node?_handle k) rfl rfl nofun

/-- What is made of what was built was built. -/
theorem Shows.built (shows : σ.Shows c h) (built : ∀ m ∈ c.handles, σ.Built m) : σ.Built h :=
  shows.of_handles (fun _ _ hn notLazy keeps parts _ => .of_node hn notLazy keeps parts)
    (fun _ built _ => MadeOf.part built) built

/-! ## §3. Numbers among the keys of records -/

/-- Whether there is a record with a number among its keys, here or below. -/
inductive HasNumberKeys (σ : Store ρ) : Handle → Prop
  | record {h key value : Handle} (hn : σ.node? h = some (.record key value))
    (lists : σ.ListsNumber key) : HasNumberKeys σ h
  | part {h g : Handle} (hg : g ∈ σ.parts h) (inner : HasNumberKeys σ g) : HasNumberKeys σ h

/-- A call for what has no such record gives no such record, unless it is one itself. -/
theorem Shows.not_hasNumberKeys (shows : σ.Shows c h)
    (named : ∀ key value, c = .record key value → ¬ σ.ListsNumber key)
    (handles : ∀ m ∈ c.handles, ¬ σ.HasNumberKeys m) : ¬ σ.HasNumberKeys h := by
  refine shows.of_handles (fun g n hn _ _ parts same inner => ?_)
    (fun g none x hx inner => none (.part hx inner)) handles
  cases inner with
  | record hr lists =>
    rw [hn] at hr
    obtain rfl := Option.some.inj hr
    exact named _ _ (same _ _ rfl) lists
  | part hx inner =>
    rw [parts_of_node hn] at hx
    exact parts _ hx inner

/-- A key type that lists a number is one, or has a member that lists it. -/
theorem ListsNumber.of_node (hn : σ.node? h = some n) (lists : σ.ListsNumber h) :
    (∃ x, n = .literal (.number x)) ∨
      n.isJoint = true ∧ ∃ m ∈ σ.components n, σ.ListsNumber m := by
  cases lists with
  | literal hl =>
    rw [hn] at hl
    exact .inl ⟨_, Option.some.inj hl⟩
  | member hm joint hx inner =>
    rw [hn] at hm
    obtain rfl := Option.some.inj hm
    exact .inr ⟨joint, _, hx, inner⟩

theorem not_listsNumber_handle (σ : Store ρ) (k : Intrinsic) : ¬ σ.ListsNumber k.handle := by
  intro lists
  rcases lists.of_node (σ.node?_handle k) with ⟨x, same⟩ | ⟨joint, -⟩
  · cases same
  · cases joint

/-- Numbers among what is joined come from numbers among the members. -/
theorem Represents.listsNumber {j : Joint} {members : List Handle}
    (represents : σ.Represents j (j.join (members.flatMap (σ.piecesOf j.kind))) h)
    (lists : σ.ListsNumber h) : ∃ a ∈ members, σ.ListsNumber a := by
  have joint : ∀ n : Node, n.kind = j.kind → n.isJoint = true := by
    intro n hn
    cases j <;> cases n <;> first | rfl | cases hn
  -- the ends list no number, so it comes from a piece of some member
  have left : ∀ m ∈ (j.join (members.flatMap (σ.piecesOf j.kind))).toList, σ.ListsNumber m →
      ∃ a ∈ members, σ.ListsNumber a := by
    intro m hm lists
    rcases mem_of_join hm with ⟨k, rfl⟩ | ⟨a, ha, piece⟩
    · exact absurd lists (σ.not_listsNumber_handle k)
    · refine ⟨a, ha, ?_⟩
      unfold piecesOf at piece
      split at piece
      · next same =>
        cases hn : σ.node? a with
        | none => rw [isOfKind, hn] at same; cases same
        | some n =>
          rw [isOfKind_of_node hn] at same
          rw [parts_of_node hn] at piece
          exact .member hn (joint n same) piece lists
      · exact List.mem_singleton.1 piece ▸ lists
  rcases represents.cases with single | ⟨l, hl, -, components⟩
  · exact left h (single ▸ List.mem_singleton_self h) lists
  · rcases lists.of_node hl with ⟨x, same⟩ | ⟨-, m, hm, lists⟩
    · cases j <;> cases same
    · rw [components] at hm
      exact left m hm lists

/-- Where the numbers of a key type come from. -/
theorem Shows.listsNumber (shows : σ.Shows c h) (lists : σ.ListsNumber h) :
    (∃ x, c = .literal (.number x)) ∨ (∃ values x, c = .enumeration values ∧ .number x ∈ values) ∨
      (∃ j members, c = Joint.call j members ∧ ∃ m ∈ members, σ.ListsNumber m) := by
  -- a node of any other kind lists no number
  have other : ∀ {n : Node}, σ.node? h = some n → n.isJoint = true ∨ n.kind = .literal := by
    intro n hn
    rcases lists.of_node hn with ⟨x, rfl⟩ | ⟨joint, -⟩
    · exact .inr rfl
    · exact .inl joint
  have number : ∀ {g value}, σ.ShowsLiteral g (Literal.key value) → σ.ListsNumber g →
      ∃ x, value = .number x := by
    intro g value shows lists
    obtain ⟨written, hn, key⟩ := shows.node
    rcases lists.of_node hn with ⟨x, same⟩ | ⟨joint, -⟩
    · obtain rfl := Node.literal.inj same
      cases value <;> first | exact ⟨_, rfl⟩ | cases key
    · cases joint
  cases c with
  | literal value =>
    obtain ⟨x, rfl⟩ := number shows lists
    exact .inl ⟨x, rfl⟩
  | enumeration values =>
    refine .inr (.inl ⟨values, ?_⟩)
    rcases shows with ⟨rfl, -⟩ | ⟨l, ms, hl, hms, each, -⟩
    · exact absurd lists (σ.not_listsNumber_handle .never)
    · rcases lists.of_node hl with ⟨x, same⟩ | ⟨-, m, hm, lists⟩
      · cases same
      · change m ∈ σ.list l at hm
        rw [list_of_get? hms] at hm
        obtain ⟨key, hkey, shows⟩ := (Matched.of_forall₂ each).left m hm
        obtain ⟨value, hv, rfl⟩ := List.mem_map.1 (List.mem_eraseDups.1 hkey)
        obtain ⟨x, rfl⟩ := number shows lists
        exact ⟨x, rfl, hv⟩
  | union members =>
    have inner := Represents.listsNumber (j := .union) shows lists
    exact .inr (.inr ⟨.union, members, rfl, inner⟩)
  | intersection members =>
    have inner := Represents.listsNumber (j := .intersection) shows lists
    exact .inr (.inr ⟨.intersection, members, rfl, inner⟩)
  | array | set | promise | record | map =>
    rcases other shows with joint | literal
    · cases joint
    · cases literal
  | tuple | function | object | branded =>
    obtain ⟨i, hi⟩ := shows
    first
    | rcases other hi.1 with joint | literal
      · cases joint
      · cases literal
    | rcases other hi.2 with joint | literal
      · cases joint
      · cases literal
  | text | declare | define => exact shows.elim

end Store

/-! ## §4. Members that mirror each other -/

section

variable {B : Handle → Handle → Prop} {as bs : List Handle} {a b : Handle}

/-- Whether handles are related one to one, built-in types to themselves. -/
structure Pairs (B : Handle → Handle → Prop) : Prop where
  one : ∀ {a b c d}, B a c → B b d → (a = b ↔ c = d)
  builtIn : ∀ k : Intrinsic, B k.handle k.handle

theorem Pairs.handle_iff (pairs : Pairs B) (k : Intrinsic) (hab : B a b) :
    a = k.handle ↔ b = k.handle := pairs.one hab (pairs.builtIn k)

theorem Pairs.mem_handle_iff (pairs : Pairs B) (k : Intrinsic) (h : Matched B as bs) :
    k.handle ∈ as ↔ k.handle ∈ bs := by
  constructor
  · intro ha
    obtain ⟨b, hb, hab⟩ := h.left _ ha
    exact (pairs.handle_iff k hab).1 rfl ▸ hb
  · intro hb
    obtain ⟨a, ha, hab⟩ := h.right _ hb
    exact (pairs.handle_iff k hab).2 rfl ▸ ha

theorem MembersMirror.sort (h : Matched B as bs) :
    MembersMirror B (Members.sort as) (Members.sort bs) where
  sorted := Members.pairwise_sort as
  sorted' := Members.pairwise_sort bs
  members := {
    left := fun a ha =>
      let ⟨b, hb, hab⟩ := h.left a (Members.mem_sort.1 ha)
      ⟨b, Members.mem_sort.2 hb, hab⟩
    right := fun b hb =>
      let ⟨a, ha, hab⟩ := h.right b (Members.mem_sort.1 hb)
      ⟨a, Members.mem_sort.2 ha, hab⟩ }

/-- A built-in type is left out of both lists. -/
theorem MembersMirror.filter (pairs : Pairs B) (k : Intrinsic) (h : MembersMirror B as bs) :
    MembersMirror B (as.filter (· ≠ k.handle)) (bs.filter (· ≠ k.handle)) where
  sorted := h.sorted.filter _
  sorted' := h.sorted'.filter _
  members := {
    left := by
      intro a ha
      obtain ⟨ha, other⟩ := List.mem_filter.1 ha
      obtain ⟨b, hb, hab⟩ := h.members.left a ha
      refine ⟨b, List.mem_filter.2 ⟨hb, ?_⟩, hab⟩
      rw [decide_eq_true_eq] at other ⊢
      exact mt (pairs.handle_iff k hab).2 other
    right := by
      intro b hb
      obtain ⟨hb, other⟩ := List.mem_filter.1 hb
      obtain ⟨a, ha, hab⟩ := h.members.right b hb
      refine ⟨a, List.mem_filter.2 ⟨ha, ?_⟩, hab⟩
      rw [decide_eq_true_eq] at other ⊢
      exact mt (pairs.handle_iff k hab).1 other }

theorem MembersMirror.length_le (pairs : Pairs B) (h : MembersMirror B as bs) :
    as.length ≤ bs.length := by
  choose! image mem rel using h.members.left
  have nodup : (as.map image).Nodup := by
    refine (List.Nodup.map_on fun a ha b hb same => ?_) (h.sorted.imp ne_of_irrefl)
    exact (pairs.one (rel a ha) (rel b hb)).2 same
  have inner : as.map image ⊆ bs := by
    intro b hb
    obtain ⟨a, ha, rfl⟩ := List.mem_map.1 hb
    exact mem a ha
  simpa using (List.subperm_of_subset nodup inner).length_le

theorem Pairs.flip (pairs : Pairs B) : Pairs (flip B) where
  one := fun hac hbd => (pairs.one hac hbd).symm
  builtIn := pairs.builtIn

theorem MembersMirror.length_eq (pairs : Pairs B) (h : MembersMirror B as bs) :
    as.length = bs.length :=
  Nat.le_antisymm (h.length_le pairs) (h.flip.length_le pairs.flip)

/-- What is left of members on both sides. -/
inductive Joined.Mirrors (B : Handle → Handle → Prop) : Joined → Joined → Prop
  | single {a b : Handle} (h : B a b) : Mirrors B (.single a) (.single b)
  | several {as bs : List Handle} (h : MembersMirror B as bs) :
    Mirrors B (.several as) (.several bs)

theorem MembersMirror.ofMembers (pairs : Pairs B) (h : MembersMirror B as bs) :
    (Joined.ofMembers as).Mirrors B (Joined.ofMembers bs) := by
  have length := h.length_eq pairs
  match as, bs, length with
  | [], [], _ => exact .single (pairs.builtIn .never)
  | [a], [b], _ =>
    obtain ⟨x, hx, hax⟩ := h.members.left a List.mem_cons_self
    exact .single (List.mem_singleton.1 hx ▸ hax)
  | _ :: _ :: _, _ :: _ :: _, _ => exact .several h

/-- **WHAT IS LEFT OF MEMBERS THAT MIRROR EACH OTHER MIRRORS EACH OTHER.** -/
theorem Joint.join_mirrors (j : Joint) (pairs : Pairs B) (h : Matched B as bs) :
    (j.join as).Mirrors B (j.join bs) := by
  -- Each question that joining asks is about built-in types among the members, and mirrored
  -- members answer it alike.
  have sorted := MembersMirror.sort h
  have any := pairs.mem_handle_iff .any sorted.members
  cases j with
  | union =>
    have unknown := pairs.mem_handle_iff .unknown sorted.members
    show (Joined.union as).Mirrors B (Joined.union bs)
    unfold Joined.union
    dsimp only
    by_cases unchecked : Handle.any ∈ Members.sort as
    · rw [if_pos unchecked, if_pos (any.1 unchecked)]
      exact .single (pairs.builtIn .any)
    · rw [if_neg unchecked, if_neg (mt any.2 unchecked)]
      by_cases all : Handle.unknown ∈ Members.sort as
      · rw [if_pos all, if_pos (unknown.1 all)]
        exact .single (pairs.builtIn .unknown)
      · rw [if_neg all, if_neg (mt unknown.2 all)]
        exact (sorted.filter pairs .never).ofMembers pairs
  | intersection =>
    have never := pairs.mem_handle_iff .never sorted.members
    show (Joined.intersection as).Mirrors B (Joined.intersection bs)
    unfold Joined.intersection
    dsimp only
    by_cases unchecked : Handle.any ∈ Members.sort as
    · rw [if_pos unchecked, if_pos (any.1 unchecked)]
      exact .single (pairs.builtIn .any)
    · rw [if_neg unchecked, if_neg (mt any.2 unchecked)]
      by_cases empty : Handle.never ∈ Members.sort as
      · rw [if_pos empty, if_pos (never.1 empty)]
        exact .single (pairs.builtIn .never)
      · rw [if_neg empty, if_neg (mt never.2 empty), sorted.length_eq pairs]
        split
        · exact sorted.ofMembers pairs
        · exact (sorted.filter pairs .unknown).ofMembers pairs

end

/-! ## §5. Calls that mirror each other -/

/-- Calls of one constructor, about what mirrors each other. -/
inductive Call.Mirrors (σ : Store ρ) (τ : Store ρ') : Call ρ → Call ρ' → Prop
  | literal {a b : Literal} (h : a.Mirrors σ τ b) : Mirrors σ τ (.literal a) (.literal b)
  | enumeration {as bs : List Literal} (h : List.Forall₂ (Literal.Mirrors σ τ) as bs) :
    Mirrors σ τ (.enumeration as) (.enumeration bs)
  | array {a b : Handle} (h : σ.Mirrors τ a b) : Mirrors σ τ (.array a) (.array b)
  | set {a b : Handle} (h : σ.Mirrors τ a b) : Mirrors σ τ (.set a) (.set b)
  | promise {a b : Handle} (h : σ.Mirrors τ a b) : Mirrors σ τ (.promise a) (.promise b)
  | record {a b x y : Handle} (hk : σ.Mirrors τ a b) (hv : σ.Mirrors τ x y) :
    Mirrors σ τ (.record a x) (.record b y)
  | map {a b x y : Handle} (hk : σ.Mirrors τ a b) (hv : σ.Mirrors τ x y) :
    Mirrors σ τ (.map a x) (.map b y)
  | tuple {s t : Sequence} (h : s.Alike (σ.Mirrors τ) t) : Mirrors σ τ (.tuple s) (.tuple t)
  | function {s t : Signature} (h : s.Alike (σ.Mirrors τ) t) :
    Mirrors σ τ (.function s) (.function t)
  | object {fs gs : List Field} {i j : Option IndexSignature}
    (hf : Matched (Field.Mirrors σ τ (σ.Mirrors τ)) (Field.normalize fs) (Field.normalize gs))
    (hi : Option.Rel (IndexSignature.Mirrors (σ.Mirrors τ)) i j) :
    Mirrors σ τ (.object fs i) (.object gs j)
  | joint (j : Joint) {as bs : List Handle} (h : Matched (σ.Mirrors τ) as bs) :
    Mirrors σ τ (j.call as) (j.call bs)
  | branded {a b : Handle} {brand : String} (h : σ.Mirrors τ a b) :
    Mirrors σ τ (.branded a brand) (.branded b brand)

section

variable {σ : Store ρ} {τ : Store ρ'} {a b h g : Handle}

theorem Literal.Mirrors.key {x y : Literal} (h : x.Mirrors σ τ y) : x.key.Mirrors σ τ y.key := by
  cases h with
  | number h => exact .number (congrArg Binary64.canonical h)
  | string h => exact .string h
  | boolean b => exact .boolean b
  | bigint h => exact .bigint h

theorem Literal.Mirrors.of_key {x y : Literal} (h : x.key.Mirrors σ τ y.key) :
    x.Mirrors σ τ y := by
  cases x <;> cases y <;> cases h
  · next h => exact .string h
  · next h =>
    rw [Binary64.canonical_canonical, Binary64.canonical_canonical] at h
    exact .number h
  · exact .boolean _
  · next h => exact .bigint h

namespace Store

theorem mirrors_handle (σ : Store ρ) (τ : Store ρ') (k : Intrinsic) :
    σ.Mirrors τ k.handle k.handle :=
  mirrors_of_nodes (σ.node?_handle k) (τ.node?_handle k) (.intrinsic k)

theorem pairs_mirrors (once : σ.SpellsOnce) (once' : τ.SpellsOnce) : Pairs (σ.Mirrors τ) where
  one := fun hac hbd => Mirrors.eq_iff once once' hac hbd
  builtIn := mirrors_handle σ τ

theorem ShowsLiteral.mirrors {x y : Literal} (shows : σ.ShowsLiteral a x)
    (shows' : τ.ShowsLiteral b y) (h : x.Mirrors σ τ y) : σ.Mirrors τ a b := by
  obtain ⟨written, ha, rfl⟩ := shows.node
  obtain ⟨written', hb, rfl⟩ := shows'.node
  exact mirrors_of_nodes ha hb (.literal (.of_key h))

theorem ShowsEnumeration.mirrors (once : σ.SpellsOnce) (once' : τ.SpellsOnce)
    {as bs : List Literal} (shows : σ.ShowsEnumeration h (as.map Literal.key).eraseDups)
    (shows' : τ.ShowsEnumeration g (bs.map Literal.key).eraseDups)
    (each : List.Forall₂ (Literal.Mirrors σ τ) as bs) : σ.Mirrors τ h g := by
  -- keys correspond one to one, so they are repeated in the same places
  let K : Literal → Literal → Prop := fun x y => x.Mirrors σ τ y ∧ x.key = x ∧ y.key = y
  have unique : Relator.BiUnique K := by
    constructor
    · intro x y z hxz hyz
      rw [← hxz.2.1, ← hyz.2.1]
      exact hxz.1.flip.unique once hyz.1.flip
    · intro x y z hxy hxz
      rw [← hxy.2.2, ← hxz.2.2]
      exact hxy.1.unique once' hxz.1
  have keys : List.Forall₂ K (as.map Literal.key).eraseDups (bs.map Literal.key).eraseDups := by
    refine rel_eraseDups unique ?_
    rw [List.forall₂_map_left_iff, List.forall₂_map_right_iff]
    exact each.imp fun x y hxy => ⟨hxy.key, Literal.key_key x, Literal.key_key y⟩
  generalize (as.map Literal.key).eraseDups = xs at shows keys
  generalize (bs.map Literal.key).eraseDups = ys at shows' keys
  rcases shows with ⟨rfl, rfl⟩ | ⟨l, ms, hl, hms, literals, some⟩
  · cases keys
    rcases shows' with ⟨rfl, -⟩ | ⟨-, -, -, -, -, some⟩
    · exact mirrors_handle σ τ .never
    · exact absurd rfl some
  · rcases shows' with ⟨-, rfl⟩ | ⟨k, ns, hk, hns, literals', -⟩
    · cases keys
      exact absurd rfl some
    · refine mirrors_of_nodes hl hk (.enumeration hms hns ?_)
      clear hms hns some
      induction keys generalizing ms ns with
      | nil =>
        cases literals
        cases literals'
        exact .nil
      | cons hxy _ ih =>
        cases literals with
        | cons first rest => cases literals' with
          | cons first' rest' => exact .cons (first.mirrors first' hxy.1) (ih _ rest _ rest')

theorem Mirrors.pieces (k : Kind) (h : σ.Mirrors τ a b) :
    Matched (σ.Mirrors τ) (σ.piecesOf k a) (τ.piecesOf k b) := by
  obtain ⟨n, m, hn, hm, mirrors⟩ := h.nodes
  rw [piecesOf_of_node hn, piecesOf_of_node hm, mirrors.kind]
  split
  · exact mirrors.components
  · exact .cons h .nil

theorem Represents.mirrors {j : Joint} {joined joined' : Joined}
    (represents : σ.Represents j joined h) (represents' : τ.Represents j joined' g)
    (same : joined.Mirrors (σ.Mirrors τ) joined') : σ.Mirrors τ h g := by
  cases same with
  | single hab =>
    obtain rfl := represents
    obtain rfl := represents'
    exact hab
  | several members =>
    obtain ⟨l, hl, hms⟩ := represents
    obtain ⟨k, hk, hns⟩ := represents'
    cases j with
    | union => exact mirrors_of_nodes hl hk (.union hms hns members)
    | intersection => exact mirrors_of_nodes hl hk (.intersection hms hns members)

/-- **CALLS THAT MIRROR EACH OTHER GIVE HANDLES THAT DO.** -/
theorem Shows.mirrors (once : σ.SpellsOnce) (once' : τ.SpellsOnce) {c : Call ρ} {c' : Call ρ'}
    (shows : σ.Shows c h) (shows' : τ.Shows c' g) (same : c.Mirrors σ τ c') : σ.Mirrors τ h g := by
  -- one case for each way to mirror a call: the nodes mirror each other by what the calls show
  cases same with
  | literal value => exact ShowsLiteral.mirrors shows shows' value.key
  | enumeration each => exact ShowsEnumeration.mirrors once once' shows shows' each
  | array inner => exact mirrors_of_nodes shows shows' (.array inner)
  | set inner => exact mirrors_of_nodes shows shows' (.set inner)
  | promise inner => exact mirrors_of_nodes shows shows' (.promise inner)
  | record hk hv => exact mirrors_of_nodes shows shows' (.record hk hv)
  | map hk hv => exact mirrors_of_nodes shows shows' (.map hk hv)
  | tuple alike =>
    obtain ⟨i, hi, hs⟩ := shows
    obtain ⟨j, hj, ht⟩ := shows'
    exact mirrors_of_nodes hi hj (.tuple hs ht alike)
  | function alike =>
    obtain ⟨i, hi, hs⟩ := shows
    obtain ⟨j, hj, ht⟩ := shows'
    exact mirrors_of_nodes hi hj (.function hs ht alike)
  | object fields index =>
    obtain ⟨i, hi, hs⟩ := shows
    obtain ⟨j, hj, ht⟩ := shows'
    exact mirrors_of_nodes hi hj (.object hs ht
      ⟨Layout.isNormal_of _ _, Layout.isNormal_of _ _, fields, index⟩)
  | joint j members =>
    have pieces := j.join_mirrors (pairs_mirrors once once')
      (members.flatMap fun _ _ _ _ h => h.pieces j.kind)
    cases j with
    | union => exact Represents.mirrors (j := .union) shows shows' pieces
    | intersection => exact Represents.mirrors (j := .intersection) shows shows' pieces
  | branded base =>
    obtain ⟨m, names, hn⟩ := shows
    obtain ⟨n, names', hn'⟩ := shows'
    exact mirrors_of_nodes hn hn' (.branded base ⟨_, names, names'⟩)

end Store

end

end Assignability
