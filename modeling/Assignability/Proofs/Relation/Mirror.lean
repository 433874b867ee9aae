/-
  Assignability.Proofs.Relation.Mirror
  ────────────────────────────────────
  **ONE DESCRIPTOR IN TWO STORES.**

  Two stores may hold a descriptor under different numbers: its handles,
  its names and its shapes are counted in the order in which they came.
  So the members of a union stand in another order, and so do the fields
  of an object.  Handles mirror each other when their nodes are of one
  constructor, alike in texts, values and modes, and their parts mirror
  each other: by position in sequences, and as sets in unions,
  intersections and objects (`Store.Mirrors`).

  Main statement: `Mirrors.eq_iff` — handles mirror each other one to one.
  This rests on each descriptor having one handle, and on the normal form
  of what is a set.
-/
import Assignability.Proofs.Query.Parallel
import Assignability.Proofs.Relation.Copy
import Assignability.Proofs.Store.Grouping
import Assignability.Proofs.Store.Naming
import Mathlib.Data.List.ProdSigma

namespace Assignability

variable {ρ ρ' α β : Type} {B C : Handle → Handle → Prop}

/-! ## §1. Names and values -/

namespace Store

variable {σ : Store ρ} {τ : Store ρ'}

/-- Names of one text. -/
def Twins (σ : Store ρ) (τ : Store ρ') (a b : Atom) : Prop :=
  ∃ text, σ.Names a text ∧ τ.Names b text

/-- Atoms of one text are twins in both directions. -/
theorem Twins.flip {a b : Atom} (h : σ.Twins τ a b) : τ.Twins σ b a :=
  h.imp fun _ ⟨ha, hb⟩ => ⟨hb, ha⟩

/-- Twins have the same text. -/
theorem Twins.text {a b : Atom} (h : σ.Twins τ a b) : σ.text a = τ.text b := by
  obtain ⟨text, ha, hb⟩ := h
  rw [ha.text_eq, hb.text_eq]

/-- Where every text is spelled once, an atom has one twin. -/
theorem Twins.unique (once : τ.SpellsOnce) {a b c : Atom} (h : σ.Twins τ a b)
    (h' : σ.Twins τ a c) : b = c := by
  obtain ⟨text, ha, hb⟩ := h
  obtain ⟨text', ha', hc⟩ := h'
  obtain rfl := Option.some.inj (ha.symm.trans ha')
  exact once hb hc

/-- Names mirror each other one to one. -/
theorem Twins.eq_iff (once : σ.SpellsOnce) (once' : τ.SpellsOnce) {a b a' b' : Atom}
    (h : σ.Twins τ a a') (h' : σ.Twins τ b b') : a = b ↔ a' = b' := by
  constructor
  · rintro rfl
    exact h.unique once' h'
  · rintro rfl
    exact h.flip.unique once h'.flip

end Store

/-- Values that are one value, whatever the numbers of their texts. -/
inductive Literal.Mirrors (σ : Store ρ) (τ : Store ρ') : Literal → Literal → Prop
  | string {a b : Atom} (h : σ.Twins τ a b) : Mirrors σ τ (.string a) (.string b)
  | number {x y : Binary64} (h : x.canonical = y.canonical) : Mirrors σ τ (.number x) (.number y)
  | boolean (b : Bool) : Mirrors σ τ (.boolean b) (.boolean b)
  | bigint {a b : Atom} (h : σ.Twins τ a b) : Mirrors σ τ (.bigint a) (.bigint b)

namespace Literal.Mirrors

variable {σ : Store ρ} {τ : Store ρ'} {a b c : Literal}

/-- Mirroring works in both directions. -/
theorem flip (h : a.Mirrors σ τ b) : b.Mirrors τ σ a := by
  cases h with
  | string h => exact .string h.flip
  | number h => exact .number h.symm
  | boolean b => exact .boolean b
  | bigint h => exact .bigint h.flip

/-- A literal is mirrored by literals of one name. -/
theorem unique (once : τ.SpellsOnce) (h : a.Mirrors σ τ b) (h' : a.Mirrors σ τ c) :
    b.key = c.key := by
  cases h with
  | string h => cases h' with
    | string h' => rw [h.unique once h']
  | number h => cases h' with
    | number h' => exact congrArg Literal.number (h.symm.trans h')
  | boolean b => cases h' with
    | boolean _ => rfl
  | bigint h => cases h' with
    | bigint h' => rw [h.unique once h']

/-- Mirrored literals are of one built-in type. -/
theorem primitive (h : a.Mirrors σ τ b) : a.primitive = b.primitive := by
  cases h <;> rfl

/-- Mirrored literals are no numbers together. -/
theorem isNaN (h : a.Mirrors σ τ b) : a.isNaN = b.isNaN := by
  cases h with
  | @number x y h =>
    show x.isNaN = y.isNaN
    rw [← Binary64.isNaN_canonical x, h, Binary64.isNaN_canonical]
  | _ => rfl

/-- Mirrored literals fit the same built-in types. -/
theorem fits (h : a.Mirrors σ τ b) (t : Intrinsic) : a.fits t = b.fits t := by
  unfold Literal.fits
  rw [h.primitive, h.isNaN]

end Literal.Mirrors

/-! ## §2. Shapes and nodes -/

/-- Fields of one name and mode, whose types are related. -/
structure Field.Mirrors (σ : Store ρ) (τ : Store ρ') (B : Handle → Handle → Prop) (f g : Field) :
    Prop where
  name : σ.Twins τ f.name g.name
  optional : f.optional = g.optional
  defaulted : f.defaulted = g.defaulted
  type : B f.type g.type

/-- Index signatures whose keys and values are related. -/
structure IndexSignature.Mirrors (B : Handle → Handle → Prop) (i j : IndexSignature) : Prop where
  key : B i.key j.key
  value : B i.value j.value

/-- Layouts in order, with the same fields. -/
structure Layout.Mirrors (σ : Store ρ) (τ : Store ρ') (B : Handle → Handle → Prop)
    (s t : Layout) : Prop where
  normal : s.IsNormal
  normal' : t.IsNormal
  fields : Matched (Field.Mirrors σ τ B) s.fields t.fields
  index : Option.Rel (IndexSignature.Mirrors B) s.index t.index

/-- Member lists in order, with the same members. -/
structure MembersMirror (B : Handle → Handle → Prop) (as bs : List Handle) : Prop where
  sorted : as.Pairwise (· < ·)
  sorted' : bs.Pairwise (· < ·)
  members : Matched B as bs

/-- Nodes of one constructor, alike in their texts, values and modes, whose parts are related. -/
inductive Node.Mirrors (σ : Store ρ) (τ : Store ρ') (B : Handle → Handle → Prop) :
    Node → Node → Prop
  | intrinsic (k : Intrinsic) : Mirrors σ τ B (.intrinsic k) (.intrinsic k)
  | literal {a b : Literal} (h : a.Mirrors σ τ b) : Mirrors σ τ B (.literal a) (.literal b)
  | enumeration {l k : ListId} {as bs : List Handle} (hl : σ.lists.get? l.number = some as)
    (hk : τ.lists.get? k.number = some bs) (h : List.Forall₂ B as bs) :
    Mirrors σ τ B (.enumeration l) (.enumeration k)
  | array {a b : Handle} (h : B a b) : Mirrors σ τ B (.array a) (.array b)
  | tuple {o p : TupleId} {s t : Sequence} (ho : σ.tuples.get? o.number = some s)
    (hp : τ.tuples.get? p.number = some t) (h : s.Alike B t) :
    Mirrors σ τ B (.tuple o) (.tuple p)
  | object {o p : ObjectId} {s t : Layout} (ho : σ.objects.get? o.number = some s)
    (hp : τ.objects.get? p.number = some t) (h : s.Mirrors σ τ B t) :
    Mirrors σ τ B (.object o) (.object p)
  | record {a b x y : Handle} (hk : B a b) (hv : B x y) : Mirrors σ τ B (.record a x) (.record b y)
  | map {a b x y : Handle} (hk : B a b) (hv : B x y) : Mirrors σ τ B (.map a x) (.map b y)
  | set {a b : Handle} (h : B a b) : Mirrors σ τ B (.set a) (.set b)
  | promise {a b : Handle} (h : B a b) : Mirrors σ τ B (.promise a) (.promise b)
  | function {f g : FunctionId} {s t : Signature} (hf : σ.functions.get? f.number = some s)
    (hg : τ.functions.get? g.number = some t) (h : s.Alike B t) :
    Mirrors σ τ B (.function f) (.function g)
  | union {l k : ListId} {as bs : List Handle} (hl : σ.lists.get? l.number = some as)
    (hk : τ.lists.get? k.number = some bs) (h : MembersMirror B as bs) :
    Mirrors σ τ B (.union l) (.union k)
  | intersection {l k : ListId} {as bs : List Handle} (hl : σ.lists.get? l.number = some as)
    (hk : τ.lists.get? k.number = some bs) (h : MembersMirror B as bs) :
    Mirrors σ τ B (.intersection l) (.intersection k)
  | branded {a b : Handle} {m n : Atom} (h : B a b) (hm : σ.Twins τ m n) :
    Mirrors σ τ B (.branded a m) (.branded b n)

section

variable {σ : Store ρ} {τ : Store ρ'} {n m : Node}

/-- Fields mirror each other in both directions. -/
theorem Field.Mirrors.flip {f g : Field} (h : f.Mirrors σ τ B g) : g.Mirrors τ σ (flip B) f :=
  ⟨h.name.flip, h.optional.symm, h.defaulted.symm, h.type⟩

/-- Relations between what may be missing. -/
theorem rel_swap {R : α → β → Prop} {S : β → α → Prop} {x : Option α} {y : Option β}
    (h : Option.Rel R x y) (swap : ∀ a b, R a b → S b a) : Option.Rel S y x := by
  cases h with
  | none => exact .none
  | some h => exact .some (swap _ _ h)

/-- A weaker relation holds of options where a stronger one does. -/
theorem rel_imp {R S : α → β → Prop} {x : Option α} {y : Option β} (h : Option.Rel R x y)
    (imp : ∀ a ∈ x, ∀ b ∈ y, R a b → S a b) : Option.Rel S x y := by
  cases h with
  | none => exact .none
  | some h => exact .some (imp _ rfl _ rfl h)

/-- A weaker relation holds of lists where a stronger one does. -/
theorem forall₂_imp {R S : α → β → Prop} {as : List α} {bs : List β} (h : List.Forall₂ R as bs)
    (imp : ∀ a ∈ as, ∀ b ∈ bs, R a b → S a b) : List.Forall₂ S as bs := by
  induction h with
  | nil => exact .nil
  | cons hab _ ih =>
    refine .cons (imp _ List.mem_cons_self _ List.mem_cons_self hab) (ih fun a ha b hb => ?_)
    exact imp a (List.mem_cons_of_mem _ ha) b (List.mem_cons_of_mem _ hb)

/-- Sequences stay alike under a weaker relation of their parts. -/
theorem Sequence.Alike.imp {s t : Sequence} (h : s.Alike B t)
    (hBC : ∀ a ∈ s.parts, ∀ b ∈ t.parts, B a b → C a b) : s.Alike C t where
  items := forall₂_imp h.items fun a ha b hb =>
    hBC a (List.mem_append_left _ ha) b (List.mem_append_left _ hb)
  rest := rel_imp h.rest fun a ha b hb =>
    hBC a (List.mem_append_right _ (Option.mem_toList.2 ha)) b
      (List.mem_append_right _ (Option.mem_toList.2 hb))

/-- Sequences that are alike have matched parts. -/
theorem Sequence.Alike.parts {s t : Sequence} (h : s.Alike B t) : Matched B s.parts t.parts :=
  (Matched.of_forall₂ h.items).append (.toList h.rest)

/-- Signatures stay alike under a weaker relation of their parts. -/
theorem Signature.Alike.imp {s t : Signature} (h : s.Alike B t)
    (hBC : ∀ a ∈ s.parts, ∀ b ∈ t.parts, B a b → C a b) : s.Alike C t where
  parameters := h.parameters.imp fun a ha b hb =>
    hBC a (List.mem_cons_of_mem _ ha) b (List.mem_cons_of_mem _ hb)
  result := hBC _ List.mem_cons_self _ List.mem_cons_self h.result

/-- Layouts mirror each other in both directions. -/
theorem Layout.Mirrors.flip {s t : Layout} (h : s.Mirrors σ τ B t) :
    t.Mirrors τ σ (flip B) s where
  normal := h.normal'
  normal' := h.normal
  fields := h.fields.flip.imp fun _ _ _ _ f => Field.Mirrors.flip f
  index := rel_swap h.index fun _ _ i => ⟨i.key, i.value⟩

/-- Layouts mirror each other under a weaker relation of their parts. -/
theorem Layout.Mirrors.imp {s t : Layout} (h : s.Mirrors σ τ B t)
    (hBC : ∀ a ∈ s.parts, ∀ b ∈ t.parts, B a b → C a b) : s.Mirrors σ τ C t where
  normal := h.normal
  normal' := h.normal'
  fields := h.fields.imp fun _ hf _ hg fg => { fg with
    type := hBC _ (Query.mem_parts_of_field hf) _ (Query.mem_parts_of_field hg) fg.type }
  index := rel_imp h.index fun _ hi _ hj ij =>
    ⟨hBC _ (Query.key_mem_parts hi) _ (Query.key_mem_parts hj) ij.key,
      hBC _ (Query.value_mem_parts hi) _ (Query.value_mem_parts hj) ij.value⟩

/-- Mirrored layouts have matched parts. -/
theorem Layout.Mirrors.parts {s t : Layout} (h : s.Mirrors σ τ B t) :
    Matched B s.parts t.parts := by
  refine (h.fields.map fun _ _ _ _ fg => fg.type).append ?_
  obtain ⟨_, index⟩ := s
  obtain ⟨_, index'⟩ := t
  have rel : Option.Rel (IndexSignature.Mirrors B) index index' := h.index
  cases rel with
  | none => exact .nil
  | some ij => exact .cons ij.key (.cons ij.value .nil)

/-- Members mirror each other in both directions. -/
theorem MembersMirror.flip {as bs : List Handle} (h : MembersMirror B as bs) :
    MembersMirror (flip B) bs as :=
  ⟨h.sorted', h.sorted, h.members.flip⟩

/-- Members mirror each other under a weaker relation. -/
theorem MembersMirror.imp {as bs : List Handle} (h : MembersMirror B as bs)
    (hBC : ∀ a ∈ as, ∀ b ∈ bs, B a b → C a b) : MembersMirror C as bs :=
  { h with members := h.members.imp hBC }

namespace Store

/-- Lists that are matched are so where they are looked up. -/
theorem matched_list {l k : ListId} {as bs : List Handle} (hl : σ.lists.get? l.number = some as)
    (hk : τ.lists.get? k.number = some bs) (h : Matched B as bs) :
    Matched B (σ.list l) (τ.list k) := by
  rw [list_of_get? hl, list_of_get? hk]
  exact h

end Store

namespace Node.Mirrors

/-- Nodes mirror each other under a weaker relation of their components. -/
theorem imp (h : n.Mirrors σ τ B m)
    (hBC : ∀ a ∈ σ.components n, ∀ b ∈ τ.components m, B a b → C a b) : n.Mirrors σ τ C m := by
  -- one case for each kind of node: its components are those of the shape it names
  cases h with
  | intrinsic k => exact .intrinsic k
  | literal h => exact .literal h
  | enumeration hl hk h =>
    refine .enumeration hl hk (forall₂_imp h fun a ha b hb => hBC a ?_ b ?_)
    · rw [← Store.list_of_get? hl] at ha
      exact ha
    · rw [← Store.list_of_get? hk] at hb
      exact hb
  | array h => exact .array (hBC _ List.mem_cons_self _ List.mem_cons_self h)
  | tuple ho hp h =>
    refine .tuple ho hp (h.imp fun a ha b hb => hBC a ?_ b ?_)
    · rw [← Store.tuple_of_get? ho] at ha
      exact ha
    · rw [← Store.tuple_of_get? hp] at hb
      exact hb
  | object ho hp h =>
    refine .object ho hp (h.imp fun a ha b hb => hBC a ?_ b ?_)
    · rw [← Store.object_of_get? ho] at ha
      exact ha
    · rw [← Store.object_of_get? hp] at hb
      exact hb
  | record hk hv =>
    exact .record (hBC _ List.mem_cons_self _ List.mem_cons_self hk)
      (hBC _ (List.mem_cons_of_mem _ List.mem_cons_self) _
        (List.mem_cons_of_mem _ List.mem_cons_self) hv)
  | map hk hv =>
    exact .map (hBC _ List.mem_cons_self _ List.mem_cons_self hk)
      (hBC _ (List.mem_cons_of_mem _ List.mem_cons_self) _
        (List.mem_cons_of_mem _ List.mem_cons_self) hv)
  | set h => exact .set (hBC _ List.mem_cons_self _ List.mem_cons_self h)
  | promise h => exact .promise (hBC _ List.mem_cons_self _ List.mem_cons_self h)
  | function hf hg h =>
    refine .function hf hg (h.imp fun a ha b hb => hBC a ?_ b ?_)
    · rw [← Store.function_of_get? hf] at ha
      exact ha
    · rw [← Store.function_of_get? hg] at hb
      exact hb
  | union hl hk h =>
    refine .union hl hk (h.imp fun a ha b hb => hBC a ?_ b ?_)
    · rw [← Store.list_of_get? hl] at ha
      exact ha
    · rw [← Store.list_of_get? hk] at hb
      exact hb
  | intersection hl hk h =>
    refine .intersection hl hk (h.imp fun a ha b hb => hBC a ?_ b ?_)
    · rw [← Store.list_of_get? hl] at ha
      exact ha
    · rw [← Store.list_of_get? hk] at hb
      exact hb
  | branded h hm => exact .branded (hBC _ List.mem_cons_self _ List.mem_cons_self h) hm

theorem flip (h : n.Mirrors σ τ B m) : m.Mirrors τ σ (flip B) n := by
  cases h with
  | intrinsic k => exact .intrinsic k
  | literal h => exact .literal h.flip
  | enumeration hl hk h => exact .enumeration hk hl h.flip
  | array h => exact .array h
  | tuple ho hp h => exact .tuple hp ho h.flip
  | object ho hp h => exact .object hp ho h.flip
  | record hk hv => exact .record hk hv
  | map hk hv => exact .map hk hv
  | set h => exact .set h
  | promise h => exact .promise h
  | function hf hg h => exact .function hg hf ⟨h.parameters.flip, h.result⟩
  | union hl hk h => exact .union hk hl h.flip
  | intersection hl hk h => exact .intersection hk hl h.flip
  | branded h hm => exact .branded h hm.flip

/-- The parts of one are related to some of the other, and the other way round. -/
theorem components (h : n.Mirrors σ τ B m) : Matched B (σ.components n) (τ.components m) := by
  cases h with
  | intrinsic | literal => exact .nil
  | enumeration hl hk h => exact Store.matched_list hl hk (.of_forall₂ h)
  | union hl hk h | intersection hl hk h => exact Store.matched_list hl hk h.members
  | array h | set h | promise h | branded h => exact .cons h .nil
  | tuple ho hp h =>
    rw [Store.components, Store.components, Store.tuple_of_get? ho, Store.tuple_of_get? hp]
    exact h.parts
  | object ho hp h =>
    rw [Store.components, Store.components, Store.object_of_get? ho, Store.object_of_get? hp]
    exact h.parts
  | record hk hv | map hk hv => exact .cons hk (.cons hv .nil)
  | function hf hg h =>
    rw [Store.components, Store.components, Store.function_of_get? hf, Store.function_of_get? hg]
    exact .cons h.result h.parameters.parts

end Node.Mirrors

end

/-! ## §3. One handle for what is mirrored -/

section

variable {σ : Store ρ} {τ : Store ρ'} {n m k : Node} {a b c : Handle}

/-- A list of unique mirrors is unique. -/
theorem forall₂_unique {R S : α → β → Prop} {as : List α} {bs cs : List β}
    (h : List.Forall₂ R as bs) (h' : List.Forall₂ S as cs)
    (unique : ∀ a ∈ as, ∀ b c, R a b → S a c → b = c) : bs = cs := by
  induction h generalizing cs with
  | nil => cases h' with
    | nil => rfl
  | cons hab _ ih => cases h' with
    | cons hac rest =>
      rw [unique _ List.mem_cons_self _ _ hab hac,
        ih rest fun a ha => unique a (List.mem_cons_of_mem _ ha)]

/-- An optional mirror is unique where the mirror is. -/
theorem rel_unique {R S : α → β → Prop} {x : Option α} {y z : Option β} (h : Option.Rel R x y)
    (h' : Option.Rel S x z) (unique : ∀ a ∈ x, ∀ b c, R a b → S a c → b = c) : y = z := by
  cases h with
  | none => cases h' with
    | none => rfl
  | some hab => cases h' with
    | some hac => rw [unique _ rfl _ _ hab hac]

/-- A sequence has one mirror if its parts have one each. -/
theorem Sequence.Alike.unique {s t u : Sequence} (h : s.Alike B t) (h' : s.Alike C u)
    (unique : ∀ a ∈ s.parts, ∀ b c, B a b → C a c → b = c) : t = u := by
  have items := forall₂_unique h.items h'.items fun a ha =>
    unique a (List.mem_append_left _ ha)
  have rest := rel_unique h.rest h'.rest fun a ha =>
    unique a (List.mem_append_right _ (Option.mem_toList.2 ha))
  cases t
  cases u
  congr

/-- So does a signature. -/
theorem Signature.Alike.unique {s t u : Signature} (h : s.Alike B t) (h' : s.Alike C u)
    (unique : ∀ a ∈ s.parts, ∀ b c, B a b → C a c → b = c) : t = u := by
  have parameters := h.parameters.unique h'.parameters fun a ha =>
    unique a (List.mem_cons_of_mem _ ha)
  have result := unique _ List.mem_cons_self _ _ h.result h'.result
  cases t
  cases u
  congr

instance : Std.Irrefl fun f g : Field => f.name < g.name := ⟨fun f => Nat.lt_irrefl f.name.number⟩

instance : Std.Antisymm fun f g : Field => f.name < g.name :=
  ⟨fun _ _ h h' => absurd (Nat.lt_trans h h') (Nat.lt_irrefl _)⟩

/-- So does a layout, where every text is spelled once. -/
theorem Layout.Mirrors.unique {s t u : Layout} (once : τ.SpellsOnce) (h : s.Mirrors σ τ B t)
    (h' : s.Mirrors σ τ C u) (unique : ∀ a ∈ s.parts, ∀ b c, B a b → C a c → b = c) : t = u := by
  -- fields stand in the order of their names, so the two lists are equal if the fields are
  have fields : t.fields = u.fields := by
    refine h.fields.eq_of_pairwise h'.fields (fun f hf g _ g' _ fg fg' => ?_) h.normal' h'.normal'
    have name := fg.name.unique once fg'.name
    have type := unique _ (Query.mem_parts_of_field hf) _ _ fg.type fg'.type
    have optional := fg.optional.symm.trans fg'.optional
    have defaulted := fg.defaulted.symm.trans fg'.defaulted
    cases g
    cases g'
    congr
  have index := rel_unique h.index h'.index fun i hi j j' ij ij' => by
    have key := unique _ (Query.key_mem_parts hi) _ _ ij.key ij'.key
    have value := unique _ (Query.value_mem_parts hi) _ _ ij.value ij'.value
    cases j
    cases j'
    congr
  cases t
  cases u
  congr

/-- So do members, which their order makes a list of. -/
theorem MembersMirror.unique {as bs cs : List Handle} (h : MembersMirror B as bs)
    (h' : MembersMirror C as cs) (unique : ∀ a ∈ as, ∀ b c, B a b → C a c → b = c) : bs = cs :=
  h.members.eq_of_pairwise h'.members (fun a ha b _ c _ => unique a ha b c) h.sorted' h'.sorted'

/-- Nodes that mirror one node are the same where their parts are. -/
theorem Node.Mirrors.unique (once : τ.SpellsOnce) (h : n.Mirrors σ τ B m)
    (h' : n.Mirrors σ τ C k) (unique : ∀ a ∈ σ.components n, ∀ b c, B a b → C a c → b = c) :
    m.key = k.key := by
  -- equal lists and shapes have one number
  have number : ∀ {κ : Type} [BEq κ] [LawfulBEq κ] [Hashable κ] {table : Table (id : κ → κ)}
      {i j : Nat} {x y : κ}, table.get? i = some x → table.get? j = some y → x = y → i = j :=
    fun hx hy same => Table.get?_injective hx hy same
  cases h with
  | intrinsic => cases h' with
    | intrinsic => rfl
  | literal h => cases h' with
    | literal h' => exact congrArg Node.literal (h.unique once h')
  | enumeration hl hk h => cases h' with
    | enumeration hl' hk' h' =>
      obtain rfl := Option.some.inj (hl.symm.trans hl')
      rw [Store.components, Store.list_of_get? hl] at unique
      exact congrArg (Node.enumeration ∘ ListId.mk) (number hk hk' (forall₂_unique h h' unique))
  | array h => cases h' with
    | array h' => rw [unique _ List.mem_cons_self _ _ h h']
  | tuple ho hp h => cases h' with
    | tuple ho' hp' h' =>
      obtain rfl := Option.some.inj (ho.symm.trans ho')
      rw [Store.components, Store.tuple_of_get? ho] at unique
      exact congrArg (Node.tuple ∘ TupleId.mk) (number hp hp' (h.unique h' unique))
  | object ho hp h => cases h' with
    | object ho' hp' h' =>
      obtain rfl := Option.some.inj (ho.symm.trans ho')
      rw [Store.components, Store.object_of_get? ho] at unique
      exact congrArg (Node.object ∘ ObjectId.mk) (number hp hp' (h.unique once h' unique))
  | record hk hv => cases h' with
    | record hk' hv' => rw [unique _ (by simp [Store.components]) _ _ hk hk',
        unique _ (by simp [Store.components]) _ _ hv hv']
  | map hk hv => cases h' with
    | map hk' hv' => rw [unique _ (by simp [Store.components]) _ _ hk hk',
        unique _ (by simp [Store.components]) _ _ hv hv']
  | set h => cases h' with
    | set h' => rw [unique _ List.mem_cons_self _ _ h h']
  | promise h => cases h' with
    | promise h' => rw [unique _ List.mem_cons_self _ _ h h']
  | function hf hg h => cases h' with
    | function hf' hg' h' =>
      obtain rfl := Option.some.inj (hf.symm.trans hf')
      rw [Store.components, Store.function_of_get? hf] at unique
      exact congrArg (Node.function ∘ FunctionId.mk) (number hg hg' (h.unique h' unique))
  | union hl hk h => cases h' with
    | union hl' hk' h' =>
      obtain rfl := Option.some.inj (hl.symm.trans hl')
      rw [Store.components, Store.list_of_get? hl] at unique
      exact congrArg (Node.union ∘ ListId.mk) (number hk hk' (h.unique h' unique))
  | intersection hl hk h => cases h' with
    | intersection hl' hk' h' =>
      obtain rfl := Option.some.inj (hl.symm.trans hl')
      rw [Store.components, Store.list_of_get? hl] at unique
      exact congrArg (Node.intersection ∘ ListId.mk) (number hk hk' (h.unique h' unique))
  | branded h hm => cases h' with
    | branded h' hm' =>
      rw [unique _ List.mem_cons_self _ _ h h', hm.unique once hm']

end

/-! ## §4. Handles -/

namespace Store

/-- Whether two handles mirror each other and nest less deep than `n`. -/
def mirrorsWithin (σ : Store ρ) (τ : Store ρ') : Nat → Handle → Handle → Prop
  | 0, _, _ => False
  | n + 1, a, b => ∃ x y, σ.node? a = some x ∧ τ.node? b = some y ∧
    x.Mirrors σ τ (mirrorsWithin σ τ n) y

/-- A handle of one store and one of another that are of one structure, without lazy nodes. -/
def Mirrors (σ : Store ρ) (τ : Store ρ') (a b : Handle) : Prop := ∃ n, σ.mirrorsWithin τ n a b

variable {σ : Store ρ} {τ : Store ρ'} {a b c d : Handle} {x y : Node} {n m : Nat}

/-- What mirrors within a depth does so within every greater one. -/
theorem mirrorsWithin_mono (h : σ.mirrorsWithin τ n a b) (hnm : n ≤ m) :
    σ.mirrorsWithin τ m a b := by
  induction n generalizing m a b with
  | zero => exact h.elim
  | succ n ih =>
    obtain ⟨m, rfl⟩ : ∃ k, m = k + 1 := ⟨m - 1, by omega⟩
    obtain ⟨x, y, hx, hy, hxy⟩ := h
    exact ⟨x, y, hx, hy, hxy.imp fun _ _ _ _ h => ih h (by omega)⟩

/-- Mirrored types stand for mirrored nodes. -/
theorem Mirrors.nodes (h : σ.Mirrors τ a b) : ∃ x y, σ.node? a = some x ∧ τ.node? b = some y ∧
    x.Mirrors σ τ (σ.Mirrors τ) y := by
  obtain ⟨n, h⟩ := h
  cases n with
  | zero => exact h.elim
  | succ n =>
    obtain ⟨x, y, hx, hy, hxy⟩ := h
    exact ⟨x, y, hx, hy, hxy.imp fun _ _ _ _ h => ⟨n, h⟩⟩

/-- Nodes whose components mirror each other make mirrored types. -/
theorem mirrors_of_nodes (hx : σ.node? a = some x) (hy : τ.node? b = some y)
    (h : x.Mirrors σ τ (σ.Mirrors τ) y) : σ.Mirrors τ a b := by
  -- the parts are finitely many, so one number of levels is enough for all of them
  obtain ⟨n, levels⟩ := exists_bound (p := fun n (q : Handle × Handle) =>
      σ.Mirrors τ q.1 q.2 → σ.mirrorsWithin τ n q.1 q.2)
    (fun le h mirrors => mirrorsWithin_mono (h mirrors) le)
    (σ.components x ×ˢ τ.components y) fun q _ => by
      by_cases mirrors : σ.Mirrors τ q.1 q.2
      · exact mirrors.imp fun _ h _ => h
      · exact ⟨0, fun h => absurd h mirrors⟩
  exact ⟨n + 1, x, y, hx, hy, h.imp fun a ha b hb =>
    levels (a, b) (List.pair_mem_product.2 ⟨ha, hb⟩)⟩

/-- Types mirror each other in both directions. -/
theorem Mirrors.flip (h : σ.Mirrors τ a b) : τ.Mirrors σ b a := by
  obtain ⟨n, h⟩ := h
  induction n generalizing a b with
  | zero => exact h.elim
  | succ n ih =>
    obtain ⟨x, y, hx, hy, hxy⟩ := h
    exact mirrors_of_nodes hy hx (hxy.flip.imp fun _ _ _ _ h => ih h)

/-- **WHAT IS MIRRORED IS MIRRORED BY ONE HANDLE.** -/
theorem Mirrors.unique (once : τ.SpellsOnce) (h : σ.Mirrors τ a b) (h' : σ.Mirrors τ a c) :
    b = c := by
  obtain ⟨n, h⟩ := h
  induction n generalizing a b c with
  | zero => exact h.elim
  | succ n ih =>
    obtain ⟨x, y, hx, hy, hxy⟩ := h
    obtain ⟨x', z, hx', hz, hxz⟩ := h'.nodes
    obtain rfl := Option.some.inj (hx.symm.trans hx')
    exact handle_eq_of_key_eq hy hz (hxy.unique once hxz fun _ _ _ _ h h' => ih h' h)

/-- **HANDLES MIRROR EACH OTHER ONE TO ONE.** -/
theorem Mirrors.eq_iff (once : σ.SpellsOnce) (once' : τ.SpellsOnce) (h : σ.Mirrors τ a c)
    (h' : σ.Mirrors τ b d) : a = b ↔ c = d := by
  constructor
  · rintro rfl
    exact h.unique once' h'
  · rintro rfl
    exact h.flip.unique once h'.flip

/-- Only types without lazies are mirrored. -/
theorem Mirrors.lazyFree (h : σ.Mirrors τ a b) : σ.LazyFree a := by
  obtain ⟨n, h⟩ := h
  refine ⟨n, ?_⟩
  induction n generalizing a b with
  | zero => exact h.elim
  | succ n ih =>
    obtain ⟨x, y, hx, hy, hxy⟩ := h
    refine nests_succ.2 ⟨lazyId?_of_notLazy hx (by cases hxy <;> rfl), fun g hg => ?_⟩
    rw [parts_of_node hx] at hg
    obtain ⟨g', -, hgg'⟩ := hxy.components.left g hg
    exact ih hgg'

end Store

end Assignability
