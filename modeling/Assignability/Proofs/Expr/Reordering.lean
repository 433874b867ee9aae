/-
  Assignability.Proofs.Expr.Reordering
  ────────────────────────────────────
  **THE ORDER OF BUILDING DOES NOT MATTER.**

  Expressions may list the members of unions and intersections, and the
  fields of objects, in different orders (`Expr.Reorders`), and they may
  be made in stores that number their handles and names differently.
  None of this leaks into what is assignable.

  Main statements:
    • `Reads.mirrors` — made of such expressions in two stores, handles
      mirror each other,
    • `Made.unique` — in one store they are one handle,
    • `assignable_eq_of_reorders` — they are assignable in one store exactly
      where they are in the other.
-/
import Assignability.Proofs.Checker.Budget
import Assignability.Proofs.Expr.Making

namespace Assignability

variable {ρ ρ' : Type}

/-! ## §1. Expressions in another order -/

/-- Declarations that are the same for each name, in the order in which they replace each other. -/
def FieldExpr.SameByName (ds ds' : List FieldExpr) : Prop :=
  ∀ name, ds.filter (·.name == name) = ds'.filter (·.name == name)

/-- Fields of one name and presence, whose types are related. -/
inductive FieldExpr.Alike (R : Expr → Expr → Prop) : FieldExpr → FieldExpr → Prop
  | mk {name : String} {e f : Expr} {presence : Presence} (h : R e f) :
    Alike R (.mk name e presence) (.mk name f presence)

/-- Expressions that are the same up to the order of the members of unions and intersections and of
the fields of objects. -/
inductive Expr.Reorders : Expr → Expr → Prop
  | handle (h : Handle) : Reorders (.handle h) (.handle h)
  | literal (value : LiteralExpr) : Reorders (.literal value) (.literal value)
  | enumeration (values : List LiteralExpr) : Reorders (.enumeration values) (.enumeration values)
  | stringEnumeration (texts : List String) :
    Reorders (.stringEnumeration texts) (.stringEnumeration texts)
  | array {e f : Expr} (h : Reorders e f) : Reorders (.array e) (.array f)
  | set {e f : Expr} (h : Reorders e f) : Reorders (.set e) (.set f)
  | promise {e f : Expr} (h : Reorders e f) : Reorders (.promise e) (.promise f)
  | record {k k' v v' : Expr} (hk : Reorders k k') (hv : Reorders v v') :
    Reorders (.record k v) (.record k' v')
  | map {k k' v v' : Expr} (hk : Reorders k k') (hv : Reorders v v') :
    Reorders (.map k v) (.map k' v')
  | tuple {es fs : List Expr} (h : List.Forall₂ Reorders es fs) : Reorders (.tuple es) (.tuple fs)
  | tupleWithRest {es fs : List Expr} {r s : Expr} (h : List.Forall₂ Reorders es fs)
    (hr : Reorders r s) : Reorders (.tupleWithRest es r) (.tupleWithRest fs s)
  | function {es fs : List Expr} {r s : Expr} (h : List.Forall₂ Reorders es fs)
    (hr : Reorders r s) : Reorders (.function es r) (.function fs s)
  | functionWithRest {es fs : List Expr} {r s x y : Expr} (h : List.Forall₂ Reorders es fs)
    (hr : Reorders r s) (hx : Reorders x y) :
    Reorders (.functionWithRest es r x) (.functionWithRest fs s y)
  | object {ds ds' fs : List FieldExpr} (order : FieldExpr.SameByName ds ds')
    (h : List.Forall₂ (FieldExpr.Alike Reorders) ds' fs) : Reorders (.object ds) (.object fs)
  | indexedObject {ds ds' fs : List FieldExpr} {k k' v v' : Expr}
    (order : FieldExpr.SameByName ds ds') (h : List.Forall₂ (FieldExpr.Alike Reorders) ds' fs)
    (hk : Reorders k k') (hv : Reorders v v') :
    Reorders (.indexedObject ds k v) (.indexedObject fs k' v')
  | union {es es' fs : List Expr} (perm : es.Perm es') (h : List.Forall₂ Reorders es' fs) :
    Reorders (.union es) (.union fs)
  | intersection {es es' fs : List Expr} (perm : es.Perm es') (h : List.Forall₂ Reorders es' fs) :
    Reorders (.intersection es) (.intersection fs)
  | branded {e f : Expr} {brand : String} (h : Reorders e f) :
    Reorders (.branded e brand) (.branded f brand)

/-- Fields of distinct names may stand in any order. -/
theorem FieldExpr.sameByName_of_perm {ds ds' : List FieldExpr} (perm : ds.Perm ds')
    (distinct : (ds.map FieldExpr.name).Nodup) : FieldExpr.SameByName ds ds' := by
  intro name
  have short : (ds.filter (·.name == name)).length ≤ 1 := by
    rw [← List.countP_eq_length_filter]
    have once := List.nodup_iff_count_le_one.1 distinct name
    rwa [List.count, List.countP_map] at once
  have perm := perm.filter (·.name == name)
  generalize ds.filter (·.name == name) = named at short perm
  match named, short, perm with
  | [], _, perm => exact (List.nil_perm.1 perm).symm
  | [d], _, perm => exact List.singleton_perm.1 perm

/-! ## §2. Numbers among the keys of records -/

/-- Whether a key type is a number that is written out, or has one among its members. -/
inductive Expr.ListsNumber : Expr → Prop
  | literal (x : Binary64) : ListsNumber (.literal (.number x))
  | enumeration {values : List LiteralExpr} {x : Binary64} (h : .number x ∈ values) :
    ListsNumber (.enumeration values)
  | union {es : List Expr} {e : Expr} (he : e ∈ es) (h : ListsNumber e) : ListsNumber (.union es)
  | intersection {es : List Expr} {e : Expr} (he : e ∈ es) (h : ListsNumber e) :
    ListsNumber (.intersection es)

/-- Whether an expression has a record with a number among its keys. -/
inductive Expr.HasNumberKeys : Expr → Prop
  | record {key value : Expr} (lists : key.ListsNumber) : HasNumberKeys (.record key value)
  | part {e p : Expr} (hp : p ∈ e.parts) (inner : HasNumberKeys p) : HasNumberKeys e

namespace Store

variable {σ : Store ρ} {e : Expr} {h : Handle}

/-- The numbers of a key type that was made are written out in its expression. -/
theorem Reads.listsNumber (reads : σ.Reads e h) (lists : σ.ListsNumber h) : e.ListsNumber := by
  induction reads with
  | builtIn k hh => exact absurd (hh ▸ lists) (σ.not_listsNumber_handle k)
  | call calls _ shows ih =>
    -- a number literal, an enumeration with one, or a member of a union or an intersection
    rcases shows.listsNumber lists with ⟨x, rfl⟩ | ⟨values, x, rfl, hx⟩ | ⟨j, ms, rfl, m, hm, lists⟩
    · cases calls with
      | literal value => cases value with
        | number => exact .literal x
    · have written : ∀ {exprs : List LiteralExpr},
          List.Forall₂ (LiteralExpr.Reads σ) exprs values → .number x ∈ exprs := by
        intro exprs each
        obtain ⟨value, hv, reads⟩ := (Matched.of_forall₂ each).right _ hx
        cases reads with
        | number => exact hv
      cases calls with
      | enumeration each => exact .enumeration (written each)
      | stringEnumeration each =>
        obtain ⟨text, -, same⟩ := List.mem_map.1 (written each)
        cases same
    · cases j with
      | union => cases calls with
        | union ps =>
          obtain ⟨p, hp, rfl⟩ := List.mem_map.1 hm
          exact .union (List.mem_map_of_mem hp) (ih p hp lists)
      | intersection => cases calls with
        | intersection ps =>
          obtain ⟨p, hp, rfl⟩ := List.mem_map.1 hm
          exact .intersection (List.mem_map_of_mem hp) (ih p hp lists)

/-- An expression without number keys reads as a type without them. -/
theorem Reads.not_hasNumberKeys (reads : σ.Reads e h) (named : ¬ e.HasNumberKeys) :
    ¬ σ.HasNumberKeys h := by
  -- on how it is read: only a record has keys of its own, and its parts have theirs
  induction reads with
  | builtIn k hh =>
    intro keys
    subst hh
    have hn := σ.node?_handle k
    cases keys with
    | record hr => cases hn.symm.trans hr
    | part hg =>
      rw [parts_of_node hn] at hg
      cases hg
  | @call e ps c h calls parts shows ih =>
    have inner : ∀ p ∈ ps, p.1 ∈ e.parts := fun p hp => by
      rw [calls.parts_eq]
      exact List.mem_map_of_mem hp
    refine shows.not_hasNumberKeys ?_
      (handles_of_parts calls fun p hp => ih p hp fun keys => named (.part (inner p hp) keys))
    rintro key value rfl lists
    cases calls with
    | record k v => exact named (.record ((parts (k, key) List.mem_cons_self).listsNumber lists))

end Store

/-! ## §3. Made in two stores -/

section

variable {σ : Store ρ} {τ : Store ρ'}

/-- A literal mirrors every other reading of it. -/
theorem LiteralExpr.Reads.mirrors {value : LiteralExpr} {v w : Literal} (reads : value.Reads σ v)
    (reads' : value.Reads τ w) : v.Mirrors σ τ w := by
  cases reads with
  | string h => cases reads' with
    | string h' => exact .string ⟨_, h, h'⟩
  | number x => cases reads' with
    | number => exact .number rfl
  | boolean b => cases reads' with
    | boolean => exact .boolean b
  | bigint h => cases reads' with
    | bigint h' => exact .bigint ⟨_, h, h'⟩

/-- And so does a list of literals. -/
theorem LiteralExpr.mirrors_all {values : List LiteralExpr} {vs ws : List Literal}
    (reads : List.Forall₂ (LiteralExpr.Reads σ) values vs)
    (reads' : List.Forall₂ (LiteralExpr.Reads τ) values ws) :
    List.Forall₂ (Literal.Mirrors σ τ) vs ws := by
  induction reads generalizing ws with
  | nil =>
    cases reads'
    exact .nil
  | cons first _ ih => cases reads' with
    | cons first' rest' => exact .cons (first.mirrors first') (ih rest')

/-- Lists that are related have related last elements, or none. -/
theorem rel_getLast? {α β : Type} {R : α → β → Prop} {as : List α} {bs : List β}
    (h : List.Forall₂ R as bs) : Option.Rel R as.getLast? bs.getLast? := by
  have reversed := List.rel_reverse h
  rw [List.getLast?_eq_head?_reverse, List.getLast?_eq_head?_reverse]
  generalize as.reverse = as at reversed
  generalize bs.reverse = bs at reversed
  cases reversed with
  | nil => exact .none
  | cons first _ => exact .some first

namespace FieldExpr

/-- The last declaration of a name, with its field. -/
def last? (fs : List (FieldExpr × Field)) (name : String) : Option (FieldExpr × Field) :=
  (fs.filter (·.1.name == name)).getLast?

/-- The last declaration of a name is one of the declarations. -/
theorem mem_of_last? {fs : List (FieldExpr × Field)} {name : String}
    {f : FieldExpr × Field} (last : last? fs name = some f) :
    f ∈ fs ∧ f.1.name = name := by
  obtain ⟨mem, same⟩ := List.mem_filter.1 (List.mem_of_getLast? last)
  exact ⟨mem, by simpa using same⟩

/-- The fields that are left are those of the last declarations. -/
theorem mem_normalize {fs : List (FieldExpr × Field)} (once : σ.SpellsOnce)
    (declares : ∀ f ∈ fs, f.1.Declares σ f.2) {x : Field} :
    x ∈ Field.normalize (fs.map (·.2)) ↔ ∃ name f, last? fs name = some f ∧ f.2 = x := by
  -- fields have one name where their declarations do
  have same : ∀ f ∈ fs, fs.filter (·.2.name == f.2.name) = fs.filter (·.1.name == f.1.name) := by
    intro f hf
    refine List.filter_congr fun g hg => ?_
    have name := (declares f hf).name
    have name' := (declares g hg).name
    rw [Bool.eq_iff_iff, beq_iff_eq, beq_iff_eq]
    constructor
    · intro h
      rw [h] at name'
      exact Option.some.inj (name'.symm.trans name)
    · intro h
      rw [h] at name'
      exact once name' name
  rw [Field.mem_normalize, List.filter_map, List.getLast?_map, Option.map_eq_some_iff]
  constructor
  · rintro ⟨f, last, rfl⟩
    have hf := (List.mem_filter.1 (List.mem_of_getLast? last)).1
    exact ⟨f.1.name, f, (congrArg List.getLast? (same f hf)).symm.trans last, rfl⟩
  · rintro ⟨name, f, last, rfl⟩
    obtain ⟨hf, rfl⟩ := mem_of_last? last
    exact ⟨f, (congrArg List.getLast? (same f hf)).trans last, rfl⟩

/-- The last declarations of a name correspond. -/
theorem rel_last? {R : Expr → Expr → Prop} {fs gs : List (FieldExpr × Field)}
    {ds : List FieldExpr} (order : SameByName (fs.map (·.1)) ds)
    (h : List.Forall₂ (Alike R) ds (gs.map (·.1))) (name : String) :
    Option.Rel (fun f g => f.1.Alike R g.1) (last? fs name)
      (last? gs name) := by
  have each : List.Forall₂ (Alike R) (ds.filter (·.name == name))
      ((gs.map (·.1)).filter (·.name == name)) := by
    refine List.rel_filter (fun d e alike => ?_) h
    cases alike
    exact Iff.rfl
  rw [← order name, List.filter_map, List.filter_map, List.forall₂_map_left_iff,
    List.forall₂_map_right_iff] at each
  exact rel_getLast? each

/-- Fields that correspond name by name mirror each other. -/
theorem fields_mirror {fs gs : List (FieldExpr × Field)} {ds : List FieldExpr}
    (once : σ.SpellsOnce) (once' : τ.SpellsOnce) (declares : ∀ f ∈ fs, f.1.Declares σ f.2)
    (declares' : ∀ g ∈ gs, g.1.Declares τ g.2)
    (order : SameByName (fs.map (·.1)) ds)
    (h : List.Forall₂ (Alike Expr.Reorders) ds (gs.map (·.1)))
    (types : ∀ f ∈ fs, ∀ g ∈ gs, f.1.type.Reorders g.1.type → σ.Mirrors τ f.2.type g.2.type) :
    Matched (Field.Mirrors σ τ (σ.Mirrors τ)) (Field.normalize (fs.map (·.2)))
      (Field.normalize (gs.map (·.2))) := by
  -- Normalizing keeps the last declaration of each name. These are alike on both sides, since the
  -- order is free between different names only.
  have fields : ∀ f ∈ fs, ∀ g ∈ gs, f.1.Alike Expr.Reorders g.1 →
      f.2.Mirrors σ τ (σ.Mirrors τ) g.2 := by
    rintro ⟨d, f⟩ hf ⟨e, g⟩ hg alike
    have source := declares _ hf
    have target := declares' _ hg
    have type := types _ hf _ hg
    cases alike with
    | mk reorders =>
      exact ⟨⟨_, source.name, target.name⟩, source.optional.trans target.optional.symm,
        source.defaulted.trans target.defaulted.symm, type reorders⟩
  constructor
  · intro x hx
    obtain ⟨name, f, last, rfl⟩ := (mem_normalize once declares).1 hx
    have rel := rel_last? order h name
    rw [last] at rel
    generalize last' : last? gs name = y at rel
    cases rel with
    | @some _ g alike =>
      have hg := (mem_normalize once' declares').2 ⟨name, g, last', rfl⟩
      exact ⟨g.2, hg, fields f (mem_of_last? last).1 g (mem_of_last? last').1 alike⟩
  · intro y hy
    obtain ⟨name, g, last', rfl⟩ := (mem_normalize once' declares').1 hy
    have rel := rel_last? order h name
    rw [last'] at rel
    generalize last : last? fs name = x at rel
    cases rel with
    | @some f _ alike =>
      have hf := (mem_normalize once declares).2 ⟨name, f, last, rfl⟩
      exact ⟨f.2, hf, fields f (mem_of_last? last).1 g (mem_of_last? last').1 alike⟩

end FieldExpr

/-- Members that correspond in some order have handles that mirror each other. -/
theorem Expr.members_mirror {ps qs : List (Expr × Handle)} {es : List Expr}
    (perm : (ps.map (·.1)).Perm es) (h : List.Forall₂ Expr.Reorders es (qs.map (·.1)))
    (parts : ∀ p ∈ ps, ∀ q ∈ qs, p.1.Reorders q.1 → σ.Mirrors τ p.2 q.2) :
    Matched (σ.Mirrors τ) (ps.map (·.2)) (qs.map (·.2)) := by
  have matched := Matched.of_forall₂ h
  have pairs : Matched (fun p q => p.1.Reorders q.1) ps qs := by
    constructor
    · intro p hp
      obtain ⟨e, he, reorders⟩ := matched.left p.1 (perm.mem_iff.1 (List.mem_map_of_mem hp))
      obtain ⟨q, hq, rfl⟩ := List.mem_map.1 he
      exact ⟨q, hq, reorders⟩
    · intro q hq
      obtain ⟨e, he, reorders⟩ := matched.right q.1 (List.mem_map_of_mem hq)
      obtain ⟨p, hp, rfl⟩ := List.mem_map.1 (perm.mem_iff.2 he)
      exact ⟨p, hp, reorders⟩
  exact pairs.map parts

/-- Items that are reordered one by one mirror each other one by one. -/
theorem Expr.items_mirror {ps qs : List (Expr × Handle)}
    (h : List.Forall₂ Expr.Reorders (ps.map (·.1)) (qs.map (·.1)))
    (parts : ∀ p ∈ ps, ∀ q ∈ qs, p.1.Reorders q.1 → σ.Mirrors τ p.2 q.2) :
    List.Forall₂ (σ.Mirrors τ) (ps.map (·.2)) (qs.map (·.2)) := by
  rw [List.forall₂_map_left_iff, List.forall₂_map_right_iff] at h ⊢
  exact forall₂_imp h parts

/-- **CALLS FOR EXPRESSIONS IN ANOTHER ORDER MIRROR EACH OTHER**, where the parts do. -/
theorem Expr.Calls.mirrors (once : σ.SpellsOnce) (once' : τ.SpellsOnce) {e e' : Expr}
    {ps qs : List (Expr × Handle)} {c : Call ρ} {c' : Call ρ'} (calls : e.Calls σ ps c)
    (calls' : e'.Calls τ qs c') (same : e.Reorders e')
    (parts : ∀ p ∈ ps, ∀ q ∈ qs, p.1.Reorders q.1 → σ.Mirrors τ p.2 q.2) : c.Mirrors σ τ c' := by
  -- One case for each way to reorder; the two calls must be of its constructor.
  have part : ∀ {x y a b}, (x, a) ∈ ps → (y, b) ∈ qs → x.Reorders y → σ.Mirrors τ a b :=
    fun hx hy => parts _ hx _ hy
  cases same with
  | handle => cases calls
  | literal value => cases calls with
    | literal reads => cases calls' with
      | literal reads' => exact .literal (reads.mirrors reads')
  | enumeration values => cases calls with
    | enumeration reads => cases calls' with
      | enumeration reads' => exact .enumeration (LiteralExpr.mirrors_all reads reads')
  | stringEnumeration texts => cases calls with
    | stringEnumeration reads => cases calls' with
      | stringEnumeration reads' => exact .enumeration (LiteralExpr.mirrors_all reads reads')
  | array inner => cases calls with
    | array => cases calls' with
      | array => exact .array (part List.mem_cons_self List.mem_cons_self inner)
  | set inner => cases calls with
    | set => cases calls' with
      | set => exact .set (part List.mem_cons_self List.mem_cons_self inner)
  | promise inner => cases calls with
    | promise => cases calls' with
      | promise => exact .promise (part List.mem_cons_self List.mem_cons_self inner)
  | record hk hv => cases calls with
    | record => cases calls' with
      | record =>
        exact .record (part (by simp) (by simp) hk) (part (by simp) (by simp) hv)
  | map hk hv => cases calls with
    | map => cases calls' with
      | map => exact .map (part (by simp) (by simp) hk) (part (by simp) (by simp) hv)
  | tuple each => cases calls with
    | tuple ps => cases calls' with
      | tuple qs => exact .tuple ⟨Expr.items_mirror each parts, .none⟩
  | tupleWithRest each hr => cases calls with
    | tupleWithRest ps => cases calls' with
      | tupleWithRest qs =>
        have items := Expr.items_mirror each fun p hp q hq =>
          parts p (by simp [hp]) q (by simp [hq])
        exact .tuple ⟨items, .some (part (by simp) (by simp) hr)⟩
  | function each hr => cases calls with
    | function ps => cases calls' with
      | function qs =>
        have items := Expr.items_mirror each fun p hp q hq =>
          parts p (by simp [hp]) q (by simp [hq])
        exact .function ⟨⟨items, .none⟩, part (by simp) (by simp) hr⟩
  | functionWithRest each hr hx => cases calls with
    | functionWithRest ps => cases calls' with
      | functionWithRest qs =>
        have items := Expr.items_mirror each fun p hp q hq =>
          parts p (by simp [hp]) q (by simp [hq])
        exact .function ⟨⟨items, .some (part (by simp) (by simp) hx)⟩,
          part (by simp) (by simp) hr⟩
  -- the fields are matched after normalizing, by name
  | object order each => cases calls with
    | object fs declares => cases calls' with
      | object gs declares' =>
        refine .object (FieldExpr.fields_mirror once once' declares declares' order each ?_) .none
        exact fun f hf g hg => part (List.mem_map_of_mem hf) (List.mem_map_of_mem hg)
  | indexedObject order each hk hv => cases calls with
    | indexedObject fs declares => cases calls' with
      | indexedObject gs declares' =>
        refine .object (FieldExpr.fields_mirror once once' declares declares' order each ?_)
          (.some ⟨part (by simp) (by simp) hk, part (by simp) (by simp) hv⟩)
        exact fun f hf g hg => part (List.mem_append_left _ (List.mem_map_of_mem hf))
          (List.mem_append_left _ (List.mem_map_of_mem hg))
  -- members are matched in any order, since the store sorts them
  | union perm each => cases calls with
    | union ps => cases calls' with
      | union qs => exact .joint .union (Expr.members_mirror perm each parts)
  | intersection perm each => cases calls with
    | intersection ps => cases calls' with
      | intersection qs => exact .joint .intersection (Expr.members_mirror perm each parts)
  | branded inner => cases calls with
    | branded => cases calls' with
      | branded => exact .branded (part List.mem_cons_self List.mem_cons_self inner)

namespace Store

/-- **MADE OF EXPRESSIONS IN ANOTHER ORDER, HANDLES MIRROR EACH OTHER.** -/
theorem Reads.mirrors (once : σ.SpellsOnce) (once' : τ.SpellsOnce) {e e' : Expr} {h g : Handle}
    (reads : σ.Reads e h) (reads' : τ.Reads e' g) (same : e.Reorders e') : σ.Mirrors τ h g := by
  -- on how the first one is read; the other must be read by the call that is reordered
  induction reads generalizing e' g with
  | builtIn k hh =>
    subst hh
    cases same
    cases reads' with
    | builtIn => exact mirrors_handle σ τ k
    | call calls => cases calls
  | call calls parts shows ih =>
    cases reads' with
    | builtIn =>
      cases same
      cases calls
    | call calls' parts' shows' =>
      refine shows.mirrors once once' shows' (calls.mirrors once once' calls' same ?_)
      exact fun p hp q hq reorders => ih p hp (parts' q hq) reorders

end Store

end

/-! ## §4. One handle in one store -/

section

variable {σ : Store ρ} {e e' : Expr} {h g : Handle}

/-- An expression reorders itself if all its parts do. -/
theorem Expr.Calls.reorders_self {ps : List (Expr × Handle)} {c : Call ρ} (calls : e.Calls σ ps c)
    (parts : ∀ p ∈ ps, p.1.Reorders p.1) : e.Reorders e := by
  have part : ∀ x ∈ e.parts, x.Reorders x := by
    intro x hx
    rw [calls.parts_eq] at hx
    obtain ⟨p, hp, rfl⟩ := List.mem_map.1 hx
    exact parts p hp
  have items : ∀ es : List Expr, (∀ x ∈ es, x ∈ e.parts) → List.Forall₂ Expr.Reorders es es :=
    fun es inner => List.forall₂_same.2 fun x hx => part x (inner x hx)
  have fields : ∀ ds : List FieldExpr, (∀ d ∈ ds, d.type ∈ e.parts) →
      List.Forall₂ (FieldExpr.Alike Expr.Reorders) ds ds := by
    refine fun ds inner => List.forall₂_same.2 fun d hd => ?_
    have type := part d.type (inner d hd)
    cases d
    exact .mk type
  -- with the parts written out, each constructor finds its own among them
  unfold Expr.parts at part items fields
  cases calls with
  | literal => exact .literal _
  | enumeration => exact .enumeration _
  | stringEnumeration => exact .stringEnumeration _
  | array => exact .array (part _ (by simp))
  | set => exact .set (part _ (by simp))
  | promise => exact .promise (part _ (by simp))
  | record => exact .record (part _ (by simp)) (part _ (by simp))
  | map => exact .map (part _ (by simp)) (part _ (by simp))
  | tuple => exact .tuple (items _ (by simp))
  | tupleWithRest => exact .tupleWithRest (items _ (by simp +contextual)) (part _ (by simp))
  | function => exact .function (items _ (by simp +contextual)) (part _ (by simp))
  | functionWithRest =>
    exact .functionWithRest (items _ (by simp +contextual)) (part _ (by simp)) (part _ (by simp))
  | object => exact .object (fun _ => rfl) (fields _ fun d hd => List.mem_map_of_mem hd)
  | indexedObject =>
    exact .indexedObject (fun _ => rfl)
      (fields _ fun d hd => List.mem_append_left _ (List.mem_map_of_mem hd)) (part _ (by simp))
      (part _ (by simp))
  | union => exact .union (.refl _) (items _ (by simp))
  | intersection => exact .intersection (.refl _) (items _ (by simp))
  | branded => exact .branded (part _ (by simp))

namespace Store

/-- Every expression that is read reorders itself. -/
theorem Reads.reorders_self (reads : σ.Reads e h) : e.Reorders e := by
  induction reads with
  | builtIn => exact .handle _
  | call calls _ _ ih => exact calls.reorders_self ih

/-- **IN ONE STORE, EXPRESSIONS IN ANOTHER ORDER HAVE ONE HANDLE.** -/
theorem Made.unique {assign : String → Fin 64} (begins : (Store.new assign).Evolves σ)
    (made : σ.Made e h) (made' : σ.Made e' g) (same : e.Reorders e') : h = g := by
  have once : σ.SpellsOnce := spellsOnce_of_evolves begins
  have itself := made.reads.mirrors once once made.reads made.reads.reorders_self
  exact itself.unique once (made.reads.mirrors once once made'.reads same)

end Store

end

/-! ## §5. One answer in both stores -/

section

variable {run : Runner ρ} {run' : Runner ρ'} {assign assign' : String → Fin 64}
  {σ : Store ρ} {τ : Store ρ'} {policy : Policy} {s t s' t' : Handle} {d e d' e' : Expr}

variable (run run' policy) in
/-- Handles that mirror each other, where no record has a number among its keys, go on in parallel
through their parts. -/
theorem Store.abreast_mirrors (once : σ.SpellsOnce) (once' : τ.SpellsOnce) :
    (View.of run σ policy.flags).Abreast (View.of run' τ policy.flags) fun a b =>
      σ.Mirrors τ a b ∧ ¬ σ.HasNumberKeys a where
  flags := rfl
  once := once
  once' := once'
  nodes := by
    rintro a b ⟨mirrors, named⟩
    obtain ⟨n, m, hn, hm, parts⟩ := mirrors.nodes
    refine ⟨n, m, hn, hm, parts.imp fun x hx y _ hxy => ⟨hxy, fun keys => named (.part ?_ keys)⟩⟩
    rw [parts_of_node hn]
    exact hx
  one := fun hac hbd => Mirrors.eq_iff once once' hac.1 hbd.1
  named := fun h hn lists => h.2 (.record hn lists)

/-- **THE ORDER OF BUILDING DOES NOT MATTER.**  Expressions that are the same up to the order of
members and fields, without records that have a number among their keys, are made in two stores.
Whatever else was done with the stores, the handles are assignable in one exactly where they are in
the other, as long as no limit is hit: neither that of a comparison nor that of a shard of names. -/
theorem Store.assignable_eq_of_reorders (begins : (Store.new assign).Evolves σ)
    (begins' : (Store.new assign').Evolves τ) (source : σ.Made d s) (target : σ.Made e t)
    (source' : τ.Made d' s') (target' : τ.Made e' t') (same : d.Reorders d') (same' : e.Reorders e')
    (named : ¬ d.HasNumberKeys ∧ ¬ e.HasNumberKeys)
    (within : (Store.relate run policy .assignable s t σ).1.exceeded = false)
    (within' : (Store.relate run' policy .assignable s' t' τ).1.exceeded = false) :
    (Store.assignable run policy s t σ).1 = (Store.assignable run' policy s' t' τ).1 := by
  -- Both stores spell each text once, so the types mirror each other and fit alike. Without
  -- lazies the findings are what fits.
  have once : σ.SpellsOnce := spellsOnce_of_evolves begins
  have once' : τ.SpellsOnce := spellsOnce_of_evolves begins'
  have sources := source.reads.mirrors once once' source'.reads same
  have targets := target.reads.mirrors once once' target'.reads same'
  have fits : (View.of run σ policy.flags).Fits s t ↔ (View.of run' τ policy.flags).Fits s' t' :=
    (abreast_mirrors run run' policy once once').fits_iff
      ⟨sources, source.reads.not_hasNumberKeys named.1⟩
      ⟨targets, target.reads.not_hasNumberKeys named.2⟩
      sources.lazyFree targets.lazyFree sources.flip.lazyFree targets.flip.lazyFree
  have decided := relate_iff sources.lazyFree.atRest targets.lazyFree.atRest within
  have decided' := relate_iff sources.flip.lazyFree.atRest targets.flip.lazyFree.atRest within'
  rw [View.relates_assignable] at decided decided'
  show (Store.relate run policy .assignable s t σ).1.related
    = (Store.relate run' policy .assignable s' t' τ).1.related
  rw [Bool.eq_iff_iff, decided, decided', fits]

/-- Objects with a name, and an age that may be left out, in either order. -/
def Expr.person (byAge : Bool) : Expr :=
  let name := .mk "name" (.handle Intrinsic.string.handle) .required
  let age := .mk "age" (.handle Intrinsic.number.handle) .optional
  .object (if byAge then [age, name] else [name, age])

/-- The parts of a person are built-in types. -/
theorem Expr.parts_person (byAge : Bool) : ∀ p ∈ (person byAge).parts, ∃ k : Intrinsic,
    p = .handle k.handle := by
  have each : ∀ p ∈ [Expr.handle Intrinsic.string.handle, .handle Intrinsic.number.handle],
      ∃ k : Intrinsic, p = .handle k.handle :=
    List.forall_mem_cons.2 ⟨⟨_, rfl⟩, List.forall_mem_singleton.2 ⟨_, rfl⟩⟩
  cases byAge with
  | false => exact each
  | true => exact fun p hp => each p ((List.Perm.swap _ _ _).subset hp)

/-- The two ways to write a person down differ in their order. -/
theorem Expr.reorders_person (byAge : Bool) : (person byAge).Reorders (person !byAge) := by
  have alike : ∀ {name k presence}, FieldExpr.Alike Expr.Reorders
      (.mk name (.handle (Intrinsic.handle k)) presence)
      (.mk name (.handle (Intrinsic.handle k)) presence) := .mk (.handle _)
  have distinct : ∀ (p q : FieldExpr), p.name ≠ q.name → FieldExpr.SameByName [p, q] [q, p] :=
    fun p q apart => FieldExpr.sameByName_of_perm (.swap q p []) (by simpa using apart)
  cases byAge <;> exact .object (distinct _ _ (by decide)) (.cons alike (.cons alike .nil))

/-- A person is written down without lazies. -/
theorem Expr.isPlain_person (byAge : Bool) : (person byAge).IsPlain := by
  refine .constructed (by cases byAge <;> rfl) fun p hp => ?_
  obtain ⟨k, rfl⟩ := parts_person byAge p hp
  exact .builtIn k

/-- A person has no number keys. -/
theorem Expr.not_hasNumberKeys_person (byAge : Bool) : ¬ (person byAge).HasNumberKeys := by
  intro keys
  generalize he : person byAge = e at keys
  cases keys with
  | record => cases byAge <;> cases he
  | part hp keys =>
    subst he
    obtain ⟨k, rfl⟩ := parts_person byAge _ hp
    cases keys with
    | part hp => cases hp

/-- An array is plain where its element is. -/
theorem Expr.isPlain_array {e : Expr} (plain : e.IsPlain) : (Expr.array e).IsPlain := by
  refine .constructed rfl fun p hp => ?_
  obtain rfl := List.mem_singleton.1 hp
  exact plain

/-- An array has number keys only where its element has. -/
theorem Expr.not_hasNumberKeys_array {e : Expr} (named : ¬ e.HasNumberKeys) :
    ¬ (Expr.array e).HasNumberKeys := by
  intro keys
  cases keys with
  | part hp keys =>
    obtain rfl := List.mem_singleton.1 hp
    exact named keys

/-- Lists of anything. -/
def Expr.list : Expr := .array (.handle .unknown)

/-- A list of anything is plain. -/
theorem Expr.isPlain_list : list.IsPlain := isPlain_array (.builtIn .unknown)

/-- A list of anything has no number keys. -/
theorem Expr.not_hasNumberKeys_list : ¬ list.HasNumberKeys := by
  refine not_hasNumberKeys_array fun keys => ?_
  cases keys with
  | part hp => cases hp

/-- There is room for the names of the fields. -/
theorem Expr.hasRoom_people {assign : String → Fin 64} {υ : Store Recipe} (texts : List String)
    (few : texts.length ≤ 1)
    (strings : υ.strings = (Store.new assign : Store Recipe).strings.internAll texts) (x : Bool) :
    (list.build {} none ((Expr.array (person x)).build {} none υ).2).2.HasRoom := by
  let names : List String := if x then ["age", "name"] else ["name", "age"]
  have each : (list.build {} none ((Expr.array (person x)).build {} none υ).2).2.strings
      = υ.strings.internAll names := by
    cases x <;> rfl
  have two : names.length = 2 := by cases x <;> rfl
  have common : Pool.commonNames.length + 3 < Pool.lastPlace := by decide
  refine Store.HasRoom.of_strings (texts ++ names) ?_ (?_ : _ = (Store.new assign).strings.internAll _)
  · rw [List.length_append, two]
    omega
  · rw [each, strings]
    unfold Pool.internAll
    rw [List.foldl_append]

/-- A made array stands in the store, with its element. -/
theorem Store.Made.node?_of_array {σ : Store ρ} {e : Expr} {h : Handle}
    (made : σ.Made (.array e) h) : ∃ g, σ.Reads e g ∧ σ.node? h = some (.array g) := by
  cases made.reads with
  | call calls parts shows =>
    cases calls with
    | array e g => exact ⟨g, parts (e, g) (List.mem_singleton_self _), shows⟩

/-- Lists fit lists of anything, as their elements are known to fit at once. -/
theorem Store.relate_list (run : Runner ρ) {σ : Store ρ} {s t : Handle} {e : Expr}
    (source : σ.Made (.array e) s) (target : σ.Made .list t) :
    (relate run {} .assignable s t σ).1 = ⟨.assignable, true, false⟩ := by
  let v := View.of run σ {}
  obtain ⟨g, -, hs⟩ := source.node?_of_array
  obtain ⟨u, anything, ht⟩ := target.node?_of_array
  obtain rfl : u = .unknown := by
    cases anything with
    | builtIn => rfl
    | call calls => cases calls
  by_cases same : s = t
  · exact relate_of_atOnce? (View.AtOnce.self (v := v) same).atOnce?
  · let w : Inquiry ρ := ⟨σ, .new {}⟩
    have unknown : w.known? s t = none := by
      have apart : σ.atOnce? {} s t = none :=
        View.atOnce?_eq_none (v := v) hs nofun nofun ht nofun same
      unfold Inquiry.known?
      rw [show w.store.atOnce? w.checker.flags s t = none from apart]
      exact Std.HashMap.getElem?_empty
    -- anything is an `unknown`, and that is known without a rule
    have elements : Runs run (.pair g .unknown) (w.opened (s, t) w.checker.guard.counting.attempts)
        [] .holds _ := .known (b := true) rfl
    have course : Runs run (.pair s t) w _ _ _ := .opened unknown Std.HashMap.getElem?_empty
      (Nat.succ_pos _) (Nat.le_trans (Nat.min_le_left 1 _) (Nat.succ_pos _))
      (runs_rule_lists hs ht elements)
    obtain ⟨trace, checked⟩ : ∃ trace, Runs run (.pair s t) w trace (check run s t w).1
        (check run s t w).2 := runs_compareWithin _ s t w (Nat.zero_add _).symm
    obtain ⟨rfl, answer, -⟩ := checked.unique course
    let inner := w.opened (s, t) w.checker.guard.counting.attempts
    have holds : (Inquire.update (Checker.conclude (s, t) w.checker.assumption .holds) inner).1
        = .holds := Checker.conclude_holds (s, t) w.checker.assumption inner.checker
    rw [relate_fst, holds_assignable, answer, checked.exceeded, holds]
    rfl

/-- And they are other lists, if their elements are objects. -/
theorem Store.ne_list {σ : Store ρ} {s t : Handle} {ds : List FieldExpr}
    (source : σ.Made (.array (.object ds)) s) (target : σ.Made .list t) : s ≠ t := by
  rintro rfl
  obtain ⟨g, object, hs⟩ := source.node?_of_array
  obtain ⟨u, anything, ht⟩ := target.node?_of_array
  obtain rfl := Node.array.inj (Option.some.inj (hs.symm.trans ht))
  cases object with
  | call calls _ shows =>
    cases calls with
    | object =>
      obtain ⟨o, node, -⟩ := shows
      cases anything with
      | builtIn => cases node.symm.trans (σ.node?_handle .unknown)
      | call calls => cases calls

/-- The order of the fields does not matter, nor what is interned before them: in either store lists of
persons are found to be lists of anything, which are others. -/
theorem Store.assignable_eq_of_reorders_people :
    let run := Scope.run {}
    let source := (Expr.array (.person false)).build {} none (Store.new fun _ => 0)
    let target := Expr.list.build {} none source.2
    let before := (Store.internText "age" (Store.new fun _ => 1)).2
    let lists := (Expr.array (.handle Intrinsic.boolean.handle)).build {} none before
    let source' := (Expr.array (.person true)).build {} none lists.2
    let target' := Expr.list.build {} none source'.2
    source.1 ≠ target.1 ∧ source'.1 ≠ target'.1 ∧
      (Store.relate run {} .assignable source.1 target.1 target.2).1.exceeded = false ∧
      (Store.relate run {} .assignable source'.1 target'.1 target'.2).1.exceeded = false ∧
      (Store.assignable run {} source.1 target.1 target.2).1
        = (Store.assignable run {} source'.1 target'.1 target'.2).1 := by
  intro run source target before lists source' target'
  have plain : ∀ byAge, (Expr.array (.person byAge)).IsPlain := fun byAge =>
    Expr.isPlain_array (Expr.isPlain_person byAge)
  have named : ¬ (Expr.array (.person false)).HasNumberKeys :=
    Expr.not_hasNumberKeys_array (Expr.not_hasNumberKeys_person false)
  have start : (Store.new fun _ => 0).Evolves (Store.new fun _ => 0 : Store Recipe) := .refl _
  have earlier : ∀ υ : Store Recipe, υ.Evolves ((Expr.array
      (.handle Intrinsic.boolean.handle)).build {} none (Store.internText "age" υ).2).2 := fun υ =>
    ((Store.Evolves.refl υ).call (.text "age")).call (.array Intrinsic.boolean.handle)
  have texts : ∀ υ : Store Recipe, ((Expr.array (.handle Intrinsic.boolean.handle)).build {} none
      (Store.internText "age" υ).2).2.strings = υ.strings.internAll ["age"] := fun _ => rfl
  obtain ⟨begins, hs, ht⟩ := Expr.made_both (plain false) Expr.isPlain_list {} start
    (Expr.hasRoom_people [] (by decide) List.foldl_nil.symm false)
  obtain ⟨begins', hs', ht'⟩ := Expr.made_both (plain true) Expr.isPlain_list {} (earlier _)
    (Expr.hasRoom_people ["age"] (by decide) (texts _) true)
  -- all of this holds of what was made, in whatever way
  have related : ∀ {assign assign' : String → Fin 64} {υ υ' : Store Recipe} {s t s' t' : Handle},
      (Store.new assign).Evolves υ → υ.Made (.array (.person false)) s → υ.Made .list t →
      (Store.new assign').Evolves υ' → υ'.Made (.array (.person true)) s' → υ'.Made .list t' →
      s ≠ t ∧ s' ≠ t' ∧ (Store.relate run {} .assignable s t υ).1.exceeded = false ∧
        (Store.relate run {} .assignable s' t' υ').1.exceeded = false ∧
        (Store.assignable run {} s t υ).1 = (Store.assignable run {} s' t' υ').1 := by
    intro assign assign' υ υ' s t s' t' begun source target begun' source' target'
    have within := congrArg Finding.exceeded (Store.relate_list run source target)
    have within' := congrArg Finding.exceeded (Store.relate_list run source' target')
    exact ⟨Store.ne_list source target, Store.ne_list source' target', within, within',
      Store.assignable_eq_of_reorders begun begun' source target source' target'
        (.array (Expr.reorders_person false)) (.array (.handle .unknown))
        ⟨named, Expr.not_hasNumberKeys_list⟩ within within'⟩
  exact related begins hs ht begins' hs' ht'

end

end Assignability
