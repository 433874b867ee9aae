/-
  Assignability.Proofs.Relation.Recursive
  ───────────────────────────────────────
  **UNGUARDED RECURSION.**

  A lazy node may stand for a union that has the node itself among its
  members, or for such an intersection.  A pair that comes back is
  assumed to hold, and here a pair comes back before anything else was
  compared: so every source fits the union, and the intersection fits
  every target, whatever the other members are.

  Main statements:
    • `fits_of_recursiveUnion`, `fits_of_recursiveIntersection` — once the
      node is resolved,
    • `check_of_resolve` — a comparison resolves its lazy nodes first, so
      it goes on as if they had been resolved before,
    • `relate_recursive` — and so the checker finds.
-/
import Assignability.Proofs.Checker.Finding
import Assignability.Proofs.Checker.Replay
import Assignability.Proofs.Relation.Closed
import Assignability.Proofs.Store.Normal

namespace Assignability

variable {ρ : Type}

namespace View

variable {v : View ρ} {s t l u : Handle} {source target : Node} {k : ListId} {d : LazyId}

/-! ## §1. Unions and intersections with themselves among their members -/

/-- **EVERY SOURCE FITS A UNION WITH ITSELF AMONG ITS MEMBERS.** -/
theorem fits_of_recursiveUnion (hl : v.store.node? l = some (.lazy d)) (stands : v.stands l = u)
    (hu : v.store.node? u = some (.union k)) (hm : l ∈ v.store.list k)
    (hs : v.store.MadeOf (!·.isLazy) s) : v.Fits s l := by
  -- a built source with the lazy node or with its union: no rule leads out of these pairs
  refine fits_of_closed (fun x y => v.store.MadeOf (!·.isLazy) x ∧ (y = l ∨ y = u)) ?_
    ⟨hs, .inl rfl⟩
  rintro fits granted x y ⟨made, hy⟩
  obtain ⟨source, hx, notLazy, parts⟩ := made.node
  rw [Bool.not_eq_true'] at notLazy
  rcases hy with rfl | rfl
  · refine justifies_of_lazy hx hl (by rw [notLazy]; rfl) ?_
    rw [stands_of_node hx notLazy, stands]
    exact granted x u ⟨made, .inr rfl⟩
  · cases ha : v.store.alternatives? source with
    | some members =>
      refine justifies_alternatives hx hu rfl ha fun m mem => ?_
      exact granted m _ ⟨parts m (Store.mem_components_of_alternatives? ha mem), .inr rfl⟩
    | none =>
      exact justifies_into_alternatives hx hu notLazy ha rfl hm (granted x l ⟨made, .inl rfl⟩)

/-- **AN INTERSECTION WITH ITSELF AMONG ITS MEMBERS FITS EVERY TARGET.** -/
theorem fits_of_recursiveIntersection (hl : v.store.node? l = some (.lazy d))
    (stands : v.stands l = u) (hu : v.store.node? u = some (.intersection k))
    (hm : l ∈ v.store.list k) (ht : v.store.MadeOf (!·.isLazy) t) : v.Fits l t := by
  -- by coinduction: the node goes to the intersection, and this back to its member, the node
  refine fits_of_closed (fun x y => (x = l ∨ x = u) ∧ v.store.MadeOf (!·.isLazy) y) ?_
    ⟨.inl rfl, ht⟩
  rintro fits granted x y ⟨hx, made⟩
  obtain ⟨target, hy, notLazy, parts⟩ := made.node
  rw [Bool.not_eq_true'] at notLazy
  rcases hx with rfl | rfl
  · refine justifies_of_lazy hl hy rfl ?_
    rw [stands_of_node hy notLazy, stands]
    exact granted u y ⟨.inr rfl, made⟩
  · by_cases it : target.kind = .intersection
    · obtain ⟨j, rfl⟩ : ∃ j, target = .intersection j := by
        cases target <;> first | exact ⟨_, rfl⟩ | cases it
      refine justifies_into_intersection hu hy rfl rfl fun m mem => ?_
      exact granted _ m ⟨.inr rfl, parts m mem⟩
    · exact justifies_intersection hu hy notLazy it hm (granted l y ⟨.inl rfl, made⟩)

end View

/-! ## §2. Resolving a lazy node -/

namespace Store

variable {run : Runner ρ} {σ τ : Store ρ} {l u : Handle} {d : LazyId}

/-- A lazy node that stands for what a step of building gives: the step is to be carried out yet, or
was and would give the same again. -/
def Defines (run : Runner ρ) (σ : Store ρ) (l : Handle) (build : Build ρ Handle) : Prop :=
  ∃ d, σ.node? l = some (.lazy d) ∧
    ((∃ resolver, σ.definitions.get? d = some ⟨some resolver, none⟩ ∧ run resolver = build) ∨
      ∃ u, σ.definitions.resolution? d = some u ∧ build σ = (u, σ))

/-- A definition that gives a handle that is not lazy ends the chain. -/
theorem resolve_of_force (hl : σ.node? l = some (.lazy d)) (hf : force run d σ = (some u, τ))
    (hu : τ.lazyId? u = none) : resolve run l σ = (u, τ) := by
  have chain : destination? run d σ = (some u, τ) := by
    unfold destination? longestChain follow
    rw [if_neg List.not_mem_nil, bind_apply, hf]
    dsimp only
    rw [bind_apply, get_apply]
    dsimp only
    rw [hu]
    rfl
  rw [resolve_of_lazy run (lazyId?_of_node hl), chain]
  rfl

/-- A lazy node whose resolution is on record. -/
theorem resolve_of_resolution (hl : σ.node? l = some (.lazy d))
    (hr : σ.definitions.resolution? d = some u) (hu : σ.lazyId? u = none) :
    resolve run l σ = (u, σ) := by
  refine resolve_of_force hl ?_ hu
  rw [force_of_settled (.inl (by rw [hr]; rfl)), hr]

/-- What comes of resolving a lazy node for a joined type. -/
structure Stands (run : Runner ρ) (σ : Store ρ) (l : Handle) (constructor : ListId → Node)
    (members : List Handle) (u : Handle) (τ : Store ρ) : Prop where
  resolved : resolve run l σ = (u, τ)
  grows : σ.Grows τ
  definition : ∃ d, τ.node? l = some (.lazy d) ∧ τ.definitions.resolution? d = some u
  node : ∃ k, τ.node? u = some (constructor k) ∧ ∀ m, m ∈ τ.list k ↔ m ∈ members

/-- A defined lazy node stands for the union or intersection that its resolver joins. -/
theorem Defines.stands {build : Build ρ Handle} {constructor : ListId → Node}
    {members : List Handle} (hl : Defines run σ l build)
    (joins : σ.Joins constructor members (build σ))
    (notLazy : ∀ k, (constructor k).isLazy = false) :
    ∃ u τ, Stands run σ l constructor members u τ := by
  obtain ⟨d, hd, pending⟩ := hl
  obtain ⟨k, ms, hu, hk, same⟩ := joins.node
  rcases pending with ⟨resolver, hr, rfl⟩ | ⟨u, hr, hb⟩
  · -- the result goes on record, and no table changes with that
    refine ⟨(run resolver σ).1, (recordResolution d (run resolver σ).1 (run resolver σ).2).2, ?_⟩
    have record : ((run resolver σ).2.definitions.settle d (run resolver σ).1).resolution? d
        = some (run resolver σ).1 := by
      rw [Definitions.resolution?_settle, joins.definitions, hr]
      rfl
    have forced : force run d σ = (_, _) := force_of_pending hr
    rw [record] at forced
    have grows := joins.grows.trans (grows_recordResolution d (run resolver σ).1 (run resolver σ).2)
    exact ⟨resolve_of_force hd forced (lazyId?_of_notLazy hu (notLazy k)), grows,
      ⟨d, grows.node? hd, record⟩, k, hu, fun m => by
        show m ∈ ((run resolver σ).2.lists.get? k.number).getD [] ↔ _
        rw [hk]
        exact same m⟩
  · rw [hb] at hu hk
    refine ⟨u, σ, resolve_of_resolution hd hr (lazyId?_of_notLazy hu (notLazy k)), .refl σ,
      ⟨d, hd, hr⟩, k, hu, fun m => ?_⟩
    show m ∈ (σ.lists.get? k.number).getD [] ↔ _
    rw [hk]
    exact same m

end Store

/-! ## §3. A comparison resolves first -/

section

variable {run : Runner ρ} {s t x y : Handle} {source target : Node} {σ σ' τ : Store ρ}

/-- The step of a lazy pair goes on with what both sides resolve to. -/
theorem answer_step_of_resolve {related : Handle → Handle → Inquire ρ Answer} {c : Checker}
    (hs : σ.node? s = some source) (ht : σ.node? t = some target)
    (lazy : (source.isLazy || target.isLazy) = true)
    (hx : Store.resolve run s σ = (x, σ')) (hy : Store.resolve run t σ' = (y, τ)) (flags : Flags) :
    answer run related (Query.step flags s t) ⟨σ, c⟩ = related x y ⟨τ, c⟩ := by
  have read : answer run related Query.store ⟨σ, c⟩ = (σ, ⟨σ, c⟩) := rfl
  unfold Query.step
  rw [Query.bind_eq, answer_bind, read]
  dsimp only
  rw [hs, ht]
  dsimp only
  rw [if_pos lazy, Query.bind_eq, answer_bind, Query.bind_eq, answer_bind]
  show answer run related (Query.related (Store.resolve run s σ).1
    (Store.resolve run t (Store.resolve run s σ).2).1)
      ⟨(Store.resolve run t (Store.resolve run s σ).2).2, c⟩ = _
  rw [hx]
  dsimp only
  rw [hy]
  rfl

/-- Comparing from one store or from the other comes to the same where the pair is known in both or
in neither, and its rule goes the same way. -/
theorem compareWith_congr {step : Flags → Handle → Handle → Inquire ρ Answer}
    (known : ∀ flags, σ.atOnce? flags s t = τ.atOnce? flags s t)
    (same : ∀ flags c, (step flags s t ⟨σ, c⟩).1 = (step flags s t ⟨τ, c⟩).1 ∧
      (step flags s t ⟨σ, c⟩).2.checker = (step flags s t ⟨τ, c⟩).2.checker) (c : Checker) :
    (compareWith step s t ⟨σ, c⟩).1 = (compareWith step s t ⟨τ, c⟩).1 ∧
      (compareWith step s t ⟨σ, c⟩).2.checker = (compareWith step s t ⟨τ, c⟩).2.checker := by
  -- nothing but the two parts is read: what is known at once, and the step
  have hk : (⟨σ, c⟩ : Inquiry ρ).known? s t = (⟨τ, c⟩ : Inquiry ρ).known? s t := by
    unfold Inquiry.known?
    rw [known]
  cases h : (⟨τ, c⟩ : Inquiry ρ).known? s t with
  | some b =>
    unfold compareWith
    rw [hk, h]
    exact ⟨rfl, rfl⟩
  | none =>
    rw [compareWith_of_unknown (hk.trans h), compareWith_of_unknown h]
    obtain ⟨entry, c'⟩ := c.enter (s, t)
    cases entry with
    | cycle | tooDeep | exhausted => exact ⟨rfl, rfl⟩
    | entered =>
      have ends := same c'.setAside.2.flags c'.setAside.2
      show (Inquire.update _ (step _ s t ⟨σ, c'.setAside.2⟩).2).1
          = (Inquire.update _ (step _ s t ⟨τ, c'.setAside.2⟩).2).1 ∧
        (Inquire.update _ (step _ s t ⟨σ, c'.setAside.2⟩).2).2.checker
          = (Inquire.update _ (step _ s t ⟨τ, c'.setAside.2⟩).2).2.checker
      unfold Inquire.update
      dsimp only
      rw [ends.1, ends.2]
      exact ⟨rfl, rfl⟩

/-- **A COMPARISON RESOLVES ITS LAZY NODES FIRST**, so it goes on as if they had been resolved
before. -/
theorem check_of_resolve (grows : σ.Grows τ) (hs : σ.node? s = some source)
    (ht : σ.node? t = some target) (lazy : (source.isLazy || target.isLazy) = true)
    (hx : Store.resolve run s σ = (x, σ')) (hy : Store.resolve run t σ' = (y, τ))
    (hx' : Store.resolve run s τ = (x, τ)) (hy' : Store.resolve run t τ = (y, τ)) (c : Checker) :
    (check run s t ⟨σ, c⟩).1 = (check run s t ⟨τ, c⟩).1 ∧
      (check run s t ⟨σ, c⟩).2.checker = (check run s t ⟨τ, c⟩).2.checker := by
  have hs' := grows.node? hs
  have ht' := grows.node? ht
  have known := atOnce?_congr (hs.trans hs'.symm) (ht.trans ht'.symm)
  show (compareWithin run c.guard.limits.depth s t ⟨σ, c⟩).1
      = (compareWithin run c.guard.limits.depth s t ⟨τ, c⟩).1 ∧
    (compareWithin run c.guard.limits.depth s t ⟨σ, c⟩).2.checker
      = (compareWithin run c.guard.limits.depth s t ⟨τ, c⟩).2.checker
  -- the check itself resolves first, so both stores go on alike from there
  cases c.guard.limits.depth with
  | zero => exact compareWith_congr known (fun _ _ => ⟨rfl, rfl⟩) c
  | succ levels =>
    refine compareWith_congr known (fun flags c => ?_) c
    rw [answer_step_of_resolve hs ht lazy hx hy, answer_step_of_resolve hs' ht' lazy hx' hy']
    exact ⟨rfl, rfl⟩

/-- And so does the answer to the pair, in a new checker. -/
theorem relate_of_resolve {policy : Policy} (grows : σ.Grows τ) (hs : σ.node? s = some source)
    (ht : σ.node? t = some target) (lazy : (source.isLazy || target.isLazy) = true)
    (hx : Store.resolve run s σ = (x, σ')) (hy : Store.resolve run t σ' = (y, τ))
    (hx' : Store.resolve run s τ = (x, τ)) (hy' : Store.resolve run t τ = (y, τ)) :
    (Store.relate run policy .assignable s t σ).1
      = (Store.relate run policy .assignable s t τ).1 := by
  obtain ⟨answer, checker⟩ :=
    check_of_resolve grows hs ht lazy hx hy hx' hy' (.new policy)
  rw [relate_fst, relate_fst, holds_assignable, holds_assignable]
  dsimp only
  rw [answer, checker]

end

/-! ## §4. What the checker finds -/

namespace Store

variable {run : Runner ρ} {σ τ : Store ρ} {l u a s : Handle} {constructor : ListId → Node}
  {members : List Handle}

/-- Whether there is a handle among these, and none of the ends. -/
def areProper (pieces : List Handle) : Bool :=
  !pieces.isEmpty && pieces.all (!ends.contains ·)

/-- Whether a type is none of the ends; nor are its members if it is a union or an intersection,
as these are built. -/
def isProper (σ : Store ρ) (a : Handle) : Bool :=
  areProper (flattenUnions σ [a]) && areProper (flattenIntersections σ [a])

/-- A type is proper where its pieces are, as a union and as an intersection. -/
theorem isProper_iff : σ.isProper a = true ↔ areProper (σ.piecesOf .union a) = true ∧
    areProper (σ.piecesOf .intersection a) = true := by
  unfold Store.isProper
  rw [flattenUnions_eq, flattenIntersections_eq, List.flatMap_singleton, List.flatMap_singleton,
    Bool.and_eq_true_iff]

/-- A type that is none of the ends is proper as the constructors build it. -/
theorem WellBuilt.isProper (built : σ.WellBuilt) (has : σ.Has a) (inner : a ∉ ends) :
    σ.isProper a = true := by
  obtain ⟨n, hn⟩ := has
  have proper : ∀ {pieces : List Handle}, pieces ≠ [] → (∀ m ∈ pieces, m ∉ ends) →
      areProper pieces = true := by
    intro pieces nonempty inner
    unfold areProper
    rw [Bool.and_eq_true_iff, Bool.not_eq_true', List.isEmpty_eq_false_iff]
    exact ⟨nonempty, List.all_eq_true.2 fun m hm => by simpa using inner m hm⟩
  have pieces : ∀ k : Kind, k = .union ∨ k = .intersection →
      areProper (σ.piecesOf k a) = true := by
    intro k hk
    rw [piecesOf_of_node hn]
    split
    · next same =>
      have joined := built.isJoined hn (same ▸ hk)
      exact proper (List.ne_nil_of_length_pos (Nat.le_of_succ_le joined.several)) joined.inner
    · exact proper (List.cons_ne_nil a []) (by simpa using inner)
  exact isProper_iff.2 ⟨pieces _ (.inl rfl), pieces _ (.inr rfl)⟩

/-- A descriptor without lazy nodes was built. -/
theorem WellBuilt.isBuilt (built : σ.WellBuilt) (has : σ.Has a) (lazyFree : σ.LazyFree a) :
    σ.MadeOf σ.isBuilt a := by
  obtain ⟨n, hn⟩ := lazyFree
  refine ⟨n, ?_⟩
  -- on the depth: a node without lazies is complete, and so are its parts
  induction n generalizing a with
  | zero => cases hn
  | succ n ih =>
    obtain ⟨notLazy, parts⟩ := nests_succ.1 hn
    obtain ⟨node, hs⟩ := has
    have complete := built.complete a node hs
    rw [parts_of_node hs] at parts
    refine madeWithin_succ.2 ⟨node, hs, ?_, fun g hg => ?_⟩
    · refine Bool.and_eq_true_iff.2 ⟨?_, keeps_of_completes complete⟩
      cases node with
      | lazy d => rw [lazyId?_of_node hs] at notLazy; cases notLazy
      | _ => rfl
    · exact ih (has_of_completes complete g hg) (parts g hg)

/-- A lazy node is a member of its own in what it is joined with. -/
theorem pieces_of_lazy {d : LazyId} (hd : σ.node? l = some (.lazy d)) {k : Kind} (hk : k ≠ .lazy) :
    [l, a].flatMap (σ.piecesOf k) = l :: σ.piecesOf k a := by
  rw [List.flatMap_cons, List.flatMap_singleton, piecesOf_of_node hd,
    if_neg (show (Node.lazy d).kind ≠ k from hk.symm)]
  rfl

/-- A lazy node can be resolved if it stands for a joined type of itself and of proper types. -/
theorem Defines.exists_stands {build : Build ρ Handle} {pieces : List Handle}
    (hl : Defines run σ l build) (notLazy : ∀ k, (constructor k).isLazy = false)
    (built : ∀ m ∈ pieces, σ.MadeOf σ.isBuilt m) (proper : areProper pieces = true)
    (joins : ∀ x y, x ∈ l :: pieces → y ∈ l :: pieces → x ≠ y →
      (∀ m ∈ l :: pieces, m ∉ ends) →
      σ.Joins constructor (l :: pieces) (build σ)) :
    ∃ u τ, Stands run σ l constructor (l :: pieces) u τ := by
  obtain ⟨d, hd, -⟩ := id hl
  obtain ⟨nonempty, apart⟩ := Bool.and_eq_true_iff.1 proper
  obtain ⟨y, hy⟩ : ∃ y, y ∈ pieces := by
    cases pieces with
    | nil => cases nonempty
    | cons y _ => exact ⟨y, List.mem_cons_self ..⟩
  -- the node itself is lazy, and neither an end nor a proper type is
  have others : ∀ {h n}, σ.node? h = some n → n.isLazy = false → l ≠ h := by
    rintro _ _ hn notLazy rfl
    obtain rfl := Option.some.inj (hd.symm.trans hn)
    cases notLazy
  have own : ∀ k : Intrinsic, l ≠ k.handle := fun k => others (σ.node?_handle k) rfl
  refine hl.stands (joins l y (List.mem_cons_self ..) (List.mem_cons_of_mem _ hy) ?_ ?_) notLazy
  · obtain ⟨n, hn, hb, -⟩ := (built y hy).node
    exact others hn (isLazy_of_isBuilt n hb)
  · intro m hm
    rcases List.mem_cons.1 hm with rfl | hm
    · exact not_mem_ends.2 ⟨own .any, own .unknown, own .never⟩
    · simpa using List.all_eq_true.1 apart m hm

/-- A lazy node defined as a union with itself stands for that union. -/
theorem Defines.exists_stands_union (hl : Defines run σ l (union [l, a]))
    (ha : σ.MadeOf σ.isBuilt a) (proper : σ.isProper a = true) :
    ∃ u τ, Stands run σ l .union (l :: σ.piecesOf .union a) u τ := by
  obtain ⟨d, hd, -⟩ := id hl
  have pieces : flattenUnions σ [l, a] = l :: σ.piecesOf .union a :=
    (flattenUnions_eq σ _).trans (pieces_of_lazy hd nofun)
  refine hl.exists_stands (fun _ => rfl) (fun m => ha.piece) (isProper_iff.1 proper).1 ?_
  rw [← pieces]
  exact fun x y => joins_union σ

/-- A lazy node defined as an intersection with itself stands for that. -/
theorem Defines.exists_stands_intersection (hl : Defines run σ l (intersection [l, a]))
    (ha : σ.MadeOf σ.isBuilt a) (proper : σ.isProper a = true) :
    ∃ u τ, Stands run σ l .intersection (l :: σ.piecesOf .intersection a) u τ := by
  obtain ⟨d, hd, -⟩ := id hl
  have pieces : flattenIntersections σ [l, a] = l :: σ.piecesOf .intersection a :=
    (flattenIntersections_eq σ _).trans (pieces_of_lazy hd nofun)
  refine hl.exists_stands (fun _ => rfl) (fun m => ha.piece) (isProper_iff.1 proper).2 ?_
  rw [← pieces]
  exact fun x y => joins_intersection σ

/-- The lazy node is at rest once it is resolved, if the other members were built. -/
theorem Stands.atRest {pieces : List Handle} (h : Stands run σ l constructor (l :: pieces) u τ)
    (hc : constructor = .union ∨ constructor = .intersection)
    (built : ∀ m ∈ pieces, σ.MadeOf σ.isBuilt m) : τ.AtRest l := by
  obtain ⟨d, hd, hr⟩ := h.definition
  obtain ⟨k, hu, same⟩ := h.node
  have notLazy : τ.lazyId? u = none :=
    lazyId?_of_notLazy hu (by rcases hc with rfl | rfl <;> rfl)
  have parts : τ.parts u = τ.list k := by
    rw [parts_of_node hu]
    rcases hc with rfl | rfl <;> rfl
  -- closed under parts and records: the lazy node, what it stands for, and types without lazies
  refine AtRest.of_closed (P := fun h => h = l ∨ h = u ∨ τ.LazyFree h) ?_ ?_ ?_ (.inl rfl)
  · rintro x y hx hxy
    rcases hx with rfl | rfl | hx
    · cases hxy with
      | part hy => rw [parts_of_node hd] at hy; cases hy
      | recorded hd' hr' =>
        obtain rfl := Option.some.inj ((lazyId?_of_node hd).symm.trans hd')
        exact .inr (.inl (Option.some.inj (hr'.symm.trans hr)))
    · cases hxy with
      | part hy =>
        rw [parts] at hy
        refine (List.mem_cons.1 ((same y).1 hy)).imp_right fun hy => .inr ?_
        exact ((built y hy).grows h.grows).lazyFree isLazy_of_isBuilt
      | recorded hd' _ => rw [notLazy] at hd'; cases hd'
    · cases hxy with
      | part hy => exact .inr (.inr (hx.part hy))
      | recorded hd' _ => rw [hx.lazyId?] at hd'; cases hd'
  · rintro x e hx he
    rcases hx with rfl | rfl | hx
    · obtain rfl := Option.some.inj ((lazyId?_of_node hd).symm.trans he)
      exact .inl (by rw [hr]; rfl)
    · rw [notLazy] at he; cases he
    · rw [hx.lazyId?] at he; cases he
  · rintro x key hx hk
    rcases hx with rfl | rfl | hx
    · unfold keyTypes at hk
      rw [hd] at hk
      cases hk
    · unfold keyTypes at hk
      rw [hu] at hk
      rcases hc with rfl | rfl <;> cases hk
    · exact hx.part (mem_parts_of_mem_keyTypes hk)

/-- The lazy node, as the checker sees it from then on. -/
theorem Stands.stands (h : Stands run σ l constructor members u τ)
    (notLazy : ∀ k, (constructor k).isLazy = false) : resolve run l τ = (u, τ) := by
  obtain ⟨d, hd, hr⟩ := h.definition
  obtain ⟨k, hu, -⟩ := h.node
  exact resolve_of_resolution hd hr (lazyId?_of_notLazy hu (notLazy k))

/-- A built type resolves to itself. -/
theorem MadeOf.resolve (hs : σ.MadeOf σ.isBuilt s) : resolve run s σ = (s, σ) :=
  resolve_of_not_lazy run (hs.lazyFree isLazy_of_isBuilt).lazyId?

/-- A built type has no lazies. -/
theorem MadeOf.notLazy (hs : σ.MadeOf σ.isBuilt s) : σ.MadeOf (!·.isLazy) s :=
  hs.mono fun _ n _ hn => by rw [isLazy_of_isBuilt n hn]; rfl

end Store

/-- **UNGUARDED RECURSION RELATES TO EVERYTHING.**  Every built source is found to fit a lazy node
that stands for the union of itself and a type, and a lazy node that stands for the intersection of
itself and a type is found to fit every built target; whatever the type is, as long as no limit is
hit. -/
theorem relate_recursive (run : Runner ρ) (policy : Policy) (σ : Store ρ) (a : Handle)
    (ha : σ.MadeOf σ.isBuilt a) (proper : σ.isProper a = true) :
    (∀ l s, Store.Defines run σ l (Store.union [l, a]) → σ.MadeOf σ.isBuilt s →
      (Store.relate run policy .assignable s l σ).1.exceeded = false →
      (Store.relate run policy .assignable s l σ).1.related = true) ∧
    ∀ m t, Store.Defines run σ m (Store.intersection [m, a]) → σ.MadeOf σ.isBuilt t →
      (Store.relate run policy .assignable m t σ).1.exceeded = false →
      (Store.relate run policy .assignable m t σ).1.related = true := by
  constructor
  · intro l s hl hs within
    -- the node stands for a union with itself, and a pair that comes back holds
    obtain ⟨u, τ, h⟩ := hl.exists_stands_union ha proper
    obtain ⟨d, hd, -⟩ := hl
    obtain ⟨d', hd', -⟩ := h.definition
    obtain ⟨k, hu, same⟩ := h.node
    obtain ⟨n, hn, hb, -⟩ := hs.node
    have hs' := hs.grows h.grows
    have settled := h.stands fun _ => rfl
    have rest : τ.AtRest l := h.atRest (.inl rfl) fun m => ha.piece
    rw [relate_of_resolve h.grows hn hd (by rw [Store.isLazy_of_isBuilt n hb]; rfl)
      hs.resolve h.resolved hs'.resolve settled] at within ⊢
    refine (relate_iff (hs'.lazyFree Store.isLazy_of_isBuilt).atRest rest within).2 ⟨?_, nofun⟩
    exact View.fits_of_recursiveUnion hd' (congrArg Prod.fst settled) hu
      ((same l).2 (List.mem_cons_self ..)) hs'.notLazy
  · intro l t hl ht within
    -- and dually on the left
    obtain ⟨u, τ, h⟩ := hl.exists_stands_intersection ha proper
    obtain ⟨d, hd, -⟩ := hl
    obtain ⟨d', hd', -⟩ := h.definition
    obtain ⟨k, hu, same⟩ := h.node
    obtain ⟨n, hn, hb, -⟩ := ht.node
    have ht' := ht.grows h.grows
    have settled := h.stands fun _ => rfl
    have rest : τ.AtRest l := h.atRest (.inr rfl) fun m => ha.piece
    rw [relate_of_resolve h.grows hd hn rfl h.resolved ht'.resolve settled ht'.resolve]
      at within ⊢
    refine (relate_iff rest (ht'.lazyFree Store.isLazy_of_isBuilt).atRest within).2 ⟨?_, nofun⟩
    exact View.fits_of_recursiveIntersection hd' (congrArg Prod.fst settled) hu
      ((same l).2 (List.mem_cons_self ..)) ht'.notLazy

/-- Resolvers that join two types. -/
inductive Joining where
  | union (x y : Handle)
  | intersection (x y : Handle)

/-- How types are joined. -/
def Joining.build : Runner Joining
  | .union x y => Store.union [x, y]
  | .intersection x y => Store.intersection [x, y]

/-- A lazy node that stands for its union with the truth values, and one that stands for its
intersection with them. -/
def selfJoined : Listing Joining where
  nodes := [.lazy ⟨1⟩, .union ⟨0⟩, .lazy ⟨2⟩, .intersection ⟨1⟩]
  lists := [[.boolean, ⟨13⟩], [.boolean, ⟨15⟩]]
  definitions := [⟨some (.union ⟨13⟩ .boolean), some ⟨14⟩⟩,
    ⟨some (.intersection ⟨15⟩ .boolean), some ⟨16⟩⟩]

/-- The listed lazies are defined as joins with themselves. -/
theorem defines_selfJoined :
    Store.Defines Joining.build selfJoined.store ⟨13⟩ (Store.union [⟨13⟩, .boolean]) ∧
    Store.Defines Joining.build selfJoined.store ⟨15⟩ (Store.intersection [⟨15⟩, .boolean]) := by
  -- the lists and the nodes are there, so nothing is built
  refine ⟨⟨⟨1⟩, rfl, .inr ⟨⟨14⟩, rfl, ?_⟩⟩, ⟨⟨2⟩, rfl, .inr ⟨⟨16⟩, rfl, ?_⟩⟩⟩
  · have joined : Joined.union (Store.flattenUnions selfJoined.store [⟨13⟩, .boolean])
        = .several [.boolean, ⟨13⟩] := by decide +kernel
    have list : Store.internList [.boolean, ⟨13⟩] selfJoined.store = (⟨0⟩, selfJoined.store) :=
      Store.internList_of_list rfl
    unfold Store.union
    rw [Store.bind_apply, Store.get_apply]
    dsimp only
    rw [joined]
    dsimp only
    rw [Store.bind_apply, list]
    exact Store.intern_of_node rfl
  · have joined : Joined.intersection (Store.flattenIntersections selfJoined.store [⟨15⟩, .boolean])
        = .several [.boolean, ⟨15⟩] := by decide +kernel
    have list : Store.internList [.boolean, ⟨15⟩] selfJoined.store = (⟨1⟩, selfJoined.store) :=
      Store.internList_of_list rfl
    unfold Store.intersection
    rw [Store.bind_apply, Store.get_apply]
    dsimp only
    rw [joined]
    dsimp only
    rw [Store.bind_apply, list]
    exact Store.intern_of_node rfl

/-- The strings are none of the truth values, and are found to fit the union. -/
theorem relate_selfJoined :
    (Store.relate Joining.build {} .assignable Intrinsic.string.handle ⟨13⟩
        selfJoined.store).1.related = true ∧
      (Store.relate Joining.build {} .assignable ⟨15⟩ Intrinsic.string.handle
        selfJoined.store).1.related = true := by
  have within : (Store.relate Joining.build {} .assignable Intrinsic.string.handle ⟨13⟩
      selfJoined.store).1.exceeded = false := by
    rw [relate_eq_finding]
    decide +kernel
  have within' : (Store.relate Joining.build {} .assignable ⟨15⟩ Intrinsic.string.handle
      selfJoined.store).1.exceeded = false := by
    rw [relate_eq_finding]
    decide +kernel
  have recursive := relate_recursive Joining.build {} selfJoined.store .boolean
    ⟨1, by decide +kernel⟩ (by decide +kernel)
  exact ⟨recursive.1 ⟨13⟩ _ defines_selfJoined.1 ⟨1, by decide +kernel⟩ within,
    recursive.2 ⟨15⟩ _ defines_selfJoined.2 ⟨1, by decide +kernel⟩ within'⟩

/-- So a lazy node that stands for its union with a type does not fit as the type does, nor one that
stands for its intersection with it. -/
theorem not_relate_iff_of_selfJoined :
    ¬ ((∀ (ρ : Type) (run : Runner ρ) (policy : Policy) (σ : Store ρ) (a l s : Handle),
        σ.MadeOf σ.isBuilt a → a ∉ Store.ends → Store.Defines run σ l (Store.union [l, a]) →
        σ.MadeOf σ.isBuilt s → (Store.relate run policy .assignable s l σ).1.exceeded = false →
        (Store.relate run policy .assignable s a σ).1.exceeded = false →
        ((Store.relate run policy .assignable s l σ).1.related = true
          ↔ (Store.relate run policy .assignable s a σ).1.related = true)) ∨
      ∀ (ρ : Type) (run : Runner ρ) (policy : Policy) (σ : Store ρ) (a m t : Handle),
        σ.MadeOf σ.isBuilt a → a ∉ Store.ends →
        Store.Defines run σ m (Store.intersection [m, a]) →
        σ.MadeOf σ.isBuilt t → (Store.relate run policy .assignable m t σ).1.exceeded = false →
        (Store.relate run policy .assignable a t σ).1.exceeded = false →
        ((Store.relate run policy .assignable m t σ).1.related = true
          ↔ (Store.relate run policy .assignable a t σ).1.related = true)) := by
  rintro (claim | claim)
  -- `string` fits the union with itself, but not `boolean`
  · have h := claim Joining Joining.build {} selfJoined.store .boolean ⟨13⟩ Intrinsic.string.handle
      ⟨1, by decide +kernel⟩ (by decide) defines_selfJoined.1 ⟨1, by decide +kernel⟩
    simp only [relate_eq_finding] at h
    revert h
    decide +kernel
  -- the intersection with itself fits `string`, but `boolean` does not
  · have h := claim Joining Joining.build {} selfJoined.store .boolean ⟨15⟩ Intrinsic.string.handle
      ⟨1, by decide +kernel⟩ (by decide) defines_selfJoined.2 ⟨1, by decide +kernel⟩
    simp only [relate_eq_finding] at h
    revert h
    decide +kernel

end Assignability
