/-
  Assignability.Proofs.Walk.Operands
  ──────────────────────────────────
  **DESCRIPTORS AS PARTS OF LARGER TEXTS.**

  Whether a part of a larger text stands in parentheses is decided by the
  node it is, and what it exposes by the text that is printed for it.  The
  two go together for unions, enumerations, intersections and functions.
  They do not for a branded node, which prints an intersection, and for a
  lazy node, which prints whatever it stands for; nor for a list of
  either, where brackets behind the element apply to its last part alone.

  `Loose` says of a descriptor whether its text exposes a separator,
  without looking at texts.

  Main statement: `operand_exposes_iff`.
-/
import Assignability.Proofs.Store.Growth
import Assignability.Proofs.Store.Listing
import Assignability.Proofs.Text.Drafts
import Assignability.Proofs.Walk.KeptPrinter
import Mathlib.Logic.Relation

namespace Assignability

open Text

variable {ρ α : Type}

/-! ## §1. Plain names -/

/-- The texts that are printed as they are, without quotes, are plain. -/
structure Store.PlainNames (σ : Store ρ) : Prop where
  field : ∀ (o : ObjectId), ∀ f ∈ (σ.object o).fields, σ.IsPlain f.name
  brand : ∀ (h base : Handle) (mark : Atom), σ.node? h = some (.branded base mark) → σ.IsPlain mark
  digits : ∀ (h : Handle) (digits : Atom), σ.node? h = some (.literal (.bigint digits)) →
    σ.IsPlain digits

/-- Resolvers that only add to a store, and no names to a plain one that are not plain. -/
def Runner.KeepsPlain (run : Runner ρ) : Prop := ∀ resolver σ, σ.PlainNames →
  σ.Grows (run resolver σ).2 ∧ (run resolver σ).2.PlainNames

theorem Store.PlainNames.literalText {σ : Store ρ} (names : σ.PlainNames) {h : Handle}
    {value : Literal} (isLiteral : σ.node? h = some (.literal value)) :
    ReadsAs false (σ.literalText value) := by
  cases value with
  | string text => exact reads_quote _
  | number value => exact reads_decimal value
  | boolean value =>
    show ReadsAs false (if value = true then "true" else "false")
    split
    · exact reads_of_plain _ (by decide)
    · exact reads_of_plain _ (by decide)
  | bigint digits =>
    have plain := reads_of_plain _ (names.digits h digits isLiteral)
    exact plain.append (reads_of_plain _ (by decide))

/-! ## §2. Descriptors that bind loosely -/

namespace Print

variable (run : Runner ρ)

/-- A part that is loose and gets no parentheses. -/
def LooseOperand (loose : Printing ρ → Handle → Prop) (w : Printing ρ) (h : Handle) : Prop :=
  w.store.isCompound h = false ∧ loose w h

/-- Members among which there is a separator, or of which the only one is loose. -/
def LooseMembers (loose : Printing ρ → Handle → Prop) (w : Printing ρ) : List Handle → Prop
  | [member] => LooseOperand loose w member
  | members => 2 ≤ members.length

/-- A lazy node that is let in and stands for something loose. -/
def LooseLazy (loose : Printing ρ → Handle → Prop) (w : Printing ρ) (d : LazyId) : Prop :=
  (w.printer.lazies.enter d).1 = .entered ∧
    ∃ h, (Store.destination? run d w.store).1 = some h ∧
      loose ⟨(Store.destination? run d w.store).2,
        { w.printer with lazies := (w.printer.lazies.enter d).2 }⟩ h

/-- A node with a separator outside of all brackets of its text, when `loose` says so of its
parts. -/
def LooseNode (loose : Printing ρ → Handle → Prop) (w : Printing ρ) : Node → Prop
  | .union list | .enumeration list | .intersection list =>
    LooseMembers loose w (w.store.list list)
  | .function _ | .branded _ _ => True
  | .array element => LooseOperand loose w element
  | .lazy d => LooseLazy run loose w d
  | _ => False

/-- A descriptor that is printed with a separator outside of all brackets. -/
def Loose : Nat → Printing ρ → Handle → Prop
  | 0, _, _ => False
  | levels + 1, w, h => ∃ n, w.store.node? h = some n ∧ LooseNode run (Loose levels) (lowered w) n

/-- A descriptor as part of a larger text, with a number of levels left. -/
def operandWithin (levels : Nat) (h : Handle) : Print ρ String :=
  (Draft.operand h).run (formatWithin run levels) (lazyNode run (formatWithin run levels)) store

/-! ## §3. What printing keeps -/

/-- A printer with a number of levels left, at work on a store with plain names. -/
structure Ready (levels : Nat) (w : Printing ρ) : Prop where
  levels : w.printer.levels.depth + levels = w.printer.levels.limit
  names : w.store.PlainNames

variable {run} {levels : Nat} {w : Printing ρ}

theorem keeps_destination? (keeps : run.KeepsPlain) (σ₀ : Store ρ) (d : LazyId) (σ : Store ρ)
    (kept : σ₀.Grows σ ∧ σ.PlainNames) : σ₀.Grows (Store.destination? run d σ).2 ∧
      (Store.destination? run d σ).2.PlainNames := by
  refine Store.follow_invariant (I := fun τ => σ₀.Grows τ ∧ τ.PlainNames) ?_ ?_ _ [] d σ kept
  · rintro resolver τ ⟨grows, names⟩
    obtain ⟨more, names'⟩ := keeps resolver τ names
    exact ⟨grows.trans more, names'⟩
  · rintro e h τ ⟨grows, names⟩
    exact ⟨grows.trans (Store.grows_recordResolution e h τ), names.field, names.brand, names.digits⟩

/-- What a printer keeps whose store grows by plain names alone. -/
theorem Ready.kept (ready : Ready levels w) {w' : Printing ρ}
    (kept : Kept (fun τ => w.store.Grows τ ∧ τ.PlainNames) w w') :
    Ready levels w' ∧ w.store.Grows w'.store := by
  obtain ⟨grows, names⟩ := kept.store ⟨.refl _, ready.names⟩
  obtain ⟨depth, limit⟩ := kept.level
  refine ⟨⟨?_, names⟩, grows⟩
  rw [depth, limit]
  exact ready.levels

theorem Ready.formatWithin (keeps : run.KeepsPlain) (ready : Ready levels w) (h : Handle) :
    Ready levels (formatWithin run levels h w).2 ∧
      w.store.Grows (Print.formatWithin run levels h w).2.store :=
  ready.kept (goes_formatWithin (keeps_destination? keeps w.store) levels (levels + 1) h w
    (Nat.lt_succ_self levels) ready.levels).ends

theorem Ready.lazyNode (keeps : run.KeepsPlain) (ready : Ready levels w) (d : LazyId) :
    Ready levels (lazyNode run (Print.formatWithin run levels) d w).2 := by
  have destination := keeps_destination? keeps w.store
  have formats : ∀ h w', AtLevel w w' → (Walk.format run (levels + 1) h).Goes
      (Kept (fun τ => w.store.Grows τ ∧ τ.PlainNames) w') (Print.formatWithin run levels h) w' := by
    intro h w' level
    refine goes_formatWithin destination levels (levels + 1) h w' (Nat.lt_succ_self levels) ?_
    rw [level.1, level.2]
    exact ready.levels
  exact (ready.kept (goes_lazyNode destination formats).ends).1

theorem Ready.lowered (ready : Ready (levels + 1) w) : Ready levels (lowered w) := by
  refine ⟨?_, ready.names⟩
  have levels := ready.levels
  show w.printer.levels.depth + 1 + _ = w.printer.levels.limit
  omega

/-! ## §4. Loose texts -/

section

variable (keeps : run.KeepsPlain)
  (formats : ∀ h w, Ready levels w → BareIff (Loose run levels w h) (formatWithin run levels h w).1)

include formats in
/-- A lazy node is as loose as what it stands for; what stands in its place otherwise is not. -/
theorem bareIff_lazyNode (keeps : run.KeepsPlain) (ready : Ready levels w) (d : LazyId) :
    BareIff (LooseLazy run (Loose run levels) w d)
      (lazyNode run (formatWithin run levels) d w).1 := by
  unfold LooseLazy lazyNode
  rw [bind_apply, update_apply]
  dsimp only
  -- entered it reads as what it stands for; any other text is closed in itself
  cases entry : (w.printer.lazies.enter d).1 with
  | entered =>
    dsimp only
    rw [bind_apply]
    dsimp only [build]
    have kept := keeps_destination? keeps w.store d w.store ⟨.refl _, ready.names⟩
    cases stands : (Store.destination? run d w.store).1 with
    | none =>
      refine (reads_keyword Intrinsic.never).bareIff ?_
      simp
    | some h =>
      have text := formats h ⟨(Store.destination? run d w.store).2,
        { w.printer with lazies := (w.printer.lazies.enter d).2 }⟩ ⟨ready.levels, kept.2⟩
      obtain ⟨bare, reads, iff⟩ := text
      refine reads.bareIff (iff.trans ⟨fun loose => ⟨rfl, h, rfl, loose⟩, ?_⟩)
      rintro ⟨-, h', same, loose⟩
      rw [Option.some.inj same]
      exact loose
  | cycle =>
    have text : ReadsAs false "<recursive>" :=
      (balanced_of_plain "recursive" (by decide)).enclose (show ("<", ">") ∈ enclosures by decide)
    exact text.bareIff (by simp)
  | tooDeep | exhausted => exact (reads_of_plain "..." (by decide)).bareIff (by simp)

include keeps formats in
/-- What the parts of a text are is balanced, whatever the text is. -/
theorem yields_run {good : α → Prop} {q : Draft ρ α} (yields : q.Yields good)
    (ready : Ready levels w) : good
      (q.run (formatWithin run levels) (lazyNode run (formatWithin run levels)) store w).1 := by
  refine yields.run (I := Ready levels) (fun h w ready => ?_) (fun d w ready => ?_) w ready
  · exact ⟨(formats h w ready).balanced, (ready.formatWithin keeps h).1⟩
  · exact ⟨(bareIff_lazyNode formats keeps ready d).balanced, ready.lazyNode keeps d⟩

include keeps formats in
/-- A part is as loose as its text, unless it gets parentheses. -/
theorem bareIff_operand (ready : Ready levels w) (h : Handle) :
    BareIff (LooseOperand (Loose run levels) w h) (operandWithin run levels h w).1 := by
  obtain ⟨bare, reads, iff⟩ := formats h w ready
  obtain ⟨-, grows⟩ := ready.formatWithin keeps h
  generalize printed : formatWithin run levels h w = r at reads grows
  obtain ⟨text, w'⟩ := r
  have written : (operandWithin run levels h w).1
      = if w'.store.isCompound h then "(" ++ text ++ ")" else text := by
    unfold operandWithin
    rw [Draft.operand_eq]
    show (if (formatWithin run levels h w).2.store.isCompound h = true
      then "(" ++ (formatWithin run levels h w).1 ++ ")" else (formatWithin run levels h w).1) = _
    rw [printed]
  rw [written]
  cases bare with
  | false =>
    -- parentheses or not, nothing stands outside of brackets
    have tight : ¬ LooseOperand (Loose run levels) w h := fun loose =>
      absurd (iff.2 loose.2) (by decide)
    split
    · exact (reads.balanced.enclose (by decide)).bareIff (by simp [tight])
    · exact reads.bareIff (by simp [tight])
  | true =>
    have loose : Loose run levels w h := iff.1 rfl
    have known : ∃ n, w.store.node? h = some n := by
      cases levels with
      | zero => exact loose.elim
      | succ levels => exact ⟨loose.choose, loose.choose_spec.1⟩
    obtain ⟨n, isNode⟩ := known
    have same : w'.store.isCompound h = w.store.isCompound h := by
      unfold Store.isCompound
      rw [isNode, grows.node? isNode]
    rw [same]
    unfold LooseOperand
    split
    · next compound => exact (reads.balanced.enclose (by decide)).bareIff (by simp [compound])
    · next simple => exact reads.bareIff (by simp [simple, loose])

include keeps formats in
/-- A list of members is loose with a separator, or as its only member is. -/
theorem bareIff_members {separator : String} (isSeparator : separator ∈ separators)
    (ready : Ready levels w) (list : List Handle) :
    BareIff (LooseMembers (Loose run levels) w list) ((Draft.members separator list).run
      (formatWithin run levels) (lazyNode run (formatWithin run levels)) store w).1 := by
  cases list with
  | nil =>
    have empty : (Draft.members separator [] : Draft ρ String) = .done "" := rfl
    rw [empty]
    show BareIff _ ""
    exact (reads_of_plain "" (by decide)).bareIff (by simp [LooseMembers])
  | cons first list =>
    cases list with
    | nil =>
      rw [Draft.members_singleton]
      exact bareIff_operand keeps formats ready first
    | cons second list =>
      have several : 2 ≤ (first :: second :: list).length := by
        simp only [List.length_cons]
        omega
      have text := (yields_run keeps formats (Draft.yields_members isSeparator _) ready).2 several
      exact text.bareIff (by simp [LooseMembers])

include keeps formats in
/-- The text of a descriptor is as loose as its node. -/
theorem bareIff_describe (ready : Ready levels w) {h : Handle} {n : Node}
    (isNode : w.store.node? h = some n) : BareIff (LooseNode run (Loose run levels) w n)
      (describe run (formatWithin run levels) h w).1 := by
  unfold describe Draft.describe
  rw [Draft.run_store_bind, isNode]
  cases n with
  | intrinsic k => exact (reads_keyword k).bareIff (by simp [LooseNode])
  | literal value => exact (ready.names.literalText isNode).bareIff (by simp [LooseNode])
  | enumeration list | union list | intersection list =>
    exact bareIff_members keeps formats (by decide) ready (w.store.list list)
  -- the brackets are put behind the operand, and bind closer than it may read
  | array element =>
    obtain ⟨bare, reads, iff⟩ := bareIff_operand keeps formats ready element
    have all := reads.append reads_brackets
    rw [Bool.or_false] at all
    dsimp only
    rw [Draft.run_bind]
    exact all.bareIff iff
  | tuple shape =>
    exact (yields_run keeps formats (Draft.yields_tuple _) ready).bareIff (by simp [LooseNode])
  | object shape =>
    obtain ⟨next, look, yields⟩ := Draft.object_eq_look (ρ := ρ) (w.store.object shape)
    have reads := yields_run keeps formats (yields w.store (ready.names.field shape)) ready
    dsimp only
    rw [look]
    exact reads.bareIff (by simp [LooseNode])
  | record key value | map key value | set inner | promise inner =>
    refine (yields_run keeps formats (Draft.yields_applied ?_ _) ready).bareIff ?_
    · decide
    · simp [LooseNode]
  | function shape =>
    exact (yields_run keeps formats (Draft.yields_function _) ready).bareIff (by simp [LooseNode])
  | lazy d => exact bareIff_lazyNode formats keeps ready d
  -- the mark is put behind the operand with `&`, and so the text is bare
  | branded base mark =>
    have marked := reads_mark (ready.names.brand h base mark isNode)
    have yields : (do
        let text ← Draft.operand base
        pure (text ++ (" & BRAND<\"" ++ w.store.text mark ++ "\">")) : Draft ρ String).Yields
          (ReadsAs true) := by
      refine Draft.Yields.bind (Draft.yields_operand base) fun text => ?_
      rintro ⟨bare, reads⟩
      have all := reads.append marked
      rw [Bool.or_true] at all
      exact all
    exact (yields_run keeps formats yields ready).bareIff (by simp [LooseNode])

end

theorem counted_of_room {describe : Handle → Print ρ String} {h : Handle}
    (room : w.printer.levels.depth < w.printer.levels.limit) :
    (counted describe h w).1 = (describe h (lowered w)).1 := by
  unfold counted
  rw [bind_apply, update_apply]
  unfold Levels.enter
  rw [if_neg (Nat.not_le_of_lt room)]
  rfl

theorem counted_of_full {describe : Handle → Print ρ String} {h : Handle}
    (full : w.printer.levels.limit ≤ w.printer.levels.depth) :
    (counted describe h w).1 = ellipsis := by
  unfold counted
  rw [bind_apply, update_apply]
  unfold Levels.enter
  rw [if_pos full]
  rfl

/-- **A TEXT IS AS LOOSE AS ITS DESCRIPTOR**, whatever the levels that are left. -/
theorem bareIff_formatWithin (keeps : run.KeepsPlain) (levels : Nat) : ∀ h w, Ready levels w →
    BareIff (Loose run levels w h) (formatWithin run levels h w).1 := by
  -- on the levels that are left; without any the text is three points
  induction levels with
  | zero =>
    intro h w ready
    unfold formatWithin
    rw [counted_of_full (Nat.le_of_eq ready.levels.symm)]
    exact (reads_of_plain "..." (by decide)).bareIff (by simp [Loose])
  | succ levels ih =>
    intro h w ready
    have room : w.printer.levels.depth < w.printer.levels.limit := by
      have := ready.levels
      omega
    unfold formatWithin
    rw [counted_of_room room]
    cases isNode : w.store.node? h with
    | none =>
      have unknown : (describe run (formatWithin run levels) h (lowered w)).1
          = "<" ++ ("unknown #" ++ toString h.number) ++ ">" := by
        unfold describe Draft.describe
        rw [Draft.run_store_bind, show (lowered w).store.node? h = none from isNode,
          ← String.append_assoc]
        rfl
      have number := (balanced_of_plain "unknown #" (by decide)).append
        (reads_toString h.number).balanced
      rw [unknown]
      exact (number.enclose (by decide)).bareIff (by simp [Loose, isNode])
    | some n =>
      obtain ⟨bare, reads, iff⟩ := bareIff_describe keeps ih ready.lowered (n := n) isNode
      refine reads.bareIff (iff.trans ⟨fun loose => ⟨n, isNode, loose⟩, ?_⟩)
      rintro ⟨n', same, loose⟩
      rw [isNode] at same
      rw [Option.some.inj same]
      exact loose

/-- What is loose and gets no parentheses is a lazy or a branded node, or a list of such. -/
theorem LooseOperand.isListOf (levels : Nat) : ∀ w h, LooseOperand (Loose run levels) w h →
    ∃ g, Relation.ReflTransGen (fun h e => w.store.node? h = some (.array e)) h g ∧
      (w.store.isOfKind .lazy g = true ∨ w.store.isOfKind .branded g = true) := by
  induction levels with
  | zero => exact fun _ _ loose => loose.2.elim
  | succ levels ih =>
    rintro w h ⟨simple, n, isNode, loose⟩
    unfold Store.isCompound at simple
    rw [isNode] at simple
    cases n with
    | enumeration _ | union _ | intersection _ | function _ => exact Bool.noConfusion simple
    | array element =>
      obtain ⟨g, lists, kind⟩ := ih (lowered w) element loose
      exact ⟨g, .head isNode lists, kind⟩
    | lazy d => exact ⟨h, .refl, .inl ((Store.isOfKind_of_node isNode).2 rfl)⟩
    | branded base mark => exact ⟨h, .refl, .inr ((Store.isOfKind_of_node isNode).2 rfl)⟩
    | _ => exact loose.elim

end Print

/-- **WHAT A PART OF A TEXT EXPOSES.**  With plain names a part exposes a separator if and only if
it is loose and gets no parentheses, and then it is a lazy or a branded node, or a list of such. -/
theorem operand_exposes_iff {run : Runner ρ} (keeps : run.KeepsPlain) {w : Printing ρ}
    (names : w.store.PlainNames) {levels : Nat}
    (left : w.printer.levels.depth + levels = w.printer.levels.limit) (h : Handle) :
    let exposed := Exposes (Print.operandWithin run levels h w).1
    (exposed ↔ Print.LooseOperand (Print.Loose run levels) w h) ∧
      (exposed → ∃ g,
        Relation.ReflTransGen (fun h e => w.store.node? h = some (.array e)) h g ∧
          (w.store.isOfKind .lazy g = true ∨ w.store.isOfKind .branded g = true)) := by
  have formats := Print.bareIff_formatWithin keeps levels
  have iff := (Print.bareIff_operand keeps formats ⟨left, names⟩ h).exposes_iff
  exact ⟨iff, fun exposed => (iff.1 exposed).isListOf⟩

/-! ## §5. A lazy union -/

/-- A union, and a lazy node that stands for it. -/
def lazyUnion : Listing Handle where
  nodes := [.union ⟨0⟩, .lazy ⟨1⟩]
  lists := [[Intrinsic.string.handle, Intrinsic.number.handle]]
  definitions := [⟨none, some ⟨13⟩⟩]

theorem plainNames_lazyUnion : lazyUnion.store.PlainNames := by
  have kinds : ∀ h n, lazyUnion.store.node? h = some n → n.kind ≠ .branded ∧ n.kind ≠ .literal := by
    intro h n isNode
    have entry : (Intrinsic.all.map .intrinsic ++ lazyUnion.nodes)[h.number]? = some n := by
      rw [← isNode]
      exact (Table.get?_ofList lazyUnion.distinct.1 h.number).symm
    have all : ∀ n ∈ Intrinsic.all.map .intrinsic ++ lazyUnion.nodes,
        n.kind ≠ .branded ∧ n.kind ≠ .literal := by decide
    exact all n (List.mem_of_getElem? entry)
  constructor
  · intro o f isField
    exact absurd isField List.not_mem_nil
  · exact fun h base mark isNode => absurd rfl (kinds h _ isNode).1
  · exact fun h digits isNode => absurd rfl (kinds h _ isNode).2

/-- The union is put in parentheses, the lazy node that prints it is not. -/
theorem operand_exposes_lazyUnion :
    let w : Printing Handle := ⟨lazyUnion.store, {}⟩
    Exposes (Print.operandWithin pure 8 ⟨14⟩ w).1 ∧
      ¬ Exposes (Print.operandWithin pure 8 ⟨13⟩ w).1 := by
  intro w
  have keeps : Runner.KeepsPlain (pure : Runner Handle) := fun _ σ names => ⟨.refl σ, names⟩
  have exposes : ∀ h, Exposes (Print.operandWithin pure 8 h w).1
      ↔ Print.LooseOperand (Print.Loose pure 8) w h :=
    fun h => (operand_exposes_iff keeps plainNames_lazyUnion rfl h).1
  constructor
  · refine (exposes ⟨14⟩).2 ⟨rfl, .lazy ⟨1⟩, rfl, ?_, ⟨13⟩, rfl, ?_⟩
    · have entered := (Print.lowered w).printer.lazies.enter_of_room (k := ⟨1⟩)
        Std.HashMap.getElem?_empty (show 0 < 8 by decide) (show 0 < 10000 by decide)
      exact congrArg Prod.fst entered
    · refine ⟨.union ⟨0⟩, rfl, ?_⟩
      show 2 ≤ [Intrinsic.string.handle, Intrinsic.number.handle].length
      decide
  · intro exposed
    have simple := ((exposes ⟨13⟩).1 exposed).1
    exact absurd simple (by decide)

end Assignability
