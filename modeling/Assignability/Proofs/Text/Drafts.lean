/-
  Assignability.Proofs.Text.Drafts
  ────────────────────────────────
  **WHAT THE TEXT OF A DESCRIPTOR EXPOSES.**

  The draft of a descriptor puts together texts of its parts that it does
  not know.  If they are balanced so is the result (`Draft.Yields`), and
  for most descriptors the result says by its form whether it exposes a
  separator: a function and several members do, what stands in brackets
  does not.
-/
import Assignability.Proofs.Text.Brackets

namespace Assignability

open Text

variable {ρ α β : Type}

/-! ## §1. Pieces -/

theorem reads_keyword (k : Intrinsic) : ReadsAs false k.keyword := by
  refine reads_of_plain _ ?_
  cases k <;> decide

/-- The mark of a brand stands behind a separator. -/
theorem reads_mark {text : String} (plain : AllPlain text.toList) :
    ReadsAs true (" & BRAND<\"" ++ text ++ "\">") := by
  have quoted := (quoted_of_plain plain).reads.balanced.enclose
    (show ("<", ">") ∈ enclosures by decide)
  have all := (reads_separator (show " & " ∈ separators by decide)).append
    ((reads_of_plain "BRAND" (by decide)).append quoted)
  rw [show " & BRAND<\"" = " & " ++ ("BRAND" ++ ("<" ++ "\"")) from rfl,
    show "\">" = "\"" ++ ">" from rfl]
  simp only [String.append_assoc] at all ⊢
  exact all

/-- The text of an atom neither opens nor closes anything and has no sign of a separator. -/
def Store.IsPlain (σ : Store ρ) (a : Atom) : Prop := AllPlain (σ.text a).toList

/-- Whether a descriptor stands in parentheses as part of a larger text. -/
def Store.isCompound (σ : Store ρ) (h : Handle) : Bool := (σ.node? h).any Node.isCompound

/-! ## §2. Drafts with balanced parts -/

namespace Draft

/-- If its parts have balanced texts, the result of the draft is good. -/
def Yields (good : α → Prop) : Draft ρ α → Prop
  | done a => good a
  | part _ next => ∀ text, Balanced text → (next text).Yields good
  | lazyPart _ next => ∀ text, Balanced text → (next text).Yields good
  | look next => ∀ σ, (next σ).Yields good

variable {good : α → Prop} {good' : β → Prop}

theorem Yields.bind {q : Draft ρ α} {f : α → Draft ρ β} (first : q.Yields good)
    (next : ∀ a, good a → (f a).Yields good') : (q >>= f).Yields good' := by
  induction q with
  | done a => exact next a first
  | part h next' ih => exact fun text balanced => ih text (first text balanced)
  | lazyPart d next' ih => exact fun text balanced => ih text (first text balanced)
  | look next' ih => exact fun σ => ih σ (first σ)

/-- A draft is written where its parts are, and what they keep is kept until its result is known. -/
theorem Yields.run {format : Handle → Print ρ String} {lazyNode : LazyId → Print ρ String}
    {I : Printing ρ → Prop} (formats : ∀ h w, I w → Balanced (format h w).1 ∧ I (format h w).2)
    (lazies : ∀ d w, I w → Balanced (lazyNode d w).1 ∧ I (lazyNode d w).2) {q : Draft ρ α}
    (yields : q.Yields good) : ∀ w, I w → good (q.run format lazyNode Print.store w).1 := by
  induction q with
  | done a => exact fun _ _ => yields
  | part h next ih =>
    intro w kept
    obtain ⟨balanced, kept⟩ := formats h w kept
    exact ih _ (yields _ balanced) _ kept
  | lazyPart d next ih =>
    intro w kept
    obtain ⟨balanced, kept⟩ := lazies d w kept
    exact ih _ (yields _ balanced) _ kept
  | look next ih => exact fun w kept => ih w.store (yields w.store) w kept

theorem run_bind (format : Handle → Print ρ String) (lazyNode : LazyId → Print ρ String)
    (q : Draft ρ α) (f : α → Draft ρ β) : ∀ w, (q >>= f).run format lazyNode Print.store w =
      let r := q.run format lazyNode Print.store w
      (f r.1).run format lazyNode Print.store r.2 := by
  induction q with
  | done a => exact fun _ => rfl
  | part h next ih => exact fun w => ih _ _
  | lazyPart d next ih => exact fun w => ih _ _
  | look next ih => exact fun w => ih _ _

theorem run_store_bind (format : Handle → Print ρ String) (lazyNode : LazyId → Print ρ String)
    (f : Store ρ → Draft ρ α) (w : Printing ρ) : (store >>= f).run format lazyNode Print.store w
      = (f w.store).run format lazyNode Print.store w := rfl

/-- Texts of which each is balanced. -/
def AllBalanced (texts : List String) : Prop := ∀ t ∈ texts, Balanced t

theorem AllBalanced.append {texts texts' : List String} (first : AllBalanced texts)
    (second : AllBalanced texts') : AllBalanced (texts ++ texts') := by
  intro t member
  rcases List.mem_append.1 member with member | member
  · exact first t member
  · exact second t member

theorem allBalanced_singleton {t : String} (balanced : Balanced t) : AllBalanced [t] :=
  List.forall_mem_singleton.2 balanced

theorem AllBalanced.joined {texts : List String} (balanced : AllBalanced texts) :
    Balanced (joined ", " texts) := Balanced.joined (balanced_of_plain _ (by decide)) balanced

theorem yields_mapM {f : α → Draft ρ String} {list : List α}
    (each : ∀ a ∈ list, (f a).Yields Balanced) :
    (list.mapM f).Yields fun texts => texts.length = list.length ∧ AllBalanced texts := by
  -- the texts so far stand in reversed order
  have loop : ∀ (list : List α) (texts : List String), (∀ a ∈ list, (f a).Yields Balanced) →
      AllBalanced texts → (List.mapM.loop f list texts).Yields fun all =>
        all.length = texts.length + list.length ∧ AllBalanced all := by
    intro list
    induction list with
    | nil =>
      intro texts _ balanced
      refine ⟨List.length_reverse, fun t member => ?_⟩
      exact balanced t (List.mem_reverse.1 member)
    | cons a list ih =>
      intro texts each balanced
      obtain ⟨first, rest⟩ := List.forall_mem_cons.1 each
      refine Yields.bind first fun text textBalanced => ?_
      have more := ih (text :: texts) rest (List.forall_mem_cons.2 ⟨textBalanced, balanced⟩)
      have count : (text :: texts).length + list.length = texts.length + (a :: list).length := by
        simp only [List.length_cons]
        omega
      rw [count] at more
      exact more
  have all := loop list [] each fun _ member => absurd member List.not_mem_nil
  simp only [List.length_nil, Nat.zero_add] at all
  exact all

/-! ## §3. Drafts of descriptors -/

theorem yields_text (h : Handle) : (text h : Draft ρ String).Yields Balanced :=
  fun _ balanced => balanced

theorem operand_eq (h : Handle) : (operand h : Draft ρ String) = part h fun text =>
    look fun σ => done (if σ.isCompound h then "(" ++ text ++ ")" else text) := by
  refine congrArg (part h) (funext fun text => congrArg look (funext fun σ => ?_))
  unfold Store.isCompound
  dsimp only [bind]
  cases σ.node? h <;> rfl

theorem yields_operand (h : Handle) : (operand h : Draft ρ String).Yields Balanced := by
  rw [operand_eq]
  intro text balanced σ
  show Balanced (if σ.isCompound h then "(" ++ text ++ ")" else text)
  split
  · exact (balanced.enclose (by decide)).balanced
  · exact balanced

/-- A member alone stands like any other part. -/
theorem members_singleton (separator : String) (member : Handle) :
    (members separator [member] : Draft ρ String) = operand member := by
  have shownAlone : (shown operand [member] : Draft ρ (List String))
      = operand member >>= fun text => pure [text] := by
    show ((operand member >>= fun text => pure [text]) >>= fun texts => pure texts) = _
    rw [operand_eq]
    rfl
  unfold members
  rw [shownAlone, operand_eq]
  rfl

/-- Of several elements at least two texts are shown. -/
theorem yields_shown {f : α → Draft ρ String} {elements : List α}
    (each : ∀ a ∈ elements, (f a).Yields Balanced) : (shown f elements).Yields fun texts =>
      (2 ≤ elements.length → 2 ≤ texts.length) ∧ AllBalanced texts := by
  refine Yields.bind (yields_mapM fun a member => each a (List.mem_of_mem_take member))
    fun texts => ?_
  rintro ⟨count, balanced⟩
  have length : texts.length = min 12 elements.length := by
    rw [count, List.length_take]
    rfl
  show Yields _ (if 12 < elements.length then _ else _)
  split
  -- with thirteen elements or more, the first twelve and a note of how many are left
  · next many =>
    refine ⟨fun _ => ?_, balanced.append (allBalanced_singleton ?_)⟩
    · rw [List.length_append, length]
      omega
    · have dots := (balanced_of_plain "... " (by decide)).append
        (reads_toString (elements.length - 12)).balanced
      exact dots.append (balanced_of_plain " more ..." (by decide))
  · exact ⟨fun several => by omega, balanced⟩

theorem yields_members {separator : String} (isSeparator : separator ∈ separators)
    (list : List Handle) : (members separator list : Draft ρ String).Yields fun text =>
      Balanced text ∧ (2 ≤ list.length → ReadsAs true text) := by
  refine Yields.bind (yields_shown fun h _ => yields_operand h) fun texts => ?_
  rintro ⟨count, balanced⟩
  have between := (reads_separator isSeparator).balanced
  exact ⟨between.joined balanced, fun several => reads_joined isSeparator balanced (count several)⟩

theorem yields_restItems {label : String} (plain : AllPlain label.toList)
    (rest : Option Handle) : (restItems label rest : Draft ρ (List String)).Yields AllBalanced := by
  cases rest with
  | none => exact fun _ member => absurd member List.not_mem_nil
  | some h =>
    refine Yields.bind (yields_operand h) fun text balanced => allBalanced_singleton ?_
    have dots := (balanced_of_plain "..." (by decide)).append (balanced_of_plain label plain)
    exact (dots.append balanced).append reads_brackets.balanced

theorem yields_tuple (shape : Sequence) :
    (tuple shape : Draft ρ String).Yields (ReadsAs false) := by
  refine Yields.bind (yields_mapM fun h _ => yields_text h) fun items => ?_
  rintro ⟨-, itemsBalanced⟩
  refine Yields.bind (yields_restItems (by decide) shape.rest) fun rest restBalanced => ?_
  exact (itemsBalanced.append restBalanced).joined.enclose (by decide)

theorem yields_parameters (hs : List Handle) : ∀ i,
    (parameters i hs : Draft ρ (List String)).Yields AllBalanced := by
  induction hs with
  | nil => exact fun _ _ member => absurd member List.not_mem_nil
  | cons h hs ih =>
    intro i
    refine Yields.bind (yields_text h) fun text balanced => ?_
    refine Yields.bind (ih (i + 1)) fun texts others => List.forall_mem_cons.2 ⟨?_, others⟩
    have name := (balanced_of_plain "arg" (by decide)).append (reads_toString i).balanced
    exact (name.append (balanced_of_plain ": " (by decide))).append balanced

theorem yields_function (shape : Signature) :
    (function shape : Draft ρ String).Yields (ReadsAs true) := by
  refine Yields.bind (yields_parameters _ 0) fun fixed fixedBalanced => ?_
  refine Yields.bind (yields_restItems (by decide) _) fun rest restBalanced => ?_
  refine Yields.bind (yields_text _) fun result => ?_
  rintro ⟨bare, resultReads⟩
  have parameters := (fixedBalanced.append restBalanced).joined.enclose
    (show ("(", ")") ∈ enclosures by decide)
  have arrow : ReadsAs true " => " := reads_separator (by decide)
  have all := (parameters.append arrow).append resultReads
  have split : "(" ++ joined ", " (fixed ++ rest) ++ ")" ++ " => " ++ result
      = "(" ++ joined ", " (fixed ++ rest) ++ ") => " ++ result := by
    rw [show ") => " = ")" ++ " => " from rfl]
    simp only [String.append_assoc]
  rw [split, Bool.false_or, Bool.true_or] at all
  exact all

theorem yields_field {f : String × Field} (plain : AllPlain f.1.toList) :
    (field f : Draft ρ String).Yields Balanced := by
  refine Yields.bind (yields_text f.2.type) fun text balanced => ?_
  have mark : Balanced (if f.2.optional = true then "?" else "") := by
    split
    · exact balanced_of_plain _ (by decide)
    · exact balanced_of_plain _ (by decide)
  have name := (balanced_of_plain _ plain).append mark
  exact (name.append (balanced_of_plain _ (by decide))).append balanced

theorem yields_index (signature : Option IndexSignature) :
    (index signature : Draft ρ (List String)).Yields AllBalanced := by
  cases signature with
  | none => exact fun _ member => absurd member List.not_mem_nil
  | some signature =>
    refine Yields.bind (yields_text _) fun key keyBalanced => ?_
    refine Yields.bind (yields_text _) fun value valueBalanced => allBalanced_singleton ?_
    have name := (balanced_of_plain "key: " (by decide)).append
      keyBalanced
    have inBrackets := (name.enclose (show ("[", "]") ∈ enclosures by decide)).balanced
    have colon := balanced_of_plain ": " (by decide)
    have split : "[" ++ ("key: " ++ key) ++ "]" ++ ": " ++ value
        = "[key: " ++ key ++ "]: " ++ value := by
      rw [show "[key: " = "[" ++ "key: " from rfl, show "]: " = "]" ++ ": " from rfl]
      simp only [String.append_assoc]
    rw [← split]
    exact (inBrackets.append colon).append valueBalanced

/-- An object looks up the names of its fields first. -/
theorem object_eq_look (shape : Layout) : ∃ next : Store ρ → Draft ρ String,
    object shape = look next ∧ ∀ σ : Store ρ, (∀ f ∈ shape.fields, σ.IsPlain f.name) →
      (next σ).Yields (ReadsAs false) := by
  refine ⟨_, rfl, fun σ names => ?_⟩
  have looked : (done σ : Draft ρ (Store ρ)).Yields (· = σ) := rfl
  refine Yields.bind looked fun τ same => ?_
  subst same
  -- the fields are sorted by name, and are fields of the shape all the same
  refine Yields.bind (yields_shown fun f member => yields_field ?_) fun fields => ?_
  · obtain ⟨g, isField, rfl⟩ := List.mem_map.1 (List.mem_mergeSort.1 member)
    exact names g isField
  · rintro ⟨-, fieldsBalanced⟩
    refine Yields.bind (yields_index shape.index) fun index indexBalanced => ?_
    have blank := balanced_of_plain " " (by decide)
    have between := balanced_of_plain "; " (by decide)
    have all := between.joined (fieldsBalanced.append indexBalanced)
    show Yields (ReadsAs false) (if (fields ++ index).isEmpty then pure (braced "")
      else pure (braced (" " ++ joined "; " (fields ++ index) ++ " ")))
    split
    · exact (balanced_of_plain _ (by decide)).enclose (by decide)
    · exact ((blank.append all).append blank).enclose (by decide)

theorem yields_applied {name : String} (plain : AllPlain name.toList)
    (parts : List Handle) : (applied name parts : Draft ρ String).Yields (ReadsAs false) := by
  refine Yields.bind (yields_mapM fun h _ => yields_text h) fun texts => ?_
  rintro ⟨-, balanced⟩
  have all := (reads_of_plain _ plain).append
    (balanced.joined.enclose (show ("<", ">") ∈ enclosures by decide))
  rw [← String.append_assoc, ← String.append_assoc] at all
  exact all

end Draft

end Assignability
