/-
  Assignability.Proofs.Text.Brackets
  ──────────────────────────────────
  **WHAT STANDS OUTSIDE THE BRACKETS OF A TEXT.**

  A reader goes through a text character by character and knows how many
  brackets are open, and whether it is in a quoted string.  A text exposes
  a separator where one begins while no bracket is open (`Exposes`).

  Texts are put together of plain characters, quoted strings, texts in
  brackets, and separators (`Closed`).  For these it is enough to look at
  how they are put together: they expose a separator if and only if one of
  their parts is a separator (`Closed.exposes_append`).
-/
import Assignability.Decimal.Positional
import Assignability.Printer
import Assignability.Text.Quoted
import Mathlib.Tactic.SplitIfs

namespace Assignability.Text

/-! ## §1. Reading -/

/-- Brackets that open. -/
def opening : List Char := ['(', '[', '\x7b', '<']

/-- Brackets that close. -/
def closing : List Char := [')', ']', '\x7d', '>']

/-- What is behind the blank of a separator. -/
def signs : List Char := ['|', '&', '=']

/-- Where a reader is in a text, and how many brackets are open there. -/
inductive Reading where
  /-- Outside of quoted strings. -/
  | among (depth : Nat)
  /-- Behind an equals sign, where a closing angle bracket is the head of an arrow. -/
  | behindEquals (depth : Nat)
  /-- In a quoted string. -/
  | quoted (depth : Nat)
  /-- In a quoted string, behind a backslash. -/
  | escaped (depth : Nat)
  deriving DecidableEq, Repr

namespace Reading

/-- Reads a character outside of quoted strings. -/
def step (depth : Nat) (c : Char) : Reading :=
  if c = '"' then quoted depth
  else if c = '=' then behindEquals depth
  else if c ∈ opening then among (depth + 1)
  else if c ∈ closing then among (depth - 1)
  else among depth

/-- Reads a character. -/
def next : Reading → Char → Reading
  | among depth, c => step depth c
  | behindEquals depth, c => if c = '>' then among depth else step depth c
  | quoted depth, c =>
    if c = '"' then among depth else if c = '\\' then escaped depth else quoted depth
  | escaped depth, _ => quoted depth

/-- Whether no bracket and no quoted string is open. -/
def isOutside : Reading → Bool
  | among 0 | behindEquals 0 => true
  | _ => false

end Reading

/-- What separates the parts of a union and of an intersection, and an arrow. -/
def separators : List String := [" | ", " & ", " => "]

/-- A separator begins in a text where no bracket and no quoted string is open. -/
def Exposes (text : String) : Prop :=
  ∃ before separator after, separator ∈ separators ∧
    text.toList = before ++ separator.toList ++ after ∧
    (before.foldl Reading.next (.among 0)).isOutside = true

/-- Whether a separator begins in what is still to be read while nothing is open. -/
def exposes : Reading → List Char → Bool
  | _, [] => false
  | r, c :: cs =>
    (r.isOutside && separators.any fun separator => separator.toList.isPrefixOf (c :: cs))
      || exposes (r.next c) cs

theorem exposes_iff (r : Reading) (cs : List Char) : exposes r cs = true ↔
    ∃ before separator after, separator ∈ separators ∧
      cs = before ++ separator.toList ++ after ∧
      (before.foldl Reading.next r).isOutside = true := by
  induction cs generalizing r with
  | nil =>
    refine ⟨fun exposed => Bool.noConfusion exposed, ?_⟩
    rintro ⟨before, separator, after, isSeparator, split, -⟩
    -- no separator is empty
    have empty : separator.toList = [] :=
      (List.append_eq_nil_iff.1 (List.append_eq_nil_iff.1 split.symm).1).2
    have proper : ∀ s ∈ separators, s.toList ≠ [] := by decide
    exact absurd empty (proper separator isSeparator)
  | cons c cs ih =>
    unfold exposes
    rw [Bool.or_eq_true, Bool.and_eq_true, List.any_eq_true, ih]
    constructor
    · rintro (⟨outside, separator, isSeparator, begins⟩ | ⟨before, separator, after, inside⟩)
      · obtain ⟨after, split⟩ := List.isPrefixOf_iff_prefix.1 begins
        exact ⟨[], separator, after, isSeparator, split.symm, outside⟩
      · obtain ⟨isSeparator, split, outside⟩ := inside
        exact ⟨c :: before, separator, after, isSeparator, by rw [split]; rfl, outside⟩
    · rintro ⟨before, separator, after, isSeparator, split, outside⟩
      cases before with
      | nil =>
        refine .inl ⟨outside, separator, isSeparator, List.isPrefixOf_iff_prefix.2 ⟨after, ?_⟩⟩
        exact split.symm
      | cons b before =>
        obtain ⟨rfl, rest⟩ := List.cons.inj split
        exact .inr ⟨before, separator, after, isSeparator, rest, outside⟩

theorem exposes_iff_exposes (text : String) :
    Exposes text ↔ exposes (.among 0) text.toList = true :=
  (exposes_iff (.among 0) text.toList).symm

instance (text : String) : Decidable (Exposes text) :=
  decidable_of_iff _ (exposes_iff_exposes text).symm

example : Exposes "string | number[]" := by decide

example : ¬ Exposes "Map<\"a | b\", () => void>" := by decide

/-! ## §2. Texts by what they are put together of -/

/-- A character that opens and closes nothing and is no sign of a separator. -/
def IsPlain (c : Char) : Prop :=
  c ∉ opening ∧ c ∉ closing ∧ c ∉ signs ∧ c ≠ '"' ∧ c ≠ '\\'

instance (c : Char) : Decidable (IsPlain c) := inferInstanceAs (Decidable (_ ∧ _ ∧ _ ∧ _ ∧ _))

/-- Plain characters alone. -/
def AllPlain (cs : List Char) : Prop := ∀ c ∈ cs, IsPlain c

instance (cs : List Char) : Decidable (AllPlain cs) := List.decidableBAll _ cs

/-- What may stand in a quoted string. -/
inductive Quoted : List Char → Prop
  | nil : Quoted []
  | char {c : Char} {q : List Char} : c ≠ '"' → c ≠ '\\' → Quoted q → Quoted (c :: q)
  | escape (c : Char) {q : List Char} : Quoted q → Quoted ('\\' :: c :: q)

/-- Texts in which every bracket and every quoted string that is opened is closed; `bare` says
whether one of the parts outside the brackets is a separator. -/
inductive Closed : (bare : Bool) → List Char → Prop
  | nil : Closed false []
  | plain {bare : Bool} {c : Char} {t : List Char} : IsPlain c → Closed bare t →
      Closed bare (c :: t)
  | quoted {bare : Bool} {q t : List Char} : Quoted q → Closed bare t →
      Closed bare ('"' :: (q ++ '"' :: t))
  | group {bare inside : Bool} {l r : Char} {s t : List Char} : l ∈ opening → r ∈ closing →
      Closed inside s → Closed bare t → Closed bare (l :: (s ++ r :: t))
  | separator {bare : Bool} {separator : String} {t : List Char} : separator ∈ separators →
      Closed bare t → Closed true (separator.toList ++ t)

/-- What does not begin with the sign of a separator. -/
def BeginsFresh (t : List Char) : Prop := ∀ c ∈ t.head?, c ∉ signs

variable {bare : Bool} {c : Char} {q s t rest : List Char}

theorem of_mem_opening (opens : c ∈ opening) : c ≠ '"' ∧ c ≠ '=' ∧ c ∉ signs := by
  simp only [opening, List.mem_cons, List.not_mem_nil, or_false] at opens
  rcases opens with rfl | rfl | rfl | rfl <;> decide

theorem of_mem_closing (closes : c ∈ closing) : c ≠ '"' ∧ c ≠ '=' ∧ c ∉ opening ∧ c ∉ signs := by
  simp only [closing, List.mem_cons, List.not_mem_nil, or_false] at closes
  rcases closes with rfl | rfl | rfl | rfl <;> decide

theorem beginsFresh_cons (fresh : c ∉ signs) : BeginsFresh (c :: t) := by
  intro d hd
  rw [Option.mem_some_iff.1 hd] at fresh
  exact fresh

/-- No text begins with the sign of a separator: before it there is a blank. -/
theorem Closed.beginsFresh_append (closed : Closed bare t) (fresh : BeginsFresh rest) :
    BeginsFresh (t ++ rest) := by
  cases closed with
  | nil => exact fresh
  | plain isPlain _ => exact beginsFresh_cons isPlain.2.2.1
  | quoted _ _ => exact beginsFresh_cons (by decide)
  | group opens _ _ _ => exact beginsFresh_cons (of_mem_opening opens).2.2
  | separator isSeparator _ =>
    have blanks : ∀ s ∈ separators, s.toList = ' ' :: s.toList.tail := by decide
    rw [blanks _ isSeparator]
    exact beginsFresh_cons (by decide)

/-- A separator begins with a blank, and its sign is behind it. -/
theorem not_separator (fresh : c = ' ' → BeginsFresh t) :
    (separators.any fun separator => separator.toList.isPrefixOf (c :: t)) = false := by
  rw [List.any_eq_false]
  intro separator isSeparator begins
  obtain ⟨after, split⟩ := List.isPrefixOf_iff_prefix.1 begins
  have shapes : ∀ s ∈ separators, ∃ a ∈ signs, ∃ u, s.toList = ' ' :: a :: u := by
    intro s isSeparator
    simp only [separators, List.mem_cons, List.not_mem_nil, or_false] at isSeparator
    rcases isSeparator with rfl | rfl | rfl
    · exact ⟨'|', by decide, _, rfl⟩
    · exact ⟨'&', by decide, _, rfl⟩
    · exact ⟨'=', by decide, _, rfl⟩
  obtain ⟨a, sign, u, shape⟩ := shapes separator isSeparator
  rw [shape] at split
  obtain ⟨blank, rfl⟩ := List.cons.inj split
  exact fresh blank.symm a rfl sign

/-- Reads a character that begins no separator. -/
theorem exposes_cons (r : Reading) (fresh : c = ' ' → BeginsFresh t) :
    exposes r (c :: t) = exposes (r.next c) t := by
  show ((_ && separators.any _) || _) = _
  rw [not_separator fresh, Bool.and_false, Bool.false_or]

theorem next_plain (isPlain : IsPlain c) (depth : Nat) :
    (Reading.among depth).next c = .among depth := by
  obtain ⟨notOpening, notClosing, noSign, quote, -⟩ := isPlain
  have equals : c ≠ '=' := by
    rintro rfl
    exact noSign (by decide)
  show Reading.step depth c = _
  unfold Reading.step
  rw [if_neg quote, if_neg equals, if_neg notOpening, if_neg notClosing]

theorem next_opening (opens : c ∈ opening) (depth : Nat) :
    (Reading.among depth).next c = .among (depth + 1) := by
  obtain ⟨quote, equals, -⟩ := of_mem_opening opens
  show Reading.step depth c = _
  unfold Reading.step
  rw [if_neg quote, if_neg equals, if_pos opens]

theorem next_closing (closes : c ∈ closing) (depth : Nat) :
    (Reading.among (depth + 1)).next c = .among depth := by
  obtain ⟨quote, equals, notOpening, -⟩ := of_mem_closing closes
  show Reading.step (depth + 1) c = _
  unfold Reading.step
  rw [if_neg quote, if_neg equals, if_neg notOpening, if_pos closes]
  rfl

/-- A quoted string is left where it ends, and nothing separates in it. -/
theorem Quoted.exposes_append (quoted : Quoted q) (depth : Nat) :
    exposes (.quoted depth) (q ++ '"' :: rest) = exposes (.among depth) rest := by
  -- inside a quoted string nothing is outside
  have inner : ∀ c t, exposes (.quoted depth) (c :: t)
      = exposes ((Reading.quoted depth).next c) t := by
    intro c t
    show (false && _ || _) = _
    rw [Bool.false_and, Bool.false_or]
  induction quoted with
  | nil => exact inner '"' rest
  | @char c q notQuote notBackslash _ ih =>
    show exposes _ (c :: (q ++ '"' :: rest)) = _
    have stays : (Reading.quoted depth).next c = .quoted depth := by
      show (if c = '"' then _ else _) = _
      rw [if_neg notQuote, if_neg notBackslash]
    rw [inner, stays, ih]
  | escape c _ ih =>
    show exposes _ ('\\' :: c :: (_ ++ '"' :: rest)) = _
    rw [inner, ← ih]
    rfl

/-- A separator is read to its end. -/
theorem exposes_separator {separator : String} (isSeparator : separator ∈ separators)
    (depth : Nat) (fresh : BeginsFresh t) : exposes (.among depth) (separator.toList ++ t)
      = ((depth == 0) || exposes (.among depth) t) := by
  have begins : (separators.any fun s => s.toList.isPrefixOf (separator.toList ++ t)) = true :=
    List.any_eq_true.2 ⟨separator, isSeparator,
      List.isPrefixOf_iff_prefix.2 (List.prefix_append _ _)⟩
  have outside : (Reading.among depth).isOutside = (depth == 0) := by cases depth <;> rfl
  -- behind the first blank there is none until the last one
  have goesOn : ∀ c u, c :: u = separator.toList → exposes (.among depth) (c :: (u ++ t))
      = ((depth == 0) || exposes ((Reading.among depth).next c) (u ++ t)) := by
    intro c u shape
    rw [← shape] at begins
    show ((_ && separators.any _) || _) = _
    rw [outside, show c :: (u ++ t) = c :: u ++ t from rfl, begins, Bool.and_true]
  have blank : ∀ depth, exposes (.among depth) (' ' :: t) = exposes (.among depth) t :=
    fun depth => exposes_cons _ fun _ => fresh
  simp only [separators, List.mem_cons, List.not_mem_nil, or_false] at isSeparator
  rcases isSeparator with rfl | rfl | rfl
  · show exposes _ (' ' :: (['|', ' '] ++ t)) = _
    rw [goesOn ' ' ['|', ' '] rfl]
    show (_ || exposes (.among depth) ('|' :: ' ' :: t)) = _
    rw [exposes_cons _ fun blank => absurd blank (by decide)]
    exact congrArg _ (blank depth)
  · show exposes _ (' ' :: (['&', ' '] ++ t)) = _
    rw [goesOn ' ' ['&', ' '] rfl]
    show (_ || exposes (.among depth) ('&' :: ' ' :: t)) = _
    rw [exposes_cons _ fun blank => absurd blank (by decide)]
    exact congrArg _ (blank depth)
  · show exposes _ (' ' :: (['=', '>', ' '] ++ t)) = _
    rw [goesOn ' ' ['=', '>', ' '] rfl]
    show (_ || exposes (.among depth) ('=' :: '>' :: ' ' :: t)) = _
    rw [exposes_cons _ fun blank => absurd blank (by decide)]
    show (_ || exposes (.behindEquals depth) ('>' :: ' ' :: t)) = _
    rw [exposes_cons _ fun blank => absurd blank (by decide)]
    exact congrArg _ (blank depth)

/-- **A SEPARATOR IS EXPOSED** if it is one of the parts outside the brackets, where nothing was
open, or in what comes after. -/
theorem Closed.exposes_append (closed : Closed bare t) : ∀ (depth : Nat) {rest : List Char},
    BeginsFresh rest → exposes (.among depth) (t ++ rest)
      = ((bare && depth == 0) || exposes (.among depth) rest) := by
  induction closed with
  | nil =>
    intro depth rest _
    rw [Bool.false_and, Bool.false_or]
    rfl
  | plain isPlain closed ih =>
    intro depth rest fresh
    rw [← ih depth fresh, List.cons_append,
      exposes_cons _ fun _ => closed.beginsFresh_append fresh, next_plain isPlain]
  | @quoted bare q t quoted closed ih =>
    intro depth rest fresh
    have split : '"' :: (q ++ '"' :: t) ++ rest = '"' :: (q ++ '"' :: (t ++ rest)) := by simp
    rw [← ih depth fresh, split, exposes_cons _ fun blank => absurd blank (by decide)]
    exact quoted.exposes_append depth
  | @group bare inside l r s t opens closes inner closed ihInner ih =>
    intro depth rest fresh
    have close : BeginsFresh (r :: (t ++ rest)) := beginsFresh_cons (of_mem_closing closes).2.2.2
    have split : l :: (s ++ r :: t) ++ rest = l :: (s ++ r :: (t ++ rest)) := by simp
    -- what is inside is read one level down, where nothing is outside
    rw [← ih depth fresh, split, exposes_cons _ fun _ => inner.beginsFresh_append close,
      next_opening opens, ihInner (depth + 1) close,
      exposes_cons _ fun _ => closed.beginsFresh_append fresh, next_closing closes]
    simp
  | separator isSeparator closed ih =>
    intro depth rest fresh
    rw [List.append_assoc, exposes_separator isSeparator depth (closed.beginsFresh_append fresh),
      ih depth fresh]
    cases depth <;> simp

/-! ## §3. Putting texts together -/

/-- A text in which every bracket and every quoted string is closed; `bare` says whether a separator
stands outside of them. -/
def ReadsAs (bare : Bool) (text : String) : Prop := Closed bare text.toList

/-- A text in which every bracket and every quoted string is closed. -/
def Balanced (text : String) : Prop := ∃ bare, ReadsAs bare text

/-- A text in which every bracket and every quoted string is closed, with a separator outside of
them if and only if `P`. -/
def BareIff (P : Prop) (text : String) : Prop := ∃ bare, ReadsAs bare text ∧ (bare = true ↔ P)

/-- The two ends of what stands in brackets. -/
def enclosures : List (String × String) := [("(", ")"), ("[", "]"), ("\x7b", "\x7d"), ("<", ">")]

variable {inside : Bool} {text text' separator : String} {texts : List String}

theorem ReadsAs.exposes_iff (reads : ReadsAs bare text) : Exposes text ↔ bare = true := by
  have all := Closed.exposes_append reads 0 (show BeginsFresh [] from nofun)
  rw [List.append_nil] at all
  rw [exposes_iff_exposes, all]
  simp [exposes]

theorem BareIff.exposes_iff {P : Prop} (bareIff : BareIff P text) : Exposes text ↔ P := by
  obtain ⟨bare, reads, iff⟩ := bareIff
  exact reads.exposes_iff.trans iff

theorem ReadsAs.bareIff {P : Prop} (reads : ReadsAs bare text) (iff : bare = true ↔ P) :
    BareIff P text := ⟨bare, reads, iff⟩

theorem BareIff.balanced {P : Prop} (bareIff : BareIff P text) : Balanced text := by
  obtain ⟨bare, reads, -⟩ := bareIff
  exact ⟨bare, reads⟩

theorem Closed.append (first : Closed inside s) (second : Closed bare t) :
    Closed (inside || bare) (s ++ t) := by
  induction first with
  | nil => exact second
  | plain isPlain _ ih => exact .plain isPlain ih
  | @quoted _ q s quoted _ ih =>
    have split : '"' :: (q ++ '"' :: s) ++ t = '"' :: (q ++ '"' :: (s ++ t)) := by simp
    rw [split]
    exact .quoted quoted ih
  | @group _ _ l r inner s opens closes innerClosed _ _ ih =>
    have split : l :: (inner ++ r :: s) ++ t = l :: (inner ++ r :: (s ++ t)) := by simp
    rw [split]
    exact .group opens closes innerClosed ih
  | separator isSeparator _ ih =>
    rw [List.append_assoc]
    exact .separator isSeparator ih

theorem ReadsAs.append (first : ReadsAs inside text) (second : ReadsAs bare text') :
    ReadsAs (inside || bare) (text ++ text') := by
  unfold ReadsAs
  rw [String.toList_append]
  exact Closed.append first second

theorem ReadsAs.balanced (reads : ReadsAs bare text) : Balanced text := ⟨bare, reads⟩

theorem Balanced.append (first : Balanced text) (second : Balanced text') :
    Balanced (text ++ text') := by
  obtain ⟨_, first⟩ := first
  obtain ⟨_, second⟩ := second
  exact (first.append second).balanced

theorem closed_of_plain (plain : AllPlain t) : Closed false t := by
  induction t with
  | nil => exact .nil
  | cons c t ih =>
    obtain ⟨first, rest⟩ := List.forall_mem_cons.1 plain
    exact .plain first (ih rest)

theorem reads_of_plain (text : String) (plain : AllPlain text.toList) : ReadsAs false text :=
  closed_of_plain plain

theorem balanced_of_plain (text : String) (plain : AllPlain text.toList) : Balanced text :=
  (reads_of_plain text plain).balanced

theorem reads_separator (isSeparator : separator ∈ separators) : ReadsAs true separator := by
  unfold ReadsAs
  rw [← List.append_nil separator.toList]
  exact .separator isSeparator .nil

/-- What stands in brackets is not bare. -/
theorem Balanced.enclose (balanced : Balanced text) {left right : String}
    (encloses : (left, right) ∈ enclosures) : ReadsAs false (left ++ text ++ right) := by
  obtain ⟨inside, reads⟩ := balanced
  have closed : ∀ l ∈ opening, ∀ r ∈ closing, Closed false ([l] ++ (text.toList ++ [r])) :=
    fun l opens r closes => .group opens closes reads .nil
  unfold ReadsAs
  rw [String.toList_append, String.toList_append, List.append_assoc]
  simp only [enclosures, List.mem_cons, Prod.mk.injEq, List.not_mem_nil, or_false] at encloses
  rcases encloses with ⟨rfl, rfl⟩ | ⟨rfl, rfl⟩ | ⟨rfl, rfl⟩ | ⟨rfl, rfl⟩
  · exact closed '(' (by decide) ')' (by decide)
  · exact closed '[' (by decide) ']' (by decide)
  · exact closed '\x7b' (by decide) '\x7d' (by decide)
  · exact closed '<' (by decide) '>' (by decide)

theorem reads_brackets : ReadsAs false "[]" :=
  (balanced_of_plain "" (by decide)).enclose (show ("[", "]") ∈ enclosures by decide)

/-- A quoted string is not bare. -/
theorem Quoted.reads (quoted : Quoted text.toList) : ReadsAs false ("\"" ++ text ++ "\"") := by
  unfold ReadsAs
  rw [String.toList_append, String.toList_append, List.append_assoc]
  exact .quoted quoted .nil

theorem Balanced.joined (between : Balanced separator) (balanced : ∀ t ∈ texts, Balanced t) :
    Balanced (joined separator texts) := by
  induction texts with
  | nil => exact ⟨false, .nil⟩
  | cons text texts ih =>
    obtain ⟨first, rest⟩ := List.forall_mem_cons.1 balanced
    match texts with
    | [] => exact first
    | text' :: texts =>
      show Balanced (separator.intercalate (text :: text' :: texts))
      rw [String.intercalate_cons_cons]
      exact (first.append between).append (ih rest)

/-- Several texts are told apart by the separator between the first two. -/
theorem reads_joined (isSeparator : separator ∈ separators) (balanced : ∀ t ∈ texts, Balanced t)
    (several : 2 ≤ texts.length) : ReadsAs true (joined separator texts) := by
  match texts with
  | [] => exact absurd several (Nat.not_succ_le_zero 1)
  | [_] => exact absurd several (Nat.not_succ_le_self 1)
  | text :: text' :: texts =>
    obtain ⟨⟨first, firstReads⟩, rest⟩ := List.forall_mem_cons.1 balanced
    have between := reads_separator isSeparator
    obtain ⟨others, othersRead⟩ := between.balanced.joined rest
    have all := (firstReads.append between).append othersRead
    show ReadsAs true (separator.intercalate (text :: text' :: texts))
    rw [String.intercalate_cons_cons]
    rw [Bool.or_true, Bool.true_or] at all
    exact all

/-! ## §4. Literals -/

/-- Letters and digits are plain. -/
theorem isPlain_of_isAlphanum (alphanumeric : c.isAlphanum = true) : IsPlain c := by
  have others :
      ((opening ++ closing ++ signs ++ ['"', '\\']).all fun c => !c.isAlphanum) = true := by
    decide
  have absent : c ∉ opening ++ closing ++ signs ++ ['"', '\\'] := by
    intro present
    have other := List.all_eq_true.1 others c present
    rw [alphanumeric] at other
    exact Bool.noConfusion other
  simp only [List.mem_append, List.mem_cons, List.not_mem_nil, or_false, not_or] at absent
  exact ⟨absent.1.1.1, absent.1.1.2, absent.1.2, absent.2⟩

theorem isPlain_of_isDigit (digit : c.isDigit = true) : IsPlain c :=
  isPlain_of_isAlphanum (by rw [Char.isAlphanum, digit, Bool.or_true])

theorem allPlain_digits {n : Nat} : AllPlain (Nat.toDigits 10 n) :=
  fun _ digit => isPlain_of_isDigit (Nat.isDigit_of_mem_toDigits (by decide) (by decide) digit)

theorem reads_toString (n : Nat) : ReadsAs false (toString n) := by
  refine reads_of_plain _ fun c member => allPlain_digits c (n := n) ?_
  rw [← Nat.toList_repr]
  exact member

theorem allPlain_positional (d : Decimal) : AllPlain d.positional.toList := by
  -- digits, zeros and one point, in each of the forms
  have zero : ∀ n, AllPlain (Decimal.zeros n) := by
    intro n c member
    rw [List.eq_of_mem_replicate member]
    decide
  have point : IsPlain '.' := by decide
  unfold Decimal.positional
  dsimp only
  intro c
  split
  · exact fun member => List.forall_mem_singleton.2 (show IsPlain '0' by decide) c member
  · split
    · rw [String.toList_ofList, List.mem_append]
      rintro (digit | zeros)
      · exact allPlain_digits c digit
      · exact zero _ c zeros
    · split
      · rw [String.toList_ofList, List.mem_append, List.mem_cons]
        rintro (whole | rfl | part)
        · exact allPlain_digits c (List.mem_of_mem_take whole)
        · exact point
        · exact allPlain_digits c (List.mem_of_mem_drop part)
      · rw [String.toList_ofList]
        simp only [List.cons_append, List.mem_cons, List.mem_append]
        rintro (rfl | rfl | zeros | digit)
        · decide
        · exact point
        · exact zero _ c zeros
        · exact allPlain_digits c digit

theorem reads_decimal (x : Binary64) : ReadsAs false (Decimal.text x) := by
  refine reads_of_plain _ ?_
  unfold Decimal.text
  have infinity : AllPlain "Infinity".toList := by decide
  dsimp only
  split
  · decide
  -- no text of a number has a bracket or a quote in it
  · have size : ∀ c ∈ (if x.isInfinite then "Infinity"
        else (Decimal.shortest x.significand.1 x.significand.2).positional).toList, IsPlain c := by
      split
      · exact infinity
      · exact allPlain_positional _
    split
    · intro c member
      rw [String.toList_append, List.mem_append] at member
      rcases member with sign | member
      · exact List.forall_mem_singleton.2 (show IsPlain '-' by decide) c sign
      · exact size c member
    · exact size

theorem Quoted.append (first : Quoted q) (second : Quoted s) : Quoted (q ++ s) := by
  induction first with
  | nil => exact second
  | char notQuote notBackslash _ ih => exact .char notQuote notBackslash ih
  | escape c _ ih => exact .escape c ih

theorem quoted_of_forall (others : ∀ c ∈ q, c ≠ '"' ∧ c ≠ '\\') : Quoted q := by
  induction q with
  | nil => exact .nil
  | cons c q ih =>
    obtain ⟨first, rest⟩ := List.forall_mem_cons.1 others
    exact .char first.1 first.2 (ih rest)

theorem quoted_of_plain (plain : AllPlain q) : Quoted q :=
  quoted_of_forall fun c member => (plain c member).2.2.2

theorem hexadecimal_ne (n : Nat) : ∀ c ∈ Nat.toDigits 16 n, c ≠ '"' ∧ c ≠ '\\' := by
  have digits : ∀ k < 16, k.digitChar ≠ '"' ∧ k.digitChar ≠ '\\' := by decide
  induction n using Nat.strongRecOn with
  | ind n ih =>
    intro c member
    by_cases last : n < 16
    · rw [Nat.toDigits_of_lt_base last, List.mem_singleton] at member
      rw [member]
      exact digits n last
    · rw [Nat.toDigits_of_base_le (by decide) (by omega), List.mem_append,
        List.mem_singleton] at member
      rcases member with before | rfl
      · exact ih (n / 16) (by omega) c before
      · exact digits _ (Nat.mod_lt n (by decide))

theorem quoted_escape (c : Char) : Quoted (escape c) := by
  unfold escape
  split_ifs with _ _ _ _ quote backslash
  · exact .escape _ .nil
  · exact .escape _ .nil
  · exact .escape _ .nil
  · exact .escape _ .nil
  · exact .escape _ .nil
  · exact .escape _ .nil
  · refine .escape 'u' (.char (by decide) (by decide) ?_)
    refine .append (quoted_of_forall (hexadecimal_ne c.toNat)) ?_
    exact .char (by decide) (by decide) .nil
  · exact .char quote backslash .nil

/-- A quoted text closes its quotation where it ends. -/
theorem reads_quote (text : String) : ReadsAs false (quote text) := by
  have quoted : ∀ cs : List Char, Quoted (cs.flatMap escape) := by
    intro cs
    induction cs with
    | nil => exact .nil
    | cons c cs ih =>
      rw [List.flatMap_cons]
      exact (quoted_escape c).append ih
  unfold ReadsAs quote
  rw [String.toList_ofList]
  exact .quoted (quoted _) .nil

end Assignability.Text
