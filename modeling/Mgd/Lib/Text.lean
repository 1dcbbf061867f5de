import Mathlib.Data.List.Basic
import Mathlib.Data.List.TakeWhile

/-!
# Text in columns

Texts as lists of characters, and what line-oriented readers do with them:
`lines`, the columns of a line (`splitWhitespace`), a text without the white
space around it (`trim`), a fixed prefix (`stripPrefix`) and decimal numbers of
a bounded range (`parseUnsigned`, `parseSigned`).  Everything recurses on the
list, so a reader built from these runs on a concrete text.

`lines_append` reads a text line by line; `trim_eq_iff` says when the first
column of a text is all of it.
-/

namespace Mgd.Lib.Text

/-! ## Characters -/

/-- The characters with the Unicode property `White_Space`. -/
def isWhitespace (c : Char) : Bool :=
  let n := c.toNat
  (decide (9 ≤ n) && decide (n ≤ 13)) || n == 0x20 || n == 0x85 || n == 0xA0 || n == 0x1680 ||
    (decide (0x2000 ≤ n) && decide (n ≤ 0x200A)) || n == 0x2028 || n == 0x2029 || n == 0x202F ||
    n == 0x205F || n == 0x3000

def isAsciiDigit (c : Char) : Bool := decide ('0' ≤ c) && decide (c ≤ '9')

theorem not_space_of_digit {c : Char} (h : isAsciiDigit c = true) : isWhitespace c = false := by
  unfold isAsciiDigit at h
  simp only [Bool.and_eq_true, decide_eq_true_eq, Char.le_def, UInt32.le_iff_toNat_le] at h
  have hLow : 48 ≤ c.toNat := h.1
  have hHigh : c.toNat ≤ 57 := h.2
  unfold isWhitespace
  simp only [Bool.or_eq_false_iff, Bool.and_eq_false_iff, decide_eq_false_iff_not,
    beq_eq_false_iff_ne]
  omega

/-! ## Lines and columns -/

/-- A line without the carriage return that its line feed leaves behind. -/
def dropCr (line : List Char) : List Char :=
  if line.getLast? = some '\r' then line.dropLast else line

/-- The lines of a text, `cur` being what has been read of the first. -/
def linesFrom : List Char → List Char → List (List Char)
  | cur, [] => if cur.isEmpty then [] else [cur]
  | cur, c :: rest =>
      if c = '\n' then dropCr cur :: linesFrom [] rest else linesFrom (cur ++ [c]) rest

def lines (text : List Char) : List (List Char) := linesFrom [] text

/-- The columns of a line, `cur` being what has been read of the first. -/
def columnsFrom : List Char → List Char → List (List Char)
  | cur, [] => if cur.isEmpty then [] else [cur]
  | cur, c :: rest =>
      if isWhitespace c then
        if cur.isEmpty then columnsFrom [] rest else cur :: columnsFrom [] rest
      else columnsFrom (cur ++ [c]) rest

/-- The maximal runs without white space. -/
def splitWhitespace (line : List Char) : List (List Char) := columnsFrom [] line

/-- The text without the white space at its ends. -/
def trim (text : List Char) : List Char :=
  ((text.dropWhile isWhitespace).reverse.dropWhile isWhitespace).reverse

theorem linesFrom_append {line : List Char} (hLine : '\n' ∉ line) (cur rest : List Char) :
    linesFrom cur (line ++ '\n' :: rest) = dropCr (cur ++ line) :: lines rest := by
  induction line generalizing cur with
  | nil => simp [linesFrom, lines]
  | cons c line ih =>
      rw [List.mem_cons, not_or] at hLine
      rw [List.cons_append, linesFrom, if_neg (Ne.symm hLine.1), ih hLine.2, List.append_assoc]
      rfl

/-- The first line, and the rest of the text. -/
theorem lines_append {line : List Char} (hLine : '\n' ∉ line) (rest : List Char) :
    lines (line ++ '\n' :: rest) = dropCr line :: lines rest :=
  linesFrom_append hLine [] rest

/-- After a line break the lines are those of what follows. -/
theorem lines_append_of_break {text : List Char} (h : text.getLast? = some '\n')
    (rest : List Char) : lines (text ++ rest) = lines text ++ lines rest := by
  suffices hFrom : ∀ cur, linesFrom cur (text ++ rest) = linesFrom cur text ++ lines rest from
    hFrom []
  induction text with
  | nil => cases h
  | cons c text ih =>
      intro cur
      rw [List.cons_append, linesFrom, linesFrom]
      cases text with
      | nil =>
          cases h
          rfl
      | cons next more =>
          rw [List.getLast?_cons_cons] at h
          rw [ih h, ih h]
          split <;> rfl

/-- A last line without a break gets one. -/
theorem lines_append_add_break {text : List Char} (hNonempty : text ≠ [])
    (hLast : text.getLast? ≠ some '\n') (hCr : ∀ line ∈ lines text, '\r' ∉ line)
    (rest : List Char) : lines (text ++ '\n' :: rest) = lines text ++ lines rest := by
  suffices hFrom : ∀ cur, cur ++ text ≠ [] → (∀ line ∈ linesFrom cur text, '\r' ∉ line) →
      linesFrom cur (text ++ '\n' :: rest) = linesFrom cur text ++ lines rest from
    hFrom [] hNonempty hCr
  clear hNonempty hCr
  induction text with
  | nil =>
      intro cur hCur hCr
      rw [List.append_nil] at hCur
      have hSome : linesFrom cur [] = [cur] := by
        rw [linesFrom, if_neg (by simpa using hCur)]
      rw [hSome] at hCr ⊢
      have hKept : dropCr cur = cur := by
        unfold dropCr
        rw [if_neg]
        exact fun hEnd => hCr cur List.mem_cons_self (List.mem_of_getLast? hEnd)
      rw [List.nil_append, linesFrom, if_pos rfl, hKept]
      rfl
  | cons c text ih =>
      intro cur hCur hCr
      have hRest : text.getLast? ≠ some '\n' := by
        intro hEnd
        apply hLast
        rw [List.getLast?_cons, hEnd]
        rfl
      rw [List.cons_append, linesFrom, linesFrom]
      rw [linesFrom] at hCr
      by_cases hBreak : c = '\n'
      · rw [if_pos hBreak] at hCr ⊢
        rw [if_pos hBreak]
        have hMore : [] ++ text ≠ [] := by
          rw [List.nil_append]
          rintro rfl
          rw [hBreak] at hLast
          exact hLast rfl
        rw [ih hRest [] hMore fun line hLine => hCr line (List.mem_cons_of_mem _ hLine)]
        rfl
      · rw [if_neg hBreak] at hCr ⊢
        rw [if_neg hBreak]
        exact ih hRest (cur ++ [c]) (by simp) hCr

/-- Each line with a line break behind it. -/
def unlines (ls : List (List Char)) : List Char := ls.flatMap fun line => line ++ ['\n']

theorem lines_unlines {ls : List (List Char)} (h : ∀ line ∈ ls, '\n' ∉ line ∧ '\r' ∉ line) :
    lines (unlines ls) = ls := by
  induction ls with
  | nil => rfl
  | cons line rest ih =>
      rw [List.forall_mem_cons] at h
      have hKept : dropCr line = line := by
        unfold dropCr
        rw [if_neg]
        exact fun hEnd => h.1.2 (List.mem_of_getLast? hEnd)
      show lines (line ++ ['\n'] ++ unlines rest) = _
      rw [List.append_assoc, List.singleton_append, lines_append h.1.1, hKept, ih h.2]

/-- Lines joined by line breaks, and one at the end. -/
theorem intercalate_append_break {ls : List (List Char)} (h : ls ≠ []) :
    ['\n'].intercalate ls ++ ['\n'] = unlines ls := by
  induction ls with
  | nil => exact absurd rfl h
  | cons line rest ih =>
      cases rest with
      | nil => simp [unlines]
      | cons next more =>
          have hRest := ih (List.cons_ne_nil next more)
          rw [List.intercalate_cons_cons, List.append_assoc, List.append_assoc, hRest]
          simp [unlines]

/-- A carriage return after the first character is dropped with the rest. -/
theorem dropCr_append {start : List Char} (hStart : start.getLast? ≠ some '\r')
    (rest : List Char) : dropCr (start ++ rest) = start ++ dropCr rest := by
  cases rest with
  | nil =>
      unfold dropCr
      rw [List.append_nil, if_neg hStart, if_neg (by simp), List.append_nil]
  | cons c rest =>
      unfold dropCr
      rw [List.getLast?_append_of_ne_nil _ (List.cons_ne_nil c rest)]
      split
      · rw [List.dropLast_append_of_ne_nil (List.cons_ne_nil c rest)]
      · rfl

/-- What a function of texts that ignores white space at the end says of a line
does not depend on the carriage return. -/
theorem congr_dropCr {α : Type} {f : List Char → α}
    (hEnd : ∀ text w, isWhitespace w = true → f (text ++ [w]) = f text) (line : List Char) :
    f (dropCr line) = f line := by
  unfold dropCr
  split
  · next hCr =>
      rw [← hEnd line.dropLast '\r' (by decide), List.dropLast_append_getLast? _ hCr]
  · rfl

/-! ## Columns -/

theorem columnsFrom_word {word : List Char} (hWord : ∀ c ∈ word, isWhitespace c = false)
    (cur rest : List Char) : columnsFrom cur (word ++ rest) = columnsFrom (cur ++ word) rest := by
  induction word generalizing cur with
  | nil => simp
  | cons c word ih =>
      rw [List.forall_mem_cons] at hWord
      rw [List.cons_append, columnsFrom, if_neg (by rw [hWord.1]; exact Bool.false_ne_true),
        ih hWord.2, List.append_assoc]
      rfl

/-- White space in front is ignored. -/
theorem splitWhitespace_cons_space {w : Char} (hSpace : isWhitespace w = true)
    (rest : List Char) : splitWhitespace (w :: rest) = splitWhitespace rest := by
  unfold splitWhitespace
  rw [columnsFrom, if_pos hSpace]
  rfl

/-- A word that ends the text or is followed by white space is a column. -/
theorem splitWhitespace_word {word rest : List Char} (hNonempty : word ≠ [])
    (hWord : ∀ c ∈ word, isWhitespace c = false)
    (hRest : ∀ c ∈ rest.head?, isWhitespace c = true) :
    splitWhitespace (word ++ rest) = word :: splitWhitespace rest := by
  have hCur : word.isEmpty = false := List.isEmpty_eq_false_iff.mpr hNonempty
  unfold splitWhitespace
  rw [columnsFrom_word hWord, List.nil_append]
  cases rest with
  | nil => simp [columnsFrom, hCur]
  | cons c rest =>
      have hSpace := hRest c rfl
      simp [columnsFrom, hSpace, hCur]

/-- The first column, what precedes it and what follows it. -/
theorem splitWhitespace_eq (text : List Char) :
    splitWhitespace text =
      match text.dropWhile isWhitespace with
      | [] => []
      | c :: rest =>
          (c :: rest.takeWhile fun c => !isWhitespace c) ::
            splitWhitespace (rest.dropWhile fun c => !isWhitespace c) := by
  induction text with
  | nil => rfl
  | cons c rest ih =>
      by_cases hSpace : isWhitespace c = true
      · rw [splitWhitespace_cons_space hSpace, ih, List.dropWhile_cons, if_pos hSpace]
      · rw [List.dropWhile_cons, if_neg hSpace]
        have hWord : ∀ x ∈ c :: rest.takeWhile fun c => !isWhitespace c,
            isWhitespace x = false := by
          intro x hx
          cases List.mem_cons.mp hx with
          | inl hFirst => rw [hFirst]; exact Bool.eq_false_iff.mpr hSpace
          | inr hLater => simpa using List.mem_takeWhile_imp hLater
        have hEnd : ∀ x ∈ (rest.dropWhile fun c => !isWhitespace c).head?,
            isWhitespace x = true := by
          intro x hx
          have hStop := List.head?_dropWhile_not (fun c => !isWhitespace c) rest
          rw [Option.mem_def.mp hx] at hStop
          simpa using hStop
        have hColumn := splitWhitespace_word (List.cons_ne_nil _ _) hWord hEnd
        rw [List.cons_append, List.takeWhile_append_dropWhile] at hColumn
        exact hColumn

theorem splitWhitespace_eq_nil_iff {text : List Char} :
    splitWhitespace text = [] ↔ ∀ c ∈ text, isWhitespace c = true := by
  rw [splitWhitespace_eq]
  cases hDrop : text.dropWhile isWhitespace with
  | nil => simpa using List.dropWhile_eq_nil_iff.mp hDrop
  | cons c rest =>
      simp only [List.cons_ne_nil, false_iff]
      intro hAll
      rw [List.dropWhile_eq_nil_iff.mpr hAll] at hDrop
      cases hDrop

/-- A column at the start is all of the text exactly when it is the only one. -/
theorem trim_eq_iff {text column : List Char} {columns : List (List Char)}
    (h : splitWhitespace text = column :: columns) : trim text = column ↔ columns = [] := by
  rw [splitWhitespace_eq] at h
  unfold trim
  cases hDrop : text.dropWhile isWhitespace with
  | nil =>
      rw [hDrop] at h
      cases h
  | cons c rest =>
      rw [hDrop] at h
      injection h with hColumn hColumns
      have hSpace : isWhitespace c = false := by
        have hStop := List.head?_dropWhile_not isWhitespace text
        rw [hDrop] at hStop
        simpa using hStop
      have hWord : ∀ x ∈ column.reverse, isWhitespace x = false := by
        intro x hx
        rw [← hColumn, List.mem_reverse] at hx
        cases List.mem_cons.mp hx with
        | inl hFirst => rw [hFirst]; exact hSpace
        | inr hLater => simpa using List.mem_takeWhile_imp hLater
      have hKept : column.reverse.dropWhile isWhitespace = column.reverse := by
        cases hReverse : column.reverse with
        | nil => rfl
        | cons x xs =>
            rw [hReverse] at hWord
            rw [List.dropWhile_cons, hWord x List.mem_cons_self]
            rfl
      have hSplit : (c :: rest).reverse =
          (rest.dropWhile fun c => !isWhitespace c).reverse ++ column.reverse := by
        rw [← hColumn, ← List.reverse_append, List.cons_append, List.takeWhile_append_dropWhile]
      rw [hSplit, List.dropWhile_append, hKept, ← hColumns, splitWhitespace_eq_nil_iff]
      split
      · next hNone =>
          rw [List.isEmpty_iff, List.dropWhile_eq_nil_iff] at hNone
          rw [List.reverse_reverse]
          exact iff_of_true rfl fun x hx => hNone x (List.mem_reverse.mpr hx)
      · next hSome =>
          rw [List.isEmpty_iff] at hSome
          refine iff_of_false ?_ ?_
          · intro hEq
            have hLength := congrArg List.length hEq
            rw [List.length_reverse, List.length_append, List.length_reverse] at hLength
            exact hSome (List.length_eq_zero_iff.mp (by omega))
          · intro hAll
            apply hSome
            rw [List.dropWhile_eq_nil_iff]
            exact fun x hx => hAll x (List.mem_reverse.mp hx)

theorem trim_eq_nil_iff {text : List Char} : trim text = [] ↔ splitWhitespace text = [] := by
  rw [splitWhitespace_eq_nil_iff]
  unfold trim
  rw [List.reverse_eq_nil_iff, List.dropWhile_eq_nil_iff]
  simp only [List.mem_reverse]
  constructor
  · intro h
    rw [← List.dropWhile_eq_nil_iff]
    cases hDrop : text.dropWhile isWhitespace with
    | nil => rfl
    | cons c rest =>
        have hStop := List.head?_dropWhile_not isWhitespace text
        have hHead := h c (by rw [hDrop]; exact List.mem_cons_self)
        rw [hDrop] at hStop
        simp [hHead] at hStop
  · intro h c hc
    exact h c ((List.dropWhile_sublist _).mem hc)

theorem trim_cons_space {w : Char} (hSpace : isWhitespace w = true) (text : List Char) :
    trim (w :: text) = trim text := by
  unfold trim
  rw [List.dropWhile_cons, if_pos hSpace]

theorem trim_append_space (text : List Char) (w : Char) (hSpace : isWhitespace w = true) :
    trim (text ++ [w]) = trim text := by
  unfold trim
  rw [List.dropWhile_append]
  split
  · next hNone =>
      rw [List.isEmpty_iff.mp hNone, List.dropWhile_cons, if_pos hSpace]
      rfl
  · rw [List.reverse_append, List.reverse_singleton, List.singleton_append, List.dropWhile_cons,
      if_pos hSpace]

/-- Of a text that begins with a word, only what follows the word is cut. -/
theorem trim_append {word : List Char} (hNonempty : word ≠ [])
    (hFirst : ∀ c ∈ word.head?, isWhitespace c = false)
    (hLast : ∀ c ∈ word.getLast?, isWhitespace c = false) (rest : List Char) :
    trim (word ++ rest) = word ++ (rest.reverse.dropWhile isWhitespace).reverse := by
  have hStop : ∀ {text : List Char} (more : List Char), text ≠ [] →
      (∀ c ∈ text.head?, isWhitespace c = false) →
      (text ++ more).dropWhile isWhitespace = text ++ more := by
    intro text more hText hHead
    obtain ⟨c, tail, rfl⟩ := List.exists_cons_of_ne_nil hText
    have hc := hHead c rfl
    rw [List.cons_append, List.dropWhile_cons, hc]
    rfl
  have hBack := hStop [] (mt List.reverse_eq_nil_iff.mp hNonempty)
    (by rw [List.head?_reverse]; exact hLast)
  rw [List.append_nil] at hBack
  unfold trim
  rw [hStop rest hNonempty hFirst, List.reverse_append, List.dropWhile_append, hBack]
  split
  · next hNone =>
      rw [List.isEmpty_iff.mp hNone, List.reverse_reverse, List.reverse_nil, List.append_nil]
  · rw [List.reverse_append, List.reverse_reverse]

theorem trim_word {word : List Char} (hWord : ∀ c ∈ word, isWhitespace c = false) :
    trim word = word := by
  cases word with
  | nil => rfl
  | cons c word =>
      have hKept := trim_append (List.cons_ne_nil c word)
        (fun x hx => hWord x (List.mem_of_mem_head? hx))
        (fun x hx => hWord x (List.mem_of_getLast? hx)) []
      rw [List.append_nil] at hKept
      rw [hKept]
      exact List.append_nil _

theorem trim_append_spaces (text : List Char) (gap : Nat) :
    trim (text ++ List.replicate gap ' ') = trim text := by
  induction gap with
  | zero => rw [List.replicate_zero, List.append_nil]
  | succ gap ih =>
      rw [List.replicate_succ', ← List.append_assoc, trim_append_space _ _ (by decide), ih]

/-- White space at the end is ignored. -/
theorem splitWhitespace_append_space (text : List Char) (w : Char)
    (hSpace : isWhitespace w = true) : splitWhitespace (text ++ [w]) = splitWhitespace text := by
  have hFrom : ∀ cur, columnsFrom cur (text ++ [w]) = columnsFrom cur text := by
    induction text with
    | nil =>
        intro cur
        simp only [List.nil_append, columnsFrom, hSpace, if_true]
        split <;> rfl
    | cons c rest ih =>
        intro cur
        simp only [List.cons_append, columnsFrom, ih]
  exact hFrom []

/-- What follows the prefix. -/
def stripPrefix : List Char → List Char → Option (List Char)
  | [], text => some text
  | _ :: _, [] => none
  | p :: rest, c :: text => if p = c then stripPrefix rest text else none

theorem stripPrefix_eq_some_iff {start text rest : List Char} :
    stripPrefix start text = some rest ↔ text = start ++ rest := by
  induction start generalizing text with
  | nil => simp [stripPrefix]
  | cons p start ih =>
      cases text with
      | nil => simp [stripPrefix]
      | cons c text =>
          simp only [stripPrefix, List.cons_append, List.cons.injEq]
          by_cases hFirst : p = c
          · rw [if_pos hFirst, ih]
            simp [hFirst]
          · rw [if_neg hFirst]
            simp [Ne.symm hFirst]

/-- What follows the last separator, the whole text when there is none. -/
def afterLast (sep : Char) (text : List Char) : List Char :=
  (text.reverse.takeWhile (fun c => decide (c ≠ sep))).reverse

/-! ## Numbers -/

/-- The value of a run of decimal digits, after `n`. -/
def digitsFrom : Nat → List Char → Option Nat
  | n, [] => some n
  | n, c :: rest =>
      if isAsciiDigit c then digitsFrom (10 * n + (c.toNat - '0'.toNat)) rest else none

/-- At least one digit. -/
def digits (text : List Char) : Option Nat :=
  if text.isEmpty then none else digitsFrom 0 text

/-- A decimal number up to `max`, with an optional plus sign. -/
def parseUnsigned (max : Nat) (text : List Char) : Option Nat :=
  let number :=
    match text with
    | '+' :: rest => digits rest
    | _ => digits text
  number.filter (fun n => decide (n ≤ max))

/-- A decimal number from `-max - 1` to `max`, with an optional sign. -/
def parseSigned (max : Nat) (text : List Char) : Option Int :=
  match text with
  | '-' :: rest =>
      ((digits rest).filter (fun n => decide (n ≤ max + 1))).map fun n => -(n : Int)
  | _ => (parseUnsigned max text).map fun n => (n : Int)

end Mgd.Lib.Text
