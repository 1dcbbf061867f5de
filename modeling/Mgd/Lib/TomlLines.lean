import Mgd.Lib.Decimal

/-!
# Line-oriented TOML

The part of TOML in which every line is an expression by itself: empty lines,
comments, tables under a bare key, and floats under bare keys with a comment
behind them.  What a document of such lines means is read off its lines
(`valueAt`), and `readText_text` reads it off its text.
-/

namespace Mgd.Lib.TomlLines

open Mgd.Lib.Text Mgd.Lib.Decimal

def isBareKeyChar (c : Char) : Bool :=
  isAsciiDigit c || (decide ('a' ≤ c) && decide (c ≤ 'z')) ||
    (decide ('A' ≤ c) && decide (c ≤ 'Z')) || c == '_' || c == '-'

/-- Control characters other than the tab may not stand in a comment. -/
def isCommentChar (c : Char) : Bool := c == '\t' || (decide (0x20 ≤ c.toNat) && c.toNat != 0x7F)

inductive Line
  | blank
  | comment (text : List Char)
  | table (name : List Char)
  | float (key : List Char) (pad : Nat) (whole frac : List Char) (gap : Nat)
      (remark : List Char)

namespace Line

def text : Line → List Char
  | blank => []
  | comment text => '#' :: text
  | table name => '[' :: name ++ [']']
  | float key pad whole frac gap remark =>
      key ++ (List.replicate pad ' ' ++ '=' :: ' ' ::
        (whole ++ '.' :: frac ++ (List.replicate gap ' ' ++ '#' :: remark)))

/-- The rules of TOML for such a line. -/
def WellFormed : Line → Prop
  | blank => True
  | comment text => ∀ c ∈ text, isCommentChar c = true
  | table name => name ≠ [] ∧ ∀ c ∈ name, isBareKeyChar c = true
  | float key _ whole frac _ remark =>
      (key ≠ [] ∧ ∀ c ∈ key, isBareKeyChar c = true) ∧
      (whole ≠ [] ∧ (∀ c ∈ whole, isAsciiDigit c = true) ∧
        (whole.head? = some '0' → whole = ['0'])) ∧
      (frac ≠ [] ∧ ∀ c ∈ frac, isAsciiDigit c = true) ∧
      ∀ c ∈ remark, isCommentChar c = true

end Line

/-- A table and a key in it; the root table has the empty name. -/
abbrev Key := List Char × List Char

def floatValue (whole frac : List Char) : ℚ := (number (whole ++ '.' :: frac)).getD 0

/-- The floats of the lines, `table` being the one they begin in. -/
def entries (table : List Char) : List Line → List (Key × ℚ)
  | [] => []
  | .table name :: rest => entries name rest
  | .float key _ whole frac _ _ :: rest =>
      ((table, key), floatValue whole frac) :: entries table rest
  | _ :: rest => entries table rest

def tables (doc : List Line) : List (List Char) :=
  doc.filterMap fun
    | .table name => some name
    | _ => none

/-- A document that TOML accepts: no table and no key is defined twice. -/
structure WellFormed (doc : List Line) : Prop where
  lines : ∀ l ∈ doc, l.WellFormed
  tables : (tables doc).Nodup
  keys : ((entries [] doc).map Prod.fst).Nodup
  rootKeys : ∀ e ∈ entries [] doc, e.1.1 = [] → e.1.2 ∉ TomlLines.tables doc

def valueAt (doc : List Line) (table key : List Char) : Option ℚ :=
  (entries [] doc).lookup (table, key)

def text (doc : List Line) : List Char := doc.flatMap fun l => l.text ++ ['\n']

/-! ## Reading the text -/

/-- What a line of a well-formed document says. -/
inductive Reading
  | nothing
  | table (name : List Char)
  | float (key : List Char) (value : ℚ)

def Line.reading : Line → Reading
  | .table name => .table name
  | .float key _ whole frac _ _ => .float key (floatValue whole frac)
  | _ => .nothing

def isNumberChar (c : Char) : Bool := isAsciiDigit c || c == '.'

/-- The value behind the equals sign. -/
def readValue (rest : List Char) : ℚ :=
  (number ((rest.dropWhile fun c => c == ' ').takeWhile isNumberChar)).getD 0

def readLine : List Char → Reading
  | [] => .nothing
  | c :: rest =>
      if c = '#' then .nothing
      else if c = '[' then .table (rest.takeWhile isBareKeyChar)
      else
        match ((c :: rest).dropWhile isBareKeyChar).dropWhile fun c => c == ' ' with
        | '=' :: value => .float ((c :: rest).takeWhile isBareKeyChar) (readValue value)
        | _ => .nothing

def readFrom (table : List Char) : List (List Char) → List (Key × ℚ)
  | [] => []
  | line :: rest =>
      match readLine line with
      | .nothing => readFrom table rest
      | .table name => readFrom name rest
      | .float key value => ((table, key), value) :: readFrom table rest

def readText (text : List Char) : List (Key × ℚ) := readFrom [] (lines text)

theorem takeWhile_append_stop {p : Char → Bool} {word rest : List Char}
    (hWord : ∀ c ∈ word, p c = true) (hRest : ∀ c ∈ rest.head?, p c = false) :
    (word ++ rest).takeWhile p = word ∧ (word ++ rest).dropWhile p = rest := by
  have hStop : rest.takeWhile p = [] ∧ rest.dropWhile p = rest := by
    cases rest with
    | nil => exact ⟨rfl, rfl⟩
    | cons c rest =>
        have hc := hRest c rfl
        simp [hc]
  rw [List.takeWhile_append_of_pos hWord, List.dropWhile_append_of_pos hWord, hStop.1, hStop.2,
    List.append_nil]
  exact ⟨rfl, rfl⟩

theorem stop_cons {p : Char → Bool} {x : Char} (h : p x = false) (rest : List Char) :
    ∀ c ∈ (x :: rest).head?, p c = false := by
  intro c hc
  cases hc
  exact h

/-- The first character behind some spaces. -/
theorem stop_padded {p : Char → Bool} {x : Char} (hSpace : p ' ' = false) (h : p x = false)
    (pad : Nat) (rest : List Char) :
    ∀ c ∈ (List.replicate pad ' ' ++ x :: rest).head?, p c = false := by
  cases pad with
  | zero => exact stop_cons h rest
  | succ pad => exact stop_cons hSpace _

theorem isNumberChar_of_digit {c : Char} (h : isAsciiDigit c = true) : isNumberChar c = true := by
  unfold isNumberChar
  rw [h]
  rfl

theorem ne_of_digit {c d : Char} (h : isAsciiDigit c = true) (hd : isAsciiDigit d = false) :
    c ≠ d := by
  intro hSame
  rw [hSame, hd] at h
  cases h

/-- The value of a float line. -/
theorem readValue_float {whole frac : List Char} (hWhole : ∀ c ∈ whole, isAsciiDigit c = true)
    (hNonempty : whole ≠ []) (hFrac : ∀ c ∈ frac, isAsciiDigit c = true) (gap : Nat)
    (remark : List Char) :
    readValue (' ' :: (whole ++ '.' :: frac ++ (List.replicate gap ' ' ++ '#' :: remark))) =
      floatValue whole frac := by
  have hNumber : ∀ c ∈ whole ++ '.' :: frac, isNumberChar c = true := by
    intro c hc
    cases List.mem_append.mp hc with
    | inl hIn => exact isNumberChar_of_digit (hWhole c hIn)
    | inr hIn =>
        cases List.mem_cons.mp hIn with
        | inl hPoint => rw [hPoint]; rfl
        | inr hIn => exact isNumberChar_of_digit (hFrac c hIn)
  have hEnd : ∀ c ∈ (List.replicate gap ' ' ++ '#' :: remark).head?, isNumberChar c = false :=
    stop_padded (by decide) (by decide) gap remark
  obtain ⟨first, tail, hHead⟩ := List.exists_cons_of_ne_nil hNonempty
  have hFirst : (first == ' ') = false := by
    have hDigit := hWhole first (by rw [hHead]; exact List.mem_cons_self)
    exact beq_eq_false_iff_ne.mpr (ne_of_digit hDigit (by decide))
  unfold readValue floatValue
  rw [List.dropWhile_cons, if_pos (by decide)]
  have hDrop : (whole ++ '.' :: frac ++ (List.replicate gap ' ' ++ '#' :: remark)).dropWhile
      (fun c => c == ' ') = whole ++ '.' :: frac ++ (List.replicate gap ' ' ++ '#' :: remark) := by
    rw [hHead, List.cons_append, List.cons_append, List.dropWhile_cons, hFirst]
    rfl
  rw [hDrop, (takeWhile_append_stop hNumber hEnd).1]

theorem dropWhile_spaces (pad : Nat) {c : Char} (h : (c == ' ') = false) (rest : List Char) :
    (List.replicate pad ' ' ++ c :: rest).dropWhile (fun c => c == ' ') = c :: rest := by
  rw [List.dropWhile_append_of_pos (by simp), List.dropWhile_cons, h]
  rfl

/-- **A line says what it is.** -/
theorem readLine_text {l : Line} (h : l.WellFormed) : readLine l.text = l.reading := by
  cases l with
  | blank => rfl
  | comment text => rfl
  | table name =>
      show Reading.table ((name ++ [']']).takeWhile isBareKeyChar) = _
      rw [(takeWhile_append_stop h.2 (stop_cons (by decide) [])).1]
      rfl
  | float key pad whole frac gap remark =>
      obtain ⟨⟨hKey, hBare⟩, ⟨hWhole, hDigits, -⟩, ⟨-, hFrac⟩, -⟩ := h
      have hValue := readValue_float hDigits hWhole hFrac gap remark
      obtain ⟨first, tail, rfl⟩ := List.exists_cons_of_ne_nil hKey
      have hFirst : isBareKeyChar first = true := hBare first List.mem_cons_self
      have hNotHash : first ≠ '#' := fun hSame => absurd (hSame ▸ hFirst) (by decide)
      have hNotBracket : first ≠ '[' := fun hSame => absurd (hSame ▸ hFirst) (by decide)
      have hStop : ∀ c ∈ (List.replicate pad ' ' ++ '=' :: ' ' ::
          (whole ++ '.' :: frac ++ (List.replicate gap ' ' ++ '#' :: remark))).head?,
          isBareKeyChar c = false := stop_padded (by decide) (by decide) pad _
      obtain ⟨hTake, hDrop⟩ := takeWhile_append_stop hBare hStop
      show readLine (first :: (tail ++ (List.replicate pad ' ' ++ '=' :: ' ' ::
        (whole ++ '.' :: frac ++ (List.replicate gap ' ' ++ '#' :: remark))))) =
        Reading.float (first :: tail) (floatValue whole frac)
      rw [List.cons_append] at hTake hDrop
      rw [readLine, if_neg hNotHash, if_neg hNotBracket, hTake, hDrop,
        dropWhile_spaces pad (by decide)]
      exact congrArg (Reading.float (first :: tail)) hValue

/-- A line of a document has no line break in it. -/
theorem not_mem_text {l : Line} (h : l.WellFormed) {c : Char} (hBare : isBareKeyChar c = false)
    (hDigit : isAsciiDigit c = false) (hComment : isCommentChar c = false)
    (hMarks : c ∉ ['#', '[', ']', ' ', '=', '.']) : c ∉ l.text := by
  have hNot : ∀ {p : Char → Bool} {xs : List Char}, (∀ x ∈ xs, p x = true) → p c = false →
      c ∉ xs := by
    intro p xs hAll hc hMem
    have hTrue := hAll c hMem
    rw [hc] at hTrue
    cases hTrue
  simp only [List.mem_cons, List.not_mem_nil, or_false, not_or] at hMarks
  obtain ⟨hHash, hOpen, hClose, hSpace, hEquals, hPoint⟩ := hMarks
  have hSpaces : ∀ n, c ∉ List.replicate n ' ' :=
    fun n hMem => hSpace (List.eq_of_mem_replicate hMem)
  cases l with
  | blank => exact List.not_mem_nil
  | comment text => simp [Line.text, hHash, hNot h hComment]
  | table name => simp [Line.text, hOpen, hClose, hNot h.2 hBare]
  | float key pad whole frac gap remark =>
      obtain ⟨⟨-, hKey⟩, ⟨-, hWhole, -⟩, ⟨-, hFrac⟩, hRemark⟩ := h
      simp only [Line.text, List.mem_append, List.mem_cons, not_or]
      exact ⟨hNot hKey hBare, hSpaces pad, hEquals, hSpace,
        ⟨hNot hWhole hDigit, hPoint, hNot hFrac hDigit⟩, hSpaces gap, hHash, hNot hRemark hComment⟩

/-- The lines of the text are the texts of the lines. -/
theorem lines_text {doc : List Line} (h : ∀ l ∈ doc, l.WellFormed) :
    lines (text doc) = doc.map Line.text := by
  induction doc with
  | nil => rfl
  | cons l rest ih =>
      rw [List.forall_mem_cons] at h
      have hBreak : '\n' ∉ l.text :=
        not_mem_text h.1 (by decide) (by decide) (by decide) (by decide)
      have hReturn : '\r' ∉ l.text :=
        not_mem_text h.1 (by decide) (by decide) (by decide) (by decide)
      have hKept : dropCr l.text = l.text := by
        unfold dropCr
        rw [if_neg]
        exact fun hLast => hReturn (List.mem_of_getLast? hLast)
      show lines (l.text ++ ['\n'] ++ text rest) = _
      rw [List.append_assoc, List.singleton_append, lines_append hBreak, hKept, ih h.2]
      rfl

theorem readFrom_map_text {doc : List Line} (h : ∀ l ∈ doc, l.WellFormed) (table : List Char) :
    readFrom table (doc.map Line.text) = entries table doc := by
  induction doc generalizing table with
  | nil => rfl
  | cons l rest ih =>
      rw [List.forall_mem_cons] at h
      rw [List.map_cons, readFrom, readLine_text h.1]
      cases l with
      | blank => exact ih h.2 table
      | comment text => exact ih h.2 table
      | table name => exact ih h.2 name
      | float key pad whole frac gap remark =>
          exact congrArg _ (ih h.2 table)

/-- **The text says what the lines say.** -/
theorem readText_text {doc : List Line} (h : WellFormed doc) :
    readText (text doc) = entries [] doc := by
  unfold readText
  rw [lines_text h.lines, readFrom_map_text h.lines]

end Mgd.Lib.TomlLines
