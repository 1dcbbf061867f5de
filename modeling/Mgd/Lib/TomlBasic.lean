import Mathlib.Data.List.Nodup
import Mgd.Lib.Toml

/-!
# A parser of plain TOML

The part of TOML in which every expression takes one line, keys and tables have
bare names without dots, and values are floats with a point or infinities.
Whatever else a document has, this parser rejects.

`basic` is a `Toml.Parser`: for documents of this kind the rules of TOML are
theorems.
-/

namespace Mgd.Lib.TomlBasic

open Mgd.Lib.Text Mgd.Lib.TomlLines Mgd.Lib.Toml

/-! ## Lines -/

inductive Scalar
  | decimal (q : ℚ)
  | infinity (negative : Bool)
deriving DecidableEq

def isBlank (c : Char) : Bool := c == ' ' || c == '\t'

/-- Nothing more but a comment. -/
def endsLine (rest : List Char) : Bool :=
  match rest.dropWhile isBlank with
  | [] => true
  | c :: _ => c == '#'

/-- What follows the bracket. -/
def readHeader (rest : List Char) : Option (Meaning Scalar) :=
  let name := rest.takeWhile isBareKeyChar
  match rest.dropWhile isBareKeyChar with
  | ']' :: tail => if name ≠ [] ∧ endsLine tail = true then some (.table [name]) else none
  | _ => none

def readUnsigned (negative : Bool) (body : List Char) : Option Scalar :=
  if body = ['i', 'n', 'f'] then some (.infinity negative)
  else
    match body.dropWhile isAsciiDigit with
    | '.' :: frac =>
        match digits (body.takeWhile isAsciiDigit), digits frac with
        | some whole, some part =>
            -- TOML has no leading zeros
            if (toString whole).toList = body.takeWhile isAsciiDigit then
              some (.decimal ((if negative then -1 else 1) *
                ((whole : ℚ) + (part : ℚ) / 10 ^ frac.length)))
            else none
        | _, _ => none
    | _ => none

def readScalar : List Char → Option Scalar
  | '-' :: body => readUnsigned true body
  | body => readUnsigned false body

def isTokenChar (c : Char) : Bool := !isBlank c && c != '#'

def readEntry (line : List Char) : Option (Meaning Scalar) :=
  let key := line.takeWhile isBareKeyChar
  match (line.dropWhile isBareKeyChar).dropWhile isBlank with
  | '=' :: rest =>
      let value := rest.dropWhile isBlank
      if key ≠ [] ∧ endsLine (value.dropWhile isTokenChar) = true then
        (readScalar (value.takeWhile isTokenChar)).map fun v => .entry [key] v
      else none
  | _ => none

def readPlain : List Char → Option (Meaning Scalar)
  | [] => some .nothing
  | '#' :: _ => some .nothing
  | '[' :: rest => readHeader rest
  | line => readEntry line

def readLine (line : List Char) : Option (Meaning Scalar) :=
  if line.all isCommentChar then readPlain line else none

def expression (_first : Bool) : List (List Char) → Option (Meaning Scalar)
  | [line] => readLine line
  | _ => none

/-! ## Documents -/

/-- No dots, and no arrays of tables. -/
def isPlain : Meaning Scalar → Bool
  | .nothing => true
  | .table path => decide (path.length = 1)
  | .arrayTable _ => false
  | .entry path _ => decide (path.length = 1)

def headers (ms : List (Meaning Scalar)) : List Name :=
  ms.filterMap fun
    | .table path => path.head?
    | _ => none

/-- Where an entry of the section is. -/
def place (sec : Section) (path : List Name) : List Step :=
  match sec with
  | .table table => table.map .name ++ path.map .name
  | _ => path.map .name

def entriesFrom : Section → List (Meaning Scalar) → List (List Step × Scalar)
  | _, [] => []
  | sec, m :: rest =>
      match m with
      | .entry path v => (place sec path, v) :: entriesFrom sec rest
      | _ => entriesFrom (sec.next m) rest

def places (ms : List (Meaning Scalar)) : List (List Step) :=
  (entriesFrom .root ms).map Prod.fst

/-- Nothing is defined twice. -/
structure Valid (ms : List (Meaning Scalar)) : Prop where
  plain : ∀ m ∈ ms, isPlain m = true
  headers : (headers ms).Nodup
  places : (places ms).Nodup
  distinct : ∀ name ∈ TomlBasic.headers ms, [Step.name name] ∉ TomlBasic.places ms

instance (ms : List (Meaning Scalar)) : Decidable (Valid ms) :=
  decidable_of_iff
    ((∀ m ∈ ms, isPlain m = true) ∧ (headers ms).Nodup ∧ (places ms).Nodup ∧
      ∀ name ∈ headers ms, [Step.name name] ∉ places ms)
    ⟨fun h => ⟨h.1, h.2.1, h.2.2.1, h.2.2.2⟩,
      fun h => ⟨h.plain, h.headers, h.places, h.distinct⟩⟩

def docOf (ms : List (Meaning Scalar)) : Doc Scalar := fun loc =>
  match (entriesFrom .root ms).lookup loc with
  | some v => some (.value v)
  | none => if ∃ name ∈ headers ms, loc = [.name name] then some .table else none

def build (ms : List (Meaning Scalar)) : Option (Doc Scalar) :=
  if Valid ms then some (docOf ms) else none

def meaningsOf : List (List Char) → Option (List (Meaning Scalar))
  | [] => some []
  | line :: rest =>
      match readLine line, meaningsOf rest with
      | some m, some ms => some (m :: ms)
      | _, _ => none

def parse (text : List Char) : Option (Doc Scalar) := (meaningsOf (lines text)).bind build

/-! ## Lines that are read -/

theorem digitsFrom_eq {text : List Char} (h : ∀ c ∈ text, isAsciiDigit c = true) (n : Nat) :
    digitsFrom n text = some (Nat.ofDigitChars 10 text n) := by
  induction text generalizing n with
  | nil => rw [Nat.ofDigitChars_nil, digitsFrom]
  | cons c rest ih =>
      rw [List.forall_mem_cons] at h
      rw [digitsFrom, if_pos h.1, ih h.2, Nat.ofDigitChars_cons]

theorem toList_toString (n : Nat) : (toString n).toList = Nat.toDigits 10 n := by
  rw [Nat.toString_eq_repr, Nat.toList_repr]

theorem isAsciiDigit_of_mem {n : Nat} {c : Char} (h : c ∈ (toString n).toList) :
    isAsciiDigit c = true := by
  rw [toList_toString] at h
  have hDigit := Nat.isDigit_of_mem_toDigits (by decide) (by decide) h
  unfold Char.isDigit at hDigit
  unfold isAsciiDigit
  simp only [Bool.and_eq_true, decide_eq_true_eq] at hDigit ⊢
  exact hDigit

theorem toString_ne_nil (n : Nat) : (toString n).toList ≠ [] := by
  rw [toList_toString]
  exact Nat.toDigits_ne_nil

theorem digits_toString (n : Nat) : digits (toString n).toList = some n := by
  have hSome : (toString n).toList.isEmpty = false :=
    List.isEmpty_eq_false_iff.mpr (toString_ne_nil n)
  unfold digits
  rw [hSome, if_neg Bool.false_ne_true, digitsFrom_eq fun c hc => isAsciiDigit_of_mem hc,
    toList_toString, Nat.ofDigitChars_toDigits (by decide) (by decide)]

theorem length_toString {n : Nat} (h : n < 10) : (toString n).toList.length = 1 := by
  rw [toList_toString, Nat.toDigits_of_lt_base h]
  rfl

/-- The characters of the lines below. -/
def isLineChar (c : Char) : Bool := isBareKeyChar c || ['.', ' ', '=', '[', ']'].contains c

theorem isCommentChar_of_isLineChar {c : Char} (h : isLineChar c = true) :
    isCommentChar c = true := by
  have hLe : ∀ a : Char, (a ≤ c ↔ a.toNat ≤ c.toNat) ∧ (c ≤ a ↔ c.toNat ≤ a.toNat) := by
    intro a
    exact ⟨UInt32.le_iff_toNat_le, UInt32.le_iff_toNat_le⟩
  unfold isLineChar isBareKeyChar isAsciiDigit at h
  unfold isCommentChar
  simp only [Bool.or_eq_true, Bool.and_eq_true, decide_eq_true_eq, beq_iff_eq, bne_iff_ne,
    List.contains_cons, List.contains_nil, Bool.or_false, ← Char.toNat_inj, hLe,
    Char.reduceToNat] at h ⊢
  omega

theorem readLine_eq {line : List Char} (h : ∀ c ∈ line, isLineChar c = true) :
    readLine line = readPlain line := by
  unfold readLine
  rw [if_pos (List.all_eq_true.mpr fun c hc => isCommentChar_of_isLineChar (h c hc))]

theorem isLineChar_of_bare {c : Char} (h : isBareKeyChar c = true) : isLineChar c = true := by
  unfold isLineChar
  rw [h, Bool.true_or]

theorem isLineChar_of_digit {c : Char} (h : isAsciiDigit c = true) : isLineChar c = true := by
  apply isLineChar_of_bare
  unfold isBareKeyChar
  simp [h]

theorem readLine_header {name : Name} (h : IsBareKey name) :
    readLine (headerLine name) = some (.table [name]) := by
  have hChars : ∀ c ∈ headerLine name, isLineChar c = true := by
    intro c hc
    have hCases : c = '[' ∨ c ∈ name ∨ c = ']' := by simpa [headerLine] using hc
    rcases hCases with rfl | hIn | rfl
    · decide
    · exact isLineChar_of_bare (h.2 c hIn)
    · decide
  have hStop : ∀ c ∈ [']'].head?, isBareKeyChar c = false := stop_cons (by decide) []
  obtain ⟨hName, hRest⟩ := takeWhile_append_stop h.2 hStop
  rw [readLine_eq hChars]
  show readHeader (name ++ [']']) = _
  unfold readHeader
  rw [hName, hRest]
  simp [h.1, endsLine]

theorem readPlain_of_bare {c : Char} (h : isBareKeyChar c = true) (rest : List Char) :
    readPlain (c :: rest) = readEntry (c :: rest) := by
  have hHash : c ≠ '#' := by
    rintro rfl
    exact absurd h (by decide)
  have hBracket : c ≠ '[' := by
    rintro rfl
    exact absurd h (by decide)
  unfold readPlain
  split
  · next hNil => cases hNil
  · next hCons => exact absurd (List.cons.inj hCons).1 hHash
  · next hCons => exact absurd (List.cons.inj hCons).1 hBracket
  · rfl

theorem isBlank_of_token {c : Char} (h : isTokenChar c = true) : isBlank c = false := by
  unfold isTokenChar at h
  simp only [Bool.and_eq_true, Bool.not_eq_true'] at h
  exact h.1

theorem readEntry_entryLine {key : Name} (hKey : IsBareKey key) (pad : Nat) {value : List Char}
    (hValue : ∀ c ∈ value, isTokenChar c = true) :
    readEntry (entryLine key pad value) = (readScalar value).map fun v => .entry [key] v := by
  have hStop : ∀ c ∈ (List.replicate pad ' ' ++ '=' :: ' ' :: value).head?,
      isBareKeyChar c = false := stop_padded (by decide) (by decide +kernel) pad _
  obtain ⟨hName, hRest⟩ := takeWhile_append_stop hKey.2 hStop
  have hSpaces : ∀ n, ∀ c ∈ List.replicate n ' ', isBlank c = true := by
    intro n c hc
    rw [List.eq_of_mem_replicate hc]
    decide
  have hSign : ∀ c ∈ ('=' :: ' ' :: value).head?, isBlank c = false :=
    stop_cons (by decide) _
  have hPad := (takeWhile_append_stop (hSpaces pad) hSign).2
  have hSpace : (' ' :: value).dropWhile isBlank = value :=
    (takeWhile_append_stop (hSpaces 1)
      fun c hc => isBlank_of_token (hValue c (List.mem_of_mem_head? hc))).2
  have hNoMore : ∀ c ∈ ([] : List Char).head?, isTokenChar c = false := by
    intro c hc
    cases hc
  obtain ⟨hToken, hEnd⟩ := takeWhile_append_stop hValue hNoMore
  rw [List.append_nil] at hToken hEnd
  unfold readEntry entryLine
  rw [hName, hRest, hPad]
  show (if key ≠ [] ∧ endsLine (((' ' :: value).dropWhile isBlank).dropWhile isTokenChar) = true
    then (readScalar (((' ' :: value).dropWhile isBlank).takeWhile isTokenChar)).map
      fun v => Meaning.entry [key] v
    else none) = _
  rw [hSpace, hToken, hEnd, if_pos ⟨hKey.1, rfl⟩]

/-- A key, an equals sign and a value with its characters. -/
theorem readLine_entryLine {key : Name} (hKey : IsBareKey key) (pad : Nat) {value : List Char}
    (hValue : ∀ c ∈ value, isTokenChar c = true ∧ isLineChar c = true) :
    readLine (entryLine key pad value) = (readScalar value).map fun v => .entry [key] v := by
  have hChars : ∀ c ∈ entryLine key pad value, isLineChar c = true := by
    intro c hc
    have hCases : c ∈ key ∨ (pad ≠ 0 ∧ c = ' ') ∨ c = '=' ∨ c = ' ' ∨ c ∈ value := by
      simpa [entryLine] using hc
    rcases hCases with hIn | ⟨-, rfl⟩ | rfl | rfl | hIn
    · exact isLineChar_of_bare (hKey.2 c hIn)
    · decide
    · decide
    · decide
    · exact (hValue c hIn).2
  rw [readLine_eq hChars, ← readEntry_entryLine hKey pad fun c hc => (hValue c hc).1]
  obtain ⟨hNonempty, hBare⟩ := hKey
  cases key with
  | nil => exact absurd rfl hNonempty
  | cons c rest => exact readPlain_of_bare (hBare c List.mem_cons_self) _

theorem readScalar_of_digit {c : Char} (h : isAsciiDigit c = true) (rest : List Char) :
    readScalar (c :: rest) = readUnsigned false (c :: rest) := by
  have hMinus : c ≠ '-' := ne_of_digit h (by decide)
  unfold readScalar
  split
  · next hCons => exact absurd (List.cons.inj hCons).1 hMinus
  · rfl

theorem readUnsigned_decimal (negative : Bool) (whole : Nat) {tenth : Nat} (h : tenth < 10) :
    readUnsigned negative ((toString whole).toList ++ '.' :: (toString tenth).toList) =
      some (.decimal (decimalValue negative whole tenth)) := by
  have hNotInf : (toString whole).toList ++ '.' :: (toString tenth).toList ≠ ['i', 'n', 'f'] := by
    intro hInf
    have hPoint : '.' ∈ ['i', 'n', 'f'] := by
      rw [← hInf]
      simp
    revert hPoint
    decide
  have hDigits : ∀ c ∈ (toString whole).toList, isAsciiDigit c = true :=
    fun c hc => isAsciiDigit_of_mem hc
  have hStop : ∀ c ∈ ('.' :: (toString tenth).toList).head?, isAsciiDigit c = false :=
    stop_cons (by decide) _
  obtain ⟨hWhole, hRest⟩ := takeWhile_append_stop hDigits hStop
  unfold readUnsigned
  rw [if_neg hNotInf, hRest, hWhole]
  show (match digits (toString whole).toList, digits (toString tenth).toList with
    | some n, some part =>
        if (toString n).toList = (toString whole).toList then
          some (Scalar.decimal ((if negative then -1 else 1) *
            ((n : ℚ) + (part : ℚ) / 10 ^ (toString tenth).toList.length)))
        else none
    | _, _ => none) = _
  rw [digits_toString, digits_toString]
  dsimp only
  rw [if_pos rfl, length_toString h, pow_one]
  rfl

theorem readScalar_decimal (negative : Bool) (whole : Nat) {tenth : Nat} (h : tenth < 10) :
    readScalar (decimalText negative whole tenth) =
      some (.decimal (decimalValue negative whole tenth)) := by
  rw [← readUnsigned_decimal negative whole h]
  cases negative with
  | true => rfl
  | false =>
      show readScalar ((toString whole).toList ++ _) = _
      have hDigits : ∀ c ∈ (toString whole).toList, isAsciiDigit c = true :=
        fun c hc => isAsciiDigit_of_mem hc
      have hNonempty := toString_ne_nil whole
      cases hText : (toString whole).toList with
      | nil => exact absurd hText hNonempty
      | cons c rest =>
          rw [hText] at hDigits
          exact readScalar_of_digit (hDigits c List.mem_cons_self) _

theorem readScalar_infinity (negative : Bool) :
    readScalar (infinityText negative) = some (.infinity negative) := by
  cases negative <;> rfl

theorem decimalText_chars (negative : Bool) (whole tenth : Nat) :
    ∀ c ∈ decimalText negative whole tenth, isTokenChar c = true ∧ isLineChar c = true := by
  have hDigit : ∀ c, isAsciiDigit c = true → isTokenChar c = true ∧ isLineChar c = true := by
    intro c hc
    refine ⟨?_, isLineChar_of_digit hc⟩
    unfold isTokenChar isBlank
    simp [ne_of_digit hc (d := ' ') (by decide),
      ne_of_digit hc (d := '\t') (by decide), ne_of_digit hc (d := '#') (by decide +kernel)]
  intro c hc
  have hCases : (negative = true ∧ c = '-') ∨ c ∈ (toString whole).toList ∨ c = '.' ∨
      c ∈ (toString tenth).toList := by
    cases negative <;> simpa [decimalText] using hc
  rcases hCases with ⟨-, rfl⟩ | hIn | rfl | hIn
  · decide
  · exact hDigit c (isAsciiDigit_of_mem hIn)
  · decide
  · exact hDigit c (isAsciiDigit_of_mem hIn)

theorem chars_of_all {value : List Char}
    (h : value.all (fun c => isTokenChar c && isLineChar c) = true) :
    ∀ c ∈ value, isTokenChar c = true ∧ isLineChar c = true := by
  intro c hc
  have hBoth := List.all_eq_true.mp h c hc
  rw [Bool.and_eq_true] at hBoth
  exact hBoth

theorem infinityText_chars (negative : Bool) :
    ∀ c ∈ infinityText negative, isTokenChar c = true ∧ isLineChar c = true := by
  cases negative <;> exact chars_of_all (by decide)

/-! ## Documents that are built -/

section Build

variable {xs ys : List (Meaning Scalar)} {table key name : Name} {path : List Name} {v w : Scalar}
  {d d' : Doc Scalar} {sec : Section}

theorem headers_append (xs ys : List (Meaning Scalar)) :
    headers (xs ++ ys) = headers xs ++ headers ys := List.filterMap_append

theorem entriesFrom_append (sec : Section) (xs ys : List (Meaning Scalar)) :
    entriesFrom sec (xs ++ ys) = entriesFrom sec xs ++ entriesFrom (sectionFrom sec xs) ys := by
  induction xs generalizing sec with
  | nil => rfl
  | cons x xs ih =>
      cases x with
      | entry path v =>
          show (place sec path, v) :: entriesFrom sec (xs ++ ys) = _
          rw [ih]
          rfl
      | nothing => exact ih _
      | table path => exact ih _
      | arrayTable path => exact ih _

theorem build_eq_some_iff {ms : List (Meaning Scalar)} :
    build ms = some d ↔ Valid ms ∧ docOf ms = d := by
  unfold build
  split
  · next hValid => simp [hValid]
  · next hNot => simp [hNot]

/-- What is built depends on the headers and entries only. -/
theorem build_congr (hPlain : (∀ m ∈ xs, isPlain m = true) ↔ ∀ m ∈ ys, isPlain m = true)
    (hHeaders : headers xs = headers ys) (hEntries : entriesFrom .root xs = entriesFrom .root ys) :
    build xs = build ys := by
  have hPlaces : places xs = places ys := congrArg (List.map Prod.fst) hEntries
  have hValid : Valid xs ↔ Valid ys := by
    constructor
    · intro h
      exact ⟨hPlain.mp h.plain, hHeaders ▸ h.headers, hPlaces ▸ h.places,
        fun n hn => hPlaces ▸ h.distinct n (hHeaders ▸ hn)⟩
    · intro h
      exact ⟨hPlain.mpr h.plain, hHeaders ▸ h.headers, hPlaces ▸ h.places,
        fun n hn => hPlaces ▸ h.distinct n (hHeaders ▸ hn)⟩
  have hDoc : docOf xs = docOf ys := by
    unfold docOf
    rw [hEntries, hHeaders]
  unfold build
  rw [hDoc]
  simp only [hValid]

theorem plain_middle {m : Meaning Scalar} (h : isPlain m = true) :
    (∀ m' ∈ xs ++ m :: ys, isPlain m' = true) ↔ ∀ m' ∈ xs ++ ys, isPlain m' = true := by
  simp only [List.forall_mem_append, List.forall_mem_cons, h, true_and]

theorem build_nothing (xs ys : List (Meaning Scalar)) :
    build (xs ++ .nothing :: ys) = build (xs ++ ys) := by
  apply build_congr
  · exact plain_middle rfl
  · rw [headers_append, headers_append]
    rfl
  · rw [entriesFrom_append, entriesFrom_append]
    rfl

theorem lookup_none {α β : Type} [BEq α] [LawfulBEq α] {l : List (α × β)} {a : α} :
    l.lookup a = none ↔ a ∉ l.map Prod.fst := by
  rw [List.lookup_eq_none_iff]
  simp only [List.mem_map, bne_iff_ne, ne_eq, not_exists, not_and]
  exact ⟨fun h p hp hSame => h p hp hSame.symm, fun h p hp hSame => h p hp hSame.symm⟩

/-- An entry among others. -/
theorem entries_middle (hSection : sectionFrom .root xs = .table [table]) (v : Scalar) :
    entriesFrom .root (xs ++ .entry [key] v :: ys) =
      entriesFrom .root xs ++
        ([.name table, .name key], v) :: entriesFrom (.table [table]) ys := by
  rw [entriesFrom_append, hSection]
  rfl

theorem entries_without (hSection : sectionFrom .root xs = .table [table]) :
    entriesFrom .root (xs ++ ys) =
      entriesFrom .root xs ++ entriesFrom (.table [table]) ys := by
  rw [entriesFrom_append, hSection]

theorem headers_middle (v : Scalar) :
    headers (xs ++ .entry path v :: ys) = headers (xs ++ ys) := by
  rw [headers_append, headers_append]
  rfl

/-- An entry in a table is valid where it is new and the rest is valid. -/
theorem valid_middle (hSection : sectionFrom .root xs = .table [table]) (v : Scalar) :
    Valid (xs ++ .entry [key] v :: ys) ↔
      Valid (xs ++ ys) ∧ [.name table, .name key] ∉ places (xs ++ ys) := by
  have hPlaces : places (xs ++ .entry [key] v :: ys) =
      (entriesFrom .root xs).map Prod.fst ++
        [.name table, .name key] :: (entriesFrom (.table [table]) ys).map Prod.fst := by
    unfold places
    rw [entries_middle hSection, List.map_append, List.map_cons]
  have hWithout : places (xs ++ ys) = (entriesFrom .root xs).map Prod.fst ++
      (entriesFrom (.table [table]) ys).map Prod.fst := by
    unfold places
    rw [entries_without hSection, List.map_append]
  have hOther : ∀ n : Name, [Step.name n] ≠ [.name table, .name key] := by
    intro n hSame
    cases hSame
  have hMem : ∀ n : Name, [.name n] ∈ places (xs ++ .entry [key] v :: ys) ↔
      [.name n] ∈ places (xs ++ ys) := by
    intro n
    rw [hPlaces, hWithout, List.mem_append, List.mem_cons, List.mem_append]
    simp [hOther n]
  constructor
  · intro h
    have hNodup := h.places
    rw [hPlaces, List.nodup_middle, List.nodup_cons, ← hWithout] at hNodup
    exact ⟨⟨(plain_middle rfl).mp h.plain, headers_middle v ▸ h.headers, hNodup.2,
      fun n hn hIn => h.distinct n ((headers_middle v).symm ▸ hn) ((hMem n).mpr hIn)⟩, hNodup.1⟩
  · intro hBoth
    obtain ⟨h, hNew⟩ := hBoth
    refine ⟨(plain_middle rfl).mpr h.plain, (headers_middle v).symm ▸ h.headers, ?_,
      fun n hn hIn => h.distinct n (headers_middle v ▸ hn) ((hMem n).mp hIn)⟩
    rw [hPlaces, List.nodup_middle, List.nodup_cons, ← hWithout]
    exact ⟨hNew, h.places⟩

theorem docOf_middle (hSection : sectionFrom .root xs = .table [table]) (v : Scalar)
    (hNew : [.name table, .name key] ∉ places (xs ++ ys)) :
    docOf (xs ++ .entry [key] v :: ys) =
      Function.update (docOf (xs ++ ys)) [.name table, .name key] (some (.value v)) := by
  have hBefore : (entriesFrom .root xs).lookup [.name table, .name key] = none := by
    rw [lookup_none]
    intro hIn
    apply hNew
    unfold places
    rw [entries_without hSection, List.map_append, List.mem_append]
    exact .inl hIn
  funext loc
  by_cases hLoc : loc = [.name table, .name key]
  · rw [hLoc, Function.update_self]
    unfold docOf
    rw [entries_middle hSection, List.lookup_append, hBefore, List.lookup_cons_self]
    rfl
  · have hBeq : (loc == [.name table, .name key]) = false := beq_eq_false_iff_ne.mpr hLoc
    rw [Function.update_of_ne hLoc]
    unfold docOf
    rw [entries_middle hSection, headers_middle, entries_without hSection, List.lookup_append,
      List.lookup_append, List.lookup_cons, hBeq]

theorem docOf_eq_none (hSection : docOf xs [.name table, .name key] = none) :
    [.name table, .name key] ∉ places xs := by
  unfold docOf at hSection
  split at hSection
  · cases hSection
  · next hNone => exact lookup_none.mp hNone

theorem set_value (w : Scalar) (h : build (xs ++ .entry [key] v :: ys) = some d)
    (hSection : sectionFrom .root xs = .table [table]) :
    build (xs ++ .entry [key] w :: ys) =
      some (Function.update d [.name table, .name key] (some (.value w))) := by
  rw [build_eq_some_iff] at h ⊢
  obtain ⟨hValid, hDoc⟩ := h
  have hBoth := (valid_middle hSection v).mp hValid
  refine ⟨(valid_middle hSection w).mpr hBoth, ?_⟩
  rw [← hDoc, docOf_middle hSection v hBoth.2, docOf_middle hSection w hBoth.2,
    Function.update_idem]

theorem add_key (w : Scalar) (h : build (xs ++ ys) = some d)
    (hSection : sectionFrom .root xs = .table [table])
    (hNone : d [.name table, .name key] = none) :
    build (xs ++ .entry [key] w :: ys) =
      some (Function.update d [.name table, .name key] (some (.value w))) := by
  rw [build_eq_some_iff] at h ⊢
  obtain ⟨hValid, hDoc⟩ := h
  have hNew := docOf_eq_none (hDoc ▸ hNone)
  rw [← hDoc]
  exact ⟨(valid_middle hSection w).mpr ⟨hValid, hNew⟩, docOf_middle hSection w hNew⟩

theorem drop_key (h : build (xs ++ .entry [key] v :: ys) = some d')
    (hSection : sectionFrom .root xs = .table [table]) :
    ∃ d, build (xs ++ ys) = some d ∧ d [.name table, .name key] = none := by
  obtain ⟨hValid, -⟩ := build_eq_some_iff.mp h
  obtain ⟨hRest, hNew⟩ := (valid_middle hSection v).mp hValid
  refine ⟨docOf (xs ++ ys), build_eq_some_iff.mpr ⟨hRest, rfl⟩, ?_⟩
  unfold docOf
  rw [lookup_none.mpr hNew]
  simp

/-- The sections of a plain document. -/
def IsPlainSection : Section → Prop
  | .root => True
  | .table path => path.length = 1
  | .arrayTable _ => False

/-- What a plain document takes. -/
theorem untaken_iff {ms : List (Meaning Scalar)} (hPlain : ∀ m ∈ ms, isPlain m = true)
    (hSection : IsPlainSection sec) :
    Untaken name sec ms ↔
      name ∉ headers ms ∧ [.name name] ∉ (entriesFrom sec ms).map Prod.fst := by
  induction ms generalizing sec with
  | nil => simp [Untaken, headers, entriesFrom]
  | cons m rest ih =>
      rw [List.forall_mem_cons] at hPlain
      obtain ⟨hHere, hRest⟩ := hPlain
      cases m with
      | nothing =>
          have hIff := ih hRest hSection
          show True ∧ Untaken name sec rest ↔ _
          rw [true_and, hIff]
          rfl
      | arrayTable path => cases hHere
      | table path =>
          have hLength : path.length = 1 := of_decide_eq_true hHere
          obtain ⟨n, rfl⟩ := List.length_eq_one_iff.mp hLength
          have hNext : IsPlainSection (.table [n]) := hLength
          have hIff := ih hRest hNext
          have hHeaders : headers (.table [n] :: rest) = n :: headers rest := rfl
          have hEntries : entriesFrom sec (.table [n] :: rest) = entriesFrom (.table [n]) rest :=
            rfl
          show [n] ≠ [name] ∧ Untaken name (.table [n]) rest ↔ _
          rw [hIff, hHeaders, hEntries, List.mem_cons, not_or, and_assoc]
          simp [eq_comm]
      | entry path v =>
          have hLength : path.length = 1 := of_decide_eq_true hHere
          obtain ⟨key, rfl⟩ := List.length_eq_one_iff.mp hLength
          have hIff := ih hRest hSection
          have hHeaders : headers (.entry [key] v :: rest) = headers rest := rfl
          have hEntries : entriesFrom sec (.entry [key] v :: rest) =
              (place sec [key], v) :: entriesFrom sec rest := rfl
          have hPlace : (sec = .root → [key].head? ≠ some name) ↔
              [.name name] ≠ place sec [key] := by
            cases sec with
            | root => simp [place, eq_comm]
            | arrayTable path => cases hSection
            | table path =>
                obtain ⟨n, rfl⟩ := List.length_eq_one_iff.mp hSection
                simp [place]
          show (sec = .root → [key].head? ≠ some name) ∧ Untaken name sec rest ↔ _
          rw [hIff, hHeaders, hEntries, hPlace, List.map_cons, List.mem_cons, not_or]
          exact and_left_comm

theorem untaken_root_iff {ms : List (Meaning Scalar)} (hPlain : ∀ m ∈ ms, isPlain m = true) :
    Untaken name .root ms ↔ name ∉ headers ms ∧ [.name name] ∉ places ms :=
  untaken_iff hPlain trivial

theorem places_header (xs : List (Meaning Scalar)) (name : Name) :
    entriesFrom .root (xs ++ [.table [name]]) = entriesFrom .root xs := by
  rw [entriesFrom_append]
  exact List.append_nil _

theorem add_table (h : build xs = some d) (hUntaken : Untaken name .root xs) :
    (∀ v, d [.name name] ≠ some (.value v)) ∧
      build (xs ++ [.table [name]]) = some (Function.update d [.name name] (some .table)) := by
  rw [build_eq_some_iff] at h ⊢
  obtain ⟨hValid, rfl⟩ := h
  obtain ⟨hHeader, hPlace⟩ := (untaken_root_iff hValid.plain).mp hUntaken
  have hLookup := lookup_none.mpr hPlace
  have hHeaders : headers (xs ++ [.table [name]]) = headers xs ++ [name] := headers_append _ _
  have hPlaces : places (xs ++ [.table [name]]) = places xs :=
    congrArg (List.map Prod.fst) (places_header xs name)
  refine ⟨fun v => ?_, ⟨?_, ?_, ?_, ?_⟩, ?_⟩
  · unfold docOf
    rw [hLookup]
    split <;> simp_all
  · rw [List.forall_mem_append]
    exact ⟨hValid.plain, by simp [isPlain]⟩
  · rw [hHeaders, List.nodup_middle, List.append_nil, List.nodup_cons]
    exact ⟨hHeader, hValid.headers⟩
  · rw [hPlaces]
    exact hValid.places
  · intro n hn
    rw [hPlaces]
    rw [hHeaders, List.mem_append, List.mem_singleton] at hn
    cases hn with
    | inl hOld => exact hValid.distinct n hOld
    | inr hNew => exact hNew ▸ hPlace
  · funext loc
    by_cases hLoc : loc = [.name name]
    · rw [hLoc, Function.update_self]
      unfold docOf
      rw [places_header, hLookup, hHeaders]
      simp
    · rw [Function.update_of_ne hLoc]
      unfold docOf
      rw [places_header, hHeaders]
      simp [or_and_right, exists_or, hLoc]

theorem table_untaken (h : build (xs ++ .table [name] :: ys) = some d) :
    Untaken name .root xs := by
  obtain ⟨hValid, -⟩ := build_eq_some_iff.mp h
  have hPlain := (List.forall_mem_append.mp hValid.plain).1
  have hHeaders : headers (xs ++ .table [name] :: ys) = headers xs ++ name :: headers ys :=
    headers_append _ _
  rw [untaken_root_iff hPlain]
  constructor
  · have hNodup := hValid.headers
    rw [hHeaders, List.nodup_middle, List.nodup_cons] at hNodup
    exact fun hIn => hNodup.1 (List.mem_append_left _ hIn)
  · intro hIn
    apply hValid.distinct name
    · rw [hHeaders]
      exact List.mem_append_right _ List.mem_cons_self
    · unfold places
      rw [entriesFrom_append, List.map_append]
      exact List.mem_append_left _ hIn

theorem header_once (h : build (xs ++ .table path :: ys) = some d) : .table path ∉ ys := by
  obtain ⟨hValid, -⟩ := build_eq_some_iff.mp h
  intro hIn
  have hHere : isPlain (.table path) = true :=
    hValid.plain _ (List.mem_append_right _ List.mem_cons_self)
  have hLength : path.length = 1 := of_decide_eq_true hHere
  obtain ⟨n, rfl⟩ := List.length_eq_one_iff.mp hLength
  have hHeaders : headers (xs ++ .table [n] :: ys) = headers xs ++ n :: headers ys :=
    headers_append _ _
  have hNodup := hValid.headers
  rw [hHeaders, List.nodup_middle, List.nodup_cons] at hNodup
  apply hNodup.1
  apply List.mem_append_right
  exact List.mem_filterMap.mpr ⟨_, hIn, rfl⟩

end Build

/-! ## The parser -/

/-- An expression is a line. -/
theorem line_of_expression {first : Bool} {ls : List (List Char)} {m : Meaning Scalar}
    (h : expression first ls = some m) : ∃ line, ls = [line] ∧ readLine line = some m := by
  unfold expression at h
  split at h
  · next line => exact ⟨line, rfl, h⟩
  · cases h

theorem meaningsOf_eq_some_iff {first : Bool} {ls : List (List Char)}
    {ms : List (Meaning Scalar)} :
    meaningsOf ls = some ms ↔
      ∃ stmts, Reads expression first stmts ∧ linesOf stmts = ls ∧ meanings stmts = ms := by
  constructor
  · intro h
    induction ls generalizing first ms with
    | nil =>
        cases h
        exact ⟨[], trivial, rfl, rfl⟩
    | cons line rest ih =>
        unfold meaningsOf at h
        split at h
        · next m ms' hLine hRest =>
            cases h
            obtain ⟨stmts, hReads, hLines, hMeanings⟩ := ih hRest
            refine ⟨⟨[line], m⟩ :: stmts, ⟨hLine, hReads⟩, ?_, ?_⟩
            · rw [linesOf_cons, hLines]
              rfl
            · rw [meanings_cons, hMeanings]
        · cases h
  · rintro ⟨stmts, hReads, rfl, rfl⟩
    induction stmts generalizing first with
    | nil => rfl
    | cons s rest ih =>
        obtain ⟨hHere, hRest⟩ := hReads
        obtain ⟨line, hOne, hRead⟩ := line_of_expression hHere
        rw [linesOf_cons, hOne, List.singleton_append, meanings_cons]
        unfold meaningsOf
        rw [hRead, ih hRest]

theorem parse_eq_some_iff (text : List Char) (d : Doc Scalar) : parse text = some d ↔
    ∃ stmts, Reads expression true stmts ∧ linesOf stmts = lines text ∧
      build (meanings stmts) = some d := by
  unfold parse
  rw [Option.bind_eq_some_iff]
  constructor
  · rintro ⟨ms, hMeanings, hBuild⟩
    obtain ⟨stmts, hReads, hLines, rfl⟩ := meaningsOf_eq_some_iff.mp hMeanings
    exact ⟨stmts, hReads, hLines, hBuild⟩
  · rintro ⟨stmts, hReads, hLines, hBuild⟩
    exact ⟨meanings stmts, meaningsOf_eq_some_iff.mpr ⟨stmts, hReads, hLines, rfl⟩, hBuild⟩

theorem noBreak_readLine {line : List Char} {m : Meaning Scalar} (h : readLine line = some m) :
    '\n' ∉ line ∧ '\r' ∉ line := by
  unfold readLine at h
  split at h
  · next hChars =>
      rw [List.all_eq_true] at hChars
      exact ⟨fun hIn => absurd (hChars _ hIn) (by decide),
        fun hIn => absurd (hChars _ hIn) (by decide)⟩
  · cases h

/-- The parser of plain documents. -/
def basic : Parser Scalar where
  expression := expression
  build := build
  parse := parse
  decimal := .decimal
  infinity := .infinity
  parse_eq_some_iff := parse_eq_some_iff
  noBreak := by
    intro first ls m h line hLine
    obtain ⟨only, rfl, hRead⟩ := line_of_expression h
    rw [List.mem_singleton.mp hLine]
    exact noBreak_readLine hRead
  someLine _ := rfl
  ends := by
    intro first ls more m m' h hMore
    obtain ⟨line, rfl, -⟩ := line_of_expression h
    obtain ⟨line', hSame, -⟩ := line_of_expression hMore
    exact (List.cons.inj hSame).2
  blank _ := rfl
  header := readLine_header
  decimalLine pad negative whole tenth hKey hTenth := by
    show readLine _ = _
    rw [readLine_entryLine hKey pad (decimalText_chars negative whole _),
      readScalar_decimal negative whole hTenth]
    rfl
  infinityLine pad negative hKey := by
    show readLine _ = _
    rw [readLine_entryLine hKey pad (infinityText_chars negative), readScalar_infinity]
    rfl
  nanLine pad more hKey := by
    cases more with
    | cons line more => rfl
    | nil =>
        show readLine _ = _
        rw [readLine_entryLine hKey pad (chars_of_all (by decide))]
        rfl
  build_nothing := build_nothing
  set_value := set_value
  add_key := add_key
  drop_key := drop_key
  add_table := add_table
  table_untaken := table_untaken
  header_once := header_once

theorem basic_build (ms : List (Meaning Scalar)) : basic.build ms = build ms := rfl

end Mgd.Lib.TomlBasic
