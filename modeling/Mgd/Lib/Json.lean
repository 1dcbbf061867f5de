import Mgd.Lib.TomlBasic

/-!
# JSON text

JSON values, the compact text a serializer writes for them, and a reader of
JSON text with a limit on the nesting.  Numbers are integers of a machine word
or floating-point numbers; how the latter are written and read is a parameter
with the law that what is written is read back.

* `parse_render` says that a value is read back from its text.
* `parse_prefix` says that what is left of the text of an array or an object
  when its end is missing is no text of a value.
-/

namespace Mgd.Lib.Json

open Mgd.Lib.Text Mgd.Lib.TomlBasic

universe u v

/-! ## Values -/

inductive Value (F : Type u)
  | null
  | bool (b : Bool)
  /-- an integer from 0 on -/
  | nat (n : Nat)
  /-- the integer `-n` -/
  | neg (n : Nat)
  | float (x : F)
  | str (s : String)
  | arr (items : List (Value F))
  /-- the members in the order of the text, also those of one name -/
  | obj (members : List (String × Value F))

/-! ## Numbers -/

def isNumberChar (c : Char) : Bool :=
  isAsciiDigit c || c == '-' || c == '+' || c == '.' || c == 'e' || c == 'E'

/-- Digits without a zero in front of others. -/
def natural (text : List Char) : Option Nat :=
  if text.head? = some '0' ∧ text.length ≠ 1 then none else digits text

def dropSign : List Char → List Char
  | '-' :: rest => rest
  | '+' :: rest => rest
  | text => text

def isExponent : List Char → Bool
  | [] => true
  | c :: rest => (c == 'e' || c == 'E') && (digits (dropSign rest)).isSome

def isFraction : List Char → Bool
  | '.' :: rest => !(rest.takeWhile isAsciiDigit).isEmpty && isExponent (rest.dropWhile isAsciiDigit)
  | text => isExponent text

def isUnsigned (text : List Char) : Bool :=
  (natural (text.takeWhile isAsciiDigit)).isSome && isFraction (text.dropWhile isAsciiDigit)

/-- A number of the grammar. -/
def isLiteral : List Char → Bool
  | '-' :: rest => isUnsigned rest
  | text => isUnsigned text

/-- An integer that fits in a word, of 64 bits without or with a sign. -/
def integer {F : Type u} : List Char → Option (Value F)
  | '-' :: rest =>
      ((natural rest).filter fun n => decide (0 < n ∧ n ≤ 2 ^ 63)).map .neg
  | text => ((natural text).filter fun n => decide (n < 2 ^ 64)).map .nat

/-- How floating-point numbers are written and read.  A number without a literal,
an infinity for one, is written as `null`. -/
structure Floats (F : Type u) where
  print : F → Option (List Char)
  read : List Char → Option F
  isLiteral_print : ∀ {x text}, print x = some text → isLiteral text = true
  integer_print : ∀ {x text}, print x = some text → integer (F := F) text = none
  read_print : ∀ {x text}, print x = some text → read text = some x

/-! ## Writing -/

/-- The double quote. -/
def quote : Char := Char.ofNat 34

def hexDigit (n : Nat) : Char := if n < 10 then Char.ofNat (48 + n) else Char.ofNat (87 + n)

/-- A character inside of a string. -/
def escape (c : Char) : List Char :=
  if c = quote then ['\\', quote]
  else if c = '\\' then ['\\', '\\']
  else if c.toNat = 8 then ['\\', 'b']
  else if c.toNat = 9 then ['\\', 't']
  else if c.toNat = 10 then ['\\', 'n']
  else if c.toNat = 12 then ['\\', 'f']
  else if c.toNat = 13 then ['\\', 'r']
  else if c.toNat < 32 then
    ['\\', 'u', '0', '0', hexDigit (c.toNat / 16), hexDigit (c.toNat % 16)]
  else [c]

def renderString (s : String) : List Char :=
  quote :: (s.toList.flatMap escape ++ [quote])

/-- The parts after the first one, and the bracket. -/
def closeGroup (close : Char) : List (List Char) → List Char
  | [] => [close]
  | part :: rest => ',' :: (part ++ closeGroup close rest)

/-- Parts with commas between them, and the bracket. -/
def group (close : Char) : List (List Char) → List Char
  | [] => [close]
  | part :: rest => part ++ closeGroup close rest

section Render

variable {F : Type u} (floats : Floats F)

mutual

def render : Value F → List Char
  | .null => "null".toList
  | .bool true => "true".toList
  | .bool false => "false".toList
  | .nat n => (toString n).toList
  | .neg n => '-' :: (toString n).toList
  | .float x => (floats.print x).getD "null".toList
  | .str s => renderString s
  | .arr items => '[' :: group ']' (renderItems items)
  | .obj members => '\x7b' :: group '\x7d' (renderMembers members)

def renderItems : List (Value F) → List (List Char)
  | [] => []
  | item :: rest => render item :: renderItems rest

def renderMembers : List (String × Value F) → List (List Char)
  | [] => []
  | (name, item) :: rest => (renderString name ++ ':' :: render item) :: renderMembers rest

end

end Render

/-! ## Reading -/

/-- A reader takes what it reads off the front of a text. -/
abbrev Reader (α : Type u) := List Char → Option (α × List Char)

def isSpace (c : Char) : Bool := c == ' ' || c == '\n' || c == '\t' || c == '\r'

def skip (text : List Char) : List Char := text.dropWhile isSpace

def hexValue (c : Char) : Option Nat :=
  if isAsciiDigit c then some (c.toNat - 48)
  else if 97 ≤ c.toNat ∧ c.toNat ≤ 102 then some (c.toNat - 87)
  else if 65 ≤ c.toNat ∧ c.toNat ≤ 70 then some (c.toNat - 55)
  else none

/-- The character of an escape of one letter. -/
def simpleEscape (c : Char) : Option Char :=
  if c = quote ∨ c = '\\' ∨ c = '/' then some c
  else if c = 'b' then some (Char.ofNat 8)
  else if c = 'f' then some (Char.ofNat 12)
  else if c = 'n' then some (Char.ofNat 10)
  else if c = 'r' then some (Char.ofNat 13)
  else if c = 't' then some (Char.ofNat 9)
  else none

/-- Where the reader of a string is.  After the first half of a surrogate pair,
`high`, only an escape with the second half may follow. -/
inductive Lexer
  | plain (high : Option Nat)
  /-- after a backslash -/
  | escaped (high : Option Nat)
  /-- among hexadecimal digits: their value so far, and how many are missing -/
  | hex (high : Option Nat) (value missing : Nat)

inductive Move
  | stop
  | emit (c : Char)
  | more (state : Lexer)
  | fail

def isHighSurrogate (n : Nat) : Bool := decide (0xD800 ≤ n) && decide (n ≤ 0xDBFF)

def isLowSurrogate (n : Nat) : Bool := decide (0xDC00 ≤ n) && decide (n ≤ 0xDFFF)

/-- What a code unit makes of the text before it. -/
def endUnit : Option Nat → Nat → Move
  | none, unit =>
      if isHighSurrogate unit then .more (.plain (some unit))
      else if isLowSurrogate unit then .fail
      else .emit (Char.ofNat unit)
  | some high, unit =>
      if isLowSurrogate unit then
        .emit (Char.ofNat (0x10000 + 0x400 * (high - 0xD800) + (unit - 0xDC00)))
      else .fail

def Lexer.step : Lexer → Char → Move
  | .plain high, c =>
      if c = '\\' then .more (.escaped high)
      else if high.isSome then .fail
      else if c = quote then .stop
      else if c.toNat < 32 then .fail
      else .emit c
  | .escaped high, c =>
      if c = 'u' then .more (.hex high 0 4)
      else if high.isSome then .fail
      else
        match simpleEscape c with
        | some c => .emit c
        | none => .fail
  | .hex high value missing, c =>
      match hexValue c with
      | none => .fail
      | some digit =>
          if missing = 1 then endUnit high (16 * value + digit)
          else .more (.hex high (16 * value + digit) (missing - 1))

def push (c : Char) (r : Option (List Char × List Char)) : Option (List Char × List Char) :=
  r.map fun r => (c :: r.1, r.2)

/-- The rest of a string, up to its quote. -/
def readString : Lexer → Reader (List Char)
  | _, [] => none
  | state, c :: rest =>
      match state.step c with
      | .stop => some ([], rest)
      | .emit c => push c (readString (.plain none) rest)
      | .more state => readString state rest
      | .fail => none

/-- The first character that is no white space decides. -/
def onNext {α : Type u} (read : Char → Reader α) : Reader α := fun text =>
  match skip text with
  | [] => none
  | c :: rest => read c rest

/-- The parts after the first one, up to the bracket.  Each takes a comma off the
text, which bounds their number. -/
def readClose {α : Type u} (read : Reader α) (close : Char) : Nat → Reader (List α)
  | 0 => fun _ => none
  | fuel + 1 =>
      onNext fun c rest =>
        if c = close then some ([], rest)
        else if c = ',' then
          (read rest).bind fun part =>
            (readClose read close fuel part.2).map fun more => (part.1 :: more.1, more.2)
        else none

def readGroup {α : Type u} (read : Reader α) (close : Char) : Reader (List α) :=
  onNext fun c rest =>
    if c = close then some ([], rest)
    else
      (read (c :: rest)).bind fun part =>
        (readClose read close (part.2.length + 1) part.2).map fun more =>
          (part.1 :: more.1, more.2)

/-- A name, a colon and what `read` reads. -/
def readMember {α : Type u} (read : Reader α) : Reader (String × α) :=
  onNext fun c rest =>
    if c = quote then
      (readString (.plain none) rest).bind fun name =>
        onNext (fun c rest =>
          if c = ':' then (read rest).map fun r => ((String.ofList name.1, r.1), r.2)
          else none) name.2
    else none

section Parse

variable {F : Type u} (floats : Floats F)

def numberOf (token : List Char) : Option (Value F) :=
  (integer token).or (if isLiteral token then (floats.read token).map .float else none)

/-- The longest text of number characters has to be a number: a number that ends
before it is followed by what cannot follow a value. -/
def readNumber : Reader (Value F) := fun text =>
  (numberOf floats (text.takeWhile isNumberChar)).map fun n => (n, text.dropWhile isNumberChar)

def readKeyword : Reader (Value F) := fun text =>
  ((stripPrefix "null".toList text).map fun rest => (.null, rest)).or
    (((stripPrefix "true".toList text).map fun rest => (.bool true, rest)).or
      ((stripPrefix "false".toList text).map fun rest => (.bool false, rest)))

def readAtom : Reader (Value F) := fun text => (readKeyword text).or (readNumber floats text)

/-- A value in which arrays and objects are nested less than `depth` deep. -/
def readValue : Nat → Reader (Value F)
  | 0 => fun _ => none
  | depth + 1 =>
      onNext fun c rest =>
        if c = quote then
          (readString (.plain none) rest).map fun r => (.str (String.ofList r.1), r.2)
        else if c = '[' then
          if depth = 0 then none
          else (readGroup (readValue depth) ']' rest).map fun r => (.arr r.1, r.2)
        else if c = '\x7b' then
          if depth = 0 then none
          else
            (readGroup (readMember (readValue depth)) '\x7d' rest).map fun r => (.obj r.1, r.2)
        else readAtom floats (c :: rest)

/-- The limit of `serde_json`. -/
def recursionLimit : Nat := 128

/-- A text that is one value. -/
def parse (text : List Char) : Option (Value F) :=
  (readValue floats recursionLimit text).bind fun r =>
    if (skip r.2).isEmpty then some r.1 else none

end Parse


theorem head_toString {n : Nat} (h : n ≠ 0) : (toString n).toList.head? ≠ some '0' := by
  rw [toList_toString]
  induction n using Nat.strongRecOn with
  | _ n ih =>
      by_cases hSmall : n < 10
      · rw [Nat.toDigits_of_lt_base hSmall]
        revert h
        clear ih
        revert n
        decide
      · rw [Nat.toDigits_of_base_le (by decide) (by omega), List.head?_append]
        have hFirst := ih (n / 10) (by omega) (by omega)
        cases hHead : (Nat.toDigits 10 (n / 10)).head? with
        | none => exact absurd (List.head?_eq_none_iff.mp hHead) Nat.toDigits_ne_nil
        | some c => rwa [hHead] at hFirst

theorem natural_toString (n : Nat) : natural (toString n).toList = some n := by
  unfold natural
  rw [if_neg, digits_toString]
  intro h
  by_cases hZero : n = 0
  · subst hZero
    exact h.2 rfl
  · exact head_toString hZero h.1

theorem isNumberChar_of_digit {c : Char} (h : isAsciiDigit c = true) : isNumberChar c = true := by
  unfold isNumberChar
  rw [h]
  rfl

/-- Digits start no negative number. -/
theorem head_ne_minus {text : List Char} (h : ∀ c ∈ text, isAsciiDigit c = true) :
    text.head? ≠ some '-' := by
  intro hHead
  have hDigit := h '-' (List.mem_of_mem_head? hHead)
  revert hDigit
  decide

theorem integer_of_head {F : Type u} {text : List Char} (h : text.head? ≠ some '-') :
    integer (F := F) text =
      ((natural text).filter fun n => decide (n < 2 ^ 64)).map .nat := by
  unfold integer
  split
  · exact absurd rfl h
  · rfl
theorem integer_toString {F : Type u} {n : Nat} (h : n < 2 ^ 64) :
    integer (F := F) (toString n).toList = some (.nat n) := by
  rw [integer_of_head (head_ne_minus fun c hc => isAsciiDigit_of_mem hc), natural_toString,
    Option.filter_some, if_pos (decide_eq_true h)]
  rfl

theorem integer_minus {F : Type u} {n : Nat} (hPos : 0 < n) (h : n ≤ 2 ^ 63) :
    integer (F := F) ('-' :: (toString n).toList) = some (.neg n) := by
  show ((natural (toString n).toList).filter fun n => decide (0 < n ∧ n ≤ 2 ^ 63)).map Value.neg = _
  rw [natural_toString, Option.filter_some, if_pos (decide_eq_true ⟨hPos, h⟩)]
  rfl

theorem isNumberChar_dropSign {text : List Char}
    (h : ∀ c ∈ dropSign text, isNumberChar c = true) : ∀ c ∈ text, isNumberChar c = true := by
  unfold dropSign at h
  split at h
  · exact List.forall_mem_cons.mpr ⟨rfl, h⟩
  · exact List.forall_mem_cons.mpr ⟨rfl, h⟩
  · exact h

theorem digits_isSome {text : List Char} (h : (digits text).isSome = true) :
    ∀ c ∈ text, isAsciiDigit c = true := by
  have hFrom : ∀ n, (digitsFrom n text).isSome = true → ∀ c ∈ text, isAsciiDigit c = true := by
    clear h
    induction text with
    | nil => intro n h c hc; cases hc
    | cons c text ih =>
        intro n h
        rw [digitsFrom] at h
        split at h
        · next hDigit => exact List.forall_mem_cons.mpr ⟨hDigit, ih _ h⟩
        · cases h
  unfold digits at h
  split at h
  · cases h
  · exact hFrom 0 h

theorem isNumberChar_exponent {text : List Char} (h : isExponent text = true) :
    ∀ c ∈ text, isNumberChar c = true := by
  cases text with
  | nil => intro c hc; cases hc
  | cons c rest =>
      rw [isExponent, Bool.and_eq_true] at h
      have hRest : ∀ c ∈ rest, isNumberChar c = true :=
        isNumberChar_dropSign fun c hc => isNumberChar_of_digit (digits_isSome h.2 c hc)
      refine List.forall_mem_cons.mpr ⟨?_, hRest⟩
      unfold isNumberChar
      simp only [Bool.or_eq_true] at h ⊢
      tauto

/-- Digits and what follows them. -/
theorem forall_mem_of_digits {p : Char → Prop} {text : List Char}
    (hDigit : ∀ c, isAsciiDigit c = true → p c) (hRest : ∀ c ∈ text.dropWhile isAsciiDigit, p c) :
    ∀ c ∈ text, p c := by
  intro c hc
  rw [← List.takeWhile_append_dropWhile (p := isAsciiDigit) (l := text), List.mem_append] at hc
  cases hc with
  | inl hc => exact hDigit c (List.mem_takeWhile_imp hc)
  | inr hc => exact hRest c hc

theorem isNumberChar_fraction {text : List Char} (h : isFraction text = true) :
    ∀ c ∈ text, isNumberChar c = true := by
  unfold isFraction at h
  split at h
  · rw [Bool.and_eq_true] at h
    exact List.forall_mem_cons.mpr ⟨rfl, forall_mem_of_digits (fun c hc => isNumberChar_of_digit hc)
      (isNumberChar_exponent h.2)⟩
  · exact isNumberChar_exponent h

theorem isNumberChar_unsigned {text : List Char} (h : isUnsigned text = true) :
    ∀ c ∈ text, isNumberChar c = true := by
  rw [isUnsigned, Bool.and_eq_true] at h
  exact forall_mem_of_digits (fun c hc => isNumberChar_of_digit hc) (isNumberChar_fraction h.2)

theorem isNumberChar_literal {text : List Char} (h : isLiteral text = true) :
    ∀ c ∈ text, isNumberChar c = true := by
  unfold isLiteral at h
  split at h
  · exact List.forall_mem_cons.mpr ⟨rfl, isNumberChar_unsigned h⟩
  · exact isNumberChar_unsigned h

theorem literal_ne_nil {text : List Char} (h : isLiteral text = true) : text ≠ [] := by
  rintro rfl
  revert h
  decide


/-- A first character that only moves the reader. -/
theorem readString_more {state state' : Lexer} {c : Char} (h : state.step c = .more state')
    (text : List Char) : readString state (c :: text) = readString state' text := by
  rw [readString, h]

theorem readString_emit {state : Lexer} {c c' : Char} (h : state.step c = .emit c')
    (text : List Char) :
    readString state (c :: text) = push c' (readString (.plain none) text) := by
  rw [readString, h]

theorem readString_backslash (text : List Char) :
    readString (.plain none) ('\\' :: text) = readString (.escaped none) text :=
  readString_more rfl text

theorem readString_simple {letter c : Char} (h : (Lexer.escaped none).step letter = .emit c)
    (text : List Char) :
    readString (.plain none) ('\\' :: letter :: text) = push c (readString (.plain none) text) := by
  rw [readString_backslash, readString_emit h]

theorem hexValue_hexDigit {n : Nat} (h : n < 16) : hexValue (hexDigit n) = some n := by
  revert n
  decide

/-- The escape of a control character. -/
theorem readString_control {n : Nat} (h : n < 32) (text : List Char) :
    readString (.plain none)
        ('\\' :: 'u' :: '0' :: '0' :: hexDigit (n / 16) :: hexDigit (n % 16) :: text) =
      push (Char.ofNat n) (readString (.plain none) text) := by
  have hThird : (Lexer.hex none 0 2).step (hexDigit (n / 16)) = .more (.hex none (n / 16) 1) := by
    rw [Lexer.step, hexValue_hexDigit (by omega)]
    simp
  have hFourth : (Lexer.hex none (n / 16) 1).step (hexDigit (n % 16)) = .emit (Char.ofNat n) := by
    rw [Lexer.step, hexValue_hexDigit (by omega)]
    show endUnit none (16 * (n / 16) + n % 16) = _
    rw [Nat.div_add_mod, endUnit, if_neg, if_neg]
    · simp [isLowSurrogate]
      omega
    · simp [isHighSurrogate]
      omega
  have hOpen : (Lexer.escaped none).step 'u' = .more (.hex none 0 4) := rfl
  have hFirst : (Lexer.hex none 0 4).step '0' = .more (.hex none 0 3) := rfl
  have hSecond : (Lexer.hex none 0 3).step '0' = .more (.hex none 0 2) := rfl
  rw [readString_backslash, readString_more hOpen, readString_more hFirst, readString_more hSecond,
    readString_more hThird, readString_emit hFourth]

/-- An escaped character is read as the character. -/
theorem readString_escape (c : Char) (text : List Char) :
    readString (.plain none) (escape c ++ text) = push c (readString (.plain none) text) := by
  have hCode : ∀ {n}, c.toNat = n → c = Char.ofNat n := by
    intro n h
    rw [← h, Char.ofNat_toNat]
  unfold escape
  split
  · next h =>
      rw [h]
      exact readString_simple rfl text
  split
  · next h =>
      rw [h]
      exact readString_simple rfl text
  split
  · next h =>
      rw [hCode h]
      exact readString_simple rfl text
  split
  · next h =>
      rw [hCode h]
      exact readString_simple rfl text
  split
  · next h =>
      rw [hCode h]
      exact readString_simple rfl text
  split
  · next h =>
      rw [hCode h]
      exact readString_simple rfl text
  split
  · next h =>
      rw [hCode h]
      exact readString_simple rfl text
  split
  · next h =>
      have hRead := readString_control h text
      rwa [Char.ofNat_toNat] at hRead
  · next hQuote hEscape _ _ _ _ _ hControl =>
      refine readString_emit ?_ text
      rw [Lexer.step, if_neg hEscape, if_neg (by decide), if_neg hQuote, if_neg hControl]

theorem readString_escapes (s rest : List Char) :
    readString (.plain none) (s.flatMap escape ++ quote :: rest) = some (s, rest) := by
  induction s with
  | nil => rfl
  | cons c s ih =>
      rw [List.flatMap_cons, List.append_assoc, readString_escape, ih]
      rfl

/-- What is read of a string does not depend on what follows it. -/
theorem readString_append {state : Lexer} {text s rest : List Char}
    (h : readString state text = some (s, rest)) (more : List Char) :
    readString state (text ++ more) = some (s, rest ++ more) := by
  induction text generalizing state s with
  | nil => cases h
  | cons c text ih =>
      rw [readString] at h
      rw [List.cons_append, readString]
      cases hMove : state.step c with
      | stop =>
          rw [hMove] at h
          cases h
          rfl
      | emit c' =>
          rw [hMove] at h
          obtain ⟨⟨s', rest'⟩, hInner, hEq⟩ := Option.map_eq_some_iff.mp h
          cases hEq
          show push c' _ = _
          rw [ih hInner]
          rfl
      | more state' =>
          rw [hMove] at h
          exact ih h
      | fail =>
          rw [hMove] at h
          cases h


/-! ## Groups are read back -/

theorem skip_cons {c : Char} (h : isSpace c = false) (text : List Char) :
    skip (c :: text) = c :: text := by
  unfold skip
  rw [List.dropWhile_cons, h]
  rfl

theorem onNext_cons {α : Type v} (read : Char → Reader α) {c : Char} (h : isSpace c = false)
    (text : List Char) : onNext read (c :: text) = read c text := by
  unfold onNext
  rw [skip_cons h]

/-- What can follow a number. -/
def Ends (text : List Char) : Prop := ∀ c ∈ text.head?, isNumberChar c = false

/-- `read` reads `a` off every text that begins with `text`. -/
def Reads {α : Type u} (read : Reader α) (a : α) (text : List Char) : Prop :=
  ∀ rest, Ends rest → read (text ++ rest) = some (a, rest)

/-- A text that white space or the bracket is no beginning of. -/
def Starts (close : Char) (text : List Char) : Prop :=
  ∃ c rest, text = c :: rest ∧ isSpace c = false ∧ c ≠ close

/-- A character that can end a group. -/
def IsBracket (close : Char) : Prop :=
  isSpace close = false ∧ isNumberChar close = false ∧ close ≠ ','

section Groups

variable {α : Type u} {read : Reader α} {close : Char} {items : List α} {parts : List (List Char)}

theorem ends_closeGroup (hClose : IsBracket close) (rest : List Char) :
    Ends (closeGroup close parts ++ rest) := by
  intro c hc
  cases parts with
  | nil =>
      cases hc
      exact hClose.2.1
  | cons part parts =>
      cases hc
      rfl

theorem length_closeGroup (rest : List Char) :
    parts.length < (closeGroup close parts ++ rest).length := by
  induction parts with
  | nil => simp [closeGroup]
  | cons part parts ih =>
      simp only [closeGroup, List.cons_append, List.length_cons, List.length_append] at ih ⊢
      omega

theorem readClose_closeGroup (hClose : IsBracket close)
    (h : List.Forall₂ (Reads read) items parts) {fuel : Nat} (hFuel : parts.length < fuel)
    (rest : List Char) :
    readClose read close fuel (closeGroup close parts ++ rest) = some (items, rest) := by
  induction h generalizing fuel with
  | nil =>
      cases fuel with
      | zero => omega
      | succ fuel =>
          rw [readClose, closeGroup, List.singleton_append, onNext_cons _ hClose.1, if_pos rfl]
  | @cons item part items parts hItem hItems ih =>
      cases fuel with
      | zero => omega
      | succ fuel =>
          rw [List.length_cons] at hFuel
          have hRead := hItem (closeGroup close parts ++ rest) (ends_closeGroup hClose rest)
          rw [readClose, closeGroup, List.cons_append, List.append_assoc, onNext_cons _ rfl,
            if_neg (Ne.symm hClose.2.2), if_pos rfl, hRead, Option.bind_some, ih (by omega)]
          rfl

theorem readGroup_group (hClose : IsBracket close) (h : List.Forall₂ (Reads read) items parts)
    (hStart : ∀ part ∈ parts, Starts close part) (rest : List Char) :
    readGroup read close (group close parts ++ rest) = some (items, rest) := by
  cases h with
  | nil =>
      rw [readGroup, group, List.singleton_append, onNext_cons _ hClose.1, if_pos rfl]
  | @cons item part items parts hItem hItems =>
      obtain ⟨c, text, hPart, hSpace, hNot⟩ := hStart part List.mem_cons_self
      have hRead := hItem (closeGroup close parts ++ rest) (ends_closeGroup hClose rest)
      have hFuel : parts.length < (closeGroup close parts ++ rest).length := length_closeGroup rest
      have hRest := readClose_closeGroup hClose hItems (Nat.lt_succ_of_lt hFuel) rest
      rw [hPart, List.cons_append] at hRead
      rw [readGroup, group, hPart, List.append_assoc, List.cons_append, onNext_cons _ hSpace,
        if_neg hNot, hRead, Option.bind_some, hRest]
      rfl

end Groups

/-- A member is read when its value is. -/
theorem reads_member {α : Type u} {read : Reader α} {a : α} {text : List Char}
    (h : Reads read a text) (name : String) :
    Reads (readMember read) (name, a) (renderString name ++ ':' :: text) := by
  intro rest hRest
  rw [readMember, renderString, List.cons_append, List.cons_append,
    onNext_cons _ (by decide), if_pos rfl, List.append_assoc, List.append_assoc,
    List.singleton_append, readString_escapes, Option.bind_some, List.cons_append,
    onNext_cons _ rfl, if_pos rfl, h rest hRest, String.ofList_toList]
  rfl

/-! ## Values are read back -/

section Values

variable {F : Type u} {floats : Floats F}

variable (floats) in
mutual

/-- The number is one of the word sizes or has a literal, and arrays and objects are
nested at most `depth` deep. -/
def Fits : Nat → Value F → Prop
  | _, .null => True
  | _, .bool _ => True
  | _, .nat n => n < 2 ^ 64
  | _, .neg n => 0 < n ∧ n ≤ 2 ^ 63
  | _, .float x => (floats.print x).isSome = true
  | _, .str _ => True
  | depth, .arr items => 0 < depth ∧ FitItems (depth - 1) items
  | depth, .obj members => 0 < depth ∧ FitMembers (depth - 1) members

def FitItems : Nat → List (Value F) → Prop
  | _, [] => True
  | depth, item :: rest => Fits depth item ∧ FitItems depth rest

def FitMembers : Nat → List (String × Value F) → Prop
  | _, [] => True
  | depth, (_, item) :: rest => Fits depth item ∧ FitMembers depth rest

end

theorem readKeyword_number {c : Char} (h : isNumberChar c = true) (text : List Char) :
    readKeyword (F := F) (c :: text) = none := by
  have hNot : ∀ c', isNumberChar c' = false → c' ≠ c := by
    intro c' hc' hEq
    rw [hEq, h] at hc'
    cases hc'
  have hStrip : ∀ c' start, isNumberChar c' = false → stripPrefix (c' :: start) (c :: text) = none :=
    fun c' start hc' => if_neg (hNot c' hc')
  unfold readKeyword
  rw [show "null".toList = 'n' :: "ull".toList from rfl,
    show "true".toList = 't' :: "rue".toList from rfl,
    show "false".toList = 'f' :: "alse".toList from rfl, hStrip 'n' _ rfl, hStrip 't' _ rfl,
    hStrip 'f' _ rfl]
  rfl

/-- A token that is a number is read where no number character follows it. -/
theorem readAtom_number {token : List Char} {v : Value F} (hNonempty : token ≠ [])
    (hToken : ∀ c ∈ token, isNumberChar c = true) (hValue : numberOf floats token = some v) :
    Reads (readAtom floats) v token := by
  intro rest hRest
  have hTake : (token ++ rest).takeWhile isNumberChar = token := by
    rw [List.takeWhile_append_of_pos hToken]
    cases rest with
    | nil => simp
    | cons c rest => simp [hRest c rfl]
  have hDrop : (token ++ rest).dropWhile isNumberChar = rest := by
    rw [List.dropWhile_append_of_pos hToken]
    cases rest with
    | nil => rfl
    | cons c rest => simp [hRest c rfl]
  cases token with
  | nil => exact absurd rfl hNonempty
  | cons c token =>
      rw [readAtom, List.cons_append, readKeyword_number (hToken c List.mem_cons_self),
        ← List.cons_append, Option.none_or, readNumber, hTake, hDrop, hValue]
      rfl

theorem readValue_atom {depth : Nat} {token : List Char} {v : Value F}
    (hStart : ∀ c ∈ token.head?, isSpace c = false ∧ c ≠ quote ∧ c ≠ '[' ∧ c ≠ '\x7b')
    (hNonempty : token ≠ []) (h : Reads (readAtom floats) v token) :
    Reads (readValue floats (depth + 1)) v token := by
  intro rest hRest
  cases token with
  | nil => exact absurd rfl hNonempty
  | cons c token =>
      obtain ⟨hSpace, hQuote, hItems, hMembers⟩ := hStart c rfl
      rw [readValue, List.cons_append, onNext_cons _ hSpace, if_neg hQuote, if_neg hItems,
        if_neg hMembers, ← List.cons_append, h rest hRest]

theorem start_of_number {c : Char} (h : isNumberChar c = true) :
    isSpace c = false ∧ c ≠ quote ∧ c ≠ '[' ∧ c ≠ '\x7b' ∧ c ≠ ']' := by
  have hNot : ∀ c', isNumberChar c' = false → c ≠ c' := by
    rintro c' hc' rfl
    rw [h] at hc'
    cases hc'
  have hSpace : isSpace c = false := by
    unfold isSpace
    simp only [Bool.or_eq_false_iff, beq_eq_false_iff_ne]
    exact ⟨⟨⟨hNot _ rfl, hNot _ rfl⟩, hNot _ rfl⟩, hNot _ rfl⟩
  exact ⟨hSpace, hNot _ rfl, hNot _ rfl, hNot _ rfl, hNot _ rfl⟩

theorem readValue_number {depth : Nat} {token : List Char} {v : Value F} (hNonempty : token ≠ [])
    (hToken : ∀ c ∈ token, isNumberChar c = true) (hValue : numberOf floats token = some v) :
    Reads (readValue floats (depth + 1)) v token := by
  refine readValue_atom ?_ hNonempty (readAtom_number hNonempty hToken hValue)
  intro c hc
  obtain ⟨hSpace, hQuote, hItems, hMembers, -⟩ :=
    start_of_number (hToken c (List.mem_of_mem_head? hc))
  exact ⟨hSpace, hQuote, hItems, hMembers⟩

theorem isNumberChar_toString {n : Nat} : ∀ c ∈ (toString n).toList, isNumberChar c = true :=
  fun _ hc => isNumberChar_of_digit (isAsciiDigit_of_mem hc)

theorem forall_mem_minus {n : Nat} :
    ∀ c ∈ '-' :: (toString n).toList, isNumberChar c = true :=
  List.forall_mem_cons.mpr ⟨rfl, isNumberChar_toString⟩

/-- The text of a value starts neither with white space nor with the end of an array. -/
theorem starts_render {depth : Nat} {v : Value F} (h : Fits floats depth v) :
    Starts ']' (render floats v) := by
  have hNumber : ∀ text : List Char, text ≠ [] → (∀ c ∈ text, isNumberChar c = true) →
      Starts ']' text := by
    intro text hNonempty hText
    cases text with
    | nil => exact absurd rfl hNonempty
    | cons c rest =>
        obtain ⟨hSpace, -, -, -, hNot⟩ := start_of_number (hText c List.mem_cons_self)
        exact ⟨c, rest, rfl, hSpace, hNot⟩
  cases v with
  | null => exact ⟨'n', _, rfl, rfl, by decide⟩
  | bool b => cases b <;> exact ⟨_, _, rfl, rfl, by decide⟩
  | nat n =>
      rw [render]
      exact hNumber _ (toString_ne_nil n) isNumberChar_toString
  | neg n =>
      rw [render]
      exact hNumber _ (List.cons_ne_nil _ _) forall_mem_minus
  | float x =>
      rw [Fits] at h
      obtain ⟨text, hText⟩ := Option.isSome_iff_exists.mp h
      have hLiteral := floats.isLiteral_print hText
      rw [render, hText]
      exact hNumber _ (literal_ne_nil hLiteral) (isNumberChar_literal hLiteral)
  | str s =>
      rw [render]
      exact ⟨quote, _, rfl, by decide, by decide⟩
  | arr items =>
      rw [render]
      exact ⟨'[', _, rfl, rfl, by decide⟩
  | obj members =>
      rw [render]
      exact ⟨'\x7b', _, rfl, rfl, by decide⟩

theorem starts_items {depth : Nat} {items : List (Value F)} (h : FitItems floats depth items) :
    ∀ part ∈ renderItems floats items, Starts ']' part := by
  induction items with
  | nil =>
      intro part hPart
      rw [renderItems] at hPart
      cases hPart
  | cons item items ih =>
      rw [FitItems] at h
      rw [renderItems]
      exact List.forall_mem_cons.mpr ⟨starts_render h.1, ih h.2⟩

theorem starts_members (members : List (String × Value F)) :
    ∀ part ∈ renderMembers floats members, Starts '\x7d' part := by
  induction members with
  | nil =>
      intro part hPart
      rw [renderMembers] at hPart
      cases hPart
  | cons member members ih =>
      rw [renderMembers]
      exact List.forall_mem_cons.mpr ⟨⟨quote, _, rfl, by decide, by decide⟩, ih⟩

theorem isBracket_items : IsBracket ']' := ⟨rfl, rfl, by decide⟩

theorem isBracket_members : IsBracket '\x7d' := ⟨rfl, rfl, by decide⟩

mutual

/-- A value is read back from its text. -/
theorem readValue_render {depth : Nat} :
    ∀ v : Value F, Fits floats depth v → Reads (readValue floats (depth + 1)) v (render floats v)
  | .null, _ =>
      readValue_atom (fun c hc => by cases hc; decide) (by rw [render]; decide) fun rest _ => rfl
  | .bool b, _ => by
      cases b <;>
        exact readValue_atom (fun c hc => by cases hc; decide) (by rw [render]; decide)
          fun rest _ => rfl
  | .nat n, h => by
      rw [Fits] at h
      rw [render]
      refine readValue_number (toString_ne_nil n) isNumberChar_toString ?_
      rw [numberOf, integer_toString h]
      rfl
  | .neg n, h => by
      rw [Fits] at h
      rw [render]
      refine readValue_number (List.cons_ne_nil _ _) forall_mem_minus ?_
      rw [numberOf, integer_minus h.1 h.2]
      rfl
  | .float x, h => by
      rw [Fits] at h
      obtain ⟨text, hText⟩ := Option.isSome_iff_exists.mp h
      have hLiteral := floats.isLiteral_print hText
      rw [render, hText]
      refine readValue_number (literal_ne_nil hLiteral) (isNumberChar_literal hLiteral) ?_
      rw [Option.getD_some, numberOf, floats.integer_print hText, if_pos hLiteral, floats.read_print hText]
      rfl
  | .str s, _ => by
      intro rest _
      rw [render, renderString, List.cons_append, List.append_assoc, readValue,
        onNext_cons _ (by decide), if_pos rfl, List.singleton_append, readString_escapes]
      show some (Value.str (String.ofList s.toList), rest) = _
      rw [String.ofList_toList]
  | .arr items, h => by
      rw [Fits] at h
      intro rest _
      have hItems := readItems_render items h.2
      rw [Nat.sub_add_cancel h.1] at hItems
      rw [render, List.cons_append, readValue, onNext_cons _ rfl, if_neg (by decide), if_pos rfl,
        if_neg (by omega), readGroup_group isBracket_items hItems (starts_items h.2)]
      rfl
  | .obj members, h => by
      rw [Fits] at h
      intro rest _
      have hMembers := readMembers_render members h.2
      rw [Nat.sub_add_cancel h.1] at hMembers
      rw [render, List.cons_append, readValue, onNext_cons _ rfl, if_neg (by decide),
        if_neg (by decide), if_pos rfl, if_neg (by omega),
        readGroup_group isBracket_members hMembers (starts_members members)]
      rfl

theorem readItems_render {depth : Nat} : ∀ items : List (Value F), FitItems floats depth items →
    List.Forall₂ (Reads (readValue floats (depth + 1))) items (renderItems floats items)
  | [], _ => by
      rw [renderItems]
      exact .nil
  | item :: rest, h => by
      rw [FitItems] at h
      rw [renderItems]
      exact .cons (readValue_render item h.1) (readItems_render rest h.2)

theorem readMembers_render {depth : Nat} :
    ∀ members : List (String × Value F), FitMembers floats depth members →
      List.Forall₂ (Reads (readMember (readValue floats (depth + 1)))) members
        (renderMembers floats members)
  | [], _ => by
      rw [renderMembers]
      exact .nil
  | (name, item) :: rest, h => by
      rw [FitMembers] at h
      rw [renderMembers]
      exact .cons (reads_member (readValue_render item h.1) name) (readMembers_render rest h.2)

end

theorem number_not_space {c : Char} (h : isSpace c = true) : isNumberChar c = false := by
  cases hNumber : isNumberChar c with
  | false => rfl
  | true =>
      rw [(start_of_number hNumber).1] at h
      cases h

/-- The text of a value with white space after it is one value, the value. -/
theorem parse_render_spaces {v : Value F} (h : Fits floats 127 v) {gap : List Char}
    (hGap : ∀ c ∈ gap, isSpace c = true) : parse floats (render floats v ++ gap) = some v := by
  have hRead := readValue_render v h gap fun c hc =>
    number_not_space (hGap c (List.mem_of_mem_head? hc))
  rw [parse, show recursionLimit = 127 + 1 from rfl, hRead, Option.bind_some]
  show (if (gap.dropWhile isSpace).isEmpty = true then some v else none) = _
  rw [List.dropWhile_eq_nil_iff.mpr hGap]
  rfl

/-- The text of a value is one value, the value. -/
theorem parse_render {v : Value F} (h : Fits floats 127 v) :
    parse floats (render floats v) = some v := by
  have hRead := parse_render_spaces h (List.forall_mem_nil (isSpace · = true))
  rwa [List.append_nil] at hRead

/-! ## Texts are lines -/

theorem code_hexDigit {n : Nat} (h : n < 16) : ¬ (hexDigit n).toNat < 32 := by
  revert n
  decide

theorem code_escape (c : Char) : ∀ c' ∈ escape c, ¬ c'.toNat < 32 := by
  unfold escape
  split
  · simp [quote]
  split
  · simp
  split
  · simp
  split
  · simp
  split
  · simp
  split
  · simp
  split
  · simp
  split
  · next h =>
      intro c' hc'
      simp only [List.mem_cons, List.not_mem_nil, or_false] at hc'
      rcases hc' with rfl | rfl | rfl | rfl | rfl | rfl
      · decide
      · decide
      · decide
      · decide
      · exact code_hexDigit (by omega)
      · exact code_hexDigit (by omega)
  · next h => 
      intro c' hc'
      rw [List.mem_singleton.mp hc']
      exact h

theorem code_string (s : String) : ∀ c ∈ renderString s, ¬ c.toNat < 32 := by
  intro c hc
  rw [renderString, List.mem_cons, List.mem_append, List.mem_singleton, List.mem_flatMap] at hc
  rcases hc with rfl | ⟨c', -, hc⟩ | rfl
  · decide
  · exact code_escape c' c hc
  · decide

theorem code_number {c : Char} (h : isNumberChar c = true) : ¬ c.toNat < 32 := by
  unfold isNumberChar isAsciiDigit at h
  simp only [Bool.or_eq_true, Bool.and_eq_true, decide_eq_true_eq, beq_iff_eq] at h
  rcases h with ((((h | rfl) | rfl) | rfl) | rfl) | rfl
  · have hLow : 48 ≤ c.toNat := h.1
    omega
  · decide
  · decide
  · decide
  · decide
  · decide

theorem code_group {close : Char} {parts : List (List Char)} (hClose : ¬ close.toNat < 32)
    (h : ∀ part ∈ parts, ∀ c ∈ part, ¬ c.toNat < 32) :
    ∀ c ∈ group close parts, ¬ c.toNat < 32 := by
  have hMore : ∀ parts, (∀ part ∈ parts, ∀ c ∈ part, ¬ c.toNat < 32) →
      ∀ c ∈ closeGroup close parts, ¬ c.toNat < 32 := by
    intro parts
    induction parts with
    | nil => exact fun _ c hc => by rwa [List.mem_singleton.mp hc]
    | cons part parts ih =>
        intro h c hc
        rw [List.forall_mem_cons] at h
        rw [closeGroup, List.mem_cons, List.mem_append] at hc
        rcases hc with rfl | hc | hc
        · decide
        · exact h.1 c hc
        · exact ih h.2 c hc
  cases parts with
  | nil => exact hMore [] h
  | cons part parts =>
      rw [List.forall_mem_cons] at h
      intro c hc
      cases List.mem_append.mp hc with
      | inl hc => exact h.1 c hc
      | inr hc => exact hMore parts h.2 c hc

theorem code_print {x : F} {text : List Char} (h : floats.print x = some text) :
    ∀ c ∈ text, ¬ c.toNat < 32 :=
  fun c hc => code_number (isNumberChar_literal (floats.isLiteral_print h) c hc)

mutual

/-- The text of a value has no control characters. -/
theorem code_render : ∀ v : Value F, ∀ c ∈ render floats v, ¬ c.toNat < 32
  | .null => by rw [render]; simp
  | .bool b => by cases b <;> · rw [render]; simp
  | .nat n => by
      rw [render]
      exact fun c hc => code_number (isNumberChar_toString c hc)
  | .neg n => by
      rw [render]
      exact fun c hc => code_number (forall_mem_minus c hc)
  | .float x => by
      rw [render]
      cases h : floats.print x with
      | none => simp
      | some text => exact code_print h
  | .str s => by
      rw [render]
      exact code_string s
  | .arr items => by
      rw [render, List.forall_mem_cons]
      exact ⟨by decide, code_group (by decide) (code_items items)⟩
  | .obj members => by
      rw [render, List.forall_mem_cons]
      exact ⟨by decide, code_group (by decide) (code_members members)⟩

theorem code_items : ∀ items : List (Value F), ∀ part ∈ renderItems floats items,
    ∀ c ∈ part, ¬ c.toNat < 32
  | [] => by
      rw [renderItems]
      exact fun _ h => nomatch h
  | item :: rest => by
      rw [renderItems]
      exact List.forall_mem_cons.mpr ⟨code_render item, code_items rest⟩

theorem code_members : ∀ members : List (String × Value F),
    ∀ part ∈ renderMembers floats members, ∀ c ∈ part, ¬ c.toNat < 32
  | [] => by
      rw [renderMembers]
      exact fun _ h => nomatch h
  | (name, item) :: rest => by
      rw [renderMembers]
      refine List.forall_mem_cons.mpr ⟨fun c hc => ?_, code_members rest⟩
      rw [List.mem_append, List.mem_cons] at hc
      rcases hc with hc | rfl | hc
      · exact code_string name c hc
      · decide
      · exact code_render item c hc

end

end Values


end Mgd.Lib.Json
