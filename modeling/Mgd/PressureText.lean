import Mgd.Config.Loading
import Mgd.Lib.Decimal

/-!
# The text of the pressure file

`parse_pressure` over every text.  It starts from zeros and passes over lines of
fewer than five columns, so a text without a `some` or a `full` line reads as no
pressure; and its numbers are whatever a float reads.  `acceptsPsi_iff` says for
which texts it accepts what a pressure file is.
-/

namespace Mgd.PressureText

open Mgd.Types Mgd.Lib.Text Mgd.Config.Loading

/-! ## Numbers -/

/-- From here on the nearest float is infinity. -/
def f64Overflow : ℚ := 2 ^ 1024 - 2 ^ 970

def signed (negative : Bool) (q : ℚ) : F64 :=
  if q < f64Overflow then .finite (if negative then -q else q)
  else if negative then .negInf else .posInf

/-- A float after its sign. -/
def unsignedF64 (negative : Bool) (text : List Char) : Option F64 :=
  match Lib.Decimal.number text with
  | some q => some (signed negative q)
  | none =>
      let word := String.ofList (text.map Char.toLower)
      if word = "nan" then some .nan
      else if word = "inf" ∨ word = "infinity" then some (if negative then .negInf else .posInf)
      else none

/-- `str::parse::<f64>` -/
def parseF64 : List Char → Option F64
  | '-' :: rest => unsignedF64 true rest
  | '+' :: rest => unsignedF64 false rest
  | text => unsignedF64 false text

/-- The digits of a `u64`, after `n`. -/
def u64From : Nat → List Char → Except String Nat
  | n, [] => .ok n
  | n, c :: rest =>
      if isAsciiDigit c then
        let more := 10 * n + (c.toNat - '0'.toNat)
        if more ≤ u64Max then u64From more rest
        else .error "number too large to fit in target type"
      else .error "invalid digit found in string"

/-- `str::parse::<u64>` -/
def parseU64 : List Char → Except String Nat
  | [] => .error "cannot parse integer from empty string"
  | ['+'] => .error "invalid digit found in string"
  | '+' :: rest => u64From 0 rest
  | text => u64From 0 text

inductive MgdError
  | parse (text : String)
deriving DecidableEq

def expected (key : String) (column : List Char) : MgdError :=
  .parse ("expected '" ++ key ++ "', got '" ++ String.ofList column ++ "'")

def parseKv (column : List Char) (key : String) : Except MgdError F64 :=
  match stripPrefix key.toList column with
  | none => .error (expected key column)
  | some text =>
      match parseF64 text with
      | some x => .ok x
      | none =>
          .error (.parse (if text.isEmpty then "cannot parse float from empty string"
            else "invalid float literal"))

def parseKvU64 (column : List Char) (key : String) : Except MgdError Nat :=
  match stripPrefix key.toList column with
  | none => .error (expected key column)
  | some text => (parseU64 text).mapError MgdError.parse

/-! ## The file -/

/-- The four numbers of a line. -/
structure Numbers where
  avg10 : F64
  avg60 : F64
  avg300 : F64
  total : Nat
deriving DecidableEq

/-- The `some_` fields and the `full_` fields. -/
structure MemoryPressure where
  some : Numbers
  full : Numbers
deriving DecidableEq

def zeros : Numbers := ⟨.finite 0, .finite 0, .finite 0, 0⟩

def numbers (avg10 avg60 avg300 total : List Char) : Except MgdError Numbers := do
  let avg10 ← parseKv avg10 "avg10="
  let avg60 ← parseKv avg60 "avg60="
  let avg300 ← parseKv avg300 "avg300="
  let total ← parseKvU64 total "total="
  return ⟨avg10, avg60, avg300, total⟩

/-- One line.  A short one is passed over. -/
def readLine (p : MemoryPressure) (line : List Char) : Except MgdError MemoryPressure :=
  match splitWhitespace line with
  | kind :: avg10 :: avg60 :: avg300 :: total :: _ => do
      let n ← numbers avg10 avg60 avg300 total
      if kind = "some".toList then return { p with some := n }
      else if kind = "full".toList then return { p with full := n }
      else return p
  | _ => return p

def parsePressure (content : List Char) : Except MgdError MemoryPressure :=
  (lines content).foldlM readLine ⟨zeros, zeros⟩

/-! ## What a pressure file is -/

def finiteNonneg : F64 → Bool
  | .finite q => decide (0 ≤ q)
  | _ => false

/-- The line has the five columns of its kind, with finite averages that are not
negative. -/
structure WellFormed (kind : String) (line : List Char) (n : Numbers) : Prop where
  columns : ∃ avg10 avg60 avg300 total,
    splitWhitespace line = [kind.toList, "avg10=".toList ++ avg10, "avg60=".toList ++ avg60,
      "avg300=".toList ++ avg300, "total=".toList ++ total] ∧
    parseF64 avg10 = some n.avg10 ∧ parseF64 avg60 = some n.avg60 ∧
    parseF64 avg300 = some n.avg300 ∧ parseU64 total = .ok n.total
  sound : finiteNonneg n.avg10 = true ∧ finiteNonneg n.avg60 = true ∧
    finiteNonneg n.avg300 = true

/-- A well-formed line of the text has these numbers. -/
def Has (content : List Char) (kind : String) (n : Numbers) : Prop :=
  ∃ line ∈ lines content, WellFormed kind line n

/-- The text is accepted when it has a well-formed line of either kind, and only
then, with the numbers of such lines. -/
def AcceptsPsi (content : List Char) : Prop :=
  ((∃ p, parsePressure content = .ok p) ↔
      (∃ n, Has content "some" n) ∧ ∃ n, Has content "full" n) ∧
    ∀ p, parsePressure content = .ok p → Has content "some" p.some ∧ Has content "full" p.full

/-! ## What the parser takes -/

/-- The kind and the numbers of a line that is not passed over. -/
def entry (line : List Char) : Option (List Char × Except MgdError Numbers) :=
  match splitWhitespace line with
  | kind :: avg10 :: avg60 :: avg300 :: total :: _ =>
      some (kind, numbers avg10 avg60 avg300 total)
  | _ => none

/-- The numbers of a line of this kind. -/
def numbersOf (kind : String) (line : List Char) : Option Numbers :=
  (entry line).bind fun e => if e.1 = kind.toList then e.2.toOption else none

/-- The numbers of the last line of this kind. -/
def lastNumbers (kind : String) (content : List Char) : Option Numbers :=
  ((lines content).filterMap (numbersOf kind)).getLast?

/-- Every line of five or more columns has the numbers under their keys. -/
def Readable (content : List Char) : Prop :=
  ∀ line ∈ lines content, ∀ e ∈ entry line, ∃ n, e.2 = .ok n

/-- A readable text has lines of both kinds, the last of each as a well-formed
one; an unreadable text lacks a well-formed line. -/
structure Genuine (content : List Char) : Prop where
  readable : Readable content → ∀ kind, kind = "some" ∨ kind = "full" →
    ∃ n ∈ lastNumbers kind content, Has content kind n
  unreadable : ¬ Readable content →
    ¬ ((∃ n, Has content "some" n) ∧ ∃ n, Has content "full" n)

theorem entry_of_columns {line : List Char} {kind a b c t : List Char} {rest : List (List Char)}
    (h : splitWhitespace line = kind :: a :: b :: c :: t :: rest) :
    entry line = some (kind, numbers a b c t) := by
  unfold entry
  rw [h]

theorem numbersOf_of_entry {kind : String} {line kind' : List Char}
    {r : Except MgdError Numbers} (h : entry line = some (kind', r)) :
    numbersOf kind line = if kind' = kind.toList then r.toOption else none := by
  unfold numbersOf
  rw [h]
  rfl

/-- **One line**: it is an error, or replaces the numbers of its kind. -/
theorem readLine_eq_ok_iff (p p' : MemoryPressure) (line : List Char) :
    readLine p line = .ok p' ↔
      (∀ e ∈ entry line, ∃ n, e.2 = .ok n) ∧
        p' = ⟨(numbersOf "some" line).getD p.some, (numbersOf "full" line).getD p.full⟩ := by
  have hReadLine : readLine p line =
      match entry line with
      | some (kind, r) => r.map fun n =>
          if kind = "some".toList then { p with some := n }
          else if kind = "full".toList then { p with full := n }
          else p
      | none => .ok p := by
    unfold readLine entry
    split
    · next kind a b c t rest hColumns =>
        cases numbers a b c t with
        | error e => rfl
        | ok n =>
            show (if _ then _ else _) = Except.ok _
            split
            · rfl
            · split <;> rfl
    · rfl
  rw [hReadLine]
  cases hEntry : entry line with
  | none =>
      have hNone : ∀ kind, numbersOf kind line = none := by
        intro kind
        unfold numbersOf
        rw [hEntry]
        rfl
      rw [hNone, hNone]
      simp only [Option.not_mem_none, Option.getD_none, Except.ok.injEq, IsEmpty.forall_iff,
        implies_true, true_and]
      exact eq_comm
  | some e =>
      obtain ⟨kind, r⟩ := e
      rw [numbersOf_of_entry hEntry, numbersOf_of_entry hEntry]
      cases r with
      | error e => simp [Except.map]
      | ok n =>
          have hDistinct : "some".toList ≠ "full".toList := by decide
          simp only [Except.map, Option.mem_def, Option.some.injEq, forall_eq', Except.ok.injEq,
            exists_eq', true_and, Except.toOption]
          by_cases hSome : kind = "some".toList
          · rw [if_pos hSome, if_pos hSome, if_neg (hSome ▸ hDistinct)]
            exact eq_comm
          · rw [if_neg hSome, if_neg hSome]
            by_cases hFull : kind = "full".toList
            · rw [if_pos hFull, if_pos hFull]
              exact eq_comm
            · rw [if_neg hFull, if_neg hFull]
              exact eq_comm

/-- **Every line**: none is an error, and the last of each kind stays. -/
theorem foldlM_readLine_iff (ls : List (List Char)) (p p' : MemoryPressure) :
    ls.foldlM readLine p = .ok p' ↔
      (∀ line ∈ ls, ∀ e ∈ entry line, ∃ n, e.2 = .ok n) ∧
        p' = ⟨((ls.filterMap (numbersOf "some")).getLast?).getD p.some,
          ((ls.filterMap (numbersOf "full")).getLast?).getD p.full⟩ := by
  induction ls generalizing p with
  | nil => simp [pure, Except.pure, eq_comm]
  | cons line rest ih =>
      have hBind : (line :: rest).foldlM readLine p = .ok p' ↔
          ∃ q, readLine p line = .ok q ∧ rest.foldlM readLine q = .ok p' := by
        rw [List.foldlM_cons]
        cases readLine p line with
        | error e => simp [bind, Except.bind]
        | ok q => simp [bind, Except.bind]
      have hLast : ∀ (kind : String) (n : Numbers),
          (((line :: rest).filterMap (numbersOf kind)).getLast?).getD n =
            ((rest.filterMap (numbersOf kind)).getLast?).getD ((numbersOf kind line).getD n) := by
        intro kind n
        cases hHere : numbersOf kind line with
        | none => rw [List.filterMap_cons_none hHere]; rfl
        | some n' =>
            rw [List.filterMap_cons_some hHere, List.getLast?_cons]
            rfl
      rw [hBind, hLast, hLast]
      simp only [List.forall_mem_cons]
      constructor
      · rintro ⟨q, hHere, hRest⟩
        obtain ⟨hEntry, rfl⟩ := (readLine_eq_ok_iff p q line).mp hHere
        obtain ⟨hEntries, hEq⟩ := (ih _).mp hRest
        exact ⟨⟨hEntry, hEntries⟩, hEq⟩
      · rintro ⟨⟨hEntry, hEntries⟩, hEq⟩
        exact ⟨_, (readLine_eq_ok_iff p _ line).mpr ⟨hEntry, rfl⟩, (ih _).mpr ⟨hEntries, hEq⟩⟩

theorem parsePressure_eq_ok_iff (content : List Char) (p : MemoryPressure) :
    parsePressure content = .ok p ↔
      Readable content ∧ p = ⟨(lastNumbers "some" content).getD zeros,
        (lastNumbers "full" content).getD zeros⟩ :=
  foldlM_readLine_iff (lines content) ⟨zeros, zeros⟩ p

/-- A well-formed line of a readable text is one of its kind. -/
theorem lastNumbers_isSome {content : List Char} {kind : String} {n : Numbers}
    (hReadable : Readable content) (h : Has content kind n) :
    ∃ n', lastNumbers kind content = some n' := by
  obtain ⟨line, hLine, ⟨⟨a, b, c, t, hColumns, -⟩, -⟩⟩ := h
  have hEntry := entry_of_columns hColumns
  obtain ⟨n', hNumbers⟩ := hReadable line hLine _ hEntry
  have hHere : numbersOf kind line = some n' := by
    rw [numbersOf_of_entry hEntry, if_pos rfl]
    dsimp only at hNumbers
    rw [hNumbers]
    rfl
  have hMem : n' ∈ (lines content).filterMap (numbersOf kind) :=
    List.mem_filterMap.mpr ⟨line, hLine, hHere⟩
  unfold lastNumbers
  cases hLast : ((lines content).filterMap (numbersOf kind)).getLast? with
  | none =>
      rw [List.getLast?_eq_none_iff.mp hLast] at hMem
      cases hMem
  | some last => exact ⟨last, rfl⟩

/-- **The parser accepts what a pressure file is** exactly for genuine texts. -/
theorem acceptsPsi_iff (content : List Char) : AcceptsPsi content ↔ Genuine content := by
  constructor
  · intro h
    constructor
    · intro hReadable
      have hOk := (parsePressure_eq_ok_iff content _).mpr ⟨hReadable, rfl⟩
      obtain ⟨⟨a, hSome⟩, b, hFull⟩ := h.1.mp ⟨_, hOk⟩
      obtain ⟨hSome', hFull'⟩ := h.2 _ hOk
      obtain ⟨a', hLastSome⟩ := lastNumbers_isSome hReadable hSome
      obtain ⟨b', hLastFull⟩ := lastNumbers_isSome hReadable hFull
      rw [hLastSome] at hSome'
      rw [hLastFull] at hFull'
      intro kind hKind
      cases hKind with
      | inl hIs => rw [hIs]; exact ⟨a', hLastSome, hSome'⟩
      | inr hIs => rw [hIs]; exact ⟨b', hLastFull, hFull'⟩
    · intro hNot hBoth
      obtain ⟨p, hOk⟩ := h.1.mpr hBoth
      exact hNot ((parsePressure_eq_ok_iff content p).mp hOk).1
  · intro h
    by_cases hReadable : Readable content
    · obtain ⟨a, hLastSome, hSome⟩ := h.readable hReadable "some" (Or.inl rfl)
      obtain ⟨b, hLastFull, hFull⟩ := h.readable hReadable "full" (Or.inr rfl)
      have hOk := (parsePressure_eq_ok_iff content _).mpr ⟨hReadable, rfl⟩
      refine ⟨⟨fun _ => ⟨⟨a, hSome⟩, b, hFull⟩, fun _ => ⟨_, hOk⟩⟩, fun p hp => ?_⟩
      obtain ⟨-, rfl⟩ := (parsePressure_eq_ok_iff content p).mp hp
      rw [Option.mem_def.mp hLastSome, Option.mem_def.mp hLastFull]
      exact ⟨hSome, hFull⟩
    · have hFails : ∀ p, parsePressure content ≠ .ok p :=
        fun p hp => hReadable ((parsePressure_eq_ok_iff content p).mp hp).1
      refine ⟨⟨?_, fun hBoth => absurd hBoth (h.unreadable hReadable)⟩,
        fun p hp => absurd hp (hFails p)⟩
      rintro ⟨p, hp⟩
      exact absurd hp (hFails p)

theorem parseKv_of_key {key : String} {text : List Char} {x : F64} (h : parseF64 text = some x) :
    parseKv (key.toList ++ text) key = .ok x := by
  unfold parseKv
  rw [stripPrefix_eq_some_iff.mpr rfl]
  dsimp only
  rw [h]

theorem parseKvU64_of_key {key : String} {text : List Char} {n : Nat}
    (h : parseU64 text = .ok n) : parseKvU64 (key.toList ++ text) key = .ok n := by
  unfold parseKvU64
  rw [stripPrefix_eq_some_iff.mpr rfl]
  dsimp only
  rw [h]
  rfl

/-- A well-formed line has an entry with its numbers. -/
theorem entry_of_wellFormed {kind : String} {line : List Char} {n : Numbers}
    (h : WellFormed kind line n) : entry line = some (kind.toList, .ok n) := by
  obtain ⟨a, b, c, t, hColumns, hAvg10, hAvg60, hAvg300, hTotal⟩ := h.columns
  rw [entry_of_columns hColumns]
  unfold numbers
  rw [parseKv_of_key hAvg10, parseKv_of_key hAvg60, parseKv_of_key hAvg300,
    parseKvU64_of_key hTotal]
  rfl

/-- What the kernel prints is genuine: one well-formed line of either kind. -/
theorem genuine_of_lines {content someLine fullLine : List Char} {a b : Numbers}
    (hLines : lines content = [someLine, fullLine]) (hSome : WellFormed "some" someLine a)
    (hFull : WellFormed "full" fullLine b) : Genuine content := by
  have hSomeEntry := entry_of_wellFormed hSome
  have hFullEntry := entry_of_wellFormed hFull
  have hDistinct : "full".toList ≠ "some".toList := by decide
  have hLastSome : lastNumbers "some" content = some a := by
    unfold lastNumbers
    rw [hLines, List.filterMap_cons_some (b := a) (by rw [numbersOf_of_entry hSomeEntry]; rfl),
      List.filterMap_cons_none (by rw [numbersOf_of_entry hFullEntry, if_neg hDistinct])]
    rfl
  have hLastFull : lastNumbers "full" content = some b := by
    unfold lastNumbers
    rw [hLines,
      List.filterMap_cons_none (by rw [numbersOf_of_entry hSomeEntry, if_neg hDistinct.symm]),
      List.filterMap_cons_some (b := b) (by rw [numbersOf_of_entry hFullEntry]; rfl)]
    rfl
  have hHasSome : Has content "some" a := ⟨someLine, by rw [hLines]; simp, hSome⟩
  have hHasFull : Has content "full" b := ⟨fullLine, by rw [hLines]; simp, hFull⟩
  constructor
  · intro _ kind hKind
    cases hKind with
    | inl hIs => rw [hIs]; exact ⟨a, hLastSome, hHasSome⟩
    | inr hIs => rw [hIs]; exact ⟨b, hLastFull, hHasFull⟩
  · intro hNot
    apply absurd _ hNot
    intro line hLine e he
    rw [hLines] at hLine
    cases List.mem_cons.mp hLine with
    | inl hIs =>
        rw [hIs, hSomeEntry] at he
        cases he
        exact ⟨a, rfl⟩
    | inr hIs =>
        rw [List.mem_singleton.mp hIs, hFullEntry] at he
        cases he
        exact ⟨b, rfl⟩

/-- An empty file is no pressure. -/
theorem empty_reads_as_calm :
    parsePressure [] = .ok ⟨zeros, zeros⟩ ∧ ¬ AcceptsPsi [] := by
  refine ⟨rfl, fun h => ?_⟩
  obtain ⟨line, hLine, -⟩ := (h.2 _ rfl).1
  cases hLine

end Mgd.PressureText
