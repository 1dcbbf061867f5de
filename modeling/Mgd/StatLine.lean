import Mathlib.Data.List.GetD
import Mgd.Lib.TomlBasic
import Mgd.Lib.Utf8
import Mgd.ProcessNames

/-!
# The columns of `/proc/<pid>/stat`

Three readers of one line: `read_start_time` of the daemon and of its KDE
companion, and `read_proc_stat` of the common crate.  Each looks for the last
`") "`, so that the parentheses and spaces of a name cannot move a column;
`exact_iff` says which names and counters they are right about.  The name that
defeats all three is one that is not UTF-8.
-/

namespace Mgd.StatLine

open Mgd.Types Mgd.ProcessNames Mgd.Lib.Text Mgd.Lib.TomlBasic Mgd.Lib.Utf8

/-! ## What the kernel prints -/

/-- A process, as its `stat` file shows it. -/
structure Stat where
  pid : Nat
  /-- any bytes: the kernel escapes nothing here -/
  comm : List UInt8
  state : Char
  /-- the numbers after the state, 49 of them in the kernels of today -/
  fields : List Int
  letter : state.isAlpha = true
  enough : 19 ≤ fields.length

namespace Stat

variable (s : Stat)

def field (i : Nat) : Int := s.fields.getD i 0

def majflt : Int := s.field 8

def utime : Int := s.field 10

def stime : Int := s.field 11

def startTime : Int := s.field 18

/-- From the state on. -/
def afterComm : List Char :=
  s.state :: (s.fields.flatMap (fun n => ' ' :: (toString n).toList) ++ ['\n'])

def bytes : List UInt8 :=
  encode ((toString s.pid).toList ++ " (".toList) ++ s.comm ++ encode (") ".toList ++ s.afterComm)

end Stat

/-! ## The readers -/

/-- The start time in the executor, of the bytes of the file if it can be opened. -/
def readStartTime (file : Option (List UInt8)) : Option Nat :=
  (file.bind decode).bind fun stat =>
    (rsplitOnce ") ".toList stat).bind fun afterComm =>
      (splitWhitespace afterComm)[19]?.bind (parseUnsigned u64Max)

/-- `read_start_time` of the companion, a copy of it. -/
def kdeReadStartTime (file : Option (List UInt8)) : Option Nat := readStartTime file

/-- CPU ticks and major faults, of the bytes of the file. -/
def readProcStatFile (file : Option (List UInt8)) : Option Nat × Nat :=
  readProcStat (file.bind decode)

/-- What the three readers are for. -/
structure Exact (s : Stat) : Prop where
  startTime : (readStartTime (some s.bytes)).map Int.ofNat = some s.startTime
  kdeStartTime : (kdeReadStartTime (some s.bytes)).map Int.ofNat = some s.startTime
  ticks : (readProcStatFile (some s.bytes)).1.map Int.ofNat = some (s.utime + s.stime)
  majflt : Int.ofNat (readProcStatFile (some s.bytes)).2 = s.majflt

/-- The name is text, and the counters are the unsigned numbers that the kernel
keeps, with a sum of the same kind. -/
structure Readable (s : Stat) : Prop where
  utf8 : (decode s.comm).isSome = true
  startTime : 0 ≤ s.startTime ∧ s.startTime ≤ u64Max
  majflt : 0 ≤ s.majflt ∧ s.majflt ≤ u64Max
  utime : 0 ≤ s.utime
  stime : 0 ≤ s.stime
  ticks : s.utime + s.stime ≤ u64Max

/-! ## The last separator -/

theorem rsplitOnce_eq_none {first : Char} {sep text : List Char} (h : first ∉ text) :
    rsplitOnce (first :: sep) text = none := by
  induction text with
  | nil => rfl
  | cons c text ih =>
      rw [List.mem_cons, not_or] at h
      rw [rsplitOnce, ih h.2, stripPrefix, if_neg h.1]
      rfl

/-- Nothing in front of the last separator matters. -/
theorem rsplitOnce_append {sep text rest : List Char} (h : rsplitOnce sep text = some rest)
    (before : List Char) : rsplitOnce sep (before ++ text) = some rest := by
  induction before with
  | nil => exact h
  | cons c before ih =>
      rw [List.cons_append, rsplitOnce, ih]
      rfl

/-! ## Numbers -/

theorem toList_toString_negSucc (n : Nat) :
    (toString (Int.negSucc n)).toList = '-' :: (toString (n + 1)).toList := by
  show ("-" ++ toString (n + 1)).toList = _
  rw [String.toList_append]
  rfl

theorem toList_toString_int_ne_nil (n : Int) : (toString n).toList ≠ [] := by
  cases n with
  | ofNat n => exact toString_ne_nil n
  | negSucc n =>
      rw [toList_toString_negSucc]
      exact List.cons_ne_nil _ _

/-- The characters of a number are digits, and a sign. -/
theorem isAsciiDigit_or_of_mem {n : Int} {c : Char} (h : c ∈ (toString n).toList) :
    isAsciiDigit c = true ∨ c = '-' := by
  cases n with
  | ofNat n => exact .inl (isAsciiDigit_of_mem h)
  | negSucc n =>
      rw [toList_toString_negSucc, List.mem_cons] at h
      exact h.elim .inr fun hDigit => .inl (isAsciiDigit_of_mem hDigit)

theorem parseUnsigned_toString (max n : Nat) :
    parseUnsigned max (toString n).toList = if n ≤ max then some n else none := by
  have hPlus : ∀ rest, (toString n).toList ≠ '+' :: rest := by
    intro rest hText
    have hDigit : isAsciiDigit '+' = true :=
      isAsciiDigit_of_mem (by rw [hText]; exact List.mem_cons_self)
    exact absurd hDigit (by decide)
  unfold parseUnsigned
  split
  · next rest hText => exact absurd hText (hPlus rest)
  · rw [digits_toString]
    by_cases hMax : n ≤ max <;> simp [Option.filter, hMax]

/-- A number that is negative or too large is not read. -/
theorem parseUnsigned_toString_eq_some_iff {max m : Nat} {n : Int} :
    parseUnsigned max (toString n).toList = some m ↔ n = m ∧ m ≤ max := by
  cases n with
  | ofNat n =>
      show parseUnsigned max (toString n).toList = some m ↔ (n : Int) = m ∧ m ≤ max
      rw [parseUnsigned_toString, Int.natCast_inj, Option.ite_none_right_eq_some, Option.some.injEq]
      constructor
      · rintro ⟨hMax, rfl⟩
        exact ⟨rfl, hMax⟩
      · rintro ⟨rfl, hMax⟩
        exact ⟨hMax, rfl⟩
  | negSucc n =>
      rw [toList_toString_negSucc]
      constructor
      · intro h
        cases h
      · intro h
        omega

/-! ## The columns after the name -/

section

variable {s : Stat}

theorem not_space_of_letter {c : Char} (h : c.isAlpha = true) : isWhitespace c = false := by
  have hRange : 65 ≤ c.toNat ∧ c.toNat ≤ 122 := by
    have hLetter : (c.isUpper || c.isLower) = true := h
    cases (Bool.or_eq_true _ _).mp hLetter with
    | inl hUpper =>
        obtain ⟨hLow, hHigh⟩ := of_decide_eq_true hUpper
        exact ⟨UInt32.le_iff_toNat_le.mp hLow,
          Nat.le_trans (UInt32.le_iff_toNat_le.mp hHigh) (by decide)⟩
    | inr hLower =>
        obtain ⟨hLow, hHigh⟩ := (Bool.and_eq_true _ _).mp hLower
        exact ⟨Nat.le_trans (by decide) (UInt32.le_iff_toNat_le.mp (of_decide_eq_true hLow)),
          UInt32.le_iff_toNat_le.mp (of_decide_eq_true hHigh)⟩
  unfold isWhitespace
  simp only [Bool.or_eq_false_iff, Bool.and_eq_false_iff, decide_eq_false_iff_not,
    beq_eq_false_iff_ne]
  omega

/-- The line goes on, or ends, after white space. -/
theorem space_of_head_numbers (fields : List Int) :
    ∀ c ∈ (fields.flatMap (fun n => ' ' :: (toString n).toList) ++ ['\n']).head?,
      isWhitespace c = true := by
  intro c hc
  cases fields <;> cases hc <;> decide

theorem not_space_of_mem_number {n : Int} {c : Char} (h : c ∈ (toString n).toList) :
    isWhitespace c = false := by
  cases isAsciiDigit_or_of_mem h with
  | inl hDigit => exact not_space_of_digit hDigit
  | inr hSign =>
      rw [hSign]
      decide

/-- Numbers with spaces between them are columns. -/
theorem splitWhitespace_numbers (fields : List Int) :
    splitWhitespace (fields.flatMap (fun n => ' ' :: (toString n).toList) ++ ['\n']) =
      fields.map fun n => (toString n).toList := by
  induction fields with
  | nil => decide
  | cons n fields ih =>
      rw [List.flatMap_cons, List.append_assoc, List.cons_append,
        splitWhitespace_cons_space (by decide),
        splitWhitespace_word (toList_toString_int_ne_nil n) (fun c hc => not_space_of_mem_number hc)
          (space_of_head_numbers fields), ih]
      rfl

theorem splitWhitespace_afterComm (s : Stat) :
    splitWhitespace s.afterComm = [s.state] :: s.fields.map fun n => (toString n).toList := by
  have hState : ∀ c ∈ [s.state], isWhitespace c = false := by
    intro c hc
    rw [List.mem_singleton.mp hc]
    exact not_space_of_letter s.letter
  unfold Stat.afterComm
  rw [← List.singleton_append,
    splitWhitespace_word (List.cons_ne_nil _ _) hState (space_of_head_numbers s.fields),
    splitWhitespace_numbers]

/-- The readers' column, counted from the state. -/
theorem column_eq (s : Stat) {i : Nat} (h : i < 19) :
    (splitWhitespace s.afterComm)[i + 1]? = some (toString (s.field i)).toList := by
  have hIndex : i < s.fields.length := Nat.lt_of_lt_of_le h s.enough
  rw [splitWhitespace_afterComm, List.getElem?_cons_succ, List.getElem?_map,
    List.getElem?_eq_getElem hIndex]
  unfold Stat.field
  rw [List.getD_eq_getElem _ _ hIndex]
  rfl

theorem not_mem_afterComm (s : Stat) : ')' ∉ s.afterComm := by
  unfold Stat.afterComm
  rw [List.mem_cons, not_or, List.mem_append, not_or, List.mem_flatMap]
  refine ⟨?_, ?_, by decide⟩
  · intro hState
    have hLetter := s.letter
    rw [← hState] at hLetter
    exact absurd hLetter (by decide)
  · rintro ⟨n, -, hParen⟩
    rw [List.mem_cons] at hParen
    cases hParen with
    | inl hSpace => exact absurd hSpace (by decide)
    | inr hNumber =>
        cases isAsciiDigit_or_of_mem hNumber with
        | inl hDigit => exact absurd hDigit (by decide)
        | inr hSign => exact absurd hSign (by decide)

/-- **The last separator is the one behind the name**, whatever the name is; and
there is none when the name is not text. -/
theorem afterComm_of_bytes (s : Stat) :
    (decode s.bytes).bind (rsplitOnce ") ".toList) =
      (decode s.comm).map fun _ => s.afterComm := by
  have hLast : rsplitOnce ") ".toList (") ".toList ++ s.afterComm) = some s.afterComm := by
    have hNone : rsplitOnce ") ".toList (' ' :: s.afterComm) = none := by
      apply rsplitOnce_eq_none
      rw [List.mem_cons, not_or]
      exact ⟨by decide, not_mem_afterComm s⟩
    show rsplitOnce ") ".toList (')' :: ' ' :: s.afterComm) = some s.afterComm
    rw [rsplitOnce, hNone, Option.none_or, stripPrefix_eq_some_iff]
    rfl
  unfold Stat.bytes
  rw [decode_append_right, decode_append_left]
  cases decode s.comm with
  | none => rfl
  | some name => exact rsplitOnce_append hLast _

/-! ## What the readers see -/

/-- One of the columns, as the readers parse it. -/
def Stat.number (s : Stat) (i : Nat) : Option Nat :=
  parseUnsigned u64Max (toString (s.field i)).toList

theorem number_eq_some_iff {i n : Nat} :
    s.number i = some n ↔ s.field i = n ∧ n ≤ u64Max :=
  parseUnsigned_toString_eq_some_iff

theorem number_eq_some {i : Nat} (hPos : 0 ≤ s.field i) (hMax : s.field i ≤ u64Max) :
    s.number i = some (s.field i).toNat :=
  number_eq_some_iff.mpr (by omega)

theorem readStartTime_bytes (s : Stat) :
    readStartTime (some s.bytes) = (decode s.comm).bind fun _ => s.number 18 := by
  unfold readStartTime
  rw [Option.bind_some, ← Option.bind_assoc, afterComm_of_bytes]
  cases decode s.comm with
  | none => rfl
  | some name =>
      show (splitWhitespace s.afterComm)[18 + 1]?.bind _ = _
      rw [column_eq s (by decide)]
      rfl

theorem readProcStatFile_bytes (s : Stat) :
    readProcStatFile (some s.bytes) =
      match decode s.comm with
      | none => (none, 0)
      | some _ =>
          ((s.number 10).bind fun u => (s.number 11).map fun t => (u + t) % 2 ^ 64,
            (s.number 8).getD 0) := by
  unfold readProcStatFile readProcStat
  rw [Option.bind_some, afterComm_of_bytes]
  cases decode s.comm with
  | none => rfl
  | some name =>
      show (((splitWhitespace s.afterComm)[10 + 1]?.bind _).bind fun u =>
          ((splitWhitespace s.afterComm)[11 + 1]?.bind _).map fun t => (u + t) % 2 ^ 64,
        ((splitWhitespace s.afterComm)[8 + 1]?.bind _).getD 0) = _
      rw [column_eq s (by decide), column_eq s (by decide), column_eq s (by decide)]
      rfl

theorem readable_of_exact (h : Exact s) : Readable s := by
  have hStart := h.startTime
  have hTicks := h.ticks
  have hMajflt := h.majflt
  rw [readStartTime_bytes] at hStart
  rw [readProcStatFile_bytes] at hTicks hMajflt
  cases hName : decode s.comm with
  | none =>
      rw [hName] at hStart
      cases hStart
  | some name =>
      rw [hName] at hStart hTicks hMajflt
      obtain ⟨start, hNumber, hEq⟩ := Option.map_eq_some_iff.mp hStart
      have hStartRange := number_eq_some_iff.mp hNumber
      obtain ⟨ticks, hSum, hTicksEq⟩ := Option.map_eq_some_iff.mp hTicks
      obtain ⟨u, hU, hBoth⟩ := Option.bind_eq_some_iff.mp hSum
      obtain ⟨t, hT, rfl⟩ := Option.map_eq_some_iff.mp hBoth
      have hUtime : s.utime = u := (number_eq_some_iff.mp hU).1
      have hStime : s.stime = t := (number_eq_some_iff.mp hT).1
      have hMajRange : 0 ≤ s.majflt ∧ s.majflt ≤ u64Max := by
        cases hMaj : s.number 8 with
        | none =>
            rw [hMaj] at hMajflt
            have hZero : (0 : Int) = s.majflt := hMajflt
            omega
        | some n =>
            have hRange := number_eq_some_iff.mp hMaj
            unfold Stat.majflt
            omega
      refine ⟨by rw [hName]; rfl, ?_, hMajRange, by omega, by omega, ?_⟩
      · unfold Stat.startTime
        omega
      · have hWrap : (((u + t) % 2 ^ 64 : Nat) : Int) = s.utime + s.stime := hTicksEq
        unfold u64Max
        omega

theorem exact_of_readable (h : Readable s) : Exact s := by
  obtain ⟨name, hName⟩ := Option.isSome_iff_exists.mp h.utf8
  have hStart : readStartTime (some s.bytes) = some s.startTime.toNat := by
    rw [readStartTime_bytes, hName]
    exact number_eq_some h.startTime.1 h.startTime.2
  have hUtime : 0 ≤ s.field 10 := h.utime
  have hStime : 0 ≤ s.field 11 := h.stime
  have hTicks : s.field 10 + s.field 11 ≤ u64Max := h.ticks
  have hU := number_eq_some hUtime (by omega)
  have hT := number_eq_some hStime (by omega)
  have hMajflt := number_eq_some h.majflt.1 h.majflt.2
  have hNoWrap : ((s.field 10).toNat + (s.field 11).toNat) % 2 ^ 64 =
      (s.field 10).toNat + (s.field 11).toNat := by
    unfold u64Max at hTicks
    omega
  have hStat : readProcStatFile (some s.bytes) =
      (some ((s.field 10).toNat + (s.field 11).toNat), (s.field 8).toNat) := by
    rw [readProcStatFile_bytes, hName]
    simp only [hU, hT, hMajflt, Option.bind_some, Option.map_some, Option.getD_some, hNoWrap]
  have hStartEq : (readStartTime (some s.bytes)).map Int.ofNat = some s.startTime := by
    rw [hStart]
    exact congrArg some (Int.toNat_of_nonneg h.startTime.1)
  refine ⟨hStartEq, hStartEq, ?_, ?_⟩
  · rw [hStat]
    show some (((s.field 10).toNat + (s.field 11).toNat : Nat) : Int) =
      some (s.field 10 + s.field 11)
    rw [Nat.cast_add, Int.toNat_of_nonneg hUtime, Int.toNat_of_nonneg hStime]
  · rw [hStat]
    exact Int.toNat_of_nonneg h.majflt.1

/-- **The names and counters for which the readers are right.** -/
theorem exact_iff (s : Stat) : Exact s ↔ Readable s :=
  ⟨readable_of_exact, exact_of_readable⟩

/-- A process that has named itself with a byte no text has. -/
def unnamable : Stat where
  pid := 7
  comm := [0xff]
  state := 'S'
  fields := List.replicate 50 1
  letter := rfl
  enough := by decide

/-- It has no start time, for either reader. -/
theorem not_exact_unnamable : ¬ Exact unnamable := by
  intro h
  have hText : (decode [0xff]).isSome = true := (readable_of_exact h).utf8
  have hFirst := (decode_isSome_iff.mp hText).isUTF8FirstByte_getElem_zero (by decide)
  exact absurd hFirst (by decide)

end

end Mgd.StatLine
