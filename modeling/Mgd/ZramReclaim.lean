import Mathlib.Algebra.BigOperators.Group.List.Basic
import Mathlib.Algebra.GroupWithZero.Nat
import Mgd.Lib.Text

/-!
# The swap reclaim helper

`mgd-zram-reclaim`, a program of its own with `CAP_SYS_ADMIN`: it turns every
zram swap device off and on again, which brings the compressed pages back into
RAM.  Any member of its group may run it, so it checks for itself that they fit.

The texts of `/proc` and `/sys` are whatever `read` gives, `none` when a file
cannot be read as text.  The check counts in whole megabytes and skips the
devices whose size it cannot read; `swapoffs_fit_iff` says what that costs.
-/

namespace Mgd.ZramReclaim

open Mgd.Lib.Text

/-! ## Files -/

/-- `fs::read_to_string` -/
abbrev ReadFile := String → Option String

def parseU64 (text : List Char) : Option Nat := parseUnsigned (2 ^ 64 - 1) text

def parseI32 (text : List Char) : Option Int := parseSigned (2 ^ 31 - 1) text

/-- `/dev/zram` followed by digits. -/
def isZramDevicePath (path : String) : Bool :=
  match stripPrefix "/dev/zram".toList path.toList with
  | some rest => !rest.isEmpty && rest.all isAsciiDigit
  | none => false

structure ZramSwap where
  path : String
  /-- may be negative (kernel-assigned) -/
  priority : Int
deriving DecidableEq

/-- One line of `/proc/swaps`: `Filename Type Size Used Priority`. -/
def parseSwapLine (line : List Char) : Option ZramSwap :=
  match splitWhitespace line with
  | [] => none
  | name :: cols =>
      let path := String.ofList name
      if isZramDevicePath path then
        some ⟨path, (cols[3]?.bind parseI32).getD (-1)⟩
      else none

def parseZramSwaps (swaps : String) : List ZramSwap :=
  ((lines swaps.toList).drop 1).filterMap parseSwapLine

def readProcSwaps (read : ReadFile) : String := (read "/proc/swaps").getD ""

def deviceBasename (path : String) : String := String.ofList (afterLast '/' path.toList)

def parseKb (text : List Char) : Nat := ((splitWhitespace text).head?.bind parseU64).getD 0

/-- `MemAvailable`, in KB. -/
def memAvailableKb (read : ReadFile) : Option Nat :=
  (read "/proc/meminfo").bind fun content =>
    ((lines content.toList).findSome? (stripPrefix "MemAvailable:".toList)).map parseKb

def readMemAvailableMb (read : ReadFile) : Option Nat := (memAvailableKb read).map (· / 1024)

/-- `orig_data_size` of a device in bytes, field 0 of `mm_stat`. -/
def origDataSize (read : ReadFile) (basename : String) : Option Nat :=
  (read ("/sys/block/" ++ basename ++ "/mm_stat")).bind fun content =>
    (splitWhitespace content.toList).head?.bind parseU64

def zramOrigMb (read : ReadFile) (basename : String) : Option Nat :=
  (origDataSize read basename).map (· / (1024 * 1024))

/-! ## The headroom check -/

inductive HeadroomCheck
  | safe
  | notSafe (availMb decompressedMb : Nat)
  | unknown
deriving DecidableEq

def isHeadroomSafe (availMb decompressedMb : Nat) : Bool := decide (availMb > decompressedMb)

/-- The sum of a release build: it wraps. -/
def sumU64 (values : List Nat) : Nat := values.sum % 2 ^ 64

def decompressedMb (read : ReadFile) (devices : List ZramSwap) : Nat :=
  sumU64 ((devices.map fun d => deviceBasename d.path).filterMap (zramOrigMb read))

def headroomSafe (read : ReadFile) (devices : List ZramSwap) : HeadroomCheck :=
  match readMemAvailableMb read with
  | none => .unknown
  | some availMb =>
      if isHeadroomSafe availMb (decompressedMb read devices) then .safe
      else .notSafe availMb (decompressedMb read devices)

/-! ## The reclaim -/

inductive Syscall
  | swapoff (path : String)
  | swapon (path : String) (flags : Nat)
deriving DecidableEq

inductive ReclaimErr
  /-- swapoff returned EPERM: the binary lacks the capability -/
  | eperm
  | other
deriving DecidableEq

/-- What the kernel answers: the error of a `swapoff`, and whether the given
attempt at a `swapon` succeeds. -/
structure Kernel where
  swapoff : String → Option ReclaimErr
  swapon : String → Nat → Bool

/-- `SWAP_FLAG_PREFER` and the priority, or nothing for the kernel to assign. -/
def swaponFlags (priority : Int) : Nat :=
  if priority ≥ 0 then 0x8000 ||| (priority.toNat &&& 0x7fff) else 0

/-- `swapon` from the given attempt on, at most `left` more times. -/
def swaponRetry (k : Kernel) (path : String) (flags attempt : Nat) :
    Nat → List Syscall × Except ReclaimErr Unit
  | 0 => ([], .error .other)
  | left + 1 =>
      if k.swapon path attempt then ([.swapon path flags], .ok ())
      else
        let after := swaponRetry k path flags (attempt + 1) left
        (.swapon path flags :: after.1, after.2)

/-- A path with a NUL reaches no system call. -/
def reclaimOne (k : Kernel) (dev : ZramSwap) : List Syscall × Except ReclaimErr Unit :=
  if '\x00' ∈ dev.path.toList then ([], .error .other)
  else
    match k.swapoff dev.path with
    | some e => ([.swapoff dev.path], .error e)
    | none =>
        let on := swaponRetry k dev.path (swaponFlags dev.priority) 0 4
        (.swapoff dev.path :: on.1, on.2)

/-- The exit code of the loop over the devices. -/
def exitCode (results : List (Except ReclaimErr Unit)) : Nat :=
  if results.any (fun r => r matches .error .eperm) then 2
  else if results.any (fun r => r matches .error .other) then 1
  else 0

/-- The system calls of an invocation, and its exit code. -/
structure Invocation where
  calls : List Syscall
  exit : Nat

def main (read : ReadFile) (k : Kernel) : Invocation :=
  let devices := parseZramSwaps (readProcSwaps read)
  if devices.isEmpty then ⟨[], 0⟩
  else
    match headroomSafe read devices with
    | .safe =>
        let done := devices.map (reclaimOne k)
        ⟨done.flatMap Prod.fst, exitCode (done.map Prod.snd)⟩
    | .notSafe _ _ => ⟨[], 3⟩
    | .unknown => ⟨[], 4⟩

/-! ## What is switched off -/

/-- The devices the helper finds. -/
def devices (read : ReadFile) : List ZramSwap := parseZramSwaps (readProcSwaps read)

/-- The sizes the helper reads, `none` where it cannot. -/
def readSizes (read : ReadFile) : List (Option Nat) :=
  (devices read).map fun d => origDataSize read (deviceBasename d.path)

section Calls

variable {read : ReadFile} {k : Kernel}

theorem isZramDevicePath_of_mem {d : ZramSwap} (h : d ∈ devices read) :
    isZramDevicePath d.path = true := by
  unfold devices parseZramSwaps at h
  obtain ⟨line, -, hLine⟩ := List.mem_filterMap.mp h
  unfold parseSwapLine at hLine
  split at hLine
  · cases hLine
  · dsimp only at hLine
    split at hLine
    · next hPath =>
        cases hLine
        exact hPath
    · cases hLine

theorem nul_not_mem_of_zram {path : String} (h : isZramDevicePath path = true) :
    '\x00' ∉ path.toList := by
  unfold isZramDevicePath at h
  split at h
  · next rest hRest =>
      rw [stripPrefix_eq_some_iff] at hRest
      rw [hRest]
      simp only [Bool.and_eq_true, List.all_eq_true] at h
      intro hMem
      cases List.mem_append.mp hMem with
      | inl hStart => exact absurd hStart (by decide +kernel)
      | inr hEnd =>
          have hDigit := h.2 _ hEnd
          exact absurd hDigit (by decide)
  · cases h

/-- Every device found is switched off first. -/
theorem swapoff_mem_reclaimOne {d : ZramSwap} (h : d ∈ devices read) :
    .swapoff d.path ∈ (reclaimOne k d).1 := by
  have hNul := nul_not_mem_of_zram (isZramDevicePath_of_mem h)
  unfold reclaimOne
  rw [if_neg hNul]
  split <;> exact List.mem_cons_self

/-- **When the helper switches a device off.** -/
theorem exists_swapoff_iff (read : ReadFile) (k : Kernel) :
    (∃ path, .swapoff path ∈ (main read k).calls) ↔
      devices read ≠ [] ∧ ∃ kb, memAvailableKb read = some kb ∧
        isHeadroomSafe (kb / 1024) (decompressedMb read (devices read)) = true := by
  have hMain : main read k =
      if (devices read).isEmpty then ⟨[], 0⟩
      else
        match headroomSafe read (devices read) with
        | .safe =>
            ⟨((devices read).map (reclaimOne k)).flatMap Prod.fst,
              exitCode (((devices read).map (reclaimOne k)).map Prod.snd)⟩
        | .notSafe _ _ => ⟨[], 3⟩
        | .unknown => ⟨[], 4⟩ := rfl
  rw [hMain]
  unfold headroomSafe readMemAvailableMb
  cases hDevices : devices read with
  | nil => simp
  | cons d rest =>
      have hSome : ∃ path, .swapoff path ∈
          ((d :: rest).map (reclaimOne k)).flatMap Prod.fst := by
        refine ⟨d.path, List.mem_flatMap.mpr ⟨reclaimOne k d, by simp, ?_⟩⟩
        exact swapoff_mem_reclaimOne (hDevices ▸ List.mem_cons_self)
      rw [if_neg (by simp)]
      cases memAvailableKb read with
      | none => simp
      | some kb =>
          dsimp only [Option.map_some]
          by_cases hSafe : isHeadroomSafe (kb / 1024) (decompressedMb read (d :: rest)) = true
          · rw [if_pos hSafe]
            simpa [hSafe] using hSome
          · rw [if_neg hSafe]
            simpa using hSafe

end Calls

/-! ## What fits -/

/-- A megabyte, as the helper divides. -/
abbrev mb : Nat := 1024 * 1024

/-- Every size was read, and together they are less than what is available. -/
def Fits (read : ReadFile) : Prop :=
  ∃ (kb : Nat) (sizes : List Nat), memAvailableKb read = some kb ∧ readSizes read = sizes.map some ∧
    sizes.sum < kb * 1024

/-- What a sum loses when it wraps. -/
def wrapped (values : List Nat) : Nat := 2 ^ 64 * (values.sum / 2 ^ 64)

/-- The bytes that the helper leaves out: the part of a megabyte of each size, and
the megabytes lost when their sum wraps. -/
def roundedOff (sizes : List Nat) : Nat :=
  (sizes.map (· % mb)).sum + mb * wrapped (sizes.map (· / mb))

/-- The bytes by which the available memory exceeds that sum. -/
def margin (kb : Nat) (sizes : List Nat) : Nat :=
  mb * (kb / 1024 - sumU64 (sizes.map (· / mb))) + kb % 1024 * 1024

/-- Every size was read, and the rounding stays within the margin. -/
def RoundsWithin (read : ReadFile) (kb : Nat) : Prop :=
  ∃ sizes : List Nat, readSizes read = sizes.map some ∧ roundedOff sizes < margin kb sizes

section Sums

/-- Whole megabytes and remainders. -/
theorem sum_eq_whole_add (sizes : List Nat) :
    sizes.sum = mb * (sizes.map (· / mb)).sum + (sizes.map (· % mb)).sum := by
  induction sizes with
  | nil => rfl
  | cons size rest ih =>
      have hHere : size = mb * (size / mb) + size % mb := (Nat.div_add_mod size mb).symm
      simp only [List.map_cons, List.sum_cons, Nat.mul_add]
      omega

/-- The helper sums all but what it leaves out. -/
theorem sum_eq_add_roundedOff (sizes : List Nat) :
    sizes.sum = mb * sumU64 (sizes.map (· / mb)) + roundedOff sizes := by
  have hWrap : (sizes.map (· / mb)).sum =
      sumU64 (sizes.map (· / mb)) + wrapped (sizes.map (· / mb)) := (Nat.mod_add_div _ _).symm
  rw [sum_eq_whole_add, hWrap, Nat.mul_add]
  unfold roundedOff
  omega

/-- With every size read, the helper sums their megabytes. -/
theorem decompressedMb_of_read {read : ReadFile} {sizes : List Nat}
    (h : readSizes read = sizes.map some) :
    decompressedMb read (devices read) = sumU64 (sizes.map (· / mb)) := by
  have hMap : ((devices read).map fun d => deviceBasename d.path).filterMap (zramOrigMb read) =
      ((readSizes read).map (Option.map (· / mb))).filterMap id := by
    simp only [readSizes, List.filterMap_map]
    rfl
  unfold decompressedMb
  rw [hMap, h]
  simp [List.filterMap_map]

/-- The bytes fit exactly when what the rounding leaves out stays within the
margin. -/
theorem sum_lt_iff {kb : Nat} {sizes : List Nat}
    (hSafe : sumU64 (sizes.map (· / mb)) < kb / 1024) :
    sizes.sum < kb * 1024 ↔ roundedOff sizes < margin kb sizes := by
  rw [sum_eq_add_roundedOff]
  unfold margin
  generalize sumU64 (sizes.map (· / mb)) = whole at *
  unfold mb
  omega

end Sums

/--
**When the helper cannot run the machine out of memory.**  Whenever it switches
a device off the devices fit, exactly if, whenever its check in megabytes lets
devices through, every size was read and the rounding stays within the margin.
-/
theorem swapoffs_fit_iff (read : ReadFile) (k : Kernel) :
    ((∃ path, .swapoff path ∈ (main read k).calls) → Fits read) ↔
      ∀ kb, memAvailableKb read = some kb → devices read ≠ [] →
        isHeadroomSafe (kb / 1024) (decompressedMb read (devices read)) = true →
          RoundsWithin read kb := by
  rw [exists_swapoff_iff]
  constructor
  · intro hFits kb hKb hDevices hSafe
    obtain ⟨kb', sizes, hKb', hSizes, hSum⟩ := hFits ⟨hDevices, kb, hKb, hSafe⟩
    have hSame : kb' = kb := Option.some.inj (hKb'.symm.trans hKb)
    subst hSame
    rw [decompressedMb_of_read hSizes] at hSafe
    exact ⟨sizes, hSizes, (sum_lt_iff (of_decide_eq_true hSafe)).mp hSum⟩
  · intro hWithin hCalls
    obtain ⟨hDevices, kb, hKb, hSafe⟩ := hCalls
    obtain ⟨sizes, hSizes, hRounded⟩ := hWithin kb hKb hDevices hSafe
    rw [decompressedMb_of_read hSizes] at hSafe
    exact ⟨kb, sizes, hKb, hSizes, (sum_lt_iff (of_decide_eq_true hSafe)).mpr hRounded⟩

/-! ### Devices the rounding spares -/

theorem parseUnsigned_le {max n : Nat} {text : List Char} (h : parseUnsigned max text = some n) :
    n ≤ max := of_decide_eq_true (Option.filter_eq_some_iff.mp h).2

theorem origDataSize_le {read : ReadFile} {basename : String} {n : Nat}
    (h : origDataSize read basename = some n) : n ≤ 2 ^ 64 - 1 := by
  obtain ⟨content, -, hContent⟩ := Option.bind_eq_some_iff.mp h
  obtain ⟨column, -, hColumn⟩ := Option.bind_eq_some_iff.mp hContent
  exact parseUnsigned_le hColumn

/-- Each size loses less than a megabyte. -/
theorem sum_lt_whole {sizes : List Nat} (hSome : sizes ≠ []) :
    sizes.sum < mb * ((sizes.map (· / mb)).sum + sizes.length) := by
  induction sizes with
  | nil => exact absurd rfl hSome
  | cons size rest ih =>
      have hHere : size < mb * (size / mb + 1) := Nat.lt_mul_div_succ size (by decide)
      cases rest with
      | nil => simpa using hHere
      | cons next rest =>
          have hRest := ih (by simp)
          simp only [List.map_cons, List.sum_cons, List.length_cons, Nat.mul_add] at hRest hHere ⊢
          omega

theorem sum_map_div_le {sizes : List Nat} (h : ∀ size ∈ sizes, size ≤ 2 ^ 64 - 1) :
    (sizes.map (· / mb)).sum ≤ sizes.length * (2 ^ 44 - 1) := by
  induction sizes with
  | nil => simp
  | cons size rest ih =>
      have hHere : size / mb ≤ 2 ^ 44 - 1 := by
        have hSize := h size List.mem_cons_self
        unfold mb
        omega
      have hRest := ih fun s hs => h s (List.mem_cons_of_mem size hs)
      simp only [List.map_cons, List.sum_cons, List.length_cons, Nat.add_mul]
      omega

/-- With every size read and a megabyte to spare for each device they fit; one
device always has it. -/
theorem fits_of_room {read : ReadFile} {kb : Nat} {sizes : List Nat}
    (hKb : memAvailableKb read = some kb) (hSizes : readSizes read = sizes.map some)
    (hSome : sizes ≠ []) (hFew : sizes.length ≤ 2 ^ 20)
    (hRoom : decompressedMb read (devices read) + sizes.length ≤ kb / 1024) : Fits read := by
  have hBound : ∀ size ∈ sizes, size ≤ 2 ^ 64 - 1 := by
    intro size hSize
    have hMem : some size ∈ readSizes read := by
      rw [hSizes]
      exact List.mem_map_of_mem hSize
    obtain ⟨d, -, hRead⟩ := List.mem_map.mp hMem
    exact origDataSize_le hRead
  have hNoWrap : sumU64 (sizes.map (· / mb)) = (sizes.map (· / mb)).sum := by
    have hTotal := sum_map_div_le hBound
    refine Nat.mod_eq_of_lt ?_
    have hMost : sizes.length * (2 ^ 44 - 1) ≤ 2 ^ 20 * (2 ^ 44 - 1) :=
      Nat.mul_le_mul_right _ hFew
    omega
  rw [decompressedMb_of_read hSizes, hNoWrap] at hRoom
  refine ⟨kb, sizes, hKb, hSizes, ?_⟩
  have hSum := sum_lt_whole hSome
  have hScaled : mb * ((sizes.map (· / mb)).sum + sizes.length) ≤ mb * (kb / 1024) :=
    Nat.mul_le_mul_left mb hRoom
  have hAvail : mb * (kb / 1024) ≤ kb * 1024 := by
    unfold mb
    omega
  exact Nat.lt_of_lt_of_le hSum (Nat.le_trans hScaled hAvail)

/-! ### A device whose size cannot be read -/

/-- One zram device, 2 MB available, and no `mm_stat`. -/
def unreadableSize : ReadFile := fun path =>
  if path = "/proc/swaps" then
    some "Filename Type Size Used Priority\n/dev/zram0 partition 8388604 4398892 100\n"
  else if path = "/proc/meminfo" then some "MemAvailable:       2048 kB\n"
  else none

/-- Every call succeeds. -/
def willing : Kernel where
  swapoff := fun _ => none
  swapon := fun _ _ => true

theorem devices_unreadableSize : devices unreadableSize = [⟨"/dev/zram0", 100⟩] := by
  have hText : readProcSwaps unreadableSize =
      "Filename Type Size Used Priority\n/dev/zram0 partition 8388604 4398892 100\n" := rfl
  unfold devices parseZramSwaps
  -- the kernel would decode the literal anew for each character
  rewrite [hText, String.toList_ofList]
  decide +kernel

theorem memAvailableKb_unreadableSize : memAvailableKb unreadableSize = some 2048 := by
  have hText : unreadableSize "/proc/meminfo" = some "MemAvailable:       2048 kB\n" := rfl
  unfold memAvailableKb
  rewrite [hText, Option.bind_some, String.toList_ofList]
  decide +kernel

theorem origDataSize_unreadableSize :
    origDataSize unreadableSize (deviceBasename "/dev/zram0") = none := by
  have hBasename : deviceBasename "/dev/zram0" = "zram0" := by
    unfold deviceBasename
    rewrite [String.toList_ofList]
    rfl
  have hPath : "/sys/block/" ++ "zram0" ++ "/mm_stat" = "/sys/block/zram0/mm_stat" := rfl
  unfold origDataSize unreadableSize
  rw [hBasename, hPath, if_neg (by decide), if_neg (by decide), Option.bind_none]

/-- The device is switched off, whatever it holds. -/
theorem unreadableSize_switched_off :
    ¬ ∀ (read : ReadFile) (k : Kernel),
      (∃ path, .swapoff path ∈ (main read k).calls) → Fits read := by
  intro hAll
  have hMb : decompressedMb unreadableSize [⟨"/dev/zram0", 100⟩] = 0 := by
    have hUnread : zramOrigMb unreadableSize (deviceBasename "/dev/zram0") = none := by
      rw [zramOrigMb, origDataSize_unreadableSize, Option.map_none]
    rw [decompressedMb, List.map_singleton, List.filterMap_cons_none hUnread]
    rfl
  have hCalled : ∃ path, .swapoff path ∈ (main unreadableSize willing).calls := by
    rw [exists_swapoff_iff, devices_unreadableSize, hMb]
    exact ⟨List.cons_ne_nil _ _, 2048, memAvailableKb_unreadableSize, by decide⟩
  obtain ⟨kb, sizes, -, hSizes, -⟩ := hAll unreadableSize willing hCalled
  rw [readSizes, devices_unreadableSize, List.map_singleton, origDataSize_unreadableSize] at hSizes
  cases sizes with
  | nil => cases hSizes
  | cons size rest => cases hSizes

end Mgd.ZramReclaim
