import Mathlib.Algebra.Order.Floor.Ring
import Mathlib.Data.Rat.Floor
import Mgd.Config.Reload
import Mgd.Lib.TomlBasic
import Mgd.PressureText

/-!
# The calibration sweep

`mgctl calibrate` maps more and more memory until the machine stalls or swaps, and
writes what it has learnt to `calibration.toml`, from which a daemon that has no
target of its own takes the share of RAM it keeps free.

`calibration_applied` follows a run from the readings of the machine to the
configuration of the daemon: what stops the sweep, what is mapped and unmapped, when
a file is written and what the daemon makes of its text.  The averages of the
baseline and the size of the headroom are computed exactly, without the rounding of
`f64`.
-/

namespace Mgd.CalibrationSweep

open Mgd.Types Mgd.Lib.Text Mgd.Lib.TomlBasic Mgd.Lib.TomlLines Mgd.Config.Loading
open Mgd.Config.Builtin Mgd.Config.Reload Mgd.PressureText

/-! ## What is read -/

/-- The files of an entry of `/sys/class/power_supply`, `none` where one cannot be read. -/
structure PowerSupply where
  type : Option (List Char)
  status : Option (List Char)
  capacity : Option (List Char)

def PowerSupply.low (s : PowerSupply) : Bool :=
  match s.type with
  | none => false
  | some typ =>
      trim typ == "Battery".toList && trim (s.status.getD []) == "Discharging".toList &&
        decide ((parseUnsigned (2 ^ 32 - 1) (trim (s.capacity.getD []))).getD 100 < 30)

def batteryLow (entries : Option (List PowerSupply)) : Bool :=
  (entries.getD []).any PowerSupply.low

/-- The `throttle_count` files of the thermal zones. -/
def thermalThrottling (entries : Option (List (Option (List Char)))) : Bool :=
  (entries.getD []).any fun val =>
    match val with
    | some text => decide (0 < (parseUnsigned u64Max (trim text)).getD 0)
    | none => false

structure PsiSnapshot where
  someAvg10 : F64
  fullAvg10 : F64

def PsiSnapshot.default : PsiSnapshot := ⟨0, 0⟩

/-- The first column with that key, 0 where there is none or it is no number. -/
def avg10 (parts : List (List Char)) : F64 :=
  match parts.find? fun p => (stripPrefix "avg10=".toList p).isSome with
  | none => 0
  | some p =>
      match parseKv p "avg10=" with
      | .ok x => x
      | .error _ => 0

/-- Lines of fewer than three columns are passed over. -/
def PsiSnapshot.readLine (snap : PsiSnapshot) (line : List Char) : PsiSnapshot :=
  let parts := splitWhitespace line
  if parts.length < 3 then snap
  else if parts.head? = some "some".toList then { snap with someAvg10 := avg10 parts }
  else if parts.head? = some "full".toList then { snap with fullAvg10 := avg10 parts }
  else snap

/-- `content` is `none` when the file cannot be read. -/
def readPsi (content : Option (List Char)) : Option PsiSnapshot :=
  content.map fun text => (lines text).foldl PsiSnapshot.readLine PsiSnapshot.default

def readSwapInKb (vmstat : Option (List Char)) : Nat :=
  ((vmstat.bind fun s =>
    ((lines s).find? fun l => (stripPrefix "pswpin ".toList l).isSome).bind fun l =>
      (splitWhitespace l)[1]?.bind fun v => parseUnsigned u64Max v)).getD 0

/-- When something is looked at. -/
inductive Moment
  | preflight
  | idle (i : Nat)
  | baseline
  | step (i : Nat)
  | tick (step tick : Nat)
  | released
  | recovery (i : Nat)
  | done
deriving DecidableEq

/-- What a run finds. -/
structure World where
  powerSupplies : Option (List PowerSupply)
  thermalZones : Option (List (Option (List Char)))
  /-- `/proc/pressure/memory` -/
  pressure : Moment → Option (List Char)
  vmstat : Moment → Option (List Char)
  /-- SIGINT or SIGTERM has arrived. -/
  interrupted : Moment → Bool
  /-- the `mmap` of a step does not fail -/
  maps : Nat → Bool
  totalKb : Nat
  /-- Unix seconds -/
  clock : Moment → Nat

namespace World

variable (w : World)

def psi (m : Moment) : Option PsiSnapshot := readPsi (w.pressure m)

def swapIn (m : Moment) : Nat := readSwapInKb (w.vmstat m)

end World

/-! ## Phase 1: the idle baseline -/

/-- `+` of floats -/
def addF64 : F64 → F64 → F64
  | .nan, _ => .nan
  | _, .nan => .nan
  | .finite a, .finite b => .finite (a + b)
  | .posInf, .negInf => .nan
  | .negInf, .posInf => .nan
  | .posInf, _ => .posInf
  | _, .posInf => .posInf
  | .negInf, _ => .negInf
  | _, .negInf => .negInf

/-- A float times a positive number. -/
def scaleF64 (factor : ℚ) : F64 → F64
  | .finite a => .finite (a * factor)
  | x => x

/-- `f64::clamp` -/
def clampF64 (low high x : F64) : F64 :=
  if x.lt low then low else if high.lt x then high else x

structure Samples where
  psi : List F64
  swap : List Nat

/-- The rounds from `i` on, `none` on an interrupt. -/
def idle (w : World) : Nat → Nat → Samples → Option Samples
  | 0, _, s => some s
  | left + 1, i, s =>
      if w.interrupted (.idle i) then none
      else
        idle w left (i + 1)
          { psi := s.psi ++ ((w.psi (.idle i)).map PsiSnapshot.fullAvg10).toList
            swap := s.swap ++ [w.swapIn (.idle i)] }

structure Baseline where
  psiFull : F64
  psiSome : F64
  swapIn : Nat

def average (samples : List F64) : F64 :=
  scaleF64 (1 / (max samples.length 1 : Nat)) (samples.foldl addF64 0)

def baseline (w : World) : Option Baseline :=
  (idle w 12 0 ⟨[], []⟩).map fun s =>
    { psiFull := average s.psi
      psiSome := ((w.psi .baseline).map PsiSnapshot.someAvg10).getD 0
      swapIn := s.swap.getLast?.getD 0 }

/-! ## Phase 2: the sweep -/

def stepMb : Nat := 200

def maxSteps : Nat := 30

def ticks : Nat := 4

/-- What ends the sweep. -/
inductive Stop
  | psi (full : F64)
  | swap

/-- The conditions of a tick. -/
def stopAt (w : World) (swapBefore step tick : Nat) : Option Stop :=
  let cur := (w.psi (.tick step tick)).getD PsiSnapshot.default
  if F64.lt 15 cur.fullAvg10 then some (.psi cur.fullAvg10)
  else if w.swapIn (.tick step tick) - swapBefore > 50000 then some .swap
  else none

inductive Watched
  | interrupted
  | stopped (stop : Stop)
  | quiet

/-- The ticks of a step from `tick` on. -/
def watch (w : World) (swapBefore step : Nat) : Nat → Nat → Watched
  | 0, _ => .quiet
  | left + 1, tick =>
      if w.interrupted (.tick step tick) then .interrupted
      else
        match stopAt w swapBefore step tick with
        | some stop => .stopped stop
        | none => watch w swapBefore step left (tick + 1)

/-- How the sweep ends, with the chunks that are mapped then. -/
inductive Swept
  | interrupted (chunks : Nat)
  | complete (chunks : Nat) (onset : Option Nat) (stopPsiFull : F64)

/-- The steps from `step` on. -/
def sweep (w : World) (swapBefore : Nat) : Nat → Nat → Nat → Swept
  | 0, _, chunks => .complete chunks none 0
  | left + 1, step, chunks =>
      if w.interrupted (.step step) then .interrupted chunks
      else if w.maps step then
        match watch w swapBefore step ticks 0 with
        | .interrupted => .interrupted (chunks + 1)
        | .stopped (.psi full) => .complete (chunks + 1) none full
        | .stopped .swap => .complete (chunks + 1) (some ((chunks + 1) * stepMb)) 0
        | .quiet => sweep w swapBefore left (step + 1) (chunks + 1)
      else .complete chunks none 0

/-! ## Phase 3: the recovery -/

/-- The rounds from `i` on.  The seconds are a difference of `u64`s; it wraps in a
release build. -/
def recover (w : World) (psiFull : F64) : Nat → Nat → Option Nat
  | 0, _ => some 60
  | left + 1, i =>
      if w.interrupted (.recovery i) then none
      else
        let cur := (w.psi (.recovery i)).getD PsiSnapshot.default
        if cur.fullAvg10.le (addF64 (scaleF64 (11 / 10) psiFull) (.finite (1 / 10))) then
          some ((w.clock (.recovery i) + 2 ^ 64 - w.clock .released) % 2 ^ 64)
        else recover w psiFull left (i + 1)

/-! ## The result -/

/-- `as u32` after `round` of a number that is not negative -/
def roundU32 (q : ℚ) : Nat := min (⌊q + 1 / 2⌋).toNat (2 ^ 32 - 1)

def targetAvailablePct (onsetMb totalMb : Nat) : Nat :=
  let raw := if 0 < totalMb then roundU32 ((onsetMb : ℚ) / totalMb * 100 + 3) else 18
  max 10 (min raw 35)

/-- `{:<6}` -/
def padded (n : Nat) : List Char :=
  (toString n).toList ++ List.replicate (6 - (toString n).toList.length) ' '

def tomlHead (ts : Nat) : List (List Char) :=
  [ "# Generated by mgctl calibrate (".toList ++ (toString ts).toList ++ [')']
  , "# Review these values, then run: mgctl calibrate --apply".toList
  , "# They will replace the built-in conservative defaults in the daemon.".toList
  , []
  , "[thresholds]".toList ]

def tomlLines (ts target onsetMb totalMb recoverySecs : Nat) : List (List Char) :=
  tomlHead ts ++
  [ "target_available_pct = ".toList ++ (padded target ++ ("  # swap onset was at ".toList ++
      ((toString onsetMb).toList ++ ("MB / ".toList ++ ((toString totalMb).toList ++
        "MB RAM + 3% headroom".toList)))))
  , "psi_recovery_secs    = ".toList ++ (padded recoverySecs ++
      "  # seconds PSI took to return to baseline after load".toList) ]

/-! ## A run -/

inductive Event
  | mmap (step : Nat)
  | munmap (step : Nat)
  | writeToml (text : List Char)

structure Outcome where
  exitCode : Nat
  /-- what happened, the first one first -/
  trace : List Event

/-- Chunks are mapped one after the other, and dropped together. -/
def mapped (chunks : Nat) : List Event := (List.range chunks).map .mmap

def unmapped (chunks : Nat) : List Event := (List.range chunks).map .munmap

def refused : Outcome := ⟨1, []⟩

/-- `cleanup_interrupted` after the chunks are dropped. -/
def cleanupInterrupted (chunks : Nat) : Outcome := ⟨1, mapped chunks ++ unmapped chunks⟩

/-- What comes after the sweep. -/
def finish (w : World) (dryRun : Bool) (b : Baseline) (chunks : Nat) (onset : Option Nat) :
    Outcome :=
  match recover w b.psiFull 12 0 with
  | none => cleanupInterrupted chunks
  | some secs =>
      let onsetMb := onset.getD (chunks * stepMb)
      let totalMb := w.totalKb / 1024
      let text := unlines (tomlLines (w.clock .done) (targetAvailablePct onsetMb totalMb) onsetMb
        totalMb secs)
      ⟨0, mapped chunks ++ unmapped chunks ++ if dryRun then [] else [.writeToml text]⟩

/-- `run` without `--apply` and `--passive-apply` -/
def run (w : World) (dryRun : Bool) : Outcome :=
  if batteryLow w.powerSupplies then refused
  else if thermalThrottling w.thermalZones then refused
  else
    match w.psi .preflight with
    | none => refused
    | some check =>
        if F64.lt 2 check.someAvg10 then refused
        else
          match baseline w with
          | none => cleanupInterrupted 0
          | some b =>
              match sweep w b.swapIn maxSteps 0 0 with
              | .interrupted chunks => cleanupInterrupted chunks
              | .complete chunks onset _ => finish w dryRun b chunks onset

/-! ## The daemon -/

/-- The second piece of `split('=')` -/
def afterEquals (rest : List Char) : Option (List Char) :=
  match rest.dropWhile fun c => decide (c ≠ '=') with
  | [] => none
  | _ :: more => some (more.takeWhile fun c => decide (c ≠ '='))

/-- What a line of `calibration.toml` says about the target. -/
def targetOfLine (l : List Char) : Option F64 :=
  (stripPrefix "target_available_pct".toList (trim l)).bind fun rest =>
    (afterEquals rest).bind fun val =>
      (parseF64 (trim ((trim val).takeWhile isNumberChar))).map (clampF64 5 50)

def parseCalibratedTargetPct (content : List Char) : Option F64 :=
  (lines content).findSome? targetOfLine

/-! ## What stops the sweep -/

/-- The sweep ends with `n` chunks: they can be mapped, all ticks of the steps before the last
one pass, and something ends it there. -/
structure FirstStop (w : World) (swapBefore n : Nat) : Prop where
  le : n ≤ maxSteps
  maps : ∀ k < n, w.maps k = true
  quiet : ∀ k, k + 1 < n → ∀ tick < ticks, stopAt w swapBefore k tick = none
  ends : n = maxSteps ∨ w.maps n = false ∨
    ∃ k tick, k + 1 = n ∧ tick < ticks ∧ (stopAt w swapBefore k tick).isSome = true

section Sweep

variable {w : World} {swapBefore : Nat}

theorem quiet_of_watch {step left tick : Nat}
    (h : watch w swapBefore step left tick = .quiet) :
    ∀ t, tick ≤ t → t < tick + left → stopAt w swapBefore step t = none := by
  induction left generalizing tick with
  | zero => intro t hLow hHigh; omega
  | succ left ih =>
      rw [watch] at h
      split at h
      · cases h
      split at h
      · cases h
      · next hHere =>
          intro t hLow hHigh
          by_cases ht : t = tick
          · rw [ht]
            exact hHere
          · exact ih h t (by omega) (by omega)

theorem exists_of_watch {step left tick : Nat} {stop : Stop}
    (h : watch w swapBefore step left tick = .stopped stop) :
    ∃ t, t < tick + left ∧ stopAt w swapBefore step t = some stop := by
  induction left generalizing tick with
  | zero => cases h
  | succ left ih =>
      rw [watch] at h
      split at h
      · cases h
      split at h
      · next hHere =>
          cases h
          exact ⟨tick, by omega, hHere⟩
      · obtain ⟨t, hLess, hStop⟩ := ih h
        exact ⟨t, by omega, hStop⟩

theorem interrupted_of_watch {step left tick : Nat}
    (h : watch w swapBefore step left tick = .interrupted) : ∃ m, w.interrupted m = true := by
  induction left generalizing tick with
  | zero => cases h
  | succ left ih =>
      rw [watch] at h
      split at h
      · next hHere => exact ⟨_, hHere⟩
      split at h
      · cases h
      · exact ih h

/-- What a sweep says that ends with so many chunks. -/
def Swept.Sound (w : World) (swapBefore : Nat) : Swept → Prop
  | .interrupted chunks => chunks ≤ maxSteps ∧ ∃ m, w.interrupted m = true
  | .complete chunks onset _ =>
      FirstStop w swapBefore chunks ∧ onset.getD (chunks * stepMb) = chunks * stepMb

theorem sweep_sound {left step : Nat} (hLeft : step + left = maxSteps)
    (hMaps : ∀ k < step, w.maps k = true)
    (hQuiet : ∀ k < step, ∀ tick < ticks, stopAt w swapBefore k tick = none) :
    (sweep w swapBefore left step step).Sound w swapBefore := by
  induction left generalizing step with
  | zero =>
      exact ⟨⟨by omega, hMaps, fun k hk => hQuiet k (by omega), Or.inl (by omega)⟩, rfl⟩
  | succ left ih =>
      rw [sweep]
      split
      · next hHere => exact ⟨by omega, _, hHere⟩
      split
      · next hMap =>
          have hMaps' : ∀ k < step + 1, w.maps k = true := by
            intro k hk
            by_cases hLast : k = step
            · rw [hLast]
              exact hMap
            · exact hMaps k (by omega)
          have hStopped : ∀ stop, watch w swapBefore step ticks 0 = .stopped stop →
              FirstStop w swapBefore (step + 1) := by
            intro stop hWatch
            obtain ⟨t, hTick, hStop⟩ := exists_of_watch hWatch
            exact ⟨by omega, hMaps', fun k hk => hQuiet k (by omega),
              Or.inr (Or.inr ⟨step, t, rfl, by omega, by rw [hStop]; rfl⟩)⟩
          split
          · next hWatch => exact ⟨by omega, interrupted_of_watch hWatch⟩
          · next hWatch => exact ⟨hStopped _ hWatch, rfl⟩
          · next hWatch => exact ⟨hStopped _ hWatch, rfl⟩
          · next hWatch =>
              refine ih (by omega) hMaps' fun k hk tick hTick => ?_
              by_cases hLast : k = step
              · rw [hLast]
                exact quiet_of_watch hWatch tick (by omega) (by omega)
              · exact hQuiet k (by omega) tick hTick
      · next hFail =>
          exact ⟨⟨by omega, hMaps, fun k hk => hQuiet k (by omega),
            Or.inr (Or.inl (Bool.not_eq_true _ ▸ hFail))⟩, rfl⟩

end Sweep

/-! ## The text is read back -/

section Text

/-- Characters that break no line. -/
def plain (l : List Char) : Bool := l.all fun c => c != '\n' && c != '\r'

theorem plain_append (l more : List Char) : plain (l ++ more) = (plain l && plain more) :=
  List.all_append

theorem plain_toString (n : Nat) : plain (toString n).toList = true := by
  refine List.all_eq_true.mpr fun c hc => ?_
  have hDigit := isAsciiDigit_of_mem hc
  simp only [Bool.and_eq_true, bne_iff_ne, ne_eq]
  constructor
  · rintro rfl
    cases hDigit
  · rintro rfl
    cases hDigit

theorem plain_padded (n : Nat) : plain (padded n) = true := by
  rw [padded, plain_append, plain_toString, Bool.true_and]
  exact List.all_eq_true.mpr fun c hc => by rw [List.eq_of_mem_replicate hc]; rfl

theorem plain_tomlLines (ts target onsetMb totalMb recoverySecs : Nat) :
    ∀ l ∈ tomlLines ts target onsetMb totalMb recoverySecs, '\n' ∉ l ∧ '\r' ∉ l := by
  have hAll : (tomlLines ts target onsetMb totalMb recoverySecs).all plain = true := by
    simp only [tomlLines, tomlHead, List.all_append, List.all_cons, List.all_nil, plain_append,
      plain_toString, plain_padded, Bool.true_and, Bool.and_true]
    -- the kernel would decode each literal anew
    repeat rw [String.toList_ofList]
    decide +kernel
  intro l hl
  have hPlain := List.all_eq_true.mp (List.all_eq_true.mp hAll l hl)
  constructor
  · intro hMem
    cases hPlain _ hMem
  · intro hMem
    cases hPlain _ hMem

/-- A line with no white space at its ends is not trimmed. -/
theorem trim_ends {l : List Char} (hNonempty : l ≠ [])
    (hFirst : ∀ c ∈ l.head?, isWhitespace c = false)
    (hLast : ∀ c ∈ l.getLast?, isWhitespace c = false) : trim l = l := by
  have hTrim := trim_append hNonempty hFirst hLast []
  rw [List.append_nil] at hTrim
  exact hTrim.trans (List.append_nil l)

theorem targetOfLine_comment (ts : Nat) :
    targetOfLine ("# Generated by mgctl calibrate (".toList ++ (toString ts).toList ++ [')']) =
      none := by
  have hTrim : trim ("# Generated by mgctl calibrate (".toList ++ (toString ts).toList ++ [')']) =
      "# Generated by mgctl calibrate (".toList ++ (toString ts).toList ++ [')'] :=
    trim_ends (by simp) (by simp [isWhitespace]) fun c hc => by
      rw [List.getLast?_append] at hc
      cases hc
      rfl
  rw [targetOfLine, hTrim]
  repeat rw [String.toList_ofList]
  rfl

/-- The number with the two blanks that follow it. -/
theorem padded_eq (n : Nat) (rest : List Char) :
    ∃ more, padded n ++ (' ' :: rest) = (toString n).toList ++ (' ' :: more) := by
  rw [padded, List.append_assoc]
  cases 6 - (toString n).toList.length with
  | zero => exact ⟨rest, rfl⟩
  | succ gap => exact ⟨List.replicate gap ' ' ++ (' ' :: rest), rfl⟩

theorem decimals : ∀ n : Nat, n < 36 → parseF64 (toString n).toList = some (.finite n) := by
  decide +kernel

/-- What the daemon reads of the line of the target. -/
theorem targetOfLine_target {target : Nat} (hLow : 10 ≤ target) (hHigh : target ≤ 35)
    {after : List Char} (hEquals : '=' ∉ after) (hLast : after.getLast? = some 'm') :
    targetOfLine ("target_available_pct = ".toList ++ (padded target ++ (' ' :: after))) =
      some (.finite target) := by
  obtain ⟨more, hMore⟩ : ∃ more, padded target ++ (' ' :: after) =
      (toString target).toList ++ (' ' :: more) := padded_eq target after
  have hEnd : (padded target ++ (' ' :: after)).getLast? = some 'm' := by
    rw [List.getLast?_append, List.getLast?_cons, hLast]
    rfl
  have hNoEquals : '=' ∉ padded target ++ (' ' :: after) := by
    rw [padded, List.mem_append, List.mem_append, List.mem_cons]
    rintro ((hDigit | hSpace) | hOne | hAfter)
    · cases isAsciiDigit_of_mem hDigit
    · cases List.eq_of_mem_replicate hSpace
    · cases hOne
    · exact hEquals hAfter
  rw [hMore] at hEnd hNoEquals ⊢
  have hTrim :
      trim ("target_available_pct = ".toList ++ ((toString target).toList ++ (' ' :: more))) =
        "target_available_pct = ".toList ++ ((toString target).toList ++ (' ' :: more)) := by
    refine trim_ends (by simp) (by simp [isWhitespace]) fun c hc => ?_
    rw [List.getLast?_append, hEnd] at hc
    cases hc
    rfl
  have hAfter : afterEquals (" = ".toList ++ ((toString target).toList ++ (' ' :: more))) =
      some (' ' :: ((toString target).toList ++ (' ' :: more))) := by
    have hAll : (' ' :: ((toString target).toList ++ (' ' :: more))).takeWhile
        (fun c => decide (c ≠ '=')) = ' ' :: ((toString target).toList ++ (' ' :: more)) := by
      refine List.takeWhile_eq_self_iff.mpr fun c hc => decide_eq_true ?_
      rintro rfl
      rcases List.mem_cons.mp hc with hSpace | hIn
      · cases hSpace
      · exact hNoEquals hIn
    show some (List.takeWhile _ (' ' :: ((toString target).toList ++ (' ' :: more)))) = _
    rw [hAll]
  have hValue : trim (' ' :: ((toString target).toList ++ (' ' :: more))) =
      (toString target).toList ++ (' ' :: more) := by
    rw [trim_cons_space rfl]
    refine trim_ends (by simp) (fun c hc => ?_) fun c hc => ?_
    · rw [List.head?_append_of_ne_nil _ (toString_ne_nil target)] at hc
      exact not_space_of_digit (isAsciiDigit_of_mem (List.mem_of_mem_head? hc))
    · rw [hEnd] at hc
      cases hc
      rfl
  have hDigits : ((toString target).toList ++ (' ' :: more)).takeWhile isNumberChar =
      (toString target).toList :=
    (takeWhile_append_stop (fun c hc => isNumberChar_of_digit (isAsciiDigit_of_mem hc))
      (stop_cons rfl more)).1
  have hWord : trim (toString target).toList = (toString target).toList :=
    trim_word fun c hc => not_space_of_digit (isAsciiDigit_of_mem hc)
  have hClamp : clampF64 5 50 (.finite (target : ℚ)) = .finite target := by
    have hFive : ¬ (target : ℚ) < 5 := by exact_mod_cast (by omega : ¬ target < 5)
    have hFifty : ¬ (50 : ℚ) < target := by exact_mod_cast (by omega : ¬ 50 < target)
    show (if decide ((target : ℚ) < 5) = true then _ else
      if decide ((50 : ℚ) < target) = true then _ else _) = _
    rw [if_neg (by simpa using hFive), if_neg (by simpa using hFifty)]
  have hStrip : stripPrefix "target_available_pct".toList
      ("target_available_pct = ".toList ++ ((toString target).toList ++ (' ' :: more))) =
        some (" = ".toList ++ ((toString target).toList ++ (' ' :: more))) :=
    stripPrefix_eq_some_iff.mpr rfl
  rw [targetOfLine, hTrim, hStrip, Option.bind_some, hAfter, Option.bind_some, hValue, hDigits,
    hWord, decimals target (by omega), Option.map_some, hClamp]

theorem targetOfLine_head (ts : Nat) : ∀ l ∈ tomlHead ts, targetOfLine l = none := by
  simp only [tomlHead, List.forall_mem_cons, List.not_mem_nil, false_imp_iff, implies_true,
    and_true]
  refine ⟨targetOfLine_comment ts, ?_⟩
  repeat rw [String.toList_ofList]
  decide +kernel

/-- The daemon reads the target back from the text that is written. -/
theorem parse_tomlLines {target : Nat} (hLow : 10 ≤ target) (hHigh : target ≤ 35)
    (ts onsetMb totalMb recoverySecs : Nat) :
    parseCalibratedTargetPct (unlines (tomlLines ts target onsetMb totalMb recoverySecs)) =
      some (.finite target) := by
  have hStart : "  # swap onset was at ".toList = ' ' :: " # swap onset was at ".toList := by
    decide +kernel
  have hEquals : '=' ∉ " # swap onset was at ".toList ++ ((toString onsetMb).toList ++
      ("MB / ".toList ++ ((toString totalMb).toList ++ "MB RAM + 3% headroom".toList))) := by
    simp only [List.mem_append, not_or]
    refine ⟨by decide +kernel, fun hDigit => ?_, by decide +kernel, fun hDigit => ?_,
      by decide +kernel⟩
    · cases isAsciiDigit_of_mem hDigit
    · cases isAsciiDigit_of_mem hDigit
  have hLast : (" # swap onset was at ".toList ++ ((toString onsetMb).toList ++
      ("MB / ".toList ++ ((toString totalMb).toList ++ "MB RAM + 3% headroom".toList)))).getLast? =
        some 'm' := by
    have hEnd : "MB RAM + 3% headroom".toList.getLast? = some 'm' := by decide +kernel
    simp only [List.getLast?_append, hEnd, Option.some_or]
  rw [parseCalibratedTargetPct,
    lines_unlines (plain_tomlLines ts target onsetMb totalMb recoverySecs), tomlLines, hStart,
    List.findSome?_append, List.findSome?_eq_none_iff.mpr (targetOfLine_head ts), Option.none_or,
    List.findSome?_cons]
  have hLine := targetOfLine_target hLow hHigh hEquals hLast
  rw [List.cons_append, hLine]

end Text

/-! ## A whole run -/

section Run

variable {ρ : Type} {w : World}

theorem interrupted_of_idle {left i : Nat} {s : Samples} (h : idle w left i s = none) :
    ∃ m, w.interrupted m = true := by
  induction left generalizing i s with
  | zero => cases h
  | succ left ih =>
      rw [idle] at h
      split at h
      · next hHere => exact ⟨_, hHere⟩
      · exact ih h

theorem interrupted_of_recover {psiFull : F64} {left i : Nat}
    (h : recover w psiFull left i = none) : ∃ m, w.interrupted m = true := by
  induction left generalizing i with
  | zero => cases h
  | succ left ih =>
      rw [recover] at h
      split at h
      · next hHere => exact ⟨_, hHere⟩
      dsimp only at h
      split at h
      · cases h
      · exact ih h

/-- The checks before the sweep pass. -/
def Admitted (w : World) : Prop :=
  batteryLow w.powerSupplies = false ∧ thermalThrottling w.thermalZones = false ∧
    ∃ check, w.psi .preflight = some check ∧ F64.lt 2 check.someAvg10 = false

theorem targetAvailablePct_bounds (onsetMb totalMb : Nat) :
    10 ≤ targetAvailablePct onsetMb totalMb ∧ targetAvailablePct onsetMb totalMb ≤ 35 :=
  ⟨le_max_left _ _, max_le (by omega) (min_le_right _ _)⟩

/-- What a daemon keeps free that starts with this `calibration.toml`. -/
def loadedTargetPct (x : Parsers ρ) (m : Machine) (raw : RawConfig ρ) (text : List Char) : F64 :=
  (x.compileRaw { m with calibratedTargetPct := parseCalibratedTargetPct text }
    raw).targetAvailablePct

/-- A run that takes place and is not interrupted: `n` chunks are mapped and dropped again,
and only without `--dry-run` a text is written. -/
structure Calibrated (x : Parsers ρ) (w : World) (dryRun : Bool) (n : Nat) (b : Baseline)
    (text : List Char) : Prop where
  base : baseline w = some b
  stops : FirstStop w b.swapIn n
  ran : run w dryRun =
    ⟨0, mapped n ++ unmapped n ++ if dryRun then [] else [.writeToml text]⟩
  applied : ∀ (m : Machine) (raw : RawConfig ρ), raw.targetAvailablePct = none →
    loadedTargetPct x m raw text =
      .finite (targetAvailablePct (n * stepMb) (w.totalKb / 1024))

/-- **What the sweep finds is what the daemon keeps free.**  A run is refused before anything is
mapped exactly if a check fails.  Otherwise all that is mapped is unmapped, and the run is either
interrupted, and then writes nothing, or it stops at the first step at which the machine stalls,
swaps or has no more to map, or after `maxSteps`: then a daemon without a target of its own keeps
free the share of RAM that belongs to the memory mapped by then. -/
theorem calibration_applied (x : Parsers ρ) (w : World) (dryRun : Bool) :
    (run w dryRun = refused ∧ ¬ Admitted w) ∨
      (Admitted w ∧ ∃ n ≤ maxSteps,
        (run w dryRun = cleanupInterrupted n ∧ ∃ m, w.interrupted m = true) ∨
          ∃ b text, Calibrated x w dryRun n b text) := by
  by_cases hBattery : batteryLow w.powerSupplies = true
  · refine Or.inl ⟨by rw [run, if_pos hBattery], fun hAdmitted => ?_⟩
    rw [hAdmitted.1] at hBattery
    cases hBattery
  by_cases hThermal : thermalThrottling w.thermalZones = true
  · refine Or.inl ⟨by rw [run, if_neg hBattery, if_pos hThermal], fun hAdmitted => ?_⟩
    rw [hAdmitted.2.1] at hThermal
    cases hThermal
  cases hPsi : w.psi .preflight with
  | none =>
      refine Or.inl ⟨by rw [run, if_neg hBattery, if_neg hThermal, hPsi], ?_⟩
      rintro ⟨-, -, check, hCheck, -⟩
      rw [hPsi] at hCheck
      cases hCheck
  | some check =>
      by_cases hCalm : F64.lt 2 check.someAvg10 = true
      · refine Or.inl ⟨?_, ?_⟩
        · rw [run, if_neg hBattery, if_neg hThermal, hPsi]
          exact if_pos hCalm
        · rintro ⟨-, -, check', hCheck, hBelow⟩
          rw [hPsi] at hCheck
          cases hCheck
          rw [hCalm] at hBelow
          cases hBelow
      have hAdmitted : Admitted w :=
        ⟨Bool.not_eq_true _ ▸ hBattery, Bool.not_eq_true _ ▸ hThermal, check, hPsi,
          Bool.not_eq_true _ ▸ hCalm⟩
      have hRun : run w dryRun =
          match baseline w with
          | none => cleanupInterrupted 0
          | some b =>
              match sweep w b.swapIn maxSteps 0 0 with
              | .interrupted chunks => cleanupInterrupted chunks
              | .complete chunks onset _ => finish w dryRun b chunks onset := by
        rw [run, if_neg hBattery, if_neg hThermal, hPsi]
        exact if_neg hCalm
      refine Or.inr ⟨hAdmitted, ?_⟩
      cases hBase : baseline w with
      | none =>
          rw [hBase] at hRun
          have hIdle := interrupted_of_idle (Option.map_eq_none_iff.mp hBase)
          exact ⟨0, by omega, Or.inl ⟨hRun, hIdle⟩⟩
      | some b =>
          rw [hBase] at hRun
          dsimp only at hRun
          have hSound : (sweep w b.swapIn maxSteps 0 0).Sound w b.swapIn :=
            sweep_sound (by omega) (nofun) (nofun)
          cases hSweep : sweep w b.swapIn maxSteps 0 0 with
          | interrupted chunks =>
              rw [hSweep] at hRun hSound
              exact ⟨chunks, hSound.1, Or.inl ⟨hRun, hSound.2⟩⟩
          | complete chunks onset stopPsiFull =>
              rw [hSweep] at hRun hSound
              obtain ⟨hStop, hOnset⟩ := hSound
              refine ⟨chunks, hStop.le, ?_⟩
              dsimp only at hRun
              unfold finish at hRun
              cases hRecover : recover w b.psiFull 12 0 with
              | none =>
                  rw [hRecover] at hRun
                  exact Or.inl ⟨hRun, interrupted_of_recover hRecover⟩
              | some secs =>
                  rw [hRecover, hOnset] at hRun
                  refine Or.inr ⟨b, _, hBase, hStop, hRun, fun m raw hRaw => ?_⟩
                  have hBounds := targetAvailablePct_bounds (chunks * stepMb) (w.totalKb / 1024)
                  show (raw.targetAvailablePct.or (parseCalibratedTargetPct _)).getD _ = _
                  rw [hRaw, parse_tomlLines hBounds.1 hBounds.2]
                  rfl

end Run

end Mgd.CalibrationSweep
