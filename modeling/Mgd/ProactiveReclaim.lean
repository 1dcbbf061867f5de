import Mathlib.Algebra.Order.Ring.Rat
import Mathlib.Data.Nat.Cast.Order.Ring
import Mgd.Lib.Run
import Mgd.Monitor
import Mgd.ZramReclaim

/-!
# The proactive swap reclaim

`check_proactive_reclaim` of the maintenance thread decides when `mgd-zram-reclaim`
runs: at a calm moment, or after kills that made room, when the swap is full enough,
the pool is large enough and the pages fit once they are decompressed.  A reclaim that
succeeded starts a cooldown, and a helper that is absent or has no capability is the
last one tried.

The daemon remembers a time and a flag.  `helper_runs_iff` says when the helper runs in
terms of what happened before, and that the helper then finds the memory it needs too.
-/

namespace Mgd.ProactiveReclaim

open Mgd.Types Mgd.Monitor Mgd.Lib.Run Mgd.Lib.Text
open Mgd.ZramReclaim hiding Kernel main

/-! ## What is read -/

/-- `[reclaim]` -/
structure ReclaimConfig where
  proactiveSwapReclaim : Bool
  thresholdPct : ℚ
  cooldownMin : Nat
  minZramUsedMb : Nat
  decompressedHeadroomMult : ℚ

def ReclaimConfig.default : ReclaimConfig where
  proactiveSwapReclaim := false
  thresholdPct := 30
  cooldownMin := 10
  minZramUsedMb := 2048
  decompressedHeadroomMult := 3 / 2

def ReclaimConfig.cooldownSecs (cfg : ReclaimConfig) : Nat := min (cfg.cooldownMin * 60) u64Max

/-- The four figures while the lines are read. -/
structure MeminfoScan where
  total : Nat
  available : Nat
  swapTotal : Nat
  swapFree : Nat

def scanLine (m : MeminfoScan) (line : List Char) : MeminfoScan :=
  match stripPrefix "MemTotal:".toList line with
  | some v => { m with total := parseKb v }
  | none =>
      match stripPrefix "MemAvailable:".toList line with
      | some v => { m with available := parseKb v }
      | none =>
          match stripPrefix "SwapTotal:".toList line with
          | some v => { m with swapTotal := parseKb v }
          | none =>
              match stripPrefix "SwapFree:".toList line with
              | some v => { m with swapFree := parseKb v }
              | none => m

def scanMeminfo (content : List Char) : MeminfoScan :=
  (lines content).foldl scanLine ⟨0, 0, 0, 0⟩

def MeminfoScan.toMemInfo (m : MeminfoScan) : MemInfo where
  availableKb := Kb.clamp m.available
  totalKb := Kb.clamp m.total
  swapFreeKb := Kb.clamp m.swapFree
  swapTotalKb := Kb.clamp m.swapTotal

/-- `read_meminfo`: all zero when the file cannot be read. -/
def readMeminfo (read : ReadFile) : MemInfo :=
  match read "/proc/meminfo" with
  | none => MeminfoScan.toMemInfo ⟨0, 0, 0, 0⟩
  | some content => (scanMeminfo content.toList).toMemInfo

def parseZramDevices (swaps : String) : List String :=
  ((((lines swaps.toList).drop 1).filterMap fun line => (splitWhitespace line).head?.map
    String.ofList).filter isZramDevicePath).map deviceBasename

def zramDevices (read : ReadFile) : List String := parseZramDevices (readProcSwaps read)

/-- `mem_used_total` of a device, field 2 of `mm_stat`. -/
def zramUsedMb (read : ReadFile) (device : String) : Option Nat :=
  (read ("/sys/block/" ++ device ++ "/mm_stat")).bind fun content =>
    ((splitWhitespace content.toList)[2]?.bind parseU64).map (· / (1024 * 1024))

def zramUsedMbTotal (read : ReadFile) : Nat :=
  sumU64 ((zramDevices read).filterMap (zramUsedMb read))

def zramOrigMbTotal (read : ReadFile) : Nat :=
  sumU64 ((zramDevices read).filterMap (zramOrigMb read))

/-! ## The gates -/

structure ReclaimGates where
  swapUsedPct : ℚ
  zramUsedMb : Nat
  zramOrigMb : Nat
  memAvailableMb : Nat
  thresholdPct : ℚ
  minZramUsedMb : Nat
  headroomMult : ℚ

/-- `(zram_orig_mb as f64 * headroom_mult) as u64` -/
def ReclaimGates.requiredMb (g : ReclaimGates) : Nat :=
  min ((g.zramOrigMb : ℚ) * g.headroomMult).floor.toNat u64Max

/-- The first gate that fails. -/
inductive Blocked
  | swap (pct threshold : ℚ)
  | zramUsed (used min : Nat)
  | headroom (avail orig : Nat) (mult : ℚ) (required : Nat)

def reclaimGatesPass (g : ReclaimGates) : Except Blocked Unit :=
  if g.swapUsedPct < g.thresholdPct then .error (.swap g.swapUsedPct g.thresholdPct)
  else if g.zramUsedMb < g.minZramUsedMb then .error (.zramUsed g.zramUsedMb g.minZramUsedMb)
  else if g.memAvailableMb ≤ g.requiredMb then
    .error (.headroom g.memAvailableMb g.zramOrigMb g.headroomMult g.requiredMb)
  else .ok ()

/-! ## The maintenance thread -/

/-- How the helper ended. -/
inductive HelperEnd
  | notSpawned
  /-- A signal ended it after so many system calls. -/
  | killed (calls : Nat)
  | exited

/-- What one iteration of the loop finds. -/
structure Tick where
  cfg : ReclaimConfig
  psi : PsiThresholds
  /-- `none` when PSI cannot be read -/
  pressure : Option MemoryPressure
  someAvg60 : ℚ
  /-- The evictor has killed since the last iteration. -/
  killTriggered : Bool
  /-- Unix seconds -/
  now : Nat
  /-- `access(path, X_OK)` succeeds -/
  executable : String → Bool
  read : ReadFile
  /-- what the helper reads, and what the kernel answers it -/
  helperRead : ReadFile
  kernel : ZramReclaim.Kernel
  helperEnd : HelperEnd

namespace Tick

def calm (t : Tick) : Bool :=
  match t.pressure with
  | none => false
  | some p => decide (pressureLevelWith p t.psi = .normal)

def gates (t : Tick) : ReclaimGates where
  swapUsedPct := (readMeminfo t.read).swapUsedPct
  zramUsedMb := zramUsedMbTotal t.read
  zramOrigMb := zramOrigMbTotal t.read
  memAvailableMb := (readMeminfo t.read).availableKb.val / 1024
  thresholdPct := t.cfg.thresholdPct
  minZramUsedMb := t.cfg.minZramUsedMb
  headroomMult := t.cfg.decompressedHeadroomMult

end Tick

def RECLAIM_HELPER_CANDIDATES : List String :=
  ["/usr/local/bin/mgd-zram-reclaim", "/usr/bin/mgd-zram-reclaim"]

def resolveReclaimHelper (executable : String → Bool) : Option String :=
  RECLAIM_HELPER_CANDIDATES.find? executable

/-- `run_reclaim_helper`: the system calls of the helper, and its exit code if any. -/
def runReclaimHelper (t : Tick) : List Syscall × Option Nat :=
  match t.helperEnd with
  | .notSpawned => ([], none)
  | .killed calls => ((ZramReclaim.main t.helperRead t.kernel).calls.take calls, none)
  | .exited =>
      ((ZramReclaim.main t.helperRead t.kernel).calls,
        some (ZramReclaim.main t.helperRead t.kernel).exit)

def KILL_RECLAIM_COOLDOWN_SECS : Nat := 120

def effectiveCooldown (cfg : ReclaimConfig) (skipCalmGate : Bool) : Nat :=
  if skipCalmGate then min cfg.cooldownSecs KILL_RECLAIM_COOLDOWN_SECS else cfg.cooldownSecs

/-- The statics of the daemon. -/
structure Reclaimer where
  /-- Unix seconds, 0 for never -/
  lastReclaim : Nat
  reclaimDisabled : Bool

inductive Outcome
  /-- Nothing was tried. -/
  | idle
  | helperAbsent
  | skipped (reason : Blocked)
  | ran (calls : List Syscall) (code : Option Nat)

/-- What `check_proactive_reclaim` comes to. -/
def checkProactiveReclaim (r : Reclaimer) (t : Tick) (skipCalmGate : Bool) : Outcome :=
  if t.cfg.proactiveSwapReclaim = false ∨ r.reclaimDisabled = true then .idle
  else if skipCalmGate = false ∧ t.someAvg60 ≥ 5 then .idle
  else if r.lastReclaim ≠ 0 ∧ t.now - r.lastReclaim < effectiveCooldown t.cfg skipCalmGate then
    .idle
  else
    match resolveReclaimHelper t.executable with
    | none => .helperAbsent
    | some _ =>
        match reclaimGatesPass t.gates with
        | .error reason => .skipped reason
        | .ok _ => .ran (runReclaimHelper t).1 (runReclaimHelper t).2

/-- What it writes to the statics. -/
def Reclaimer.after (r : Reclaimer) (now : Nat) : Outcome → Reclaimer
  | .helperAbsent => { r with reclaimDisabled := true }
  | .ran _ (some 0) => { r with lastReclaim := now }
  -- not capped
  | .ran _ (some 2) => { r with reclaimDisabled := true }
  | _ => r

/-- The check of one iteration, if it makes one. -/
def maintain (r : Reclaimer) (t : Tick) : Outcome :=
  if t.calm = true then checkProactiveReclaim r t false
  else if t.killTriggered = true ∧ t.pressure.isSome = true then checkProactiveReclaim r t true
  else .idle

structure Maintenance where
  reclaimer : Reclaimer
  /-- what was tried so far, and when -/
  history : List (Nat × Outcome)

def Maintenance.start : Maintenance where
  reclaimer := ⟨0, false⟩
  history := []

def Maintenance.step (s : Maintenance) (t : Tick) : Maintenance where
  reclaimer := s.reclaimer.after t.now (maintain s.reclaimer t)
  history := s.history ++ [(t.now, maintain s.reclaimer t)]

/-! ## When the helper runs -/

def Outcome.Runs (o : Outcome) : Prop := ∃ calls code, o = .ran calls code

def Outcome.succeeded : Outcome → Bool
  | .ran _ (some 0) => true
  | _ => false

/-- The helper is not tried again. -/
def Outcome.fatal : Outcome → Bool
  | .helperAbsent => true
  | .ran _ (some 2) => true
  | _ => false

/-- When the helper last ended well. -/
def lastSuccess (history : List (Nat × Outcome)) : Option Nat :=
  ((history.filter fun e => e.2.succeeded).getLast?).map Prod.fst

/-- The iteration has a reason to reclaim: a calm minute, or kills under pressure. -/
def Tick.Asks (t : Tick) (afterKills : Bool) : Prop :=
  t.cfg.proactiveSwapReclaim = true ∧
    if afterKills then t.calm = false ∧ t.killTriggered = true ∧ t.pressure.isSome = true
    else t.calm = true ∧ t.someAvg60 < 5

/-- A success at the epoch counts as none. -/
def Rested (history : List (Nat × Outcome)) (t : Tick) (afterKills : Bool) : Prop :=
  ∀ last, lastSuccess history = some last → last ≠ 0 →
    effectiveCooldown t.cfg afterKills ≤ t.now - last

structure ReclaimGates.Hold (g : ReclaimGates) : Prop where
  full : g.thresholdPct ≤ g.swapUsedPct
  large : g.minZramUsedMb ≤ g.zramUsedMb
  fits : g.requiredMb < g.memAvailableMb

theorem reclaimGatesPass_iff (g : ReclaimGates) : reclaimGatesPass g = .ok () ↔ g.Hold := by
  unfold reclaimGatesPass
  by_cases hFull : g.swapUsedPct < g.thresholdPct
  · rw [if_pos hFull]
    exact iff_of_false (nofun) fun h => absurd h.full (not_le.mpr hFull)
  · rw [if_neg hFull]
    by_cases hLarge : g.zramUsedMb < g.minZramUsedMb
    · rw [if_pos hLarge]
      exact iff_of_false (nofun) fun h => absurd h.large (Nat.not_le.mpr hLarge)
    · rw [if_neg hLarge]
      by_cases hFits : g.memAvailableMb ≤ g.requiredMb
      · rw [if_pos hFits]
        exact iff_of_false (nofun) fun h => absurd h.fits (Nat.not_lt.mpr hFits)
      · rw [if_neg hFits]
        exact iff_of_true rfl
          { full := not_lt.mp hFull
            large := Nat.not_lt.mp hLarge
            fits := Nat.not_le.mp hFits }

/-- When a check runs the helper. -/
theorem check_runs_iff (r : Reclaimer) (t : Tick) (afterKills : Bool) :
    (checkProactiveReclaim r t afterKills).Runs ↔
      t.cfg.proactiveSwapReclaim = true ∧ r.reclaimDisabled = false ∧
        (afterKills = false → t.someAvg60 < 5) ∧
        (r.lastReclaim ≠ 0 → effectiveCooldown t.cfg afterKills ≤ t.now - r.lastReclaim) ∧
        (resolveReclaimHelper t.executable).isSome = true ∧ t.gates.Hold := by
  unfold checkProactiveReclaim
  by_cases hOff : t.cfg.proactiveSwapReclaim = false ∨ r.reclaimDisabled = true
  · rw [if_pos hOff]
    refine iff_of_false (nofun) fun h => ?_
    rcases hOff with hOff | hOff
    · exact absurd (hOff.symm.trans h.1) (by decide)
    · exact absurd (hOff.symm.trans h.2.1) (by decide)
  · rw [if_neg hOff]
    rw [not_or, Bool.not_eq_false, Bool.not_eq_true] at hOff
    by_cases hBusy : afterKills = false ∧ t.someAvg60 ≥ 5
    · rw [if_pos hBusy]
      exact iff_of_false (nofun) fun h => absurd (h.2.2.1 hBusy.1) (not_lt.mpr hBusy.2)
    · rw [if_neg hBusy]
      have hQuiet : afterKills = false → t.someAvg60 < 5 := fun hCalm =>
        not_le.mp fun hHigh => hBusy ⟨hCalm, hHigh⟩
      by_cases hCooling : r.lastReclaim ≠ 0 ∧
          t.now - r.lastReclaim < effectiveCooldown t.cfg afterKills
      · rw [if_pos hCooling]
        exact iff_of_false (nofun) fun h =>
          absurd (h.2.2.2.1 hCooling.1) (Nat.not_le.mpr hCooling.2)
      · rw [if_neg hCooling]
        have hRested : r.lastReclaim ≠ 0 →
            effectiveCooldown t.cfg afterKills ≤ t.now - r.lastReclaim := fun hSome =>
          Nat.not_lt.mp fun hSoon => hCooling ⟨hSome, hSoon⟩
        cases hHelper : resolveReclaimHelper t.executable with
        | none => exact iff_of_false (nofun) fun h => absurd h.2.2.2.2.1 (by decide)
        | some helper =>
            dsimp only
            cases hGates : reclaimGatesPass t.gates with
            | error reason =>
                refine iff_of_false (nofun) fun h => ?_
                have hPass := (reclaimGatesPass_iff t.gates).mpr h.2.2.2.2.2
                rw [hGates] at hPass
                cases hPass
            | ok _ =>
                exact iff_of_true ⟨_, _, rfl⟩
                  ⟨hOff.1, hOff.2, hQuiet, hRested, rfl, (reclaimGatesPass_iff t.gates).mp hGates⟩

theorem maintain_runs_iff (r : Reclaimer) (t : Tick) :
    (maintain r t).Runs ↔
      ∃ afterKills, t.Asks afterKills ∧ r.reclaimDisabled = false ∧
        (r.lastReclaim ≠ 0 → effectiveCooldown t.cfg afterKills ≤ t.now - r.lastReclaim) ∧
        (resolveReclaimHelper t.executable).isSome = true ∧ t.gates.Hold := by
  unfold maintain
  by_cases hCalm : t.calm = true
  · rw [if_pos hCalm, check_runs_iff]
    constructor
    · rintro ⟨hOn, hEnabled, hQuiet, hRest⟩
      exact ⟨false, ⟨hOn, hCalm, hQuiet rfl⟩, hEnabled, hRest⟩
    · rintro ⟨afterKills, ⟨hOn, hWhen⟩, hEnabled, hRest⟩
      cases afterKills with
      | false => exact ⟨hOn, hEnabled, fun _ => hWhen.2, hRest⟩
      | true => exact absurd (hCalm.symm.trans hWhen.1) (by decide)
  · rw [if_neg hCalm]
    by_cases hKills : t.killTriggered = true ∧ t.pressure.isSome = true
    · rw [if_pos hKills, check_runs_iff]
      constructor
      · rintro ⟨hOn, hEnabled, -, hRest⟩
        exact ⟨true, ⟨hOn, Bool.not_eq_true _ ▸ hCalm, hKills⟩, hEnabled, hRest⟩
      · rintro ⟨afterKills, ⟨hOn, hWhen⟩, hEnabled, hRest⟩
        cases afterKills with
        | false => exact absurd hWhen.1 hCalm
        | true => exact ⟨hOn, hEnabled, (nofun), hRest⟩
    · rw [if_neg hKills]
      refine iff_of_false (nofun) ?_
      rintro ⟨afterKills, ⟨-, hWhen⟩, -⟩
      cases afterKills with
      | false => exact hCalm hWhen.1
      | true => exact hKills hWhen.2

theorem maintain_ran {r : Reclaimer} {t : Tick} {calls : List Syscall} {code : Option Nat}
    (h : maintain r t = .ran calls code) : code = (runReclaimHelper t).2 := by
  have hCheck : ∀ afterKills, checkProactiveReclaim r t afterKills = .ran calls code →
      code = (runReclaimHelper t).2 := by
    intro afterKills hRan
    unfold checkProactiveReclaim at hRan
    split at hRan
    · cases hRan
    · split at hRan
      · cases hRan
      · split at hRan
        · cases hRan
        · split at hRan
          · cases hRan
          · split at hRan
            · cases hRan
            · cases hRan
              rfl
  unfold maintain at h
  split at h
  · exact hCheck false h
  · split at h
    · exact hCheck true h
    · cases h

theorem runReclaimHelper_exit {t : Tick} {code : Nat} (h : (runReclaimHelper t).2 = some code) :
    (ZramReclaim.main t.helperRead t.kernel).exit = code := by
  unfold runReclaimHelper at h
  split at h
  · cases h
  · cases h
  · exact Option.some.inj h

/-- The statics say what the history does. -/
structure Inv (s : Maintenance) : Prop where
  disabled : s.reclaimer.reclaimDisabled = s.history.any fun e => e.2.fatal
  last : s.reclaimer.lastReclaim = (lastSuccess s.history).getD 0

theorem inv_start : Inv Maintenance.start where
  disabled := rfl
  last := rfl

theorem lastSuccess_append (history : List (Nat × Outcome)) (now : Nat) (o : Outcome) :
    lastSuccess (history ++ [(now, o)]) =
      if o.succeeded = true then some now else lastSuccess history := by
  unfold lastSuccess
  rw [List.filter_append]
  cases h : o.succeeded with
  | false => simp [h]
  | true => simp [h]

theorem inv_step {s : Maintenance} (h : Inv s) (t : Tick) : Inv (s.step t) := by
  have hDisabled := h.disabled
  have hLast := h.last
  unfold Maintenance.step
  generalize maintain s.reclaimer t = o
  refine { disabled := ?_, last := ?_ }
  · show (s.reclaimer.after t.now o).reclaimDisabled = (s.history ++ [(t.now, o)]).any _
    rw [List.any_append, ← hDisabled]
    unfold Reclaimer.after Outcome.fatal
    split <;> simp
  · show (s.reclaimer.after t.now o).lastReclaim = (lastSuccess (s.history ++ [(t.now, o)])).getD 0
    rw [lastSuccess_append]
    unfold Reclaimer.after Outcome.succeeded
    split <;> simp [hLast]

/-! ## The helper's own check -/

/-- `/proc/meminfo` has one line for what is available, as the kernel writes it. -/
def ListsAvailableOnce (read : ReadFile) : Prop :=
  ∀ content, read "/proc/meminfo" = some content →
    ((lines content.toList).filterMap (stripPrefix "MemAvailable:".toList)).length ≤ 1

theorem stripPrefix_available_of_total {line v : List Char}
    (h : stripPrefix "MemTotal:".toList line = some v) :
    stripPrefix "MemAvailable:".toList line = none := by
  rw [stripPrefix_eq_some_iff] at h
  rw [h]
  rfl

/-- One line leaves the figure or sets it. -/
theorem scanLine_available (m : MeminfoScan) (line : List Char) :
    (scanLine m line).available =
      ((stripPrefix "MemAvailable:".toList line).map parseKb).getD m.available := by
  unfold scanLine
  split
  · next v hTotal => rw [stripPrefix_available_of_total hTotal]; rfl
  · split
    · next v hAvailable => rw [hAvailable]; rfl
    · next hNone =>
        rw [hNone]
        split
        · rfl
        · split <;> rfl

/-- The last line decides. -/
theorem scan_available (ls : List (List Char)) (m : MeminfoScan) :
    (ls.foldl scanLine m).available =
      (((ls.filterMap (stripPrefix "MemAvailable:".toList)).getLast?).map parseKb).getD
        m.available := by
  induction ls generalizing m with
  | nil => rfl
  | cons line rest ih =>
      rw [List.foldl_cons, ih, scanLine_available]
      cases hLine : stripPrefix "MemAvailable:".toList line with
      | none => rw [List.filterMap_cons_none hLine]; rfl
      | some v =>
          rw [List.filterMap_cons_some hLine, List.getLast?_cons]
          cases (rest.filterMap (stripPrefix "MemAvailable:".toList)).getLast? <;> rfl

theorem getLast?_of_length_le_one {α : Type} {xs : List α} (h : xs.length ≤ 1) :
    xs.getLast? = xs.head? := by
  cases xs with
  | nil => rfl
  | cons x rest =>
      cases rest with
      | nil => rfl
      | cons y rest => simp at h

theorem parseKb_le (text : List Char) : parseKb text ≤ u64Max := by
  unfold parseKb
  cases h : (splitWhitespace text).head?.bind parseU64 with
  | none => exact Nat.zero_le _
  | some n =>
      obtain ⟨column, -, hParse⟩ := Option.bind_eq_some_iff.mp h
      exact parseUnsigned_le hParse

/-- The two programs read the same figure, unless there is none. -/
theorem memAvailableKb_of_pos {read : ReadFile} (hOnce : ListsAvailableOnce read)
    (hPos : (readMeminfo read).availableKb.val ≠ 0) :
    memAvailableKb read = some (readMeminfo read).availableKb.val := by
  unfold memAvailableKb
  unfold readMeminfo at hPos ⊢
  cases hContent : read "/proc/meminfo" with
  | none =>
      rw [hContent] at hPos
      exact absurd rfl hPos
  | some content =>
      rw [hContent] at hPos
      dsimp only [Option.bind_some, MeminfoScan.toMemInfo, scanMeminfo, Kb.clamp] at hPos ⊢
      rw [scan_available, getLast?_of_length_le_one (hOnce content hContent),
        List.head?_filterMap] at hPos ⊢
      cases hLine : (lines content.toList).findSome? (stripPrefix "MemAvailable:".toList) with
      | none =>
          rw [hLine] at hPos
          exact absurd rfl hPos
      | some v => exact congrArg some (Nat.min_eq_left (parseKb_le v)).symm

/-- The two programs find the same devices. -/
theorem zramDevices_eq (read : ReadFile) :
    zramDevices read = (devices read).map fun d => deviceBasename d.path := by
  unfold zramDevices parseZramDevices devices parseZramSwaps
  induction (lines (readProcSwaps read).toList).drop 1 with
  | nil => rfl
  | cons line rest ih =>
      cases hColumns : splitWhitespace line with
      | nil =>
          have hSwap : parseSwapLine line = none := by rw [parseSwapLine, hColumns]
          rw [List.filterMap_cons_none (by rw [hColumns]; rfl), List.filterMap_cons_none hSwap, ih]
      | cons name cols =>
          rw [List.filterMap_cons_some (b := String.ofList name) (by rw [hColumns]; rfl)]
          by_cases hZram : isZramDevicePath (String.ofList name) = true
          · have hSwap : parseSwapLine line =
                some ⟨String.ofList name, (cols[3]?.bind parseI32).getD (-1)⟩ := by
              rw [parseSwapLine, hColumns]
              exact if_pos hZram
            rw [List.filter_cons_of_pos hZram, List.filterMap_cons_some hSwap, List.map_cons,
              List.map_cons, ih]
          · have hSwap : parseSwapLine line = none := by
              rw [parseSwapLine, hColumns]
              exact if_neg hZram
            rw [List.filter_cons_of_neg hZram, List.filterMap_cons_none hSwap, ih]

theorem zramOrigMbTotal_eq (read : ReadFile) :
    zramOrigMbTotal read = decompressedMb read (devices read) := by
  unfold zramOrigMbTotal decompressedMb
  rw [zramDevices_eq]

/-- A factor of one or more asks for at least what the pages need. -/
theorem le_requiredMb {g : ReclaimGates} (hMult : 1 ≤ g.headroomMult)
    (hOrig : g.zramOrigMb ≤ u64Max) : g.zramOrigMb ≤ g.requiredMb := by
  unfold ReclaimGates.requiredMb
  refine Nat.le_min.mpr ⟨?_, hOrig⟩
  have hScaled : ((g.zramOrigMb : Int) : ℚ) ≤ (g.zramOrigMb : ℚ) * g.headroomMult := by
    have hNonneg : (0 : ℚ) ≤ (g.zramOrigMb : ℚ) := Nat.cast_nonneg g.zramOrigMb
    calc ((g.zramOrigMb : Int) : ℚ) = (g.zramOrigMb : ℚ) * 1 := by simp
      _ ≤ (g.zramOrigMb : ℚ) * g.headroomMult := mul_le_mul_of_nonneg_left hMult hNonneg
  have hFloor := Rat.le_floor_iff.mpr hScaled
  omega

/-- The exit code of a helper that was let through. -/
theorem exitCode_le_two (results : List (Except ReclaimErr Unit)) : exitCode results ≤ 2 := by
  unfold exitCode
  split
  · exact Nat.le_refl 2
  · split <;> omega

/-- The helper does not refuse what the gates let through. -/
theorem main_exit_le_two {t : Tick} (hRead : t.helperRead = t.read)
    (hOnce : ListsAvailableOnce t.read) (hMult : 1 ≤ t.cfg.decompressedHeadroomMult)
    (hGates : t.gates.Hold) : (ZramReclaim.main t.helperRead t.kernel).exit ≤ 2 := by
  have hOrig : t.gates.zramOrigMb ≤ u64Max := by
    have hSum : t.gates.zramOrigMb < 2 ^ 64 := Nat.mod_lt _ (by decide)
    unfold u64Max
    omega
  have hFits : t.gates.zramOrigMb < t.gates.memAvailableMb :=
    Nat.lt_of_le_of_lt (le_requiredMb hMult hOrig) hGates.fits
  have hSome : (readMeminfo t.read).availableKb.val ≠ 0 := by
    intro hZero
    have hNone : t.gates.memAvailableMb = 0 := by
      show (readMeminfo t.read).availableKb.val / 1024 = 0
      rw [hZero]
    omega
  have hAvail := memAvailableKb_of_pos hOnce hSome
  have hSafe : headroomSafe t.read (devices t.read) = .safe := by
    unfold headroomSafe readMemAvailableMb
    rw [hAvail]
    have hLess : decompressedMb t.read (devices t.read) <
        (readMeminfo t.read).availableKb.val / 1024 := by
      rw [← zramOrigMbTotal_eq]
      exact hFits
    exact if_pos (decide_eq_true hLess)
  rw [hRead]
  unfold ZramReclaim.main
  dsimp only
  rw [show parseZramSwaps (readProcSwaps t.read) = devices t.read from rfl, hSafe]
  split
  · exact Nat.zero_le 2
  · exact exitCode_le_two _

/-! ## Every iteration -/

structure Careful (s : Maintenance) (t : Tick) : Prop where
  /-- The helper runs whenever an iteration has a reason, no earlier attempt was the last
  one, the last success is long enough ago, the helper is there and the gates hold. -/
  runs_iff : (maintain s.reclaimer t).Runs ↔
    ∃ afterKills, t.Asks afterKills ∧ (∀ e ∈ s.history, e.2.fatal = false) ∧
      Rested s.history t afterKills ∧ (resolveReclaimHelper t.executable).isSome = true ∧
        t.gates.Hold
  /-- A helper that reads what the daemon read does not refuse for want of memory. -/
  agrees : t.helperRead = t.read → ListsAvailableOnce t.read →
    1 ≤ t.cfg.decompressedHeadroomMult → ∀ calls code, maintain s.reclaimer t = .ran calls code →
      code ≠ some 3 ∧ code ≠ some 4

theorem Inv.rested_iff {s : Maintenance} (h : Inv s) (t : Tick) (afterKills : Bool) :
    (s.reclaimer.lastReclaim ≠ 0 →
        effectiveCooldown t.cfg afterKills ≤ t.now - s.reclaimer.lastReclaim) ↔
      Rested s.history t afterKills := by
  rw [h.last]
  unfold Rested
  cases lastSuccess s.history with
  | none => simp
  | some last => simp

theorem Inv.enabled_iff {s : Maintenance} (h : Inv s) :
    s.reclaimer.reclaimDisabled = false ↔ ∀ e ∈ s.history, e.2.fatal = false := by
  rw [h.disabled, List.any_eq_false]
  simp

theorem Inv.careful {s : Maintenance} (h : Inv s) (t : Tick) : Careful s t where
  runs_iff := by
    rw [maintain_runs_iff]
    refine exists_congr fun afterKills => ?_
    rw [h.enabled_iff, h.rested_iff]
  agrees := by
    intro hRead hOnce hMult calls code hRan
    obtain ⟨-, -, -, -, -, hGates⟩ := (maintain_runs_iff s.reclaimer t).mp ⟨calls, code, hRan⟩
    have hExit := main_exit_le_two hRead hOnce hMult hGates
    rw [maintain_ran hRan]
    constructor
    · intro hThree
      have hMain := runReclaimHelper_exit hThree
      omega
    · intro hFour
      have hMain := runReclaimHelper_exit hFour
      omega

/-- **When the helper runs**, for every run of the maintenance thread. -/
theorem helper_runs_iff (ticks : List Tick) :
    EveryStep Maintenance.step Careful Maintenance.start ticks :=
  everyStep_of_invariant (fun _ t h _ => inv_step h t) (fun _ t h _ => h.careful t) inv_start
    (everyStep_true _ ticks)

end Mgd.ProactiveReclaim
