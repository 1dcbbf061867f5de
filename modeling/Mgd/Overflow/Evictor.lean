import Mgd.Config.Loading
import Mgd.Evictor.IdleReclaim
import Mgd.Lib.Checked

/-!
# The arithmetic of the idle pass and of the planner

`check_idle_process_reclaim` and `plan` with every operation on a number of the
configuration checked: `none` stands for a panic, which an unchecked build
replaces by a wrong number.  Saturating operations and casts of floats always
have a result.

`checkIdleProcessReclaim_isSome_iff` and `plan_isSome_iff` say when nothing
overflows; the result is then that of the exact functions.
-/

namespace Mgd.Overflow

open Mgd.Types Mgd.Monitor Mgd.Config Mgd.Lib.AssocMap Mgd.Lib.Checked Mgd.Lib.Greedy
open Mgd.Engine.Planner Mgd.Evictor.Reclaim Mgd.Evictor.IdleReclaim
open Mgd.Config.Loading (F64)

/-! ## The idle pass -/

/-- `rss_min_mb * 1024` -/
def rssMinKb (ic : IdleReclaimConfig) : Option Nat := mul u64Max ic.rssMinMb 1024

def idleReclaimBytes (ic : IdleReclaimConfig) (cfg : CompiledConfig) (idleSecs : Nat)
    (p : Process) : Option (Option Nat) :=
  let prio := getPriority p.name p.exeBasename cfg
  if prio ≥ 50 then
    match rssMinKb ic with
    | none => none
    | some floor =>
        if p.rssKb.val < floor then some none
        else if idleSecs < ic.idleSec then some none
        else some (some (p.rssKb.percentOf ic.reclaimPct).bytes)
  else if ic.importantEnabled = true ∧ prio ≥ ic.importantMinPriority then
    match rssMinKb ic with
    | none => none
    | some floor =>
        if p.rssKb.val < floor then some none
        else if idleSecs < ic.importantIdleSec then some none
        else some (some (p.rssKb.percentOf ic.importantPct).bytes)
  else some none

def selectIdleCandidates (procs : List Process) (activePid : Option Pid)
    (backgroundTracker : Map Pid Instant) (now : Pid → Instant) (swapUsedPct : ℚ)
    (ic : IdleReclaimConfig) (cfg : CompiledConfig) : Option (List (Pid × Nat)) :=
  if swapUsedPct > ic.maxSwapOccupancyPct then some []
  else
    choose (fun p =>
      if some p.pid = activePid then some none
      else (idleReclaimBytes ic cfg (idleSecs backgroundTracker now p.pid) p).map
        (Option.map (p.pid, ·))) procs

/-- The idle freeze over the processes left, with the freezes so far. -/
def idleFreeze (i : IdleInput) (freezeSecs : Nat) :
    Nat → List Process → IdlePass → Option IdlePass
  | _, [], acc => some acc
  | freezeCount, p :: rest, acc =>
      if freezeCount ≥ 2 then some acc
      else if some p.pid = i.activePid then idleFreeze i freezeSecs freezeCount rest acc
      else
        match rssMinKb i.idleCfg with
        | none => none
        | some floor =>
            if p.rssKb.val < floor then idleFreeze i freezeSecs freezeCount rest acc
            else
              let tracker := IdleInput.orInsert acc.state.freezePidTracker p.pid
                (i.clock.freezeEnter p.pid)
              let acc := { acc with state := { acc.state with freezePidTracker := tracker } }
              if idleSecs tracker i.clock.freezeRead p.pid < freezeSecs then
                idleFreeze i freezeSecs freezeCount rest acc
              else
                let frozen := i.freezeIdle p acc
                idleFreeze i freezeSecs (if frozen.2 then freezeCount + 1 else freezeCount) rest
                  frozen.1

def checkIdleProcessReclaim (i : IdleInput) (s : IdleState) : Option IdlePass :=
  if i.swapTooFull then some ⟨s, [], []⟩
  else
    match selectIdleCandidates i.planProcs i.activePid (i.liveClocks s.pidTracker) i.clock.select
        i.swapUsedPct i.idleCfg i.cfg with
    | none => none
    | some chosen =>
        let started : IdleState :=
          { s with pidTracker := i.planProcs.foldl i.startClock (i.liveClocks s.pidTracker) }
        let reclaimed := (chosen.take 3).foldl i.reclaimCandidate ⟨started, [], []⟩
        let pruned := { reclaimed with
          state := { reclaimed.state with
            freezePidTracker := i.liveClocks reclaimed.state.freezePidTracker } }
        match i.freezeAfterSec with
        | none => some pruned
        | some freezeSecs => idleFreeze i freezeSecs 0 i.planProcs pruned

/-! ### When it fits -/

/-- The smallest size fits `u64` in KB. -/
def FloorFits (ic : IdleReclaimConfig) : Prop := ic.rssMinMb * 1024 ≤ u64Max

instance (ic : IdleReclaimConfig) : Decidable (FloorFits ic) :=
  inferInstanceAs (Decidable (_ ≤ _))

/-- The selection compares the size of the process. -/
def isWeighed (ic : IdleReclaimConfig) (cfg : CompiledConfig) (p : Process) : Bool :=
  let prio := getPriority p.name p.exeBasename cfg
  decide (prio ≥ 50) || (ic.importantEnabled && decide (prio ≥ ic.importantMinPriority))

def isBackground (i : IdleInput) (p : Process) : Bool := decide (some p.pid ≠ i.activePid)

/-- The pass compares the size of some background process: the selection that of
one of its priorities, the idle freeze that of any. -/
def Weighs (i : IdleInput) : Prop :=
  i.swapTooFull = false ∧
    ((i.swapUsedPct ≤ i.idleCfg.maxSwapOccupancyPct ∧
        ∃ p ∈ i.planProcs, isBackground i p = true ∧ isWeighed i.idleCfg i.cfg p = true) ∨
      (i.freezeAfterSec.isSome = true ∧ ∃ p ∈ i.planProcs, isBackground i p = true))

section IdlePass

variable {i : IdleInput} {ic : IdleReclaimConfig} {cfg : CompiledConfig}

theorem rssMinKb_of_fits (h : FloorFits ic) : rssMinKb ic = some ic.rssMinKb := by
  have hFits : ic.rssMinMb * 1024 ≤ u64Max := h
  have hBelow : ic.rssMinMb * 1024 < 2 ^ 64 := Nat.lt_of_le_of_lt hFits (by decide)
  unfold rssMinKb mul IdleReclaimConfig.rssMinKb
  rw [if_pos hFits, Nat.mod_eq_of_lt hBelow]

theorem rssMinKb_of_not_fits (h : ¬ FloorFits ic) : rssMinKb ic = none := if_neg h

theorem idleReclaimBytes_of_fits (h : FloorFits ic) (secs : Nat) (p : Process) :
    idleReclaimBytes ic cfg secs p =
      some (Evictor.IdleReclaim.idleReclaimBytes ic cfg secs p) := by
  unfold idleReclaimBytes Evictor.IdleReclaim.idleReclaimBytes
  rw [rssMinKb_of_fits h]
  dsimp only
  split
  · split
    · rfl
    · split <;> rfl
  · split
    · split
      · rfl
      · split <;> rfl
    · rfl

theorem idleReclaimBytes_isSome_iff (h : ¬ FloorFits ic) (secs : Nat) (p : Process) :
    (idleReclaimBytes ic cfg secs p).isSome = true ↔ isWeighed ic cfg p = false := by
  unfold idleReclaimBytes isWeighed
  rw [rssMinKb_of_not_fits h]
  dsimp only
  by_cases hPrio : getPriority p.name p.exeBasename cfg ≥ 50
  · simp [hPrio]
  · rw [if_neg hPrio]
    by_cases hImportant : ic.importantEnabled = true ∧
        getPriority p.name p.exeBasename cfg ≥ ic.importantMinPriority
    · simp [hImportant]
    · rw [if_neg hImportant]
      simp only [Option.isSome_some, true_iff]
      simp only [hPrio, decide_false, Bool.false_or, Bool.and_eq_false_iff]
      rw [not_and_or] at hImportant
      exact hImportant.imp Bool.eq_false_iff.mpr decide_eq_false

theorem selectIdleCandidates_of_fits (h : FloorFits ic) (procs : List Process)
    (activePid : Option Pid) (tracker : Map Pid Instant) (now : Pid → Instant)
    (swapUsedPct : ℚ) :
    selectIdleCandidates procs activePid tracker now swapUsedPct ic cfg =
      some (Evictor.IdleReclaim.selectIdleCandidates procs activePid tracker now swapUsedPct ic
        cfg) := by
  unfold selectIdleCandidates Evictor.IdleReclaim.selectIdleCandidates
  split
  · rfl
  · apply choose_eq
    intro p _
    rw [idleReclaimBytes_of_fits h]
    split <;> rfl

theorem selectIdleCandidates_isSome_iff (h : ¬ FloorFits i.idleCfg) (tracker : Map Pid Instant) :
    (selectIdleCandidates i.planProcs i.activePid tracker i.clock.select i.swapUsedPct i.idleCfg
        i.cfg).isSome = true ↔
      ¬ (i.swapUsedPct ≤ i.idleCfg.maxSwapOccupancyPct ∧
        ∃ p ∈ i.planProcs, isBackground i p = true ∧ isWeighed i.idleCfg i.cfg p = true) := by
  unfold selectIdleCandidates
  by_cases hRoom : i.swapUsedPct ≤ i.idleCfg.maxSwapOccupancyPct
  · rw [if_neg (not_lt.mpr hRoom), choose_isSome_iff]
    simp only [hRoom, true_and, not_exists, not_and]
    refine forall_congr' fun p => imp_congr_right fun _ => ?_
    unfold isBackground
    by_cases hActive : some p.pid = i.activePid
    · simp [hActive]
    · rw [if_neg hActive, Option.isSome_map, idleReclaimBytes_isSome_iff h]
      simp [hActive]
  · rw [if_pos (not_le.mp hRoom)]
    simp [hRoom]

theorem idleFreeze_of_fits (h : FloorFits i.idleCfg) (freezeSecs freezeCount : Nat)
    (procs : List Process) (acc : IdlePass) :
    idleFreeze i freezeSecs freezeCount procs acc =
      some (i.idleFreeze freezeSecs freezeCount procs acc) := by
  induction procs generalizing freezeCount acc with
  | nil => rfl
  | cons p rest ih =>
      rw [idleFreeze, IdleInput.idleFreeze, rssMinKb_of_fits h]
      dsimp only
      simp only [ih]
      split
      · rfl
      · split
        · rfl
        · split
          · rfl
          · split <;> rfl

/-- Nothing is frozen before the first comparison. -/
theorem idleFreeze_isSome_iff (h : ¬ FloorFits i.idleCfg) {freezeSecs freezeCount : Nat}
    (hFew : freezeCount < 2) (procs : List Process) (acc : IdlePass) :
    (idleFreeze i freezeSecs freezeCount procs acc).isSome = true ↔
      ∀ p ∈ procs, isBackground i p = false := by
  induction procs with
  | nil => simp [idleFreeze]
  | cons p rest ih =>
      rw [List.forall_mem_cons, ← ih, idleFreeze, if_neg (by omega), rssMinKb_of_not_fits h]
      unfold isBackground
      by_cases hActive : some p.pid = i.activePid
      · simp [hActive]
      · simp [hActive]

theorem checkIdleProcessReclaim_of_fits (h : FloorFits i.idleCfg) (s : IdleState) :
    checkIdleProcessReclaim i s = some (Evictor.IdleReclaim.checkIdleProcessReclaim i s) := by
  unfold checkIdleProcessReclaim Evictor.IdleReclaim.checkIdleProcessReclaim
  rw [selectIdleCandidates_of_fits h]
  simp only [idleFreeze_of_fits h]
  split
  · rfl
  · unfold IdleInput.candidates
    cases i.freezeAfterSec with
    | none => rfl
    | some freezeSecs => rfl

/-- **When the idle pass overflows**: when it compares a size and the floor does
not fit. -/
theorem checkIdleProcessReclaim_isSome_iff (i : IdleInput) (s : IdleState) :
    (checkIdleProcessReclaim i s).isSome = true ↔ (Weighs i → FloorFits i.idleCfg) := by
  by_cases hFits : FloorFits i.idleCfg
  · rw [checkIdleProcessReclaim_of_fits hFits]
    simp [hFits]
  · have hSelect := selectIdleCandidates_isSome_iff hFits (i.liveClocks s.pidTracker)
    simp only [hFits, imp_false]
    unfold checkIdleProcessReclaim Weighs
    cases hSwap : i.swapTooFull with
    | true => simp
    | false =>
        simp only [Bool.false_eq_true, if_false, true_and]
        rw [not_or, ← hSelect]
        cases selectIdleCandidates i.planProcs i.activePid (i.liveClocks s.pidTracker)
            i.clock.select i.swapUsedPct i.idleCfg i.cfg with
        | none => simp
        | some chosen =>
            dsimp only
            cases i.freezeAfterSec with
            | none => simp
            | some freezeSecs =>
                rw [idleFreeze_isSome_iff hFits (by omega)]
                simp

end IdlePass

/-! ## The planner -/

def i64Min : Int := -2 ^ 63

def i64Max : Int := 2 ^ 63 - 1

/-- `n as f64 * x` -/
def scaled (n : Nat) : F64 → F64
  | .nan => .nan
  | .negInf => if n = 0 then .nan else .negInf
  | .finite q => .finite (n * q)
  | .posInf => if n = 0 then .nan else .posInf

/-- `x / 100.0` -/
def percent : F64 → F64
  | .finite q => .finite (q / 100)
  | x => x

/-- `x as i64` -/
def toI64 : F64 → Int
  | .nan => 0
  | .negInf => i64Min
  | .finite q => truncI64 q
  | .posInf => i64Max

/-- The KB that the configuration wants available. -/
def targetKb (totalKb : Kb) (targetAvailablePct : F64) : Int :=
  toI64 (scaled totalKb.val (percent targetAvailablePct))

def calculateRamDeficitKb (availableKb totalKb : Kb) (targetAvailablePct : F64) : Option Int :=
  sub i64Min i64Max (targetKb totalKb targetAvailablePct) availableKb.val

def planLoop (level : PressureLevel) (swapExhausted : Bool) (cfg : CompiledConfig)
    (env : PlanEnv) : Int → List Candidate → Option (List (Process × Decision))
  | _, [] => some []
  | deficit, c :: rest =>
      if deficit ≤ 0 then some []
      else if c.prio ≤ 19 then planLoop level swapExhausted cfg env deficit rest
      else if cfg.isProtected c.proc.name then
        planLoop level swapExhausted cfg env deficit rest
      else
        let action := candidateAction level swapExhausted cfg env c
        if action = .none then planLoop level swapExhausted cfg env deficit rest
        else
          match sub i64Min i64Max deficit (freed action c) with
          | none => none
          | some left =>
              (planLoop level swapExhausted cfg env left rest).map
                (decisionFor action deficit c :: ·)

/-- The arguments of `plan`, and what it reads besides. -/
structure PlanInput where
  level : PressureLevel
  procs : List Process
  availableKb : Kb
  totalKb : Kb
  swapExhausted : Bool
  cfg : CompiledConfig
  /-- the float that the configuration has for it -/
  targetAvailablePct : F64
  env : PlanEnv
  /-- the kernel counts bytes of an address space, so the casts to `i64` keep them -/
  available_lt : availableKb.val < 2 ^ 63
  rss_lt : ∀ p ∈ procs, p.rssKb.val < 2 ^ 63

def planned (i : PlanInput) : Option (List (Process × Decision)) :=
  if i.level = .normal then some []
  else
    match calculateRamDeficitKb i.availableKb i.totalKb i.targetAvailablePct with
    | none => none
    | some deficit =>
        if deficit ≤ 0 then some []
        else
          planLoop i.level i.swapExhausted i.cfg i.env deficit
            (sortDesc sortKey (candidates i.level i.procs i.cfg i.env))

/-! ### When it fits -/

/-- The target is not so far below zero that what is available cannot be taken off
it. -/
def TargetFits (i : PlanInput) : Prop :=
  i64Min + i.availableKb.val ≤ targetKb i.totalKb i.targetAvailablePct

instance (i : PlanInput) : Decidable (TargetFits i) := inferInstanceAs (Decidable (_ ≤ _))

theorem truncI64_le (q : ℚ) : truncI64 q ≤ i64Max := by
  unfold truncI64 i64Max
  omega

theorem targetKb_le (totalKb : Kb) (pct : F64) : targetKb totalKb pct ≤ i64Max := by
  unfold targetKb
  cases scaled totalKb.val (percent pct) with
  | nan => decide
  | negInf => decide
  | finite q => exact truncI64_le q
  | posInf => exact le_refl _

/-- A deficit is covered without leaving `i64`. -/
theorem planLoop_of_sizes {level : PressureLevel} {swapExhausted : Bool} {cfg : CompiledConfig}
    {env : PlanEnv} {cs : List Candidate} (hSizes : ∀ c ∈ cs, c.proc.rssKb.val < 2 ^ 63)
    {deficit : Int} (hDeficit : deficit ≤ i64Max) :
    planLoop level swapExhausted cfg env deficit cs =
      some (Engine.Planner.planLoop level swapExhausted cfg env deficit cs) := by
  induction cs generalizing deficit with
  | nil => rfl
  | cons c rest ih =>
      rw [List.forall_mem_cons] at hSizes
      have hRest := fun {d : Int} (hd : d ≤ i64Max) => ih hSizes.2 hd
      rw [planLoop, Engine.Planner.planLoop]
      dsimp only
      by_cases hCovered : deficit ≤ 0
      · rw [if_pos hCovered, if_pos hCovered]
      rw [if_neg hCovered, if_neg hCovered, hRest hDeficit]
      have hFreed : freed (candidateAction level swapExhausted cfg env c) c ≤
          c.proc.rssKb.val := by
        unfold freed
        split
        · exact Nat.zero_le _
        · exact le_refl _
      have hFits : i64Min ≤ deficit - freed (candidateAction level swapExhausted cfg env c) c ∧
          deficit - freed (candidateAction level swapExhausted cfg env c) c ≤ i64Max := by
        unfold i64Max at hDeficit
        unfold i64Min i64Max
        omega
      unfold sub
      rw [if_pos hFits]
      dsimp only
      rw [hRest hFits.2]
      split
      · rfl
      · split
        · rfl
        · split <;> rfl

theorem calculateRamDeficitKb_eq (i : PlanInput) :
    calculateRamDeficitKb i.availableKb i.totalKb i.targetAvailablePct =
      if TargetFits i then
        some (targetKb i.totalKb i.targetAvailablePct - i.availableKb.val)
      else none := by
  have hTop := targetKb_le i.totalKb i.targetAvailablePct
  have hBounds : (i64Min ≤ targetKb i.totalKb i.targetAvailablePct - i.availableKb.val ∧
      targetKb i.totalKb i.targetAvailablePct - i.availableKb.val ≤ i64Max) ↔ TargetFits i := by
    unfold TargetFits
    omega
  unfold calculateRamDeficitKb sub
  by_cases hFits : TargetFits i
  · rw [if_pos hFits, if_pos (hBounds.mpr hFits)]
  · rw [if_neg hFits, if_neg (mt hBounds.mp hFits)]

theorem candidate_sizes (i : PlanInput) :
    ∀ c ∈ sortDesc sortKey (candidates i.level i.procs i.cfg i.env),
      c.proc.rssKb.val < 2 ^ 63 := by
  intro c hc
  obtain ⟨p, hp, rfl⟩ := List.mem_map.mp (mem_sortDesc.mp hc)
  exact i.rss_lt p (List.mem_filter.mp hp).1

/-- **When the planner overflows**: under pressure, when the target is too far
below zero. -/
theorem planned_isSome_iff (i : PlanInput) :
    (planned i).isSome = true ↔ (i.level ≠ .normal → TargetFits i) := by
  unfold planned
  by_cases hCalm : i.level = .normal
  · simp [hCalm]
  · rw [if_neg hCalm, calculateRamDeficitKb_eq]
    simp only [ne_eq, hCalm, not_false_eq_true, true_imp_iff]
    by_cases hFits : TargetFits i
    · have hTop := targetKb_le i.totalKb i.targetAvailablePct
      rw [if_pos hFits]
      dsimp only
      rw [planLoop_of_sizes (candidate_sizes i) (by omega)]
      simp only [hFits, iff_true]
      split <;> rfl
    · simp [hFits]

/-- A plan that does not overflow is the exact one. -/
theorem planned_of_fits {i : PlanInput} (hFits : i.level ≠ .normal → TargetFits i)
    (hFinite : i.targetAvailablePct = .finite i.cfg.targetAvailablePct) :
    planned i = some (Engine.Planner.planned i.level i.procs i.availableKb i.totalKb
      i.swapExhausted i.cfg i.env) := by
  have hTop := targetKb_le i.totalKb i.targetAvailablePct
  unfold planned Engine.Planner.planned
  split
  · rfl
  · next hPressure =>
      have hDeficit : Engine.Planner.calculateRamDeficitKb i.availableKb i.totalKb
          i.cfg.targetAvailablePct =
            targetKb i.totalKb i.targetAvailablePct - i.availableKb.val := by
        rw [hFinite]
        rfl
      rw [calculateRamDeficitKb_eq, if_pos (hFits hPressure), hDeficit]
      dsimp only
      rw [planLoop_of_sizes (candidate_sizes i) (by omega)]
      split <;> rfl

end Mgd.Overflow
