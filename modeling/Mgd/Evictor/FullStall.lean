import Mgd.Evictor.Run

/-!
# Cycles in which every task is stalled

The evictor reads `full_avg10` with the rest of the PSI file and hands it to the
calibrator and the log.  Its level comes from the composite score, the state
machine and the swap overrides alone; the floor that `pressure_level_with`
derives from `full_avg10` is not among them.  So an iteration is paired here
with its reading of `full_avg10`, and the step ignores it.

`criticalFloor_iff` says in which runs the floor holds all the same: when every
fully stalled cycle has exhausted swap, or a state machine that its tick keeps
at, or brings to, Critical.
-/

namespace Mgd.Evictor.FullStall

open Mgd.Types Mgd.Monitor Mgd.Config Mgd.Lib.Run
open Mgd.Evictor.Scoring Mgd.Evictor.Sensing Mgd.Evictor.Run

/-! ## The state the score calls for -/

/-- The score reaches the Critical tier, or is close to it and rising. -/
def CallsForCritical (score : CycleScore) : Prop :=
  score.pScore ≥ 50 / 100 ∨ (score.pScore ≥ 35 / 100 ∧ score.trend > 3 / 100)

instance (score : CycleScore) : Decidable (CallsForCritical score) :=
  inferInstanceAs (Decidable (_ ∨ (_ ∧ _)))

theorem critical_le_toPressureLevel_iff (s : ControlState) :
    .critical ≤ s.toPressureLevel ↔ .critical ≤ s := by
  cases s <;> decide

/-- The other two inputs only tell Warning from Calm. -/
theorem critical_le_targetStateFor_iff (score : CycleScore) (psiSomeAvg10 swapIoKbs : ℚ) :
    .critical ≤ targetStateFor score.pScore score.trend psiSomeAvg10 swapIoKbs ↔
      CallsForCritical score := by
  have hLow : ∀ s : ControlState, s.severity < 3 → ¬ ControlState.critical ≤ s := by
    intro s
    cases s <;> decide
  unfold targetStateFor CallsForCritical
  by_cases hEmergency : score.pScore ≥ 70 / 100 ∨
      (score.pScore ≥ 55 / 100 ∧ score.trend > 5 / 100)
  · rw [if_pos hEmergency]
    have hScore : score.pScore ≥ 50 / 100 := by
      cases hEmergency with
      | inl hHigh => linarith
      | inr hRising => linarith [hRising.1]
    exact iff_of_true (by decide) (Or.inl hScore)
  · rw [if_neg hEmergency]
    by_cases hCritical : score.pScore ≥ 50 / 100 ∨
        (score.pScore ≥ 35 / 100 ∧ score.trend > 3 / 100)
    · rw [if_pos hCritical]
      exact iff_of_true le_rfl hCritical
    · rw [if_neg hCritical]
      refine iff_of_false (hLow _ ?_) hCritical
      split
      · decide
      · split
        · split <;> decide
        · decide

/-! ## The tick -/

/-- The tick brings the state to `target`: at once, or as the second in a row. -/
def Rises (sm : StateMachine) (target : ControlState) (trend : ℚ) : Prop :=
  trend > 8 / 100 ∨ (target = sm.pending ∧ 1 ≤ sm.pendingTicks)

/-- The tick completes the count of a recovery. -/
def RecoveryCompletes (sm : StateMachine) (target : ControlState) : Prop :=
  target = sm.pending ∧ StateMachine.requiredTicks target ≤ sm.pendingTicks + 1

instance (sm : StateMachine) (target : ControlState) : Decidable (RecoveryCompletes sm target) :=
  inferInstanceAs (Decidable (_ ∧ _))

/-- From Critical up no recovery below it completes; from below the score calls
for Critical and the tick gets there. -/
def TickReachesCritical (sm : StateMachine) (target : ControlState) (trend : ℚ) : Prop :=
  if .critical ≤ sm.current then ¬ (target < .critical ∧ RecoveryCompletes sm target)
  else .critical ≤ target ∧ Rises sm target trend

section Tick

variable (sm : StateMachine) (target : ControlState) (trend : ℚ)

/-- An escalation to Critical or beyond is instant exactly when the trend is
steep. -/
theorem instantEscalate_iff_of_critical {sm : StateMachine} {target : ControlState}
    (hUp : target > sm.current) (hTarget : .critical ≤ target) :
    sm.instantEscalate target trend = true ↔ trend > 8 / 100 := by
  have hTop : target = .emergency ∨ target = .critical := by
    revert hTarget
    cases target <;> decide
  simp [StateMachine.instantEscalate, hUp, hTop]

/-- One upward tick. -/
theorem advance_current_of_gt {sm : StateMachine} {target : ControlState}
    (hUp : target > sm.current) :
    (sm.advance target trend).1.current =
      if sm.instantEscalate target trend = true ∨ (target = sm.pending ∧ 1 ≤ sm.pendingTicks)
      then target else sm.current := by
  have hNe : target ≠ sm.current := ne_of_gt hUp
  rcases sm.advance_cases target trend with hJump | hReached | hCounted | hSame
  · rw [hJump.2.2, if_pos (Or.inl hJump.2.1)]
  · obtain ⟨-, -, hPending, hTicks, hResult⟩ := hReached
    rw [if_pos hUp] at hTicks
    have hSecond : 1 ≤ sm.pendingTicks := by omega
    rw [hResult, if_pos (Or.inr ⟨hPending, hSecond⟩)]
  · obtain ⟨-, hFlat, hShort, hResult⟩ := hCounted
    rw [if_pos hUp] at hShort
    have hNot : ¬ (sm.instantEscalate target trend = true ∨
        (target = sm.pending ∧ 1 ≤ sm.pendingTicks)) := by
      intro h
      cases h with
      | inl hNow =>
          rw [hFlat] at hNow
          cases hNow
      | inr hSecond => exact hShort ⟨hSecond.1, by omega⟩
    rw [hResult, if_neg hNot]
  · exact absurd hSame.1 hNe

/-- One downward tick. -/
theorem advance_current_of_lt {sm : StateMachine} {target : ControlState}
    (hDown : target < sm.current) :
    (sm.advance target trend).1.current =
      if RecoveryCompletes sm target then target else sm.current := by
  have hUp : ¬ target > sm.current := not_lt_of_gt hDown
  rcases sm.advance_cases target trend with hJump | hReached | hCounted | hSame
  · exact absurd hJump.1 hUp
  · obtain ⟨-, -, hPending, hTicks, hResult⟩ := hReached
    rw [if_neg hUp] at hTicks
    have hDone : RecoveryCompletes sm target := ⟨hPending, hTicks⟩
    rw [hResult, if_pos hDone]
  · obtain ⟨-, -, hShort, hResult⟩ := hCounted
    rw [if_neg hUp] at hShort
    have hNotDone : ¬ RecoveryCompletes sm target := hShort
    rw [hResult, if_neg hNotDone]
  · exact absurd hSame.1 (ne_of_lt hDown)

theorem advance_current_of_eq {sm : StateMachine} {target : ControlState}
    (hEq : target = sm.current) : (sm.advance target trend).1.current = sm.current := by
  rcases sm.advance_cases target trend with hJump | hReached | hCounted | hSame
  · exact absurd hEq (ne_of_gt hJump.1)
  · exact absurd hEq hReached.1
  · exact absurd hEq hCounted.1
  · rw [hSame.2]

/-- **Where a tick leaves the state.** -/
theorem critical_le_advance_iff :
    .critical ≤ (sm.advance target trend).1.current ↔ TickReachesCritical sm target trend := by
  unfold TickReachesCritical
  by_cases hAt : .critical ≤ sm.current
  · rw [if_pos hAt]
    rcases lt_trichotomy target sm.current with hDown | hEq | hUp
    · rw [advance_current_of_lt trend hDown]
      by_cases hDone : RecoveryCompletes sm target
      · rw [if_pos hDone]
        simp [hDone]
      · rw [if_neg hDone]
        simp [hDone, hAt]
    · rw [advance_current_of_eq trend hEq]
      have hTarget : ¬ target < .critical := not_lt_of_ge (hEq ▸ hAt)
      simp [hAt, hTarget]
    · have hTarget : .critical ≤ target := le_trans hAt (le_of_lt hUp)
      rw [advance_current_of_gt trend hUp]
      refine iff_of_true ?_ fun h => not_lt_of_ge hTarget h.1
      split
      · exact hTarget
      · exact hAt
  · rw [if_neg hAt]
    have hBelow : sm.current < .critical := lt_of_not_ge hAt
    by_cases hTarget : .critical ≤ target
    · have hUp : target > sm.current := lt_of_lt_of_le hBelow hTarget
      have hGo : (sm.instantEscalate target trend = true ∨
          (target = sm.pending ∧ 1 ≤ sm.pendingTicks)) ↔ Rises sm target trend :=
        or_congr_left (instantEscalate_iff_of_critical trend hUp hTarget)
      rw [advance_current_of_gt trend hUp]
      by_cases hRises : Rises sm target trend
      · rw [if_pos (hGo.mpr hRises)]
        exact iff_of_true hTarget ⟨hTarget, hRises⟩
      · rw [if_neg fun h => hRises (hGo.mp h)]
        exact iff_of_false hAt fun h => hRises h.2
    · refine iff_of_false ?_ fun h => hTarget h.1
      rcases lt_trichotomy target sm.current with hDown | hEq | hUp
      · rw [advance_current_of_lt trend hDown]
        split
        · exact hTarget
        · exact hAt
      · rw [advance_current_of_eq trend hEq]
        exact hAt
      · rw [advance_current_of_gt trend hUp]
        split
        · exact hTarget
        · exact hAt

end Tick

/-! ## The overrides -/

/-- The timer of the swap override runs at Critical only, so it raises nothing to
Critical. -/
theorem critical_le_applySwapOverrides_iff (effective : PressureLevel) (swapUsedPct : ℚ)
    (swapTotal : Kb) (sustainedStart : Option Instant) (now : Instant) :
    .critical ≤ (applySwapOverrides effective swapUsedPct swapTotal sustainedStart now).1 ↔
      swapExhausted swapUsedPct swapTotal = true ∨ .critical ≤ effective := by
  have hEscalate : ∀ (level : PressureLevel) (sustained : Option Instant),
      .critical ≤ level → .critical ≤ escalateSustained level sustained now := by
    intro level sustained hLevel
    unfold escalateSustained
    split
    · split
      · decide
      · exact hLevel
    · exact hLevel
  unfold applySwapOverrides
  dsimp only
  by_cases hEffective : .critical ≤ effective
  · have hForced : forceCritical effective swapUsedPct swapTotal = effective := by
      unfold forceCritical
      rw [if_neg fun h => not_lt_of_ge hEffective h.2]
    rw [hForced]
    exact iff_of_true (hEscalate _ _ hEffective) (Or.inr hEffective)
  · have hBelow : effective < .critical := lt_of_not_ge hEffective
    by_cases hSwap : swapExhausted swapUsedPct swapTotal = true
    · have hForced : forceCritical effective swapUsedPct swapTotal = .critical := by
        unfold forceCritical
        rw [if_pos ⟨hSwap, hBelow⟩]
      rw [hForced]
      exact iff_of_true (hEscalate _ _ le_rfl) (Or.inl hSwap)
    · have hForced : forceCritical effective swapUsedPct swapTotal = effective := by
        unfold forceCritical
        rw [if_neg fun h => hSwap h.1]
      have hEmergency : ¬ PressureLevel.emergency ≤ effective :=
        fun h => hEffective (le_trans (by decide) h)
      -- below Critical the timer is cleared
      have hTimer : sustainedAfter effective swapUsedPct swapTotal sustainedStart now = none := by
        simp only [sustainedAfter, hEffective, hEmergency, and_false, if_false]
      rw [hForced, hTimer]
      simp [escalateSustained, hEffective, hSwap]

/-! ## The floor -/

/-- An iteration with its reading of `full_avg10`. -/
structure StallInput where
  iteration : Iteration
  fullAvg10 : ℚ

/-- The loop, which does not look at `full_avg10`. -/
def step (e : LoopState) (i : StallInput) : LoopState := Run.step e i.iteration

/-- All tasks are stalled at the reading of the cycle. -/
def FullyStalled (c : FullCycle) (fullAvg10 : ℚ) : Prop :=
  fullAvg10 ≥ c.cfg.psi.fullCriticalPct

/-- A fully stalled cycle plans at Critical or above. -/
def CriticalFloor (e : LoopState) (i : StallInput) : Prop :=
  match i.iteration with
  | .cycle c => FullyStalled c i.fullAvg10 → .critical ≤ effectiveLevel e c
  | _ => True

/-- The score of the cycle. -/
def cycleScore (e : LoopState) (c : FullCycle) : CycleScore := e.controller.score c.sample

/-- What carries a cycle to Critical: exhausted swap, or the tick. -/
def ReachesCritical (e : LoopState) (c : FullCycle) : Prop :=
  cycleSwapExhausted c = true ∨
    TickReachesCritical e.controller.stateMachine (e.controller.target c.sample)
      (cycleScore e c).trend

/-- The condition on a step: a fully stalled cycle has what carries it. -/
def StallReachesCritical (e : LoopState) (i : StallInput) : Prop :=
  match i.iteration with
  | .cycle c => FullyStalled c i.fullAvg10 → ReachesCritical e c
  | _ => True

theorem critical_le_effectiveLevel_iff (e : LoopState) (c : FullCycle) :
    .critical ≤ effectiveLevel e c ↔ ReachesCritical e c := by
  have hOverrides := critical_le_applySwapOverrides_iff
    (e.controller.advanced c.sample).1.current.toPressureLevel c.sample.meminfo.swapUsedPct
    c.sample.meminfo.swapTotalKb e.controller.sustainedCriticalSwapStart c.sample.now
  rw [critical_le_toPressureLevel_iff] at hOverrides
  exact hOverrides.trans (or_congr_right (critical_le_advance_iff _ _ _))

/-- From below Critical with swap to spare, a cycle reaches Critical only with a
score that calls for it. -/
theorem callsForCritical_of_reachesCritical {e : LoopState} {c : FullCycle}
    (hReaches : ReachesCritical e c) (hSwap : cycleSwapExhausted c = false)
    (hBelow : e.controller.stateMachine.current < .critical) :
    CallsForCritical (cycleScore e c) := by
  cases hReaches with
  | inl hExhausted =>
      rw [hSwap] at hExhausted
      cases hExhausted
  | inr hTick =>
      unfold TickReachesCritical at hTick
      rw [if_neg (not_le_of_gt hBelow)] at hTick
      exact (critical_le_targetStateFor_iff _ _ _).mp hTick.1

theorem criticalFloor_step_iff (e : LoopState) (i : StallInput) :
    CriticalFloor e i ↔ StallReachesCritical e i := by
  obtain ⟨iteration, fullAvg10⟩ := i
  cases iteration with
  | waitTimeout t => exact Iff.rfl
  | psiError => exact Iff.rfl
  | cycle c => exact imp_congr Iff.rfl (critical_le_effectiveLevel_iff e c)

/--
**When the floor holds.**  In a run of the loop from its start, each fully
stalled cycle plans at Critical or above exactly when each of them has exhausted
swap, or a state machine that its tick keeps at or brings to Critical.
-/
theorem criticalFloor_iff (start : Startup) (inputs : List StallInput) :
    EveryStep step CriticalFloor (LoopState.new start) inputs ↔
      EveryStep step StallReachesCritical (LoopState.new start) inputs :=
  everyStep_iff_of_invariant (fun (_ : LoopState) (_ : StallInput) (_ : True) => trivial)
    (fun e i _ => criticalFloor_step_iff e i) inputs trivial

/-! ## A full stall at Normal -/

/-- The first cycle of a run reads 30% of `some_avg10`, below the raw tier of
Critical, with all tasks stalled 30% of the time. -/
def stalledFirstCycle : List StallInput :=
  [⟨.cycle (plainCycle (CompiledConfig.ofEmpty 15) [] 5 (tightSample 30 5 1000000)), 30⟩]

/-- The cycle plans at Normal, where `pressure_level_with` sees Critical. -/
theorem stalledFirstCycle_misses_floor :
    ¬ EveryStep step CriticalFloor (LoopState.new .first) stalledFirstCycle := by
  intro hRun
  have hStalled : FullyStalled
      (plainCycle (CompiledConfig.ofEmpty 15) [] 5 (tightSample 30 5 1000000)) 30 := by
    show (30 : ℚ) ≥ 20
    norm_num
  have hLevel : effectiveLevel (LoopState.new .first)
      (plainCycle (CompiledConfig.ofEmpty 15) [] 5 (tightSample 30 5 1000000)) = .normal := by
    decide +kernel
  have hFloor : PressureLevel.critical ≤ .normal := hLevel ▸ hRun.1 hStalled
  exact absurd hFloor (by decide)

end Mgd.Evictor.FullStall
