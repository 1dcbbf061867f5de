import Mathlib.Algebra.Order.Field.Rat
import Mgd.Monitor

/-!
# The composite score and its state machine

`evictor/scoring.rs`: the score of one cycle with its trend and swap I/O rate
(`ScoreTracker`), the state it calls for (`targetStateFor`), the hysteresis
(`StateMachine`) and the swap overrides that sit above it.

Arithmetic on scores is exact.  Page counters are far below the 2⁶² where the
product with the page size would overflow `u64`.
-/

namespace Mgd.Evictor.Scoring

open Mgd.Types Mgd.Monitor

/-! ## Control states -/

inductive ControlState
  | calm
  | warning
  | evicting
  | critical
  | emergency
deriving DecidableEq, Repr

namespace ControlState

def severity : ControlState → Nat
  | calm => 0
  | warning => 1
  | evicting => 2
  | critical => 3
  | emergency => 4

theorem severity_injective : Function.Injective severity := by
  intro a b h
  cases a <;> cases b <;> first | rfl | exact absurd h (by decide)

instance : LinearOrder ControlState := LinearOrder.lift' severity severity_injective

def toPressureLevel : ControlState → PressureLevel
  | calm => .normal
  | warning => .elevated
  | evicting => .high
  | critical => .critical
  | emergency => .emergency

theorem toPressureLevel_eq_normal_iff (s : ControlState) :
    s.toPressureLevel = .normal ↔ s = .calm := by
  cases s <;> decide

end ControlState

/-- Swap I/O rate in KB/s below which there is no meaningful churn. -/
def swapIoLiveFloorKbs : ℚ := 1000

/-- Raw PSI below which there is no active stall. -/
def psiLiveFloor : ℚ := 1 / 2

def targetStateFor (pScore trend psiSomeAvg10 swapIoKbs : ℚ) : ControlState :=
  if pScore ≥ 70 / 100 ∨ (pScore ≥ 55 / 100 ∧ trend > 5 / 100) then .emergency
  else if pScore ≥ 50 / 100 ∨ (pScore ≥ 35 / 100 ∧ trend > 3 / 100) then .critical
  else if pScore ≥ 30 / 100 ∨ (pScore ≥ 20 / 100 ∧ trend > 2 / 100) then .evicting
  else if pScore ≥ 15 / 100 then
    if psiSomeAvg10 > psiLiveFloor ∨ swapIoKbs > swapIoLiveFloorKbs then .warning else .calm
  else .calm

/-! ## The state machine -/

structure StateMachine where
  current : ControlState
  pending : ControlState
  pendingTicks : Nat
deriving DecidableEq

namespace StateMachine

def new : StateMachine where
  current := .calm
  pending := .calm
  pendingTicks := 0

/-- A massive spike: the target is reached at once. -/
def instantEscalate (sm : StateMachine) (target : ControlState) (trend : ℚ) : Bool :=
  decide (target > sm.current) &&
    (decide (target = .emergency) || decide (target = .critical)) && decide (trend > 8 / 100)

/-- Ticks a recovery must persist. -/
def requiredTicks : ControlState → Nat
  | .calm => 12
  | .warning => 6
  | _ => 4

/-- One tick toward `target`; `true` when an instant escalation fired. -/
def advance (sm : StateMachine) (target : ControlState) (trend : ℚ) : StateMachine × Bool :=
  if target > sm.current then
    if sm.instantEscalate target trend then (⟨target, target, 0⟩, true)
    else if target = sm.pending then
      -- escalation needs two ticks
      if sm.pendingTicks + 1 ≥ 2 then (⟨target, sm.pending, 0⟩, false)
      else (⟨sm.current, sm.pending, sm.pendingTicks + 1⟩, false)
    else (⟨sm.current, target, 1⟩, false)
  else if target < sm.current then
    if target = sm.pending then
      if sm.pendingTicks + 1 ≥ requiredTicks target then (⟨target, sm.pending, 0⟩, false)
      else (⟨sm.current, sm.pending, sm.pendingTicks + 1⟩, false)
    else (⟨sm.current, target, 1⟩, false)
  else (⟨sm.current, sm.current, 0⟩, false)

/-- **What a tick can do**: jump to its target, reach it as the last of the ticks
in a row, count for it, or find the state there already. -/
theorem advance_cases (sm : StateMachine) (target : ControlState) (trend : ℚ) :
    (target > sm.current ∧ sm.instantEscalate target trend = true ∧
        sm.advance target trend = (⟨target, target, 0⟩, true)) ∨
      (target ≠ sm.current ∧ sm.instantEscalate target trend = false ∧ target = sm.pending ∧
        (if target > sm.current then 2 else requiredTicks target) ≤ sm.pendingTicks + 1 ∧
        sm.advance target trend = (⟨target, target, 0⟩, false)) ∨
      (target ≠ sm.current ∧ sm.instantEscalate target trend = false ∧
        ¬ (target = sm.pending ∧
          (if target > sm.current then 2 else requiredTicks target) ≤ sm.pendingTicks + 1) ∧
        sm.advance target trend =
          (⟨sm.current, target, if target = sm.pending then sm.pendingTicks + 1 else 1⟩, false)) ∨
      (target = sm.current ∧ sm.advance target trend = (⟨sm.current, sm.current, 0⟩, false)) := by
  unfold advance
  rcases lt_trichotomy target sm.current with hDown | hSame | hUp
  · have hNotUp : ¬ target > sm.current := not_lt_of_gt hDown
    have hFlat : sm.instantEscalate target trend = false := by
      simp [instantEscalate, hNotUp]
    rw [if_neg hNotUp, if_pos hDown]
    apply Or.inr
    by_cases hPending : target = sm.pending
    · by_cases hTicks : requiredTicks target ≤ sm.pendingTicks + 1
      · exact Or.inl ⟨ne_of_lt hDown, hFlat, hPending, by simpa [hNotUp] using hTicks,
          by rw [if_pos hPending, if_pos hTicks, ← hPending]⟩
      · exact Or.inr (Or.inl ⟨ne_of_lt hDown, hFlat, by simp [hNotUp, hTicks],
          by rw [if_pos hPending, if_neg hTicks, if_pos hPending, ← hPending]⟩)
    · exact Or.inr (Or.inl ⟨ne_of_lt hDown, hFlat, fun h => hPending h.1,
        by rw [if_neg hPending, if_neg hPending]⟩)
  · have hNotUp : ¬ target > sm.current := not_lt_of_ge hSame.le
    have hNotDown : ¬ target < sm.current := not_lt_of_ge hSame.ge
    rw [if_neg hNotUp, if_neg hNotDown]
    exact Or.inr (Or.inr (Or.inr ⟨hSame, rfl⟩))
  · rw [if_pos hUp]
    cases hInstant : sm.instantEscalate target trend with
    | true => exact Or.inl ⟨hUp, rfl, rfl⟩
    | false =>
        apply Or.inr
        by_cases hPending : target = sm.pending
        · by_cases hTicks : 2 ≤ sm.pendingTicks + 1
          · exact Or.inl ⟨ne_of_gt hUp, rfl, hPending, by simpa [hUp] using hTicks,
              by rw [if_pos hPending, if_pos hTicks, ← hPending]; rfl⟩
          · exact Or.inr (Or.inl ⟨ne_of_gt hUp, rfl, fun h => hTicks (by simpa [hUp] using h.2),
              by rw [if_pos hPending, if_neg hTicks, if_pos hPending, ← hPending]; rfl⟩)
        · exact Or.inr (Or.inl ⟨ne_of_gt hUp, rfl, fun h => hPending h.1,
            by rw [if_neg hPending, if_neg hPending]; rfl⟩)

/-- A tick either clears the count or leaves its own target pending. -/
theorem advance_pending (sm : StateMachine) (target : ControlState) (trend : ℚ) :
    (sm.advance target trend).1.pendingTicks = 0 ∨
      (sm.advance target trend).1.pending = target := by
  rcases sm.advance_cases target trend with hJump | hReached | hCounted | hSame
  · rw [hJump.2.2]
    exact Or.inl rfl
  · rw [hReached.2.2.2.2]
    exact Or.inl rfl
  · rw [hCounted.2.2.2]
    exact Or.inr rfl
  · rw [hSame.2]
    exact Or.inl rfl

/-- A tick raises the current state without an instant escalation exactly when
its target was pending with a tick. -/
theorem advance_raises_iff (sm : StateMachine) (target : ControlState) (trend : ℚ) :
    ((sm.advance target trend).1.current > sm.current ∧ (sm.advance target trend).2 = false) ↔
      target > sm.current ∧ sm.instantEscalate target trend = false ∧
        target = sm.pending ∧ 1 ≤ sm.pendingTicks := by
  rcases sm.advance_cases target trend with hJump | hReached | hCounted | hSame
  · obtain ⟨-, hInstant, hResult⟩ := hJump
    rw [hResult]
    simp [hInstant]
  · obtain ⟨-, hFlat, hPending, hTicks, hResult⟩ := hReached
    rw [hResult]
    constructor
    · intro h
      rw [if_pos h.1] at hTicks
      exact ⟨h.1, hFlat, hPending, by omega⟩
    · exact fun h => ⟨h.1, rfl⟩
  · obtain ⟨-, -, hShort, hResult⟩ := hCounted
    rw [hResult]
    constructor
    · exact fun h => absurd h.1 (lt_irrefl _)
    · intro h
      obtain ⟨hUp, -, hPending, hTicks⟩ := h
      rw [if_pos hUp] at hShort
      exact absurd ⟨hPending, by omega⟩ hShort
  · rw [hSame.2, hSame.1]
    simp

/-- A raised state is the target of the tick. -/
theorem advance_current_of_raised {sm : StateMachine} {target : ControlState} {trend : ℚ}
    (h : (sm.advance target trend).1.current > sm.current) :
    (sm.advance target trend).1.current = target := by
  rcases sm.advance_cases target trend with hJump | hReached | hCounted | hSame
  · rw [hJump.2.2]
  · rw [hReached.2.2.2.2]
  · rw [hCounted.2.2.2] at h
    exact absurd h (lt_irrefl _)
  · rw [hSame.2] at h
    exact absurd h (lt_irrefl _)

end StateMachine

/-! ## The score -/

/-- Inputs carried from the last call: for the trend and for the swap rate. -/
structure ScoreTracker where
  lastScore : ℚ
  lastTime : Instant
  lastPswpin : Nat
  lastPswpout : Nat

/-- One cycle's score. -/
structure CycleScore where
  pScore : ℚ
  trend : ℚ
  swapIoKbs : ℚ
  gpuVal : ℚ
deriving DecidableEq

/-- What one cycle reads: PSI, meminfo, the vmstat counters in pages, the GPU
total and the clock. -/
structure Sample where
  someAvg10 : ℚ
  meminfo : MemInfo
  pswpin : Nat
  pswpout : Nat
  totalGpu : Kb
  now : Instant

def asSecsF64 (d : Duration) : ℚ := (d : ℚ) / (nanosPerSec : ℚ)

def clamp01 (q : ℚ) : ℚ := max 0 (min 1 q)

/-- GPU memory as a share of RAM. -/
def Sample.gpuVal (x : Sample) : ℚ :=
  if x.meminfo.totalKb.val > 0 then
    clamp01 ((x.totalGpu.val : ℚ) / (x.meminfo.totalKb.val : ℚ))
  else 0

namespace ScoreTracker

/-- Seconds since the last call. -/
def dt (t : ScoreTracker) (x : Sample) : ℚ :=
  asSecsF64 (Instant.durationSince x.now t.lastTime)

/-- Pages swapped in or out since the last call. -/
def swapIoPages (t : ScoreTracker) (x : Sample) : Nat :=
  min ((x.pswpin - t.lastPswpin) + (x.pswpout - t.lastPswpout)) u64Max

/-- The swap I/O rate over the cycle, 4 KB a page. -/
def swapIoKbs (t : ScoreTracker) (x : Sample) : ℚ :=
  if t.dt x > 1 / 10 then ((t.swapIoPages x * 4 : Nat) : ℚ) / t.dt x else 0

/-- 55% PSI, 20% swap used, 15% GPU memory, 10% swap I/O. -/
def pScore (t : ScoreTracker) (x : Sample) : ℚ :=
  let swapIoVal := clamp01 (t.swapIoKbs x / 51200)
  let psiVal := clamp01 (x.someAvg10 / 100)
  let swapVal :=
    if x.meminfo.swapTotalKb.val > 0 then clamp01 (x.meminfo.swapUsedPct / 100) else 0
  55 / 100 * psiVal + 20 / 100 * swapVal + 15 / 100 * x.gpuVal + 10 / 100 * swapIoVal

def trend (t : ScoreTracker) (x : Sample) : ℚ :=
  if t.dt x > 1 / 10 then (t.pScore x - t.lastScore) / t.dt x else 0

/-- Fold one sample in. -/
def updateWith (t : ScoreTracker) (x : Sample) : ScoreTracker × CycleScore :=
  ({ lastScore := t.pScore x
     lastTime := x.now
     lastPswpin := x.pswpin
     lastPswpout := x.pswpout },
   { pScore := t.pScore x
     trend := t.trend x
     swapIoKbs := t.swapIoKbs x
     gpuVal := x.gpuVal })

/-- The start-up state: the counters and the clock as first read. -/
def new (pswpin pswpout : Nat) (now : Instant) : ScoreTracker where
  lastScore := 0
  lastTime := now
  lastPswpin := pswpin
  lastPswpout := pswpout

end ScoreTracker

/-! ## Swap overrides -/

/-- Swap is there and at least 95% used. -/
def swapExhausted (swapUsedPct : ℚ) (swapTotal : Kb) : Bool :=
  decide (swapTotal.val > 0) && decide (swapUsedPct ≥ 95)

/-- Exhausted swap forces Critical. -/
def forceCritical (effective : PressureLevel) (swapUsedPct : ℚ) (swapTotal : Kb) :
    PressureLevel :=
  if swapExhausted swapUsedPct swapTotal = true ∧ effective < .critical then .critical
  else effective

/-- The timer of nearly full swap at Critical or above. -/
def sustainedAfter (effective : PressureLevel) (swapUsedPct : ℚ) (swapTotal : Kb)
    (sustainedStart : Option Instant) (now : Instant) : Option Instant :=
  let swapNearFull := decide (swapTotal.val > 0) && decide (swapUsedPct ≥ 98)
  if swapNearFull = true ∧ .critical ≤ effective then sustainedStart.or (some now)
  -- at Emergency a dip below 98% keeps the timer
  else if .emergency ≤ effective then sustainedStart
  else none

/-- 45 s on the timer force Emergency. -/
def escalateSustained (effective : PressureLevel) (sustained : Option Instant) (now : Instant) :
    PressureLevel :=
  match sustained with
  | some start =>
      if Instant.secsSince now start ≥ 45 ∧ effective < .emergency then .emergency else effective
  | none => effective

/-- The level after both overrides, and the timer. -/
def applySwapOverrides (effective : PressureLevel) (swapUsedPct : ℚ) (swapTotal : Kb)
    (sustainedStart : Option Instant) (now : Instant) : PressureLevel × Option Instant :=
  let effective := forceCritical effective swapUsedPct swapTotal
  let newSustained := sustainedAfter effective swapUsedPct swapTotal sustainedStart now
  (escalateSustained effective newSustained now, newSustained)

theorem forceCritical_eq_normal_iff (effective : PressureLevel) (swapUsedPct : ℚ)
    (swapTotal : Kb) :
    forceCritical effective swapUsedPct swapTotal = .normal ↔
      effective = .normal ∧ swapExhausted swapUsedPct swapTotal = false := by
  unfold forceCritical
  cases hExhausted : swapExhausted swapUsedPct swapTotal with
  | true => cases effective <;> decide
  | false => simp

theorem eq_normal_of_escalateSustained {effective : PressureLevel} {sustained : Option Instant}
    {now : Instant} (h : escalateSustained effective sustained now = .normal) :
    effective = .normal := by
  unfold escalateSustained at h
  split at h
  · split at h
    · cases h
    · exact h
  · exact h

/-- The overridden level is Normal exactly when the level was and swap is not
exhausted. -/
theorem applySwapOverrides_eq_normal_iff (effective : PressureLevel) (swapUsedPct : ℚ)
    (swapTotal : Kb) (sustainedStart : Option Instant) (now : Instant) :
    (applySwapOverrides effective swapUsedPct swapTotal sustainedStart now).1 = .normal ↔
      effective = .normal ∧ swapExhausted swapUsedPct swapTotal = false := by
  rw [← forceCritical_eq_normal_iff]
  constructor
  · exact fun h => eq_normal_of_escalateSustained h
  · intro h
    -- at Normal the timer is cleared
    have hTimer : sustainedAfter .normal swapUsedPct swapTotal sustainedStart now = none := by
      have hCritical : ¬ PressureLevel.critical ≤ PressureLevel.normal := by decide
      have hEmergency : ¬ PressureLevel.emergency ≤ PressureLevel.normal := by decide
      simp only [sustainedAfter, hCritical, hEmergency, and_false, if_false]
    unfold applySwapOverrides
    simp only [h, hTimer]
    rfl

end Mgd.Evictor.Scoring
