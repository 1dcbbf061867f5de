import Mathlib.Tactic.FieldSimp
import Mathlib.Tactic.Ring
import Mathlib.Tactic.Linarith
import Mgd.Evictor.Sensing

/-!
# Waking up after skipped samples

The loop with a PSI trigger scores nothing while the waits time out; a polling
loop would have scored every sample.  At the wake-up both score the same
sample, from different trackers.

The rates of the two loops then differ: the documentation defines the trend
over the precise time since the last cycle, and for the triggered loop that is
the whole quiet time (`wake_measures_quiet_time`).  Its swap rate is the
time-weighted mean of the polled rates, and its trend is the change of the
score since the last full cycle over the same time.
-/

namespace Mgd.Evictor.SkippedSamples

open Mgd.Types Mgd.Monitor Mgd.Lib.Run Mgd.Evictor.Scoring Mgd.Evictor.Sensing

/-! ## The two loops -/

/-- The polling loop after the samples the other loop skips. -/
def pollingBefore (c : Controller) (skipped : List Sample) : Controller :=
  run step c (skipped.map .sample)

/-- The triggered loop after as many timeouts. -/
def triggeredBefore (c : Controller) (skipped : List Sample) : Controller :=
  run step c (skipped.map (fun _ => .waitTimeout))

/-- Timeouts leave the loop as it was. -/
@[simp] theorem triggeredBefore_eq (c : Controller) (skipped : List Sample) :
    triggeredBefore c skipped = c := by
  induction skipped with
  | nil => rfl
  | cons x xs ih => exact ih

/-- At the wake-up sample both loops compute the same trend, the same swap I/O
rate and the same instant escalation. -/
def SameAtWake (c : Controller) (skipped : List Sample) (x : Sample) : Prop :=
  ((triggeredBefore c skipped).score x).trend = ((pollingBefore c skipped).score x).trend ∧
    ((triggeredBefore c skipped).score x).swapIoKbs =
      ((pollingBefore c skipped).score x).swapIoKbs ∧
    ((triggeredBefore c skipped).advanced x).2 = ((pollingBefore c skipped).advanced x).2

/-- The tracker of the polling loop is the fold over the samples. -/
def pollingTracker (t : ScoreTracker) (xs : List Sample) : ScoreTracker :=
  xs.foldl (fun t x => (t.updateWith x).1) t

theorem pollingBefore_scoreTracker (c : Controller) (skipped : List Sample) :
    (pollingBefore c skipped).scoreTracker = pollingTracker c.scoreTracker skipped := by
  induction skipped generalizing c with
  | nil => rfl
  | cons x xs ih => exact ih (c.sense x)

/-! ## Sums over the polled samples -/

/-- The sum of a rate of the polling loop, each value times the seconds it
stands for. -/
def weighted (rate : CycleScore → ℚ) : ScoreTracker → List Sample → ℚ
  | _, [] => 0
  | t, x :: xs => rate (t.updateWith x).2 * t.dt x + weighted rate (t.updateWith x).1 xs

/-- A trace a tracker can be fed: samples more than 100 ms apart, cumulative
page counters that never go back and whose sum fits a `u64`. -/
def Steady : ScoreTracker → List Sample → Prop
  | _, [] => True
  | t, x :: xs =>
      t.dt x > 1 / 10 ∧ t.lastPswpin ≤ x.pswpin ∧ t.lastPswpout ≤ x.pswpout ∧
        x.pswpin + x.pswpout ≤ u64Max ∧ Steady (t.updateWith x).1 xs

section Sums

variable {t : ScoreTracker} {x : Sample}

/-- With counters that only grow, the pages of a cycle are their increase. -/
theorem swapIoPages_of_steady (hIn : t.lastPswpin ≤ x.pswpin) (hOut : t.lastPswpout ≤ x.pswpout)
    (hFits : x.pswpin + x.pswpout ≤ u64Max) :
    ((t.swapIoPages x : Nat) : ℚ) =
      ((x.pswpin : ℚ) + x.pswpout) - ((t.lastPswpin : ℚ) + t.lastPswpout) := by
  have hPages : t.swapIoPages x = (x.pswpin - t.lastPswpin) + (x.pswpout - t.lastPswpout) := by
    unfold ScoreTracker.swapIoPages
    exact Nat.min_eq_left (by omega)
  rw [hPages, Nat.cast_add, Nat.cast_sub hIn, Nat.cast_sub hOut]
  ring

theorem dt_ne_zero (h : t.dt x > 1 / 10) : t.dt x ≠ 0 := by
  intro hZero
  rw [hZero] at h
  norm_num at h

/-- Rate times time is 4 KB for each page. -/
theorem swapIoKbs_mul_dt (h : t.dt x > 1 / 10) :
    t.swapIoKbs x * t.dt x = 4 * (t.swapIoPages x : ℚ) := by
  unfold ScoreTracker.swapIoKbs
  rw [if_pos h, div_mul_cancel₀ _ (dt_ne_zero h), Nat.cast_mul]
  push_cast
  ring

/-- Trend times time is the change of the score. -/
theorem trend_mul_dt (h : t.dt x > 1 / 10) : t.trend x * t.dt x = t.pScore x - t.lastScore := by
  unfold ScoreTracker.trend
  rw [if_pos h, div_mul_cancel₀ _ (dt_ne_zero h)]

/-- Time has passed only if the clock has advanced. -/
theorem lastTime_le_of_dt (h : t.dt x > 1 / 10) : t.lastTime ≤ x.now := by
  by_contra hLt
  have hZero : t.dt x = 0 := by
    unfold ScoreTracker.dt asSecsF64 Instant.durationSince
    rw [Nat.sub_eq_zero_of_le (Nat.le_of_lt (Nat.lt_of_not_le hLt))]
    simp
  exact dt_ne_zero h hZero

theorem dt_of_le (h : t.lastTime ≤ x.now) :
    t.dt x = asSecsF64 x.now - asSecsF64 t.lastTime := by
  unfold ScoreTracker.dt asSecsF64 Instant.durationSince
  rw [Nat.cast_sub h, sub_div]

/-- The polled swap rates add up to the pages of the whole trace. -/
theorem weighted_swapIoKbs (xs : List Sample) (h : Steady t (xs ++ [x])) :
    weighted CycleScore.swapIoKbs t (xs ++ [x]) =
      4 * (((x.pswpin : ℚ) + x.pswpout) - ((t.lastPswpin : ℚ) + t.lastPswpout)) := by
  induction xs generalizing t with
  | nil =>
      obtain ⟨hDt, hIn, hOut, hFits, -⟩ := h
      rw [List.nil_append, weighted, weighted, add_zero]
      rw [← swapIoPages_of_steady hIn hOut hFits]
      exact swapIoKbs_mul_dt hDt
  | cons y ys ih =>
      obtain ⟨hDt, hIn, hOut, hFits, hRest⟩ := h
      have hHere : (t.updateWith y).2.swapIoKbs * t.dt y =
          4 * (((y.pswpin : ℚ) + y.pswpout) - ((t.lastPswpin : ℚ) + t.lastPswpout)) := by
        rw [← swapIoPages_of_steady hIn hOut hFits]
        exact swapIoKbs_mul_dt hDt
      rw [List.cons_append, weighted, hHere, ih hRest]
      simp only [ScoreTracker.updateWith]
      ring

/-- The polled trends add up to the change of the polled score. -/
theorem weighted_trend (xs : List Sample) (h : Steady t (xs ++ [x])) :
    weighted CycleScore.trend t (xs ++ [x]) =
      (pollingTracker t xs).pScore x - t.lastScore := by
  induction xs generalizing t with
  | nil =>
      rw [List.nil_append, weighted, weighted, add_zero]
      exact trend_mul_dt h.1
  | cons y ys ih =>
      have hHere : (t.updateWith y).2.trend * t.dt y = t.pScore y - t.lastScore :=
        trend_mul_dt h.1
      rw [List.cons_append, weighted, hHere, ih h.2.2.2.2]
      simp only [pollingTracker, List.foldl_cons]
      simp only [ScoreTracker.updateWith]
      ring

/-- The wake-up sample is itself in order against the last full cycle. -/
theorem steady_wake (xs : List Sample) (h : Steady t (xs ++ [x])) :
    t.dt x > 1 / 10 ∧ t.lastPswpin ≤ x.pswpin ∧ t.lastPswpout ≤ x.pswpout ∧
      x.pswpin + x.pswpout ≤ u64Max := by
  induction xs generalizing t with
  | nil => exact ⟨h.1, h.2.1, h.2.2.1, h.2.2.2.1⟩
  | cons y ys ih =>
      obtain ⟨hDt, hIn, hOut, -, hRest⟩ := h
      obtain ⟨hDtRest, hInRest, hOutRest, hFits⟩ := ih hRest
      have hBefore : t.lastTime ≤ y.now := lastTime_le_of_dt hDt
      have hAfter : y.now ≤ x.now := lastTime_le_of_dt hDtRest
      -- the time to the wake-up sample is the sum of the times in between
      have hSum : t.dt x = t.dt y + (t.updateWith y).1.dt x := by
        rw [dt_of_le (hBefore.trans hAfter), dt_of_le hBefore, dt_of_le (t := (t.updateWith y).1)
          hAfter]
        simp only [ScoreTracker.updateWith]
        ring
      refine ⟨?_, hIn.trans hInRest, hOut.trans hOutRest, hFits⟩
      rw [hSum]
      linarith

end Sums

/--
**What the wake-up measures.**  On a steady trace the first full cycle after
any number of timeouts computes a swap rate and a trend over the whole time
since the last full cycle: the rate is the time-weighted mean of the rates the
polling loop computes on the samples in between, and the trend is the change of
the score since that cycle, where the polled trends add up to the change of the
polled score.  Without a skipped sample the two loops agree.
-/
theorem wake_measures_quiet_time (c : Controller) (skipped : List Sample) (x : Sample)
    (h : Steady c.scoreTracker (skipped ++ [x])) :
    ((triggeredBefore c skipped).score x).swapIoKbs * c.scoreTracker.dt x =
        weighted CycleScore.swapIoKbs c.scoreTracker (skipped ++ [x]) ∧
      ((triggeredBefore c skipped).score x).trend * c.scoreTracker.dt x =
        ((triggeredBefore c skipped).score x).pScore - c.scoreTracker.lastScore ∧
      weighted CycleScore.trend c.scoreTracker (skipped ++ [x]) =
        ((pollingBefore c skipped).score x).pScore - c.scoreTracker.lastScore ∧
      (skipped = [] → SameAtWake c skipped x) := by
  obtain ⟨hDt, hIn, hOut, hFits⟩ := steady_wake skipped h
  refine ⟨?_, ?_, ?_, ?_⟩
  · rw [triggeredBefore_eq, weighted_swapIoKbs skipped h,
      ← swapIoPages_of_steady hIn hOut hFits]
    exact swapIoKbs_mul_dt hDt
  · rw [triggeredBefore_eq]
    exact trend_mul_dt hDt
  · rw [weighted_trend skipped h, ← pollingBefore_scoreTracker]
    rfl
  · intro hNone
    subst hNone
    exact ⟨rfl, rfl, rfl⟩

/-! ## A jump after one timeout -/

/-- At start-up, when the clock reads zero. -/
def startUp : Controller := Controller.new 0 0 0

/-- PSI jumps from 0 to 100% between the samples at 5 s and at 10 s.  The
polling loop escalates at once; the other loop, which slept through the first
sample, sees half the trend and does not. -/
theorem not_sameAtWake_of_one_timeout :
    ¬ SameAtWake startUp [psiSample 0 5] (psiSample 100 10) := by
  intro hSame
  have hTriggered : ((triggeredBefore startUp [psiSample 0 5]).advanced
      (psiSample 100 10)).2 = false := by
    decide +kernel
  have hPolling : ((pollingBefore startUp [psiSample 0 5]).advanced
      (psiSample 100 10)).2 = true := by
    decide +kernel
  have hInstant := hSame.2.2
  rw [hTriggered, hPolling] at hInstant
  cases hInstant

/-- The same trace is steady. -/
theorem wake_measures_jump :
    ((triggeredBefore startUp [psiSample 0 5]).score (psiSample 100 10)).trend *
        startUp.scoreTracker.dt (psiSample 100 10) =
      ((triggeredBefore startUp [psiSample 0 5]).score (psiSample 100 10)).pScore - 0 :=
  (wake_measures_quiet_time startUp [psiSample 0 5] (psiSample 100 10)
    ⟨by decide +kernel, by decide, by decide, by decide, by decide +kernel, by decide,
      by decide, by decide, trivial⟩).2.1

end Mgd.Evictor.SkippedSamples
