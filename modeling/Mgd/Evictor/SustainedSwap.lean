import Mgd.Evictor.Sensing

/-!
# What a sustained-swap escalation rests on

`apply_swap_overrides` raises a level below Emergency to Emergency when its
timer has run for 45 s.  The timer starts on nearly full swap and is dropped by
a cycle below 98%, except that a cycle at which the state machine itself is at
Emergency keeps it, whatever the usage.  The source keeps it there so that a
single dip does not restart the window, but nothing counts the dips.

`escalation_sound_iff` says which runs escalate soundly: those in which no
escalation finds its timer kept through two such dips in a row.
-/

namespace Mgd.Evictor.SustainedSwap

open Mgd.Types Mgd.Monitor Mgd.Lib.Run Mgd.Evictor.Scoring
open Mgd.Evictor.Sensing (Controller)

/-! ## The timer over the cycles -/

/-- One cycle: the level of the state machine, what was read, and when. -/
structure SwapCycle where
  level : PressureLevel
  meminfo : MemInfo
  now : Instant

/-- The locals of `run` the overrides use, and the cycles so far. -/
structure SwapLoop where
  sustainedCriticalSwapStart : Option Instant
  clock : Instant
  cycles : List SwapCycle

/-- The next cycle, `elapsed` after the last. -/
structure SwapInput where
  level : PressureLevel
  meminfo : MemInfo
  elapsed : Duration

namespace SwapLoop

def new (now : Instant) : SwapLoop where
  sustainedCriticalSwapStart := none
  clock := now
  cycles := []

def cycle (s : SwapLoop) (i : SwapInput) : SwapCycle where
  level := i.level
  meminfo := i.meminfo
  now := s.clock + i.elapsed

/-- The level after the overrides, and the timer. -/
def overridden (s : SwapLoop) (c : SwapCycle) : PressureLevel × Option Instant :=
  applySwapOverrides c.level c.meminfo.swapUsedPct c.meminfo.swapTotalKb
    s.sustainedCriticalSwapStart c.now

def step (s : SwapLoop) (i : SwapInput) : SwapLoop where
  sustainedCriticalSwapStart := (s.overridden (s.cycle i)).2
  clock := (s.cycle i).now
  cycles := s.cycles ++ [s.cycle i]

/-- A cycle of the evictor loop is a step of this machine. -/
theorem step_of_sense (c : Controller) (x : Sample) (clock : Instant) (cycles : List SwapCycle)
    (hClock : clock ≤ x.now) :
    let s : SwapLoop := ⟨c.sustainedCriticalSwapStart, clock, cycles⟩
    let i : SwapInput :=
      ⟨(c.advanced x).1.current.toPressureLevel, x.meminfo, x.now - clock⟩
    (s.step i).sustainedCriticalSwapStart = (c.sense x).sustainedCriticalSwapStart ∧
      (s.overridden (s.cycle i)).1 = (c.sense x).lastLevel := by
  intro s i
  have hNow : s.clock + i.elapsed = x.now := Nat.add_sub_cancel' hClock
  unfold step overridden cycle
  dsimp only
  rw [hNow]
  exact ⟨rfl, rfl⟩

end SwapLoop

/-! ## When the override escalates -/

def SwapCycle.below (c : SwapCycle) : Prop := c.meminfo.swapUsedPct < 98

/-- The cycle is one of the 45 s before `t`. -/
def SwapCycle.within (c : SwapCycle) (t : Instant) : Prop := t < c.now + Instant.ofSecs 45

/-- The overrides raise a level below Emergency to Emergency. -/
def Escalates (s : SwapLoop) (c : SwapCycle) : Prop :=
  c.level < .emergency ∧ (s.overridden c).1 = .emergency

/-- Two cycles in a row below 98% within the 45 s before `t`. -/
def TwoDips (cycles : List SwapCycle) (t : Instant) : Prop :=
  ∃ a b, [a, b] <:+: cycles ∧ a.below ∧ b.below ∧ a.within t ∧ b.within t

/-- An escalation has no two cycles in a row below 98% in the 45 s before it. -/
def Sound (s : SwapLoop) (i : SwapInput) : Prop :=
  Escalates s (s.cycle i) → ¬ TwoDips (s.cycles ++ [s.cycle i]) (s.cycle i).now

/-- Nearly full swap is swap that is there. -/
theorem nearFull_iff (m : MemInfo) :
    (decide (m.swapTotalKb.val > 0) && decide (m.swapUsedPct ≥ 98)) = true ↔
      98 ≤ m.swapUsedPct := by
  rw [Bool.and_eq_true, decide_eq_true_iff, decide_eq_true_iff]
  refine ⟨fun h => h.2, fun h => ⟨?_, h⟩⟩
  apply Nat.pos_of_ne_zero
  intro hZero
  rw [MemInfo.swapUsedPct, if_pos hZero] at h
  exact absurd h (by decide +kernel)

theorem forceCritical_of_nearFull {m : MemInfo} (h : 98 ≤ m.swapUsedPct) {level : PressureLevel}
    (hLevel : level < .emergency) :
    forceCritical level m.swapUsedPct m.swapTotalKb = .critical := by
  have hNear := (nearFull_iff m).mpr h
  rw [Bool.and_eq_true, decide_eq_true_iff, decide_eq_true_iff] at hNear
  have hPct : (95 : ℚ) ≤ m.swapUsedPct := le_trans (by decide +kernel) h
  have hExhausted : swapExhausted m.swapUsedPct m.swapTotalKb = true := by
    rw [swapExhausted, Bool.and_eq_true, decide_eq_true_iff, decide_eq_true_iff]
    exact ⟨hNear.1, hPct⟩
  unfold forceCritical
  rw [hExhausted]
  cases level with
  | normal => rfl
  | elevated => rfl
  | high => rfl
  | critical => rfl
  | emergency => exact absurd hLevel (lt_irrefl _)

/-- At Emergency nothing is forced, and nothing else is forced to it. -/
theorem emergency_le_forceCritical {level : PressureLevel} {swapUsedPct : ℚ} {swapTotal : Kb} :
    .emergency ≤ forceCritical level swapUsedPct swapTotal ↔ level = .emergency := by
  unfold forceCritical
  cases swapExhausted swapUsedPct swapTotal <;> cases level <;> decide

theorem lt_emergency_iff (level : PressureLevel) : level < .emergency ↔ level ≠ .emergency := by
  cases level <;> decide

/-- Nearly full swap keeps the timer or starts it. -/
theorem timer_of_nearFull (s : SwapLoop) {c : SwapCycle} (h : 98 ≤ c.meminfo.swapUsedPct) :
    (s.overridden c).2 = s.sustainedCriticalSwapStart.or (some c.now) := by
  have hForced : .critical ≤ forceCritical c.level c.meminfo.swapUsedPct c.meminfo.swapTotalKb := by
    by_cases hLevel : c.level < .emergency
    · exact le_of_eq (forceCritical_of_nearFull h hLevel).symm
    · have hTop : c.level = .emergency := not_not.mp (mt (lt_emergency_iff c.level).mpr hLevel)
      exact le_trans (by decide) (emergency_le_forceCritical.mpr hTop)
  unfold SwapLoop.overridden applySwapOverrides sustainedAfter
  dsimp only
  rw [if_pos ⟨(nearFull_iff c.meminfo).mpr h, hForced⟩]

/-- Below 98% the timer is kept at Emergency alone. -/
theorem timer_of_below (s : SwapLoop) {c : SwapCycle} (h : c.below) :
    (s.overridden c).2 = if c.level = .emergency then s.sustainedCriticalSwapStart else none := by
  have hNear := mt (nearFull_iff c.meminfo).mp (not_le_of_gt h)
  unfold SwapLoop.overridden applySwapOverrides sustainedAfter
  dsimp only
  rw [if_neg fun hBoth => hNear hBoth.1]
  exact if_congr emergency_le_forceCritical rfl rfl

/-- A timer is either started by the cycle or kept by it: by nearly full swap,
or by the state machine's Emergency. -/
theorem timer_of_overridden {s : SwapLoop} {c : SwapCycle} {start : Instant}
    (h : (s.overridden c).2 = some start) :
    start = c.now ∨ (s.sustainedCriticalSwapStart = some start ∧
      (98 ≤ c.meminfo.swapUsedPct ∨ c.level = .emergency)) := by
  by_cases hFull : 98 ≤ c.meminfo.swapUsedPct
  · rw [timer_of_nearFull s hFull] at h
    cases hTimer : s.sustainedCriticalSwapStart with
    | none =>
        rw [hTimer] at h
        exact Or.inl (Option.some.inj h).symm
    | some old =>
        rw [hTimer] at h
        exact Or.inr ⟨h, Or.inl hFull⟩
  · rw [timer_of_below s (not_le.mp hFull)] at h
    split at h
    · next hEmergency => exact Or.inr ⟨h, Or.inr hEmergency⟩
    · cases h

/-- The override is due: nearly full swap below Emergency, and the timer has run. -/
def Due (s : SwapLoop) (c : SwapCycle) : Prop :=
  c.level < .emergency ∧ 98 ≤ c.meminfo.swapUsedPct ∧
    ∃ start, s.sustainedCriticalSwapStart = some start ∧ start + Instant.ofSecs 45 ≤ c.now

/-- The level after both overrides, by the timer after them. -/
theorem level_of_timer (s : SwapLoop) (c : SwapCycle) :
    (s.overridden c).1 =
      escalateSustained (forceCritical c.level c.meminfo.swapUsedPct c.meminfo.swapTotalKb)
        (s.overridden c).2 c.now :=
  rfl

theorem escalates_iff (s : SwapLoop) (c : SwapCycle) : Escalates s c ↔ Due s c := by
  unfold Escalates Due
  refine and_congr_right fun hLevel => ?_
  rw [level_of_timer]
  by_cases hFull : 98 ≤ c.meminfo.swapUsedPct
  · rw [forceCritical_of_nearFull hFull hLevel, timer_of_nearFull s hFull]
    cases hStart : s.sustainedCriticalSwapStart with
    | none =>
        -- a timer just started has run for no time
        have hNow : ¬ Instant.secsSince c.now c.now ≥ 45 := by
          rw [ge_iff_le, Instant.le_secsSince_iff (by decide)]
          exact Nat.not_le_of_gt (Nat.lt_add_of_pos_right (by decide))
        simp [escalateSustained, hNow]
    | some start =>
        have hBelow : PressureLevel.critical < PressureLevel.emergency := by decide
        rw [Option.some_or, escalateSustained]
        by_cases hOld : Instant.secsSince c.now start ≥ 45
        · simp [hOld, hBelow, hFull, (Instant.le_secsSince_iff (by decide)).mp hOld]
        · have hYoung : ¬ start + Instant.ofSecs 45 ≤ c.now := fun h =>
            hOld (Instant.le_secsSince h)
          simp only [hOld, false_and, if_false]
          simp [hYoung]
  · -- below 98% a level below Emergency loses the timer
    have hForced : ¬ .emergency ≤
        forceCritical c.level c.meminfo.swapUsedPct c.meminfo.swapTotalKb := by
      rw [emergency_le_forceCritical]
      exact ne_of_lt hLevel
    rw [timer_of_below s (not_le.mp hFull), if_neg (ne_of_lt hLevel)]
    exact iff_of_false (fun h => hForced (le_of_eq h.symm)) fun h => hFull h.1

/-! ## Which escalations are sound -/

/-- Two cycles in a row below 98% that both kept the timer: the state machine
was at Emergency. -/
def TwoKeptDips (cycles : List SwapCycle) (t : Instant) : Prop :=
  ∃ a b, [a, b] <:+: cycles ∧ (a.below ∧ a.level = .emergency) ∧
    (b.below ∧ b.level = .emergency) ∧ a.within t ∧ b.within t

/-- No override is due within 45 s of two such dips in a row. -/
def NoKeptDips (s : SwapLoop) (i : SwapInput) : Prop :=
  Due s (s.cycle i) → ¬ TwoKeptDips s.cycles (s.cycle i).now

/-- Since the timer started, every cycle below 98% was at Emergency. -/
structure Timed (s : SwapLoop) : Prop where
  past : ∀ c ∈ s.cycles, c.now ≤ s.clock
  kept : ∀ start, s.sustainedCriticalSwapStart = some start → ∀ c ∈ s.cycles, start < c.now →
    c.below → c.level = .emergency

theorem Timed.step {s : SwapLoop} (h : Timed s) (i : SwapInput) : Timed (s.step i) := by
  have hLater : s.clock ≤ (s.cycle i).now := Nat.le_add_right _ _
  refine ⟨fun c hc => ?_, fun start hStart c hc hAfter hBelow => ?_⟩
  · cases List.mem_append.mp hc with
    | inl hOld => exact le_trans (h.past c hOld) hLater
    | inr hNew =>
        rw [List.mem_singleton.mp hNew]
        exact le_refl _
  · cases timer_of_overridden hStart with
    | inl hStarted =>
        -- a timer started now has no cycle after it
        have hPast : c.now ≤ (s.cycle i).now := by
          cases List.mem_append.mp hc with
          | inl hOld => exact le_trans (h.past c hOld) hLater
          | inr hNew =>
              rw [List.mem_singleton.mp hNew]
        rw [hStarted] at hAfter
        exact absurd hAfter (not_lt_of_ge hPast)
    | inr hKept =>
        cases List.mem_append.mp hc with
        | inl hOld => exact h.kept start hKept.1 c hOld hAfter hBelow
        | inr hNew =>
            rw [List.mem_singleton.mp hNew] at hBelow ⊢
            cases hKept.2 with
            | inl hFull => exact absurd hBelow (not_lt_of_ge hFull)
            | inr hEmergency => exact hEmergency

theorem sound_iff_noKeptDips {s : SwapLoop} (h : Timed s) (i : SwapInput) :
    Sound s i ↔ NoKeptDips s i := by
  unfold Sound NoKeptDips
  rw [escalates_iff]
  refine imp_congr_right fun hDue => not_congr ⟨fun hDips => ?_, fun hDips => ?_⟩
  · obtain ⟨a, b, hRow, hA, hB, hWithinA, hWithinB⟩ := hDips
    obtain ⟨-, hFull, start, hStart, hOld⟩ := hDue
    -- the escalating cycle is not itself a dip
    have hRowOld : [a, b] <:+: s.cycles := by
      cases List.infix_concat_iff.mp hRow with
      | inl hEnd =>
          have hLast : b = s.cycle i := by
            cases List.suffix_concat_iff.mp hEnd with
            | inl hNil => cases hNil
            | inr hSplit =>
                obtain ⟨t, hEq, -⟩ := hSplit
                simpa using congrArg List.getLast? hEq
          rw [hLast] at hB
          exact absurd hFull (not_le_of_gt hB)
      | inr hBefore => exact hBefore
    have hLevel : ∀ c ∈ [a, b], c.below → c.within (s.cycle i).now → c.level = .emergency := by
      intro c hc hDip hWithin
      refine h.kept start hStart c (hRowOld.subset hc) ?_ hDip
      exact Nat.lt_of_add_lt_add_right (Nat.lt_of_le_of_lt hOld hWithin)
    exact ⟨a, b, hRowOld, ⟨hA, hLevel a (by simp) hA hWithinA⟩,
      ⟨hB, hLevel b (by simp) hB hWithinB⟩, hWithinA, hWithinB⟩
  · obtain ⟨a, b, hRow, hA, hB, hWithin⟩ := hDips
    exact ⟨a, b, List.infix_append_of_infix_left hRow, hA.1, hB.1, hWithin⟩

/--
**When the sustained-swap escalation is sound.**  In a run of the cycles from
the start, every escalation of a level below Emergency has at most isolated
cycles below 98% in the 45 s before it, exactly when no override falls due
within 45 s of two cycles in a row at the state machine's own Emergency and
below 98%.
-/
theorem escalation_sound_iff (now : Instant) (inputs : List SwapInput) :
    EveryStep SwapLoop.step Sound (SwapLoop.new now) inputs ↔
      EveryStep SwapLoop.step NoKeptDips (SwapLoop.new now) inputs := by
  have hNew : Timed (SwapLoop.new now) :=
    ⟨fun c hc => absurd hc List.not_mem_nil, fun _ _ c hc => absurd hc List.not_mem_nil⟩
  exact everyStep_iff_of_invariant (fun s i h => h.step i) (fun s i h => sound_iff_noKeptDips h i)
    inputs hNew

/-! ## A timer kept through free swap -/

/-- A machine with 8 GB of swap, the given share of it free. -/
def swapWith (freeKb : Nat) : MemInfo where
  availableKb := Kb.clamp 400000
  totalKb := Kb.clamp 16000000
  swapFreeKb := Kb.clamp freeKb
  swapTotalKb := Kb.clamp 8000000

/-- Full swap starts the timer; then the score drives the state machine to
Emergency and half of the swap is free for two cycles. -/
def dipsAtEmergency : List SwapInput :=
  [⟨.critical, swapWith 0, Instant.ofSecs 5⟩, ⟨.emergency, swapWith 4000000, Instant.ofSecs 5⟩,
    ⟨.emergency, swapWith 4000000, Instant.ofSecs 5⟩]

/-- Back at Critical with full swap, the override escalates 45 s after the timer
started, with both cycles of free swap in that time. -/
theorem escalation_unsound_after_dips :
    ¬ EveryStep SwapLoop.step Sound (SwapLoop.new 0)
      (dipsAtEmergency ++ [⟨.critical, swapWith 0, Instant.ofSecs 35⟩]) := by
  intro hRun
  have hSound := hRun.at_split
  have hEscalates : Escalates (run SwapLoop.step (SwapLoop.new 0) dipsAtEmergency)
      ((run SwapLoop.step (SwapLoop.new 0) dipsAtEmergency).cycle
        ⟨.critical, swapWith 0, Instant.ofSecs 35⟩) := by
    unfold Escalates
    decide +kernel
  refine hSound hEscalates ⟨⟨.emergency, swapWith 4000000, Instant.ofSecs 10⟩,
    ⟨.emergency, swapWith 4000000, Instant.ofSecs 15⟩, ⟨[_], [_], rfl⟩, ?_⟩
  unfold SwapCycle.below SwapCycle.within
  decide +kernel

end Mgd.Evictor.SustainedSwap
