import Mgd.Evictor.SustainedSwap

/-!
# A dip after the sustained-swap escalation

`apply_swap_overrides` keeps its timer through a cycle below 98% only at
Emergency, "score-driven or prior escalation", so that a single dip does not
restart the 45 s window.  The level it is given is the state machine's.  An
override of an earlier cycle is not in it, so a dip after an escalation drops
the timer unless the score holds the state machine at Emergency by itself.

`dip_tolerated_iff` says in which runs every single dip after an escalation is
tolerated.
-/

namespace Mgd.Evictor.DipTolerance

open Mgd.Types Mgd.Monitor Mgd.Lib.Run Mgd.Evictor.Scoring Mgd.Evictor.SustainedSwap

/-! ## What one cycle does to the timer -/

def nearFull (c : SwapCycle) : Prop := 98 ≤ c.meminfo.swapUsedPct

/-- Swap exhausted and no longer nearly full. -/
def dip (c : SwapCycle) : Prop := 95 ≤ c.meminfo.swapUsedPct ∧ c.below

instance (c : SwapCycle) : Decidable (nearFull c) := inferInstanceAs (Decidable (98 ≤ _))

instance (c : SwapCycle) : Decidable (dip c) := inferInstanceAs (Decidable (_ ∧ _ < 98))

instance (s : SwapLoop) (c : SwapCycle) : Decidable (Escalates s c) :=
  inferInstanceAs (Decidable (_ ∧ _))

theorem not_dip_of_nearFull {c : SwapCycle} (h : nearFull c) : ¬ dip c :=
  fun hDip => absurd h (not_le_of_gt hDip.2)

/-- The overrides never lower Emergency. -/
theorem overridden_of_emergency (s : SwapLoop) {c : SwapCycle} (h : c.level = .emergency) :
    (s.overridden c).1 = .emergency := by
  have hForced : forceCritical c.level c.meminfo.swapUsedPct c.meminfo.swapTotalKb =
      .emergency := by
    have hLe : .emergency ≤ forceCritical c.level c.meminfo.swapUsedPct c.meminfo.swapTotalKb :=
      emergency_le_forceCritical.mpr h
    exact not_not.mp (mt (lt_emergency_iff _).mpr (not_lt_of_ge hLe))
  unfold SwapLoop.overridden applySwapOverrides
  dsimp only
  rw [hForced]
  unfold escalateSustained
  split
  · exact if_neg fun hBoth => absurd hBoth.2 (lt_irrefl _)
  · rfl

/-! ## The cycles since an escalation -/

/-- The loop, and the cycles since the override raised the level, as long as
all of them are nearly full but for single dips. -/
structure Watched where
  loop : SwapLoop
  episode : List SwapCycle

namespace Watched

def new (now : Instant) : Watched where
  loop := SwapLoop.new now
  episode := []

/-- The cycle before was a dip. -/
def afterDip (w : Watched) : Prop := ∃ d ∈ w.episode.getLast?, dip d

instance (w : Watched) : Decidable w.afterDip := inferInstanceAs (Decidable (∃ d ∈ _, dip d))

/-- The cycle carries the episode on. -/
def carriesOn (w : Watched) (c : SwapCycle) : Prop :=
  w.episode ≠ [] ∧ (nearFull c ∨ dip c ∧ ∃ b ∈ w.episode.getLast?, nearFull b)

instance (w : Watched) (c : SwapCycle) : Decidable (w.carriesOn c) :=
  have : Decidable (w.episode ≠ []) := decidable_of_iff (w.episode.isEmpty = false) (by simp)
  inferInstanceAs (Decidable (_ ∧ (_ ∨ _ ∧ _)))

def episodeAfter (w : Watched) (c : SwapCycle) : List SwapCycle :=
  if w.carriesOn c then w.episode ++ [c] else if Escalates w.loop c then [c] else []

def step (w : Watched) (i : SwapInput) : Watched where
  loop := w.loop.step i
  episode := w.episodeAfter (w.loop.cycle i)

end Watched

/-- Nearly full again after a single dip, the cycle is at Emergency again. -/
def Tolerated (w : Watched) (i : SwapInput) : Prop :=
  w.afterDip → nearFull (w.loop.cycle i) → (w.loop.overridden (w.loop.cycle i)).1 = .emergency

/-! ## Which dips are tolerated -/

/-- A dip with the state machine below Emergency. -/
def dropsTimer (d : SwapCycle) : Prop := dip d ∧ d.level < .emergency

/-- The cycle after such a dip. -/
def Restarted (episode : List SwapCycle) (n : SwapCycle) : Prop :=
  ∃ d, [d, n] <:+: episode ∧ dropsTimer d

/-- The state machine is itself at Emergency, or 45 s have passed since each
cycle after a dip with the state machine below Emergency. -/
def WindowRunAgain (w : Watched) (i : SwapInput) : Prop :=
  w.afterDip → nearFull (w.loop.cycle i) → (w.loop.cycle i).level = .emergency ∨
    ∀ n, Restarted (w.episode ++ [w.loop.cycle i]) n →
      n.now + Instant.ofSecs 45 ≤ (w.loop.cycle i).now

def EndsDropped (episode : List SwapCycle) : Prop :=
  ∃ d ∈ episode.getLast?, dropsTimer d

theorem restarted_append {episode : List SwapCycle} {c n : SwapCycle} :
    Restarted (episode ++ [c]) n ↔ Restarted episode n ∨ EndsDropped episode ∧ n = c := by
  have hEnd : ∀ d, [d, n] <:+ episode ++ [c] ↔ episode.getLast? = some d ∧ n = c := by
    intro d
    constructor
    · intro hSuffix
      obtain ⟨front, hFront⟩ := hSuffix
      have hSplit : (front ++ [d]) ++ [n] = episode ++ [c] := by
        rw [← hFront, List.append_assoc]
        rfl
      have hInj := List.append_inj' hSplit rfl
      refine ⟨?_, List.singleton_inj.mp hInj.2⟩
      rw [← hInj.1]
      exact List.getLast?_concat
    · intro h
      obtain ⟨front, hFront⟩ := List.getLast?_eq_some_iff.mp h.1
      rw [hFront, h.2]
      exact ⟨front, by simp⟩
  unfold Restarted EndsDropped
  constructor
  · intro h
    obtain ⟨d, hRow, hDrops⟩ := h
    cases List.infix_concat_iff.mp hRow with
    | inl hSuffix =>
        have hLast := (hEnd d).mp hSuffix
        exact Or.inr ⟨⟨d, hLast.1, hDrops⟩, hLast.2⟩
    | inr hBefore => exact Or.inl ⟨d, hBefore, hDrops⟩
  · intro h
    cases h with
    | inl hOld =>
        obtain ⟨d, hRow, hDrops⟩ := hOld
        exact ⟨d, List.infix_append_of_infix_left hRow, hDrops⟩
    | inr hNew =>
        obtain ⟨⟨d, hLast, hDrops⟩, hSame⟩ := hNew
        exact ⟨d, ((hEnd d).mpr ⟨hLast, hSame⟩).isInfix, hDrops⟩

/-- The timer of an episode: gone after a dip that dropped it; else it has run
its 45 s, or started at a cycle after such a dip, the last of them. -/
def TimerOf (w : Watched) : Prop :=
  EndsDropped w.episode ∧ w.loop.sustainedCriticalSwapStart = none ∨
    ¬ EndsDropped w.episode ∧ ∃ start, w.loop.sustainedCriticalSwapStart = some start ∧
      (∀ n, Restarted w.episode n → n.now ≤ start) ∧
      (start + Instant.ofSecs 45 ≤ w.loop.clock ∨ ∃ n, Restarted w.episode n ∧ n.now = start)

structure Kept (w : Watched) : Prop where
  past : ∀ c ∈ w.episode, c.now ≤ w.loop.clock
  timer : w.episode ≠ [] → TimerOf w

theorem Restarted.mem {episode : List SwapCycle} {n : SwapCycle} (h : Restarted episode n) :
    n ∈ episode := by
  obtain ⟨d, hRow, -⟩ := h
  exact hRow.subset (by simp)

theorem endsDropped_append {episode : List SwapCycle} {c : SwapCycle} :
    EndsDropped (episode ++ [c]) ↔ dropsTimer c := by
  unfold EndsDropped
  simp

theorem past_step {w : Watched} (h : Kept w) (i : SwapInput) :
    ∀ c ∈ (w.step i).episode, c.now ≤ (w.step i).loop.clock := by
  have hLater : w.loop.clock ≤ (w.loop.cycle i).now := Nat.le_add_right _ _
  intro c hc
  show c.now ≤ (w.loop.cycle i).now
  unfold Watched.step Watched.episodeAfter at hc
  dsimp only at hc
  split at hc
  · cases List.mem_append.mp hc with
    | inl hOld => exact le_trans (h.past c hOld) hLater
    | inr hNew =>
        rw [List.mem_singleton.mp hNew]
  · split at hc
    · rw [List.mem_singleton.mp hc]
    · exact absurd hc List.not_mem_nil

/-- After a dip that dropped the timer, the next cycle is nearly full. -/
theorem nearFull_of_endsDropped {w : Watched} {c : SwapCycle} (hDropped : EndsDropped w.episode)
    (hOn : w.carriesOn c) : nearFull c := by
  cases hOn.2 with
  | inl hFull => exact hFull
  | inr hDip =>
      obtain ⟨-, b, hLast, hFull⟩ := hDip
      obtain ⟨d, hLastD, hDrops⟩ := hDropped
      rw [Option.some.inj (hLast.symm.trans hLastD)] at hFull
      exact absurd hDrops.1 (not_dip_of_nearFull hFull)

/-- It starts the timer. -/
theorem timerOf_restarts {w : Watched} (h : Kept w) (i : SwapInput)
    (hDropped : EndsDropped w.episode) (hNone : w.loop.sustainedCriticalSwapStart = none)
    (hFull : nearFull (w.loop.cycle i)) :
    TimerOf ⟨w.loop.step i, w.episode ++ [w.loop.cycle i]⟩ := by
  refine Or.inr ⟨?_, (w.loop.cycle i).now, ?_, ?_, ?_⟩
  · rw [endsDropped_append]
    exact fun hDrops => not_dip_of_nearFull hFull hDrops.1
  · show (w.loop.overridden (w.loop.cycle i)).2 = some (w.loop.cycle i).now
    rw [timer_of_nearFull w.loop hFull, hNone]
    rfl
  · intro n hn
    cases List.mem_append.mp hn.mem with
    | inl hOld => exact le_trans (h.past n hOld) (Nat.le_add_right _ _)
    | inr hNew =>
        rw [List.mem_singleton.mp hNew]
  · exact Or.inr ⟨w.loop.cycle i, restarted_append.mpr (Or.inr ⟨hDropped, rfl⟩), rfl⟩

/-- A timer that the cycle leaves alone stays the one of the episode. -/
theorem timerOf_keeps {w : Watched} (i : SwapInput) (hNotDropped : ¬ EndsDropped w.episode)
    (hTimer : TimerOf w)
    (hKept : (w.loop.step i).sustainedCriticalSwapStart = w.loop.sustainedCriticalSwapStart)
    (hNot : ¬ dropsTimer (w.loop.cycle i)) :
    TimerOf ⟨w.loop.step i, w.episode ++ [w.loop.cycle i]⟩ := by
  have hSame : ∀ n, Restarted (w.episode ++ [w.loop.cycle i]) n ↔ Restarted w.episode n := by
    intro n
    rw [restarted_append]
    exact or_iff_left fun hNew => hNotDropped hNew.1
  have hRuns := hTimer.resolve_left fun hGone => hNotDropped hGone.1
  obtain ⟨-, start, hStart, hLatest, hWhy⟩ := hRuns
  refine Or.inr ⟨?_, start, hKept.trans hStart, fun n hn => hLatest n ((hSame n).mp hn), ?_⟩
  · rw [endsDropped_append]
    exact hNot
  · cases hWhy with
    | inl hRan => exact Or.inl (le_trans hRan (Nat.le_add_right _ _))
    | inr hAt =>
        obtain ⟨n, hn, hEq⟩ := hAt
        exact Or.inr ⟨n, (hSame n).mpr hn, hEq⟩

/-- A cycle that carries the episode on. -/
theorem timerOf_carriesOn {w : Watched} (h : Kept w) (i : SwapInput)
    (hOn : w.carriesOn (w.loop.cycle i)) :
    TimerOf ⟨w.loop.step i, w.episode ++ [w.loop.cycle i]⟩ := by
  have hTimer : (w.loop.step i).sustainedCriticalSwapStart =
      (w.loop.overridden (w.loop.cycle i)).2 := rfl
  cases h.timer hOn.1 with
  | inl hGone =>
      exact timerOf_restarts h i hGone.1 hGone.2 (nearFull_of_endsDropped hGone.1 hOn)
  | inr hRuns =>
      have hStart : ∃ start, w.loop.sustainedCriticalSwapStart = some start :=
        hRuns.2.imp fun _ hStart => hStart.1
      obtain ⟨start, hStart⟩ := hStart
      cases hOn.2 with
      | inl hFull =>
          refine timerOf_keeps i hRuns.1 (Or.inr hRuns) ?_
            fun hDrops => not_dip_of_nearFull hFull hDrops.1
          rw [hTimer, timer_of_nearFull w.loop hFull, hStart]
          rfl
      | inr hDip =>
          by_cases hLevel : (w.loop.cycle i).level = .emergency
          · refine timerOf_keeps i hRuns.1 (Or.inr hRuns) ?_
              fun hDrops => absurd hLevel (ne_of_lt hDrops.2)
            rw [hTimer, timer_of_below w.loop hDip.1.2, if_pos hLevel]
          · refine Or.inl ⟨?_, ?_⟩
            · rw [endsDropped_append]
              exact ⟨hDip.1, (lt_emergency_iff _).mpr hLevel⟩
            · rw [hTimer, timer_of_below w.loop hDip.1.2, if_neg hLevel]

/-- A cycle that opens an episode finds a timer that has run. -/
theorem timerOf_escalates {w : Watched} {i : SwapInput} (h : Escalates w.loop (w.loop.cycle i)) :
    TimerOf ⟨w.loop.step i, [w.loop.cycle i]⟩ := by
  obtain ⟨-, hFull, start, hStart, hRan⟩ := (escalates_iff w.loop (w.loop.cycle i)).mp h
  have hNone : ∀ n, ¬ Restarted [w.loop.cycle i] n := by
    intro n hn
    obtain ⟨d, hRow, -⟩ := hn
    exact absurd hRow.length_le (by simp)
  refine Or.inr ⟨fun hDropped => ?_, start, ?_, fun n hn => absurd hn (hNone n), Or.inl hRan⟩
  · rw [← List.nil_append [w.loop.cycle i], endsDropped_append] at hDropped
    exact not_dip_of_nearFull hFull hDropped.1
  · show (w.loop.overridden (w.loop.cycle i)).2 = some start
    rw [timer_of_nearFull w.loop hFull, hStart]
    rfl

theorem Kept.step {w : Watched} (h : Kept w) (i : SwapInput) : Kept (w.step i) := by
  refine ⟨past_step h i, ?_⟩
  unfold Watched.step Watched.episodeAfter
  dsimp only
  intro hOpen
  by_cases hOn : w.carriesOn (w.loop.cycle i)
  · rw [if_pos hOn]
    exact timerOf_carriesOn h i hOn
  · rw [if_neg hOn] at hOpen ⊢
    by_cases hEscalates : Escalates w.loop (w.loop.cycle i)
    · rw [if_pos hEscalates]
      exact timerOf_escalates hEscalates
    · rw [if_neg hEscalates] at hOpen
      exact absurd rfl hOpen

/-- Below Emergency the timer decides. -/
theorem raised_iff {l : SwapLoop} {c : SwapCycle} (hLevel : c.level ≠ .emergency)
    (hFull : nearFull c) :
    (l.overridden c).1 = .emergency ↔
      ∃ start, l.sustainedCriticalSwapStart = some start ∧
        start + Instant.ofSecs 45 ≤ c.now := by
  have hBelow : c.level < .emergency := (lt_emergency_iff _).mpr hLevel
  have hDue := escalates_iff l c
  unfold Escalates Due at hDue
  constructor
  · intro hTop
    exact (hDue.mp ⟨hBelow, hTop⟩).2.2
  · intro hStart
    exact (hDue.mpr ⟨hBelow, hFull, hStart⟩).2

theorem tolerated_iff_windowRunAgain {w : Watched} (h : Kept w) (i : SwapInput) :
    Tolerated w i ↔ WindowRunAgain w i := by
  have hLater : w.loop.clock ≤ (w.loop.cycle i).now := Nat.le_add_right _ _
  unfold Tolerated WindowRunAgain
  refine imp_congr_right fun hDip => imp_congr_right fun hFull => ?_
  have hOpen : w.episode ≠ [] := by
    intro hNil
    obtain ⟨d, hLast, -⟩ := hDip
    rw [hNil] at hLast
    cases hLast
  by_cases hLevel : (w.loop.cycle i).level = .emergency
  · exact iff_of_true (overridden_of_emergency w.loop hLevel) (Or.inl hLevel)
  · rw [raised_iff hLevel hFull, or_iff_right hLevel]
    cases h.timer hOpen with
    | inl hGone =>
        -- the dip dropped the timer, and this cycle is the one after it
        refine iff_of_false (fun hStart => ?_) fun hAll => ?_
        · obtain ⟨start, hSome, -⟩ := hStart
          rw [hGone.2] at hSome
          cases hSome
        · have hNow := hAll _ (restarted_append.mpr (Or.inr ⟨hGone.1, rfl⟩))
          exact absurd hNow (Nat.not_le_of_gt (Nat.lt_add_of_pos_right (by decide)))
    | inr hRuns =>
        obtain ⟨hNotDropped, start, hStart, hLatest, hWhy⟩ := hRuns
        constructor
        · intro hRan n hn
          obtain ⟨start', hStart', hLe⟩ := hRan
          have hSame : start' = start := Option.some.inj (hStart'.symm.trans hStart)
          have hOld : Restarted w.episode n := by
            cases restarted_append.mp hn with
            | inl hOld => exact hOld
            | inr hNew => exact absurd hNew.1 hNotDropped
          rw [hSame] at hLe
          exact le_trans (Nat.add_le_add_right (hLatest n hOld) _) hLe
        · intro hAll
          refine ⟨start, hStart, ?_⟩
          cases hWhy with
          | inl hRan => exact le_trans hRan hLater
          | inr hAt =>
              obtain ⟨n, hn, hEq⟩ := hAt
              rw [← hEq]
              exact hAll n (restarted_append.mpr (Or.inl hn))

/--
**When a dip is tolerated.**  In a run of the cycles from the start, every cycle
that finds swap nearly full again after a single dip is at Emergency again,
exactly when each such cycle finds the state machine itself at Emergency, or
45 s past the cycle after each dip of the episode at which the state machine
was below Emergency.
-/
theorem dip_tolerated_iff (now : Instant) (inputs : List SwapInput) :
    EveryStep Watched.step Tolerated (Watched.new now) inputs ↔
      EveryStep Watched.step WindowRunAgain (Watched.new now) inputs := by
  have hNew : Kept (Watched.new now) :=
    ⟨fun c hc => absurd hc List.not_mem_nil, fun hOpen => absurd rfl hOpen⟩
  exact everyStep_iff_of_invariant (fun w i h => h.step i)
    (fun w i h => tolerated_iff_windowRunAgain h i) inputs hNew

/-! ## The window restarted by a single dip -/

/-- Full swap at Critical for 45 s, so the level is raised to Emergency; then
one cycle at 96%. -/
def oneDip : List SwapInput :=
  [⟨.critical, swapWith 0, Instant.ofSecs 5⟩, ⟨.critical, swapWith 0, Instant.ofSecs 45⟩,
    ⟨.critical, swapWith 320000, Instant.ofSecs 5⟩]

/-- Swap is full again, and the level stays at Critical. -/
theorem dip_not_tolerated :
    ¬ EveryStep Watched.step Tolerated (Watched.new 0)
      (oneDip ++ [⟨.critical, swapWith 0, Instant.ofSecs 5⟩]) := by
  intro hRun
  have hTolerated := hRun.at_split
  have hTop := hTolerated (by decide +kernel) (by decide +kernel)
  exact absurd hTop (by decide +kernel)

end Mgd.Evictor.DipTolerance
