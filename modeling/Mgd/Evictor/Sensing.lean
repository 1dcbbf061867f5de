import Mgd.Evictor.Scoring
import Mgd.Lib.Run

/-!
# The sensing half of the evictor loop

What `evictor::run` does between two waits to find its pressure level: score
the sample, advance the state machine, apply the swap overrides.  With a PSI
trigger armed the loop waits for an event while the last level is Normal.  A
timeout of that wait and an unreadable PSI file skip all of it.

The state machine counts consecutive calls, so a pending escalation outlives
the timeouts between two calls.  `escalationAdjacent_iff` says when two ticks
that raise the state are also adjacent in time: exactly when no cycle that
follows a timeout finds its own target already pending.
-/

namespace Mgd.Evictor.Sensing

open Mgd.Types Mgd.Monitor Mgd.Lib.Run Mgd.Evictor.Scoring

/-- The locals of `run` that carry the verdict from one cycle to the next. -/
structure Controller where
  lastLevel : PressureLevel
  scoreTracker : ScoreTracker
  stateMachine : StateMachine
  sustainedCriticalSwapStart : Option Instant

/-- The loop as it starts, with the counters and the clock first read. -/
def Controller.new (pswpin pswpout : Nat) (now : Instant) : Controller where
  lastLevel := .normal
  scoreTracker := ScoreTracker.new pswpin pswpout now
  stateMachine := StateMachine.new
  sustainedCriticalSwapStart := none

namespace Controller

variable (c : Controller) (x : Sample)

/-- The score of the sample. -/
def score : CycleScore := (c.scoreTracker.updateWith x).2

/-- The state the score calls for. -/
def target : ControlState :=
  targetStateFor (c.score x).pScore (c.score x).trend x.someAvg10 (c.score x).swapIoKbs

/-- The state machine after the tick, and whether it escalated instantly. -/
def advanced : StateMachine × Bool := c.stateMachine.advance (c.target x) (c.score x).trend

/-- The level used for planning, and the timer of the swap override. -/
def effective : PressureLevel × Option Instant :=
  applySwapOverrides (c.advanced x).1.current.toPressureLevel x.meminfo.swapUsedPct
    x.meminfo.swapTotalKb c.sustainedCriticalSwapStart x.now

/-- One full cycle. -/
def sense : Controller where
  lastLevel := (c.effective x).1
  scoreTracker := (c.scoreTracker.updateWith x).1
  stateMachine := (c.advanced x).1
  sustainedCriticalSwapStart := (c.effective x).2

end Controller

/-- How one iteration of the loop goes. -/
inductive LoopInput
  /-- The PSI wait ran out: no event for 5 s. -/
  | waitTimeout
  /-- The PSI file could not be read. -/
  | psiError
  /-- A full cycle. -/
  | sample (x : Sample)

def step (c : Controller) : LoopInput → Controller
  | .waitTimeout => c
  | .psiError => c
  | .sample x => c.sense x

/-! ## The history of ticks and timeouts -/

inductive LoopEvent
  | timeout
  | tick (target : ControlState)
  | other
deriving DecidableEq

/-- What an iteration adds to the history.  Above Normal the loop sleeps
instead of waiting, so a timeout cannot happen there. -/
def event (c : Controller) : LoopInput → LoopEvent
  | .waitTimeout => if c.lastLevel = .normal then .timeout else .other
  | .psiError => .other
  | .sample x => .tick (c.target x)

def LoopEvent.isTick : LoopEvent → Bool
  | .tick _ => true
  | _ => false

/-- The last tick carried `target`, and no timeout has come since. -/
def AdjacentTick (history : List LoopEvent) (target : ControlState) : Prop :=
  ∃ pre mid, history = pre ++ .tick target :: mid ∧ ∀ e ∈ mid, e = .other

/-- A step that raises the state without an instant escalation follows a tick
with the same target, with no timeout between the two. -/
def EscalationAdjacent (s : Controller × List LoopEvent) : LoopInput → Prop
  | .sample x =>
      (s.1.advanced x).1.current > s.1.stateMachine.current → (s.1.advanced x).2 = false →
        AdjacentTick s.2 (s.1.advanced x).1.current
  | _ => True

/-- A timeout has come since the last tick. -/
def idleSinceTick (history : List LoopEvent) : Bool :=
  history.foldl
    (fun idle e =>
      match e with
      | .timeout => true
      | .tick _ => false
      | .other => idle)
    false

/-- A cycle after a timeout does not find its own escalation target pending
from before. -/
def NoStalePending (s : Controller × List LoopEvent) : LoopInput → Prop
  | .sample x =>
      ¬ (idleSinceTick s.2 = true ∧ s.1.target x > s.1.stateMachine.current ∧
        s.1.stateMachine.instantEscalate (s.1.target x) (s.1.score x).trend = false ∧
        s.1.target x = s.1.stateMachine.pending ∧ 1 ≤ s.1.stateMachine.pendingTicks)
  | _ => True

/-- A pending tick is the last tick of the history. -/
def PendingIsLast (s : Controller × List LoopEvent) : Prop :=
  s.1.stateMachine.pendingTicks = 0 ∨
    ∃ pre mid, s.2 = pre ++ .tick s.1.stateMachine.pending :: mid ∧
      ∀ e ∈ mid, e.isTick = false

theorem foldl_idle_of_no_tick {mid : List LoopEvent} (hMid : ∀ e ∈ mid, e.isTick = false)
    (idle : Bool) :
    mid.foldl
        (fun idle e =>
          match e with
          | .timeout => true
          | .tick _ => false
          | .other => idle)
        idle = (idle || decide (LoopEvent.timeout ∈ mid)) := by
  induction mid generalizing idle with
  | nil => simp
  | cons e mid ih =>
      have ihMid := ih fun e' he' => hMid e' (by simp [he'])
      cases e with
      | timeout => simp [ihMid]
      | tick target => exact absurd (hMid (.tick target) (by simp)) (by simp [LoopEvent.isTick])
      | other => simp [ihMid]

/-- Behind the last tick only the timeouts count. -/
theorem idleSinceTick_eq (pre : List LoopEvent) (target : ControlState) {mid : List LoopEvent}
    (hMid : ∀ e ∈ mid, e.isTick = false) :
    idleSinceTick (pre ++ .tick target :: mid) = decide (LoopEvent.timeout ∈ mid) := by
  unfold idleSinceTick
  rw [List.foldl_append, List.foldl_cons, foldl_idle_of_no_tick hMid]
  simp

theorem not_idle_of_adjacentTick {history : List LoopEvent} {target : ControlState}
    (h : AdjacentTick history target) : idleSinceTick history = false := by
  obtain ⟨pre, mid, rfl, hOther⟩ := h
  have hMid : ∀ e ∈ mid, e.isTick = false := by
    intro e he
    rw [hOther e he]
    rfl
  rw [idleSinceTick_eq pre target hMid, decide_eq_false_iff_not]
  intro hMem
  exact LoopEvent.noConfusion (hOther _ hMem)

/-- The last tick is adjacent exactly when no timeout has come since. -/
theorem adjacentTick_iff (pre : List LoopEvent) (target : ControlState) {mid : List LoopEvent}
    (hMid : ∀ e ∈ mid, e.isTick = false) :
    AdjacentTick (pre ++ .tick target :: mid) target ↔
      idleSinceTick (pre ++ .tick target :: mid) = false := by
  refine ⟨not_idle_of_adjacentTick, fun hIdle => ?_⟩
  rw [idleSinceTick_eq pre target hMid, decide_eq_false_iff_not] at hIdle
  refine ⟨pre, mid, rfl, fun e he => ?_⟩
  cases e with
  | timeout => exact absurd he hIdle
  | tick target' => exact absurd (hMid _ he) (by simp [LoopEvent.isTick])
  | other => rfl

theorem pendingIsLast_step (s : Controller × List LoopEvent) (i : LoopInput)
    (h : PendingIsLast s) : PendingIsLast (logged step event s i) := by
  have hIdle : ∀ e : LoopEvent, e.isTick = false →
      PendingIsLast (s.1, s.2 ++ [e]) := by
    intro e he
    rcases h with hZero | ⟨pre, mid, hEq, hMid⟩
    · exact Or.inl hZero
    · refine Or.inr ⟨pre, mid ++ [e], by simp [hEq], fun e' he' => ?_⟩
      cases List.mem_append.mp he' with
      | inl hOld => exact hMid e' hOld
      | inr hNew =>
          rw [List.mem_singleton.mp hNew]
          exact he
  cases i with
  | waitTimeout =>
      refine hIdle (event s.1 .waitTimeout) ?_
      unfold event
      dsimp only
      split <;> rfl
  | psiError => exact hIdle .other rfl
  | sample x =>
      rcases StateMachine.advance_pending s.1.stateMachine (s.1.target x) (s.1.score x).trend
        with hZero | hPending
      · exact Or.inl hZero
      · refine Or.inr ⟨s.2, [], ?_, fun e he => absurd he List.not_mem_nil⟩
        show s.2 ++ [LoopEvent.tick (s.1.target x)] =
          s.2 ++ [LoopEvent.tick (s.1.advanced x).1.pending]
        rw [show (s.1.advanced x).1.pending = s.1.target x from hPending]

theorem escalationAdjacent_iff_noStalePending (s : Controller × List LoopEvent)
    (i : LoopInput) (h : PendingIsLast s) : EscalationAdjacent s i ↔ NoStalePending s i := by
  cases i with
  | waitTimeout => exact Iff.rfl
  | psiError => exact Iff.rfl
  | sample x =>
      have hRaises := StateMachine.advance_raises_iff s.1.stateMachine (s.1.target x)
        (s.1.score x).trend
      constructor
      · intro hAdjacent hBad
        obtain ⟨hStale, hCond⟩ := hBad
        obtain ⟨hUp, hStepwise⟩ := hRaises.mpr hCond
        have hLast := hAdjacent hUp hStepwise
        rw [show (s.1.advanced x).1.current = s.1.target x from
          StateMachine.advance_current_of_raised hUp] at hLast
        rw [not_idle_of_adjacentTick hLast] at hStale
        cases hStale
      · intro hFresh hUp hStepwise
        have hCond := hRaises.mp ⟨hUp, hStepwise⟩
        rw [show (s.1.advanced x).1.current = s.1.target x from
          StateMachine.advance_current_of_raised hUp]
        rcases h with hZero | ⟨pre, mid, hEq, hMid⟩
        · have hTicks := hCond.2.2.2
          omega
        · rw [hEq, hCond.2.2.1, adjacentTick_iff pre _ hMid, ← hEq]
          rw [← Bool.not_eq_true]
          exact fun hStale => hFresh ⟨hStale, hCond⟩

/--
**When escalations are adjacent.**  In a run of the loop from its start, each
raise of the state that is not instant follows a tick with the same target with
no timeout in between, exactly when no cycle after a timeout finds its own
escalation target pending from before.
-/
theorem escalationAdjacent_iff (pswpin pswpout : Nat) (now : Instant) (inputs : List LoopInput) :
    EveryStep (logged step event) EscalationAdjacent
        (Controller.new pswpin pswpout now, []) inputs ↔
      EveryStep (logged step event) NoStalePending
        (Controller.new pswpin pswpout now, []) inputs :=
  everyStep_iff_of_invariant pendingIsLast_step escalationAdjacent_iff_noStalePending inputs
    (Or.inl rfl)

/-! ## Two blips -/

/-- A machine with 16 GB and no swap. -/
def plainMeminfo : MemInfo where
  availableKb := Kb.clamp 8000000
  totalKb := Kb.clamp 16000000
  swapFreeKb := Kb.clamp 0
  swapTotalKb := Kb.clamp 0

/-- PSI at the given percentage and time, nothing else going on. -/
def psiSample (someAvg10 : ℚ) (secs : Nat) : Sample where
  someAvg10 := someAvg10
  meminfo := plainMeminfo
  pswpin := 0
  pswpout := 0
  totalGpu := Kb.clamp 0
  now := Instant.ofSecs secs

/-- A blip, and a minute without pressure events. -/
def blipThenQuiet : List LoopInput := .sample (psiSample 60 5) :: List.replicate 12 .waitTimeout

/-- The second blip raises the state to `evicting`, with the minute between the
two ticks. -/
theorem escalationAdjacent_fails_for_blips :
    ¬ EveryStep (logged step event) EscalationAdjacent
      (Controller.new 0 0 0, []) (blipThenQuiet ++ [.sample (psiSample 60 70)]) := by
  intro hRun
  have hLast := hRun.at_split
  have hUp : ((run (logged step event) (Controller.new 0 0 0, []) blipThenQuiet).1.advanced
        (psiSample 60 70)).1.current >
      (run (logged step event) (Controller.new 0 0 0, []) blipThenQuiet).1.stateMachine.current ∧
      ((run (logged step event) (Controller.new 0 0 0, []) blipThenQuiet).1.advanced
        (psiSample 60 70)).2 = false := by
    decide +kernel
  have hIdle : idleSinceTick
      (run (logged step event) (Controller.new 0 0 0, []) blipThenQuiet).2 = true := by
    decide +kernel
  rw [not_idle_of_adjacentTick (hLast hUp.1 hUp.2)] at hIdle
  cases hIdle

end Mgd.Evictor.Sensing
