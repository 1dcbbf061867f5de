import Mgd.Evictor.Run
import Mgd.Maintenance
import Mgd.Recovery

/-!
# One pressure verdict

The evictor, the recovery and the maintenance thread, interleaved by iteration.
They share the two registries and nothing else: the evictor's level comes from
a damped score and the swap overrides, the other two read the raw PSI tiers.

`OneVerdict` says that the other two act on processes only while the evictor's
level is Normal.  `oneVerdict_iff` says what that asks of a run: whenever one
of them acts, the evictor has seen a minute of Calm ticks since its state
machine last rose, and swap was not exhausted in its last cycle.  Neither
thread looks at either.
-/

namespace Mgd.Verdicts

open Mgd.Types Mgd.Monitor Mgd.Config Mgd.Lib.AssocMap Mgd.Lib.Run Mgd.Executor.Registry
open Mgd.Recovery Mgd.Maintenance
open Mgd.Evictor.Scoring Mgd.Evictor.Sensing Mgd.Evictor.Run

/-! ## The three threads -/

/-- The registries are part of the evictor's state. -/
structure Daemon where
  evictor : LoopState
  baseline : HealthBaseline
  autoKillLastActive : LastActive
  recoveryWake : Bool

def Daemon.new (start : Startup) : Daemon where
  evictor := LoopState.new start
  baseline := HealthBaseline.new
  autoKillLastActive := ∅
  recoveryWake := false

/-- Whose iteration comes next. -/
inductive Turn
  | evictor (i : Iteration)
  | recovery (t : RecoveryTick)
  | maintenance (t : MaintenanceTick)

def registriesEmpty (d : Daemon) : Bool :=
  decide (d.evictor.frozen.count = 0) && decide (d.evictor.checkpointed.count = 0)

/-- The recovery thread has something to do, or its doorbell has rung. -/
def hasWork (d : Daemon) : Bool := !registriesEmpty d || d.recoveryWake

/-- The cycle rings the doorbell of the recovery thread. -/
def ringsDoorbell (e : LoopState) : Iteration → Bool
  | .cycle c => !(cycleDecisions e c).isEmpty
  | .waitTimeout _ => false
  | .psiError => false

def recovered (d : Daemon) (t : RecoveryTick) : Recovered :=
  recover t d.baseline d.evictor.frozen d.evictor.checkpointed

def maintained (d : Daemon) (t : MaintenanceTick) : LastActive × List Pid :=
  maintain t d.evictor.frozen d.autoKillLastActive

/-- One iteration of one thread.  The recovery thread sleeps until it has
work. -/
def step (d : Daemon) : Turn → Daemon
  | .evictor i =>
      { d with
        evictor := Evictor.Run.step d.evictor i
        recoveryWake := d.recoveryWake || ringsDoorbell d.evictor i }
  | .recovery t =>
      if hasWork d then
        { d with
          evictor :=
            { d.evictor with
              frozen := (recovered d t).frozen
              checkpointed := (recovered d t).checkpointed }
          baseline := (recovered d t).baseline
          recoveryWake := !registriesEmpty d && d.recoveryWake }
      else d
  | .maintenance t => { d with autoKillLastActive := (maintained d t).1 }

/-- The turn resumes a frozen process, restores a checkpoint or auto-kills. -/
def Acts (d : Daemon) : Turn → Prop
  | .evictor _ => False
  | .recovery t =>
      hasWork d = true ∧ ((recovered d t).resumed ≠ [] ∨ (recovered d t).restored.isSome = true)
  | .maintenance t => (maintained d t).2 ≠ []

/-! ## The history of the evictor's cycles -/

/-- What a full cycle saw: the state its score called for, whether the state
machine rose, and whether swap was exhausted. -/
structure CycleRecord where
  target : ControlState
  raised : Bool
  exhausted : Bool

def record (d : Daemon) : Turn → Option CycleRecord
  | .evictor (.cycle c) =>
      some
        { target := d.evictor.controller.target c.sample
          raised := decide ((d.evictor.controller.advanced c.sample).1.current >
            d.evictor.controller.stateMachine.current)
          exhausted := cycleSwapExhausted c }
  | .evictor (.waitTimeout _) => none
  | .evictor .psiError => none
  | .recovery _ => none
  | .maintenance _ => none

/-- The Calm ticks in a row since the state machine last rose, `none` once they
make a minute. -/
def afterCycle (owed : Option Nat) (r : CycleRecord) : Option Nat :=
  if r.raised then some 0
  else
    match owed with
    | none => none
    | some calmTicks =>
        if r.target = .calm then
          if calmTicks + 1 ≥ StateMachine.requiredTicks .calm then none else some (calmTicks + 1)
        else some 0

def calmOwed (history : List (Option CycleRecord)) : Option Nat :=
  (history.filterMap id).foldl afterCycle none

def lastExhausted (history : List (Option CycleRecord)) : Bool :=
  ((history.filterMap id).getLast?.map CycleRecord.exhausted).getD false

/-- A turn that acts finds the evictor at Normal. -/
def OneVerdict (s : Daemon × List (Option CycleRecord)) (turn : Turn) : Prop :=
  Acts s.1 turn → s.1.evictor.controller.lastLevel = .normal

/-- A turn that acts comes after a minute of Calm, with swap not exhausted in the
last cycle. -/
def AfterCalmMinute (s : Daemon × List (Option CycleRecord)) (turn : Turn) : Prop :=
  Acts s.1 turn → calmOwed s.2 = none ∧ lastExhausted s.2 = false

/-! ## The state machine and the minute of Calm -/

/-- The state machine is at Calm exactly when no Calm tick is owed; otherwise the
ticks it counts toward Calm are those of the history. -/
def Owes : Option Nat → StateMachine → Prop
  | none, sm => sm.current = .calm
  | some calmTicks, sm =>
      sm.current ≠ .calm ∧ calmTicks = if sm.pending = .calm then sm.pendingTicks else 0

theorem not_lt_calm (s : ControlState) : ¬ s < .calm := by
  cases s <;> decide

theorem ne_calm_of_gt {s t : ControlState} (h : s > t) : s ≠ .calm := by
  intro heq
  subst heq
  exact not_lt_calm t h

/-- A tick that raises the state machine starts a new debt. -/
theorem owes_of_raised {sm : StateMachine} {target : ControlState} {trend : ℚ}
    (h : (sm.advance target trend).1.current > sm.current) :
    Owes (some 0) (sm.advance target trend).1 := by
  have hTarget := StateMachine.advance_current_of_raised h
  have hUp : target > sm.current := hTarget ▸ h
  have hNotCalm : target ≠ .calm := ne_calm_of_gt hUp
  constructor
  · rw [hTarget]
    exact hNotCalm
  · cases StateMachine.advance_pending sm target trend with
    | inl hZero =>
        rw [hZero]
        split <;> rfl
    | inr hPending => rw [hPending, if_neg hNotCalm]

/-- At Calm the state machine stays until it rises. -/
theorem advance_calm {sm : StateMachine} {target : ControlState} {trend : ℚ}
    (hCalm : sm.current = .calm) (hRaised : ¬ (sm.advance target trend).1.current > sm.current) :
    (sm.advance target trend).1.current = .calm := by
  rw [hCalm] at hRaised
  generalize (sm.advance target trend).1.current = after at hRaised
  cases after <;> first | rfl | exact absurd (by decide) hRaised

/-- A tick that calls for Calm while above it. -/
theorem advance_toward_calm {sm : StateMachine} (trend : ℚ) (hAbove : sm.current ≠ .calm) :
    (sm.advance .calm trend).1 =
      if sm.pending = .calm then
        if sm.pendingTicks + 1 ≥ StateMachine.requiredTicks .calm then ⟨.calm, sm.pending, 0⟩
        else ⟨sm.current, sm.pending, sm.pendingTicks + 1⟩
      else ⟨sm.current, .calm, 1⟩ := by
  have hDown : ControlState.calm < sm.current := by
    cases hCurrent : sm.current with
    | calm => exact absurd hCurrent hAbove
    | warning => decide
    | evicting => decide
    | critical => decide
    | emergency => decide
  have hUp : ¬ ControlState.calm > sm.current := not_lt.mpr hDown.le
  unfold StateMachine.advance
  rw [if_neg hUp, if_pos hDown]
  by_cases hPending : ControlState.calm = sm.pending
  · rw [if_pos hPending, if_pos hPending.symm]
    split <;> rfl
  · rw [if_neg hPending, if_neg (fun h => hPending h.symm)]

/-- A tick that calls for something else and does not raise the state machine
leaves it above Calm, counting nothing toward Calm. -/
theorem owes_of_other_target {sm : StateMachine} {target : ControlState} {trend : ℚ}
    (hAbove : sm.current ≠ .calm) (hTarget : target ≠ .calm) :
    Owes (some 0) (sm.advance target trend).1 := by
  rcases sm.advance_cases target trend with hJump | hReached | hCounted | hSame
  · rw [hJump.2.2]
    exact ⟨hTarget, by rw [if_neg hTarget]⟩
  · rw [hReached.2.2.2.2]
    exact ⟨hTarget, by rw [if_neg hTarget]⟩
  · rw [hCounted.2.2.2]
    exact ⟨hAbove, by rw [if_neg hTarget]⟩
  · rw [hSame.2]
    exact ⟨hAbove, by rw [if_neg hAbove]⟩

/-- **The debt follows the state machine**, tick by tick. -/
theorem owes_advance {owed : Option Nat} {sm : StateMachine} (h : Owes owed sm)
    (target : ControlState) (trend : ℚ) (exhausted : Bool) :
    Owes
      (afterCycle owed
        ⟨target, decide ((sm.advance target trend).1.current > sm.current), exhausted⟩)
      (sm.advance target trend).1 := by
  unfold afterCycle
  by_cases hRaised : (sm.advance target trend).1.current > sm.current
  · rw [if_pos (decide_eq_true hRaised)]
    exact owes_of_raised hRaised
  · rw [if_neg (by simpa using hRaised)]
    cases owed with
    | none => exact advance_calm h hRaised
    | some calmTicks =>
        obtain ⟨hAbove, hTicks⟩ := h
        dsimp only
        by_cases hTarget : target = .calm
        · subst hTarget
          rw [if_pos rfl, advance_toward_calm trend hAbove]
          by_cases hPending : sm.pending = .calm
          · rw [if_pos hPending] at hTicks ⊢
            subst hTicks
            split
            · rfl
            · exact ⟨hAbove, by rw [if_pos hPending]⟩
          · rw [if_neg hPending] at hTicks ⊢
            subst hTicks
            rw [if_neg (by decide)]
            exact ⟨hAbove, rfl⟩
        · rw [if_neg hTarget]
          exact owes_of_other_target hAbove hTarget

/-! ## Runs -/

/-- The evictor's verdict against the history. -/
structure Tracks (s : Daemon × List (Option CycleRecord)) : Prop where
  owes : Owes (calmOwed s.2) s.1.evictor.controller.stateMachine
  level :
    s.1.evictor.controller.lastLevel = .normal ↔
      s.1.evictor.controller.stateMachine.current = .calm ∧ lastExhausted s.2 = false

/-- Turns that are no full cycle leave the controller and the history alone. -/
theorem tracks_of_same {s s' : Daemon × List (Option CycleRecord)} (h : Tracks s)
    (hController : s'.1.evictor.controller = s.1.evictor.controller)
    (hHistory : s'.2 = s.2 ++ [none]) : Tracks s' := by
  have hOwed : calmOwed s'.2 = calmOwed s.2 := by
    rw [hHistory]
    simp [calmOwed]
  have hExhausted : lastExhausted s'.2 = lastExhausted s.2 := by
    rw [hHistory]
    simp [lastExhausted]
  constructor
  · rw [hOwed, hController]
    exact h.owes
  · rw [hExhausted, hController]
    exact h.level

theorem tracks_step (s : Daemon × List (Option CycleRecord)) (turn : Turn) (h : Tracks s) :
    Tracks (logged step record s turn) := by
  cases turn with
  | evictor i =>
      have hController : (logged step record s (.evictor i)).1.evictor.controller =
          Evictor.Sensing.step s.1.evictor.controller i.toLoopInput := step_controller s.1.evictor i
      cases i with
      | waitTimeout t => exact tracks_of_same h hController rfl
      | psiError => exact tracks_of_same h hController rfl
      | cycle c =>
          have hOwes := owes_advance h.owes (s.1.evictor.controller.target c.sample)
            (s.1.evictor.controller.score c.sample).trend (cycleSwapExhausted c)
          constructor
          · rw [hController, logged_snd]
            unfold calmOwed
            rw [List.filterMap_append, List.foldl_append]
            exact hOwes
          · rw [hController, logged_snd]
            unfold lastExhausted
            rw [List.filterMap_append]
            simp only [record, List.filterMap_cons, List.filterMap_nil, id_eq,
              List.getLast?_append, List.getLast?_singleton, Option.some_or, Option.map_some,
              Option.getD_some]
            rw [← ControlState.toPressureLevel_eq_normal_iff]
            exact applySwapOverrides_eq_normal_iff _ _ _ _ _
  | recovery t =>
      refine tracks_of_same h ?_ rfl
      simp only [logged_fst, step]
      split <;> rfl
  | maintenance t => exact tracks_of_same h rfl rfl

/-- What the evictor's level says about the history. -/
theorem normal_iff_of_tracks {s : Daemon × List (Option CycleRecord)} (h : Tracks s) :
    s.1.evictor.controller.lastLevel = .normal ↔
      calmOwed s.2 = none ∧ lastExhausted s.2 = false := by
  rw [h.level]
  have hCalm : s.1.evictor.controller.stateMachine.current = .calm ↔ calmOwed s.2 = none := by
    have hOwes := h.owes
    cases hOwed : calmOwed s.2 with
    | none =>
        rw [hOwed] at hOwes
        exact iff_of_true hOwes rfl
    | some calmTicks =>
        rw [hOwed] at hOwes
        exact iff_of_false hOwes.1 (by simp)
  rw [hCalm]

/--
**When there is one verdict.**  In a run of the three threads, recovery and
maintenance act only while the evictor's level is Normal exactly when each of
their actions comes after a minute of Calm ticks since the state machine last
rose, with swap not exhausted in the evictor's last cycle.
-/
theorem oneVerdict_iff (start : Startup) (turns : List Turn) :
    EveryStep (logged step record) OneVerdict (Daemon.new start, []) turns ↔
      EveryStep (logged step record) AfterCalmMinute (Daemon.new start, []) turns := by
  have hStart : Tracks (Daemon.new start, []) := by
    constructor
    · rfl
    · exact iff_of_true rfl ⟨rfl, rfl⟩
  refine everyStep_iff_of_invariant tracks_step ?_ turns hStart
  intro s turn h
  unfold OneVerdict AfterCalmMinute
  rw [normal_iff_of_tracks h]

/-! ## A thaw under pressure -/

def chat : Process := appProcess 3300 "slack" "/user.slice/app-slack.scope" 500000

def chatConfig : CompiledConfig :=
  { CompiledConfig.ofEmpty 15 with entries := [⟨Regex.exact "slack", 70, none⟩] }

/-- A cycle with memory tight, at the given PSI. -/
def cycleAt (secs : Nat) (psi : ℚ) : Turn :=
  .evictor (.cycle (plainCycle chatConfig [chat] secs (tightSample psi secs 1000000)))

/-- The recovery thread reads a PSI of zero and 3 GB available. -/
def quietTick (now : Nat) : RecoveryTick where
  pressure := some ⟨0, 0⟩
  cfg := chatConfig
  meminfo := { plainMeminfo with availableKb := Kb.clamp 3000000 }
  meminfoAtRestore := { plainMeminfo with availableKb := Kb.clamp 3000000 }
  now := now
  startTime := fun _ => some 100
  kill := fun _ _ => none
  restore := fun _ => false

/-- The chat is frozen at Elevated; then PSI is quiet for three cycles. -/
def freezeThenQuiet : List Turn :=
  [cycleAt 5 30, cycleAt 10 30, cycleAt 15 0, cycleAt 20 0, cycleAt 25 0]

/-- The recovery thread resumes the chat while the evictor is still at
Elevated. -/
theorem quietTick_thaws_at_elevated :
    ¬ EveryStep (logged step record) OneVerdict (Daemon.new .first, [])
      (freezeThenQuiet ++ [.recovery (quietTick 26)]) := by
  intro hEvery
  have hLast := hEvery.at_split
  have hWork : hasWork
      (run (logged step record) (Daemon.new .first, []) freezeThenQuiet).1 = true := by
    decide +kernel
  have hThaws : (recovered (run (logged step record) (Daemon.new .first, []) freezeThenQuiet).1
      (quietTick 26)).resumed ≠ [] := by
    decide +kernel
  have hElevated : (run (logged step record) (Daemon.new .first, [])
      freezeThenQuiet).1.evictor.controller.lastLevel = .elevated := by
    decide +kernel
  rw [hLast ⟨hWork, Or.inl hThaws⟩] at hElevated
  cases hElevated

end Mgd.Verdicts
