import Mgd.Lib.Run
import Mgd.Overflow.Calibrate
import Mgd.Overflow.Evictor
import Mgd.Overflow.LeakGuard
import Mgd.Overflow.SpikeMode

/-!
# Numbers that break the daemon

The configuration takes any integer and any float that TOML has, and
`from_state` any histogram of the right width.  Most of the arithmetic on them
saturates; `Kb::percent_of` says that it does so because the configuration is not
checked for range.  Four places do not: the floor of the idle pass in KB, the
cooldown of the leak guard, the deficit of the planner and the masses of the
calibrator.

A run is what the evictor makes of its configuration, cycle by cycle, with any
configuration in each.  `neverOverflows_iff` says which runs go through.
-/

namespace Mgd.Overflow

open Mgd.Types Mgd.Monitor Mgd.Config Mgd.Lib.Run
open Mgd.Evictor.IdleReclaim (IdleInput IdleState IdlePass)
open Mgd.Executor.Registry (FrozenRegistry)
open Mgd.Engine.Planner (PlanEnv)
open Mgd.Engine.Calibrate (CalibratorState Calibrator bins)
open Mgd.LeakGuard (LeakTracker LeakGuardConfig LeakCycle)
open Mgd.SpikeMode (SpikeTracker)

/-! ## The daemon -/

structure Daemon where
  idle : IdleState
  leak : LeakTracker
  spikes : SpikeTracker
  calibrator : Calibrator

inductive Event
  | idlePass (i : IdleInput)
  | leakCycle (cfg : CompiledConfig) (p : LeakGuardConfig) (procs : List Process) (now : Instant)
  | spikeUpdate (procs : List Process) (available : Kb) (p : SpikeParams) (now : Instant)
      (foregroundPid : Option Pid)
  | spikeExit (pid : Pid)
  | plan (i : PlanInput)
  | observe (someAvg10 fullAvg10 : ℚ) (interventionActive : Bool) (weightSecs : Nat)
  | suggest

/-- The daemon as it starts. -/
def boot (frozen : FrozenRegistry) (state : CalibratorState) : Daemon where
  idle := ⟨∅, ∅, frozen, 0⟩
  leak := LeakTracker.new
  spikes := SpikeTracker.new
  calibrator := Calibrator.fromState state

def stepChecked (d : Daemon) : Event → Option Daemon
  | .idlePass i =>
      (checkIdleProcessReclaim i d.idle).map fun pass => { d with idle := pass.state }
  | .leakCycle cfg p procs now =>
      (runLeakGuardCycle cfg p d.leak procs now).map fun cycle => { d with leak := cycle.tracker }
  | .spikeUpdate procs available p now foregroundPid =>
      (updateSpikes d.spikes procs available p now foregroundPid).map fun updated =>
        { d with spikes := updated.1 }
  | .spikeExit pid => some { d with spikes := (d.spikes.onSpikeExit pid).1 }
  | .plan i => (planned i).map fun _ => d
  | .observe someAvg10 fullAvg10 interventionActive weightSecs =>
      some { d with
        calibrator := d.calibrator.observe someAvg10 fullAvg10 interventionActive weightSecs }
  | .suggest => (suggest d.calibrator).map fun _ => d

/-- Nothing happens after a panic. -/
def step (d : Daemon) (e : Event) : Daemon := (stepChecked d e).getD d

/-- No step of the run overflows. -/
def NeverOverflows (frozen : FrozenRegistry) (state : CalibratorState) (events : List Event) :
    Prop :=
  EveryStep step (fun d e => (stepChecked d e).isSome = true) (boot frozen state) events

/-- The numbers of the event fit where they are used, if they are. -/
def Within (d : Daemon) : Event → Prop
  | .idlePass i => Weighs i → FloorFits i.idleCfg
  | .leakCycle cfg p procs now => Reaps cfg p d.leak procs now → CooldownFits p now
  | .spikeUpdate _ _ _ _ _ => True
  | .spikeExit _ => True
  | .plan i => i.level ≠ .normal → TargetFits i
  | .observe _ _ _ _ => True
  | .suggest => MassesFit d.calibrator.state

/-! ## Which runs go through -/

theorem isSome_stepChecked_iff {d : Daemon} (hTicks : TicksFit d.spikes.spikes) (e : Event) :
    (stepChecked d e).isSome = true ↔ Within d e := by
  cases e with
  | idlePass i =>
      show (Option.map _ _).isSome = true ↔ _
      rw [Option.isSome_map]
      exact checkIdleProcessReclaim_isSome_iff i d.idle
  | leakCycle cfg p procs now =>
      show (Option.map _ _).isSome = true ↔ _
      rw [Option.isSome_map]
      exact runLeakGuardCycle_isSome_iff
  | spikeUpdate procs available p now foregroundPid =>
      obtain ⟨updated, hUpdated, -⟩ :=
        @updateSpikes_isSome p now d.spikes hTicks procs available foregroundPid
      show (Option.map _ _).isSome = true ↔ True
      rw [hUpdated]
      exact iff_of_true rfl trivial
  | spikeExit pid => exact iff_of_true rfl trivial
  | plan i =>
      show (Option.map _ _).isSome = true ↔ _
      rw [Option.isSome_map]
      exact planned_isSome_iff i
  | observe someAvg10 fullAvg10 interventionActive weightSecs => exact iff_of_true rfl trivial
  | suggest =>
      show (Option.map _ _).isSome = true ↔ _
      rw [Option.isSome_map]
      exact suggest_isSome_iff d.calibrator

/-- A step that leaves the spikes alone, whether it goes through or not. -/
theorem spikes_getD_map {α : Type} {d : Daemon} {f : α → Daemon}
    (h : ∀ a, (f a).spikes = d.spikes) (x : Option α) :
    ((x.map f).getD d).spikes = d.spikes := by
  cases x with
  | none => rfl
  | some a => exact h a

/-- Only spike mode changes its spikes. -/
theorem ticksFit_step {d : Daemon} (hTicks : TicksFit d.spikes.spikes) (e : Event) :
    TicksFit (step d e).spikes.spikes := by
  have hKept : (step d e).spikes = d.spikes → TicksFit (step d e).spikes.spikes := by
    intro hSame
    rw [hSame]
    exact hTicks
  cases e with
  | idlePass i =>
      exact hKept (spikes_getD_map (f := fun pass : IdlePass => { d with idle := pass.state })
        (fun _ => rfl) _)
  | leakCycle cfg p procs now =>
      exact hKept (spikes_getD_map (f := fun cycle : LeakCycle => { d with leak := cycle.tracker })
        (fun _ => rfl) _)
  | spikeUpdate procs available p now foregroundPid =>
      obtain ⟨updated, hUpdated, hFit⟩ :=
        @updateSpikes_isSome p now d.spikes hTicks procs available foregroundPid
      unfold step stepChecked
      dsimp only
      rw [hUpdated]
      exact hFit
  | spikeExit pid => exact hTicks.onSpikeExit pid
  | plan i => exact hKept (spikes_getD_map (fun _ => rfl) _)
  | observe someAvg10 fullAvg10 interventionActive weightSecs => exact hTicks
  | suggest => exact hKept (spikes_getD_map (fun _ => rfl) _)

/--
**Which numbers the daemon survives.**  From every calibration state and with
every configuration, a run goes through without an overflow exactly when

* an idle pass that compares the size of some background process has a floor that
  fits in KB,
* a leak-guard cycle that reaps a family has a cooldown that ends on the clock,
* a plan under pressure has a target from which the available memory can be
  taken, and
* the masses fit that a suggestion sums.

Spike mode never overflows.
-/
theorem neverOverflows_iff (frozen : FrozenRegistry) (state : CalibratorState)
    (events : List Event) :
    NeverOverflows frozen state events ↔ EveryStep step Within (boot frozen state) events :=
  everyStep_iff_of_invariant (fun _ e (hTicks : TicksFit _) => ticksFit_step hTicks e)
    (fun _ e hTicks => isSome_stepChecked_iff hTicks e)
    events ticksFit_new

/-! ## Numbers that TOML has -/

/-- The largest integer of TOML. -/
def tomlMax : Nat := 2 ^ 63 - 1

/-- The integers of the configuration come from TOML, as do its floats, which may
be any; `compile` checks neither. -/
def Accepted : Event → Prop
  | .idlePass i => i.idleCfg.rssMinMb ≤ tomlMax
  | .leakCycle _ p _ _ => p.cooldownSec ≤ tomlMax
  | _ => True

/-- `from_state` keeps the state. -/
def AcceptedState (state : CalibratorState) : Prop :=
  ∀ hist ∈ [state.benignSecs, state.stallSecs, state.fullSecs],
    hist.length = bins ∧ ∀ secs ∈ hist, secs ≤ tomlMax

instance (state : CalibratorState) : Decidable (AcceptedState state) :=
  inferInstanceAs (Decidable (∀ _ ∈ _, _))

/-- Tasks of a program without a rule. -/
def idleTask : Process where
  pid := ⟨3000⟩
  name := "task"
  exeBasename := some "task"
  rssKb := Kb.clamp 500000
  swapKb := Kb.clamp 0
  oomScore := 0
  cgroupPath := none
  cpuPct := 0
  majflt := 0
  cmdline := "task"

/-- `rss_min_mb = 18014398509481984`, which is 2⁶⁴ in KB. -/
def hugeFloor : IdleInput where
  cfg := CompiledConfig.ofEmpty 15
  idleCfg :=
    { maxSwapOccupancyPct := 50
      idleSec := 300
      rssMinMb := 2 ^ 54
      reclaimPct := 30
      importantEnabled := false
      importantMinPriority := 20
      importantIdleSec := 600
      importantPct := 10 }
  freezeAfterSec := none
  planProcs := [idleTask]
  activePid := none
  meminfo := ⟨Kb.clamp 4000000, Kb.clamp 16000000, Kb.clamp 0, Kb.clamp 0⟩
  clock :=
    { select := fun _ => Instant.ofSecs 1000
      start := fun _ => Instant.ofSecs 1000
      reset := fun _ => Instant.ofSecs 1000
      freezeEnter := fun _ => Instant.ofSecs 1000
      freezeRead := fun _ => Instant.ofSecs 1000 }
  unixNow := 1700000000
  fs :=
    { hasSubdir := fun _ => none
      hasReclaim := fun _ => false
      mayWrite := fun _ => false
      answer := fun _ _ => none }
  kill _ _ := none
  startTimes := ⟨fun _ => some 50, fun _ => some 50, fun _ => some 50⟩
  others _ frozen := frozen

/-- `cooldown_sec = 9223372036854775807`, and a guard that reaps at once. -/
def endlessCooldown : LeakGuardConfig where
  enabled := true
  exclude := []
  windowSec := 600
  minGroupCount := 1
  minGroupRss := Kb.clamp 0
  growthOverWindow := 0
  minSamples := 1
  keepNewest := 0
  cooldownSec := 2 ^ 63 - 1

/-- `target_available_pct = -inf` -/
def noTarget : PlanInput where
  level := .elevated
  procs := []
  availableKb := Kb.clamp 4000000
  totalKb := Kb.clamp 16000000
  swapExhausted := false
  cfg := CompiledConfig.ofEmpty 15
  targetAvailablePct := .negInf
  env := ⟨none, fun _ => Kb.clamp 0, fun _ => false⟩
  available_lt := by decide
  rss_lt := by simp

/-- A file with the largest integer in three bins of stalls. -/
def fullStalls : CalibratorState :=
  { CalibratorState.default with
    stallSecs := tomlMax :: tomlMax :: tomlMax :: List.replicate 97 0 }

theorem hugeFloor_weighs : Weighs hugeFloor := by
  refine ⟨by decide +kernel, Or.inl ⟨by decide +kernel, idleTask, List.mem_singleton.mpr rfl, ?_⟩⟩
  decide +kernel

theorem endlessCooldown_reaps :
    Reaps (CompiledConfig.ofEmpty 15) endlessCooldown LeakTracker.new [idleTask]
      (Instant.ofSecs 1000) :=
  ⟨rfl, "task", by decide +kernel⟩

/-- Three largest bins are more than `u64` has. -/
theorem not_massesFit_fullStalls : ¬ MassesFit (Calibrator.fromState fullStalls).state := by
  decide +kernel

theorem not_neverOverflows {frozen : FrozenRegistry} {state : CalibratorState} {e : Event}
    (h : ¬ Within (boot frozen state) e) : ¬ NeverOverflows frozen state [e] :=
  fun hRun => h ((neverOverflows_iff frozen state [e]).mp hRun).1

/-- With one such number the first use of it overflows. -/
theorem accepted_numbers_overflow :
    ¬ (∀ frozen state events, AcceptedState state → (∀ e ∈ events, Accepted e) →
      NeverOverflows frozen state events) ∧
    (∀ e ∈ [Event.idlePass hugeFloor, .plan noTarget,
        .leakCycle (CompiledConfig.ofEmpty 15) endlessCooldown [idleTask] (Instant.ofSecs 1000)],
      Accepted e ∧ ¬ NeverOverflows FrozenRegistry.new CalibratorState.default [e]) ∧
    AcceptedState fullStalls ∧ ¬ NeverOverflows FrozenRegistry.new fullStalls [.suggest] := by
  have hStalls : ¬ NeverOverflows FrozenRegistry.new fullStalls [.suggest] :=
    not_neverOverflows not_massesFit_fullStalls
  have hState : AcceptedState fullStalls := by
    decide +kernel
  refine ⟨fun hAll => hStalls (hAll _ _ _ hState fun e he => ?_), ?_, hState, hStalls⟩
  · rw [List.mem_singleton.mp he]
    trivial
  · have hFloor : ¬ FloorFits hugeFloor.idleCfg := by decide
    have hTarget : ¬ TargetFits noTarget := by decide
    have hCooldown : ¬ CooldownFits endlessCooldown (Instant.ofSecs 1000) := by decide
    simp only [List.forall_mem_cons]
    refine ⟨⟨?_, ?_⟩, ⟨trivial, ?_⟩, ⟨?_, ?_⟩, fun e he => by cases he⟩
    · show 2 ^ 54 ≤ tomlMax
      decide
    · exact not_neverOverflows fun hWithin => hFloor (hWithin hugeFloor_weighs)
    · exact not_neverOverflows fun hWithin => hTarget (hWithin (by decide))
    · show 2 ^ 63 - 1 ≤ tomlMax
      decide
    · exact not_neverOverflows fun hWithin => hCooldown (hWithin endlessCooldown_reaps)

end Mgd.Overflow
