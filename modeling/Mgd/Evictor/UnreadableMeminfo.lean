import Mgd.Evictor.CollectiveRelease
import Mgd.Evictor.IdleFreeze
import Mgd.Evictor.Run
import Mgd.Recovery

/-!
# A cycle without memory readings

When `/proc/meminfo` cannot be read, `read_meminfo` returns zero for every
value.  The planner then sees no deficit, the swap overrides see a machine
without swap, and the recovery thread sees no room: `unreadable_is_safe` says
that they do nothing.

The idle pass asks for free swap and takes a machine without a reading for one
without swap, where its gate is open: it signals the processes it would signal
at any reading that lets it run.

What does not ask for memory goes on as at any reading: the process that gets
the focus is resumed, and victims that are due are released.
-/

namespace Mgd.Evictor.UnreadableMeminfo

open Mgd.Types Mgd.Monitor Mgd.Config Mgd.Lib.AssocMap Mgd.Engine.Planner
open Mgd.Executor.Registry Mgd.SpikeMode Mgd.Recovery
open Mgd.Evictor.Scoring Mgd.Evictor.Sensing Mgd.Evictor.Spike Mgd.Evictor.Execute
open Mgd.Evictor.Run Mgd.Evictor.CollectiveRelease Mgd.Evictor.IdleReclaim
open Mgd.Evictor.IdleFreeze

/-- What `read_meminfo` returns when the file cannot be read. -/
def unreadable : MemInfo where
  availableKb := Kb.clamp 0
  totalKb := Kb.clamp 0
  swapFreeKb := Kb.clamp 0
  swapTotalKb := Kb.clamp 0

/-! ## The planner and the executor -/

/-- The calls a full cycle makes to the action sink. -/
def cycleCalls (e : LoopState) (c : FullCycle) : List SinkCall :=
  if effectiveLevel e c = .normal then []
  else (execution (beforePlan e c) c (effectiveLevel e c)).state.calls

theorem deficit_of_zero (targetAvailablePct : ℚ) :
    calculateRamDeficitKb (Kb.clamp 0) (Kb.clamp 0) targetAvailablePct = 0 := by
  have hZero : (Kb.clamp 0).val = 0 := by decide
  have hTrunc : truncI64 0 = 0 := by decide +kernel
  unfold calculateRamDeficitKb
  dsimp only
  rw [hZero, Nat.cast_zero, zero_mul, hTrunc]
  rfl

theorem decided_of_unreadable (e : LoopState) {c : FullCycle}
    (h : c.sample.meminfo = unreadable) (level : PressureLevel) : decided e c level = [] := by
  have hDeficit := deficit_of_zero c.cfg.targetAvailablePct
  unfold decided planned
  rw [h]
  dsimp only [unreadable]
  rw [hDeficit]
  simp

theorem execution_of_unreadable (e : LoopState) {c : FullCycle}
    (h : c.sample.meminfo = unreadable) (level : PressureLevel) :
    (execution e c level).executed = [] ∧ (execution e c level).state.calls = [] := by
  unfold execution
  rw [decided_of_unreadable e h level]
  exact ⟨rfl, rfl⟩

/-! ## The swap overrides -/

theorem overrides_without_swap (level : PressureLevel) (swapUsedPct : ℚ)
    (sustained : Option Instant) (now : Instant) :
    (applySwapOverrides level swapUsedPct (Kb.clamp 0) sustained now).1 = level ∧
      (level = .emergency →
        (applySwapOverrides level swapUsedPct (Kb.clamp 0) sustained now).2 = sustained) := by
  have hForced : forceCritical level swapUsedPct (Kb.clamp 0) = level := by
    have hNoSwap : ¬ (swapExhausted swapUsedPct (Kb.clamp 0) = true ∧ level < .critical) := by
      simp [swapExhausted, show (Kb.clamp 0).val = 0 by decide]
    exact if_neg hNoSwap
  have hTimer : sustainedAfter level swapUsedPct (Kb.clamp 0) sustained now =
      if .emergency ≤ level then sustained else none := by
    simp [sustainedAfter, show (Kb.clamp 0).val = 0 by decide]
  unfold applySwapOverrides
  dsimp only
  rw [hForced, hTimer]
  split
  · next hEmergency =>
      have hNot : ¬ level < .emergency := not_lt_of_ge hEmergency
      refine ⟨?_, fun _ => rfl⟩
      cases sustained with
      | none => rfl
      | some start => simp [escalateSustained, hNot]
  · next hBelow =>
      refine ⟨rfl, fun hLevel => ?_⟩
      rw [hLevel] at hBelow
      exact absurd (le_refl _) hBelow

/-! ## What does not ask for memory -/

/-- The cycle with another memory reading. -/
def withMeminfo (c : FullCycle) (m : MemInfo) : FullCycle :=
  { c with sample := { c.sample with meminfo := m } }

/-- The process the gate resumes because it got the focus. -/
def resumedOnFocus (e : LoopState) (c : FullCycle) : Option Pid :=
  if activePidChanged e c then
    c.activePid.filter fun apid =>
      (c.othersAtGate e.frozen).isFrozen apid &&
        contDelivered c.kill c.startTime apid ((c.othersAtGate e.frozen).startTime apid)
  else none

/-- Such a process leaves the registry. -/
theorem focusUnfreeze_of_resumed {e : LoopState} {c : FullCycle} {pid : Pid}
    (h : resumedOnFocus e c = some pid) :
    focusUnfreeze e c = (c.othersAtGate e.frozen).remove pid := by
  unfold resumedOnFocus at h
  split at h
  · next hChanged =>
      obtain ⟨hActive, hResumed⟩ := Option.filter_eq_some_iff.mp h
      rw [Bool.and_eq_true] at hResumed
      have hSuccess : (unfreezeChecked c.kill c.startTime pid
          ((c.othersAtGate e.frozen).startTime pid)).success = true := by
        have hDelivered := hResumed.2
        unfold contDelivered at hDelivered
        rw [Bool.and_eq_true] at hDelivered
        exact hDelivered.2
      unfold focusUnfreeze
      rw [if_pos hChanged, hActive]
      dsimp only
      rw [if_pos hResumed.1, if_pos hSuccess]
  · cases h

/-- Otherwise the registry keeps every process that is still there. -/
theorem focusUnfreeze_of_none {e : LoopState} {c : FullCycle} {pid : Pid}
    (h : resumedOnFocus e c = none)
    (hThere : c.startTime pid = some ((c.othersAtGate e.frozen).startTime pid)) :
    (focusUnfreeze e c).isFrozen pid = (c.othersAtGate e.frozen).isFrozen pid := by
  unfold resumedOnFocus at h
  unfold focusUnfreeze
  split
  · next hChanged =>
      rw [if_pos hChanged] at h
      cases hActive : c.activePid with
      | none => rfl
      | some apid =>
          dsimp only
          split
          · next hFrozen =>
              split
              · next hSuccess =>
                  by_cases hSame : pid = apid
                  · subst hSame
                    simp [hActive, hFrozen, contDelivered, hThere, hSuccess] at h
                  · unfold FrozenRegistry.isFrozen
                    rw [FrozenRegistry.lookup_remove, if_neg hSame]
              · rfl
          · rfl
  · rfl

theorem fullCycle_spikeTracker (e : LoopState) (c : FullCycle) :
    (fullCycle e c).spikeTracker =
      (runSpikeCycle e.spikeTracker
        (spikeInput (throttleGate (senseLevel e c) c (effectiveLevel e c)) c)).1 := by
  have hPlan : (fullCycle e c).spikeTracker = (beforePlan e c).spikeTracker := by
    unfold fullCycle planAndExecute
    split <;> rfl
  have hGate : (throttleGate (senseLevel e c) c (effectiveLevel e c)).spikeTracker =
      e.spikeTracker := by
    unfold throttleGate
    split <;> rfl
  rw [hPlan, ← hGate]
  rfl

/-- A cycle that ends without a Tracking spike has frozen no victim. -/
theorem victim_was_before {t : SpikeTracker} {inp : SpikeInput} {pid : Pid} {v : SpikeVictim}
    (hNone : anyTracking (runSpikeCycle t inp).1.spikes = false)
    (h : (runSpikeCycle t inp).1.victims.lookup pid = some v) :
    t.victims.lookup pid = some v := by
  unfold runSpikeCycle at h hNone
  dsimp only at h hNone
  rw [foldl_executeDecision_spikes] at hNone
  cases foldl_executeDecision_lookup h with
  | inl hDecided => exact of_releaseVictims_lookup (of_spikeDecisions_lookup hDecided)
  | inr hFrozen =>
      obtain ⟨-, needed, hMem⟩ := hFrozen
      unfold spikeDecisions at hMem hNone
      split at hMem
      · next hEnabled =>
          rw [if_pos hEnabled, update_tracking, update_headroom _ _ _ _ hMem] at hNone
          cases hNone
      · exact absurd hMem List.not_mem_nil

/-- A calm tick without a Tracking spike at its end has frozen no victim
either. -/
theorem calm_victim_was_before {e : LoopState} {t : IdleTick} {pid : Pid} {v : SpikeVictim}
    (hNone : anyTracking (idleTimeoutReclaim e t).spikeTracker.spikes = false)
    (h : (idleTimeoutReclaim e t).spikeTracker.victims.lookup pid = some v) :
    e.spikeTracker.victims.lookup pid = some v := by
  have hTracker : (idleTimeoutReclaim e t).spikeTracker =
      (runSpikeCycle e.spikeTracker (idleSpikeInput e t)).1 := by
    unfold idleTimeoutReclaim
    dsimp only
    split
    · rfl
    · split <;> rfl
  rw [hTracker] at hNone h
  exact victim_was_before hNone h

/-! ## The idle pass -/

section IdlePass

variable {i : IdleInput}

/-- The pass with another memory reading. -/
def passWithMeminfo (i : IdleInput) (m : MemInfo) : IdleInput := { i with meminfo := m }

/-- Two passes that have signalled alike, with the same registry and the same
freeze clocks. -/
structure Alike (a b : IdlePass) : Prop where
  signals : a.signals = b.signals
  frozen : a.state.frozen = b.state.frozen
  clocks : a.state.freezePidTracker = b.state.freezePidTracker

theorem alike_freezeIdle {a b : IdlePass} (h : Alike a b) (p : Process) :
    Alike (i.freezeIdle p a).1 (i.freezeIdle p b).1 ∧
      (i.freezeIdle p a).2 = (i.freezeIdle p b).2 := by
  unfold IdleInput.freezeIdle
  rw [h.signals, h.frozen, h.clocks]
  split
  · exact ⟨h, rfl⟩
  · split
    · dsimp only
      split
      · exact ⟨⟨rfl, rfl, rfl⟩, rfl⟩
      · exact ⟨⟨rfl, rfl, h.clocks⟩, rfl⟩
    · exact ⟨h, rfl⟩

/-- The freeze loop does not look at the memory reading, nor at what the reclaim
in front of it has written. -/
theorem alike_idleFreeze (m : MemInfo) (freezeSecs freezeCount : Nat) (procs : List Process)
    {a b : IdlePass} (h : Alike a b) :
    Alike (i.idleFreeze freezeSecs freezeCount procs a)
      ((passWithMeminfo i m).idleFreeze freezeSecs freezeCount procs b) := by
  induction procs generalizing freezeCount a b with
  | nil => exact h
  | cons p rest ih =>
      unfold IdleInput.idleFreeze
      rw [h.clocks]
      by_cases hFull : freezeCount ≥ 2
      · rw [if_pos hFull, if_pos hFull]
        exact h
      rw [if_neg hFull, if_neg hFull]
      by_cases hActive : some p.pid = i.activePid
      · have hActive' : some p.pid = (passWithMeminfo i m).activePid := hActive
        rw [if_pos hActive, if_pos hActive']
        exact ih _ h
      have hActive' : ¬ some p.pid = (passWithMeminfo i m).activePid := hActive
      rw [if_neg hActive, if_neg hActive']
      by_cases hSmall : p.rssKb.val < i.idleCfg.rssMinKb
      · have hSmall' : p.rssKb.val < (passWithMeminfo i m).idleCfg.rssMinKb := hSmall
        rw [if_pos hSmall, if_pos hSmall']
        exact ih _ h
      have hSmall' : ¬ p.rssKb.val < (passWithMeminfo i m).idleCfg.rssMinKb := hSmall
      rw [if_neg hSmall, if_neg hSmall']
      generalize hClock : IdleInput.orInsert b.state.freezePidTracker p.pid
        (i.clock.freezeEnter p.pid) = tracker
      have hClock' : IdleInput.orInsert b.state.freezePidTracker p.pid
          ((passWithMeminfo i m).clock.freezeEnter p.pid) = tracker := hClock
      rw [hClock']
      dsimp only
      have hClocked : Alike { a with state := { a.state with freezePidTracker := tracker } }
          { b with state := { b.state with freezePidTracker := tracker } } :=
        ⟨h.signals, h.frozen, rfl⟩
      by_cases hYoung : idleSecs tracker i.clock.freezeRead p.pid < freezeSecs
      · have hYoung' : idleSecs tracker (passWithMeminfo i m).clock.freezeRead p.pid <
          freezeSecs := hYoung
        rw [if_pos hYoung, if_pos hYoung']
        exact ih _ hClocked
      have hYoung' : ¬ idleSecs tracker (passWithMeminfo i m).clock.freezeRead p.pid <
          freezeSecs := hYoung
      rw [if_neg hYoung, if_neg hYoung']
      obtain ⟨hAfter, hCounts⟩ := alike_freezeIdle (i := i) hClocked p
      rw [hCounts]
      exact ih _ hAfter

/-- The gate of the pass is open on a machine without swap. -/
theorem swapTooFull_of_unreadable (h : i.meminfo = unreadable) : i.swapTooFull = false := by
  unfold IdleInput.swapTooFull
  rw [h]
  rfl

/-- The pass when its freeze loop starts. -/
def beforeFreeze (i : IdleInput) (s : IdleState) : IdlePass :=
  let started : IdleState :=
    { s with pidTracker := i.planProcs.foldl i.startClock (i.liveClocks s.pidTracker) }
  let reclaimed := ((i.candidates s).take 3).foldl i.reclaimCandidate ⟨started, [], []⟩
  { reclaimed with
    state := { reclaimed.state with
      freezePidTracker := i.liveClocks reclaimed.state.freezePidTracker } }

theorem check_of_gate_open (s : IdleState) (hOpen : i.swapTooFull = false) :
    checkIdleProcessReclaim i s =
      match i.freezeAfterSec with
      | none => beforeFreeze i s
      | some freezeSecs => i.idleFreeze freezeSecs 0 i.planProcs (beforeFreeze i s) := by
  unfold checkIdleProcessReclaim
  rw [hOpen, if_neg Bool.false_ne_true]
  rfl

/-- The reclaim has signalled nobody and frozen nobody. -/
theorem beforeFreeze_frame (i : IdleInput) (s : IdleState) :
    (beforeFreeze i s).signals = [] ∧ (beforeFreeze i s).state.frozen = s.frozen ∧
      (beforeFreeze i s).state.freezePidTracker = i.liveClocks s.freezePidTracker := by
  unfold beforeFreeze
  obtain ⟨hSignals, hClocks, hFrozen⟩ :=
    foldl_reclaimCandidate_frame (i := i) ((i.candidates s).take 3)
      ⟨{ s with pidTracker := i.planProcs.foldl i.startClock (i.liveClocks s.pidTracker) }, [], []⟩
  refine ⟨hSignals, hFrozen, ?_⟩
  dsimp only at hClocks ⊢
  rw [hClocks]

/-- Two readings that both let the pass run lead to the same freezes. -/
theorem alike_of_gate_open (m : MemInfo) (s : IdleState) (hOpen : i.swapTooFull = false)
    (hOpen' : (passWithMeminfo i m).swapTooFull = false) :
    Alike (checkIdleProcessReclaim i s) (checkIdleProcessReclaim (passWithMeminfo i m) s) := by
  rw [check_of_gate_open s hOpen, check_of_gate_open s hOpen']
  obtain ⟨hSignals, hFrozen, hClocks⟩ := beforeFreeze_frame i s
  obtain ⟨hSignals', hFrozen', hClocks'⟩ := beforeFreeze_frame (passWithMeminfo i m) s
  have hBefore : Alike (beforeFreeze i s) (beforeFreeze (passWithMeminfo i m) s) :=
    ⟨hSignals.trans hSignals'.symm, hFrozen.trans hFrozen'.symm, hClocks.trans hClocks'.symm⟩
  have hAfter : (passWithMeminfo i m).freezeAfterSec = i.freezeAfterSec := rfl
  rw [hAfter]
  cases i.freezeAfterSec with
  | none => exact hBefore
  | some freezeSecs => exact alike_idleFreeze m freezeSecs 0 i.planProcs hBefore

end IdlePass

/-! ## The recovery thread -/

/-- The baseline after the readings it has observed. -/
def observed (readings : List Kb) : HealthBaseline :=
  readings.foldl HealthBaseline.observe HealthBaseline.new

theorem observe_nonneg {b : HealthBaseline} (h : 0 ≤ b.avgAvailableKb) (available : Kb) :
    0 ≤ (b.observe available).avgAvailableKb := by
  have hReading : (0 : ℚ) ≤ available.val := Nat.cast_nonneg _
  unfold HealthBaseline.observe
  dsimp only
  split
  · exact hReading
  · have hNew : (0 : ℚ) ≤ 5 / 100 * available.val := mul_nonneg (by decide +kernel) hReading
    have hOld : (0 : ℚ) ≤ (1 - 5 / 100) * b.avgAvailableKb := mul_nonneg (by decide +kernel) h
    exact add_nonneg hNew hOld

theorem observed_nonneg (readings : List Kb) : 0 ≤ (observed readings).avgAvailableKb := by
  have hFold : ∀ b : HealthBaseline, 0 ≤ b.avgAvailableKb →
      0 ≤ (readings.foldl HealthBaseline.observe b).avgAvailableKb := by
    induction readings with
    | nil => exact fun b hb => hb
    | cons available rest ih => exact fun b hb => ih _ (observe_nonneg hb available)
  exact hFold HealthBaseline.new (le_refl 0)

/-- Zero available memory leaves room for nothing. -/
theorem not_safeToRestore {b : HealthBaseline} (h : 0 ≤ b.avgAvailableKb) (processRss : Kb) :
    b.safeToRestore (Kb.clamp 0) (Kb.clamp 0) processRss = false := by
  have hZero : (Kb.clamp 0).val = 0 := by decide
  have hAfter : ((Kb.clamp 0).saturatingSub processRss).val = 0 := by
    unfold Kb.saturatingSub
    rw [hZero, Nat.zero_sub]
    exact hZero
  unfold HealthBaseline.safeToRestore
  dsimp only
  rw [hAfter]
  split
  · simp
  · rw [decide_eq_false_iff_not, Nat.cast_zero, gt_iff_lt, not_lt]
    exact mul_nonneg h (by decide +kernel)

theorem unfreezePass_of_unreadable {tick : RecoveryTick} (hTick : tick.meminfo = unreadable)
    {b : HealthBaseline} (h : 0 ≤ b.avgAvailableKb) (reg : FrozenRegistry) :
    unfreezePass tick b reg = (reg, []) := by
  unfold unfreezePass
  cases reg.frozenPids with
  | nil => rfl
  | cons pid rest =>
      have hUnsafe : b.safeToRestore tick.meminfo.availableKb tick.meminfo.totalKb
          (Kb.clamp 0) = false := by
        rw [hTick]
        exact not_safeToRestore h _
      unfold unfreezeLoop
      rw [if_pos hUnsafe, ite_self]

theorem restorePass_of_unreadable {tick : RecoveryTick}
    (hTick : tick.meminfoAtRestore = unreadable) {b : HealthBaseline}
    (h : 0 ≤ b.avgAvailableKb) (reg : CheckpointRegistry) : (restorePass tick b reg).2 = none := by
  unfold restorePass
  split
  · rfl
  · next pid entry rest hEntries =>
      split
      · rfl
      · have hUnsafe : b.safeToRestore tick.meminfoAtRestore.availableKb
            tick.meminfoAtRestore.totalKb entry.rss = false := by
          rw [hTick]
          exact not_safeToRestore h _
        rw [if_neg (Bool.eq_false_iff.mp hUnsafe)]

theorem recover_of_unreadable {tick : RecoveryTick} (hFirst : tick.meminfo = unreadable)
    (hSecond : tick.meminfoAtRestore = unreadable) (readings : List Kb) (frozen : FrozenRegistry)
    (checkpointed : CheckpointRegistry) :
    (recover tick (observed readings) frozen checkpointed).resumed = [] ∧
      (recover tick (observed readings) frozen checkpointed).restored = none ∧
      (recover tick (observed readings) frozen checkpointed).frozen = frozen := by
  have hBaseline := observe_nonneg (observed_nonneg readings) tick.meminfo.availableKb
  unfold recover
  split
  · dsimp only
    rw [unfreezePass_of_unreadable hFirst hBaseline]
    exact ⟨rfl, restorePass_of_unreadable hSecond hBaseline checkpointed, rfl⟩
  · exact ⟨rfl, rfl, rfl⟩

/-! ## The cycle as a whole -/

/--
**An unreadable `/proc/meminfo` is safe.**  In a full cycle that reads all
zeros the planner decides nothing and the executor makes no call; the swap
overrides leave the level as the state machine has it and, at its Emergency, the
timer as it was; and the spike-mode cycle, here and at a calm tick, freezes
nobody unless it ends with a Tracking spike.  The idle pass signals whom it
would signal at any reading that lets it run, with the same registry after it.
A recovery cycle resumes and restores nobody and keeps the registry.  The focus
unfreeze and the release of victims are the same at every reading.
-/
theorem unreadable_is_safe :
    (∀ (e : LoopState) (c : FullCycle), c.sample.meminfo = unreadable →
      cycleDecisions e c = [] ∧ cycleExecuted e c = [] ∧ cycleCalls e c = [] ∧
      effectiveLevel e c = (e.controller.advanced c.sample).1.current.toPressureLevel ∧
      ((e.controller.advanced c.sample).1.current = .emergency →
        (fullCycle e c).controller.sustainedCriticalSwapStart =
          e.controller.sustainedCriticalSwapStart) ∧
      (anyTracking (fullCycle e c).spikeTracker.spikes = false →
        ∀ pid v, (fullCycle e c).spikeTracker.victims.lookup pid = some v →
          e.spikeTracker.victims.lookup pid = some v)) ∧
    (∀ (e : LoopState) (t : IdleTick), t.available = unreadable.availableKb →
      anyTracking (idleTimeoutReclaim e t).spikeTracker.spikes = false →
        ∀ pid v, (idleTimeoutReclaim e t).spikeTracker.victims.lookup pid = some v →
          e.spikeTracker.victims.lookup pid = some v) ∧
    (∀ (i : IdleInput) (s : IdleState), i.meminfo = unreadable →
      ∀ m, (passWithMeminfo i m).swapTooFull = false →
        (checkIdleProcessReclaim i s).signals =
            (checkIdleProcessReclaim (passWithMeminfo i m) s).signals ∧
          (checkIdleProcessReclaim i s).state.frozen =
            (checkIdleProcessReclaim (passWithMeminfo i m) s).state.frozen) ∧
    (∀ (tick : RecoveryTick), tick.meminfo = unreadable → tick.meminfoAtRestore = unreadable →
      ∀ (readings : List Kb) (frozen : FrozenRegistry) (checkpointed : CheckpointRegistry),
        (recover tick (observed readings) frozen checkpointed).resumed = [] ∧
        (recover tick (observed readings) frozen checkpointed).restored = none ∧
        (recover tick (observed readings) frozen checkpointed).frozen = frozen) ∧
    (∀ (e : LoopState) (c : FullCycle) (m : MemInfo),
      resumedOnFocus e (withMeminfo c m) = resumedOnFocus e c ∧
        focusUnfreeze e (withMeminfo c m) = focusUnfreeze e c) ∧
    (∀ (t : SpikeTracker) (inp : SpikeInput) (available : Kb),
      releaseVictims t { inp with available := available } = releaseVictims t inp) := by
  refine ⟨fun e c h => ?_, fun e t _ hNone pid v hVictim => calm_victim_was_before hNone hVictim,
    fun i s h m hOpen => ?_, fun tick hFirst hSecond readings frozen checkpointed =>
    recover_of_unreadable hFirst hSecond readings frozen checkpointed,
    fun _ _ _ => ⟨rfl, rfl⟩, fun _ _ _ => rfl⟩
  · have hExecution := execution_of_unreadable (beforePlan e c) h (effectiveLevel e c)
    have hOverrides := overrides_without_swap
      (e.controller.advanced c.sample).1.current.toPressureLevel c.sample.meminfo.swapUsedPct
      e.controller.sustainedCriticalSwapStart c.sample.now
    have hSwap : c.sample.meminfo.swapTotalKb = Kb.clamp 0 := by rw [h]; rfl
    rw [← hSwap] at hOverrides
    refine ⟨decided_of_unreadable (beforePlan e c) h _, ?_, ?_, hOverrides.1, fun hEmergency => ?_,
      fun hNone pid v hVictim => ?_⟩
    · unfold cycleExecuted
      split
      · rfl
      · exact hExecution.1
    · unfold cycleCalls
      split
      · rfl
      · exact hExecution.2
    · have hController : (fullCycle e c).controller = e.controller.sense c.sample :=
        step_controller e (.cycle c)
      rw [hController]
      refine hOverrides.2 ?_
      rw [hEmergency]
      rfl
    · rw [fullCycle_spikeTracker] at hNone hVictim
      exact victim_was_before hNone hVictim
  · have hAlike := alike_of_gate_open m s (swapTooFull_of_unreadable h) hOpen
    exact ⟨hAlike.signals, hAlike.frozen⟩

/-! ## A busy machine -/

/-- A loop at Emergency whose swap timer runs. -/
def atEmergency : LoopState :=
  { LoopState.new .first with
    controller :=
      { Controller.new 0 0 0 with
        stateMachine := ⟨.emergency, .emergency, 0⟩
        sustainedCriticalSwapStart := some 0 } }

/-- An editor of 600 MB that the planner ends at Emergency. -/
def editorCycle : FullCycle :=
  plainCycle
    { CompiledConfig.ofEmpty 15 with entries := [⟨Regex.exact "kate", 30, none⟩] }
    [appProcess 700 "kate" "/user.slice/app-kate.scope" 600000] 5 (tightSample 60 5 0)

/-- A calm tick of the recovery thread, a minute after the freeze. -/
def quietTick (meminfo : MemInfo) : RecoveryTick where
  pressure := some ⟨0, 0⟩
  cfg := CompiledConfig.ofEmpty 15
  meminfo := meminfo
  meminfoAtRestore := meminfo
  now := 60
  startTime := fun _ => some 100
  kill := fun _ _ => none
  restore := fun _ => true

/-- 8 GB of 16 GB available, and half of 4 GB of swap free. -/
def roomy : MemInfo where
  availableKb := Kb.clamp 8000000
  totalKb := Kb.clamp 16000000
  swapFreeKb := Kb.clamp 2000000
  swapTotalKb := Kb.clamp 4000000

def frozenEditor : FrozenRegistry :=
  ⟨(∅ : Map Pid FrozenEntry).insert ⟨700⟩ ⟨"kate", 0, 100⟩⟩

def dumpedGame : CheckpointRegistry :=
  CheckpointRegistry.new.add ⟨800⟩ "game" "/snapshots/800" (Kb.clamp 500000)

/-- A machine with something to do for the planner, the idle pass and the
recovery thread, and what they do when the reading fails. -/
theorem unreadable_is_safe_at_emergency :
    (cycleDecisions atEmergency editorCycle ≠ [] ∧
      cycleDecisions atEmergency (withMeminfo editorCycle unreadable) = [] ∧
      (fullCycle atEmergency
        (withMeminfo editorCycle unreadable)).controller.sustainedCriticalSwapStart = some 0) ∧
    ((recover (quietTick roomy) (observed [roomy.availableKb]) frozenEditor dumpedGame).resumed =
        [⟨700⟩] ∧
      (recover (quietTick roomy) (observed [roomy.availableKb]) frozenEditor dumpedGame).restored =
        some ⟨800⟩ ∧
      (recover (quietTick unreadable) (observed [roomy.availableKb]) frozenEditor
        dumpedGame).resumed = [] ∧
      (recover (quietTick unreadable) (observed [roomy.availableKb]) frozenEditor
        dumpedGame).restored = none) ∧
    ((checkIdleProcessReclaim (passWithMeminfo (compositorPass none) roomy) agedClock).signals =
        [(⟨700⟩, .stop)] ∧
      (checkIdleProcessReclaim (passWithMeminfo (compositorPass none) unreadable)
        agedClock).signals = [(⟨700⟩, .stop)]) := by
  have hCycle := unreadable_is_safe.1 atEmergency (withMeminfo editorCycle unreadable) rfl
  have hIdle := unreadable_is_safe.2.2.1 (passWithMeminfo (compositorPass none) unreadable)
    agedClock rfl roomy (by decide +kernel)
  have hRecovery := unreadable_is_safe.2.2.2.1 (quietTick unreadable) rfl rfl
    [roomy.availableKb] frozenEditor dumpedGame
  have hStopped : (checkIdleProcessReclaim (passWithMeminfo (compositorPass none) roomy)
      agedClock).signals = [(⟨700⟩, .stop)] := by decide +kernel
  refine ⟨⟨by decide +kernel, hCycle.1, hCycle.2.2.2.2.1 (by decide +kernel)⟩,
    ⟨by decide +kernel, by decide +kernel, hRecovery.1, hRecovery.2.1⟩, hStopped, ?_⟩
  exact hIdle.1.trans hStopped

/-! ## A frozen process in the focus -/

/-- The editor was frozen and now gets the focus, in a cycle that reads zeros. -/
def focusCycle : FullCycle :=
  { plainCycle (CompiledConfig.ofEmpty 15) [] 5 (tightSample 0 5 0) with
    activePid := some ⟨700⟩
    othersAtGate := fun _ => ⟨(∅ : Map Pid FrozenEntry).insert ⟨700⟩ ⟨"editor", 0, 100⟩⟩ }

/-- The cycle resumes the editor, whatever the memory reading. -/
theorem unreadable_resumes_focus :
    ¬ ∀ (e : LoopState) (c : FullCycle), c.sample.meminfo = unreadable →
      resumedOnFocus e c = none := by
  intro hAll
  have hNone := hAll (LoopState.new .first) (withMeminfo focusCycle unreadable) rfl
  have hResumed : resumedOnFocus (LoopState.new .first) (withMeminfo focusCycle unreadable) =
      some ⟨700⟩ := by
    decide +kernel
  rw [hResumed] at hNone
  cases hNone

end Mgd.Evictor.UnreadableMeminfo
