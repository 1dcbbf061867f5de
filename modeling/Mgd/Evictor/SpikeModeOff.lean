import Mgd.Evictor.CpuWeights
import Mgd.ManualRelease

/-!
# Switching spike mode off

A reload that sets `spike_mode.enabled` to false stops the update of the tracker
and nothing else: `release_victims` keeps running, by rules that were made for a
tracker that is updated.  The victims are held for the Tracking spikes, which
stay Tracking; a throttle is undone by a decision of the update; and the planner
leaves every tracked spike alone.

`takesEffect_iff` says in which states and for which iterations the switch is
nevertheless complete.
-/

namespace Mgd.Evictor.SpikeModeOff

open Mgd.Types Mgd.Monitor Mgd.Config Mgd.Lib.AssocMap Mgd.Lib.Run Mgd.SpikeMode Mgd.Throttle
open Mgd.Evictor.Spike Mgd.Evictor.CpuWeights
open Mgd.Evictor.CollectiveRelease (Keyed keyed_new keyed_runSpikeCycle anyTracking_iff
  drainIfNoneTracking_lookup of_releaseRequested_lookup)
open Mgd.FocusUnfreeze (signalled releaseVictims_spikes_lookup)
open Mgd.ManualRelease (conserves_releaseVictims signalsTo)

/-! ## Iterations -/

inductive Iteration
  /-- PSI cannot be read: the iteration ends before spike mode is looked at. -/
  | psiError
  | cycle (c : Cycle)

def iterate (w : World) : Iteration → World
  | .psiError => w
  | .cycle c => CpuWeights.step w c

/-- The configuration of the iteration has spike mode switched off. -/
def SwitchedOff : Iteration → Prop
  | .psiError => True
  | .cycle c => c.spike.cfg.spikeModeEnabled = false

/-- The victims `unfreeze_checked` is called for. -/
def unfreezes (w : World) : Iteration → List SpikeVictim
  | .psiError => []
  | .cycle c => signalled w.tracker c.spike

/-- The last write to the cgroup's `cpu.weight` is the throttling one. -/
def KeepsSpikeWeight (w : World) (cg : String) : Prop := w.last cg = some .throttleSpike

instance (w : World) (cg : String) : Decidable (KeepsSpikeWeight w cg) :=
  inferInstanceAs (Decidable (w.last cg = some .throttleSpike))

/-- Nothing of spike mode is left after the iteration. -/
structure TakesEffect (w : World) (it : Iteration) : Prop where
  /-- every victim is resumed -/
  resumed : ∀ v ∈ values w.tracker.victims, v ∈ unfreezes w it
  /-- and forgotten -/
  victims : (iterate w it).tracker.victimPids = []
  weights : ∀ cg, ¬ KeepsSpikeWeight (iterate w it) cg
  /-- `plan` is kept from no process as a tracked spike -/
  spikes : (iterate w it).tracker.spikePids = []

/-- The manager writes the weight of the cgroup in this cycle. -/
def Overwrites (w : World) (c : Cycle) (cg : String) : Prop :=
  ∃ args, c.throttle = some args ∧ ∃ weight, .weight cg weight ∈ (w.throttle.update args).2

/-- No tracked spike is running, and no cgroup has the spike weight that the
manager does not write over; without a cycle, there is nothing to undo. -/
def Undone (w : World) : Iteration → Prop
  | .psiError => w.tracker.victimPids = [] ∧ w.tracker.spikePids = [] ∧
      ∀ cg, ¬ KeepsSpikeWeight w cg
  | .cycle c => (∀ pid ∈ w.tracker.spikePids, pid ∉ c.spike.procs.map Process.pid) ∧
      ∀ cg, KeepsSpikeWeight w cg → Overwrites w c cg

/-! ## The cycle while it is off -/

section Off

variable {w : World} {c : Cycle}

theorem runThrottle_tracker (w : World) (args : Option UpdateArgs) :
    (runThrottle w args).tracker = w.tracker := by
  cases args with
  | none => rfl
  | some args => rfl

/-- Only the releases run. -/
theorem runSpikeCycle_off {t : SpikeTracker} {inp : SpikeInput}
    (hOff : inp.cfg.spikeModeEnabled = false) :
    runSpikeCycle t inp = ((releaseVictims t inp).1, []) := by
  unfold runSpikeCycle spikeDecisions
  rw [hOff]
  rfl

theorem signalled_off {t : SpikeTracker} {inp : SpikeInput}
    (hOff : inp.cfg.spikeModeEnabled = false) : signalled t inp = (releaseVictims t inp).2 := by
  unfold signalled spikeDecisions
  rw [hOff]
  exact List.append_nil _

theorem step_off (hOff : c.spike.cfg.spikeModeEnabled = false) :
    (CpuWeights.step w c).tracker = (releaseVictims w.tracker c.spike).1 ∧
      (CpuWeights.step w c).last = (runThrottle w c.throttle).last := by
  unfold CpuWeights.step runSpikes
  rw [runSpikeCycle_off hOff, runThrottle_tracker]
  exact ⟨rfl, rfl⟩

/-- The running spikes are kept, whatever their phase. -/
theorem spikePids_releaseVictims_iff {t : SpikeTracker} {inp : SpikeInput} :
    (releaseVictims t inp).1.spikePids = [] ↔
      ∀ pid ∈ t.spikePids, pid ∉ inp.procs.map Process.pid := by
  unfold SpikeTracker.spikePids
  rw [List.eq_nil_iff_forall_not_mem]
  constructor
  · intro h pid hPid hLive
    obtain ⟨s, hs⟩ := mem_keys_iff.mp hPid
    refine h pid (mem_keys_iff.mpr ⟨s, ?_⟩)
    rw [releaseVictims_spikes_lookup, if_pos hLive]
    exact hs
  · intro h pid hPid
    obtain ⟨s, hs⟩ := mem_keys_iff.mp hPid
    rw [releaseVictims_spikes_lookup] at hs
    split at hs
    · next hLive => exact h pid (mem_keys_iff.mpr ⟨s, hs⟩) hLive
    · cases hs

/-- With the last spike gone the orphan sweep lets every victim go. -/
theorem releaseVictims_no_victim {t : SpikeTracker} {inp : SpikeInput}
    (hGone : (releaseVictims t inp).1.spikePids = []) (pid : Pid) :
    (releaseVictims t inp).1.victims.lookup pid = none := by
  rw [Option.eq_none_iff_forall_ne_some]
  intro v hv
  unfold releaseVictims at hv
  have hHeld := (drainIfNoneTracking_lookup (of_releaseRequested_lookup hv)).2
  obtain ⟨spike, s, hs, -⟩ := anyTracking_iff.mp hHeld
  have hMem : spike ∈ (releaseVictims t inp).1.spikePids := by
    unfold SpikeTracker.spikePids
    refine mem_keys_iff.mpr ⟨s, ?_⟩
    unfold releaseVictims
    simp only [releaseRequested_spikes, drainOrphanedVictims_spikes]
    exact hs
  rw [hGone] at hMem
  cases hMem

/-- Everyone who is gone was signalled. -/
theorem signalled_of_no_victim {t : SpikeTracker} {inp : SpikeInput} (hKeyed : Keyed t)
    (hGone : ∀ pid, (releaseVictims t inp).1.victims.lookup pid = none) {v : SpikeVictim}
    (hv : v ∈ values t.victims) : v ∈ (releaseVictims t inp).2 := by
  obtain ⟨pid, hLookup⟩ := mem_values_iff.mp hv
  have hAll := conserves_releaseVictims hKeyed inp pid
  rw [hGone pid, hLookup, Option.toList_none, List.append_nil] at hAll
  have hMem : v ∈ signalsTo pid (releaseVictims t inp).2 := by
    rw [hAll]
    exact List.mem_singleton_self v
  exact (List.mem_filter.mp hMem).1

/-- Who wrote last, after a list of writes by one of them. -/
theorem foldl_stamp (who : WeightWriter) (ws : List CpuWrite) (last : LastWriter) (cg : String) :
    (ws.foldl (LastWriter.stamp who) last) cg = last cg ∨
      (ws.foldl (LastWriter.stamp who) last) cg = some who := by
  induction ws generalizing last with
  | nil => exact Or.inl rfl
  | cons cw rest ih =>
      cases ih (LastWriter.stamp who last cw) with
      | inr hRest => exact Or.inr hRest
      | inl hRest =>
          rw [List.foldl_cons, hRest]
          cases cw with
          | max path limit => exact Or.inl rfl
          | weight path weight =>
              by_cases hPath : cg = path
              · exact Or.inr (if_pos hPath)
              · exact Or.inl (if_neg hPath)

theorem foldl_stamp_of_mem {who : WeightWriter} {ws : List CpuWrite} {cg : String} {weight : Nat}
    (hMem : .weight cg weight ∈ ws) (last : LastWriter) :
    (ws.foldl (LastWriter.stamp who) last) cg = some who := by
  induction ws generalizing last with
  | nil => cases hMem
  | cons cw rest ih =>
      cases List.mem_cons.mp hMem with
      | inr hRest => exact ih hRest _
      | inl hHere =>
          rw [List.foldl_cons, ← hHere]
          cases foldl_stamp who rest (LastWriter.stamp who last (.weight cg weight)) cg with
          | inr hRest => exact hRest
          | inl hRest => exact hRest.trans (if_pos rfl)

theorem foldl_stamp_of_not_mem {who : WeightWriter} {ws : List CpuWrite} {cg : String}
    (hNone : ∀ weight, .weight cg weight ∉ ws) (last : LastWriter) :
    (ws.foldl (LastWriter.stamp who) last) cg = last cg := by
  induction ws generalizing last with
  | nil => rfl
  | cons cw rest ih =>
      have hRest : ∀ weight, .weight cg weight ∉ rest :=
        fun weight hMem => hNone weight (List.mem_cons_of_mem cw hMem)
      rw [List.foldl_cons, ih hRest]
      cases cw with
      | max path limit => rfl
      | weight path weight =>
          exact if_neg fun hPath : cg = path => hNone weight (hPath ▸ List.mem_cons_self)

/-- A spike weight stays unless the manager writes over it. -/
theorem keepsSpikeWeight_runThrottle_iff {cg : String} :
    KeepsSpikeWeight (runThrottle w c.throttle) cg ↔
      KeepsSpikeWeight w cg ∧ ¬ Overwrites w c cg := by
  unfold KeepsSpikeWeight Overwrites
  cases hArgs : c.throttle with
  | none => simp [runThrottle]
  | some args =>
      by_cases hWritten : ∃ weight, .weight cg weight ∈ (w.throttle.update args).2
      · obtain ⟨weight, hMem⟩ := hWritten
        have hLast : (runThrottle w (some args)).last cg = some .throttleManager :=
          foldl_stamp_of_mem hMem w.last
        rw [hLast]
        refine iff_of_false (fun hEq => by cases hEq) fun h => h.2 ⟨args, rfl, weight, hMem⟩
      · have hLast : (runThrottle w (some args)).last cg = w.last cg :=
          foldl_stamp_of_not_mem (fun weight hMem => hWritten ⟨weight, hMem⟩) w.last
        rw [hLast]
        refine ⟨fun h => ⟨h, fun hOver => ?_⟩, And.left⟩
        obtain ⟨args', hSame, hMem⟩ := hOver
        cases hSame
        exact hWritten hMem

end Off

/-! ## Where a spike weight comes from -/

/-- The cgroups that get the spike weight in an iteration. -/
def throttles (w : World) : Iteration → List String
  | .psiError => []
  | .cycle c =>
      (succeeding c.sysfs (runSpikeCycle (runThrottle w c.throttle).tracker c.spike).2).filterMap
        fun
          | .throttled cg _ => some cg
          | .restored _ => none

/-- The last writer is spike mode only by a write of this list, or from before. -/
theorem foldl_stamp_spike (ws : List SpikeWrite) (last : LastWriter) {cg : String}
    (h : (ws.foldl (fun last sw => LastWriter.stamp (spikeWriter sw) last (cpuWrite sw)) last) cg =
      some .throttleSpike) :
    last cg = some .throttleSpike ∨ ∃ weight, SpikeWrite.throttled cg weight ∈ ws := by
  induction ws generalizing last with
  | nil => exact Or.inl h
  | cons sw rest ih =>
      cases ih _ h with
      | inr hRest =>
          obtain ⟨weight, hMem⟩ := hRest
          exact Or.inr ⟨weight, List.mem_cons_of_mem sw hMem⟩
      | inl hHere =>
          cases sw with
          | throttled path weight =>
              by_cases hPath : cg = path
              · exact Or.inr ⟨weight, hPath ▸ List.mem_cons_self⟩
              · exact Or.inl ((if_neg hPath).symm.trans hHere)
          | restored path =>
              by_cases hPath : cg = path
              · cases (if_pos hPath).symm.trans hHere
              · exact Or.inl ((if_neg hPath).symm.trans hHere)

theorem keepsSpikeWeight_iterate {w : World} {it : Iteration} {cg : String}
    (h : KeepsSpikeWeight (iterate w it) cg) :
    KeepsSpikeWeight w cg ∨ cg ∈ throttles w it := by
  cases it with
  | psiError => exact Or.inl h
  | cycle c =>
      cases foldl_stamp_spike _ _ h with
      | inl hBefore => exact Or.inl (keepsSpikeWeight_runThrottle_iff.mp hBefore).1
      | inr hWritten =>
          obtain ⟨weight, hMem⟩ := hWritten
          exact Or.inr (List.mem_filterMap.mpr ⟨_, hMem, rfl⟩)

/-- A run that throttles one cgroup leaves the spike weight nowhere else. -/
theorem keepsSpikeWeight_run {its : List Iteration} {one cg : String}
    (hOne : EveryStep iterate (fun w it => ∀ cg ∈ throttles w it, cg = one) .start its)
    (h : KeepsSpikeWeight (run iterate .start its) cg) : cg = one := by
  have hAlways : Always iterate (fun w => ∀ cg, KeepsSpikeWeight w cg → cg = one) .start its :=
    always_of_invariant
      (fun w it hBefore hHere cg hKeeps =>
        (keepsSpikeWeight_iterate hKeeps).elim (hBefore cg) (hHere cg))
      (fun cg hKeeps => by cases hKeeps) hOne
  exact hAlways.last cg h

/-! ## Runs -/

theorem keyed_run (before : List Iteration) : Keyed (run iterate .start before).tracker := by
  have hStep : ∀ (w : World) (it : Iteration), Keyed w.tracker → Keyed (iterate w it).tracker := by
    intro w it h
    cases it with
    | psiError => exact h
    | cycle c =>
        show Keyed (runSpikeCycle (runThrottle w c.throttle).tracker c.spike).1
        rw [runThrottle_tracker]
        exact keyed_runSpikeCycle h
  have hAlways : Always iterate (fun w => Keyed w.tracker) .start before :=
    always_of_invariant (fun w it h _ => hStep w it h) keyed_new (everyStep_true _ before)
  exact hAlways.last

theorem takesEffect_psiError_iff (w : World) : TakesEffect w .psiError ↔ Undone w .psiError := by
  constructor
  · intro h
    exact ⟨h.victims, h.spikes, h.weights⟩
  · intro h
    obtain ⟨hVictims, hSpikes, hWeights⟩ := h
    refine ⟨fun v hv => ?_, hVictims, hWeights, hSpikes⟩
    obtain ⟨pid, hLookup⟩ := mem_values_iff.mp hv
    have hMem : pid ∈ w.tracker.victimPids := mem_keys_iff.mpr ⟨v, hLookup⟩
    rw [hVictims] at hMem
    cases hMem

theorem takesEffect_cycle_iff {w : World} (hKeyed : Keyed w.tracker) {c : Cycle}
    (hOff : c.spike.cfg.spikeModeEnabled = false) :
    TakesEffect w (.cycle c) ↔ Undone w (.cycle c) := by
  obtain ⟨hTracker, hLast⟩ := step_off (w := w) hOff
  have hWeights : (∀ cg, ¬ KeepsSpikeWeight (iterate w (.cycle c)) cg) ↔
      ∀ cg, KeepsSpikeWeight w cg → Overwrites w c cg := by
    refine forall_congr' fun cg => ?_
    have hKeeps : KeepsSpikeWeight (iterate w (.cycle c)) cg ↔
        KeepsSpikeWeight (runThrottle w c.throttle) cg := by
      unfold KeepsSpikeWeight iterate
      rw [hLast]
    rw [hKeeps, keepsSpikeWeight_runThrottle_iff, not_and, not_not]
  have hSpikes : (iterate w (.cycle c)).tracker.spikePids = [] ↔
      ∀ pid ∈ w.tracker.spikePids, pid ∉ c.spike.procs.map Process.pid := by
    unfold iterate
    rw [hTracker]
    exact spikePids_releaseVictims_iff
  constructor
  · intro h
    exact ⟨hSpikes.mp h.spikes, hWeights.mp h.weights⟩
  · intro h
    have hNone := releaseVictims_no_victim (spikePids_releaseVictims_iff.mpr h.1)
    refine ⟨fun v hv => ?_, ?_, hWeights.mpr h.2, hSpikes.mpr h.1⟩
    · show v ∈ signalled w.tracker c.spike
      rw [signalled_off hOff]
      exact signalled_of_no_victim hKeyed hNone hv
    · unfold iterate SpikeTracker.victimPids
      rw [hTracker, List.eq_nil_iff_forall_not_mem]
      intro pid hPid
      obtain ⟨v, hv⟩ := mem_keys_iff.mp hPid
      rw [hNone pid] at hv
      cases hv

/--
**When switching off takes effect.**  In every state the evictor can reach, the
next iteration leaves nothing of spike mode behind exactly when no tracked spike
is running and no cgroup keeps the spike weight, or, should PSI fail to be read,
when there was nothing to undo.
-/
theorem takesEffect_iff (before : List Iteration) (it : Iteration) (hOff : SwitchedOff it) :
    TakesEffect (run iterate .start before) it ↔ Undone (run iterate .start before) it := by
  cases it with
  | psiError => exact takesEffect_psiError_iff _
  | cycle c => exact takesEffect_cycle_iff (keyed_run before) hOff

/-! ## A build that goes on -/

/-- A timeout of the wait, with spike mode on or off. -/
def timeout (enabled : Bool) (inp : SpikeInput) : Iteration :=
  .cycle
    { throttle := none
      spike := { inp with cfg := { inp.cfg with spikeModeEnabled := enabled } }
      sysfs := .allOk }

/-- The compiler is tracked and throttled. -/
def building : List Iteration := SpikeThrottle.busyBuild.map (timeout true)

/-- All three programs belong to the background. -/
def backgroundConfig : CompiledConfig :=
  { SpikeThrottle.buildConfig with
    entries := [⟨Regex.exact "baloo_file", 90, none⟩, ⟨Regex.exact "rustc", 70, none⟩,
      ⟨Regex.exact "make", 70, none⟩] }

/-- A machine with 100 MB available. -/
def tightAt (secs : Nat) (procs : List Process) : SpikeInput :=
  { SpikeThrottle.cycleAt secs procs with
    cfg := backgroundConfig
    available := Kb.clamp 100000
    startTime := fun _ => some 100 }

def managerAt (secs : Nat) (procs : List Process) : UpdateArgs where
  planProcs := procs
  activePid := none
  active := true
  psiSomeAvg10 := 30
  cfg := backgroundConfig
  clock := ⟨fun _ => Instant.ofSecs secs, fun _ => Instant.ofSecs secs⟩
  sysfs := .allOk

/-- A cycle in which the CPU manager runs as well. -/
def managed (enabled : Bool) (secs : Nat) (procs : List Process) : Cycle where
  throttle := some (managerAt secs procs)
  spike :=
    { tightAt secs procs with cfg := { backgroundConfig with spikeModeEnabled := enabled } }
  sysfs := .allOk

/-- The compiler's parent, in its cgroup, and the indexer. -/
def others : List Process :=
  [{ SpikeThrottle.rustc 20000 0 with pid := ⟨4001⟩, name := "make" },
    CollectiveRelease.indexer]

/-- The compiler peaks and drops with every core busy; the last cycle throttles
it and freezes the indexer. -/
def tightBuild : List Iteration :=
  [timeout true (tightAt 5 (SpikeThrottle.rustc 100000 95 :: others)),
    timeout true (tightAt 10 (SpikeThrottle.rustc 900000 95 :: others)),
    timeout true (tightAt 15 (SpikeThrottle.rustc 300000 95 :: others)),
    timeout true (tightAt 20 (SpikeThrottle.rustc 900000 95 :: others)),
    timeout true (tightAt 25 (SpikeThrottle.rustc 300000 95 :: others)),
    .cycle (managed true 30 (SpikeThrottle.rustc 900000 95 :: others))]

/-- The switch, once the compiler has exited and the manager lowers the cgroup
for its parent: the indexer is resumed and the spike weight written over. -/
theorem off_after_exit :
    (run iterate .start tightBuild).tracker.victimPids = [⟨200⟩] ∧
      KeepsSpikeWeight (run iterate .start tightBuild) "/user.slice/app-4000.scope" ∧
      TakesEffect (run iterate .start tightBuild) (.cycle (managed false 45 others)) := by
  have hOne : EveryStep iterate
      (fun w it => ∀ cg ∈ throttles w it, cg = "/user.slice/app-4000.scope") .start tightBuild := by
    decide +kernel
  have hOverwritten : Overwrites (run iterate .start tightBuild) (managed false 45 others)
      "/user.slice/app-4000.scope" :=
    ⟨managerAt 45 others, rfl, 1, by decide +kernel⟩
  have hUndone : Undone (run iterate .start tightBuild) (.cycle (managed false 45 others)) :=
    ⟨by decide +kernel, fun cg hKeeps => keepsSpikeWeight_run hOne hKeeps ▸ hOverwritten⟩
  exact ⟨by decide +kernel, by decide +kernel,
    (takesEffect_iff tightBuild (.cycle (managed false 45 others)) rfl).mpr hUndone⟩

/-- While it runs, the switch leaves it throttled and out of the planner's
reach. -/
theorem off_while_building :
    ¬ ∀ (before : List Iteration) (it : Iteration), SwitchedOff it →
      TakesEffect (run iterate .start before) it := by
  intro hAll
  have hEffect := hAll building
    (timeout false (SpikeThrottle.cycleAt 30 [SpikeThrottle.rustc 500000 95])) rfl
  have hTracked : (iterate (run iterate .start building) (timeout false
      (SpikeThrottle.cycleAt 30 [SpikeThrottle.rustc 500000 95]))).tracker.spikePids =
      [⟨4000⟩] := by decide +kernel
  rw [hEffect.spikes] at hTracked
  cases hTracked

end Mgd.Evictor.SpikeModeOff
