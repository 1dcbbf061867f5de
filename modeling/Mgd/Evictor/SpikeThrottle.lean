import Mgd.Evictor.Spike
import Mgd.Lib.Run

/-!
# Throttled spikes stay reachable

A throttle of spike mode is undone through the tracker: the spike's flag and
its stored cgroup path lead to the `RestoreThrottle`.  `Reachable` says that
every cgroup whose last write was the throttling one has such a spike.

The stored path is refreshed and a spike that exits is forgotten, both without
a write.  `reachable_of_kept` says that nothing else loses a throttle:
`Reachable` holds throughout every run in which no cycle takes the last flagged
spike of a throttled cgroup away.
-/

namespace Mgd.Evictor.SpikeThrottle

open Mgd.Types Mgd.Monitor Mgd.Config Mgd.Lib.AssocMap Mgd.Lib.Run Mgd.SpikeMode
open Mgd.Evictor.Spike

/-! ## The system -/

/-- The tracker, and the cgroups whose last spike-mode write is the throttling
one. -/
structure Spiking where
  tracker : SpikeTracker
  throttled : List String

def Spiking.initial : Spiking where
  tracker := SpikeTracker.new
  throttled := []

def afterWrite (throttled : List String) : SpikeWrite → List String
  | .throttled cg _ => cg :: throttled
  | .restored cg => throttled.filter (fun c => decide (c ≠ cg))

/-- One spike-mode cycle, every write succeeding. -/
def step (s : Spiking) (inp : SpikeInput) : Spiking where
  tracker := (runSpikeCycle s.tracker inp).1
  throttled := (runSpikeCycle s.tracker inp).2.foldl afterWrite s.throttled

/-- Every throttled cgroup is the path of a tracked spike with its flag set. -/
def Reachable (s : Spiking) : Prop :=
  ∀ cg ∈ s.throttled, ∃ pid spike,
    s.tracker.spikes.lookup pid = some spike ∧ spike.cpuThrottled = true ∧
      spike.cgroupPath = some cg

/-- The spike is throttled, and this is its stored path. -/
def FlaggedFor (spike : SpikeState) (cg : String) : Prop :=
  spike.cpuThrottled = true ∧ spike.cgroupPath = some cg

instance (spike : SpikeState) (cg : String) : Decidable (FlaggedFor spike cg) :=
  inferInstanceAs (Decidable (_ ∧ _))

/-- The process still runs and, when the tracker is updated, is still in the
cgroup. -/
def Stays (inp : SpikeInput) (pid : Pid) (cg : String) : Prop :=
  pid ∈ inp.procs.map Process.pid ∧
    (inp.cfg.spikeModeEnabled = true → ∀ pr ∈ inp.procs, pr.pid = pid → pr.cgroupPath = some cg)

instance (inp : SpikeInput) (pid : Pid) (cg : String) : Decidable (Stays inp pid cg) :=
  inferInstanceAs (Decidable (_ ∧ _))

/-- Of the flagged spikes of a throttled cgroup that has any, one stays. -/
def Kept (s : Spiking) (inp : SpikeInput) : Prop :=
  ∀ cg ∈ s.throttled, (∃ e ∈ s.tracker.spikes.entries, FlaggedFor e.2 cg) →
    ∃ e ∈ s.tracker.spikes.entries, FlaggedFor e.2 cg ∧ Stays inp e.1 cg

instance (s : Spiking) (inp : SpikeInput) : Decidable (Kept s inp) := by
  unfold Kept
  infer_instance

/-! ## Covered cgroups -/

/-- A flagged spike of the cgroup, which the given processes leave in it. -/
def Covered (procs : List Process) (spikes : Map Pid SpikeState) (cg : String) : Prop :=
  ∃ pid spike, spikes.lookup pid = some spike ∧ spike.cpuThrottled = true ∧
    spike.cgroupPath = some cg ∧ ∀ pr ∈ procs, pr.pid = pid → pr.cgroupPath = some cg

def AllCovered (procs : List Process) (spikes : Map Pid SpikeState)
    (throttled : List String) : Prop :=
  ∀ cg ∈ throttled, Covered procs spikes cg

section Writes

variable {cfg : CompiledConfig} {throttled : List String} {cg : String}

/-- The throttled cgroups after a list of decisions. -/
def afterDecisions (cfg : CompiledConfig) (throttled : List String)
    (ds : List SpikeDecision) : List String :=
  (ds.flatMap (decisionWrites cfg)).foldl afterWrite throttled

theorem afterDecisions_append (xs ys : List SpikeDecision) :
    afterDecisions cfg throttled (xs ++ ys) =
      afterDecisions cfg (afterDecisions cfg throttled xs) ys := by
  unfold afterDecisions
  rw [List.flatMap_append, List.foldl_append]

@[simp] theorem afterDecisions_throttle (pid : Pid) :
    afterDecisions cfg throttled [.throttleSpike pid cg] = cg :: throttled := rfl

@[simp] theorem mem_afterDecisions_restore {pid : Pid} {c : String} :
    c ∈ afterDecisions cfg throttled [.restoreThrottle pid cg] ↔ c ∈ throttled ∧ c ≠ cg := by
  simp [afterDecisions, decisionWrites, afterWrite]

end Writes

/-! ## The steps of an update -/

section Update

variable {p : Params} {now : Instant} {rssD : Map Pid Kb} {cfg : CompiledConfig}
  {throttled : List String}

variable (p now rssD) in
/-- What tracking does to a flagged spike: it keeps the flag and takes over the
path of its process, or it is demoted and restores that path. -/
theorem track_flagged {proc : Process} {spike : SpikeState} {cg : String}
    (hFlag : spike.cpuThrottled = true) (hPath : proc.cgroupPath = some cg) :
    ((track p now rssD proc spike).1.cpuThrottled = true ∧
        (track p now rssD proc spike).1.cgroupPath = some cg ∧
        (track p now rssD proc spike).2.1 = []) ∨
      (track p now rssD proc spike).2.1 = [.restoreThrottle spike.pid cg] := by
  obtain ⟨hMoved, ⟨hKept, -, hNothing⟩ | ⟨-, hDemoted⟩⟩ := track_cases p now rssD proc spike
  · exact Or.inl ⟨hKept.trans hFlag, hMoved.trans hPath, congrArg Prod.fst hNothing⟩
  · right
    rw [hDemoted]
    simp only [demotionDecisions, hFlag, hPath, if_true]

theorem mem_of_mem_after_track {proc : Process} {spike : SpikeState} {cg : String}
    (h : cg ∈ afterDecisions cfg throttled (track p now rssD proc spike).2.1) :
    cg ∈ throttled := by
  obtain hNone | ⟨restored, hOne, -⟩ := track_decisions p now rssD proc spike
  · rw [hNone] at h
    exact h
  · rw [hOne] at h
    exact (mem_afterDecisions_restore.mp h).1

variable (p now rssD cfg) in
/-- The loop of step 2 keeps every throttled cgroup covered. -/
theorem trackAll_covered (procs : List Process) (spikes : Map Pid SpikeState)
    (throttled : List String) (h : AllCovered procs spikes throttled) :
    AllCovered [] (trackAll p now rssD procs spikes).1
      (afterDecisions cfg throttled (trackAll p now rssD procs spikes).2.1) := by
  induction procs generalizing spikes throttled with
  | nil => exact h
  | cons proc rest ih =>
      unfold trackAll
      cases hTracked : spikes.lookup proc.pid with
      | none =>
          apply ih
          intro cg hcg
          obtain ⟨pid, spike, hLookup, hFlag, hPath, hStay⟩ := h cg hcg
          have hRest : ∀ pr ∈ rest, pr.pid = pid → pr.cgroupPath = some cg :=
            fun pr hpr => hStay pr (List.mem_cons_of_mem _ hpr)
          exact ⟨pid, spike, hLookup, hFlag, hPath, hRest⟩
      | some state =>
          dsimp only
          rw [afterDecisions_append]
          apply ih
          intro cg hcg
          obtain ⟨pid, spike, hLookup, hFlag, hPath, hStay⟩ :=
            h cg (mem_of_mem_after_track hcg)
          have hRest : ∀ pr ∈ rest, pr.pid = pid → pr.cgroupPath = some cg :=
            fun pr hpr => hStay pr (List.mem_cons_of_mem _ hpr)
          by_cases hpid : pid = proc.pid
          · -- the covering spike itself: it moves with its process, or is restored
            have hState : state = spike := by
              rw [hpid, hTracked] at hLookup
              exact Option.some.inj hLookup
            subst hState
            have hProc : proc.cgroupPath = some cg := hStay proc List.mem_cons_self hpid.symm
            cases track_flagged p now rssD hFlag hProc with
            | inl hKept =>
                obtain ⟨hFlag', hPath', -⟩ := hKept
                refine ⟨pid, _, ?_, hFlag', hPath', hRest⟩
                rw [lookup_insert_eq, if_pos hpid]
            | inr hRestore =>
                rw [hRestore] at hcg
                have hOther : cg ≠ cg := (mem_afterDecisions_restore.mp hcg).2
                exact absurd rfl hOther
          · refine ⟨pid, spike, ?_, hFlag, hPath, hRest⟩
            rw [lookup_insert_eq, if_neg hpid]
            exact hLookup

/-- A spike with another state is another spike. -/
theorem lookup_insert_of_differs {spikes : Map Pid SpikeState} {pid other : Pid}
    {state spike : SpikeState} (h : spikes.lookup pid = some state)
    (hOther : spikes.lookup other = some spike) (hDiffers : state ≠ spike) (new : SpikeState) :
    (spikes.insert pid new).lookup other = some spike := by
  have hne : other ≠ pid := by
    intro heq
    rw [heq, h] at hOther
    exact hDiffers (Option.some.inj hOther)
  rw [lookup_insert_eq, if_neg hne]
  exact hOther

/-- The CPU check of one process keeps every throttled cgroup covered. -/
theorem checkCpu_covered (foregroundPid : Option Pid) (proc : Process)
    {spikes : Map Pid SpikeState} (h : AllCovered [] spikes throttled) :
    AllCovered [] (checkCpu p foregroundPid proc spikes).1
      (afterDecisions cfg throttled (checkCpu p foregroundPid proc spikes).2) := by
  obtain hSame | ⟨state, path, hTracked, -, -, hState, hStep⟩ :=
    checkCpu_cases p foregroundPid proc spikes
  · rw [hSame]
    exact h
  cases hStep with
  | inl hUp =>
      -- the flag goes up together with the throttling write
      obtain ⟨-, hUnflagged, hWrite⟩ := hUp
      rw [hWrite]
      intro cg hcg
      rw [afterDecisions_throttle, List.mem_cons] at hcg
      by_cases hcgPath : cg = path
      · refine ⟨proc.pid, _, AList.lookup_insert _, rfl, ?_, by simp⟩
        rw [hcgPath]
        exact hState
      · obtain ⟨pid, spike, hLookup, hFlag, hPath, hStay⟩ := h cg (hcg.resolve_left hcgPath)
        refine ⟨pid, spike, lookup_insert_of_differs hTracked hLookup ?_ _, hFlag, hPath, hStay⟩
        intro hSame
        rw [← hSame, hUnflagged] at hFlag
        cases hFlag
  | inr hDown =>
      -- the flag goes down together with the restoring write
      rw [hDown.2.2]
      intro cg hcg
      obtain ⟨hThrottled, hcgPath⟩ := mem_afterDecisions_restore.mp hcg
      obtain ⟨pid, spike, hLookup, hFlag, hPath, hStay⟩ := h cg hThrottled
      refine ⟨pid, spike, lookup_insert_of_differs hTracked hLookup ?_ _, hFlag, hPath, hStay⟩
      intro hSame
      rw [← hSame, hState] at hPath
      have hPaths : path = cg := Option.some.inj hPath
      exact hcgPath hPaths.symm

theorem checkCpuAll_covered (foregroundPid : Option Pid) (procs : List Process)
    {spikes : Map Pid SpikeState} (h : AllCovered [] spikes throttled) :
    AllCovered [] (checkCpuAll p foregroundPid procs spikes).1
      (afterDecisions cfg throttled (checkCpuAll p foregroundPid procs spikes).2) := by
  induction procs generalizing spikes throttled with
  | nil => exact h
  | cons proc rest ih =>
      unfold checkCpuAll
      dsimp only
      rw [afterDecisions_append]
      exact ih (checkCpu_covered foregroundPid proc h)

theorem afterDecisions_headroomDecisions (available : Kb) (spikes : Map Pid SpikeState) :
    afterDecisions cfg throttled (headroomDecisions p available spikes) = throttled := by
  obtain hNone | ⟨needed, hAsked⟩ := headroomDecisions_cases p available spikes
  · rw [hNone]
    rfl
  · rw [hAsked]
    rfl

/-- An update whose processes leave the covering spikes in place keeps every
throttled cgroup covered. -/
theorem update_covered {t : SpikeTracker} {procs : List Process} (available : Kb)
    (foregroundPid : Option Pid) (h : AllCovered procs t.spikes throttled) :
    AllCovered [] (t.update procs available p now foregroundPid).1.spikes
      (afterDecisions cfg throttled (t.update procs available p now foregroundPid).2) := by
  have hRegistered : AllCovered procs
      (procs.foldl (register p t.prevRss (rssDeltas t.prevRss procs)
        (majfltDeltas t.prevMajflt procs)) t.spikes) throttled := by
    intro cg hcg
    obtain ⟨pid, spike, hLookup, hRest⟩ := h cg hcg
    exact ⟨pid, spike, foldl_register_lookup procs hLookup, hRest⟩
  have hTracked := trackAll_covered p now (rssDeltas t.prevRss procs) cfg procs _ throttled
    hRegistered
  unfold SpikeTracker.update
  dsimp only
  rw [afterDecisions_append, afterDecisions_append, afterDecisions_append,
    afterDecisions_headroomDecisions]
  apply checkCpuAll_covered
  -- draining the victims touches neither the spikes nor a weight
  split
  · rw [drainIfNoneTracking_spikes]
    split
    · exact hTracked
    · exact hTracked
  · exact hTracked

end Update

/-! ## Runs -/

theorem reachable_iff (s : Spiking) :
    Reachable s ↔ AllCovered [] s.tracker.spikes s.throttled := by
  unfold Reachable AllCovered Covered
  simp only [List.not_mem_nil, false_implies, implies_true, and_true]

/-- Reachable throttles are those the shutdown undoes. -/
theorem reachable_iff_shutdown (s : Spiking) :
    Reachable s ↔ ∀ cg ∈ s.throttled, cg ∈ s.tracker.throttledCgroupPaths := by
  unfold Reachable
  simp only [SpikeTracker.mem_throttledCgroupPaths_iff]

/-- A reachable throttle has a flagged spike among the entries. -/
theorem exists_flaggedFor {s : Spiking} (h : Reachable s) {cg : String} (hcg : cg ∈ s.throttled) :
    ∃ e ∈ s.tracker.spikes.entries, FlaggedFor e.2 cg := by
  obtain ⟨pid, spike, hLookup, hFlag, hPath⟩ := h cg hcg
  exact ⟨⟨pid, spike⟩, lookup_eq_some_iff.mp hLookup, hFlag, hPath⟩

/-- **One cycle** in which one of the flagged spikes of each throttled cgroup
stays. -/
theorem reachable_step (s : Spiking) (inp : SpikeInput) (h : Reachable s) (hKept : Kept s inp) :
    Reachable (step s inp) := by
  rw [reachable_iff]
  have hLookup : ∀ e ∈ s.tracker.spikes.entries, e.1 ∈ inp.procs.map Process.pid →
      (releaseVictims s.tracker inp).1.spikes.lookup e.1 = some e.2 := by
    intro e he hlive
    rw [releaseVictims_lookup hlive]
    exact lookup_eq_some_iff.mpr he
  have hSpikes : (step s inp).tracker.spikes =
      (spikeDecisions (releaseVictims s.tracker inp).1 inp).1.spikes :=
    foldl_executeDecision_spikes _ _
  have hThrottled : (step s inp).throttled =
      afterDecisions inp.cfg s.throttled
        (spikeDecisions (releaseVictims s.tracker inp).1 inp).2 := rfl
  rw [hSpikes, hThrottled]
  unfold spikeDecisions
  split
  · next hEnabled =>
      apply update_covered
      intro cg hcg
      obtain ⟨e, he, ⟨hFlag, hPath⟩, hlive, hStay⟩ := hKept cg hcg (exists_flaggedFor h hcg)
      exact ⟨e.1, e.2, hLookup e he hlive, hFlag, hPath, hStay hEnabled⟩
  · intro cg hcg
    obtain ⟨e, he, ⟨hFlag, hPath⟩, hlive, -⟩ := hKept cg hcg (exists_flaggedFor h hcg)
    exact ⟨e.1, e.2, hLookup e he hlive, hFlag, hPath, by simp⟩

/--
**When every throttle stays reachable.**  Along every run in which a throttled
cgroup that has flagged spikes keeps one of them through each cycle, running and
not moved to another cgroup, every throttled cgroup is the path of a tracked
spike with its flag set.
-/
theorem reachable_of_kept (inputs : List SpikeInput)
    (h : EveryStep step Kept Spiking.initial inputs) :
    Always step Reachable Spiking.initial inputs := by
  have hInitial : Reachable Spiking.initial := by
    intro cg hcg
    cases hcg
  exact always_of_invariant (fun s inp hBefore hKept => reachable_step s inp hBefore hKept)
    hInitial h

/-! ## A compiler that exits -/

def rustc (rss : Nat) (cpuPct : ℚ) : Process where
  pid := ⟨4000⟩
  name := "rustc"
  exeBasename := none
  rssKb := Kb.clamp rss
  swapKb := Kb.clamp 0
  oomScore := 0
  cgroupPath := some "/user.slice/app-4000.scope"
  cpuPct := cpuPct
  majflt := 0
  cmdline := ""

def buildConfig : CompiledConfig :=
  { CompiledConfig.ofEmpty 15 with
    spikeModeEnabled := true
    spikeInclude := [Regex.exact "rustc"] }

/-- A cycle with plenty of memory and no foreground window. -/
def cycleAt (secs : Nat) (procs : List Process) : SpikeInput where
  cfg := buildConfig
  procs := procs
  available := Kb.clamp 8000000
  manualRelease := []
  foregroundPid := none
  activePid := none
  frozenPids := []
  startTime := fun _ => none
  kill := fun _ _ => none
  now := Instant.ofSecs secs

/-- The memory rises and falls for 30 s while every core is busy; the last
cycle throttles. -/
def busyBuild : List SpikeInput :=
  [cycleAt 0 [rustc 100000 95], cycleAt 5 [rustc 400000 95], cycleAt 10 [rustc 900000 95],
    cycleAt 15 [rustc 500000 95], cycleAt 20 [rustc 600000 95], cycleAt 25 [rustc 500000 95]]

/-- The compiler calms down before it exits. -/
theorem reachable_of_calm_exit :
    Always step Reachable Spiking.initial
      (busyBuild ++ [cycleAt 30 [rustc 500000 10], cycleAt 35 []]) :=
  reachable_of_kept _ (by decide +kernel)

/-- The compiler exits while throttled: its cgroup keeps the low weight and no
spike leads back to it. -/
theorem busyBuild_exit_loses_throttle :
    ¬ Always step Reachable Spiking.initial (busyBuild ++ [cycleAt 30 []]) := by
  intro hAlways
  have hThrottled : "/user.slice/app-4000.scope" ∈
      (run step Spiking.initial (busyBuild ++ [cycleAt 30 []])).throttled := by decide +kernel
  have hSpikes : (run step Spiking.initial
      (busyBuild ++ [cycleAt 30 []])).tracker.spikes.entries = [] := by decide +kernel
  obtain ⟨pid, spike, hLookup, -⟩ := hAlways.last _ hThrottled
  have hMem := lookup_eq_some_iff.mp hLookup
  rw [hSpikes] at hMem
  cases hMem

end Mgd.Evictor.SpikeThrottle
