import Mgd.FocusUnfreeze
import Mgd.Evictor.SpikeThrottle
import Mgd.ThrottleLedger

/-!
# Two writers of `cpu.weight`

A full cycle runs `ThrottleManager::update`, which lowers background cgroups to
weight 1 and restores them to 100, and then the spike-mode cycle, which gives the
cgroup of a busy spike the spike weight and restores it to 100.  A timeout of the
PSI wait runs the spike-mode cycle alone.  Each of the two writes on its own
transitions and takes the file to hold what it wrote last.

`Consistent` is what the two promise after a cycle.  `consistent_of_apart` says
that they keep it in every run in which no cgroup is in the hands of both.
-/

namespace Mgd.Evictor.CpuWeights

open Mgd.Types Mgd.Monitor Mgd.Config Mgd.Lib.AssocMap Mgd.Lib.Run Mgd.SpikeMode Mgd.Throttle
open Mgd.ThrottleLedger (updateCgroup_frame update_inactive)
open Mgd.Evictor.Spike
open Mgd.FocusUnfreeze (releaseVictims_spikes_lookup)
open Mgd.Evictor.CollectiveRelease (tracked drained drained_spikes)

/-! ## The cycle -/

/-- A write of spike mode, to the file it goes to. -/
def cpuWrite : SpikeWrite → CpuWrite
  | .throttled cg weight => .weight cg weight
  | .restored cg => .weight cg 100

/-- Who wrote a `cpu.weight` last. -/
inductive WeightWriter
  | throttleManager
  | throttleSpike
  | restoreThrottle
deriving DecidableEq

abbrev LastWriter := String → Option WeightWriter

def LastWriter.stamp (who : WeightWriter) (last : LastWriter) : CpuWrite → LastWriter
  | .weight path _ => fun p => if p = path then some who else last p
  | .max _ _ => last

def spikeWriter : SpikeWrite → WeightWriter
  | .throttled _ _ => .throttleSpike
  | .restored _ => .restoreThrottle

structure World where
  throttle : ThrottleManager
  tracker : SpikeTracker
  files : CpuFiles
  last : LastWriter
  /-- `throttled_cpu_weight` of the last cycle's configuration -/
  spikeWeight : Nat
  /-- the last cycle ran `ThrottleManager::update` -/
  updated : Bool

def World.start : World where
  throttle := .new
  tracker := .new
  files := .untouched
  last := fun _ => none
  spikeWeight := 0
  updated := false

/-- One pass of the evictor over both. -/
structure Cycle where
  /-- `none` on a timeout of the wait, and while neither the active window
  changes nor the interval is over -/
  throttle : Option UpdateArgs
  spike : SpikeInput
  /-- which writes of spike mode succeed -/
  sysfs : Sysfs

def runThrottle (w : World) : Option UpdateArgs → World
  | none => { w with updated := false }
  | some args =>
      let r := w.throttle.update args
      { w with
        throttle := r.1
        files := w.files.applyAll r.2
        last := r.2.foldl (LastWriter.stamp .throttleManager) w.last
        updated := true }

/-- The writes of spike mode that take effect. -/
def succeeding (sysfs : Sysfs) (ws : List SpikeWrite) : List SpikeWrite :=
  ws.filter fun sw => sysfs (cpuWrite sw)

def runSpikes (w : World) (c : Cycle) : World :=
  let r := runSpikeCycle w.tracker c.spike
  let ws := succeeding c.sysfs r.2
  { w with
    tracker := r.1
    files := w.files.applyAll (ws.map cpuWrite)
    last := ws.foldl (fun last sw => LastWriter.stamp (spikeWriter sw) last (cpuWrite sw)) w.last
    spikeWeight := c.spike.cfg.spikeThrottledCpuWeight }

def step (w : World) (c : Cycle) : World := runSpikes (runThrottle w c.throttle) c

/-- Every write succeeds. -/
def WritesSucceed (_ : World) (c : Cycle) : Prop :=
  c.sysfs = .allOk ∧ ∀ args, c.throttle = some args → args.sysfs = .allOk

/-! ## What the two promise -/

/-- Every cgroup the manager records as lowered has weight 1. -/
def ManagerKeeps (w : World) : Prop :=
  ∀ cg, w.throttle.isLowered cg = true → w.files.weight cg = some 1

/-- Every cgroup of a throttled spike that the manager does not hold has the
spike weight. -/
def SpikesKeep (w : World) : Prop :=
  ∀ pid s cg, w.tracker.spikes.lookup pid = some s → s.cpuThrottled = true →
    s.cgroupPath = some cg → w.throttle.isLowered cg = false →
    w.files.weight cg = some w.spikeWeight

def Consistent (w : World) : Prop := (w.updated = true → ManagerKeeps w) ∧ SpikesKeep w

/-! ## In whose hands a cgroup is -/

/-- Neither the foreground's, nor of a priority or a name that is left alone. -/
def Eligible (args : UpdateArgs) (cg : String) : Prop :=
  some cg ≠ findForegroundCgroup args.planProcs args.activePid ∧
    60 ≤ minPriority args.cfg (cgroupMembers args.planProcs cg) ∧
    isExcluded args.cfg (cgroupMembers args.planProcs cg) = false

/-- The manager has an entry of the cgroup, or may make one in this cycle. -/
def Managed (w : World) (c : Cycle) (cg : String) : Prop :=
  cg ∈ w.throttle.states.keys ∨
    ∃ args, c.throttle = some args ∧ args.active = true ∧ Eligible args cg

/-- The spikes once the exited ones are forgotten and new ones registered. -/
def registered (t : SpikeTracker) (inp : SpikeInput) : Map Pid SpikeState :=
  inp.procs.foldl (register (Params.fromConfig inp.cfg) (releaseVictims t inp).1.prevRss
    (rssDeltas (releaseVictims t inp).1.prevRss inp.procs)
    (majfltDeltas (releaseVictims t inp).1.prevMajflt inp.procs)) (releaseVictims t inp).1.spikes

/-- The spike of this PID is throttled. -/
def Flagged (t : SpikeTracker) (pid : Pid) : Prop :=
  ∃ s, t.spikes.lookup pid = some s ∧ s.cpuThrottled = true

/-- Tracking in this cycle. -/
def TrackedNow (t : SpikeTracker) (inp : SpikeInput) (pid : Pid) : Prop :=
  ∃ s ∈ (tracked (releaseVictims t inp).1 inp.procs (Params.fromConfig inp.cfg) inp.now).1.lookup
    pid, s.phase = .tracking

/-- Spike mode may write the weight of the process's cgroup in this cycle: a
spike that is throttled, or a Tracking one of the background that is busy enough
to be. -/
def MayWrite (t : SpikeTracker) (inp : SpikeInput) (pr : Process) : Prop :=
  Flagged t pr.pid ∨
    inp.cfg.spikeModeEnabled = true ∧ TrackedNow t inp pr.pid ∧
      inp.foregroundPid ≠ some pr.pid ∧ inp.cfg.spikeCpuThresholdPct ≤ pr.cpuPct

/-- No cgroup is in the hands of both, or of two spikes. -/
structure Apart (w : World) (c : Cycle) : Prop where
  /-- the process list names no PID twice -/
  distinct : (c.spike.procs.map Process.pid).Nodup
  /-- a throttled spike stays in its cgroup -/
  stays : ∀ pid s, w.tracker.spikes.lookup pid = some s → s.cpuThrottled = true →
    ∀ pr ∈ c.spike.procs, pr.pid = pid → pr.cgroupPath = s.cgroupPath
  /-- no two spikes that are throttled, or Tracking and busy, share a cgroup -/
  alone : ∀ pr ∈ c.spike.procs, ∀ pr' ∈ c.spike.procs, MayWrite w.tracker c.spike pr →
    MayWrite w.tracker c.spike pr' → ∀ cg, pr.cgroupPath = some cg → pr'.cgroupPath = some cg →
    pr.pid = pr'.pid
  /-- none of them is in a cgroup of the manager -/
  apart : ∀ pr ∈ c.spike.procs, MayWrite w.tracker c.spike pr → ∀ cg, pr.cgroupPath = some cg →
    ¬ Managed w c cg
  /-- the spike weight does not change while a spike is throttled -/
  weight : ∀ pid, Flagged w.tracker pid →
    c.spike.cfg.spikeThrottledCpuWeight = w.spikeWeight

/-! ### Checking it -/

section Checking

variable {t : SpikeTracker} {inp : SpikeInput}

theorem flagged_iff {pid : Pid} :
    Flagged t pid ↔ (t.spikes.lookup pid).any SpikeState.cpuThrottled = true := by
  rw [Option.any_eq_true]
  rfl

instance (pid : Pid) : Decidable (Flagged t pid) := decidable_of_iff _ flagged_iff.symm

instance (pid : Pid) : Decidable (TrackedNow t inp pid) := by
  unfold TrackedNow
  infer_instance

instance (pr : Process) : Decidable (MayWrite t inp pr) := by
  unfold MayWrite
  infer_instance

instance (args : UpdateArgs) (cg : String) : Decidable (Eligible args cg) := by
  unfold Eligible
  infer_instance

theorem managed_iff {w : World} {c : Cycle} {cg : String} :
    Managed w c cg ↔ cg ∈ w.throttle.states.keys ∨
      ∃ args ∈ c.throttle, args.active = true ∧ Eligible args cg := Iff.rfl

instance (w : World) (c : Cycle) (cg : String) : Decidable (Managed w c cg) :=
  decidable_of_iff _ managed_iff.symm

theorem apart_iff (w : World) (c : Cycle) :
    Apart w c ↔ (c.spike.procs.map Process.pid).Nodup ∧
      (∀ e ∈ w.tracker.spikes.entries, e.2.cpuThrottled = true → ∀ pr ∈ c.spike.procs,
        pr.pid = e.1 → pr.cgroupPath = e.2.cgroupPath) ∧
      (∀ pr ∈ c.spike.procs, ∀ pr' ∈ c.spike.procs, MayWrite w.tracker c.spike pr →
        MayWrite w.tracker c.spike pr' → ∀ cg ∈ pr.cgroupPath, pr'.cgroupPath = some cg →
        pr.pid = pr'.pid) ∧
      (∀ pr ∈ c.spike.procs, MayWrite w.tracker c.spike pr → ∀ cg ∈ pr.cgroupPath,
        ¬ Managed w c cg) ∧
      ∀ e ∈ w.tracker.spikes.entries, e.2.cpuThrottled = true →
        c.spike.cfg.spikeThrottledCpuWeight = w.spikeWeight := by
  constructor
  · intro h
    refine ⟨h.distinct, fun e he hFlag => ?_, h.alone, h.apart, fun e he hFlag => ?_⟩
    · exact h.stays e.1 e.2 (lookup_eq_some_iff.mpr he) hFlag
    · exact h.weight e.1 ⟨e.2, lookup_eq_some_iff.mpr he, hFlag⟩
  · intro h
    obtain ⟨hDistinct, hStays, hAlone, hApart, hWeight⟩ := h
    refine ⟨hDistinct, fun pid s hs hFlag => ?_, hAlone, hApart, fun pid hFlagged => ?_⟩
    · exact hStays ⟨pid, s⟩ (lookup_eq_some_iff.mp hs) hFlag
    · obtain ⟨s, hs, hFlag⟩ := hFlagged
      exact hWeight ⟨pid, s⟩ (lookup_eq_some_iff.mp hs) hFlag

instance (w : World) (c : Cycle) : Decidable (Apart w c) := decidable_of_iff _ (apart_iff w c).symm

end Checking

/-! ## The manager -/

section Manager

variable {args : UpdateArgs} {m : ThrottleManager} {files : CpuFiles} {path cg : String}

/-- A cgroup without an entry is touched only when it is eligible. -/
theorem updateCgroup_of_unmanaged (hNone : m.states.lookup path = none)
    (hIneligible : ¬ Eligible args path) :
    (updateCgroup args m path).1.states = m.states ∧ (updateCgroup args m path).2 = [] := by
  have hRelease : ∀ m' : ThrottleManager,
      (release args m' path .none).1.states = m'.states ∧ (release args m' path .none).2 = [] :=
    fun m' => ⟨rfl, rfl⟩
  unfold updateCgroup
  rw [hNone]
  dsimp only [Option.getD_none]
  split
  · exact hRelease m
  · next hForeground =>
      split
      · exact hRelease m
      · next hPrio =>
          split
          · exact hRelease m
          · next hExcluded =>
              exact absurd ⟨hForeground, Nat.le_of_not_lt hPrio,
                Bool.not_eq_true _ ▸ hExcluded⟩ hIneligible

/-- The loop over the cgroups, at a cgroup out of the manager's hands. -/
theorem updateCgroups_of_unmanaged (hOk : args.sysfs = .allOk) (paths : List String)
    (hNone : m.states.lookup cg = none) (hIneligible : ¬ Eligible args cg) :
    (updateCgroups args paths m).1.states.lookup cg = none ∧
      (files.applyAll (updateCgroups args paths m).2).weight cg = files.weight cg := by
  induction paths generalizing m files with
  | nil => exact ⟨hNone, rfl⟩
  | cons path rest ih =>
      simp only [updateCgroups, CpuFiles.applyAll_append]
      by_cases hPath : cg = path
      · subst hPath
        obtain ⟨hStates, hWrites⟩ := updateCgroup_of_unmanaged hNone hIneligible
        rw [hWrites]
        exact ih (by rw [hStates]; exact hNone)
      · obtain ⟨hLookup, hWeight, -⟩ := updateCgroup_frame m files hOk hPath
        obtain ⟨ihLookup, ihWeight⟩ := @ih (updateCgroup args m path).1
          (files.applyAll (updateCgroup args m path).2) (hLookup.trans hNone)
        exact ⟨ihLookup, ihWeight.trans hWeight⟩

/-- A round keeps a lowered cgroup at weight 1. -/
theorem updateCgroup_keeps (hOk : args.sysfs = .allOk)
    (h : m.isLowered cg = true → files.weight cg = some 1) :
    (updateCgroup args m path).1.isLowered cg = true →
      (files.applyAll (updateCgroup args m path).2).weight cg = some 1 := by
  intro hLowered
  by_cases hPath : cg = path
  · subst hPath
    rcases updateCgroup_cases args m cg with
      ⟨hStates, hWrites⟩ | ⟨hStates, hWrites⟩ | ⟨target, limit, -, -, hWrites⟩
    · rw [isLowered_eq_of_lookup (congrArg (AList.lookup cg) hStates)] at hLowered
      rw [hWrites]
      exact h hLowered
    · unfold ThrottleManager.isLowered at hLowered
      rw [hStates, AList.lookup_insert] at hLowered
      cases hLowered
    · rw [hWrites, hOk, CpuFiles.applyAll_lower_weight, if_pos rfl]
  · obtain ⟨hLookup, hWeight, -⟩ := updateCgroup_frame m files hOk hPath
    rw [isLowered_eq_of_lookup hLookup] at hLowered
    rw [hWeight]
    exact h hLowered

theorem updateCgroups_keeps (hOk : args.sysfs = .allOk) (paths : List String)
    (h : m.isLowered cg = true → files.weight cg = some 1) :
    (updateCgroups args paths m).1.isLowered cg = true →
      (files.applyAll (updateCgroups args paths m).2).weight cg = some 1 := by
  induction paths generalizing m files with
  | nil => exact h
  | cons path rest ih =>
      simp only [updateCgroups, CpuFiles.applyAll_append]
      exact ih (updateCgroup_keeps hOk h)

end Manager

section RunThrottle

variable {w : World} {c : Cycle} {cg : String}

/-- A cgroup out of the manager's hands keeps its weight and gets no entry. -/
theorem runThrottle_of_unmanaged (hOk : WritesSucceed w c) (h : ¬ Managed w c cg) :
    (runThrottle w c.throttle).throttle.isLowered cg = false ∧
      (runThrottle w c.throttle).files.weight cg = w.files.weight cg := by
  have hNone : w.throttle.states.lookup cg = none := by
    rw [Option.eq_none_iff_forall_ne_some]
    exact fun state hState => h (Or.inl (mem_keys_iff.mpr ⟨state, hState⟩))
  cases hArgs : c.throttle with
  | none =>
      refine ⟨?_, rfl⟩
      unfold ThrottleManager.isLowered
      rw [show (runThrottle w none).throttle.states.lookup cg = none from hNone]
  | some args =>
      have hSysfs := hOk.2 args hArgs
      simp only [runThrottle]
      cases hActive : args.active with
      | false =>
          rw [update_inactive w.throttle args hSysfs hActive]
          refine ⟨rfl, ?_⟩
          unfold ThrottleManager.restoreAll
          rw [(CpuFiles.applyAll_restore_list w.throttle.states.keys cg).1,
            if_neg fun hKey => h (Or.inl hKey)]
      | true =>
          have hIneligible : ¬ Eligible args cg := fun hElig =>
            h (Or.inr ⟨args, hArgs, hActive, hElig⟩)
          unfold ThrottleManager.update
          rw [if_pos hActive]
          dsimp only
          have hRetained : (retain (fun path _ => decide (path ∈ cgroupPaths args.planProcs))
              w.throttle.states).lookup cg = none := by
            rw [lookup_retain, hNone]
            rfl
          obtain ⟨hLookup, hWeight⟩ := @updateCgroups_of_unmanaged args
            ⟨retain (fun path _ => decide (path ∈ cgroupPaths args.planProcs)) w.throttle.states,
              retain (fun path _ => decide (path ∈ cgroupPaths args.planProcs))
                w.throttle.tracker⟩ w.files cg hSysfs (cgroupPaths args.planProcs) hRetained
            hIneligible
          refine ⟨?_, hWeight⟩
          unfold ThrottleManager.isLowered
          rw [hLookup]

theorem runThrottle_keeps (hOk : WritesSucceed w c) (h : ManagerKeeps w) :
    ManagerKeeps (runThrottle w c.throttle) := by
  intro cg
  cases hArgs : c.throttle with
  | none => exact h cg
  | some args =>
      have hSysfs := hOk.2 args hArgs
      simp only [runThrottle]
      cases hActive : args.active with
      | false =>
          rw [update_inactive w.throttle args hSysfs hActive]
          intro hLowered
          cases hLowered
      | true =>
          unfold ThrottleManager.update
          rw [if_pos hActive]
          refine updateCgroups_keeps hSysfs _ fun hLowered => h cg ?_
          by_cases hListed : cg ∈ cgroupPaths args.planProcs
          · rw [isLowered_eq_of_lookup (m := w.throttle)] at hLowered
            · exact hLowered
            · rw [lookup_retain_key, if_pos (by simpa using hListed)]
          · unfold ThrottleManager.isLowered at hLowered
            rw [lookup_retain_key, if_neg (by simpa using hListed)] at hLowered
            cases hLowered

end RunThrottle

/-! ## Spike mode

`Owner` is fixed for a cycle: the processes whose cgroups its writes go to. -/

section Spikes

variable (t : SpikeTracker) (inp : SpikeInput)

/-- A process of this PID and cgroup that spike mode may write for. -/
def Owner (pid : Pid) (cg : String) : Prop :=
  ∃ pr ∈ inp.procs, pr.pid = pid ∧ pr.cgroupPath = some cg ∧ MayWrite t inp pr

/-- Every throttled spike owns its cgroup, which has the spike weight. -/
def Weighed (weight : Nat) (spikes : Map Pid SpikeState) (files : CpuFiles) : Prop :=
  ∀ pid s cg, spikes.lookup pid = some s → s.cpuThrottled = true → s.cgroupPath = some cg →
    Owner t inp pid cg ∧ files.weight cg = some weight

/-- What the decisions write, every write succeeding. -/
def writesOf (ds : List SpikeDecision) : List CpuWrite :=
  (ds.flatMap (decisionWrites inp.cfg)).map cpuWrite

/-- Decisions about owned cgroups. -/
def Owned (ds : List SpikeDecision) : Prop :=
  ∀ d ∈ ds, match d with
    | .throttleSpike _ cg => ∃ pid, Owner t inp pid cg
    | .restoreThrottle _ cg => ∃ pid, Owner t inp pid cg
    | .freezeForHeadroom _ => True
    | .releaseVictims _ => True

variable {t inp}

theorem writesOf_append (xs ys : List SpikeDecision) :
    writesOf inp (xs ++ ys) = writesOf inp xs ++ writesOf inp ys := by
  unfold writesOf
  rw [List.flatMap_append, List.map_append]

theorem owned_append {xs ys : List SpikeDecision} (hxs : Owned t inp xs) (hys : Owned t inp ys) :
    Owned t inp (xs ++ ys) := by
  intro d hd
  cases List.mem_append.mp hd with
  | inl hLeft => exact hxs d hLeft
  | inr hRight => exact hys d hRight

/-- A cgroup nobody owns keeps its weight. -/
theorem weight_of_owned {ds : List SpikeDecision} (h : Owned t inp ds) {cg : String}
    (hFree : ∀ pid, ¬ Owner t inp pid cg) (files : CpuFiles) :
    (files.applyAll (writesOf inp ds)).weight cg = files.weight cg := by
  induction ds generalizing files with
  | nil => rfl
  | cons d rest ih =>
      have hRest : Owned t inp rest := fun d' hd' => h d' (List.mem_cons_of_mem d hd')
      have hHere : (files.applyAll (writesOf inp [d])).weight cg = files.weight cg := by
        have hOwned := h d List.mem_cons_self
        cases d with
        | throttleSpike pid path =>
            obtain ⟨owner, hOwner⟩ := hOwned
            exact if_neg fun hEq : cg = path => hFree owner (hEq ▸ hOwner)
        | restoreThrottle pid path =>
            obtain ⟨owner, hOwner⟩ := hOwned
            exact if_neg fun hEq : cg = path => hFree owner (hEq ▸ hOwner)
        | freezeForHeadroom needed => rfl
        | releaseVictims victims => rfl
      rw [show d :: rest = [d] ++ rest from rfl, writesOf_append, CpuFiles.applyAll_append,
        ih hRest, hHere]

/-! ### Step 2 of the update -/

/-- No two processes that spike mode writes for share a cgroup. -/
def OneOwner (t : SpikeTracker) (inp : SpikeInput) : Prop :=
  ∀ pid pid' cg, Owner t inp pid cg → Owner t inp pid' cg → pid = pid'

variable {weight : Nat} {spikes : Map Pid SpikeState} {files : CpuFiles}

/-- The new state of one spike, after a write to nobody's cgroup but its own. -/
theorem Weighed.insert (h : Weighed t inp weight spikes files) {pid : Pid} {s' : SpikeState}
    {files' : CpuFiles}
    (hOthers : ∀ pid' cg, pid' ≠ pid → Owner t inp pid' cg → files.weight cg = some weight →
      files'.weight cg = some weight)
    (hNew : ∀ cg, s'.cpuThrottled = true → s'.cgroupPath = some cg →
      Owner t inp pid cg ∧ files'.weight cg = some weight) :
    Weighed t inp weight (spikes.insert pid s') files' := by
  intro pid' u cg hLookup hFlag hPath
  rw [lookup_insert_eq] at hLookup
  split at hLookup
  · next hPid =>
      cases hLookup
      rw [hPid]
      exact hNew cg hFlag hPath
  · next hPid =>
      obtain ⟨hOwner, hWeight⟩ := h pid' u cg hLookup hFlag hPath
      exact ⟨hOwner, hOthers pid' cg hPid hOwner hWeight⟩

/-- One process. -/
theorem weighed_track (p : Params) (now : Instant) (rssD : Map Pid Kb) (hOne : OneOwner t inp)
    (h : Weighed t inp weight spikes files) {proc : Process} {s : SpikeState}
    (hState : spikes.lookup proc.pid = some s)
    (hStays : s.cpuThrottled = true → proc.cgroupPath = s.cgroupPath) :
    Weighed t inp weight (spikes.insert proc.pid (track p now rssD proc s).1)
        (files.applyAll (writesOf inp (track p now rssD proc s).2.1)) ∧
      Owned t inp (track p now rssD proc s).2.1 := by
  have hUnflagged : (track p now rssD proc s).1.cpuThrottled = false → ∀ files' cg,
      (track p now rssD proc s).1.cpuThrottled = true →
      (track p now rssD proc s).1.cgroupPath = some cg →
      Owner t inp proc.pid cg ∧ CpuFiles.weight files' cg = some weight := by
    intro hFlag _ _ hFlag'
    rw [hFlag] at hFlag'
    cases hFlag'
  obtain ⟨hPath, ⟨hFlag, -, hNothing⟩ | ⟨hFlag, hDemoted⟩⟩ := track_cases p now rssD proc s
  · rw [hNothing]
    refine ⟨h.insert (fun _ _ _ _ hWeight => hWeight) fun cg hFlag' hPath' => ?_,
      fun d hd => by cases hd⟩
    rw [hFlag] at hFlag'
    rw [hPath, hStays hFlag'] at hPath'
    exact h proc.pid s cg hState hFlag' hPath'
  · rw [hDemoted]
    dsimp only
    obtain hNone | ⟨cg, hRestore, hThrottled, hCg⟩ :=
      demotionDecisions_cases { s with cgroupPath := proc.cgroupPath }
    · rw [hNone]
      exact ⟨h.insert (fun _ _ _ _ hWeight => hWeight) (hUnflagged hFlag _),
        fun d hd => by cases hd⟩
    · rw [hRestore]
      have hOwner : Owner t inp proc.pid cg :=
        (h proc.pid s cg hState hThrottled ((hStays hThrottled).symm.trans hCg)).1
      refine ⟨h.insert (fun pid' cg' hPid hOwner' hWeight => ?_) (hUnflagged hFlag _),
        fun d hd => ?_⟩
      · refine (if_neg fun hEq : cg' = cg => ?_).trans hWeight
        exact hPid (hOne pid' proc.pid cg (hEq ▸ hOwner') hOwner)
      · cases List.mem_singleton.mp hd
        exact ⟨proc.pid, hOwner⟩

/-- The processes of the list, and their paths after the loop. -/
theorem weighed_trackAll (p : Params) (now : Instant) (rssD : Map Pid Kb) (hOne : OneOwner t inp)
    {procs : List Process} (hDistinct : (procs.map Process.pid).Nodup)
    (h : Weighed t inp weight spikes files)
    (hStays : ∀ pr ∈ procs, ∀ s, spikes.lookup pr.pid = some s → s.cpuThrottled = true →
      pr.cgroupPath = s.cgroupPath) :
    Weighed t inp weight (trackAll p now rssD procs spikes).1
        (files.applyAll (writesOf inp (trackAll p now rssD procs spikes).2.1)) ∧
      Owned t inp (trackAll p now rssD procs spikes).2.1 ∧
      (∀ pid, pid ∉ procs.map Process.pid →
        (trackAll p now rssD procs spikes).1.lookup pid = spikes.lookup pid) ∧
      ∀ pr ∈ procs, ∀ s, (trackAll p now rssD procs spikes).1.lookup pr.pid = some s →
        s.cgroupPath = pr.cgroupPath := by
  induction procs generalizing spikes files with
  | nil =>
      exact ⟨h, fun d hd => (by cases hd), fun _ _ => rfl, fun pr hpr => (by cases hpr)⟩
  | cons proc rest ih =>
      obtain ⟨hFresh, hRest⟩ := List.nodup_cons.mp hDistinct
      have hStaysRest : ∀ pr ∈ rest, ∀ s, spikes.lookup pr.pid = some s → s.cpuThrottled = true →
          pr.cgroupPath = s.cgroupPath := fun pr hpr => hStays pr (List.mem_cons_of_mem proc hpr)
      unfold trackAll
      cases hState : spikes.lookup proc.pid with
      | none =>
          obtain ⟨hWeighed, hOwned, hOthers, hPaths⟩ := ih hRest h hStaysRest
          refine ⟨hWeighed, hOwned, fun pid hPid => ?_, fun pr hpr s hs => ?_⟩
          · exact hOthers pid fun hMem => hPid (List.mem_cons_of_mem _ hMem)
          · cases List.mem_cons.mp hpr with
            | inl hHere =>
                rw [hHere, hOthers proc.pid hFresh, hState] at hs
                cases hs
            | inr hThere => exact hPaths pr hThere s hs
      | some state =>
          obtain ⟨hHere, hHereOwned⟩ := weighed_track p now rssD hOne h hState
            fun hFlag => hStays proc List.mem_cons_self state hState hFlag
          have hStaysHere : ∀ pr ∈ rest, ∀ s,
              (spikes.insert proc.pid (track p now rssD proc state).1).lookup pr.pid = some s →
              s.cpuThrottled = true → pr.cgroupPath = s.cgroupPath := by
            intro pr hpr s hs
            have hNe : pr.pid ≠ proc.pid := fun hEq =>
              hFresh (hEq ▸ List.mem_map_of_mem hpr)
            rw [lookup_insert_eq, if_neg hNe] at hs
            exact hStaysRest pr hpr s hs
          obtain ⟨hWeighed, hOwned, hOthers, hPaths⟩ := ih hRest hHere hStaysHere
          dsimp only
          rw [writesOf_append, CpuFiles.applyAll_append]
          refine ⟨hWeighed, owned_append hHereOwned hOwned, fun pid hPid => ?_,
            fun pr hpr s hs => ?_⟩
          · rw [hOthers pid fun hMem => hPid (List.mem_cons_of_mem _ hMem), lookup_insert_eq,
              if_neg fun hEq : pid = proc.pid => hPid (hEq ▸ List.mem_cons_self)]
          · cases List.mem_cons.mp hpr with
            | inl hEq =>
                rw [hEq, hOthers proc.pid hFresh, lookup_insert_eq, if_pos rfl] at hs
                cases hs
                rw [hEq]
                exact (track_cases p now rssD proc state).1
            | inr hThere => exact hPaths pr hThere s hs

/-! ### Step 4 of the update -/

/-- The CPU check of one process. -/
theorem weighed_checkCpu (hOn : inp.cfg.spikeModeEnabled = true) (hOne : OneOwner t inp)
    (hWeight : weight = inp.cfg.spikeThrottledCpuWeight) {proc : Process}
    (hProc : proc ∈ inp.procs) (h : Weighed t inp weight spikes files)
    (hPath : ∀ s, spikes.lookup proc.pid = some s → s.cgroupPath = proc.cgroupPath)
    (hTracking : ∀ s, spikes.lookup proc.pid = some s → s.phase = .tracking →
      TrackedNow t inp proc.pid) :
    Weighed t inp weight
        (checkCpu (Params.fromConfig inp.cfg) inp.foregroundPid proc spikes).1
        (files.applyAll (writesOf inp
          (checkCpu (Params.fromConfig inp.cfg) inp.foregroundPid proc spikes).2)) ∧
      Owned t inp (checkCpu (Params.fromConfig inp.cfg) inp.foregroundPid proc spikes).2 ∧
      ∀ pid s, (checkCpu (Params.fromConfig inp.cfg) inp.foregroundPid proc spikes).1.lookup pid =
        some s → ∃ s', spikes.lookup pid = some s' ∧ s'.cgroupPath = s.cgroupPath ∧
          s'.phase = s.phase := by
  obtain hNothing | ⟨state, cg, hState, hPhase, hBackground, hCg, hStep⟩ :=
    checkCpu_cases (Params.fromConfig inp.cfg) inp.foregroundPid proc spikes
  · rw [hNothing]
    exact ⟨h, fun d hd => (by cases hd), fun pid s hs => ⟨s, hs, rfl, rfl⟩⟩
  have hInserted : ∀ flag pid s, (spikes.insert proc.pid
      { state with cpuThrottled := flag }).lookup pid = some s →
      ∃ s', spikes.lookup pid = some s' ∧ s'.cgroupPath = s.cgroupPath ∧
        s'.phase = s.phase := by
    intro flag pid s hs
    rw [lookup_insert_eq] at hs
    split at hs
    · next hPid =>
        cases hs
        exact ⟨state, hPid ▸ hState, rfl, rfl⟩
    · exact ⟨s, hs, rfl, rfl⟩
  have hProcCg : proc.cgroupPath = some cg := (hPath state hState).symm.trans hCg
  obtain ⟨hBusy, -, hUp⟩ | ⟨-, hFlagged, hDown⟩ := hStep
  · rw [hUp]
    have hOwner : Owner t inp proc.pid cg :=
      ⟨proc, hProc, rfl, hProcCg,
        Or.inr ⟨hOn, hTracking state hState hPhase, hBackground, hBusy⟩⟩
    refine ⟨h.insert (fun pid' cg' _ _ hKept => ?_) fun cg' _ hCg' => ?_,
      fun d hd => ?_, hInserted true⟩
    · show (if cg' = cg then some inp.cfg.spikeThrottledCpuWeight
        else files.weight cg') = some weight
      rw [hWeight] at hKept ⊢
      split
      · rfl
      · exact hKept
    · have hEq : cg = cg' := Option.some.inj (hCg.symm.trans hCg')
      subst hEq
      exact ⟨hOwner, (if_pos rfl).trans (congrArg some hWeight.symm)⟩
    · cases List.mem_singleton.mp hd
      exact ⟨proc.pid, hOwner⟩
  · rw [hDown]
    have hOwner : Owner t inp proc.pid cg := (h proc.pid state cg hState hFlagged hCg).1
    refine ⟨h.insert (fun pid' cg' hPid hOwner' hKept => ?_) fun _ hFlag _ => ?_,
      fun d hd => ?_, hInserted false⟩
    · refine (if_neg fun hEq : cg' = cg => ?_).trans hKept
      exact hPid (hOne pid' proc.pid cg (hEq ▸ hOwner') hOwner)
    · cases hFlag
    · cases List.mem_singleton.mp hd
      exact ⟨proc.pid, hOwner⟩

theorem weighed_checkCpuAll (hOn : inp.cfg.spikeModeEnabled = true) (hOne : OneOwner t inp)
    (hWeight : weight = inp.cfg.spikeThrottledCpuWeight) (procs : List Process)
    (hProcs : ∀ pr ∈ procs, pr ∈ inp.procs) (h : Weighed t inp weight spikes files)
    (hPaths : ∀ pr ∈ procs, ∀ s, spikes.lookup pr.pid = some s → s.cgroupPath = pr.cgroupPath)
    (hTracking : ∀ pid s, spikes.lookup pid = some s → s.phase = .tracking →
      TrackedNow t inp pid) :
    Weighed t inp weight
        (checkCpuAll (Params.fromConfig inp.cfg) inp.foregroundPid procs spikes).1
        (files.applyAll (writesOf inp
          (checkCpuAll (Params.fromConfig inp.cfg) inp.foregroundPid procs spikes).2)) ∧
      Owned t inp (checkCpuAll (Params.fromConfig inp.cfg) inp.foregroundPid procs spikes).2 := by
  induction procs generalizing spikes files with
  | nil => exact ⟨h, fun d hd => by cases hd⟩
  | cons proc rest ih =>
      obtain ⟨hHere, hHereOwned, hKept⟩ := weighed_checkCpu hOn hOne hWeight
        (hProcs proc List.mem_cons_self) h (hPaths proc List.mem_cons_self) (hTracking proc.pid)
      have hPathsHere : ∀ pr ∈ rest, ∀ s,
          (checkCpu (Params.fromConfig inp.cfg) inp.foregroundPid proc spikes).1.lookup pr.pid =
            some s → s.cgroupPath = pr.cgroupPath := by
        intro pr hpr s hs
        obtain ⟨s', hs', hSamePath, -⟩ := hKept pr.pid s hs
        exact hSamePath.symm.trans (hPaths pr (List.mem_cons_of_mem proc hpr) s' hs')
      have hTrackingHere : ∀ pid s,
          (checkCpu (Params.fromConfig inp.cfg) inp.foregroundPid proc spikes).1.lookup pid =
            some s → s.phase = .tracking → TrackedNow t inp pid := by
        intro pid s hs hPhase
        obtain ⟨s', hs', -, hSamePhase⟩ := hKept pid s hs
        exact hTracking pid s' hs' (hSamePhase.trans hPhase)
      obtain ⟨hRest, hRestOwned⟩ := ih (fun pr hpr => hProcs pr (List.mem_cons_of_mem proc hpr))
        hHere hPathsHere hTrackingHere
      unfold checkCpuAll
      rw [writesOf_append, CpuFiles.applyAll_append]
      exact ⟨hRest, owned_append hHereOwned hRestOwned⟩

/-! ### The cycle -/

theorem writesOf_releases (victims : List SpikeVictim) :
    writesOf inp (if victims.isEmpty then [] else [.releaseVictims victims]) = [] := by
  split
  · rfl
  · rfl

theorem writesOf_headroom (p : Params) (available : Kb) (spikes : Map Pid SpikeState) :
    writesOf inp (headroomDecisions p available spikes) = [] := by
  obtain hNone | ⟨needed, hAsked⟩ := headroomDecisions_cases p available spikes
  · rw [hNone]
    rfl
  · rw [hAsked]
    rfl

theorem owned_headroom (p : Params) (available : Kb) (spikes : Map Pid SpikeState) :
    Owned t inp (headroomDecisions p available spikes) := by
  intro d hd
  obtain hNone | ⟨needed, hAsked⟩ := headroomDecisions_cases p available spikes
  · rw [hNone] at hd
    cases hd
  · rw [hAsked] at hd
    rw [List.mem_singleton.mp hd]
    trivial

/-- A spike flagged among the registered ones was throttled before and runs. -/
theorem registered_flagged {pid : Pid} {s : SpikeState}
    (h : (registered t inp).lookup pid = some s) (hFlag : s.cpuThrottled = true) :
    t.spikes.lookup pid = some s ∧ pid ∈ inp.procs.map Process.pid := by
  have hReleased := foldl_register_flagged inp.procs h hFlag
  rw [releaseVictims_spikes_lookup] at hReleased
  split at hReleased
  · next hLive => exact ⟨hReleased, hLive⟩
  · cases hReleased

variable (t inp) in
/-- The update, from spikes whose cgroups have the weight. -/
theorem weighed_update (hOn : inp.cfg.spikeModeEnabled = true) (hOne : OneOwner t inp)
    (hWeight : weight = inp.cfg.spikeThrottledCpuWeight)
    (hDistinct : (inp.procs.map Process.pid).Nodup)
    (hStays : ∀ pid s, t.spikes.lookup pid = some s → s.cpuThrottled = true →
      ∀ pr ∈ inp.procs, pr.pid = pid → pr.cgroupPath = s.cgroupPath)
    (h : Weighed t inp weight (registered t inp) files) :
    Weighed t inp weight
        ((releaseVictims t inp).1.update inp.procs inp.available (Params.fromConfig inp.cfg)
          inp.now inp.foregroundPid).1.spikes
        (files.applyAll (writesOf inp ((releaseVictims t inp).1.update inp.procs inp.available
          (Params.fromConfig inp.cfg) inp.now inp.foregroundPid).2)) ∧
      Owned t inp ((releaseVictims t inp).1.update inp.procs inp.available
        (Params.fromConfig inp.cfg) inp.now inp.foregroundPid).2 := by
  obtain ⟨hTracked, hTrackedOwned, -, hPaths⟩ := weighed_trackAll (Params.fromConfig inp.cfg)
    inp.now (rssDeltas (releaseVictims t inp).1.prevRss inp.procs) hOne hDistinct h
    fun pr hpr s hs hFlag =>
      hStays pr.pid s (registered_flagged hs hFlag).1 hFlag pr hpr rfl
  have hSpikes := drained_spikes (releaseVictims t inp).1 inp.procs (Params.fromConfig inp.cfg)
    inp.now
  obtain ⟨hChecked, hCheckedOwned⟩ := weighed_checkCpuAll hOn hOne hWeight
    inp.procs (fun pr hpr => hpr) hTracked hPaths fun pid s hs hPhase => ⟨s, hs, hPhase⟩
  have hDecisions : ((releaseVictims t inp).1.update inp.procs inp.available
      (Params.fromConfig inp.cfg) inp.now inp.foregroundPid).2 =
      (tracked (releaseVictims t inp).1 inp.procs (Params.fromConfig inp.cfg) inp.now).2.1 ++
        (if (drained (releaseVictims t inp).1 inp.procs (Params.fromConfig inp.cfg)
            inp.now).2.isEmpty then []
          else [.releaseVictims (drained (releaseVictims t inp).1 inp.procs
            (Params.fromConfig inp.cfg) inp.now).2]) ++
        headroomDecisions (Params.fromConfig inp.cfg) inp.available
          (tracked (releaseVictims t inp).1 inp.procs (Params.fromConfig inp.cfg) inp.now).1 ++
        (checkCpuAll (Params.fromConfig inp.cfg) inp.foregroundPid inp.procs
          (tracked (releaseVictims t inp).1 inp.procs (Params.fromConfig inp.cfg)
            inp.now).1).2 := by
    rw [← hSpikes]
    rfl
  have hAfter : ((releaseVictims t inp).1.update inp.procs inp.available
      (Params.fromConfig inp.cfg) inp.now inp.foregroundPid).1.spikes =
      (checkCpuAll (Params.fromConfig inp.cfg) inp.foregroundPid inp.procs
        (tracked (releaseVictims t inp).1 inp.procs (Params.fromConfig inp.cfg) inp.now).1).1 := by
    rw [← hSpikes]
    rfl
  rw [hDecisions, hAfter]
  constructor
  · rw [writesOf_append, writesOf_append, writesOf_append, writesOf_releases, writesOf_headroom,
      List.append_nil, List.append_nil, CpuFiles.applyAll_append]
    exact hChecked
  · refine owned_append (owned_append (owned_append hTrackedOwned ?_) ?_) hCheckedOwned
    · intro d hd
      split at hd
      · cases hd
      · rw [List.mem_singleton.mp hd]
        trivial
    · exact owned_headroom _ _ _

/-- Of the cycle this much: throttled spikes keep their weight, and what nobody
owns is left alone. -/
theorem weighed_runSpikeCycle (files : CpuFiles) (hOne : OneOwner t inp)
    (hDistinct : (inp.procs.map Process.pid).Nodup)
    (hStays : ∀ pid s, t.spikes.lookup pid = some s → s.cpuThrottled = true →
      ∀ pr ∈ inp.procs, pr.pid = pid → pr.cgroupPath = s.cgroupPath)
    (hBefore : ∀ pid s cg, t.spikes.lookup pid = some s → s.cpuThrottled = true →
      s.cgroupPath = some cg → Owner t inp pid cg →
      files.weight cg = some inp.cfg.spikeThrottledCpuWeight) :
    (∀ pid s cg, (runSpikeCycle t inp).1.spikes.lookup pid = some s → s.cpuThrottled = true →
        s.cgroupPath = some cg → (files.applyAll ((runSpikeCycle t inp).2.map cpuWrite)).weight cg =
          some inp.cfg.spikeThrottledCpuWeight) ∧
      ∀ cg, (∀ pid, ¬ Owner t inp pid cg) →
        (files.applyAll ((runSpikeCycle t inp).2.map cpuWrite)).weight cg = files.weight cg := by
  have hOwner : ∀ pid s cg, t.spikes.lookup pid = some s → s.cpuThrottled = true →
      s.cgroupPath = some cg → pid ∈ inp.procs.map Process.pid → Owner t inp pid cg := by
    intro pid s cg hs hFlag hCg hLive
    obtain ⟨pr, hpr, hPid⟩ := List.mem_map.mp hLive
    exact ⟨pr, hpr, hPid, (hStays pid s hs hFlag pr hpr hPid).trans hCg,
      Or.inl ⟨s, hPid ▸ hs, hFlag⟩⟩
  have hRegistered : Weighed t inp inp.cfg.spikeThrottledCpuWeight (registered t inp) files := by
    intro pid s cg hs hFlag hCg
    obtain ⟨hOld, hLive⟩ := registered_flagged hs hFlag
    have hOwn := hOwner pid s cg hOld hFlag hCg hLive
    exact ⟨hOwn, hBefore pid s cg hOld hFlag hCg hOwn⟩
  have hSpikes : (runSpikeCycle t inp).1.spikes =
      (spikeDecisions (releaseVictims t inp).1 inp).1.spikes := foldl_executeDecision_spikes _ _
  rw [hSpikes]
  have hWrites : (runSpikeCycle t inp).2.map cpuWrite =
      writesOf inp (spikeDecisions (releaseVictims t inp).1 inp).2 := rfl
  rw [hWrites]
  unfold spikeDecisions
  split
  · next hOn =>
      obtain ⟨hWeighed, hOwned⟩ := weighed_update t inp hOn hOne rfl hDistinct hStays hRegistered
      exact ⟨fun pid s cg hs hFlag hCg => (hWeighed pid s cg hs hFlag hCg).2,
        fun cg hFree => weight_of_owned hOwned hFree files⟩
  · refine ⟨fun pid s cg hs hFlag hCg => ?_, fun _ _ => rfl⟩
    rw [releaseVictims_spikes_lookup] at hs
    split at hs
    · next hLive =>
        exact hBefore pid s cg hs hFlag hCg (hOwner pid s cg hs hFlag hCg hLive)
    · cases hs

end Spikes

/-! ## Runs -/

structure Inv (w : World) : Prop where
  manager : ManagerKeeps w
  spikes : ∀ pid s cg, w.tracker.spikes.lookup pid = some s → s.cpuThrottled = true →
    s.cgroupPath = some cg → w.files.weight cg = some w.spikeWeight

theorem succeeding_allOk (ws : List SpikeWrite) : succeeding .allOk ws = ws :=
  List.filter_eq_self.mpr fun _ _ => rfl

theorem inv_step {w : World} {c : Cycle} (h : Inv w) (hOk : WritesSucceed w c)
    (hApart : Apart w c) : Inv (step w c) := by
  have hOne : OneOwner w.tracker c.spike := by
    intro pid pid' cg hOwner hOwner'
    obtain ⟨pr, hpr, hPid, hCg, hMay⟩ := hOwner
    obtain ⟨pr', hpr', hPid', hCg', hMay'⟩ := hOwner'
    rw [← hPid, ← hPid']
    exact hApart.alone pr hpr pr' hpr' hMay hMay' cg hCg hCg'
  have hUnmanaged : ∀ pid cg, Owner w.tracker c.spike pid cg → ¬ Managed w c cg := by
    intro pid cg hOwner
    obtain ⟨pr, hpr, -, hCg, hMay⟩ := hOwner
    exact hApart.apart pr hpr hMay cg hCg
  have hTracker : (runThrottle w c.throttle).tracker = w.tracker := by
    cases c.throttle with
    | none => rfl
    | some args => rfl
  have hManager := runThrottle_keeps hOk h.manager
  obtain ⟨hWeighed, hFrame⟩ := weighed_runSpikeCycle (runThrottle w c.throttle).files
    hOne hApart.distinct hApart.stays fun pid s cg hs hFlag hCg hOwner => by
      rw [(runThrottle_of_unmanaged hOk (hUnmanaged pid cg hOwner)).2,
        hApart.weight pid ⟨s, hs, hFlag⟩]
      exact h.spikes pid s cg hs hFlag hCg
  have hFiles : (step w c).files = (runThrottle w c.throttle).files.applyAll
      ((runSpikeCycle w.tracker c.spike).2.map cpuWrite) := by
    simp only [step, runSpikes, hOk.1, succeeding_allOk, hTracker]
  have hAfter : (step w c).tracker = (runSpikeCycle w.tracker c.spike).1 := by
    simp only [step, runSpikes, hTracker]
  constructor
  · intro cg hLowered
    have hFree : ∀ pid, ¬ Owner w.tracker c.spike pid cg := by
      intro pid hOwner
      have hNot := (runThrottle_of_unmanaged hOk (hUnmanaged pid cg hOwner)).1
      rw [show (runThrottle w c.throttle).throttle.isLowered cg = true from hLowered] at hNot
      cases hNot
    rw [hFiles, hFrame cg hFree]
    exact hManager cg hLowered
  · intro pid s cg hs hFlag hCg
    rw [hFiles]
    rw [hAfter] at hs
    exact hWeighed pid s cg hs hFlag hCg

theorem inv_start : Inv .start where
  manager := fun _ hLowered => by cases hLowered
  spikes := fun _ _ _ hs => by cases hs

/--
**The two keep their promises apart.**  In every run whose writes succeed and in
which no cgroup is in the hands of both, a lowered cgroup has weight 1 and the
cgroup of a throttled spike the spike weight, after every cycle.
-/
theorem consistent_of_apart (cycles : List Cycle) (hOk : EveryStep step WritesSucceed .start cycles)
    (hApart : EveryStep step Apart .start cycles) : Always step Consistent .start cycles := by
  have hInv : Always step Inv .start cycles :=
    always_of_invariant (fun w c h hBoth => inv_step h hBoth.1 hBoth.2) inv_start (hOk.and hApart)
  exact hInv.imp fun w h =>
    ⟨fun _ => h.manager, fun pid s cg hs hFlag hCg _ => h.spikes pid s cg hs hFlag hCg⟩

/-! ## A compiler beside a file indexer, and one in the background -/

/-- Both writers run, at a PSI of 10%. -/
def pressureCycle (cfg : CompiledConfig) (secs : Nat) (procs : List Process) : Cycle where
  throttle := some
    { planProcs := procs
      activePid := none
      active := true
      psiSomeAvg10 := 10
      cfg := cfg
      clock := ⟨fun _ => Instant.ofSecs secs, fun _ => Instant.ofSecs secs⟩
      sysfs := .allOk }
  spike := { SpikeThrottle.cycleAt secs procs with cfg := cfg }
  sysfs := .allOk

/-- The build of `busyBuild`, with other processes beside it. -/
def buildBeside (cfg : CompiledConfig) (others : List Process) : List Cycle :=
  [(0, 100000), (5, 400000), (10, 900000), (15, 500000), (20, 600000), (25, 500000)].map
    fun (secs, rss) => pressureCycle cfg secs (SpikeThrottle.rustc rss 95 :: others)

theorem writesSucceed_buildBeside (cfg : CompiledConfig) (others : List Process) :
    EveryStep step WritesSucceed .start (buildBeside cfg others) := by
  refine everyStep_of_forall_mem (fun c hc => ?_) _
  obtain ⟨⟨secs, rss⟩, -, hCycle⟩ := List.mem_map.mp hc
  rw [← hCycle]
  exact ⟨rfl, fun args hArgs => by cases hArgs; rfl⟩

/-- The indexer is the manager's, the compiler spike mode's. -/
def indexerBeside : CompiledConfig :=
  { SpikeThrottle.buildConfig with entries := [⟨Regex.exact "baloo_file", 90, none⟩] }

theorem indexerBeside_consistent :
    Always step Consistent .start (buildBeside indexerBeside [ThrottleLedger.indexer]) :=
  consistent_of_apart _ (writesSucceed_buildBeside indexerBeside _) (by decide +kernel)

/-- The compiler is expendable itself. -/
def expendableBuild : CompiledConfig :=
  { SpikeThrottle.buildConfig with entries := [⟨Regex.exact "rustc", 70, none⟩] }

/-- The manager lowers the compiler's cgroup, and spike mode raises it again
under its hands. -/
theorem expendableBuild_inconsistent :
    ¬ ∀ cycles : List Cycle, EveryStep step WritesSucceed .start cycles →
      Always step Consistent .start cycles := by
  intro hAll
  have hLast := (hAll (buildBeside expendableBuild [])
    (writesSucceed_buildBeside expendableBuild [])).last
  have hUpdated : (run step .start (buildBeside expendableBuild [])).updated = true := by
    decide +kernel
  have hLowered : (run step .start (buildBeside expendableBuild [])).throttle.isLowered
      "/user.slice/app-4000.scope" = true := by decide +kernel
  have hWeight : (run step .start (buildBeside expendableBuild [])).files.weight
      "/user.slice/app-4000.scope" = some 20 := by decide +kernel
  have hKept := hLast.1 hUpdated _ hLowered
  rw [hWeight] at hKept
  exact absurd hKept (by decide)

end Mgd.Evictor.CpuWeights
