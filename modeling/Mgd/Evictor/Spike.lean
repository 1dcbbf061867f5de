import Mgd.Engine.Planner
import Mgd.Executor.Registry
import Mgd.SpikeMode

/-!
# The spike-mode cycle

`evictor/spike.rs`: release the victims that are due, feed the tracker, execute
its decisions.  It runs in every full cycle and on every timeout of the PSI
wait.

The result of a SIGCONT is only logged, so `releaseVictims` gives the victims
it signals.  A write to `cpu.weight` is given as a `SpikeWrite`; its outcome is
ignored.  The push of a victim to zram is outside the model.
-/

namespace Mgd.Evictor.Spike

open Mgd.Types Mgd.Monitor Mgd.Config Mgd.Lib.AssocMap Mgd.Lib.Greedy Mgd.SpikeMode
open Mgd.Engine.Planner Mgd.Executor.Registry

/-- What the cycle is given and reads. -/
structure SpikeInput where
  cfg : CompiledConfig
  procs : List Process
  available : Kb
  manualRelease : List Pid
  /-- the active window, as `update` reads it -/
  foregroundPid : Option Pid
  /-- the active window, as the headroom freeze reads it -/
  activePid : Option Pid
  /-- the PIDs in the `FrozenRegistry` -/
  frozenPids : List Pid
  startTime : Pid → Option Nat
  kill : KillSyscall
  now : Instant

/-- A write of spike mode to `cpu.weight`. -/
inductive SpikeWrite
  | throttled (cgroupPath : String) (weight : Nat)
  | restored (cgroupPath : String)
deriving DecidableEq, Repr

/-! ## Releasing -/

/-- Tracked spikes that no process of the list has the PID of. -/
def exitedSpikes (t : SpikeTracker) (procs : List Process) : List Pid :=
  t.spikePids.filter (fun pid => decide (pid ∉ procs.map Process.pid))

/-- The exit of one spike, after those before it. -/
def exitOne (acc : SpikeTracker × List SpikeVictim) (spikePid : Pid) :
    SpikeTracker × List SpikeVictim :=
  let here := acc.1.onSpikeExit spikePid
  (here.1, acc.2 ++ here.2)

def exitSpikes (t : SpikeTracker) (exited : List Pid) : SpikeTracker × List SpikeVictim :=
  exited.foldl exitOne (t, [])

def releaseVictims (t : SpikeTracker) (inp : SpikeInput) : SpikeTracker × List SpikeVictim :=
  let exit := exitSpikes t (exitedSpikes t inp.procs)
  let timedOut := exit.1.drainTimedOutVictims inp.now inp.cfg.spikeMaxVictimFreezeSec
  let orphaned := timedOut.1.drainOrphanedVictims
  let requested := orphaned.1.releaseRequested inp.now inp.manualRelease
  (requested.1, exit.2 ++ timedOut.2 ++ orphaned.2 ++ requested.2)

/-! ## Freezing for headroom -/

/-- Frozen PIDs and victims, and the spikes themselves on request. -/
def excludedPids (frozenPids : List Pid) (t : SpikeTracker) (includeSpikePids : Bool) :
    List Pid :=
  let base := frozenPids ++ t.victimPids
  if includeSpikePids then base ++ t.spikePids else base

def isHeadroomCandidate (t : SpikeTracker) (inp : SpikeInput) (p : Process) : Bool :=
  decide (p.pid ∉ excludedPids inp.frozenPids t true) &&
  decide (inp.activePid ≠ some p.pid) &&
  !t.isVictimCooldown inp.now p.pid 60 &&
  decide ((p.rssKb.saturatingAdd p.swapKb).val ≥ inp.cfg.spikeVictimMinRssKb.val) &&
  decide (getPriority p.name p.exeBasename inp.cfg ≥ 60) &&
  !inp.cfg.spikeVictimExclude.any (fun re => re.isMatch p.name)

/-- Most expendable first, then largest RSS. -/
def headroomCandidates (t : SpikeTracker) (inp : SpikeInput) : List Process :=
  sortDesc (fun p => (toLex (getPriority p.name p.exeBasename inp.cfg, p.rssKb.val) : ℕ ×ₗ ℕ))
    (inp.procs.filter (isHeadroomCandidate t inp))

/-- Freeze candidates until what is needed is covered.  `spikePid` is only
informational. -/
def freezeForHeadroom (inp : SpikeInput) (spikePid : Pid) :
    Kb → List Process → SpikeTracker → SpikeTracker
  | _, [], t => t
  | needed, proc :: rest, t =>
      if needed.val = 0 then t
      else
        match inp.startTime proc.pid with
        | none => freezeForHeadroom inp spikePid needed rest t
        | some st =>
            if (freezeChecked inp.kill inp.startTime proc.pid st).success then
              let victim : SpikeVictim :=
                { pid := proc.pid
                  name := proc.name
                  startTime := st
                  frozenForSpikePid := spikePid
                  frozenAt := inp.now }
              freezeForHeadroom inp spikePid (needed.saturatingSub proc.rssKb) rest
                (t.recordVictimFrozen victim)
            else freezeForHeadroom inp spikePid needed rest t

/-! ## Executing -/

/-- What one decision does to the tracker. -/
def executeDecision (inp : SpikeInput) (t : SpikeTracker) : SpikeDecision → SpikeTracker
  | .freezeForHeadroom needed =>
      freezeForHeadroom inp (t.spikePids.head?.getD Pid.none) needed
        (headroomCandidates t inp) t
  | .throttleSpike _ _ => t
  | .restoreThrottle _ _ => t
  | .releaseVictims _ => t

/-- What one decision writes. -/
def decisionWrites (cfg : CompiledConfig) : SpikeDecision → List SpikeWrite
  | .throttleSpike _ cg => [.throttled cg cfg.spikeThrottledCpuWeight]
  | .restoreThrottle _ cg => [.restored cg]
  | .freezeForHeadroom _ => []
  | .releaseVictims _ => []

/-- The decisions of the cycle: none while spike mode is off. -/
def spikeDecisions (t : SpikeTracker) (inp : SpikeInput) : SpikeTracker × List SpikeDecision :=
  if inp.cfg.spikeModeEnabled then
    t.update inp.procs inp.available (Params.fromConfig inp.cfg) inp.now inp.foregroundPid
  else (t, [])

def runSpikeCycle (t : SpikeTracker) (inp : SpikeInput) : SpikeTracker × List SpikeWrite :=
  let decided := spikeDecisions (releaseVictims t inp).1 inp
  (decided.2.foldl (executeDecision inp) decided.1,
    decided.2.flatMap (decisionWrites inp.cfg))

/-! ## What leaves the spikes alone

Only an exit, the update and nothing else changes which spikes are tracked. -/

section Spikes

variable {t : SpikeTracker} {inp : SpikeInput}

@[simp] theorem drainIfNoneTracking_spikes (t : SpikeTracker) :
    t.drainIfNoneTracking.1.spikes = t.spikes := by
  unfold SpikeTracker.drainIfNoneTracking
  split <;> rfl

@[simp] theorem drainOrphanedVictims_spikes (t : SpikeTracker) :
    t.drainOrphanedVictims.1.spikes = t.spikes :=
  drainIfNoneTracking_spikes t

@[simp] theorem onSpikeExit_spikes (t : SpikeTracker) (spikePid : Pid) :
    (t.onSpikeExit spikePid).1.spikes = t.spikes.erase spikePid := by
  unfold SpikeTracker.onSpikeExit
  exact drainIfNoneTracking_spikes _

theorem foldl_releaseOne_spikes (now : Instant) (pids : List Pid)
    (acc : SpikeTracker × List SpikeVictim) :
    (pids.foldl (SpikeTracker.releaseOne now) acc).1.spikes = acc.1.spikes := by
  induction pids generalizing acc with
  | nil => rfl
  | cons pid rest ih =>
      rw [List.foldl_cons, ih]
      unfold SpikeTracker.releaseOne
      split <;> rfl

@[simp] theorem releaseRequested_spikes (t : SpikeTracker) (now : Instant) (pids : List Pid) :
    (t.releaseRequested now pids).1.spikes = t.spikes :=
  foldl_releaseOne_spikes now pids (t, [])

@[simp] theorem drainTimedOutVictims_spikes (t : SpikeTracker) (now : Instant) (maxSecs : Nat) :
    (t.drainTimedOutVictims now maxSecs).1.spikes = t.spikes := by
  unfold SpikeTracker.drainTimedOutVictims
  split
  · rfl
  · exact releaseRequested_spikes t now _

/-- Exits forget their own spikes only. -/
theorem foldl_exitOne_lookup {exited : List Pid} {pid : Pid} (hpid : pid ∉ exited)
    (acc : SpikeTracker × List SpikeVictim) :
    (exited.foldl exitOne acc).1.spikes.lookup pid = acc.1.spikes.lookup pid := by
  induction exited generalizing acc with
  | nil => rfl
  | cons spikePid rest ih =>
      simp only [List.mem_cons, not_or] at hpid
      rw [List.foldl_cons, ih hpid.2]
      simp only [exitOne, onSpikeExit_spikes]
      rw [lookup_erase_eq, if_neg hpid.1]

/-- Releasing keeps the spikes that are still running. -/
theorem releaseVictims_lookup {pid : Pid} (hlive : pid ∈ inp.procs.map Process.pid) :
    (releaseVictims t inp).1.spikes.lookup pid = t.spikes.lookup pid := by
  have hpid : pid ∉ exitedSpikes t inp.procs := by
    simp only [exitedSpikes, List.mem_filter, decide_eq_true_eq, not_and, not_not]
    exact fun _ => hlive
  unfold releaseVictims
  simp only [releaseRequested_spikes, drainOrphanedVictims_spikes, drainTimedOutVictims_spikes]
  exact foldl_exitOne_lookup hpid (t, [])

@[simp] theorem freezeForHeadroom_spikes (spikePid : Pid) (needed : Kb) (procs : List Process)
    (t : SpikeTracker) :
    (freezeForHeadroom inp spikePid needed procs t).spikes = t.spikes := by
  induction procs generalizing needed t with
  | nil => rfl
  | cons proc rest ih =>
      unfold freezeForHeadroom
      split
      · rfl
      · split
        · exact ih needed t
        · split
          · exact ih _ _
          · exact ih needed t

@[simp] theorem executeDecision_spikes (t : SpikeTracker) (d : SpikeDecision) :
    (executeDecision inp t d).spikes = t.spikes := by
  cases d with
  | freezeForHeadroom needed => exact freezeForHeadroom_spikes _ _ _ t
  | throttleSpike spikePid cg => rfl
  | restoreThrottle spikePid cg => rfl
  | releaseVictims victims => rfl

theorem foldl_executeDecision_spikes (t : SpikeTracker) (ds : List SpikeDecision) :
    (ds.foldl (executeDecision inp) t).spikes = t.spikes := by
  induction ds generalizing t with
  | nil => rfl
  | cons d rest ih => rw [List.foldl_cons, ih, executeDecision_spikes]

end Spikes

end Mgd.Evictor.Spike
