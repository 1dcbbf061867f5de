import Mgd.Evictor.Execute
import Mgd.Evictor.Reclaim

/-!
# Idle reclaim and idle freeze

`check_idle_process_reclaim` of `evictor/idle_reclaim.rs`.  A process that is
not the active window gets a clock; when the clock is old enough the process is
pushed to zram in part, at most three in one pass, and a second clock freezes
it, at most two in one pass.

Each clock reading is taken per process, and each reading of a start time per
use.  What is only logged is left out.
-/

namespace Mgd.Evictor.IdleReclaim

open Mgd.Types Mgd.Monitor Mgd.Config Mgd.Lib.AssocMap Mgd.Engine.Planner
open Mgd.Executor.Registry Mgd.Evictor.Execute Mgd.Evictor.Reclaim

/-! ## Candidates -/

structure IdleReclaimConfig where
  maxSwapOccupancyPct : ℚ
  idleSec : Nat
  rssMinMb : Nat
  reclaimPct : Nat
  importantEnabled : Bool
  importantMinPriority : Nat
  importantIdleSec : Nat
  importantPct : Nat

/-- `rss_min_mb * 1024` in `u64`, which wraps in a release build. -/
def IdleReclaimConfig.rssMinKb (ic : IdleReclaimConfig) : Nat := ic.rssMinMb * 1024 % 2 ^ 64

/-- How much of a background process that has been idle for `idleSecs` seconds
is reclaimed, `none` when it is no candidate. -/
def idleReclaimBytes (ic : IdleReclaimConfig) (cfg : CompiledConfig) (idleSecs : Nat)
    (p : Process) : Option Nat :=
  let prio := getPriority p.name p.exeBasename cfg
  if prio ≥ 50 then
    if p.rssKb.val < ic.rssMinKb then none
    else if idleSecs < ic.idleSec then none
    else some (p.rssKb.percentOf ic.reclaimPct).bytes
  else if ic.importantEnabled = true ∧ prio ≥ ic.importantMinPriority then
    if p.rssKb.val < ic.rssMinKb then none
    else if idleSecs < ic.importantIdleSec then none
    else some (p.rssKb.percentOf ic.importantPct).bytes
  else none

/-- Seconds on the clock of a process, 0 when it has none. -/
def idleSecs (backgroundTracker : Map Pid Instant) (now : Pid → Instant) (pid : Pid) : Nat :=
  match backgroundTracker.lookup pid with
  | some since => Instant.secsSince (now pid) since
  | none => 0

def selectIdleCandidates (procs : List Process) (activePid : Option Pid)
    (backgroundTracker : Map Pid Instant) (now : Pid → Instant) (swapUsedPct : ℚ)
    (ic : IdleReclaimConfig) (cfg : CompiledConfig) : List (Pid × Nat) :=
  if swapUsedPct > ic.maxSwapOccupancyPct then []
  else
    procs.filterMap fun p =>
      if some p.pid = activePid then none
      else (idleReclaimBytes ic cfg (idleSecs backgroundTracker now p.pid) p).map (p.pid, ·)

/-! ## One pass -/

/-- The readings of the clock, per process. -/
structure IdleClock where
  select : Pid → Instant
  start : Pid → Instant
  reset : Pid → Instant
  freezeEnter : Pid → Instant
  freezeRead : Pid → Instant

/-- The readings of a start time: before a freeze, in the recycle check, and
when the freeze is recorded. -/
structure StartTimes where
  first : Pid → Option Nat
  check : Pid → Option Nat
  add : Pid → Option Nat

structure IdleInput where
  cfg : CompiledConfig
  idleCfg : IdleReclaimConfig
  freezeAfterSec : Option Nat
  planProcs : List Process
  activePid : Option Pid
  meminfo : MemInfo
  clock : IdleClock
  /-- Unix seconds -/
  unixNow : Nat
  fs : CgroupFs
  kill : KillSyscall
  startTimes : StartTimes
  /-- what other threads do to the registry before a freeze is recorded -/
  others : Pid → FrozenRegistry → FrozenRegistry

structure IdleState where
  pidTracker : Map Pid Instant
  freezePidTracker : Map Pid Instant
  frozen : FrozenRegistry
  /-- `LAST_IDLE_RECLAIM`, Unix seconds, 0 for never -/
  lastIdleReclaim : Nat

/-- What a pass leaves behind. -/
structure IdlePass where
  state : IdleState
  written : List ReclaimWrite
  /-- the signals delivered, oldest first -/
  signals : List (Pid × Signal)

namespace IdleInput

variable (i : IdleInput)

/-- Less than 1500 MB of free swap: the pass ends at once. -/
def swapTooFull : Bool :=
  decide (i.meminfo.swapTotalKb.val > 0) && decide (i.meminfo.swapFreeKb.val / 1024 < 1500)

/-- `swap_used_pct`, 0 without swap. -/
def swapUsedPct : ℚ :=
  if i.meminfo.swapTotalKb.val > 0 then i.meminfo.swapUsedPct else 0

def isLive (pid : Pid) : Bool := decide (pid ∈ i.planProcs.map Process.pid)

/-- The clocks of processes that are still there. -/
def liveClocks (tracker : Map Pid Instant) : Map Pid Instant :=
  retain (fun pid _ => i.isLive pid) tracker

/-- `entry(pid).or_insert_with(now)`. -/
def orInsert (tracker : Map Pid Instant) (pid : Pid) (now : Instant) : Map Pid Instant :=
  match tracker.lookup pid with
  | some _ => tracker
  | none => tracker.insert pid now

/-- Every background process gets a clock. -/
def startClock (tracker : Map Pid Instant) (p : Process) : Map Pid Instant :=
  if some p.pid ≠ i.activePid then orInsert tracker p.pid (i.clock.start p.pid) else tracker

def candidates (s : IdleState) : List (Pid × Nat) :=
  selectIdleCandidates i.planProcs i.activePid (i.liveClocks s.pidTracker) i.clock.select
    i.swapUsedPct i.idleCfg i.cfg

/-- The reclaim of one candidate.  The clock is reset also when the kernel has
nothing to reclaim right now. -/
def reclaimCandidate (acc : IdlePass) (candidate : Pid × Nat) : IdlePass :=
  if candidate.2 = 0 then acc
  else
    match cgroupOf i.planProcs candidate.1 with
    | none => acc
    | some cgroup =>
        let r := tryReclaimCgroup i.fs cgroup candidate.2 acc.written
        let acc := { acc with written := r.2 }
        let reset := acc.state.pidTracker.insert candidate.1 (i.clock.reset candidate.1)
        match r.1 with
        | .reclaimed =>
            { acc with state :=
                { acc.state with pidTracker := reset, lastIdleReclaim := i.unixNow } }
        | .blocked => { acc with state := { acc.state with pidTracker := reset } }
        | .skipped => acc
        | .failed _ => acc

/-- SIGSTOP for one process, recorded in the registry or taken back; whether it
counts as a freeze. -/
def freezeIdle (p : Process) (acc : IdlePass) : IdlePass × Bool :=
  match i.startTimes.first p.pid with
  | none => (acc, false)
  | some st =>
      if (freezeChecked i.kill i.startTimes.check p.pid st).success then
        let added := (i.others p.pid acc.state.frozen).add i.startTimes.add i.unixNow p.pid p.name
        let stopped := acc.signals ++ [(p.pid, .stop)]
        if added.2 then
          ({ acc with
              state :=
                { acc.state with
                  frozen := added.1
                  freezePidTracker := acc.state.freezePidTracker.erase p.pid }
              signals := stopped }, true)
        else
          let resumed := (sendSignal i.kill p.pid .cont).success
          ({ acc with
              state := { acc.state with frozen := added.1 }
              signals := if resumed then stopped ++ [(p.pid, .cont)] else stopped }, false)
      else (acc, false)

/-- The idle freeze over the processes left, with the freezes so far. -/
def idleFreeze (freezeSecs : Nat) : Nat → List Process → IdlePass → IdlePass
  | _, [], acc => acc
  | freezeCount, p :: rest, acc =>
      if freezeCount ≥ 2 then acc
      else if some p.pid = i.activePid then idleFreeze freezeSecs freezeCount rest acc
      else if p.rssKb.val < i.idleCfg.rssMinKb then idleFreeze freezeSecs freezeCount rest acc
      else
        let tracker := orInsert acc.state.freezePidTracker p.pid (i.clock.freezeEnter p.pid)
        let acc := { acc with state := { acc.state with freezePidTracker := tracker } }
        if idleSecs tracker i.clock.freezeRead p.pid < freezeSecs then
          idleFreeze freezeSecs freezeCount rest acc
        else
          let frozen := i.freezeIdle p acc
          idleFreeze freezeSecs (if frozen.2 then freezeCount + 1 else freezeCount) rest frozen.1

end IdleInput

def checkIdleProcessReclaim (i : IdleInput) (s : IdleState) : IdlePass :=
  if i.swapTooFull then ⟨s, [], []⟩
  else
    let chosen := i.candidates s
    let started : IdleState :=
      { s with pidTracker := i.planProcs.foldl i.startClock (i.liveClocks s.pidTracker) }
    let reclaimed := (chosen.take 3).foldl i.reclaimCandidate ⟨started, [], []⟩
    let pruned := { reclaimed with
      state := { reclaimed.state with
        freezePidTracker := i.liveClocks reclaimed.state.freezePidTracker } }
    match i.freezeAfterSec with
    | none => pruned
    | some freezeSecs => i.idleFreeze freezeSecs 0 i.planProcs pruned

/-! ## What the pass writes -/

section Writes

variable {i : IdleInput}

/-- The write a candidate stands for. -/
def IdleInput.aim (i : IdleInput) (candidate : Pid × Nat) : Option ReclaimWrite :=
  (cgroupOf i.planProcs candidate.1).map fun cgroup => ⟨cgroup, candidate.2⟩

theorem written_reclaimCandidate (acc : IdlePass) (candidate : Pid × Nat) :
    (i.reclaimCandidate acc candidate).written =
      match i.aim candidate with
      | some w => if i.fs.admits w then acc.written ++ [w] else acc.written
      | none => acc.written := by
  unfold IdleInput.reclaimCandidate IdleInput.aim
  split
  · next hZero =>
      -- nothing to reclaim: the write would not be admitted either
      cases cgroupOf i.planProcs candidate.1 with
      | none => rfl
      | some cgroup => simp [CgroupFs.admits, hZero]
  · cases cgroupOf i.planProcs candidate.1 with
    | none => rfl
    | some cgroup =>
        have hWritten := written_tryReclaimCgroup i.fs ⟨cgroup, candidate.2⟩ acc.written
        dsimp only at hWritten ⊢
        split <;> exact hWritten

theorem written_foldl_reclaimCandidate (xs : List (Pid × Nat)) (acc : IdlePass) :
    (xs.foldl i.reclaimCandidate acc).written =
      acc.written ++ (xs.filterMap i.aim).filter i.fs.admits := by
  have hFold : (xs.foldl i.reclaimCandidate acc).written =
      xs.foldl (fun written candidate =>
        match i.aim candidate with
        | some w => if i.fs.admits w then written ++ [w] else written
        | none => written) acc.written := by
    induction xs generalizing acc with
    | nil => rfl
    | cons x xs ih => rw [List.foldl_cons, List.foldl_cons, ih, written_reclaimCandidate]
  rw [hFold]
  exact foldl_written (fun _ _ => rfl) xs acc.written

theorem written_freezeIdle (p : Process) (acc : IdlePass) :
    (i.freezeIdle p acc).1.written = acc.written := by
  unfold IdleInput.freezeIdle
  split
  · rfl
  · split
    · dsimp only
      split <;> rfl
    · rfl

/-- The idle freeze writes nothing. -/
theorem written_idleFreeze (freezeSecs freezeCount : Nat) (procs : List Process)
    (acc : IdlePass) :
    (i.idleFreeze freezeSecs freezeCount procs acc).written = acc.written := by
  induction procs generalizing freezeCount acc with
  | nil => rfl
  | cons p rest ih =>
      unfold IdleInput.idleFreeze
      dsimp only
      split
      · rfl
      · split
        · exact ih _ _
        · split
          · exact ih _ _
          · split
            · exact ih _ _
            · rw [ih, written_freezeIdle]

/-- The candidate a process stands for. -/
def IdleInput.idleBytes (i : IdleInput) (s : IdleState) (p : Process) : Option (Pid × Nat) :=
  if some p.pid = i.activePid then none
  else
    (idleReclaimBytes i.idleCfg i.cfg
      (idleSecs (i.liveClocks s.pidTracker) i.clock.select p.pid) p).map (p.pid, ·)

/-- No process is a candidate once swap is filled past the limit. -/
theorem candidates_eq (i : IdleInput) (s : IdleState) :
    i.candidates s =
      if i.swapUsedPct ≤ i.idleCfg.maxSwapOccupancyPct then i.planProcs.filterMap (i.idleBytes s)
      else [] := by
  unfold IdleInput.candidates selectIdleCandidates
  by_cases hRoom : i.swapUsedPct ≤ i.idleCfg.maxSwapOccupancyPct
  · rw [if_neg (not_lt.mpr hRoom), if_pos hRoom]
    rfl
  · rw [if_pos (not_le.mp hRoom), if_neg hRoom]

/-- The pass writes for the first three candidates, unless swap is too full. -/
theorem mem_idle_iff (i : IdleInput) (s : IdleState) (w : ReclaimWrite) :
    w ∈ (checkIdleProcessReclaim i s).written ↔
      i.swapTooFull = false ∧ i.fs.admits w = true ∧
        ∃ candidate ∈ (i.candidates s).take 3, i.aim candidate = some w := by
  unfold checkIdleProcessReclaim
  cases hSwap : i.swapTooFull with
  | true => simp
  | false =>
      have hWritten : ∀ acc : IdlePass, w ∈ (match i.freezeAfterSec with
          | none => acc
          | some freezeSecs => i.idleFreeze freezeSecs 0 i.planProcs acc).written ↔
            w ∈ acc.written := by
        intro acc
        cases i.freezeAfterSec with
        | none => rfl
        | some freezeSecs => rw [written_idleFreeze]
      simp only [Bool.false_eq_true, if_false, hWritten, written_foldl_reclaimCandidate,
        List.nil_append, List.mem_filter, List.mem_filterMap, true_and]
      exact and_comm

end Writes

end Mgd.Evictor.IdleReclaim
