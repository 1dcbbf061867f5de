import Mgd.Evictor.Execute
import Mgd.Evictor.Sensing
import Mgd.Evictor.Spike
import Mgd.Throttle

/-!
# The evictor loop

`evictor::run` with the state it owns and the two registries it shares.  One
step is one iteration: a timeout of the PSI wait, a failed PSI read, or a full
cycle.  A full cycle senses the level, updates the CPU throttle when its gate
is open, runs the spike-mode cycle and, above Normal, plans and executes.

What the kernel, the clock and the active window show is in the `FullCycle`.
Other threads may change the registry of frozen processes between two uses of
it (`others`); the idle freeze, which the model leaves out, counts among them.
So does everything else the loop does that these parts do not read: memory
caps, calibration, the leak guard, the early reclaim, the log.
-/

namespace Mgd.Evictor.Run

open Mgd.Types Mgd.Monitor Mgd.Config Mgd.Lib.AssocMap Mgd.Lib.Greedy Mgd.Engine.Planner
open Mgd.Executor.Registry Mgd.SpikeMode Mgd.Throttle
open Mgd.Evictor.Scoring Mgd.Evictor.Sensing Mgd.Evictor.Spike Mgd.Evictor.Execute

/-! ## State and inputs -/

/-- The locals of `run` and the registries. -/
structure LoopState where
  controller : Controller
  throttle : ThrottleManager
  /-- the CPU files as the throttle manager wrote them -/
  cpuFiles : CpuFiles
  lastIdleReclaimCheck : Instant
  lastActivePid : Option Pid
  recentlyKilledCgroups : Map String Instant
  spikeTracker : SpikeTracker
  frozen : FrozenRegistry
  checkpointed : CheckpointRegistry
  failedBinaries : List String

/-- What the loop starts from: the counters and the clock as first read, and the
registries as the last run of the daemon left them on disk. -/
structure Startup where
  pswpin : Nat
  pswpout : Nat
  now : Instant
  frozen : FrozenRegistry
  checkpointed : CheckpointRegistry

def LoopState.new (start : Startup) : LoopState where
  controller := Controller.new start.pswpin start.pswpout start.now
  throttle := ThrottleManager.new
  cpuFiles := CpuFiles.untouched
  lastIdleReclaimCheck := start.now
  lastActivePid := none
  recentlyKilledCgroups := ∅
  spikeTracker := SpikeTracker.new
  frozen := start.frozen
  checkpointed := start.checkpointed
  failedBinaries := []

/-- What the spike-mode cycle reads for itself. -/
structure SpikeReadings where
  others : FrozenRegistry → FrozenRegistry
  manualRelease : List Pid
  foregroundPid : Option Pid
  activePid : Option Pid
  now : Instant

/-- What a full cycle reads. -/
structure FullCycle where
  cfg : CompiledConfig
  sample : Sample
  procs : List Process
  startTime : Pid → Option Nat
  kill : KillSyscall
  /-- the active window and the clock at the throttle gate -/
  activePid : Option Pid
  gateNow : Instant
  othersAtGate : FrozenRegistry → FrozenRegistry
  throttleClock : ThrottleClock
  sysfs : Sysfs
  spike : SpikeReadings
  /-- the clock, the registry and the environment at the planner -/
  planNow : Instant
  othersAtPlan : FrozenRegistry → FrozenRegistry
  planActivePid : Option Pid
  gpuKb : Pid → Kb
  checkpointSupported : Bool
  exec : ExecEnv

/-- What a timeout of the PSI wait reads. -/
structure IdleTick where
  cfg : CompiledConfig
  procs : List Process
  available : Kb
  startTime : Pid → Option Nat
  kill : KillSyscall
  spike : SpikeReadings
  now : Instant

inductive Iteration
  | waitTimeout (t : IdleTick)
  | psiError
  | cycle (c : FullCycle)

/-! ## The phases of a full cycle -/

section Phases

variable (e : LoopState) (c : FullCycle)

/-- The effective level of the cycle. -/
def effectiveLevel : PressureLevel := (e.controller.effective c.sample).1

def senseLevel : LoopState := { e with controller := e.controller.sense c.sample }

def activePidChanged : Bool := decide (c.activePid ≠ e.lastActivePid)

def idleReclaimIntervalElapsed : Bool :=
  decide (Instant.secsSince c.gateNow e.lastIdleReclaimCheck ≥ c.cfg.idleReclaimGlobalCooldownSec)

/-- The throttle is only looked at when the focus changed or the interval it
shares with the idle reclaim is over. -/
def gateOpen : Bool := activePidChanged e c || idleReclaimIntervalElapsed e c

/-- The registry after the process that got the focus is resumed. -/
def focusUnfreeze : FrozenRegistry :=
  let reg := c.othersAtGate e.frozen
  if activePidChanged e c then
    match c.activePid with
    | none => reg
    | some apid =>
        if reg.isFrozen apid then
          if (unfreezeChecked c.kill c.startTime apid (reg.startTime apid)).success then
            reg.remove apid
          else reg
        else reg
  else reg

/-- The processes the throttle manager is given. -/
def throttleProcs : List Process :=
  c.procs.filter fun p =>
    decide (p.pid ∉ excludedPids (focusUnfreeze e c).frozenPids e.spikeTracker false)

def throttleArgs (level : PressureLevel) : UpdateArgs where
  planProcs := throttleProcs e c
  activePid := c.activePid
  active := decide (level ≥ .elevated)
  psiSomeAvg10 := c.sample.someAvg10
  cfg := c.cfg
  clock := c.throttleClock
  sysfs := c.sysfs

def throttleGate (level : PressureLevel) : LoopState :=
  if gateOpen e c then
    let updated := e.throttle.update (throttleArgs e c level)
    { e with
      throttle := updated.1
      cpuFiles := e.cpuFiles.applyAll updated.2
      lastIdleReclaimCheck :=
        if idleReclaimIntervalElapsed e c then c.gateNow else e.lastIdleReclaimCheck
      lastActivePid := c.activePid
      frozen := focusUnfreeze e c }
  else e

def spikeInput : SpikeInput where
  cfg := c.cfg
  procs := c.procs
  available := c.sample.meminfo.availableKb
  manualRelease := c.spike.manualRelease
  foregroundPid := c.spike.foregroundPid
  activePid := c.spike.activePid
  frozenPids := (c.spike.others e.frozen).frozenPids
  startTime := c.startTime
  kill := c.kill
  now := c.spike.now

def spikeCycle : LoopState :=
  { e with
    spikeTracker := (runSpikeCycle e.spikeTracker (spikeInput e c)).1
    frozen := c.spike.others e.frozen }

/-! ### Planning -/

/-- The registry as the planner finds it. -/
def frozenAtPlan : FrozenRegistry := c.othersAtPlan e.frozen

/-- The cgroups targeted less than 45 s ago. -/
def ledgerAtPlan : Map String Instant :=
  retain (fun _ time => decide (Instant.secsSince c.planNow time < 45)) e.recentlyKilledCgroups

/-- The cgroup of the process was targeted lately. -/
def inTargetedCgroup (p : Process) : Bool :=
  match p.cgroupPath with
  | some cgroupPath => ((ledgerAtPlan e c).lookup cgroupPath).isSome
  | none => false

/-- The candidates: largest RSS first, without the frozen processes, the
victims, the spikes and the cgroups targeted lately. -/
def planProcs : List Process :=
  ((sortDesc (fun p => p.rssKb.val) c.procs).filter fun p =>
    decide (p.pid ∉ excludedPids (frozenAtPlan e c).frozenPids e.spikeTracker true)).filter
      fun p => !inTargetedCgroup e c p

def planEnv : PlanEnv where
  activePid := c.planActivePid
  gpuKb := c.gpuKb
  checkpointEligible := fun name => c.checkpointSupported && decide (name ∉ e.failedBinaries)

/-- Swap is exhausted at the reading of the cycle. -/
def cycleSwapExhausted : Bool :=
  swapExhausted c.sample.meminfo.swapUsedPct c.sample.meminfo.swapTotalKb

/-- The decisions of the cycle, each next to its process. -/
def decided (level : PressureLevel) : List (Process × Decision) :=
  planned level (planProcs e c) c.sample.meminfo.availableKb c.sample.meminfo.totalKb
    (cycleSwapExhausted c) c.cfg (planEnv e c)

def execution (level : PressureLevel) : Execution :=
  executePlan c.exec (planProcs e c) ((decided e c level).map Prod.snd)
    { frozen := frozenAtPlan e c
      checkpointed := e.checkpointed
      recentlyKilledCgroups := ledgerAtPlan e c
      failedBinaries := e.failedBinaries
      calls := [] }

/-- At Normal the cycle ends before the planner. -/
def planAndExecute (level : PressureLevel) : LoopState :=
  if level = .normal then e
  else
    let done := (execution e c level).state
    { e with
      recentlyKilledCgroups := done.recentlyKilledCgroups
      frozen := done.frozen
      checkpointed := done.checkpointed
      failedBinaries := done.failedBinaries }

/-! ### The cycle -/

/-- The state of the loop when the planner runs. -/
def beforePlan : LoopState :=
  spikeCycle (throttleGate (senseLevel e c) c (effectiveLevel e c)) c

def fullCycle : LoopState := planAndExecute (beforePlan e c) c (effectiveLevel e c)

/-- The decisions of a full cycle. -/
def cycleDecisions : List (Process × Decision) := decided (beforePlan e c) c (effectiveLevel e c)

/-- The decisions the cycle executes. -/
def cycleExecuted : List Decision :=
  if effectiveLevel e c = .normal then []
  else (execution (beforePlan e c) c (effectiveLevel e c)).executed

/-- The cgroups the cycle targets. -/
def cycleTargets : List Targeting :=
  if effectiveLevel e c = .normal then []
  else (execution (beforePlan e c) c (effectiveLevel e c)).targeted

end Phases

def idleSpikeInput (e : LoopState) (t : IdleTick) : SpikeInput where
  cfg := t.cfg
  procs := t.procs
  available := t.available
  manualRelease := t.spike.manualRelease
  foregroundPid := t.spike.foregroundPid
  activePid := t.spike.activePid
  frozenPids := (t.spike.others e.frozen).frozenPids
  startTime := t.startTime
  kill := t.kill
  now := t.spike.now

/-- The calm tick: the spike-mode cycle runs, and the idle reclaim takes its
interval. -/
def idleTimeoutReclaim (e : LoopState) (t : IdleTick) : LoopState :=
  let e := { e with
    spikeTracker := (runSpikeCycle e.spikeTracker (idleSpikeInput e t)).1
    frozen := t.spike.others e.frozen }
  if t.cfg.idleReclaimEnabled = false then e
  else if Instant.secsSince t.now e.lastIdleReclaimCheck < t.cfg.idleReclaimGlobalCooldownSec then e
  else { e with lastIdleReclaimCheck := t.now }

/-- One iteration of the loop.  The wait for an event happens at Normal only,
so a timeout cannot be served above it. -/
def step (e : LoopState) : Iteration → LoopState
  | .waitTimeout t => if e.controller.lastLevel = .normal then idleTimeoutReclaim e t else e
  | .psiError => e
  | .cycle c => fullCycle e c

/-! ## What the phases leave alone -/

section Frame

variable {e : LoopState} {c : FullCycle} {level : PressureLevel}

/-- An iteration seen by the sensing half. -/
def Iteration.toLoopInput : Iteration → LoopInput
  | .waitTimeout _ => .waitTimeout
  | .psiError => .psiError
  | .cycle c => .sample c.sample

theorem throttleGate_controller :
    (throttleGate e c level).controller = e.controller := by
  unfold throttleGate
  split <;> rfl

theorem throttleGate_ledger :
    (throttleGate e c level).recentlyKilledCgroups = e.recentlyKilledCgroups := by
  unfold throttleGate
  split <;> rfl

theorem planAndExecute_controller :
    (planAndExecute e c level).controller = e.controller := by
  unfold planAndExecute
  split <;> rfl

theorem planAndExecute_throttle (e : LoopState) (c : FullCycle) (level : PressureLevel) :
    (planAndExecute e c level).throttle = e.throttle ∧
      (planAndExecute e c level).cpuFiles = e.cpuFiles := by
  unfold planAndExecute
  split <;> exact ⟨rfl, rfl⟩

theorem idleTimeoutReclaim_frame (e : LoopState) (t : IdleTick) :
    (idleTimeoutReclaim e t).controller = e.controller ∧
      (idleTimeoutReclaim e t).throttle = e.throttle ∧
      (idleTimeoutReclaim e t).cpuFiles = e.cpuFiles ∧
      (idleTimeoutReclaim e t).recentlyKilledCgroups = e.recentlyKilledCgroups := by
  unfold idleTimeoutReclaim
  dsimp only
  split
  · exact ⟨rfl, rfl, rfl, rfl⟩
  · split <;> exact ⟨rfl, rfl, rfl, rfl⟩

/-- **The sensing half of the loop is the loop seen through its controller.** -/
theorem step_controller (e : LoopState) (i : Iteration) :
    (step e i).controller = Sensing.step e.controller i.toLoopInput := by
  cases i with
  | waitTimeout t =>
      simp only [step]
      split
      · exact (idleTimeoutReclaim_frame e t).1
      · rfl
  | psiError => rfl
  | cycle c =>
      have hGate : (beforePlan e c).controller = e.controller.sense c.sample :=
        throttleGate_controller
      exact planAndExecute_controller.trans hGate

/-- The throttle manager moves at the gate of a full cycle only. -/
theorem fullCycle_throttle (e : LoopState) (c : FullCycle) :
    (fullCycle e c).throttle = (throttleGate e c (effectiveLevel e c)).throttle ∧
      (fullCycle e c).cpuFiles = (throttleGate e c (effectiveLevel e c)).cpuFiles := by
  obtain ⟨hThrottle, hFiles⟩ := planAndExecute_throttle (beforePlan e c) c (effectiveLevel e c)
  unfold fullCycle
  rw [hThrottle, hFiles]
  unfold beforePlan spikeCycle throttleGate
  have hOpen : gateOpen (senseLevel e c) c = gateOpen e c := rfl
  rw [hOpen]
  split <;> exact ⟨rfl, rfl⟩

/-- After a full cycle the ledger of killed cgroups holds entries it had and
those the cycle made. -/
theorem fullCycle_ledger_origin {cg : String} {time : Instant}
    (h : (fullCycle e c).recentlyKilledCgroups.lookup cg = some time) :
    e.recentlyKilledCgroups.lookup cg = some time ∨
      ∃ g ∈ cycleTargets e c, g.cgroupPath = cg ∧ g.takenAt = time := by
  have hBefore : (beforePlan e c).recentlyKilledCgroups = e.recentlyKilledCgroups :=
    throttleGate_ledger
  unfold fullCycle planAndExecute at h
  unfold cycleTargets
  split at h
  · next hNormal =>
      rw [hBefore] at h
      exact Or.inl h
  · next hAbove =>
      rw [if_neg hAbove]
      cases ledger_origin h with
      | inl hKept =>
          have hRetained := (lookup_retain_eq_some_iff.mp hKept).1
          rw [hBefore] at hRetained
          exact Or.inl hRetained
      | inr hMade => exact Or.inr hMade

/-- The cgroup of an executed termination is targeted. -/
theorem cycleTargets_of_terminated {d : Decision} {cg : String} (hd : d ∈ cycleExecuted e c)
    (hAction : d.action = .terminate)
    (hPath : targetCgroup c.exec (planProcs (beforePlan e c) c) d.pid = some cg) :
    ∃ g ∈ cycleTargets e c, g.cgroupPath = cg := by
  unfold cycleExecuted at hd
  unfold cycleTargets
  split at hd
  · cases hd
  · next hAbove =>
      rw [if_neg hAbove]
      exact targeted_of_executed hd (Or.inr hAction) hPath

/-- A cgroup the cycle targets is in the ledger after it. -/
theorem fullCycle_ledger_of_target {g : Targeting} (hg : g ∈ cycleTargets e c) :
    ∃ g' ∈ cycleTargets e c, g'.cgroupPath = g.cgroupPath ∧
      (fullCycle e c).recentlyKilledCgroups.lookup g.cgroupPath = some g'.takenAt := by
  unfold cycleTargets at hg ⊢
  unfold fullCycle planAndExecute
  split at hg
  · cases hg
  · next hAbove =>
      rw [if_neg hAbove, if_neg hAbove]
      exact ledger_of_targeted hg

end Frame

/-! ## Reading a cycle -/

section Reading

variable {e : LoopState} {c : FullCycle}

theorem mem_excludedPids_iff {frozenPids : List Pid} {t : SpikeTracker} {pid : Pid} :
    pid ∈ excludedPids frozenPids t true ↔
      pid ∈ frozenPids ∨ pid ∈ t.victimPids ∨ pid ∈ t.spikePids := by
  simp [excludedPids]

theorem mem_planProcs_iff {p : Process} :
    p ∈ planProcs e c ↔
      p ∈ c.procs ∧ p.pid ∉ (frozenAtPlan e c).frozenPids ∧
        p.pid ∉ e.spikeTracker.victimPids ∧ p.pid ∉ e.spikeTracker.spikePids ∧
        inTargetedCgroup e c p = false := by
  simp only [planProcs, List.mem_filter, mem_sortDesc, mem_excludedPids_iff, decide_eq_true_eq,
    Bool.not_eq_true', not_or, and_assoc]

theorem inTargetedCgroup_iff {p : Process} :
    inTargetedCgroup e c p = true ↔
      ∃ cg time, p.cgroupPath = some cg ∧ e.recentlyKilledCgroups.lookup cg = some time ∧
        Instant.secsSince c.planNow time < 45 := by
  unfold inTargetedCgroup ledgerAtPlan
  cases hPath : p.cgroupPath with
  | none => simp
  | some cg =>
      simp only [Option.isSome_iff_exists, lookup_retain_eq_some_iff, decide_eq_true_eq]
      constructor
      · intro h
        obtain ⟨time, hLookup, hRecent⟩ := h
        exact ⟨cg, time, rfl, hLookup, hRecent⟩
      · intro h
        obtain ⟨cg', time, hcg, hLookup, hRecent⟩ := h
        cases hcg
        exact ⟨time, hLookup, hRecent⟩

end Reading

/-! ## A plain machine -/

/-- A first start, at the zero of the clock. -/
def Startup.first : Startup where
  pswpin := 0
  pswpout := 0
  now := 0
  frozen := FrozenRegistry.new
  checkpointed := CheckpointRegistry.new

/-- Every action succeeds and no other thread interferes. -/
def plainExec (secs : Nat) : ExecEnv where
  sink :=
    { freeze := fun _ _ => OpResult.ok
      kill := fun _ _ => OpResult.ok
      checkpoint := fun _ _ _ => .err "not supported" }
  startTime := fun _ => some 100
  unixNow := secs
  readCgroupPath := fun _ => none
  clock := fun _ => Instant.ofSecs secs
  others := fun _ reg => reg

/-- A full cycle at one instant, without an active window. -/
def plainCycle (cfg : CompiledConfig) (procs : List Process) (secs : Nat) (sample : Sample) :
    FullCycle where
  cfg := cfg
  sample := sample
  procs := procs
  startTime := fun _ => some 100
  kill := fun _ _ => none
  activePid := none
  gateNow := Instant.ofSecs secs
  othersAtGate := fun reg => reg
  throttleClock := ⟨fun _ => Instant.ofSecs secs, fun _ => Instant.ofSecs secs⟩
  sysfs := .allOk
  spike := ⟨fun reg => reg, [], none, none, Instant.ofSecs secs⟩
  planNow := Instant.ofSecs secs
  othersAtPlan := fun reg => reg
  planActivePid := none
  gpuKb := fun _ => Kb.clamp 0
  checkpointSupported := false
  exec := plainExec secs

/-- 16 GB of RAM with 1 GB available, 1 GB of swap, and the given PSI. -/
def tightSample (psi : ℚ) (secs swapFree : Nat) : Sample :=
  { psiSample psi secs with
    meminfo :=
      { availableKb := Kb.clamp 1000000
        totalKb := Kb.clamp 16000000
        swapFreeKb := Kb.clamp swapFree
        swapTotalKb := Kb.clamp 1000000 } }

/-- A process without swap in a cgroup of its own. -/
def appProcess (pid : UInt32) (name cgroupPath : String) (rss : Nat) : Process where
  pid := ⟨pid⟩
  name := name
  exeBasename := none
  rssKb := Kb.clamp rss
  swapKb := Kb.clamp 0
  oomScore := 0
  cgroupPath := some cgroupPath
  cpuPct := 0
  majflt := 0
  cmdline := ""

end Mgd.Evictor.Run
