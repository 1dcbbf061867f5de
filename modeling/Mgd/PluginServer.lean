import Mgd.Config
import Mgd.Engine.Planner
import Mgd.Executor.Signals
import Mgd.Lib.Run

/-!
# Plugin messages

`process_plugin_line` of `plugin_server.rs`.  Plugins observe and the core
decides, says `protocol.rs`; the planner and the leak guard leave alone what is
not the user's, the system tier and the protected names.  The handler itself
spawns two kinds of threads that signal: `killer::sigterm` for a requested kill,
and `unfreeze_checked` for the active window when its process is frozen.

A step is one line of one client.  What happens between two lines, also in the
threads of earlier lines, is `others` for the registry and the timeline for the
processes.
-/

namespace Mgd.PluginServer

open Mgd.Types Mgd.Monitor Mgd.Config Mgd.Lib.AssocMap Mgd.Lib.Run Mgd.Engine.Planner
open Mgd.Executor.Signals
open Mgd.Executor.Registry hiding sendSignal freezeChecked unfreezeChecked

/-! ## The protocol -/

inductive Metric
  | gpuResidentKb
  | gpuSharedKb
  | gpuTotalKb
  | gpuPurgeableKb
  | rssKb
  | custom (name : String)
deriving DecidableEq

inductive PluginAction
  | restartProcess (name : String)
  | freezePid (pid : Pid)
  | killPid (pid : Pid)
deriving DecidableEq

/-- From a plugin to the core. -/
inductive PluginMessage
  | identify (name version : String) (capabilities : List String)
  | observation (plugin : String) (metric : Metric) (pid : Option Pid) (value : ℚ)
  | actionRequest (plugin : String) (action : PluginAction) (reason : String)
  | queryGpu (pid : Pid)
  | activeWindow (pid : Option Pid)
deriving DecidableEq

/-- From the core to every plugin, as far as the handler sends it. -/
inductive CoreMessage
  | actionResponse (action : PluginAction) (approved : Bool) (reason : Option String)
  | gpuObservation (pid : Pid) (kb sharedKb totalKb purgeableKb : Kb)

/-! ## The GPU cache -/

structure SingleProcessGpuMemory where
  residentKb : Kb
  sharedKb : Kb
  totalKb : Kb
  purgeableKb : Kb

def SingleProcessGpuMemory.default : SingleProcessGpuMemory :=
  ⟨Kb.clamp 0, Kb.clamp 0, Kb.clamp 0, Kb.clamp 0⟩

abbrev GpuCache := Map Pid (SingleProcessGpuMemory × Instant)

/-- `GPU_CACHE_TTL`: 30 s. -/
def gpuCacheTtl : Duration := 30 * nanosPerSec

/-- `value as u64`. -/
def asKb (value : ℚ) : Kb := Kb.clamp (value.num.tdiv value.den).toNat

def isGpuMetric : Metric → Bool
  | .gpuResidentKb | .gpuSharedKb | .gpuTotalKb | .gpuPurgeableKb => true
  | _ => false

def setField (s : SingleProcessGpuMemory) (kb : Kb) : Metric → SingleProcessGpuMemory
  | .gpuResidentKb => { s with residentKb := kb }
  | .gpuSharedKb => { s with sharedKb := kb }
  | .gpuTotalKb => { s with totalKb := kb }
  | .gpuPurgeableKb => { s with purgeableKb := kb }
  | _ => s

/-- Entries that have not expired. -/
def live (now : Instant) (cache : GpuCache) : GpuCache :=
  retain (fun _ e => decide (Instant.durationSince now e.2 < gpuCacheTtl)) cache

def getGpuStats (cache : GpuCache) (now : Instant) (pid : Pid) : SingleProcessGpuMemory :=
  match (live now cache).lookup pid with
  | some e => e.1
  | none => SingleProcessGpuMemory.default

/-- Set one field, refresh the entry, drop the expired ones. -/
def setGpuObservation (cache : GpuCache) (now : Instant) (pid : Pid) (metric : Metric) (kb : Kb) :
    GpuCache :=
  (live now cache).insert pid (setField (getGpuStats cache now pid) kb metric, now)

/-! ## The handler -/

structure PluginState where
  frozen : FrozenRegistry
  gpuCache : GpuCache
  /-- `ACTIVE_FOREGROUND_PID` -/
  activePid : Option Pid

/-- A thread the handler starts. -/
inductive SpawnedThread
  | sigterm (pid : Pid)
  | unfreeze (pid : Pid) (startTime : Nat)

/-- The accesses of the thread.  After a successful `unfreeze` it removes the
entry from the registry. -/
def SpawnedThread.program : SpawnedThread → Syscalls OpResult
  | .sigterm pid => Mgd.Executor.Signals.sigterm pid
  | .unfreeze pid startTime => unfreezeChecked pid startTime

/-- What one line does: the state, the broadcasts, and the thread it starts. -/
structure Handled where
  state : PluginState
  broadcasts : List CoreMessage
  spawned : Option SpawnedThread

def handleAction (s : PluginState) (action : PluginAction) : Handled where
  state := s
  broadcasts := [.actionResponse action true none]
  spawned :=
    match action with
    | .killPid pid => some (.sigterm pid)
    | _ => none

def handleActiveWindow (s : PluginState) (pid : Option Pid) : Handled where
  state := { s with activePid := pid }
  broadcasts := []
  spawned :=
    match pid with
    | some p => if s.frozen.isFrozen p then some (.unfreeze p (s.frozen.startTime p)) else none
    | none => none

/-- `line` is what the parser makes of the line. -/
def processPluginLine (line : Option PluginMessage) (now : Instant) (s : PluginState) : Handled :=
  match line with
  | none => ⟨s, [], none⟩
  | some (.identify _ _ _) => ⟨s, [], none⟩
  | some (.observation _ metric pid value) =>
      match pid with
      | some p =>
          if isGpuMetric metric then
            ⟨{ s with gpuCache := setGpuObservation s.gpuCache now p metric (asKb value) }, [],
              none⟩
          else ⟨s, [], none⟩
      | none => ⟨s, [], none⟩
  | some (.actionRequest _ action _) => handleAction s action
  | some (.queryGpu pid) =>
      let stats := getGpuStats s.gpuCache now pid
      ⟨s, [.gpuObservation pid stats.residentKb stats.sharedKb stats.totalKb stats.purgeableKb],
        none⟩
  | some (.activeWindow pid) => handleActiveWindow s pid

/-! ## Runs -/

/-- One line, with what the handler and its thread find. -/
structure Line where
  parsed : Option PluginMessage
  now : Instant
  cfg : CompiledConfig
  /-- what other threads did to the registry since the last line -/
  others : FrozenRegistry → FrozenRegistry
  /-- what the accesses of the thread find -/
  timeline : Timeline

/-- The state the line finds. -/
def found (s : PluginState) (l : Line) : PluginState := { s with frozen := l.others s.frozen }

def handle (s : PluginState) (l : Line) : Handled := processPluginLine l.parsed l.now (found s l)

def step (s : PluginState) (l : Line) : PluginState := (handle s l).state

/-- The signals the line makes the daemon send. -/
def lineDeliveries (s : PluginState) (l : Line) : List Delivery :=
  match (handle s l).spawned with
  | some thread => l.timeline.deliveries 0 thread.program
  | none => []

/-! ## The hard rules -/

/-- A process the daemon may signal: `list_processes` returns it, it is not of
the system tier and not protected. -/
def Admissible (cfg : CompiledConfig) (k : Kernel) (pid : Pid) : Prop :=
  ∃ p ∈ k.listProcesses, p.pid = pid ∧ 19 < getPriority p.name p.exeBasename cfg ∧
    cfg.isProtected p.name = false

/-- Every signal of the line goes to a process that is admissible then. -/
def KeepsRules (s : PluginState) (l : Line) : Prop :=
  ∀ d ∈ lineDeliveries s l, Admissible l.cfg (l.timeline.kernel d.time) d.pid

/-- Whatever takes the signal sent to the target at that access is admissible. -/
def Line.sparesAt (l : Line) (t : Nat) (target : Int) (signal : Signal) : Prop :=
  ∀ pid o, (l.timeline.kernel t).takes target (some signal) pid o →
    Admissible l.cfg (l.timeline.kernel t) pid

/-- When a line keeps the rules.  A requested kill: what takes the SIGTERM is
admissible, and so is what takes the SIGKILL if it comes to that.  The active
window: it is not frozen, or its start time is not the recorded one, or what
takes the SIGCONT is admissible.  Every other line. -/
def Spares (s : PluginState) (l : Line) : Prop :=
  match l.parsed with
  | some (.actionRequest _ (.killPid pid) _) =>
      l.sparesAt 1 (asPidT pid) .term ∧
        (l.timeline.reachesKill pid 0 →
          l.sparesAt (l.timeline.killTime pid 0) (asPidT pid) .kill)
  | some (.activeWindow (some pid)) =>
      (l.others s.frozen).isFrozen pid = true →
        (l.timeline.kernel 0).readStartTime pid = some ((l.others s.frozen).startTime pid) →
          pid.val.toNat ≤ i32Max → l.sparesAt 1 pid.val.toNat .cont
  | _ => True

section Rules

variable {s : PluginState} {l : Line}

/-- Sending a signal keeps the rules when what takes it is admissible. -/
theorem forall_send_iff (t : Nat) (target : Int) (signal : Signal) :
    (∀ d ∈ l.timeline.send t target signal,
        Admissible l.cfg (l.timeline.kernel d.time) d.pid) ↔
      l.sparesAt t target signal := by
  unfold Line.sparesAt
  constructor
  · intro h pid o hTakes
    exact h ⟨t, signal, pid, o⟩ (Timeline.mem_send_iff.mpr ⟨rfl, rfl, hTakes⟩)
  · intro h d hd
    obtain ⟨hTime, -, hTakes⟩ := Timeline.mem_send_iff.mp hd
    rw [hTime]
    exact h d.pid d.occupant hTakes

/-- Only a requested kill and a frozen active window start a thread. -/
theorem lineDeliveries_cases (s : PluginState) (l : Line) :
    (∃ plugin pid reason, l.parsed = some (.actionRequest plugin (.killPid pid) reason) ∧
        lineDeliveries s l = l.timeline.deliveries 0 (sigterm pid)) ∨
      (∃ pid, l.parsed = some (.activeWindow (some pid)) ∧
        lineDeliveries s l =
          if (l.others s.frozen).isFrozen pid = true then
            l.timeline.deliveries 0 (unfreezeChecked pid ((l.others s.frozen).startTime pid))
          else []) ∨
      lineDeliveries s l = [] ∧ Spares s l := by
  unfold lineDeliveries Spares handle processPluginLine
  cases l.parsed with
  | none => exact Or.inr (Or.inr ⟨rfl, trivial⟩)
  | some msg =>
      cases msg with
      | identify name version capabilities => exact Or.inr (Or.inr ⟨rfl, trivial⟩)
      | observation plugin metric pid value =>
          apply Or.inr
          apply Or.inr
          refine ⟨?_, trivial⟩
          cases pid with
          | none => rfl
          | some p =>
              dsimp only
              cases isGpuMetric metric <;> rfl
      | actionRequest plugin action reason =>
          cases action with
          | restartProcess name => exact Or.inr (Or.inr ⟨rfl, trivial⟩)
          | freezePid pid => exact Or.inr (Or.inr ⟨rfl, trivial⟩)
          | killPid pid => exact Or.inl ⟨plugin, pid, reason, rfl, rfl⟩
      | queryGpu pid => exact Or.inr (Or.inr ⟨rfl, trivial⟩)
      | activeWindow pid =>
          cases pid with
          | none => exact Or.inr (Or.inr ⟨rfl, trivial⟩)
          | some p =>
              apply Or.inr
              apply Or.inl
              refine ⟨p, rfl, ?_⟩
              dsimp only
              by_cases hFrozen : (l.others s.frozen).isFrozen p = true
              · have hSpawned : (handleActiveWindow (found s l) (some p)).spawned =
                    some (.unfreeze p ((l.others s.frozen).startTime p)) := if_pos hFrozen
                rw [if_pos hFrozen, hSpawned]
                rfl
              · have hSpawned : (handleActiveWindow (found s l) (some p)).spawned = none :=
                  if_neg hFrozen
                rw [if_neg hFrozen, hSpawned]

/-- The rule for one line. -/
theorem keepsRules_iff : KeepsRules s l ↔ Spares s l := by
  unfold KeepsRules
  rcases lineDeliveries_cases s l with hKill | hFocus | hNone
  · obtain ⟨plugin, pid, reason, hParsed, hDeliveries⟩ := hKill
    have hSpares : Spares s l ↔ l.sparesAt 1 (asPidT pid) .term ∧
        (l.timeline.reachesKill pid 0 →
          l.sparesAt (l.timeline.killTime pid 0) (asPidT pid) .kill) := by
      unfold Spares
      rw [hParsed]
    rw [hSpares, hDeliveries, ← forall_send_iff, ← forall_send_iff]
    simp only [mem_deliveries_sigterm, Nat.zero_add]
    constructor
    · intro h
      exact ⟨fun d hd => h d (Or.inl hd), fun hReaches d hd => h d (Or.inr ⟨hReaches, hd⟩)⟩
    · intro h d hd
      cases hd with
      | inl hTerm => exact h.1 d hTerm
      | inr hKilled => exact h.2 hKilled.1 d hKilled.2
  · obtain ⟨pid, hParsed, hDeliveries⟩ := hFocus
    have hSpares : Spares s l ↔ ((l.others s.frozen).isFrozen pid = true →
        (l.timeline.kernel 0).readStartTime pid = some ((l.others s.frozen).startTime pid) →
          pid.val.toNat ≤ i32Max → l.sparesAt 1 pid.val.toNat .cont) := by
      unfold Spares
      rw [hParsed]
    rw [hSpares, hDeliveries, ← forall_send_iff]
    by_cases hFrozen : (l.others s.frozen).isFrozen pid = true
    · rw [if_pos hFrozen, deliveries_unfreezeChecked]
      by_cases hSame : (l.timeline.kernel 0).readStartTime pid =
          some ((l.others s.frozen).startTime pid)
      · rw [if_pos hSame, deliveries_sendSignal]
        by_cases hFits : pid.val.toNat ≤ i32Max
        · simp only [hFrozen, hSame, hFits, forall_const, if_true, Nat.zero_add]
        · simp [hFits]
      · simp [hSame]
    · simp [hFrozen]
  · rw [hNone.1]
    exact iff_of_true (by simp) hNone.2

/-- **Plugin messages keep the hard rules exactly when each of them spares the
processes they cover**, whatever the lines, their order and the configuration. -/
theorem pluginsKeepRules_iff (s : PluginState) (lines : List Line) :
    EveryStep step KeepsRules s lines ↔ EveryStep step Spares s lines := by
  constructor
  · exact EveryStep.imp fun _ _ h => keepsRules_iff.mp h
  · exact EveryStep.imp fun _ _ h => keepsRules_iff.mpr h

end Rules

/-! ## The compositor -/

/-- The compositor of the session, in the system tier. -/
def compositor : Occupant where
  startTime := 500
  processGroup := 1234
  ownedByUser := true
  inUserSlice := true
  row :=
    { pid := ⟨1234⟩
      name := "kwin_wayland"
      exeBasename := some "kwin_wayland"
      rssKb := Kb.clamp 300000
      swapKb := Kb.clamp 0
      oomScore := 0
      cgroupPath := some "/user.slice/session.slice"
      cpuPct := 0
      majflt := 0
      cmdline := "" }

def compositorRunning : Kernel where
  procs := (∅ : Map Pid Occupant).insert ⟨1234⟩ compositor
  statReadable := fun _ => true
  permits := fun _ _ => true
  self := ⟨900⟩
  selfGroup := 900

/-- Priority 10 for the compositor, as the shipped configuration has it. -/
def compositorRule : CompiledConfig :=
  { CompiledConfig.ofEmpty 15 with entries := [⟨Regex.exact "kwin_wayland", 10, none⟩] }

/-- A plugin asks for the compositor to be killed. -/
def killCompositor : Line where
  parsed := some (.actionRequest "mgd-kde" (.killPid ⟨1234⟩) "hung")
  now := 0
  cfg := compositorRule
  others := fun reg => reg
  timeline := ⟨fun _ => compositorRunning, fun _ => none⟩

/-- **A plugin kills the compositor.** -/
theorem killCompositor_breaks_rules :
    ¬ EveryStep step KeepsRules ⟨FrozenRegistry.new, ∅, none⟩ [killCompositor] := by
  intro h
  have hSent : (⟨1, .term, ⟨1234⟩, compositor⟩ : Delivery) ∈
      killCompositor.timeline.send 1 (asPidT ⟨1234⟩) .term :=
    Timeline.mem_send_iff.mpr ⟨rfl, rfl, by decide +kernel, by decide +kernel, rfl⟩
  have hAdmissible := h.1 ⟨1, .term, ⟨1234⟩, compositor⟩
    (mem_deliveries_sigterm.mpr (Or.inl hSent))
  have hNot : ¬ Admissible compositorRule compositorRunning ⟨1234⟩ := by
    unfold Admissible
    decide +kernel
  exact hNot hAdmissible

end Mgd.PluginServer
