import Mgd.Evictor.Spike
import Mgd.Lib.Run
import Mgd.Lib.StateFile

/-!
# The frozen ledger across a shutdown

`FrozenRegistry` with its file `frozen.json`, from the `load` of one start of the
daemon over its `add`s and `remove`s and the sweep of `shutdown_unfreeze` to the
`load` of the next start.  The sweep runs after the threads have ended: it sends
SIGCONT to every recorded process and changes neither the registry nor the file.

Which thread adds or removes is of no account here, and neither is who stops or
resumes a process: `setProcess` is any change to the process table.
-/

namespace Mgd.ShutdownLedger

open Mgd.Types Mgd.Lib.AssocMap Mgd.Lib.Run Mgd.Executor.Registry
open Mgd.Evictor.Spike Mgd.SpikeMode
open Mgd.Lib (StateFile WriteResult)

/-! ## The daemon's run -/

/-- A live process. -/
structure ProcState where
  startTime : Nat
  stopped : Bool
deriving DecidableEq

abbrev ProcTable := Pid → Option ProcState

/-- Field 22 of `/proc/PID/stat`. -/
def ProcTable.startTime (procs : ProcTable) (pid : Pid) : Option Nat :=
  (procs pid).map ProcState.startTime

structure Daemon where
  /-- `frozen.json` -/
  file : StateFile FrozenRegistry
  registry : FrozenRegistry
  procs : ProcTable

def load (file : StateFile FrozenRegistry) : FrozenRegistry := file.read FrozenRegistry.new

/-- `initialize`, on the file the last run left. -/
def Daemon.initializeState (file : StateFile FrozenRegistry) (procs : ProcTable) : Daemon where
  file := file
  registry := load file
  procs := procs

inductive Move
  | add (pid : Pid) (name : String) (now : Nat) (result : WriteResult)
  | remove (pid : Pid) (result : WriteResult)
  /-- A process starts, ends, is stopped or resumed. -/
  | setProcess (pid : Pid) (p : Option ProcState)

/-- `add` and `remove` save when they change the registry. -/
def step (d : Daemon) : Move → Daemon
  | .add pid name now result =>
      let added := d.registry.add d.procs.startTime now pid name
      if added.2 then
        { d with registry := added.1, file := d.file.write added.1 result }
      else d
  | .remove pid result =>
      if d.registry.isFrozen pid then
        { d with
          registry := d.registry.remove pid
          file := d.file.write (d.registry.remove pid) result }
      else d
  | .setProcess pid p => { d with procs := Function.update d.procs pid p }

/-! ## The sweep and the next start -/

/-- One entry of the sweep. -/
def sweepOne (kill : KillSyscall) (reg : FrozenRegistry) (procs : ProcTable) (pid : Pid) :
    ProcTable :=
  if contDelivered kill procs.startTime pid (reg.startTime pid) then
    Function.update procs pid ((procs pid).map fun p => { p with stopped := false })
  else procs

/-- `shutdown_unfreeze`: the process table after it. -/
def shutdownUnfreeze (kill : KillSyscall) (reg : FrozenRegistry) (procs : ProcTable) : ProcTable :=
  reg.frozenPids.foldl (sweepOne kill reg) procs

/-- A clean shutdown and the next start. -/
def Daemon.restart (d : Daemon) (kill : KillSyscall) : Daemon :=
  Daemon.initializeState d.file (shutdownUnfreeze kill d.registry d.procs)

/-- The process is there and stopped. -/
def IsStopped (procs : ProcTable) (pid : Pid) : Prop :=
  ∃ p, procs pid = some p ∧ p.stopped = true

/-- Every recorded process is stopped. -/
def StartsClean (d : Daemon) : Prop :=
  ∀ pid, d.registry.isFrozen pid = true → IsStopped d.procs pid

/-- Every process in the file is stopped before the sweep, and the sweep does not
resume it. -/
def SweepSpares (kill : KillSyscall) (d : Daemon) : Prop :=
  ∀ pid, (load d.file).isFrozen pid = true →
    IsStopped d.procs pid ∧
      (d.registry.isFrozen pid = true →
        contDelivered kill d.procs.startTime pid (d.registry.startTime pid) = false)

section Sweep

variable {kill : KillSyscall} {reg : FrozenRegistry} {procs : ProcTable} {pid : Pid}

theorem sweepOne_other {pid' : Pid} (h : pid ≠ pid') :
    sweepOne kill reg procs pid' pid = procs pid := by
  unfold sweepOne
  split
  · exact Function.update_of_ne h _ _
  · rfl

/-- What the sweep does to a process depends on its own entry alone. -/
theorem contDelivered_congr {procs' : ProcTable} (h : procs' pid = procs pid) (startTime : Nat) :
    contDelivered kill procs'.startTime pid startTime =
      contDelivered kill procs.startTime pid startTime := by
  unfold contDelivered unfreezeChecked ProcTable.startTime
  rw [h]

theorem foldl_sweepOne_of_not_mem {pids : List Pid} (h : pid ∉ pids) :
    pids.foldl (sweepOne kill reg) procs pid = procs pid := by
  induction pids generalizing procs with
  | nil => rfl
  | cons first rest ih =>
      simp only [List.mem_cons, not_or] at h
      rw [List.foldl_cons, ih h.2, sweepOne_other h.1]

/-- A swept process is resumed, or left as it was. -/
theorem foldl_sweepOne_of_mem {pids : List Pid} (hNodup : pids.Nodup) (h : pid ∈ pids) :
    pids.foldl (sweepOne kill reg) procs pid =
      if contDelivered kill procs.startTime pid (reg.startTime pid) then
        (procs pid).map fun p => { p with stopped := false }
      else procs pid := by
  induction pids generalizing procs with
  | nil => cases h
  | cons first rest ih =>
      rw [List.nodup_cons] at hNodup
      rw [List.foldl_cons]
      by_cases hFirst : pid = first
      · subst hFirst
        rw [foldl_sweepOne_of_not_mem hNodup.1]
        unfold sweepOne
        split
        · exact Function.update_self _ _ _
        · rfl
      · have hRest : pid ∈ rest := (List.mem_cons.mp h).resolve_left hFirst
        have hSame : sweepOne kill reg procs first pid = procs pid := sweepOne_other hFirst
        rw [ih hNodup.2 hRest, contDelivered_congr hSame, hSame]

/-- **After the sweep** a process is stopped exactly when it was before and its
entry, if it has one, did not resume it. -/
theorem isStopped_shutdownUnfreeze_iff :
    IsStopped (shutdownUnfreeze kill reg procs) pid ↔
      IsStopped procs pid ∧
        (reg.isFrozen pid = true →
          contDelivered kill procs.startTime pid (reg.startTime pid) = false) := by
  unfold IsStopped shutdownUnfreeze
  by_cases hRec : reg.isFrozen pid = true
  · have hMem : pid ∈ reg.frozenPids := (FrozenRegistry.mem_frozenPids_iff reg pid).mpr hRec
    have hSwept : reg.frozenPids.foldl (sweepOne kill reg) procs pid =
        if contDelivered kill procs.startTime pid (reg.startTime pid) then
          (procs pid).map fun p => { p with stopped := false }
        else procs pid :=
      foldl_sweepOne_of_mem reg.frozen.keys_nodup hMem
    rw [hSwept]
    cases hResumes : contDelivered kill procs.startTime pid (reg.startTime pid) with
    | true => simp [hRec]
    | false => simp
  · have hMem : pid ∉ reg.frozenPids := by
      rw [FrozenRegistry.mem_frozenPids_iff]
      exact hRec
    rw [foldl_sweepOne_of_not_mem hMem]
    simp [hRec]

end Sweep

/--
**When the next start is clean.**  After any run of the daemon, a clean shutdown
and a restart leave only stopped processes in the ledger exactly when every
process the file records is stopped before the sweep and not resumed by it.
-/
theorem startsClean_restart_iff (file : StateFile FrozenRegistry) (procs : ProcTable)
    (moves : List Move) (kill : KillSyscall) :
    StartsClean ((run step (Daemon.initializeState file procs) moves).restart kill) ↔
      SweepSpares kill (run step (Daemon.initializeState file procs) moves) :=
  forall_congr' fun _ => imp_congr Iff.rfl isStopped_shutdownUnfreeze_iff

/-! ## The file is the registry -/

section Persisted

variable {d : Daemon}

/-- The save of the step, if it makes one, succeeds. -/
def SaveWritten : Move → Prop
  | .add _ _ _ result => result = .written
  | .remove _ result => result = .written
  | .setProcess _ _ => True

theorem load_step (h : load d.file = d.registry) (m : Move) (hWritten : SaveWritten m) :
    load (step d m).file = (step d m).registry := by
  cases m with
  | add pid name now result =>
      have hResult : result = .written := hWritten
      unfold step
      dsimp only
      split
      · rw [hResult]
        exact StateFile.read_write_written _ d.file _
      · exact h
  | remove pid result =>
      have hResult : result = .written := hWritten
      unfold step
      dsimp only
      split
      · rw [hResult]
        exact StateFile.read_write_written _ d.file _
      · exact h
  | setProcess pid p => exact h

/-- While every save succeeds, the file holds the registry. -/
theorem load_run (file : StateFile FrozenRegistry) (procs : ProcTable) {moves : List Move}
    (hWritten : ∀ m ∈ moves, SaveWritten m) :
    load (run step (Daemon.initializeState file procs) moves).file =
      (run step (Daemon.initializeState file procs) moves).registry := by
  have hAlways : Always step (fun d => load d.file = d.registry) (Daemon.initializeState file procs)
      moves :=
    always_of_invariant (fun _ m h hm => load_step h m hm) rfl
      (everyStep_of_forall_mem hWritten _)
  exact hAlways.last

/-- So the next start is wrong about every process that takes its SIGCONT. -/
theorem not_startsClean_of_contDelivered {file : StateFile FrozenRegistry} {procs : ProcTable}
    {moves : List Move} {kill : KillSyscall} {pid : Pid}
    (hWritten : ∀ m ∈ moves, SaveWritten m)
    (hRec : (run step (Daemon.initializeState file procs) moves).registry.isFrozen pid = true)
    (hResumes : contDelivered kill
      (run step (Daemon.initializeState file procs) moves).procs.startTime pid
      ((run step (Daemon.initializeState file procs) moves).registry.startTime pid) = true) :
    ¬ StartsClean ((run step (Daemon.initializeState file procs) moves).restart kill) := by
  rw [startsClean_restart_iff]
  intro hSpares
  have hFile :
      (load (run step (Daemon.initializeState file procs) moves).file).isFrozen pid = true := by
    rw [load_run file procs hWritten]
    exact hRec
  rw [(hSpares pid hFile).2 hRec] at hResumes
  cases hResumes

end Persisted

/-- A clean start takes no running process for a frozen one. -/
theorem not_excluded_of_startsClean {d : Daemon} (h : StartsClean d) {pid : Pid} {p : ProcState}
    (hAlive : d.procs pid = some p) (hRunning : p.stopped = false) :
    pid ∉ excludedPids d.registry.frozenPids SpikeTracker.new true := by
  intro hMem
  have hRec : d.registry.isFrozen pid = true := by
    have hFrozen : pid ∈ d.registry.frozenPids := by
      simpa [excludedPids, SpikeTracker.new, SpikeTracker.victimPids, SpikeTracker.spikePids]
        using hMem
    exact (FrozenRegistry.mem_frozenPids_iff _ _).mp hFrozen
  obtain ⟨q, hq, hStopped⟩ := h pid hRec
  rw [hAlive] at hq
  cases hq
  rw [hRunning] at hStopped
  cases hStopped

/-! ## One frozen process -/

def browser : Pid := ⟨1234⟩

/-- The browser runs and nothing else does. -/
def browserOnly : ProcTable := Function.update (fun _ => none) browser (some ⟨54321, false⟩)

/-- The browser is stopped and recorded. -/
def freezeBrowser : List Move :=
  [.setProcess browser (some ⟨54321, true⟩), .add browser "firefox" 1751700000 .written]

/-- The sweep resumes the browser, and the next start has it in its ledger. -/
theorem freezeBrowser_leaves_stale_entry :
    ¬ StartsClean
      ((run step (Daemon.initializeState .absent browserOnly) freezeBrowser).restart
        fun _ _ => none) := by
  have hWritten : ∀ m ∈ freezeBrowser, SaveWritten m := by
    intro m hm
    simp only [freezeBrowser, List.mem_cons, List.not_mem_nil, or_false] at hm
    cases hm with
    | inl hStop =>
        subst hStop
        trivial
    | inr hAdd =>
        subst hAdd
        rfl
  have hRec : (run step (Daemon.initializeState .absent browserOnly)
      freezeBrowser).registry.isFrozen browser = true := by decide
  exact not_startsClean_of_contDelivered hWritten hRec (by decide)

end Mgd.ShutdownLedger
