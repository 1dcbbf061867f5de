import Mgd.Lib.StateFile
import Mgd.Snapshots.Threads

/-!
# Keeping the dumps of killed processes

The threads of `Threads`, with what they leave on disk: `checkpoint.json`, which
every change of the registry rewrites, and the snapshot directories.  The daemon
may be killed between any two steps, and in the middle of a rewrite, which is a
write cut short and then the crash.  At the next start `initialize` loads the
registry, which is empty when the file cannot be parsed, and
`cleanup_orphaned_snapshots` removes every directory the registry does not list.

A dump is owed from the moment its process is killed until its directory is
restored or, after `MAX_RESTORE_ATTEMPTS` failures, given up.
-/

namespace Mgd.Snapshots.DumpsKept

open Mgd.Types Mgd.Lib.AssocMap Mgd.Lib.Run Mgd.Executor.Registry
open Mgd.Executor.Checkpoint Mgd.Recovery Mgd.Snapshots.Threads
open Mgd.Lib (StateFile WriteResult)

universe u

/-! ## The daemon and its crashes -/

structure Daemon (ι : Type u) where
  threads : World ι
  /-- `checkpoint.json` -/
  file : StateFile CheckpointRegistry
  /-- the dumps of killed processes, neither restored nor given up -/
  owed : List (String × Nat)
  /-- restores of the dump in the directory that the recovery pass saw fail -/
  failures : String → Nat

inductive Event (ι : Type u)
  /-- A thread moves; if it changes the registry, the save ends like this. -/
  | move (m : Move ι) (save : WriteResult)
  /-- The daemon is killed and started again; the directories it can remove. -/
  | crash (removable : String → Bool)

def load (file : StateFile CheckpointRegistry) : CheckpointRegistry := file.read .new

/-- Remove the directories the registry does not list. -/
def cleanupOrphanedSnapshots (reg : CheckpointRegistry) (removable : String → Bool)
    (disk : Disk) : Disk :=
  let activeDirs := reg.entriesLightestFirst.map fun e => e.2.snapshotDir
  { disk with holds := fun dir => disk.holds dir && (decide (dir ∈ activeDirs) || !removable dir) }

section Steps

variable {ι : Type u}

/-- The step changes the registry, which saves it. -/
def saves (w : World ι) : Action ι → Bool
  | .record _ _ _ _ => true
  | .clientForgets _ pid _ _ _ => (w.registry.checkpointed.lookup pid).isSome
  | .recoveryFails pid _ => (w.registry.checkpointed.lookup pid).isSome
  | .recoveryForgets pid _ _ => (w.registry.checkpointed.lookup pid).isSome
  | _ => false

/-- The dumps owed after a step. -/
def owedAfter (w : World ι) (failures : String → Nat) (owed : List (String × Nat)) :
    Action ι → List (String × Nat)
  | .checkpoint _ _ _ dir .killed => (dir, w.disk.dumps dir + 1) :: owed
  | .clientRestores _ _ dir _ => owed.filter fun x => x ≠ (dir, w.disk.dumps dir)
  | .recoveryRestores _ dir => owed.filter fun x => x ≠ (dir, w.disk.dumps dir)
  | .recoveryClears _ dir none _ =>
      if maxRestoreAttempts ≤ failures dir then
        owed.filter fun x => x ≠ (dir, w.disk.dumps dir)
      else owed
  | _ => owed

/-- The failures after a step; a new dump has none. -/
def failuresAfter (failures : String → Nat) : Action ι → String → Nat
  | .checkpoint _ _ _ dir .killed => Function.update failures dir 0
  | .checkpoint _ _ _ dir .notKilled => Function.update failures dir 0
  | .recoveryFails _ dir => Function.update failures dir (failures dir + 1)
  | _ => failures

variable [DecidableEq ι]

def Daemon.perform (d : Daemon ι) (a : Action ι) (save : WriteResult) : Daemon ι where
  threads := Threads.perform d.threads a
  file :=
    if saves d.threads a then d.file.write (Threads.perform d.threads a).registry save else d.file
  owed := owedAfter d.threads d.failures d.owed a
  failures := failuresAfter d.failures a

/-- The next start, on what the last run left. -/
def Daemon.restart (d : Daemon ι) (removable : String → Bool) : Daemon ι :=
  { d with
    threads := World.start (load d.file)
      (cleanupOrphanedSnapshots (load d.file) removable d.threads.disk) }

def Daemon.step (paths : SnapshotPaths) (d : Daemon ι) : Event ι → Daemon ι
  | .move m save =>
      match action paths d.threads m with
      | none => d
      | some a => d.perform a save
  | .crash removable => d.restart removable

/-- The daemon's first start. -/
def Daemon.start (file : StateFile CheckpointRegistry) (disk : Disk) : Daemon ι where
  threads := World.start (load file) disk
  file := file
  owed := []
  failures := fun _ => 0

end Steps

/-! ## What is promised, and when it is kept -/

section Promise

variable {ι : Type u}

def PointsTo (reg : CheckpointRegistry) (dir : String) : Prop :=
  ∃ pid e, reg.checkpointed.lookup pid = some e ∧ e.snapshotDir = dir

/-- Every owed dump is in its directory, and an entry points to it or the evictor
is about to add one. -/
def Kept (d : Daemon ι) : Prop :=
  ∀ dir dump, (dir, dump) ∈ d.owed →
    d.threads.disk.holds dir = true ∧ d.threads.disk.dumps dir = dump ∧
      (PointsTo d.threads.registry dir ∨ BeingRecorded d.threads dir)

/-- No process is checkpointed under a PID the registry still has, no attempt
touches the directory of an entry, and a connection forgets no entry but the one
it has restored. -/
def SparesDumps (w : World ι) : Action ι → Prop
  | .checkpoint pid _ _ _ .killed => w.registry.checkpointed.lookup pid = none
  | .checkpoint pid _ _ dir .notKilled =>
      ∀ e, w.registry.checkpointed.lookup pid = some e → e.snapshotDir ≠ dir
  | .checkpoint pid _ _ dir (.failed false) =>
      ∀ e, w.registry.checkpointed.lookup pid = some e → e.snapshotDir ≠ dir
  | .clientForgets _ pid dir dump _ =>
      ∀ e, w.registry.checkpointed.lookup pid = some e →
        e.snapshotDir = dir ∧ w.entryDump pid ≤ dump
  | _ => True

/-- Nor does the daemon die between killing a process and adding its entry, or
while the file lacks an entry of the registry. -/
def SparesEvent (paths : SnapshotPaths) (d : Daemon ι) : Event ι → Prop
  | .move m _ => OnAction paths SparesDumps d.threads m
  | .crash _ =>
      d.threads.evictor = .idle ∧
        ∀ pid e, d.threads.registry.checkpointed.lookup pid = some e →
          (load d.file).checkpointed.lookup pid = some e

end Promise

/-! ## The invariant -/

section Invariant

variable {ι : Type u} {paths : SnapshotPaths}

/-- An entry points to the dump, with no more attempts than it had failures. -/
def Recorded (reg : CheckpointRegistry) (entryDump : Pid → Nat) (failures : String → Nat)
    (dir : String) (dump : Nat) : Prop :=
  ∃ pid e, reg.checkpointed.lookup pid = some e ∧ e.snapshotDir = dir ∧
    entryDump pid = dump ∧ e.attempts ≤ failures dir

/-- The dump is in its directory, and recorded or about to be. -/
def Held (w : World ι) (failures : String → Nat) (dir : String) (dump : Nat) : Prop :=
  w.disk.holds dir = true ∧ w.disk.dumps dir = dump ∧
    (Recorded w.registry w.entryDump failures dir dump ∨ BeingRecorded w dir)

/-- The directory the recovery pass has restored or given up. -/
def doneWith : RecoveryPc → Option String
  | .restored _ dir _ => some dir
  | .cleared _ dir _ => some dir
  | _ => none

structure Inv (paths : SnapshotPaths) (d : Daemon ι) : Prop where
  consistent : Consistent paths d.threads
  fileNamed : NamesOwnDirs paths (load d.file)
  held : ∀ dir dump, (dir, dump) ∈ d.owed → Held d.threads d.failures dir dump
  /-- A dump is recorded under a PID that has no entry. -/
  new : ∀ pid name dir rss, d.threads.evictor = .dumped pid name dir rss →
    d.threads.registry.checkpointed.lookup pid = none
  givingUp : ∀ pid dir, d.threads.recovery = .givingUp pid dir →
    ∃ e, d.threads.registry.checkpointed.lookup pid = some e ∧ e.snapshotDir = dir ∧
      maxRestoreAttempts ≤ e.attempts
  recoveryDone : ∀ dir, doneWith d.threads.recovery = some dir →
    ∀ dump, (dir, dump) ∉ d.owed
  clientDone : ∀ i pid dir dump, (d.threads.clients i).pending = some (pid, dir, dump) →
    (dir, dump) ∉ d.owed

theorem kept_of_inv {d : Daemon ι} (h : Inv paths d) : Kept d := by
  intro dir dump hOwed
  obtain ⟨hHolds, hDump, hRecorded⟩ := h.held dir dump hOwed
  refine ⟨hHolds, hDump, ?_⟩
  cases hRecorded with
  | inl hEntry =>
      obtain ⟨pid, e, hLookup, hDir, -⟩ := hEntry
      exact Or.inl ⟨pid, e, hLookup, hDir⟩
  | inr hPending => exact Or.inr hPending

theorem inv_start {file : StateFile CheckpointRegistry} (hNamed : NamesOwnDirs paths (load file))
    (disk : Disk) : Inv paths (Daemon.start file disk : Daemon ι) where
  consistent := consistent_start hNamed disk
  fileNamed := hNamed
  held := fun _ _ hOwed => by cases hOwed
  new := fun _ _ _ _ h => by cases h
  givingUp := fun _ _ h => by cases h
  recoveryDone := fun _ h => by cases h
  clientDone := fun _ _ _ _ h => by cases h

end Invariant

/-! ## Entries under the operations of the registry -/

section Entries

variable {reg : CheckpointRegistry} {entryDump : Pid → Nat} {failures : String → Nat}
  {dir : String} {dump : Nat} {pid : Pid}

theorem Recorded.remove (h : Recorded reg entryDump failures dir dump)
    (hOther : ∀ e, reg.checkpointed.lookup pid = some e → e.snapshotDir = dir →
      entryDump pid ≠ dump) : Recorded (reg.remove pid) entryDump failures dir dump := by
  obtain ⟨pid', e, hLookup, hDir, hDump, hAttempts⟩ := h
  have hPid : pid' ≠ pid := by
    intro hEq
    subst hEq
    exact hOther e hLookup hDir hDump
  refine ⟨pid', e, ?_, hDir, hDump, hAttempts⟩
  rw [CheckpointRegistry.lookup_remove, if_neg hPid]
  exact hLookup

theorem Recorded.add (h : Recorded reg entryDump failures dir dump)
    (hNew : reg.checkpointed.lookup pid = none) (name dir' : String) (rss : Kb) (n : Nat) :
    Recorded (reg.add pid name dir' rss) (Function.update entryDump pid n) failures dir dump := by
  obtain ⟨pid', e, hLookup, hDir, hDump, hAttempts⟩ := h
  have hPid : pid' ≠ pid := by
    intro hEq
    rw [hEq, hNew] at hLookup
    cases hLookup
  refine ⟨pid', e, ?_, hDir, ?_, hAttempts⟩
  · rw [CheckpointRegistry.lookup_add, if_neg hPid]
    exact hLookup
  · rw [Function.update_of_ne hPid]
    exact hDump

theorem recorded_add (reg : CheckpointRegistry) (entryDump : Pid → Nat) (failures : String → Nat)
    (pid : Pid) (name dir : String) (rss : Kb) (n : Nat) :
    Recorded (reg.add pid name dir rss) (Function.update entryDump pid n) failures dir n := by
  refine ⟨pid, ⟨name, dir, rss, 0⟩, ?_, rfl, Function.update_self _ _ _, Nat.zero_le _⟩
  rw [CheckpointRegistry.lookup_add, if_pos rfl]

/-- A failed attempt is counted in the entry and among the failures. -/
theorem Recorded.incrementAttempts (h : Recorded reg entryDump failures dir dump)
    {e : CheckpointEntry} (hEntry : reg.checkpointed.lookup pid = some e) :
    Recorded (reg.incrementAttempts pid) entryDump
      (Function.update failures e.snapshotDir (failures e.snapshotDir + 1)) dir dump := by
  obtain ⟨pid', e', hLookup, hDir, hDump, hAttempts⟩ := h
  have hMore : failures dir ≤
      Function.update failures e.snapshotDir (failures e.snapshotDir + 1) dir := by
    by_cases hSame : dir = e.snapshotDir
    · rw [hSame, Function.update_self]
      omega
    · rw [Function.update_of_ne hSame]
  by_cases hPid : pid' = pid
  · subst hPid
    rw [hEntry] at hLookup
    cases hLookup
    refine ⟨pid', { e with attempts := e.attempts + 1 }, ?_, hDir, hDump, ?_⟩
    · rw [CheckpointRegistry.lookup_incrementAttempts, if_pos rfl, hEntry]
      rfl
    · rw [← hDir] at hAttempts ⊢
      rw [Function.update_self]
      show e.attempts + 1 ≤ failures e.snapshotDir + 1
      omega
  · refine ⟨pid', e', ?_, hDir, hDump, Nat.le_trans hAttempts hMore⟩
    rw [CheckpointRegistry.lookup_incrementAttempts, if_neg hPid]
    exact hLookup

end Entries

/-! ## One step -/

section Step

variable {ι : Type u} {paths : SnapshotPaths} {d : Daemon ι} {a : Action ι}

/-- The entry of an owed dump that is recorded already. -/
theorem entry_of_owed (h : Inv paths d) {dir : String} {dump : Nat}
    (hOwed : (dir, dump) ∈ d.owed) (hNotPending : ¬ BeingRecorded d.threads dir) :
    Recorded d.threads.registry d.threads.entryDump d.failures dir dump := by
  obtain ⟨-, -, hRecorded⟩ := h.held dir dump hOwed
  exact hRecorded.resolve_right hNotPending

theorem not_beingRecorded_of_idle {w : World ι} (hIdle : w.evictor = .idle) (dir : String) :
    ¬ BeingRecorded w dir := by
  intro hPending
  obtain ⟨pid, name, rss, hPc⟩ := hPending
  rw [hIdle] at hPc
  cases hPc

/-- An admitted checkpoint touches no directory of an owed dump. -/
theorem dir_ne_of_checkpoint (h : Inv paths d) {pid : Pid} {name : String}
    (hIdle : d.threads.evictor = .idle)
    (hSpares : ∀ e, d.threads.registry.checkpointed.lookup pid = some e →
      e.snapshotDir ≠ paths.snapshotDir pid name)
    {dir : String} {dump : Nat} (hOwed : (dir, dump) ∈ d.owed) :
    dir ≠ paths.snapshotDir pid name := by
  intro hDir
  obtain ⟨pid', e, hLookup, hEntryDir, -⟩ :=
    entry_of_owed h hOwed (not_beingRecorded_of_idle hIdle dir)
  have hPid : pid' = pid := h.consistent.named.pid_of_dir hLookup (hEntryDir.trans hDir)
  subst hPid
  exact hSpares e hLookup (hEntryDir.trans hDir)

theorem not_beingRecorded_of_entry (h : Inv paths d) {pid : Pid} {e : CheckpointEntry}
    (hLookup : d.threads.registry.checkpointed.lookup pid = some e) :
    ¬ BeingRecorded d.threads e.snapshotDir := by
  intro hPending
  obtain ⟨pid', name, rss, hPc⟩ := hPending
  have hDir := h.consistent.recording pid' name _ rss hPc
  have hPid : pid = pid' := h.consistent.named.pid_of_dir hLookup hDir
  subst hPid
  rw [h.new pid name _ rss hPc] at hLookup
  cases hLookup

/-- Only a checkpoint makes a dump owed. -/
theorem mem_owedAfter {w : World ι} {failures : String → Nat} {owed : List (String × Nat)}
    {x : String × Nat} (hMem : x ∈ owedAfter w failures owed a) :
    x ∈ owed ∨ ∃ pid name rss dir, a = .checkpoint pid name rss dir .killed ∧
      x = (dir, w.disk.dumps dir + 1) := by
  cases a with
  | checkpoint pid name rss dir result =>
      cases result with
      | killed =>
          cases List.mem_cons.mp hMem with
          | inl hNew => exact Or.inr ⟨pid, name, rss, dir, rfl, hNew⟩
          | inr hOld => exact Or.inl hOld
      | _ => exact Or.inl hMem
  | clientRestores i pid dir rest => exact Or.inl (List.mem_filter.mp hMem).1
  | recoveryRestores pid dir => exact Or.inl (List.mem_filter.mp hMem).1
  | recoveryClears pid dir dump removed =>
      cases dump with
      | none =>
          simp only [owedAfter] at hMem
          split at hMem
          · exact Or.inl (List.mem_filter.mp hMem).1
          · exact Or.inl hMem
      | some n => exact Or.inl hMem
  | _ => exact Or.inl hMem

/-- A restored dump is no longer owed, and its directory has no other. -/
theorem not_mem_filter_of_held (h : Inv paths d) (dir : String) (dump : Nat) :
    (dir, dump) ∉ d.owed.filter fun x => x ≠ (dir, d.threads.disk.dumps dir) := by
  intro hMem
  obtain ⟨hOwed, hNe⟩ := List.mem_filter.mp hMem
  obtain ⟨-, hDump, -⟩ := h.held dir dump hOwed
  rw [hDump] at hNe
  simp at hNe

/-- What the recovery pass clears is restored, or given up after the failures it
takes. -/
theorem not_owed_of_clears (h : Inv paths d) {pid : Pid} {dir : String} {dump : Option Nat}
    {removed : Bool} (hEnabled : Enabled paths d.threads (.recoveryClears pid dir dump removed))
    (n : Nat) :
    (dir, n) ∉ owedAfter d.threads d.failures d.owed (.recoveryClears pid dir dump removed) := by
  cases hEnabled with
  | inl hGivesUp =>
      obtain ⟨hPc, hNone⟩ := hGivesUp
      subst hNone
      obtain ⟨e, hLookup, hDir, hAttempts⟩ := h.givingUp pid dir hPc
      simp only [owedAfter]
      split
      · exact not_mem_filter_of_held h dir n
      · rename_i hFew
        intro hOwed
        have hNotPending : ¬ BeingRecorded d.threads dir := by
          rw [← hDir]
          exact not_beingRecorded_of_entry h hLookup
        obtain ⟨pid', e', hLookup', hDir', -, hFailures⟩ := entry_of_owed h hOwed hNotPending
        have hPid : pid' = pid :=
          h.consistent.named.pid_eq hLookup' hLookup (hDir'.trans hDir.symm)
        subst hPid
        rw [hLookup] at hLookup'
        cases hLookup'
        omega
  | inr hRestored =>
      obtain ⟨m, hPc, hSome⟩ := hRestored
      subst hSome
      exact h.recoveryDone dir (by rw [hPc]; rfl) n

theorem target_of_doneWith {pc : RecoveryPc} {dir : String} (h : doneWith pc = some dir) :
    ∃ pid, pc.target = some (pid, dir) := by
  cases pc with
  | restored pid dir' dump =>
      cases h
      exact ⟨pid, rfl⟩
  | cleared pid dir' dump =>
      cases h
      exact ⟨pid, rfl⟩
  | _ => cases h

/-- A directory the recovery pass is done with gets no new dump. -/
theorem not_owed_stays (h : Inv paths d) (hEnabled : Enabled paths d.threads a)
    (hSpares : SparesDumps d.threads a) {dir : String}
    (hDone : doneWith d.threads.recovery = some dir) (dump : Nat) :
    (dir, dump) ∉ owedAfter d.threads d.failures d.owed a := by
  intro hOwed
  cases mem_owedAfter hOwed with
  | inl hOld => exact h.recoveryDone dir hDone dump hOld
  | inr hNew =>
      obtain ⟨pid, name, rss, dir', hAction, hEq⟩ := hNew
      have hSame : dir = dir' := congrArg Prod.fst hEq
      subst hAction hSame
      obtain ⟨pid', hTarget⟩ := target_of_doneWith hDone
      obtain ⟨e, hLookup, hDir⟩ := h.consistent.locked pid' dir hTarget
      have hPid : pid' = pid := h.consistent.named.pid_of_dir hLookup (hDir.trans hEnabled.2)
      subst hPid
      have hNone : d.threads.registry.checkpointed.lookup pid' = none := hSpares
      rw [hNone] at hLookup
      cases hLookup

variable [DecidableEq ι]

theorem held_checkpoint_other {pid : Pid} {name dir' : String} {rss : Kb} {result : DumpEnd}
    {dir : String} {dump : Nat} (hIdle : d.threads.evictor = .idle) (hNe : dir ≠ dir')
    (h : Held d.threads d.failures dir dump) :
    Held (perform d.threads (.checkpoint pid name rss dir' result))
      (failuresAfter d.failures (.checkpoint pid name rss dir' result : Action ι)) dir dump := by
  obtain ⟨hHolds, hDump, hRecorded⟩ := h
  obtain ⟨hSameHolds, hSameDumps⟩ := Disk.checkpoint_other d.threads.disk hNe result
  refine ⟨hSameHolds.trans hHolds, hSameDumps.trans hDump, Or.inl ?_⟩
  obtain ⟨pid', e, hLookup, hDir, hEntryDump, hAttempts⟩ :=
    hRecorded.resolve_right (not_beingRecorded_of_idle hIdle dir)
  refine ⟨pid', e, hLookup, hDir, hEntryDump, ?_⟩
  have hFailures : failuresAfter d.failures (.checkpoint pid name rss dir' result : Action ι) dir =
      d.failures dir := by
    cases result with
    | killed => exact Function.update_of_ne hNe _ _
    | notKilled => exact Function.update_of_ne hNe _ _
    | failed left => rfl
    | notRun => rfl
  rw [hFailures]
  exact hAttempts

theorem held_checkpoint (h : Inv paths d) {pid : Pid} {name dir' : String} {rss : Kb}
    {result : DumpEnd}
    (hEnabled : Enabled paths d.threads (.checkpoint pid name rss dir' result))
    (hSpares : SparesDumps d.threads (.checkpoint pid name rss dir' result))
    {dir : String} {dump : Nat}
    (hOwed : (dir, dump) ∈
      owedAfter d.threads d.failures d.owed (.checkpoint pid name rss dir' result)) :
    Held (perform d.threads (.checkpoint pid name rss dir' result))
      (failuresAfter d.failures (.checkpoint pid name rss dir' result : Action ι)) dir dump := by
  obtain ⟨hIdle, hDir'⟩ := hEnabled
  subst hDir'
  have hOther : (dir, dump) ∈ d.owed →
      (∀ e, d.threads.registry.checkpointed.lookup pid = some e →
        e.snapshotDir ≠ paths.snapshotDir pid name) →
      Held (perform d.threads (.checkpoint pid name rss (paths.snapshotDir pid name) result))
        (failuresAfter d.failures
          (.checkpoint pid name rss (paths.snapshotDir pid name) result : Action ι)) dir dump :=
    fun hOld hFree => held_checkpoint_other hIdle (dir_ne_of_checkpoint h hIdle hFree hOld)
      (h.held dir dump hOld)
  cases result with
  | killed =>
      cases List.mem_cons.mp hOwed with
      | inl hNew =>
          cases hNew
          exact ⟨Disk.dump_holds_self, Disk.dump_dumps_self, Or.inr ⟨pid, name, rss, rfl⟩⟩
      | inr hOld =>
          refine hOther hOld fun e hLookup => ?_
          have hNone : d.threads.registry.checkpointed.lookup pid = none := hSpares
          rw [hNone] at hLookup
          cases hLookup
  | notKilled => exact hOther hOwed hSpares
  | failed left =>
      cases left with
      | false => exact hOther hOwed hSpares
      | true =>
          obtain ⟨hHolds, hDump, hRecorded⟩ := h.held dir dump hOwed
          exact ⟨hHolds, hDump,
            Or.inl (hRecorded.resolve_right (not_beingRecorded_of_idle hIdle dir))⟩
  | notRun =>
      obtain ⟨hHolds, hDump, hRecorded⟩ := h.held dir dump hOwed
      exact ⟨hHolds, hDump,
        Or.inl (hRecorded.resolve_right (not_beingRecorded_of_idle hIdle dir))⟩

/-- **An admitted step keeps every dump it still owes.** -/
theorem held_perform (h : Inv paths d) (hEnabled : Enabled paths d.threads a)
    (hSpares : SparesDumps d.threads a) {dir : String} {dump : Nat}
    (hOwed : (dir, dump) ∈ owedAfter d.threads d.failures d.owed a) :
    Held (perform d.threads a) (failuresAfter d.failures a) dir dump := by
  cases a with
  | checkpoint pid name rss dir' result => exact held_checkpoint h hEnabled hSpares hOwed
  | record pid name dir' rss =>
      obtain ⟨hHolds, hDump, hRecorded⟩ := h.held dir dump hOwed
      refine ⟨hHolds, hDump, Or.inl ?_⟩
      cases hRecorded with
      | inl hEntry => exact hEntry.add (h.new pid name dir' rss hEnabled.1) name dir' rss _
      | inr hPending =>
          obtain ⟨pid', name', rss', hPc⟩ := hPending
          rw [hEnabled.1] at hPc
          cases hPc
          rw [← hDump]
          exact recorded_add _ _ _ _ _ _ _ _
  | clientTurns i pc => exact h.held dir dump hOwed
  | clientRestores i pid dir' rest => exact h.held dir dump (List.mem_filter.mp hOwed).1
  | clientForgets i pid dir' dump' rest =>
      obtain ⟨hHolds, hDump, hRecorded⟩ := h.held dir dump hOwed
      have hPending : (d.threads.clients i).pending = some (pid, dir', dump') := by
        rw [hEnabled.1]
        rfl
      refine ⟨hHolds, hDump, hRecorded.imp ?_ fun hBeing => hBeing⟩
      intro hEntry
      refine hEntry.remove fun e hLookup hDir hEntryDump => ?_
      obtain ⟨hDir', hLe⟩ := hSpares e hLookup
      rw [hDir] at hDir'
      subst hDir'
      -- the entry's dump is the last one, so it is the one the connection restored
      have hLast := h.consistent.client_le i pid dir dump' hPending
      have hSame : dump' = dump := by omega
      subst hSame
      exact h.clientDone i pid dir dump' hPending hOwed
  | recoveryPicks pc => exact h.held dir dump hOwed
  | recoveryRestores pid dir' => exact h.held dir dump (List.mem_filter.mp hOwed).1
  | recoveryFails pid dir' =>
      obtain ⟨hHolds, hDump, hRecorded⟩ := h.held dir dump hOwed
      have hPc : d.threads.recovery = .restoring pid dir' := hEnabled
      obtain ⟨e, hLookup, hDir⟩ := h.consistent.locked pid dir' (by rw [hPc]; rfl)
      subst hDir
      refine ⟨hHolds, hDump, hRecorded.imp ?_ fun hBeing => hBeing⟩
      intro hEntry
      exact hEntry.incrementAttempts hLookup
  | recoveryClears pid dir' dump' removed =>
      have hNe : dir ≠ dir' := by
        intro hEq
        subst hEq
        exact not_owed_of_clears h hEnabled dump hOwed
      have hOld : (dir, dump) ∈ d.owed := by
        cases mem_owedAfter hOwed with
        | inl hOld => exact hOld
        | inr hNew =>
            obtain ⟨pid', name, rss, dir'', hAction, -⟩ := hNew
            cases hAction
      obtain ⟨hHolds, hDump, hRecorded⟩ := h.held dir dump hOld
      refine ⟨(Disk.removeDirAll_holds_other hNe removed).trans hHolds, ?_, hRecorded⟩
      show (d.threads.disk.removeDirAll dir' removed).dumps dir = dump
      rw [Disk.removeDirAll_dumps]
      exact hDump
  | recoveryForgets pid dir' dump' =>
      obtain ⟨hHolds, hDump, hRecorded⟩ := h.held dir dump hOwed
      have hPc : d.threads.recovery = .cleared pid dir' dump' := hEnabled
      obtain ⟨e', hLookup', hDir'⟩ := h.consistent.locked pid dir' (by rw [hPc]; rfl)
      refine ⟨hHolds, hDump, hRecorded.imp ?_ fun hBeing => hBeing⟩
      intro hEntry
      refine hEntry.remove fun e hLookup hDir _ => ?_
      rw [hLookup'] at hLookup
      cases hLookup
      rw [hDir'] at hDir
      subst hDir
      exact absurd hOwed (h.recoveryDone dir' (by rw [hPc]; rfl) dump)

theorem new_perform (h : Inv paths d) (hEnabled : Enabled paths d.threads a)
    (hSpares : SparesDumps d.threads a) {pid : Pid} {name dir : String} {rss : Kb}
    (hPc : (perform d.threads a).evictor = .dumped pid name dir rss) :
    (perform d.threads a).registry.checkpointed.lookup pid = none := by
  cases hLookup : (perform d.threads a).registry.checkpointed.lookup pid with
  | none => rfl
  | some e =>
      have hOld : d.threads.evictor = .dumped pid name dir rss →
          (perform d.threads a).registry.checkpointed.lookup pid = none := by
        intro hSame
        cases entry_origin hLookup with
        | inl hBefore =>
            obtain ⟨e₀, hLookup₀, -⟩ := hBefore
            rw [h.new pid name dir rss hSame] at hLookup₀
            cases hLookup₀
        | inr hRecorded =>
            obtain ⟨name', rss', hAction, -⟩ := hRecorded
            subst hAction
            cases hPc
      rw [← hLookup]
      cases a with
      | checkpoint pid' name' rss' dir' result =>
          simp only [perform] at hPc
          split at hPc
          · rename_i hKilled
            cases hPc
            subst hKilled
            exact hSpares
          · cases hPc
      | record pid' name' dir' rss' => cases hPc
      | _ => exact hOld hPc

theorem givingUp_perform (h : Inv paths d) (hEnabled : Enabled paths d.threads a) {pid : Pid}
    {dir : String} (hPc : (perform d.threads a).recovery = .givingUp pid dir) :
    ∃ e, (perform d.threads a).registry.checkpointed.lookup pid = some e ∧
      e.snapshotDir = dir ∧ maxRestoreAttempts ≤ e.attempts := by
  cases a with
  | recoveryPicks pc =>
      obtain ⟨-, pid', e, hLookup, hChoice⟩ := hEnabled
      have hPicked : pc = .givingUp pid dir := hPc
      subst hPicked
      cases hChoice with
      | inl hGivesUp =>
          obtain ⟨hEq, hAttempts⟩ := hGivesUp
          cases hEq
          exact ⟨e, hLookup, rfl, hAttempts⟩
      | inr hRestores => cases hRestores
  | record pid' name dir' rss =>
      rw [show (perform d.threads (.record pid' name dir' rss)).recovery = .idle from
        hEnabled.2] at hPc
      cases hPc
  | clientForgets i pid' dir' dump rest =>
      rw [show (perform d.threads (.clientForgets i pid' dir' dump rest)).recovery = .idle from
        hEnabled.2] at hPc
      cases hPc
  | recoveryRestores pid' dir' => cases hPc
  | recoveryFails pid' dir' => cases hPc
  | recoveryClears pid' dir' dump removed => cases hPc
  | recoveryForgets pid' dir' dump => cases hPc
  | checkpoint pid' name rss dir' result => exact h.givingUp pid dir hPc
  | clientTurns i pc => exact h.givingUp pid dir hPc
  | clientRestores i pid' dir' rest => exact h.givingUp pid dir hPc

theorem recoveryDone_perform (h : Inv paths d) (hEnabled : Enabled paths d.threads a)
    (hSpares : SparesDumps d.threads a) {dir : String}
    (hDone : doneWith (perform d.threads a).recovery = some dir) (dump : Nat) :
    (dir, dump) ∉ owedAfter d.threads d.failures d.owed a := by
  cases a with
  | recoveryPicks pc =>
      obtain ⟨-, pid, e, -, hChoice⟩ := hEnabled
      cases hChoice with
      | inl hGivesUp =>
          rw [hGivesUp.1] at hDone
          cases hDone
      | inr hRestores =>
          rw [hRestores] at hDone
          cases hDone
  | recoveryRestores pid dir' =>
      cases hDone
      exact not_mem_filter_of_held h dir dump
  | recoveryFails pid dir' => cases hDone
  | recoveryClears pid dir' dump' removed =>
      cases hDone
      exact not_owed_of_clears h hEnabled dump
  | recoveryForgets pid dir' dump' => cases hDone
  | checkpoint pid name rss dir' result => exact not_owed_stays h hEnabled hSpares hDone dump
  | record pid name dir' rss => exact not_owed_stays h hEnabled hSpares hDone dump
  | clientTurns i pc => exact not_owed_stays h hEnabled hSpares hDone dump
  | clientRestores i pid dir' rest => exact not_owed_stays h hEnabled hSpares hDone dump
  | clientForgets i pid dir' dump' rest => exact not_owed_stays h hEnabled hSpares hDone dump

theorem clientDone_perform (h : Inv paths d) (hEnabled : Enabled paths d.threads a) {i : ι}
    {pid : Pid} {dir : String} {dump : Nat}
    (hPending : ((perform d.threads a).clients i).pending = some (pid, dir, dump)) :
    (dir, dump) ∉ owedAfter d.threads d.failures d.owed a := by
  intro hOwed
  cases client_pending_origin hEnabled hPending with
  | inl hBefore =>
      cases mem_owedAfter hOwed with
      | inl hOld => exact h.clientDone i pid dir dump hBefore hOld
      | inr hNew =>
          obtain ⟨pid', name, rss, dir', -, hEq⟩ := hNew
          cases hEq
          have hLe := h.consistent.client_le i pid dir _ hBefore
          omega
  | inr hNow =>
      obtain ⟨pid', dir', rest, hAction, hEq⟩ := hNow
      cases hEq
      subst hAction
      exact not_mem_filter_of_held h dir _ hOwed

/-- Whatever a save leaves is read as the old registry, the new one or none. -/
theorem namesOwnDirs_write {file : StateFile CheckpointRegistry} {reg : CheckpointRegistry}
    (hFile : NamesOwnDirs paths (load file)) (hReg : NamesOwnDirs paths reg)
    (save : WriteResult) : NamesOwnDirs paths (load (file.write reg save)) :=
  Lib.StateFile.read_write_of (namesOwnDirs_new paths) hFile hReg save

/-- **One admitted step of a thread** keeps the invariant. -/
theorem inv_perform (h : Inv paths d) (hEnabled : Enabled paths d.threads a)
    (hSpares : SparesDumps d.threads a) (save : WriteResult) : Inv paths (d.perform a save) where
  consistent := consistent_perform h.consistent hEnabled
  fileNamed := by
    simp only [Daemon.perform]
    split
    · exact namesOwnDirs_write h.fileNamed (consistent_perform h.consistent hEnabled).named save
    · exact h.fileNamed
  held := fun _ _ hOwed => held_perform h hEnabled hSpares hOwed
  new := fun _ _ _ _ hPc => new_perform h hEnabled hSpares hPc
  givingUp := fun _ _ hPc => givingUp_perform h hEnabled hPc
  recoveryDone := fun _ hDone => recoveryDone_perform h hEnabled hSpares hDone
  clientDone := fun _ _ _ _ hPending => clientDone_perform h hEnabled hPending

end Step

/-! ## A crash -/

section Crash

variable {ι : Type u} {paths : SnapshotPaths} {d : Daemon ι}

theorem mem_activeDirs_iff {reg : CheckpointRegistry} {dir : String} :
    dir ∈ reg.entriesLightestFirst.map (fun e => e.2.snapshotDir) ↔ PointsTo reg dir := by
  unfold PointsTo
  simp only [List.mem_map, Prod.exists, CheckpointRegistry.mem_entriesLightestFirst_iff]

/-- The cleanup spares the directories of the registry. -/
theorem cleanup_holds {reg : CheckpointRegistry} {dir : String} (h : PointsTo reg dir)
    (removable : String → Bool) (disk : Disk) :
    (cleanupOrphanedSnapshots reg removable disk).holds dir = disk.holds dir := by
  unfold cleanupOrphanedSnapshots
  dsimp only
  rw [decide_eq_true (mem_activeDirs_iff.mpr h), Bool.true_or, Bool.and_true]

/-- **An admitted crash** keeps the invariant. -/
theorem inv_restart (h : Inv paths d) (removable : String → Bool)
    (hSpares : SparesEvent paths d (.crash removable)) : Inv paths (d.restart removable) where
  consistent := consistent_start h.fileNamed _
  fileNamed := h.fileNamed
  held := by
    intro dir dump hOwed
    obtain ⟨hIdle, hOnFile⟩ := hSpares
    obtain ⟨hHolds, hDump, -⟩ := h.held dir dump hOwed
    obtain ⟨pid, e, hLookup, hDir, -, hAttempts⟩ :=
      entry_of_owed h hOwed (not_beingRecorded_of_idle hIdle dir)
    have hLoaded : (load d.file).checkpointed.lookup pid = some e := hOnFile pid e hLookup
    refine ⟨?_, hDump, Or.inl ⟨pid, e, hLoaded, hDir, ?_, hAttempts⟩⟩
    · exact (cleanup_holds ⟨pid, e, hLoaded, hDir⟩ removable _).trans hHolds
    · have hDumps : d.threads.disk.dumps e.snapshotDir = dump := by
        rw [hDir, hDump]
      exact (entryDump_start hLoaded _).trans hDumps
  new := fun _ _ _ _ hPc => by cases hPc
  givingUp := fun _ _ hPc => by cases hPc
  recoveryDone := fun _ hDone => by cases hDone
  clientDone := fun _ _ _ _ hPending => by cases hPending

/-- **What a crash loses.**  An owed dump the file has no entry for is lost at the
next start. -/
theorem not_kept_of_crash [DecidableEq ι] {dir : String} {dump : Nat}
    (hOwed : (dir, dump) ∈ d.owed) (hNoEntry : ¬ PointsTo (load d.file) dir)
    (removable : String → Bool) : ¬ Kept (d.step paths (.crash removable)) := by
  intro hKept
  obtain ⟨-, -, hRecorded⟩ := hKept dir dump hOwed
  cases hRecorded with
  | inl hEntry => exact hNoEntry hEntry
  | inr hPending =>
      obtain ⟨pid, name, rss, hPc⟩ := hPending
      cases hPc

end Crash

/-! ## Runs -/

section Runs

variable {ι : Type u} [DecidableEq ι] {paths : SnapshotPaths}

theorem inv_step {d : Daemon ι} (h : Inv paths d) (event : Event ι)
    (hSpares : SparesEvent paths d event) : Inv paths (d.step paths event) := by
  cases event with
  | move m save =>
      unfold Daemon.step
      dsimp only
      split
      · exact h
      · rename_i a hAction
        exact inv_perform h (enabled_of_action hAction) (hSpares a hAction) save
  | crash removable => exact inv_restart h removable hSpares

/--
**No dump is lost.**  In a run from any state file and any directories, with any
saves and crashes that meet `SparesEvent`, every dump of a killed process stays in
its directory, with an entry that points to it, until it is restored or given up
after its failures.
-/
theorem kept_of_sparesEvent {file : StateFile CheckpointRegistry}
    (hNamed : NamesOwnDirs paths (load file)) (disk : Disk) {events : List (Event ι)}
    (hSpares : EveryStep (Daemon.step paths) (SparesEvent paths) (Daemon.start file disk) events) :
    Always (Daemon.step paths) Kept (Daemon.start file disk) events := by
  have hStep : ∀ (d : Daemon ι) (event : Event ι), Inv paths d → SparesEvent paths d event →
      Inv paths (d.step paths event) := fun d event h hEvent => inv_step h event hEvent
  have hAlways : Always (Daemon.step paths) (Inv paths) (Daemon.start file disk) events :=
    always_of_invariant hStep (inv_start hNamed disk) hSpares
  exact hAlways.imp fun _ h => kept_of_inv h

end Runs

/-! ## One checkpointed process -/

/-- The process is dumped and killed, and the daemon dies before it adds the
entry. -/
def crashBeforeRecord : List (Event Unit) :=
  [.move (.checkpoint ⟨999⟩ "idea" (Kb.clamp 2048000) .killed) .written, .crash fun _ => true]

/-- The entry is added and saved before the daemon dies. -/
def crashAfterRecord : List (Event Unit) :=
  [.move (.checkpoint ⟨999⟩ "idea" (Kb.clamp 2048000) .killed) .written, .move .record .written,
    .crash fun _ => true]

theorem crashAfterRecord_kept :
    Always (Daemon.step home) Kept (Daemon.start .absent noSnapshots) crashAfterRecord := by
  refine kept_of_sparesEvent (namesOwnDirs_new home) noSnapshots ?_
  refine ⟨?_, ?_, ?_, trivial⟩
  · intro a hAction
    cases hAction
    rfl
  · intro a hAction
    cases hAction
    trivial
  · exact ⟨rfl, fun pid e hLookup => hLookup⟩

/-- The next start removes the directory of the killed process. -/
theorem crashBeforeRecord_loses_dump :
    ¬ Always (Daemon.step home) Kept (Daemon.start .absent noSnapshots) crashBeforeRecord := by
  intro hAlways
  have hOwed : ("/home/u/.local/share/mgd/snapshots/999_idea", 1) ∈
      (run (Daemon.step home) (Daemon.start .absent noSnapshots) crashBeforeRecord).owed := by
    decide +kernel
  have hGone : (run (Daemon.step home) (Daemon.start .absent noSnapshots)
      crashBeforeRecord).threads.disk.holds "/home/u/.local/share/mgd/snapshots/999_idea" =
        false := by
    decide +kernel
  have hKept := (hAlways.last _ _ hOwed).1
  rw [hGone] at hKept
  cases hKept

end Mgd.Snapshots.DumpsKept
