import Mgd.Snapshots.Threads

/-!
# Snapshot directories and their entries

A directory under `snapshots/` is meant to be on disk exactly while
`CheckpointRegistry` lists it; at the start of the daemon
`cleanup_orphaned_snapshots` removes the others.  `checkpoint` makes the
directory first and has six exits, of which two remove it; `restore_pass`
removes it before the entry, and `mgctl restore` removes the entry only.

The threads are those of `Mgd.Snapshots.Threads`, here with `checkpoint` cut at
the helper's run and with the directories themselves instead of the dumps in
them (`Mgd.Snapshots.DirectoryView`).  `mismatch_free_iff` says of each step
whether it keeps directories and entries together, up to the directories a thread
is still working on.
-/

namespace Mgd.Snapshots.Directories

open Mgd.Types Mgd.Monitor Mgd.Lib.AssocMap Mgd.Lib.Run Mgd.Executor.Registry
open Mgd.Executor.Checkpoint Mgd.Recovery Mgd.Snapshots.Threads

universe u

/-! ## The threads -/

inductive EvictorPc
  | idle
  /-- The directory is made, the helper is running. -/
  | made (pid : Pid) (name dir : String) (rss : Kb)
  /-- `checkpoint` succeeded, `add` still to come. -/
  | dumped (pid : Pid) (name dir : String) (rss : Kb)

/-- The recovery pass; it holds the lock unless it is idle. -/
inductive RecoveryPc
  | idle
  /-- The attempts are used up. -/
  | givingUp (pid : Pid) (dir : String)
  | restoring (pid : Pid) (dir : String)
  | restored (pid : Pid) (dir : String)
  /-- `remove_dir_all` returned, the entry is still there. -/
  | cleared (pid : Pid) (dir : String)

/-- A connection that serves `mgctl restore`. -/
inductive ClientPc
  | idle
  | restoring (entries : List (Pid × String))
  /-- `remove` still to come. -/
  | restored (pid : Pid) (rest : List (Pid × String))

structure World (ι : Type u) where
  registry : CheckpointRegistry
  /-- the directory is on disk -/
  dirs : String → Bool
  evictor : EvictorPc
  recovery : RecoveryPc
  clients : ι → ClientPc

/-- The exits of `checkpoint` after `create_dir_all`; `removed` says whether
`remove_dir_all` succeeded. -/
inductive CheckpointEnd
  | notUtf8
  | noHelper (removed : Bool)
  /-- The dump is there and the process is killed, or was already gone. -/
  | killed
  /-- The dump is there, but SIGKILL failed. -/
  | notKilled
  | dumpFailed (removed : Bool)
  /-- The helper could not be run. -/
  | notRun
deriving DecidableEq

/-- The exit has removed the directory. -/
def CheckpointEnd.removes : CheckpointEnd → Bool
  | .notUtf8 => false
  | .noHelper removed => removed
  | .killed => false
  | .notKilled => false
  | .dumpFailed removed => removed
  | .notRun => false

inductive Move (ι : Type u)
  /-- The evictor makes the directory, or fails to. -/
  | beginCheckpoint (pid : Pid) (name : String) (rss : Kb) (made : Bool)
  | endCheckpoint (how : CheckpointEnd)
  /-- The evictor adds the entry. -/
  | record
  | clientRestore (i : ι) (arg : RestoreArg)
  /-- `ok` is the answer of the helper, when the step is a restore. -/
  | client (i : ι) (ok : Bool)
  | recoveryPass (baseline : HealthBaseline) (meminfo : MemInfo)
  /-- `ok` is the answer of the helper or of `remove_dir_all`. -/
  | recovery (ok : Bool)

/-! ## What a move does -/

inductive Action (ι : Type u)
  | makes (pid : Pid) (name dir : String) (rss : Kb)
  | ends (pid : Pid) (name dir : String) (rss : Kb) (how : CheckpointEnd)
  | records (pid : Pid) (name dir : String) (rss : Kb)
  /-- It lists its entries, restores one, goes on after a failure or is done. -/
  | clientTurns (i : ι) (pc : ClientPc)
  | clientForgets (i : ι) (pid : Pid) (rest : List (Pid × String))
  /-- It takes the lock for the lightest entry, or has restored it. -/
  | recoveryTurns (pc : RecoveryPc)
  | recoveryFails (pid : Pid)
  | recoveryClears (pid : Pid) (dir : String) (removed : Bool)
  | recoveryForgets (pid : Pid) (dir : String)

section Steps

variable {ι : Type u}

/-- No thread holds the lock between two steps. -/
def World.lockFree (w : World ι) : Bool :=
  match w.recovery with
  | .idle => true
  | .givingUp _ _ => false
  | .restoring _ _ => false
  | .restored _ _ => false
  | .cleared _ _ => false

/-- `checkpoint::restore`: it looks for the directory before it asks the helper. -/
def World.restore (w : World ι) (dir : String) (ok : Bool) : Bool := w.dirs dir && ok

/-- The choice of `restore_pass`. -/
def World.pick (w : World ι) (baseline : HealthBaseline) (meminfo : MemInfo) :
    Option (Action ι) :=
  match w.registry.entriesLightestFirst with
  | [] => none
  | (pid, entry) :: _ =>
      if entry.attempts ≥ maxRestoreAttempts then
        some (.recoveryTurns (.givingUp pid entry.snapshotDir))
      else if baseline.safeToRestore meminfo.availableKb meminfo.totalKb entry.rss then
        some (.recoveryTurns (.restoring pid entry.snapshotDir))
      else none

def World.clientAction (w : World ι) (i : ι) (ok : Bool) : Option (Action ι) :=
  match w.clients i with
  | .idle => none
  | .restoring [] => some (.clientTurns i .idle)
  | .restoring ((pid, dir) :: rest) =>
      if w.restore dir ok then some (.clientTurns i (.restored pid rest))
      else some (.clientTurns i (.restoring rest))
  | .restored pid rest => if w.lockFree then some (.clientForgets i pid rest) else none

def World.recoveryAction (w : World ι) (ok : Bool) : Option (Action ι) :=
  match w.recovery with
  | .idle => none
  | .givingUp pid dir => some (.recoveryClears pid dir ok)
  | .restoring pid dir =>
      if w.restore dir ok then some (.recoveryTurns (.restored pid dir))
      else some (.recoveryFails pid)
  | .restored pid dir => some (.recoveryClears pid dir ok)
  | .cleared pid dir => some (.recoveryForgets pid dir)

def action (paths : SnapshotPaths) (w : World ι) : Move ι → Option (Action ι)
  | .beginCheckpoint pid name rss made =>
      match w.evictor with
      | .idle => if made then some (.makes pid name (paths.snapshotDir pid name) rss) else none
      | .made _ _ _ _ => none
      | .dumped _ _ _ _ => none
  | .endCheckpoint how =>
      match w.evictor with
      | .idle => none
      | .made pid name dir rss => some (.ends pid name dir rss how)
      | .dumped _ _ _ _ => none
  | .record =>
      match w.evictor with
      | .idle => none
      | .made _ _ _ _ => none
      | .dumped pid name dir rss =>
          if w.lockFree then some (.records pid name dir rss) else none
  | .clientRestore i arg =>
      match w.clients i with
      | .idle =>
          if w.lockFree then
            some (.clientTurns i (.restoring (matchingEntries w.registry arg)))
          else none
      | .restoring _ => none
      | .restored _ _ => none
  | .client i ok => w.clientAction i ok
  | .recoveryPass baseline meminfo =>
      match w.recovery with
      | .idle => w.pick baseline meminfo
      | .givingUp _ _ => none
      | .restoring _ _ => none
      | .restored _ _ => none
      | .cleared _ _ => none
  | .recovery ok => w.recoveryAction ok

/-- `remove_dir_all`, whose failure is ignored. -/
def removeDirAll (dirs : String → Bool) (dir : String) (removed : Bool) : String → Bool :=
  if removed then Function.update dirs dir false else dirs

variable [DecidableEq ι]

def perform (w : World ι) : Action ι → World ι
  | .makes pid name dir rss =>
      { w with dirs := Function.update w.dirs dir true, evictor := .made pid name dir rss }
  | .ends pid name dir rss how =>
      { w with
        dirs := removeDirAll w.dirs dir how.removes
        evictor := if how = .killed then .dumped pid name dir rss else .idle }
  | .records pid name dir rss =>
      { w with registry := w.registry.add pid name dir rss, evictor := .idle }
  | .clientTurns i pc => { w with clients := Function.update w.clients i pc }
  | .clientForgets i pid rest =>
      { w with
        registry := w.registry.remove pid
        clients := Function.update w.clients i (.restoring rest) }
  | .recoveryTurns pc => { w with recovery := pc }
  | .recoveryFails pid =>
      { w with registry := w.registry.incrementAttempts pid, recovery := .idle }
  | .recoveryClears pid dir removed =>
      { w with dirs := removeDirAll w.dirs dir removed, recovery := .cleared pid dir }
  | .recoveryForgets pid _ =>
      { w with registry := w.registry.remove pid, recovery := .idle }

def step (paths : SnapshotPaths) (w : World ι) (m : Move ι) : World ι :=
  match action paths w m with
  | none => w
  | some a => perform w a

/-- A condition on the step, put on what it does. -/
def OnAction (paths : SnapshotPaths) (P : World ι → Action ι → Prop) (w : World ι) (m : Move ι) :
    Prop :=
  ∀ a, action paths w m = some a → P w a

end Steps

/-! ## When a step is taken -/

/-- The registry as the daemon before left it. -/
structure LoadedRegistry (paths : SnapshotPaths) where
  registry : CheckpointRegistry
  named : NamesOwnDirs paths registry

/-- The PID has an entry for the directory. -/
def EntryAt (reg : CheckpointRegistry) (pid : Pid) (dir : String) : Prop :=
  ∃ e, reg.checkpointed.lookup pid = some e ∧ e.snapshotDir = dir

/-- The registry lists the directory. -/
def lists (reg : CheckpointRegistry) (dir : String) : Bool :=
  (values reg.checkpointed).any fun e => decide (e.snapshotDir = dir)

/-- The directory the evictor is checkpointing into. -/
def EvictorPc.dir : EvictorPc → Option String
  | .idle => none
  | .made _ _ dir _ => some dir
  | .dumped _ _ dir _ => some dir

/-- The directory removed by a recovery pass that has yet to remove the entry. -/
def RecoveryPc.clearing : RecoveryPc → Option String
  | .idle => none
  | .givingUp _ _ => none
  | .restoring _ _ => none
  | .restored _ _ => none
  | .cleared _ dir => some dir

/-- The entry the recovery pass works on. -/
def RecoveryPc.target : RecoveryPc → Option (Pid × String)
  | .idle => none
  | .givingUp pid dir => some (pid, dir)
  | .restoring pid dir => some (pid, dir)
  | .restored pid dir => some (pid, dir)
  | .cleared pid dir => some (pid, dir)

section Enabled

variable {ι : Type u} {paths : SnapshotPaths} {w : World ι} {m : Move ι} {a : Action ι}

/-- What is known of the state when a step is taken. -/
def Enabled (paths : SnapshotPaths) (w : World ι) : Action ι → Prop
  | .makes pid name dir _ => w.evictor = .idle ∧ dir = paths.snapshotDir pid name
  | .ends pid name dir rss _ => w.evictor = .made pid name dir rss
  | .records pid name dir rss => w.evictor = .dumped pid name dir rss ∧ w.recovery = .idle
  | .clientTurns _ _ => True
  | .clientForgets _ _ _ => w.recovery = .idle
  | .recoveryTurns pc =>
      w.recovery.clearing = none ∧ pc.clearing = none ∧
        ∀ pid dir, pc.target = some (pid, dir) →
          EntryAt w.registry pid dir ∨ w.recovery.target = some (pid, dir)
  | .recoveryFails pid => ∃ dir, w.recovery = .restoring pid dir
  | .recoveryClears pid dir _ =>
      w.recovery.clearing = none ∧ w.recovery.target = some (pid, dir)
  | .recoveryForgets pid dir => w.recovery = .cleared pid dir

theorem recovery_idle_of_lockFree (h : w.lockFree = true) : w.recovery = .idle := by
  unfold World.lockFree at h
  split at h
  · assumption
  all_goals cases h

theorem enabled_pick {baseline : HealthBaseline} {meminfo : MemInfo} (hIdle : w.recovery = .idle)
    (h : w.pick baseline meminfo = some a) : Enabled paths w a := by
  have hClearing : w.recovery.clearing = none := by rw [hIdle]; rfl
  unfold World.pick at h
  split at h
  · cases h
  · rename_i pid entry rest hEntries
    have hLookup : w.registry.checkpointed.lookup pid = some entry :=
      CheckpointRegistry.mem_entriesLightestFirst_iff.mp
        (by rw [hEntries]; exact List.mem_cons_self)
    have hEntry : EntryAt w.registry pid entry.snapshotDir := ⟨entry, hLookup, rfl⟩
    split at h
    · cases h
      refine ⟨hClearing, rfl, fun pid' dir hTarget => Or.inl ?_⟩
      cases hTarget
      exact hEntry
    · split at h
      · cases h
        refine ⟨hClearing, rfl, fun pid' dir hTarget => Or.inl ?_⟩
        cases hTarget
        exact hEntry
      · cases h

theorem enabled_clientAction {i : ι} {ok : Bool} (h : w.clientAction i ok = some a) :
    Enabled paths w a := by
  unfold World.clientAction at h
  split at h
  · cases h
  · cases h
    trivial
  · split at h
    · cases h
      trivial
    · cases h
      trivial
  · split at h
    · rename_i hFree
      cases h
      exact recovery_idle_of_lockFree hFree
    · cases h

theorem enabled_recoveryAction {ok : Bool} (h : w.recoveryAction ok = some a) :
    Enabled paths w a := by
  unfold World.recoveryAction at h
  cases hPc : w.recovery with
  | idle =>
      rw [hPc] at h
      cases h
  | givingUp pid dir =>
      rw [hPc] at h
      cases h
      exact ⟨by rw [hPc]; rfl, by rw [hPc]; rfl⟩
  | restoring pid dir =>
      rw [hPc] at h
      dsimp only at h
      split at h
      · cases h
        refine ⟨by rw [hPc]; rfl, rfl, fun pid' dir' hTarget => Or.inr ?_⟩
        cases hTarget
        rw [hPc]
        rfl
      · cases h
        exact ⟨dir, hPc⟩
  | restored pid dir =>
      rw [hPc] at h
      cases h
      exact ⟨by rw [hPc]; rfl, by rw [hPc]; rfl⟩
  | cleared pid dir =>
      rw [hPc] at h
      cases h
      exact hPc

/-- **What a step needs.** -/
theorem enabled_of_action (h : action paths w m = some a) : Enabled paths w a := by
  cases m with
  | beginCheckpoint pid name rss made =>
      unfold action at h
      dsimp only at h
      split at h
      · rename_i hPc
        split at h
        · cases h
          exact ⟨hPc, rfl⟩
        · cases h
      all_goals cases h
  | endCheckpoint how =>
      unfold action at h
      dsimp only at h
      split at h
      · cases h
      · rename_i hPc
        cases h
        exact hPc
      · cases h
  | record =>
      unfold action at h
      dsimp only at h
      split at h
      · cases h
      · cases h
      · rename_i hPc
        split at h
        · rename_i hFree
          cases h
          exact ⟨hPc, recovery_idle_of_lockFree hFree⟩
        · cases h
  | clientRestore i arg =>
      unfold action at h
      dsimp only at h
      split at h
      · split at h
        · cases h
          trivial
        · cases h
      all_goals cases h
  | client i ok => exact enabled_clientAction h
  | recoveryPass baseline meminfo =>
      unfold action at h
      dsimp only at h
      split at h
      · rename_i hPc
        exact enabled_pick hPc h
      all_goals cases h
  | recovery ok => exact enabled_recoveryAction h

end Enabled

/-! ## Entries -/

section Entries

variable {paths : SnapshotPaths} {reg : CheckpointRegistry} {pid pid' : Pid} {dir dir' : String}

theorem lists_iff : lists reg dir = true ↔ ∃ pid, EntryAt reg pid dir := by
  unfold lists
  rw [List.any_eq_true]
  constructor
  · intro h
    obtain ⟨e, hMem, hDir⟩ := h
    obtain ⟨pid, hLookup⟩ := mem_values_iff.mp hMem
    exact ⟨pid, e, hLookup, of_decide_eq_true hDir⟩
  · intro h
    obtain ⟨pid, e, hLookup, hDir⟩ := h
    exact ⟨e, mem_values_iff.mpr ⟨pid, hLookup⟩, decide_eq_true hDir⟩

/-- A PID has one entry. -/
theorem EntryAt.dir_unique (h : EntryAt reg pid dir) (h' : EntryAt reg pid dir') : dir = dir' := by
  obtain ⟨e, hLookup, hDir⟩ := h
  obtain ⟨e', hLookup', hDir'⟩ := h'
  rw [hLookup] at hLookup'
  cases hLookup'
  exact hDir.symm.trans hDir'

/-- A directory is that of one PID's entry. -/
theorem EntryAt.pid_unique (hNamed : NamesOwnDirs paths reg) (h : EntryAt reg pid dir)
    (h' : EntryAt reg pid' dir) : pid = pid' := by
  obtain ⟨e, hLookup, hDir⟩ := h
  obtain ⟨e', hLookup', hDir'⟩ := h'
  exact hNamed.pid_eq hLookup hLookup' (hDir.trans hDir'.symm)

theorem entryAt_add {name : String} {rss : Kb} :
    EntryAt (reg.add pid name dir rss) pid' dir' ↔
      if pid' = pid then dir = dir' else EntryAt reg pid' dir' := by
  unfold EntryAt
  rw [CheckpointRegistry.lookup_add]
  by_cases hPid : pid' = pid
  · simp [if_pos hPid]
  · rw [if_neg hPid, if_neg hPid]

theorem entryAt_remove :
    EntryAt (reg.remove pid) pid' dir' ↔ pid' ≠ pid ∧ EntryAt reg pid' dir' := by
  unfold EntryAt
  rw [CheckpointRegistry.lookup_remove]
  by_cases hPid : pid' = pid
  · simp [hPid]
  · simp [hPid]

/-- Counting an attempt leaves every entry its directory. -/
theorem entryAt_incrementAttempts :
    EntryAt (reg.incrementAttempts pid) pid' dir' ↔ EntryAt reg pid' dir' := by
  unfold EntryAt
  rw [CheckpointRegistry.lookup_incrementAttempts]
  by_cases hPid : pid' = pid
  · rw [if_pos hPid, hPid]
    cases reg.checkpointed.lookup pid with
    | none => simp
    | some e => simp
  · rw [if_neg hPid]

/-- An entry's directory names its PID. -/
theorem namesOwnDirs_iff :
    NamesOwnDirs paths reg ↔
      ∀ pid dir, EntryAt reg pid dir → ∃ name, dir = paths.snapshotDir pid name := by
  constructor
  · intro h pid dir hEntry
    obtain ⟨e, hLookup, hDir⟩ := hEntry
    obtain ⟨name, hName⟩ := h pid e hLookup
    exact ⟨name, hDir.symm.trans hName⟩
  · intro h pid e hLookup
    exact h pid e.snapshotDir ⟨e, hLookup, rfl⟩

theorem namesOwnDirs_add (h : NamesOwnDirs paths reg) (pid : Pid) (name : String) (rss : Kb) :
    NamesOwnDirs paths (reg.add pid name (paths.snapshotDir pid name) rss) := by
  rw [namesOwnDirs_iff] at h ⊢
  intro pid' dir' hEntry
  rw [entryAt_add] at hEntry
  split at hEntry
  · rename_i hPid
    exact ⟨name, by rw [hPid, hEntry]⟩
  · exact h pid' dir' hEntry

theorem namesOwnDirs_remove (h : NamesOwnDirs paths reg) (pid : Pid) :
    NamesOwnDirs paths (reg.remove pid) := by
  rw [namesOwnDirs_iff] at h ⊢
  intro pid' dir' hEntry
  exact h pid' dir' (entryAt_remove.mp hEntry).2

theorem namesOwnDirs_incrementAttempts (h : NamesOwnDirs paths reg) (pid : Pid) :
    NamesOwnDirs paths (reg.incrementAttempts pid) := by
  rw [namesOwnDirs_iff] at h ⊢
  intro pid' dir' hEntry
  exact h pid' dir' (entryAt_incrementAttempts.mp hEntry)

theorem lists_incrementAttempts : lists (reg.incrementAttempts pid) dir = lists reg dir := by
  rw [Bool.eq_iff_iff, lists_iff, lists_iff]
  simp only [entryAt_incrementAttempts]

/-- Removing an entry unlists its directory and no other. -/
theorem lists_remove (hNamed : NamesOwnDirs paths reg) (hEntry : EntryAt reg pid dir) :
    lists (reg.remove pid) dir' = (lists reg dir' && decide (dir' ≠ dir)) := by
  rw [Bool.eq_iff_iff, Bool.and_eq_true, decide_eq_true_iff, lists_iff, lists_iff]
  constructor
  · intro h
    obtain ⟨pid', hAfter⟩ := h
    obtain ⟨hPid, hBefore⟩ := entryAt_remove.mp hAfter
    refine ⟨⟨pid', hBefore⟩, fun hDir => hPid ?_⟩
    rw [hDir] at hBefore
    exact hBefore.pid_unique hNamed hEntry
  · intro h
    obtain ⟨⟨pid', hBefore⟩, hDir⟩ := h
    refine ⟨pid', entryAt_remove.mpr ⟨fun hPid => hDir ?_, hBefore⟩⟩
    rw [hPid] at hBefore
    exact hBefore.dir_unique hEntry

theorem lists_remove_self (hNamed : NamesOwnDirs paths reg) (hEntry : EntryAt reg pid dir) :
    lists (reg.remove pid) dir = false := by
  rw [lists_remove hNamed hEntry]
  simp

theorem lists_remove_other (hNamed : NamesOwnDirs paths reg) (hEntry : EntryAt reg pid dir)
    (hDir : dir' ≠ dir) : lists (reg.remove pid) dir' = lists reg dir' := by
  rw [lists_remove hNamed hEntry]
  simp [hDir]

theorem lists_of_lists_remove (h : lists (reg.remove pid) dir = true) : lists reg dir = true := by
  rw [lists_iff] at h ⊢
  obtain ⟨pid', hAfter⟩ := h
  exact ⟨pid', (entryAt_remove.mp hAfter).2⟩

/-- With no entry to remove, the same directories are listed. -/
theorem lists_remove_of_lookup_none (h : reg.checkpointed.lookup pid = none) :
    lists (reg.remove pid) dir = lists reg dir := by
  rw [Bool.eq_iff_iff]
  refine ⟨lists_of_lists_remove, fun hLists => ?_⟩
  obtain ⟨pid', hBefore⟩ := lists_iff.mp hLists
  refine lists_iff.mpr ⟨pid', entryAt_remove.mpr ⟨fun hPid => ?_, hBefore⟩⟩
  obtain ⟨e, hLookup, -⟩ := hBefore
  rw [hPid, h] at hLookup
  cases hLookup

theorem lists_add_self {name : String} {rss : Kb} :
    lists (reg.add pid name dir rss) dir = true :=
  lists_iff.mpr ⟨pid, entryAt_add.mpr (by rw [if_pos rfl])⟩

/-- Another directory stays listed, unless the PID's old entry was for it. -/
theorem lists_add_other {name : String} {rss : Kb} (hDir : dir' ≠ dir)
    (hOld : ¬ EntryAt reg pid dir') :
    lists (reg.add pid name dir rss) dir' = lists reg dir' := by
  rw [Bool.eq_iff_iff, lists_iff, lists_iff]
  constructor
  · intro h
    obtain ⟨pid', hAfter⟩ := h
    rw [entryAt_add] at hAfter
    split at hAfter
    · exact absurd hAfter.symm hDir
    · exact ⟨pid', hAfter⟩
  · intro h
    obtain ⟨pid', hBefore⟩ := h
    have hPid : pid' ≠ pid := by
      intro hPid
      rw [hPid] at hBefore
      exact hOld hBefore
    exact ⟨pid', entryAt_add.mpr (by rw [if_neg hPid]; exact hBefore)⟩

/-- A PID dumped under a new name loses the directory of its old entry. -/
theorem lists_add_replaced {name : String} {rss : Kb} (hNamed : NamesOwnDirs paths reg)
    (hDir : dir' ≠ dir) (hOld : EntryAt reg pid dir') :
    lists (reg.add pid name dir rss) dir' = false := by
  rw [Bool.eq_false_iff]
  intro h
  obtain ⟨pid', hAfter⟩ := lists_iff.mp h
  rw [entryAt_add] at hAfter
  split at hAfter
  · exact hDir hAfter.symm
  · rename_i hPid
    exact hPid (hAfter.pid_unique hNamed hOld)

end Entries

/-! ## What the threads have in hand -/

section Invariant

variable {ι : Type u} {paths : SnapshotPaths} {w : World ι}

/-- What every run keeps. -/
structure Inv (paths : SnapshotPaths) (w : World ι) : Prop where
  named : NamesOwnDirs paths w.registry
  evictorDir : ∀ pid name dir rss,
    w.evictor = .made pid name dir rss ∨ w.evictor = .dumped pid name dir rss →
      dir = paths.snapshotDir pid name
  /-- only a recovery pass takes a listed directory from under the evictor -/
  evictorHolds : ∀ dir, w.evictor.dir = some dir → lists w.registry dir = true →
    w.dirs dir = true ∨ w.recovery.clearing = some dir
  /-- the pass holds the lock, so its entry stays -/
  recoveryEntry : ∀ pid dir, w.recovery.target = some (pid, dir) → EntryAt w.registry pid dir

theorem recoveryEntry_of_idle {reg : CheckpointRegistry} (h : w.recovery = .idle) :
    ∀ pid dir, w.recovery.target = some (pid, dir) → EntryAt reg pid dir := by
  intro pid dir hTarget
  rw [h] at hTarget
  cases hTarget

theorem removeDirAll_other {dirs : String → Bool} {dir dir' : String} (h : dir' ≠ dir)
    (removed : Bool) : removeDirAll dirs dir removed dir' = dirs dir' := by
  unfold removeDirAll
  split
  · exact Function.update_of_ne h _ _
  · rfl

theorem removeDirAll_self (dirs : String → Bool) (dir : String) (removed : Bool) :
    removeDirAll dirs dir removed dir = (dirs dir && !removed) := by
  cases removed <;> simp [removeDirAll]

variable [DecidableEq ι] {a : Action ι}

theorem inv_makes {pid : Pid} {name dir : String} {rss : Kb} (hInv : Inv paths w)
    (hDir : dir = paths.snapshotDir pid name) :
    Inv paths (perform w (.makes pid name dir rss)) where
  named := hInv.named
  evictorDir := by
    intro pid' name' dir' rss' h
    simp only [perform, EvictorPc.made.injEq, reduceCtorEq, or_false] at h
    obtain ⟨rfl, rfl, rfl, -⟩ := h
    exact hDir
  evictorHolds := by
    intro dir' hDir' hLists
    cases hDir'
    exact Or.inl (Function.update_self _ _ _)
  recoveryEntry := hInv.recoveryEntry

theorem inv_ends {pid : Pid} {name dir : String} {rss : Kb} {how : CheckpointEnd}
    (hInv : Inv paths w) (hPc : w.evictor = .made pid name dir rss) :
    Inv paths (perform w (.ends pid name dir rss how)) := by
  by_cases hHow : how = .killed
  · constructor
    · exact hInv.named
    · intro pid' name' dir' rss' h
      simp only [perform, if_pos hHow, reduceCtorEq, EvictorPc.dumped.injEq, false_or] at h
      obtain ⟨rfl, rfl, rfl, -⟩ := h
      exact hInv.evictorDir _ _ _ rss (Or.inl hPc)
    · intro dir' hDir' hLists
      simp only [perform, if_pos hHow, EvictorPc.dir] at hDir'
      cases hDir'
      rw [hHow]
      exact hInv.evictorHolds dir (by rw [hPc]; rfl) hLists
    · exact hInv.recoveryEntry
  · constructor
    · exact hInv.named
    · intro pid' name' dir' rss' h
      simp [perform, if_neg hHow] at h
    · intro dir' hDir' hLists
      simp [perform, if_neg hHow, EvictorPc.dir] at hDir'
    · exact hInv.recoveryEntry

theorem inv_records {pid : Pid} {name dir : String} {rss : Kb} (hInv : Inv paths w)
    (hPc : w.evictor = .dumped pid name dir rss) (hIdle : w.recovery = .idle) :
    Inv paths (perform w (.records pid name dir rss)) where
  named := by
    rw [hInv.evictorDir _ _ _ rss (Or.inr hPc)]
    exact namesOwnDirs_add hInv.named pid name rss
  evictorDir := by
    intro pid' name' dir' rss' h
    simp [perform] at h
  evictorHolds := by
    intro dir' hDir' hLists
    cases hDir'
  recoveryEntry := recoveryEntry_of_idle hIdle

theorem inv_recoveryClears {pid : Pid} {dir : String} {removed : Bool} (hInv : Inv paths w)
    (hClearing : w.recovery.clearing = none) (hTarget : w.recovery.target = some (pid, dir)) :
    Inv paths (perform w (.recoveryClears pid dir removed)) where
  named := hInv.named
  evictorDir := hInv.evictorDir
  evictorHolds := by
    intro dir' hDir' hLists
    by_cases hSame : dir' = dir
    · exact Or.inr (by rw [hSame]; rfl)
    · have hBefore := hInv.evictorHolds dir' hDir' hLists
      rw [hClearing] at hBefore
      refine Or.inl ((removeDirAll_other hSame removed).trans ?_)
      exact hBefore.resolve_right (by simp)
  recoveryEntry := by
    intro pid' dir' hTarget'
    cases hTarget'
    exact hInv.recoveryEntry pid dir hTarget

theorem inv_recoveryForgets {pid : Pid} {dir : String} (hInv : Inv paths w)
    (hPc : w.recovery = .cleared pid dir) :
    Inv paths (perform w (.recoveryForgets pid dir)) where
  named := namesOwnDirs_remove hInv.named pid
  evictorDir := hInv.evictorDir
  evictorHolds := by
    intro dir' hDir' hLists
    have hEntry : EntryAt w.registry pid dir := hInv.recoveryEntry pid dir (by rw [hPc]; rfl)
    have hAfter : lists (w.registry.remove pid) dir' = true := hLists
    rw [lists_remove hInv.named hEntry, Bool.and_eq_true, decide_eq_true_iff] at hAfter
    have hBefore := hInv.evictorHolds dir' hDir' hAfter.1
    rw [hPc] at hBefore
    exact hBefore.imp_right fun hSame => absurd (Option.some.inj hSame).symm hAfter.2
  recoveryEntry := by
    intro pid' dir' hTarget
    cases hTarget

theorem inv_perform (hInv : Inv paths w) (hEn : Enabled paths w a) : Inv paths (perform w a) := by
  cases a with
  | makes pid name dir rss => exact inv_makes hInv hEn.2
  | ends pid name dir rss how => exact inv_ends hInv hEn
  | records pid name dir rss => exact inv_records hInv hEn.1 hEn.2
  | clientTurns i pc =>
      exact ⟨hInv.named, hInv.evictorDir, hInv.evictorHolds, hInv.recoveryEntry⟩
  | clientForgets i pid rest =>
      constructor
      · exact namesOwnDirs_remove hInv.named pid
      · exact hInv.evictorDir
      · exact fun dir hDir hLists => hInv.evictorHolds dir hDir (lists_of_lists_remove hLists)
      · exact recoveryEntry_of_idle (w := perform w (.clientForgets i pid rest)) hEn
  | recoveryTurns pc =>
      constructor
      · exact hInv.named
      · exact hInv.evictorDir
      · intro dir hDir hLists
        have hBefore := hInv.evictorHolds dir hDir hLists
        rw [hEn.1] at hBefore
        exact Or.inl (hBefore.resolve_right (by simp))
      · intro pid' dir' hTarget
        exact (hEn.2.2 pid' dir' hTarget).elim id (hInv.recoveryEntry pid' dir')
  | recoveryFails pid =>
      obtain ⟨dir₀, hPc⟩ := hEn
      constructor
      · exact namesOwnDirs_incrementAttempts hInv.named pid
      · exact hInv.evictorDir
      · intro dir hDir hLists
        have hBefore := hInv.evictorHolds dir hDir (lists_incrementAttempts.symm.trans hLists)
        rw [hPc] at hBefore
        exact Or.inl (hBefore.resolve_right (by simp [RecoveryPc.clearing]))
      · intro pid' dir' hTarget
        cases hTarget
  | recoveryClears pid dir removed => exact inv_recoveryClears hInv hEn.1 hEn.2
  | recoveryForgets pid dir => exact inv_recoveryForgets hInv hEn

theorem inv_step (hInv : Inv paths w) (m : Move ι) : Inv paths (step paths w m) := by
  unfold step
  cases hAction : action paths w m with
  | none => exact hInv
  | some a => exact inv_perform hInv (enabled_of_action hAction)

end Invariant

/-! ## When directories and entries match -/

section Matching

variable {ι : Type u} {paths : SnapshotPaths} {w : World ι}

/-- An operation on the directory has begun and is not over. -/
def Busy (w : World ι) (dir : String) : Prop :=
  w.evictor.dir = some dir ∨ w.recovery.clearing = some dir

/-- On disk are exactly the directories the registry lists, those of operations
under way apart. -/
def Matches (w : World ι) : Prop :=
  ∀ dir, ¬ Busy w dir → w.dirs dir = lists w.registry dir

/-- A step that leaves no directory without an entry and no entry without a
directory. -/
def Tidy (w : World ι) : Action ι → Prop
  | .makes _ _ _ _ => True
  -- a failed checkpoint undoes its directory, unless that was an entry's before
  | .ends _ _ dir _ how =>
      how = .killed ∨ w.recovery.clearing = some dir ∨
        if how.removes then lists w.registry dir = false
        else lists w.registry dir = true ∨ w.dirs dir = false
  | .records pid _ dir _ =>
      w.dirs dir = true ∧ ∀ e, w.registry.checkpointed.lookup pid = some e → e.snapshotDir = dir
  | .clientTurns _ _ => True
  -- `mgctl restore` removes no directory
  | .clientForgets _ pid _ =>
      ∀ e, w.registry.checkpointed.lookup pid = some e → w.evictor.dir = some e.snapshotDir
  | .recoveryTurns _ => True
  | .recoveryFails _ => True
  | .recoveryClears _ _ _ => True
  | .recoveryForgets _ dir => w.dirs dir = false ∨ w.evictor.dir = some dir

/-- Where a step changes one directory, that is the one to look at. -/
theorem matches_iff_at (w' : World ι) (dir : String) (hMatches : Matches w)
    (hDirs : ∀ dir', dir' ≠ dir → w'.dirs dir' = w.dirs dir')
    (hLists : ∀ dir', dir' ≠ dir → lists w'.registry dir' = lists w.registry dir')
    (hBusy : ∀ dir', dir' ≠ dir → Busy w dir' → Busy w' dir') :
    Matches w' ↔ (¬ Busy w' dir → w'.dirs dir = lists w'.registry dir) := by
  constructor
  · intro h
    exact h dir
  · intro h dir' hFree
    by_cases hSame : dir' = dir
    · rw [hSame] at hFree ⊢
      exact h hFree
    · rw [hDirs dir' hSame, hLists dir' hSame]
      exact hMatches dir' fun hBefore => hFree (hBusy dir' hSame hBefore)

theorem not_busy_of_idle {dir : String} (hEv : w.evictor = .idle) (hRec : w.recovery = .idle) :
    ¬ Busy w dir := by
  unfold Busy
  rw [hEv, hRec]
  exact fun h => h.elim nofun nofun

variable [DecidableEq ι]

theorem matches_makes {pid : Pid} {name dir : String} {rss : Kb} (hMatches : Matches w)
    (hPc : w.evictor = .idle) : Matches (perform w (.makes pid name dir rss)) := by
  refine (matches_iff_at _ dir hMatches ?_ ?_ ?_).mpr fun hFree => absurd (Or.inl rfl) hFree
  · exact fun dir' hOther => Function.update_of_ne hOther _ _
  · exact fun dir' _ => rfl
  · intro dir' _ hBusy
    unfold Busy at hBusy
    rw [hPc] at hBusy
    exact Or.inr (hBusy.resolve_left nofun)

/-- The exits of `checkpoint`. -/
theorem matches_ends_iff {pid : Pid} {name dir : String} {rss : Kb} {how : CheckpointEnd}
    (hMatches : Matches w) (hInv : Inv paths w) (hPc : w.evictor = .made pid name dir rss) :
    Matches (perform w (.ends pid name dir rss how)) ↔ Tidy w (.ends pid name dir rss how) := by
  have hDir : w.evictor.dir = some dir := by rw [hPc]; rfl
  have hAt := matches_iff_at (perform w (.ends pid name dir rss how)) dir hMatches
    (fun dir' hOther => removeDirAll_other hOther _) (fun _ _ => rfl) (by
      intro dir' hOther hBusy
      unfold Busy at hBusy
      rw [hDir] at hBusy
      exact Or.inr (hBusy.resolve_left fun hSame => hOther (Option.some.inj hSame).symm))
  rw [hAt]
  by_cases hKilled : how = .killed
  · refine iff_of_true (fun hFree => absurd (Or.inl ?_) hFree) (Or.inl hKilled)
    simp [perform, if_pos hKilled, EvictorPc.dir]
  · have hBusy : Busy (perform w (.ends pid name dir rss how)) dir ↔
        w.recovery.clearing = some dir := by
      simp [Busy, perform, if_neg hKilled, EvictorPc.dir]
    rw [hBusy]
    have hDisk : (perform w (.ends pid name dir rss how)).dirs dir =
        (w.dirs dir && !how.removes) := removeDirAll_self _ _ _
    have hHolds := hInv.evictorHolds dir hDir
    have hTidy : Tidy w (.ends pid name dir rss how) ↔ w.recovery.clearing = some dir ∨
        if how.removes then lists w.registry dir = false
        else lists w.registry dir = true ∨ w.dirs dir = false := or_iff_right hKilled
    rw [hTidy, hDisk, or_iff_not_imp_left]
    refine imp_congr_right fun hClearing => ?_
    have hThere : lists w.registry dir = true → w.dirs dir = true := fun hListed =>
      (hHolds hListed).resolve_right hClearing
    show (w.dirs dir && !how.removes) = lists w.registry dir ↔ _
    cases how.removes with
    | true =>
        rw [Bool.not_true, Bool.and_false, if_pos rfl]
        exact eq_comm
    | false =>
        cases hListed : lists w.registry dir with
        | true => simp [hThere hListed]
        | false => simp

/-- A recorded dump needs its directory, and takes the place of no other. -/
theorem matches_records_iff {pid : Pid} {name dir : String} {rss : Kb} (hMatches : Matches w)
    (hInv : Inv paths w) (hPc : w.evictor = .dumped pid name dir rss)
    (hIdle : w.recovery = .idle) :
    Matches (perform w (.records pid name dir rss)) ↔ Tidy w (.records pid name dir rss) := by
  have hFree : ∀ dir', ¬ Busy (perform w (.records pid name dir rss)) dir' := fun _ =>
    not_busy_of_idle rfl hIdle
  have hDir : w.evictor.dir = some dir := by rw [hPc]; rfl
  have hBefore : ∀ dir', dir' ≠ dir → ¬ Busy w dir' := by
    intro dir' hOther hBusy
    unfold Busy at hBusy
    rw [hDir, hIdle] at hBusy
    exact hBusy.elim (fun hSame => hOther (Option.some.inj hSame).symm) nofun
  constructor
  · intro h
    refine ⟨(h dir (hFree dir)).trans lists_add_self, fun e hLookup => ?_⟩
    by_contra hOther
    have hOld : EntryAt w.registry pid e.snapshotDir := ⟨e, hLookup, rfl⟩
    have hThere : w.dirs e.snapshotDir = true :=
      (hMatches _ (hBefore _ hOther)).trans (lists_iff.mpr ⟨pid, hOld⟩)
    have hGone : w.dirs e.snapshotDir = false :=
      (h e.snapshotDir (hFree _)).trans (lists_add_replaced hInv.named hOther hOld)
    rw [hThere] at hGone
    cases hGone
  · intro h
    obtain ⟨hThere, hOld⟩ := h
    have hAt := matches_iff_at (perform w (.records pid name dir rss)) dir hMatches
      (fun _ _ => rfl) ?_ (fun dir' hOther hBusy => absurd hBusy (hBefore dir' hOther))
    · exact hAt.mpr fun _ => hThere.trans lists_add_self.symm
    · intro dir' hOther
      refine lists_add_other hOther fun hEntry => ?_
      obtain ⟨e, hLookup, hAt⟩ := hEntry
      exact hOther (hAt.symm.trans (hOld e hLookup))

/-- `mgctl restore` keeps the directory and drops the entry. -/
theorem matches_clientForgets_iff {i : ι} {pid : Pid} {rest : List (Pid × String)}
    (hMatches : Matches w) (hInv : Inv paths w) (hIdle : w.recovery = .idle) :
    Matches (perform w (.clientForgets i pid rest)) ↔ Tidy w (.clientForgets i pid rest) := by
  have hBusy : ∀ dir', Busy (perform w (.clientForgets i pid rest)) dir' ↔ Busy w dir' :=
    fun _ => Iff.rfl
  cases hLookup : w.registry.checkpointed.lookup pid with
  | none =>
      refine iff_of_true (fun dir' hFree => ?_) fun e hEntry => ?_
      · exact (hMatches dir' hFree).trans (lists_remove_of_lookup_none hLookup).symm
      · rw [hLookup] at hEntry
        cases hEntry
  | some e =>
      have hEntry : EntryAt w.registry pid e.snapshotDir := ⟨e, hLookup, rfl⟩
      have hGone := lists_remove_self hInv.named hEntry
      have hAt := matches_iff_at (perform w (.clientForgets i pid rest)) e.snapshotDir hMatches
        (fun _ _ => rfl)
        (fun dir' hOther => lists_remove_other hInv.named hEntry hOther)
        (fun dir' _ => (hBusy dir').mpr)
      rw [hAt, hBusy]
      have hNow : Busy w e.snapshotDir ↔ w.evictor.dir = some e.snapshotDir := by
        unfold Busy
        rw [hIdle]
        exact or_iff_left nofun
      constructor
      · intro h e' hLookup'
        rw [hLookup] at hLookup'
        cases hLookup'
        rw [← hNow]
        by_contra hFree
        have hThere : w.dirs e.snapshotDir = true :=
          (hMatches _ hFree).trans (lists_iff.mpr ⟨pid, hEntry⟩)
        have hAfter : w.dirs e.snapshotDir = false := (h hFree).trans hGone
        rw [hThere] at hAfter
        cases hAfter
      · intro h hFree
        exact absurd (hNow.mpr (h e hLookup)) hFree

theorem matches_recoveryClears {pid : Pid} {dir : String} {removed : Bool} (hMatches : Matches w)
    (hClearing : w.recovery.clearing = none) :
    Matches (perform w (.recoveryClears pid dir removed)) := by
  refine (matches_iff_at _ dir hMatches ?_ ?_ ?_).mpr fun hFree => absurd (Or.inr rfl) hFree
  · exact fun dir' hOther => removeDirAll_other hOther _
  · exact fun dir' _ => rfl
  · intro dir' _ hBusy
    unfold Busy at hBusy
    rw [hClearing] at hBusy
    exact Or.inl (hBusy.resolve_right nofun)

/-- A recovery pass whose `remove_dir_all` failed removes the entry all the same. -/
theorem matches_recoveryForgets_iff {pid : Pid} {dir : String} (hMatches : Matches w)
    (hInv : Inv paths w) (hPc : w.recovery = .cleared pid dir) :
    Matches (perform w (.recoveryForgets pid dir)) ↔ Tidy w (.recoveryForgets pid dir) := by
  have hEntry : EntryAt w.registry pid dir := hInv.recoveryEntry pid dir (by rw [hPc]; rfl)
  have hGone := lists_remove_self hInv.named hEntry
  have hAt := matches_iff_at (perform w (.recoveryForgets pid dir)) dir hMatches
    (fun _ _ => rfl)
    (fun dir' hOther => lists_remove_other hInv.named hEntry hOther) (by
      intro dir' hOther hBusy
      unfold Busy at hBusy
      rw [hPc] at hBusy
      exact Or.inl (hBusy.resolve_right fun hSame => hOther (Option.some.inj hSame).symm))
  rw [hAt]
  have hBusy : Busy (perform w (.recoveryForgets pid dir)) dir ↔ w.evictor.dir = some dir := by
    simp [Busy, perform, RecoveryPc.clearing]
  have hLists : lists (perform w (.recoveryForgets pid dir)).registry dir = false := hGone
  rw [hBusy, hLists]
  exact or_comm.trans Decidable.or_iff_not_imp_left |>.symm

/-- **What one step does to the match.** -/
theorem matches_perform_iff {a : Action ι} (hMatches : Matches w) (hInv : Inv paths w)
    (hEn : Enabled paths w a) : Matches (perform w a) ↔ Tidy w a := by
  cases a with
  | makes pid name dir rss => exact iff_of_true (matches_makes hMatches hEn.1) trivial
  | ends pid name dir rss how => exact matches_ends_iff hMatches hInv hEn
  | records pid name dir rss => exact matches_records_iff hMatches hInv hEn.1 hEn.2
  | clientTurns i pc => exact iff_of_true hMatches trivial
  | clientForgets i pid rest => exact matches_clientForgets_iff hMatches hInv hEn
  | recoveryTurns pc =>
      refine iff_of_true (fun dir hFree => hMatches dir fun hBusy => hFree ?_) trivial
      unfold Busy at hBusy
      rw [hEn.1] at hBusy
      exact Or.inl (hBusy.resolve_right nofun)
  | recoveryFails pid =>
      obtain ⟨dir₀, hPc⟩ := hEn
      refine iff_of_true (fun dir hFree => ?_) trivial
      refine (hMatches dir fun hBusy => hFree ?_).trans lists_incrementAttempts.symm
      unfold Busy at hBusy
      rw [hPc] at hBusy
      exact Or.inl (hBusy.resolve_right nofun)
  | recoveryClears pid dir removed =>
      exact iff_of_true (matches_recoveryClears hMatches hEn.1) trivial
  | recoveryForgets pid dir => exact matches_recoveryForgets_iff hMatches hInv hEn

theorem matches_step_iff (hMatches : Matches w) (hInv : Inv paths w) (m : Move ι) :
    Matches (step paths w m) ↔ OnAction paths Tidy w m := by
  unfold step OnAction
  cases hAction : action paths w m with
  | none => exact iff_of_true hMatches (fun a h => by cases h)
  | some a =>
      rw [matches_perform_iff hMatches hInv (enabled_of_action hAction)]
      exact ⟨fun h a' hSame => Option.some.inj hSame ▸ h, fun h => h a rfl⟩

end Matching

/-! ## Runs -/

section Runs

variable {ι : Type u}

/-- After `cleanup_orphaned_snapshots`; no thread has moved. -/
def World.start {paths : SnapshotPaths} (loaded : LoadedRegistry paths) : World ι where
  registry := loaded.registry
  dirs := lists loaded.registry
  evictor := .idle
  recovery := .idle
  clients := fun _ => .idle

theorem inv_start {paths : SnapshotPaths} (loaded : LoadedRegistry paths) :
    Inv paths (World.start loaded : World ι) where
  named := loaded.named
  evictorDir := by
    intro pid name dir rss h
    exact h.elim nofun nofun
  evictorHolds := by
    intro dir h
    cases h
  recoveryEntry := by
    intro pid dir h
    cases h

theorem matches_start {paths : SnapshotPaths} (loaded : LoadedRegistry paths) :
    Matches (World.start loaded : World ι) := fun _ _ => rfl

variable [DecidableEq ι]

/-- **Directories and entries match throughout a run exactly when every step of
it is tidy.** -/
theorem mismatch_free_iff {paths : SnapshotPaths} (loaded : LoadedRegistry paths)
    (moves : List (Move ι)) :
    Always (step paths) Matches (World.start loaded) moves ↔
      EveryStep (step paths) (OnAction paths Tidy) (World.start loaded) moves :=
  always_iff_everyStep (fun _ m _ hInv _ _ => inv_step hInv m)
    (fun _ m _ hInv hMatches => matches_step_iff hMatches hInv m)
    (everyStep_true (World.start loaded) moves) (inv_start loaded) (matches_start loaded)

end Runs

/-! ## `mgctl restore` -/

/-- Nothing has been checkpointed yet. -/
def nothingSaved : LoadedRegistry home where
  registry := .new
  named := namesOwnDirs_new home

/-- `idea` is checkpointed, then restored by hand. -/
def restoreIdea : List (Move Unit) :=
  [.beginCheckpoint ⟨999⟩ "idea" (Kb.clamp 2048000) true, .endCheckpoint .killed, .record,
    .clientRestore () ⟨some ⟨999⟩, fun _ => false⟩, .client () true, .client () true,
    .client () true]

/-- The process is back, every operation is over, and the dump is still there. -/
theorem restoreIdea_leaves_directory :
    ¬ ∀ moves : List (Move Unit),
      Always (step home) Matches (World.start nothingSaved) moves := by
  intro hAll
  have hMatches := (hAll restoreIdea).last
  have hFree : ¬ Busy (run (step home) (World.start nothingSaved) restoreIdea)
      "/home/u/.local/share/mgd/snapshots/999_idea" := by
    intro hBusy
    exact hBusy.elim nofun nofun
  have hLeft := hMatches _ hFree
  revert hLeft
  decide +kernel

end Mgd.Snapshots.Directories
