import Mgd.Snapshots.Directories

/-!
# One daemon, two machines

`Mgd.Snapshots.Threads` runs the threads over the dumps a directory holds,
`Mgd.Snapshots.Directories` over the directories themselves, with `checkpoint`
cut in two.  Both have the registry, its lock and the same threads.

`view` forgets which dump a thread has restored.  `view_run_start` : whatever the
first machine does, the second does as well, to the same registry and threads,
and a directory that holds a dump is there.
-/

namespace Mgd.Snapshots.DirectoryView

open Mgd.Types Mgd.Monitor Mgd.Lib.Run Mgd.Executor.Registry Mgd.Executor.Checkpoint Mgd.Recovery

universe u

/-! ## The view -/

def evictorView : Threads.EvictorPc → Directories.EvictorPc
  | .idle => .idle
  | .dumped pid name dir rss => .dumped pid name dir rss

def recoveryView : Threads.RecoveryPc → Directories.RecoveryPc
  | .idle => .idle
  | .givingUp pid dir => .givingUp pid dir
  | .restoring pid dir => .restoring pid dir
  | .restored pid dir _ => .restored pid dir
  | .cleared pid dir _ => .cleared pid dir

def clientView : Threads.ClientPc → Directories.ClientPc
  | .idle => .idle
  | .restoring entries => .restoring entries
  | .restored pid _ _ rest => .restored pid rest

/-- Every dump that can be restored is in a directory. -/
def Within (disk : Disk) (dirs : String → Bool) : Prop :=
  ∀ dir, disk.holds dir = true → dirs dir = true

section View

variable {ι : Type u}

/-- The state of the threads, over these directories. -/
def view (w : Threads.World ι) (dirs : String → Bool) : Directories.World ι where
  registry := w.registry
  dirs := dirs
  evictor := evictorView w.evictor
  recovery := recoveryView w.recovery
  clients := fun i => clientView (w.clients i)

/-! ## The moves -/

def checkpointEnd : DumpEnd → Directories.CheckpointEnd
  | .killed => .killed
  | .notKilled => .notKilled
  | .failed left => .dumpFailed !left
  | .notRun => .notRun

/-- The answer a connection gets: a directory without a dump is not restored. -/
def clientAnswer (w : Threads.World ι) (i : ι) (ok : Bool) : Bool :=
  match w.clients i with
  | .restoring ((_, dir) :: _) => w.disk.restore dir ok
  | _ => ok

def recoveryAnswer (w : Threads.World ι) (ok : Bool) : Bool :=
  match w.recovery with
  | .restoring _ dir => w.disk.restore dir ok
  | _ => ok

/-- A move, in the moves of the second machine. -/
def moves (w : Threads.World ι) : Threads.Move ι → List (Directories.Move ι)
  | .checkpoint pid name rss result =>
      [.beginCheckpoint pid name rss true, .endCheckpoint (checkpointEnd result)]
  | .record => [.record]
  | .clientRestore i arg => [.clientRestore i arg]
  | .client i ok => [.client i (clientAnswer w i ok)]
  | .recoveryPass baseline meminfo => [.recoveryPass baseline meminfo]
  | .recovery ok => [.recovery (recoveryAnswer w ok)]

variable [DecidableEq ι]

def runMoves (paths : SnapshotPaths) (w : Threads.World ι) :
    List (Threads.Move ι) → List (Directories.Move ι)
  | [] => []
  | m :: rest => moves w m ++ runMoves paths (Threads.step paths w m) rest

end View

/-! ## One action -/

/-- An action, in those of the second machine. -/
def actionView {ι : Type u} : Threads.Action ι → List (Directories.Action ι)
  | .checkpoint pid name rss dir result =>
      [.makes pid name dir rss, .ends pid name dir rss (checkpointEnd result)]
  | .record pid name dir rss => [.records pid name dir rss]
  | .clientTurns i pc => [.clientTurns i (clientView pc)]
  | .clientRestores i pid _ rest => [.clientTurns i (.restored pid rest)]
  | .clientForgets i pid _ _ rest => [.clientForgets i pid rest]
  | .recoveryPicks pc => [.recoveryTurns (recoveryView pc)]
  | .recoveryRestores pid dir => [.recoveryTurns (.restored pid dir)]
  | .recoveryFails pid _ => [.recoveryFails pid]
  | .recoveryClears pid dir _ removed => [.recoveryClears pid dir removed]
  | .recoveryForgets pid dir _ => [.recoveryForgets pid dir]

/-- The directories after an action. -/
def dirsAfter {ι : Type u} (dirs : String → Bool) : Threads.Action ι → String → Bool
  | .checkpoint _ _ _ dir result =>
      Directories.removeDirAll (Function.update dirs dir true) dir (checkpointEnd result).removes
  | .recoveryClears _ dir _ removed => Directories.removeDirAll dirs dir removed
  | _ => dirs

section Actions

variable {ι : Type u} {w : Threads.World ι} {dirs : String → Bool}

theorem within_removeDirAll {disk : Disk} (hDirs : Within disk dirs) (dir : String)
    (removed : Bool) :
    Within (disk.removeDirAll dir removed) (Directories.removeDirAll dirs dir removed) := by
  unfold Disk.removeDirAll Directories.removeDirAll
  cases removed with
  | false => exact hDirs
  | true =>
      intro dir' hHolds
      by_cases hSame : dir' = dir
      · simp [hSame] at hHolds
      · simp only [if_true, Function.update_of_ne hSame] at hHolds ⊢
        exact hDirs dir' hHolds

/-- The directory is made, and what the exit of `checkpoint` leaves of it holds
what is left of the dumps. -/
theorem within_checkpoint {disk : Disk} (hDirs : Within disk dirs) (dir : String)
    (result : DumpEnd) :
    Within (disk.checkpoint dir result)
      (Directories.removeDirAll (Function.update dirs dir true) dir
        (checkpointEnd result).removes) := by
  have hMade : Within disk (Function.update dirs dir true) := by
    intro dir' hHolds
    by_cases hSame : dir' = dir
    · simp [hSame]
    · rw [Function.update_of_ne hSame]
      exact hDirs dir' hHolds
  have hDump : Within (disk.dump dir) (Function.update dirs dir true) := by
    intro dir' hHolds
    by_cases hSame : dir' = dir
    · simp [hSame]
    · rw [Function.update_of_ne hSame]
      exact hDirs dir' (by rwa [Disk.dump_holds_other hSame] at hHolds)
  cases result with
  | killed => exact hDump
  | notKilled => exact hDump
  | failed left => exact within_removeDirAll hMade dir !left
  | notRun => exact hMade

variable [DecidableEq ι]

/-- After every action the dumps are within the directories. -/
theorem within_perform (hDirs : Within w.disk dirs) (a : Threads.Action ι) :
    Within (Threads.perform w a).disk (dirsAfter dirs a) := by
  cases a with
  | checkpoint pid name rss dir result => exact within_checkpoint hDirs dir result
  | recoveryClears pid dir dump removed => exact within_removeDirAll hDirs dir removed
  | _ => exact hDirs

theorem view_setClient (i : ι) (pc : Threads.ClientPc) :
    view (w.setClient i pc) dirs =
      { view w dirs with clients := Function.update (view w dirs).clients i (clientView pc) } := by
  have hClients : (fun j => clientView (Function.update w.clients i pc j)) =
      Function.update (fun j => clientView (w.clients j)) i (clientView pc) :=
    Function.comp_update clientView w.clients i pc
  unfold view Threads.World.setClient
  rw [hClients]

/-- Both machines do the same to what they have in common. -/
theorem foldl_perform_view (a : Threads.Action ι) :
    (actionView a).foldl Directories.perform (view w dirs) =
      view (Threads.perform w a) (dirsAfter dirs a) := by
  cases a with
  | checkpoint pid name rss dir result => cases result <;> rfl
  | clientTurns i pc => exact (view_setClient i pc).symm
  | clientRestores i pid dir rest => exact (view_setClient i (.restored pid dir _ rest)).symm
  | clientForgets i pid dir dump rest =>
      exact (view_setClient (w := { w with registry := w.registry.remove pid }) i
        (.restoring rest)).symm
  | _ => rfl

end Actions

/-! ## One step -/

section Steps

variable {ι : Type u} {paths : SnapshotPaths} {w : Threads.World ι} {dirs : String → Bool}

theorem lockFree_view : (view w dirs).lockFree = w.lockFree := by
  unfold Directories.World.lockFree Threads.World.lockFree view
  cases w.recovery <;> rfl

/-- Where the dumps are within the directories, both machines restore the same. -/
theorem restore_view (hDirs : Within w.disk dirs) (dir : String) (ok : Bool) :
    (view w dirs).restore dir (w.disk.restore dir ok) = w.disk.restore dir ok := by
  unfold Directories.World.restore Disk.restore view
  cases hHolds : w.disk.holds dir with
  | false => simp
  | true => simp [hDirs dir hHolds]

/-- What the second machine does at these moves: the action of the first, if it
takes one. -/
def Follows (paths : SnapshotPaths) (w : Threads.World ι) (dirs : String → Bool)
    (m : Threads.Move ι) (m' : Directories.Move ι) : Prop :=
  (Directories.action paths (view w dirs) m').toList =
    (Threads.action paths w m).toList.flatMap actionView

theorem follows_record : Follows paths w dirs .record .record := by
  unfold Follows Directories.action Threads.action
  rw [lockFree_view]
  cases hPc : w.evictor with
  | idle => simp [view, evictorView, hPc]
  | dumped pid name dir rss =>
      cases w.lockFree <;> simp [view, evictorView, hPc, actionView]

theorem follows_clientRestore (i : ι) (arg : Threads.RestoreArg) :
    Follows paths w dirs (.clientRestore i arg) (.clientRestore i arg) := by
  unfold Follows Directories.action Threads.action
  rw [lockFree_view]
  cases hPc : w.clients i with
  | idle => cases w.lockFree <;> simp [view, clientView, hPc, actionView]
  | restoring entries => simp [view, clientView, hPc]
  | restored pid dir dump rest => simp [view, clientView, hPc]

theorem follows_client (hDirs : Within w.disk dirs) (i : ι) (ok : Bool) :
    Follows paths w dirs (.client i ok) (.client i (clientAnswer w i ok)) := by
  have hClient : (view w dirs).clients i = clientView (w.clients i) := rfl
  unfold Follows Directories.action Threads.action Directories.World.clientAction
    Threads.World.clientAction
  simp only [hClient, lockFree_view]
  cases hPc : w.clients i with
  | idle => rfl
  | restored pid dir dump rest => cases w.lockFree <;> rfl
  | restoring entries =>
      cases entries with
      | nil => rfl
      | cons entry rest =>
          have hAnswer : clientAnswer w i ok = w.disk.restore entry.2 ok := by
            unfold clientAnswer
            rw [hPc]
          rw [hAnswer]
          dsimp only [clientView]
          rw [restore_view hDirs]
          cases w.disk.restore entry.2 ok <;> rfl

theorem follows_recoveryPass (baseline : HealthBaseline) (meminfo : MemInfo) :
    Follows paths w dirs (.recoveryPass baseline meminfo) (.recoveryPass baseline meminfo) := by
  have hPick : ((view w dirs).pick baseline meminfo).toList =
      (w.pick baseline meminfo).toList.flatMap actionView := by
    unfold Directories.World.pick Threads.World.pick view
    dsimp only
    cases w.registry.entriesLightestFirst with
    | nil => rfl
    | cons first rest =>
        dsimp only
        split
        · rfl
        · split <;> rfl
  unfold Follows Directories.action Threads.action
  cases hPc : w.recovery with
  | idle => simpa [view, recoveryView, hPc] using hPick
  | givingUp pid dir => simp [view, recoveryView, hPc]
  | restoring pid dir => simp [view, recoveryView, hPc]
  | restored pid dir dump => simp [view, recoveryView, hPc]
  | cleared pid dir dump => simp [view, recoveryView, hPc]

theorem follows_recovery (hDirs : Within w.disk dirs) (ok : Bool) :
    Follows paths w dirs (.recovery ok) (.recovery (recoveryAnswer w ok)) := by
  have hRecovery : (view w dirs).recovery = recoveryView w.recovery := rfl
  unfold Follows Directories.action Threads.action Directories.World.recoveryAction
    Threads.World.recoveryAction
  simp only [hRecovery]
  cases hPc : w.recovery with
  | idle => rfl
  | cleared pid dir dump => rfl
  | givingUp pid dir => simp [recoveryView, recoveryAnswer, hPc, actionView]
  | restored pid dir dump => simp [recoveryView, recoveryAnswer, hPc, actionView]
  | restoring pid dir =>
      have hAnswer : recoveryAnswer w ok = w.disk.restore dir ok := by
        unfold recoveryAnswer
        rw [hPc]
      rw [hAnswer]
      dsimp only [recoveryView]
      rw [restore_view hDirs]
      cases w.disk.restore dir ok <;> rfl

variable [DecidableEq ι]

theorem step_of_follows {m : Threads.Move ι} {m' : Directories.Move ι}
    (h : Follows paths w dirs m m') :
    Directories.step paths (view w dirs) m' =
      ((Threads.action paths w m).toList.flatMap actionView).foldl Directories.perform
        (view w dirs) := by
  unfold Follows at h
  rw [← h]
  unfold Directories.step
  cases Directories.action paths (view w dirs) m' <;> rfl

/-- **One step**: the second machine does in its moves what the first does. -/
theorem run_moves (hDirs : Within w.disk dirs) (m : Threads.Move ι) :
    run (Directories.step paths) (view w dirs) (moves w m) =
      ((Threads.action paths w m).toList.flatMap actionView).foldl Directories.perform
        (view w dirs) := by
  cases m with
  | checkpoint pid name rss result =>
      cases hPc : w.evictor with
      | idle =>
          simp [moves, Directories.step, Directories.action, Threads.action, view, evictorView,
            hPc, actionView, Directories.perform]
      | dumped pid' name' dir rss' =>
          simp [moves, Directories.step, Directories.action, Threads.action, view, evictorView, hPc]
  | record => exact step_of_follows follows_record
  | clientRestore i arg => exact step_of_follows (follows_clientRestore i arg)
  | client i ok => exact step_of_follows (follows_client hDirs i ok)
  | recoveryPass baseline meminfo => exact step_of_follows (follows_recoveryPass baseline meminfo)
  | recovery ok => exact step_of_follows (follows_recovery hDirs ok)

/-- The two machines stay together. -/
theorem view_step (hDirs : Within w.disk dirs) (m : Threads.Move ι) :
    ∃ dirs', Within (Threads.step paths w m).disk dirs' ∧
      run (Directories.step paths) (view w dirs) (moves w m) =
        view (Threads.step paths w m) dirs' := by
  rw [run_moves hDirs m]
  unfold Threads.step
  cases Threads.action paths w m with
  | none => exact ⟨dirs, hDirs, rfl⟩
  | some a =>
      refine ⟨dirsAfter dirs a, within_perform hDirs a, ?_⟩
      simp only [Option.toList_some, List.flatMap_singleton, foldl_perform_view]

end Steps

/-! ## Runs -/

section Runs

variable {ι : Type u} {paths : SnapshotPaths}

/-- Both machines start alike, after `cleanup_orphaned_snapshots`. -/
theorem view_start (loaded : Directories.LoadedRegistry paths) (disk : Disk) :
    view (Threads.World.start loaded.registry disk : Threads.World ι)
      (Directories.lists loaded.registry) = Directories.World.start loaded := rfl

variable [DecidableEq ι]

theorem view_run {w : Threads.World ι} {dirs : String → Bool} (hDirs : Within w.disk dirs)
    (ms : List (Threads.Move ι)) :
    ∃ dirs', Within (run (Threads.step paths) w ms).disk dirs' ∧
      run (Directories.step paths) (view w dirs) (runMoves paths w ms) =
        view (run (Threads.step paths) w ms) dirs' := by
  induction ms generalizing w dirs with
  | nil => exact ⟨dirs, hDirs, rfl⟩
  | cons m rest ih =>
      obtain ⟨after, hAfter, hStep⟩ := view_step hDirs m
      obtain ⟨dirs', hWithin, hRest⟩ := ih hAfter
      refine ⟨dirs', hWithin, ?_⟩
      rw [runMoves, run_append, hStep]
      exact hRest

/-- **Every run of the first machine is one of the second**: from the start, with
the dumps of listed directories, to the same registry and threads, and the dumps
are in the directories the second machine has. -/
theorem view_run_start (loaded : Directories.LoadedRegistry paths) {disk : Disk}
    (hCleaned : Within disk (Directories.lists loaded.registry)) (ms : List (Threads.Move ι)) :
    ∃ dirs, Within (run (Threads.step paths) (.start loaded.registry disk) ms).disk dirs ∧
      run (Directories.step paths) (.start loaded)
          (runMoves paths (.start loaded.registry disk) ms) =
        view (run (Threads.step paths) (.start loaded.registry disk) ms) dirs := by
  have hStart : view (Threads.World.start loaded.registry disk : Threads.World ι)
      (Directories.lists loaded.registry) = .start loaded := view_start loaded disk
  rw [← hStart]
  exact view_run hCleaned ms

end Runs

end Mgd.Snapshots.DirectoryView
