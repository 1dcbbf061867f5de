import Mgd.Executor.Checkpoint
import Mgd.Lib.Run
import Mgd.Recovery

/-!
# The threads that make and use checkpoints

Three kinds of threads share `CheckpointRegistry`, each access under its lock:

* the evictor dumps a process, kills it and then adds the entry;
* a connection that serves `mgctl restore` lists the matching entries, releases
  the lock, and for each of them restores the directory and, if that succeeds,
  removes the entry of the PID; the directory stays;
* the recovery pass holds the lock while it restores the lightest entry, removes
  the directory and removes the entry, or counts a failed attempt.

A move is a thread taking its next step.  `action` says what that step is in the
present state, `perform` what it does; a thread that waits for the lock does
nothing.  `ι` indexes the connections.
-/

namespace Mgd.Snapshots.Threads

open Mgd.Types Mgd.Monitor Mgd.Lib.AssocMap Mgd.Lib.Run Mgd.Executor.Registry
open Mgd.Executor.Checkpoint Mgd.Recovery

universe u

/-! ## The threads -/

inductive EvictorPc
  | idle
  /-- `checkpoint` succeeded, `add` still to come. -/
  | dumped (pid : Pid) (name dir : String) (rss : Kb)

/-- The recovery pass; it holds the lock unless it is idle. -/
inductive RecoveryPc
  | idle
  /-- The attempts are used up. -/
  | givingUp (pid : Pid) (dir : String)
  | restoring (pid : Pid) (dir : String)
  /-- The dump of this number is restored, its directory still there. -/
  | restored (pid : Pid) (dir : String) (dump : Nat)
  /-- The directory is removed, the entry still there; no number when the
  checkpoint was given up. -/
  | cleared (pid : Pid) (dir : String) (dump : Option Nat)

/-- A connection that serves `mgctl restore`. -/
inductive ClientPc
  | idle
  | restoring (entries : List (Pid × String))
  /-- The dump of this number is restored, `remove` still to come. -/
  | restored (pid : Pid) (dir : String) (dump : Nat) (rest : List (Pid × String))

structure World (ι : Type u) where
  registry : CheckpointRegistry
  disk : Disk
  /-- the number of the dump an entry was added for -/
  entryDump : Pid → Nat
  /-- the dumps restored so far, the last one first -/
  restored : List (String × Nat)
  evictor : EvictorPc
  recovery : RecoveryPc
  clients : ι → ClientPc

/-- The argument of `mgctl restore`: a PID, or a part of a name. -/
structure RestoreArg where
  pid : Option Pid
  /-- the name contains the argument, both in lower case -/
  inName : String → Bool

def RestoreArg.selects (arg : RestoreArg) (pid : Pid) (name : String) : Bool :=
  match arg.pid with
  | some target => decide (pid = target)
  | none => arg.inName name

/-- The entries `cmd_restore` collects. -/
def matchingEntries (reg : CheckpointRegistry) (arg : RestoreArg) : List (Pid × String) :=
  (reg.entriesLightestFirst.filter fun e => arg.selects e.1 e.2.name).map
    fun e => (e.1, e.2.snapshotDir)

inductive Move (ι : Type u)
  /-- The evictor checkpoints a process. -/
  | checkpoint (pid : Pid) (name : String) (rss : Kb) (result : DumpEnd)
  /-- The evictor adds the entry. -/
  | record
  | clientRestore (i : ι) (arg : RestoreArg)
  /-- `ok` is the answer of the helper, when the step is a restore. -/
  | client (i : ι) (ok : Bool)
  | recoveryPass (baseline : HealthBaseline) (meminfo : MemInfo)
  /-- `ok` is the answer of the helper or of `remove_dir_all`. -/
  | recovery (ok : Bool)

/-! ## What a move does -/

inductive Action (ι : Type u)
  | checkpoint (pid : Pid) (name : String) (rss : Kb) (dir : String) (result : DumpEnd)
  | record (pid : Pid) (name dir : String) (rss : Kb)
  /-- It lists its entries, goes on after a failure or is done. -/
  | clientTurns (i : ι) (pc : ClientPc)
  | clientRestores (i : ι) (pid : Pid) (dir : String) (rest : List (Pid × String))
  | clientForgets (i : ι) (pid : Pid) (dir : String) (dump : Nat) (rest : List (Pid × String))
  /-- It takes the lock and decides what to do with the lightest entry. -/
  | recoveryPicks (pc : RecoveryPc)
  | recoveryRestores (pid : Pid) (dir : String)
  | recoveryFails (pid : Pid) (dir : String)
  | recoveryClears (pid : Pid) (dir : String) (dump : Option Nat) (removed : Bool)
  | recoveryForgets (pid : Pid) (dir : String) (dump : Option Nat)

section Steps

variable {ι : Type u}

/-- No thread holds the lock between two steps. -/
def World.lockFree (w : World ι) : Bool :=
  match w.recovery with
  | .idle => true
  | .givingUp _ _ => false
  | .restoring _ _ => false
  | .restored _ _ _ => false
  | .cleared _ _ _ => false

/-- The choice of `restore_pass`. -/
def World.pick (w : World ι) (baseline : HealthBaseline) (meminfo : MemInfo) :
    Option (Action ι) :=
  match w.registry.entriesLightestFirst with
  | [] => none
  | (pid, entry) :: _ =>
      if entry.attempts ≥ maxRestoreAttempts then
        some (.recoveryPicks (.givingUp pid entry.snapshotDir))
      else if baseline.safeToRestore meminfo.availableKb meminfo.totalKb entry.rss then
        some (.recoveryPicks (.restoring pid entry.snapshotDir))
      else none

def World.clientAction (w : World ι) (i : ι) (ok : Bool) : Option (Action ι) :=
  match w.clients i with
  | .idle => none
  | .restoring [] => some (.clientTurns i .idle)
  | .restoring ((pid, dir) :: rest) =>
      if w.disk.restore dir ok then some (.clientRestores i pid dir rest)
      else some (.clientTurns i (.restoring rest))
  | .restored pid dir dump rest =>
      if w.lockFree then some (.clientForgets i pid dir dump rest) else none

def World.recoveryAction (w : World ι) (ok : Bool) : Option (Action ι) :=
  match w.recovery with
  | .idle => none
  | .givingUp pid dir => some (.recoveryClears pid dir none ok)
  | .restoring pid dir =>
      if w.disk.restore dir ok then some (.recoveryRestores pid dir)
      else some (.recoveryFails pid dir)
  | .restored pid dir dump => some (.recoveryClears pid dir (some dump) ok)
  | .cleared pid dir dump => some (.recoveryForgets pid dir dump)

def action (paths : SnapshotPaths) (w : World ι) : Move ι → Option (Action ι)
  | .checkpoint pid name rss result =>
      match w.evictor with
      | .idle => some (.checkpoint pid name rss (paths.snapshotDir pid name) result)
      | .dumped _ _ _ _ => none
  | .record =>
      match w.evictor with
      | .idle => none
      | .dumped pid name dir rss =>
          if w.lockFree then some (.record pid name dir rss) else none
  | .clientRestore i arg =>
      match w.clients i with
      | .idle =>
          if w.lockFree then
            some (.clientTurns i (.restoring (matchingEntries w.registry arg)))
          else none
      | .restoring _ => none
      | .restored _ _ _ _ => none
  | .client i ok => w.clientAction i ok
  | .recoveryPass baseline meminfo =>
      match w.recovery with
      | .idle => w.pick baseline meminfo
      | .givingUp _ _ => none
      | .restoring _ _ => none
      | .restored _ _ _ => none
      | .cleared _ _ _ => none
  | .recovery ok => w.recoveryAction ok

variable [DecidableEq ι]

def World.setClient (w : World ι) (i : ι) (pc : ClientPc) : World ι :=
  { w with clients := Function.update w.clients i pc }

def perform (w : World ι) : Action ι → World ι
  | .checkpoint pid name rss dir result =>
      { w with
        disk := w.disk.checkpoint dir result
        evictor := if result = .killed then .dumped pid name dir rss else .idle }
  | .record pid name dir rss =>
      { w with
        registry := w.registry.add pid name dir rss
        entryDump := Function.update w.entryDump pid (w.disk.dumps dir)
        evictor := .idle }
  | .clientTurns i pc => w.setClient i pc
  | .clientRestores i pid dir rest =>
      { w with restored := (dir, w.disk.dumps dir) :: w.restored }.setClient i
        (.restored pid dir (w.disk.dumps dir) rest)
  | .clientForgets i pid _ _ rest =>
      { w with registry := w.registry.remove pid }.setClient i (.restoring rest)
  | .recoveryPicks pc => { w with recovery := pc }
  | .recoveryRestores pid dir =>
      { w with
        restored := (dir, w.disk.dumps dir) :: w.restored
        recovery := .restored pid dir (w.disk.dumps dir) }
  | .recoveryFails pid _ =>
      { w with registry := w.registry.incrementAttempts pid, recovery := .idle }
  | .recoveryClears pid dir dump removed =>
      { w with disk := w.disk.removeDirAll dir removed, recovery := .cleared pid dir dump }
  | .recoveryForgets pid _ _ =>
      { w with registry := w.registry.remove pid, recovery := .idle }

def step (paths : SnapshotPaths) (w : World ι) (m : Move ι) : World ι :=
  match action paths w m with
  | none => w
  | some a => perform w a

/-- A condition on the step, put on what it does. -/
def OnAction (paths : SnapshotPaths) (P : World ι → Action ι → Prop) (w : World ι) (m : Move ι) :
    Prop :=
  ∀ a, action paths w m = some a → P w a

/-- The daemon's start: the registry is loaded, no thread has moved. -/
def World.start (registry : CheckpointRegistry) (disk : Disk) : World ι where
  registry := registry
  disk := disk
  entryDump := fun pid =>
    match registry.checkpointed.lookup pid with
    | some e => disk.dumps e.snapshotDir
    | none => 0
  restored := []
  evictor := .idle
  recovery := .idle
  clients := fun _ => .idle

end Steps

/-! ## When a step is taken -/

/-- The dump restored by a connection that has yet to remove the entry. -/
def ClientPc.pending : ClientPc → Option (Pid × String × Nat)
  | .idle => none
  | .restoring _ => none
  | .restored pid dir dump _ => some (pid, dir, dump)

/-- The dump restored by a recovery pass that has yet to remove the entry. -/
def RecoveryPc.pending : RecoveryPc → Option (Pid × String × Nat)
  | .idle => none
  | .givingUp _ _ => none
  | .restoring _ _ => none
  | .restored pid dir dump => some (pid, dir, dump)
  | .cleared pid dir dump => dump.map fun n => (pid, dir, n)

/-- The entry the recovery pass works on. -/
def RecoveryPc.target : RecoveryPc → Option (Pid × String)
  | .idle => none
  | .givingUp pid dir => some (pid, dir)
  | .restoring pid dir => some (pid, dir)
  | .restored pid dir _ => some (pid, dir)
  | .cleared pid dir _ => some (pid, dir)

section Enabled

variable {ι : Type u} {paths : SnapshotPaths} {w : World ι} {m : Move ι} {a : Action ι}

/-- The evictor has dumped into the directory and not yet added the entry. -/
def BeingRecorded (w : World ι) (dir : String) : Prop :=
  ∃ pid name rss, w.evictor = .dumped pid name dir rss

/-- What is known of the state when a step is taken. -/
def Enabled (paths : SnapshotPaths) (w : World ι) : Action ι → Prop
  | .checkpoint pid name _ dir _ => w.evictor = .idle ∧ dir = paths.snapshotDir pid name
  | .record pid name dir rss => w.evictor = .dumped pid name dir rss ∧ w.recovery = .idle
  | .clientTurns i pc => (w.clients i).pending = none ∧ pc.pending = none
  | .clientRestores i pid dir rest =>
      w.clients i = .restoring ((pid, dir) :: rest) ∧ w.disk.holds dir = true
  | .clientForgets i pid dir dump rest =>
      w.clients i = .restored pid dir dump rest ∧ w.recovery = .idle
  | .recoveryPicks pc =>
      w.recovery = .idle ∧ ∃ pid e, w.registry.checkpointed.lookup pid = some e ∧
        (pc = .givingUp pid e.snapshotDir ∧ maxRestoreAttempts ≤ e.attempts ∨
          pc = .restoring pid e.snapshotDir)
  | .recoveryRestores pid dir => w.recovery = .restoring pid dir ∧ w.disk.holds dir = true
  | .recoveryFails pid dir => w.recovery = .restoring pid dir
  | .recoveryClears pid dir dump _ =>
      w.recovery = .givingUp pid dir ∧ dump = none ∨
        ∃ n, w.recovery = .restored pid dir n ∧ dump = some n
  | .recoveryForgets pid dir dump => w.recovery = .cleared pid dir dump

theorem recovery_idle_of_lockFree (h : w.lockFree = true) : w.recovery = .idle := by
  unfold World.lockFree at h
  split at h
  · assumption
  all_goals cases h

theorem holds_of_restore {disk : Disk} {dir : String} {ok : Bool}
    (h : disk.restore dir ok = true) : disk.holds dir = true := by
  unfold Disk.restore at h
  rw [Bool.and_eq_true] at h
  exact h.1

theorem enabled_pick {baseline : HealthBaseline} {meminfo : MemInfo} (hIdle : w.recovery = .idle)
    (h : w.pick baseline meminfo = some a) : Enabled paths w a := by
  unfold World.pick at h
  split at h
  · cases h
  · rename_i pid entry rest hEntries
    have hLookup : w.registry.checkpointed.lookup pid = some entry :=
      CheckpointRegistry.mem_entriesLightestFirst_iff.mp
        (by rw [hEntries]; exact List.mem_cons_self)
    split at h
    · rename_i hAttempts
      cases h
      exact ⟨hIdle, pid, entry, hLookup, Or.inl ⟨rfl, hAttempts⟩⟩
    · split at h
      · cases h
        exact ⟨hIdle, pid, entry, hLookup, Or.inr rfl⟩
      · cases h

theorem enabled_clientAction {i : ι} {ok : Bool} (h : w.clientAction i ok = some a) :
    Enabled paths w a := by
  unfold World.clientAction at h
  cases hPc : w.clients i with
  | idle =>
      rw [hPc] at h
      cases h
  | restoring entries =>
      rw [hPc] at h
      have hPending : (w.clients i).pending = none := by rw [hPc]; rfl
      cases entries with
      | nil =>
          cases h
          exact ⟨hPending, rfl⟩
      | cons entry rest =>
          dsimp only at h
          split at h
          · rename_i hRestore
            cases h
            exact ⟨hPc, holds_of_restore hRestore⟩
          · cases h
            exact ⟨hPending, rfl⟩
  | restored pid dir dump rest =>
      rw [hPc] at h
      dsimp only at h
      split at h
      · rename_i hFree
        cases h
        exact ⟨hPc, recovery_idle_of_lockFree hFree⟩
      · cases h

theorem enabled_recoveryAction {ok : Bool} (h : w.recoveryAction ok = some a) :
    Enabled paths w a := by
  unfold World.recoveryAction at h
  cases hPc : w.recovery with
  | idle =>
      rw [hPc] at h
      cases h
  | givingUp pid dir =>
      rw [hPc] at h
      cases h
      exact Or.inl ⟨hPc, rfl⟩
  | restoring pid dir =>
      rw [hPc] at h
      dsimp only at h
      split at h
      · rename_i hRestore
        cases h
        exact ⟨hPc, holds_of_restore hRestore⟩
      · cases h
        exact hPc
  | restored pid dir dump =>
      rw [hPc] at h
      cases h
      exact Or.inr ⟨dump, hPc, rfl⟩
  | cleared pid dir dump =>
      rw [hPc] at h
      cases h
      exact hPc

/-- **What a step needs.** -/
theorem enabled_of_action (h : action paths w m = some a) : Enabled paths w a := by
  cases m with
  | checkpoint pid name rss result =>
      unfold action at h
      dsimp only at h
      split at h
      · rename_i hPc
        cases h
        exact ⟨hPc, rfl⟩
      · cases h
  | record =>
      unfold action at h
      dsimp only at h
      split at h
      · cases h
      · rename_i hPc
        split at h
        · rename_i hFree
          cases h
          exact ⟨hPc, recovery_idle_of_lockFree hFree⟩
        · cases h
  | clientRestore i arg =>
      unfold action at h
      dsimp only at h
      split at h
      · rename_i hPc
        split at h
        · cases h
          exact ⟨by rw [hPc]; rfl, rfl⟩
        · cases h
      all_goals cases h
  | client i ok => exact enabled_clientAction h
  | recoveryPass baseline meminfo =>
      unfold action at h
      dsimp only at h
      split at h
      · rename_i hPc
        exact enabled_pick hPc h
      all_goals cases h
  | recovery ok => exact enabled_recoveryAction h

end Enabled

/-! ## What a step changes -/

section Changes

variable {ι : Type u} [DecidableEq ι] {paths : SnapshotPaths} {w : World ι} {a : Action ι}

/-- The PID whose entry the step removes. -/
def Action.forgets : Action ι → Option Pid
  | .clientForgets _ pid _ _ _ => some pid
  | .recoveryForgets pid _ _ => some pid
  | _ => none

/-- The directory the step restores. -/
def Action.restores : Action ι → Option String
  | .clientRestores _ _ dir _ => some dir
  | .recoveryRestores _ dir => some dir
  | _ => none

/-- An entry was there before, or the step adds it. -/
theorem entry_origin {pid : Pid} {e : CheckpointEntry}
    (h : (perform w a).registry.checkpointed.lookup pid = some e) :
    (∃ e₀, w.registry.checkpointed.lookup pid = some e₀ ∧ e₀.snapshotDir = e.snapshotDir ∧
        (perform w a).entryDump pid = w.entryDump pid) ∨
      ∃ name rss, a = .record pid name e.snapshotDir rss ∧
        (perform w a).entryDump pid = w.disk.dumps e.snapshotDir := by
  have hRemoved : ∀ q, (w.registry.remove q).checkpointed.lookup pid = some e →
      w.registry.checkpointed.lookup pid = some e := by
    intro q hq
    rw [CheckpointRegistry.lookup_remove] at hq
    split at hq
    · cases hq
    · exact hq
  cases a with
  | checkpoint pid' name rss dir result => exact Or.inl ⟨e, h, rfl, rfl⟩
  | record pid' name dir rss =>
      simp only [perform, CheckpointRegistry.lookup_add] at h ⊢
      by_cases hPid : pid = pid'
      · rw [if_pos hPid] at h
        cases h
        subst hPid
        exact Or.inr ⟨name, rss, rfl, Function.update_self _ _ _⟩
      · rw [if_neg hPid] at h
        exact Or.inl ⟨e, h, rfl, Function.update_of_ne hPid _ _⟩
  | clientTurns i pc => exact Or.inl ⟨e, h, rfl, rfl⟩
  | clientRestores i pid' dir rest => exact Or.inl ⟨e, h, rfl, rfl⟩
  | clientForgets i pid' dir dump rest => exact Or.inl ⟨e, hRemoved pid' h, rfl, rfl⟩
  | recoveryPicks pc => exact Or.inl ⟨e, h, rfl, rfl⟩
  | recoveryRestores pid' dir => exact Or.inl ⟨e, h, rfl, rfl⟩
  | recoveryFails pid' dir =>
      simp only [perform, CheckpointRegistry.lookup_incrementAttempts] at h ⊢
      by_cases hPid : pid = pid'
      · rw [if_pos hPid, Option.map_eq_some_iff] at h
        obtain ⟨e₀, hBefore, hCounted⟩ := h
        rw [← hPid] at hBefore
        exact Or.inl ⟨e₀, hBefore, by rw [← hCounted], trivial⟩
      · rw [if_neg hPid] at h
        exact Or.inl ⟨e, h, rfl, trivial⟩
  | recoveryClears pid' dir dump removed => exact Or.inl ⟨e, h, rfl, rfl⟩
  | recoveryForgets pid' dir dump => exact Or.inl ⟨e, hRemoved pid' h, rfl, rfl⟩

/-- An entry stays until a step removes it or adds another under its PID. -/
theorem entry_stays {pid : Pid} {e : CheckpointEntry}
    (h : w.registry.checkpointed.lookup pid = some e) (hForgets : a.forgets ≠ some pid)
    (hRecord : ∀ name dir rss, a ≠ .record pid name dir rss) :
    ∃ e', (perform w a).registry.checkpointed.lookup pid = some e' ∧
      e'.snapshotDir = e.snapshotDir ∧ (perform w a).entryDump pid = w.entryDump pid := by
  have hKept : ∀ q, q ≠ pid → (w.registry.remove q).checkpointed.lookup pid = some e := by
    intro q hq
    rw [CheckpointRegistry.lookup_remove, if_neg fun hEq => hq hEq.symm]
    exact h
  cases a with
  | checkpoint pid' name rss dir result => exact ⟨e, h, rfl, rfl⟩
  | record pid' name dir rss =>
      have hPid : pid ≠ pid' := by
        intro hEq
        subst hEq
        exact hRecord name dir rss rfl
      refine ⟨e, ?_, rfl, Function.update_of_ne hPid _ _⟩
      simp only [perform, CheckpointRegistry.lookup_add]
      rw [if_neg hPid]
      exact h
  | clientTurns i pc => exact ⟨e, h, rfl, rfl⟩
  | clientRestores i pid' dir rest => exact ⟨e, h, rfl, rfl⟩
  | clientForgets i pid' dir dump rest =>
      exact ⟨e, hKept pid' fun hEq => hForgets (congrArg some hEq), rfl, rfl⟩
  | recoveryPicks pc => exact ⟨e, h, rfl, rfl⟩
  | recoveryRestores pid' dir => exact ⟨e, h, rfl, rfl⟩
  | recoveryFails pid' dir =>
      simp only [perform, CheckpointRegistry.lookup_incrementAttempts]
      by_cases hPid : pid = pid'
      · rw [if_pos hPid, ← hPid, h]
        exact ⟨_, rfl, rfl, trivial⟩
      · rw [if_neg hPid]
        exact ⟨e, h, rfl, trivial⟩
  | recoveryClears pid' dir dump removed => exact ⟨e, h, rfl, rfl⟩
  | recoveryForgets pid' dir dump =>
      exact ⟨e, hKept pid' fun hEq => hForgets (congrArg some hEq), rfl, rfl⟩

theorem dumps_le_perform (dir : String) : w.disk.dumps dir ≤ (perform w a).disk.dumps dir := by
  cases a with
  | checkpoint pid name rss dir' result => exact Disk.dumps_le_checkpoint _ _ _ _
  | recoveryClears pid dir' dump removed =>
      exact le_of_eq (by rw [perform, Disk.removeDirAll_dumps])
  | _ => exact Nat.le_refl _

theorem setClient_pending {i j : ι} {pc : ClientPc} {x : Pid × String × Nat}
    (h : ((w.setClient i pc).clients j).pending = some x) :
    (w.clients j).pending = some x ∨ j = i ∧ pc.pending = some x := by
  simp only [World.setClient] at h
  by_cases hClient : j = i
  · subst hClient
    rw [Function.update_self] at h
    exact Or.inr ⟨rfl, h⟩
  · rw [Function.update_of_ne hClient] at h
    exact Or.inl h

/-- A connection has restored a dump before, or does so in this step. -/
theorem client_pending_origin (hEnabled : Enabled paths w a) {i : ι} {x : Pid × String × Nat}
    (h : ((perform w a).clients i).pending = some x) :
    (w.clients i).pending = some x ∨
      ∃ pid dir rest, a = .clientRestores i pid dir rest ∧ x = (pid, dir, w.disk.dumps dir) := by
  cases a with
  | clientTurns j pc =>
      cases setClient_pending h with
      | inl hBefore => exact Or.inl hBefore
      | inr hNow =>
          rw [hEnabled.2] at hNow
          cases hNow.2
  | clientRestores j pid dir rest =>
      cases setClient_pending h with
      | inl hBefore => exact Or.inl hBefore
      | inr hNow =>
          obtain ⟨hClient, hPending⟩ := hNow
          cases hPending
          subst hClient
          exact Or.inr ⟨pid, dir, rest, rfl, rfl⟩
  | clientForgets j pid dir dump rest =>
      cases setClient_pending h with
      | inl hBefore => exact Or.inl hBefore
      | inr hNow => cases hNow.2
  | _ => exact Or.inl h

/-- The recovery pass has restored a dump before, or does so in this step. -/
theorem recovery_pending_origin (hEnabled : Enabled paths w a) {x : Pid × String × Nat}
    (h : (perform w a).recovery.pending = some x) :
    w.recovery.pending = some x ∨
      ∃ pid dir, a = .recoveryRestores pid dir ∧ x = (pid, dir, w.disk.dumps dir) := by
  cases a with
  | recoveryPicks pc =>
      obtain ⟨-, pid, e, -, hPc⟩ := hEnabled
      cases hPc with
      | inl hGivesUp =>
          rw [hGivesUp.1] at h
          cases h
      | inr hRestores =>
          rw [hRestores] at h
          cases h
  | recoveryRestores pid dir =>
      cases h
      exact Or.inr ⟨pid, dir, rfl, rfl⟩
  | recoveryFails pid dir => cases h
  | recoveryClears pid dir dump removed =>
      left
      cases hEnabled with
      | inl hGivesUp =>
          rw [hGivesUp.2] at h
          cases h
      | inr hRestored =>
          obtain ⟨n, hPc, hDump⟩ := hRestored
          rw [hPc, ← h, hDump]
          rfl
  | recoveryForgets pid dir dump => cases h
  | _ => exact Or.inl h

/-- The recovery pass works on the entry it worked on before, or picks it. -/
theorem recovery_target_origin (hEnabled : Enabled paths w a) {x : Pid × String}
    (h : (perform w a).recovery.target = some x) :
    w.recovery.target = some x ∨ ∃ e, w.registry.checkpointed.lookup x.1 = some e ∧
      e.snapshotDir = x.2 ∧ ∃ pc, a = .recoveryPicks pc := by
  cases a with
  | recoveryPicks pc =>
      obtain ⟨-, pid, e, hLookup, hPc⟩ := hEnabled
      have hTarget : pc.target = some (pid, e.snapshotDir) := by
        cases hPc with
        | inl hGivesUp => rw [hGivesUp.1]; rfl
        | inr hRestores => rw [hRestores]; rfl
      have hx : x = (pid, e.snapshotDir) := Option.some.inj (h.symm.trans hTarget)
      rw [hx]
      exact Or.inr ⟨e, hLookup, rfl, pc, rfl⟩
  | recoveryRestores pid dir =>
      left
      rw [hEnabled.1]
      exact h
  | recoveryFails pid dir => cases h
  | recoveryClears pid dir dump removed =>
      left
      cases hEnabled with
      | inl hGivesUp =>
          rw [hGivesUp.1]
          exact h
      | inr hRestored =>
          obtain ⟨n, hPc, -⟩ := hRestored
          rw [hPc]
          exact h
  | recoveryForgets pid dir dump => cases h
  | _ => exact Or.inl h

theorem mem_restored_origin {x : String × Nat} (h : x ∈ (perform w a).restored) :
    x ∈ w.restored ∨ ∃ dir, a.restores = some dir ∧ x = (dir, w.disk.dumps dir) := by
  cases a with
  | clientRestores i pid dir rest =>
      cases List.mem_cons.mp h with
      | inl hNow => exact Or.inr ⟨dir, rfl, hNow⟩
      | inr hBefore => exact Or.inl hBefore
  | recoveryRestores pid dir =>
      cases List.mem_cons.mp h with
      | inl hNow => exact Or.inr ⟨dir, rfl, hNow⟩
      | inr hBefore => exact Or.inl hBefore
  | _ => exact Or.inl h

end Changes

/-! ## What holds in every run -/

section Consistency

variable {ι : Type u} {paths : SnapshotPaths}

/-- The entry of a PID has a directory of that PID. -/
def NamesOwnDirs (paths : SnapshotPaths) (reg : CheckpointRegistry) : Prop :=
  ∀ pid e, reg.checkpointed.lookup pid = some e → ∃ name, e.snapshotDir = paths.snapshotDir pid name

theorem namesOwnDirs_new (paths : SnapshotPaths) : NamesOwnDirs paths .new := by
  intro pid e h
  cases h

theorem NamesOwnDirs.pid_of_dir {reg : CheckpointRegistry} (h : NamesOwnDirs paths reg)
    {pid pid' : Pid} {e : CheckpointEntry} {name : String}
    (hEntry : reg.checkpointed.lookup pid' = some e)
    (hDir : e.snapshotDir = paths.snapshotDir pid name) : pid' = pid := by
  obtain ⟨name', hName'⟩ := h pid' e hEntry
  exact SnapshotPaths.pid_of_snapshotDir (hName'.symm.trans hDir)

/-- Two entries never share a directory. -/
theorem NamesOwnDirs.pid_eq {reg : CheckpointRegistry} (h : NamesOwnDirs paths reg)
    {pid pid' : Pid} {e e' : CheckpointEntry} (hEntry : reg.checkpointed.lookup pid = some e)
    (hEntry' : reg.checkpointed.lookup pid' = some e') (hDir : e.snapshotDir = e'.snapshotDir) :
    pid = pid' := by
  obtain ⟨name', hName'⟩ := h pid' e' hEntry'
  exact h.pid_of_dir hEntry (hDir.trans hName')

structure Consistent (paths : SnapshotPaths) (w : World ι) : Prop where
  named : NamesOwnDirs paths w.registry
  recording : ∀ pid name dir rss, w.evictor = .dumped pid name dir rss →
    dir = paths.snapshotDir pid name
  /-- The lock keeps the entry the recovery pass works on. -/
  locked : ∀ pid dir, w.recovery.target = some (pid, dir) →
    ∃ e, w.registry.checkpointed.lookup pid = some e ∧ e.snapshotDir = dir
  entry_le : ∀ pid e, w.registry.checkpointed.lookup pid = some e →
    w.entryDump pid ≤ w.disk.dumps e.snapshotDir
  client_le : ∀ i pid dir dump, (w.clients i).pending = some (pid, dir, dump) →
    dump ≤ w.disk.dumps dir
  recovery_le : ∀ pid dir dump, w.recovery.pending = some (pid, dir, dump) →
    w.entryDump pid ≤ dump
  restored_le : ∀ dir dump, (dir, dump) ∈ w.restored → dump ≤ w.disk.dumps dir

/-- At the start an entry stands for the dump in its directory. -/
theorem entryDump_start {registry : CheckpointRegistry} {pid : Pid} {e : CheckpointEntry}
    (h : registry.checkpointed.lookup pid = some e) (disk : Disk) :
    (World.start registry disk : World ι).entryDump pid = disk.dumps e.snapshotDir := by
  unfold World.start
  dsimp only
  rw [h]

theorem consistent_start {registry : CheckpointRegistry} (hNamed : NamesOwnDirs paths registry)
    (disk : Disk) : Consistent paths (World.start registry disk : World ι) where
  named := hNamed
  recording := fun _ _ _ _ h => by cases h
  locked := fun _ _ h => by cases h
  entry_le := fun _ _ h => (entryDump_start h disk).le
  client_le := fun _ _ _ _ h => by cases h
  recovery_le := fun _ _ _ h => by cases h
  restored_le := fun _ _ h => by cases h

variable [DecidableEq ι] {w : World ι} {a : Action ι}

/-- While the recovery pass works on an entry, no other thread takes the lock. -/
theorem locked_perform (h : Consistent paths w) (hEnabled : Enabled paths w a) (pid : Pid)
    (dir : String) (hTarget : (perform w a).recovery.target = some (pid, dir)) :
    ∃ e, (perform w a).registry.checkpointed.lookup pid = some e ∧ e.snapshotDir = dir ∧
      (perform w a).entryDump pid = w.entryDump pid := by
  cases recovery_target_origin hEnabled hTarget with
  | inl hBefore =>
      have hBusy : w.recovery ≠ .idle := by
        intro hIdle
        rw [hIdle] at hBefore
        cases hBefore
      obtain ⟨e, hLookup, hDir⟩ := h.locked pid dir hBefore
      have hForgets : a.forgets ≠ some pid := by
        cases a with
        | clientForgets i q d dump rest => exact absurd hEnabled.2 hBusy
        | recoveryForgets q d dump => cases hTarget
        | _ => intro hEq; cases hEq
      have hRecord : ∀ name d rss, a ≠ .record pid name d rss := by
        intro name d rss hEq
        subst hEq
        exact hBusy hEnabled.2
      obtain ⟨e', hStays, hSame, hDump⟩ := entry_stays hLookup hForgets hRecord
      exact ⟨e', hStays, hSame.trans hDir, hDump⟩
  | inr hPicked =>
      obtain ⟨e, hLookup, hDir, pc, hAction⟩ := hPicked
      subst hAction
      exact ⟨e, hLookup, hDir, rfl⟩

theorem target_of_pending {pc : RecoveryPc} {pid : Pid} {dir : String} {dump : Nat}
    (h : pc.pending = some (pid, dir, dump)) : pc.target = some (pid, dir) := by
  cases pc with
  | restored pid' dir' dump' =>
      cases h
      rfl
  | cleared pid' dir' dump' =>
      cases dump' with
      | none => cases h
      | some n =>
          cases h
          rfl
  | _ => cases h

/-- **Every step keeps the threads consistent.** -/
theorem consistent_perform (h : Consistent paths w) (hEnabled : Enabled paths w a) :
    Consistent paths (perform w a) where
  named := by
    intro pid e hLookup
    cases entry_origin hLookup with
    | inl hBefore =>
        obtain ⟨e₀, hLookup₀, hDir, -⟩ := hBefore
        rw [← hDir]
        exact h.named pid e₀ hLookup₀
    | inr hRecorded =>
        obtain ⟨name, rss, hAction, -⟩ := hRecorded
        subst hAction
        exact ⟨name, h.recording pid name _ rss hEnabled.1⟩
  recording := by
    intro pid name dir rss hPc
    cases a with
    | checkpoint pid' name' rss' dir' result =>
        simp only [perform] at hPc
        split at hPc
        · cases hPc
          exact hEnabled.2
        · cases hPc
    | record pid' name' dir' rss' => cases hPc
    | _ => exact h.recording pid name dir rss hPc
  locked := by
    intro pid dir hTarget
    obtain ⟨e, hLookup, hDir, -⟩ := locked_perform h hEnabled pid dir hTarget
    exact ⟨e, hLookup, hDir⟩
  entry_le := by
    intro pid e hLookup
    cases entry_origin hLookup with
    | inl hBefore =>
        obtain ⟨e₀, hLookup₀, hDir, hDump⟩ := hBefore
        rw [hDump, ← hDir]
        exact Nat.le_trans (h.entry_le pid e₀ hLookup₀) (dumps_le_perform _)
    | inr hRecorded =>
        obtain ⟨name, rss, -, hDump⟩ := hRecorded
        rw [hDump]
        exact dumps_le_perform _
  client_le := by
    intro i pid dir dump hPending
    cases client_pending_origin hEnabled hPending with
    | inl hBefore => exact Nat.le_trans (h.client_le i pid dir dump hBefore) (dumps_le_perform _)
    | inr hNow =>
        obtain ⟨pid', dir', rest, -, hx⟩ := hNow
        cases hx
        exact dumps_le_perform _
  recovery_le := by
    intro pid dir dump hPending
    have hTarget := target_of_pending hPending
    obtain ⟨-, -, -, hDump⟩ := locked_perform h hEnabled pid dir hTarget
    rw [hDump]
    cases recovery_pending_origin hEnabled hPending with
    | inl hBefore => exact h.recovery_le pid dir dump hBefore
    | inr hNow =>
        obtain ⟨pid', dir', hAction, hx⟩ := hNow
        cases hx
        subst hAction
        have hPicked : w.recovery.target = some (pid, dir) := by rw [hEnabled.1]; rfl
        obtain ⟨e, hLookup, hDir⟩ := h.locked pid dir hPicked
        rw [← hDir]
        exact h.entry_le pid e hLookup
  restored_le := by
    intro dir dump hMem
    cases mem_restored_origin hMem with
    | inl hBefore => exact Nat.le_trans (h.restored_le dir dump hBefore) (dumps_le_perform _)
    | inr hNow =>
        obtain ⟨dir', -, hx⟩ := hNow
        cases hx
        exact dumps_le_perform _

theorem consistent_step (h : Consistent paths w) (m : Move ι) :
    Consistent paths (step paths w m) := by
  unfold step
  split
  · exact h
  · rename_i a hAction
    exact consistent_perform h (enabled_of_action hAction)

/-- What a daemon writes to its state file names its own directories again. -/
theorem namesOwnDirs_run {registry : CheckpointRegistry} (hNamed : NamesOwnDirs paths registry)
    (disk : Disk) (moves : List (Move ι)) :
    NamesOwnDirs paths (run (step paths) (World.start registry disk) moves).registry := by
  have hStep : ∀ (w : World ι) (m : Move ι), Consistent paths w → True →
      Consistent paths (step paths w m) := fun w m h _ => consistent_step h m
  have hAlways : Always (step paths) (Consistent paths) (World.start registry disk) moves :=
    always_of_invariant hStep (consistent_start hNamed disk) (everyStep_true _ moves)
  exact hAlways.last.named

end Consistency

/-! ## A recovery pass without company -/

section RecoveryPass

variable {ι : Type u} [DecidableEq ι] {paths : SnapshotPaths} {w : World ι}

/-- **A pass that no other thread interrupts is `restorePass`.**  Its four steps
take the lock, restore or give up, remove the directory and remove the entry; a
shorter pass idles at the end. -/
theorem run_recoveryPass (hIdle : w.recovery = .idle) (tick : RecoveryTick)
    (baseline : HealthBaseline) (ok removed : Bool)
    (hHelper : tick.restore = fun dir => w.disk.restore dir ok) :
    (run (step paths) w [.recoveryPass baseline tick.meminfoAtRestore, .recovery ok,
        .recovery removed, .recovery true]).registry =
      (restorePass tick baseline w.registry).1 := by
  have hStep : ∀ a, w.pick baseline tick.meminfoAtRestore = some a →
      step paths w (.recoveryPass baseline tick.meminfoAtRestore) = perform w a := by
    intro a hPick
    simp only [step, action, hIdle, hPick]
  cases hEntries : w.registry.entriesLightestFirst with
  | nil => simp [step, action, World.recoveryAction, World.pick, hIdle, restorePass, hEntries]
  | cons first rest =>
      obtain ⟨pid, entry⟩ := first
      by_cases hGivesUp : entry.attempts ≥ maxRestoreAttempts
      · rw [run_cons, hStep (.recoveryPicks (.givingUp pid entry.snapshotDir))
          (by simp [World.pick, hEntries, hGivesUp])]
        simp [step, action, World.recoveryAction, perform, restorePass, hEntries, hGivesUp]
      · cases hSafe : baseline.safeToRestore tick.meminfoAtRestore.availableKb
            tick.meminfoAtRestore.totalKb entry.rss with
        | false =>
            simp [step, action, World.recoveryAction, World.pick, hIdle, restorePass, hEntries,
              hGivesUp, hSafe]
        | true =>
            rw [run_cons, hStep (.recoveryPicks (.restoring pid entry.snapshotDir))
              (by simp [World.pick, hEntries, hGivesUp, hSafe])]
            cases hRestore : w.disk.restore entry.snapshotDir ok <;>
              simp [step, action, World.recoveryAction, perform, restorePass, hEntries, hGivesUp,
                hSafe, hHelper, hRestore]

end RecoveryPass

end Mgd.Snapshots.Threads
