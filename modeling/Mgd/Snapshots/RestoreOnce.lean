import Mgd.Snapshots.Threads

/-!
# Restoring a checkpoint once

A connection that serves `mgctl restore` neither holds the lock from its listing to
its removal nor removes the directory it has restored.  So another thread that
has the directory on its list, or finds the entry still there, restores it again;
and an entry the evictor adds for the same PID in between is removed with the
next step.

`restoredOnce_of_restoresAlone` shows that nothing else goes wrong: a run keeps
the promise when the steps of `RestoresAlone` find no other thread in between.
-/

namespace Mgd.Snapshots.RestoreOnce

open Mgd.Types Mgd.Lib.AssocMap Mgd.Lib.Run Mgd.Executor.Registry Mgd.Executor.Checkpoint
open Mgd.Snapshots.Threads

universe u

/-! ## What is promised, and when it is kept -/

section Promise

variable {ι : Type u}

/-- No dump is restored twice. -/
def RestoredOnce (w : World ι) : Prop := w.restored.Nodup

/-- The restored dump a step of a successful restore is about. -/
def restoredBy (w : World ι) : Action ι → Option (String × Nat)
  | .clientRestores _ _ dir _ => some (dir, w.disk.dumps dir)
  | .clientForgets _ _ dir dump _ => some (dir, dump)
  | .recoveryRestores _ dir => some (dir, w.disk.dumps dir)
  | .recoveryClears _ dir dump _ => dump.map fun n => (dir, n)
  | .recoveryForgets _ dir dump => dump.map fun n => (dir, n)
  | _ => none

/-- The entry is for another directory, or for a later dump into this one. -/
def IsOther (w : World ι) (dir : String) (dump : Nat) (pid : Pid) (e : CheckpointEntry) : Prop :=
  e.snapshotDir ≠ dir ∨ dump < w.entryDump pid

/-- A thread that restored a dump leaves the entries of all other checkpoints as
they are, their attempts included. -/
def SparesOthers [DecidableEq ι] (w : World ι) (a : Action ι) : Prop :=
  ∀ dir dump, restoredBy w a = some (dir, dump) →
    ∀ pid e, w.registry.checkpointed.lookup pid = some e → IsOther w dir dump pid e →
      (perform w a).registry.checkpointed.lookup pid = some e

/-- A thread has restored the directory and not yet removed the entry. -/
def BeingForgotten (w : World ι) (pid : Pid) (dir : String) : Prop :=
  (∃ i dump, (w.clients i).pending = some (pid, dir, dump)) ∨
    ∃ dump, w.recovery.pending = some (pid, dir, dump)

/-- A directory is restored only while no other thread is between its restore and
the removal of the entry, or between its dump and the record, and by a connection
only while the entry it listed is there; and no checkpoint is recorded for a PID
a connection is about to forget. -/
def RestoresAlone (w : World ι) : Action ι → Prop
  | .record pid _ _ _ => ∀ i dir dump, (w.clients i).pending ≠ some (pid, dir, dump)
  | .clientRestores _ pid dir _ =>
      (∃ e, w.registry.checkpointed.lookup pid = some e ∧ e.snapshotDir = dir) ∧
        ¬ BeingForgotten w pid dir ∧ ¬ BeingRecorded w dir
  | .recoveryRestores pid dir => ¬ BeingForgotten w pid dir ∧ ¬ BeingRecorded w dir
  | _ => True

end Promise

/-! ## The invariant -/

section Invariant

variable {ι : Type u} {paths : SnapshotPaths} {w : World ι} {a : Action ι}

structure Inv (paths : SnapshotPaths) (w : World ι) : Prop where
  consistent : Consistent paths w
  once : RestoredOnce w
  /-- An entry whose dump is restored is about to be removed. -/
  forgotten : ∀ pid e, w.registry.checkpointed.lookup pid = some e →
    (e.snapshotDir, w.disk.dumps e.snapshotDir) ∈ w.restored → BeingForgotten w pid e.snapshotDir
  /-- A dump that is not recorded yet is not restored. -/
  fresh : ∀ dir, BeingRecorded w dir → (dir, w.disk.dumps dir) ∉ w.restored
  /-- The entry a connection is about to remove is the one it restored. -/
  own : ∀ i pid dir dump, (w.clients i).pending = some (pid, dir, dump) →
    ∀ e, w.registry.checkpointed.lookup pid = some e →
      e.snapshotDir = dir ∧ w.entryDump pid ≤ dump

theorem inv_start {registry : CheckpointRegistry} (hNamed : NamesOwnDirs paths registry)
    (disk : Disk) : Inv paths (World.start registry disk : World ι) where
  consistent := consistent_start hNamed disk
  once := List.nodup_nil
  forgotten := fun _ _ _ hMem => by cases hMem
  fresh := fun _ _ hMem => by cases hMem
  own := fun _ _ _ _ h => by cases h

/-- What an admitted restore finds: the entry of the directory, which no other
thread is about to forget, and no dump that is not recorded. -/
theorem entry_of_restores (h : Inv paths w) (hEnabled : Enabled paths w a)
    (hAlone : RestoresAlone w a) {dir : String} (hRestores : a.restores = some dir) :
    ∃ pid e, w.registry.checkpointed.lookup pid = some e ∧ e.snapshotDir = dir ∧
      ¬ BeingForgotten w pid dir ∧ ¬ BeingRecorded w dir := by
  cases a with
  | clientRestores i pid dir' rest =>
      cases hRestores
      obtain ⟨⟨e, hLookup, hDir⟩, hRest⟩ := hAlone
      exact ⟨pid, e, hLookup, hDir, hRest⟩
  | recoveryRestores pid dir' =>
      cases hRestores
      have hTarget : w.recovery.target = some (pid, dir) := by rw [hEnabled.1]; rfl
      obtain ⟨e, hLookup, hDir⟩ := h.consistent.locked pid dir hTarget
      exact ⟨pid, e, hLookup, hDir, hAlone⟩
  | _ => cases hRestores

variable [DecidableEq ι]

theorem once_perform (h : Inv paths w) (hEnabled : Enabled paths w a)
    (hAlone : RestoresAlone w a) : RestoredOnce (perform w a) := by
  cases hRestores : a.restores with
  | none =>
      have hSame : (perform w a).restored = w.restored := by
        cases a with
        | clientRestores i pid dir rest => cases hRestores
        | recoveryRestores pid dir => cases hRestores
        | _ => rfl
      unfold RestoredOnce
      rw [hSame]
      exact h.once
  | some dir =>
      have hMore : (perform w a).restored = (dir, w.disk.dumps dir) :: w.restored := by
        cases a with
        | clientRestores i pid dir' rest => cases hRestores; rfl
        | recoveryRestores pid dir' => cases hRestores; rfl
        | _ => cases hRestores
      obtain ⟨pid, e, hLookup, hDir, hForgotten, -⟩ := entry_of_restores h hEnabled hAlone hRestores
      subst hDir
      unfold RestoredOnce
      rw [hMore, List.nodup_cons]
      exact ⟨fun hMem => hForgotten (h.forgotten pid e hLookup hMem), h.once⟩

/-- A connection stays about to forget its entry until it does. -/
theorem client_pending_stays {i : ι} {x : Pid × String × Nat}
    (h : (w.clients i).pending = some x) (hEnabled : Enabled paths w a)
    (hForgets : a.forgets ≠ some x.1) : ((perform w a).clients i).pending = some x := by
  have hOther : ∀ j pc, (w.clients j).pending ≠ some x →
      ((w.setClient j pc).clients i).pending = some x := by
    intro j pc hj
    have hClient : i ≠ j := by
      intro hEq
      subst hEq
      exact hj h
    simp only [World.setClient]
    rw [Function.update_of_ne hClient]
    exact h
  cases a with
  | clientTurns j pc =>
      refine hOther j pc ?_
      rw [hEnabled.1]
      exact fun hEq => by cases hEq
  | clientRestores j pid dir rest =>
      refine hOther j _ ?_
      rw [hEnabled.1]
      exact fun hEq => by cases hEq
  | clientForgets j pid dir dump rest =>
      refine hOther j _ ?_
      rw [hEnabled.1]
      intro hEq
      cases hEq
      exact hForgets rfl
  | _ => exact h

theorem recovery_pending_stays {x : Pid × String × Nat} (h : w.recovery.pending = some x)
    (hEnabled : Enabled paths w a) (hForgets : a.forgets ≠ some x.1) :
    (perform w a).recovery.pending = some x := by
  cases a with
  | recoveryPicks pc =>
      rw [hEnabled.1] at h
      cases h
  | recoveryRestores pid dir =>
      rw [hEnabled.1] at h
      cases h
  | recoveryFails pid dir =>
      have hPc : w.recovery = .restoring pid dir := hEnabled
      rw [hPc] at h
      cases h
  | recoveryClears pid dir dump removed =>
      cases hEnabled with
      | inl hGivesUp =>
          rw [hGivesUp.1] at h
          cases h
      | inr hRestored =>
          obtain ⟨n, hPc, hDump⟩ := hRestored
          rw [hPc] at h
          rw [hDump]
          exact h
  | recoveryForgets pid dir dump =>
      have hPc : w.recovery = .cleared pid dir dump := hEnabled
      have hTarget := target_of_pending h
      rw [hPc] at hTarget
      cases hTarget
      exact absurd rfl hForgets
  | _ => exact h

theorem forgets_ne_of_lookup {pid : Pid} {e : CheckpointEntry}
    (h : (perform w a).registry.checkpointed.lookup pid = some e) : a.forgets ≠ some pid := by
  intro hForgets
  cases a with
  | clientForgets i pid' dir dump rest =>
      cases hForgets
      simp [perform, World.setClient, CheckpointRegistry.lookup_remove] at h
  | recoveryForgets pid' dir dump =>
      cases hForgets
      simp [perform, CheckpointRegistry.lookup_remove] at h
  | _ => cases hForgets

/-- The thread that restores the directory of an entry is about to forget it. -/
theorem beingForgotten_of_restores (hConsistent : Consistent paths w)
    (hEnabled : Enabled paths w a) (hAlone : RestoresAlone w a) {pid : Pid} {e : CheckpointEntry}
    (hLookup : w.registry.checkpointed.lookup pid = some e)
    (hRestores : a.restores = some e.snapshotDir) :
    BeingForgotten (perform w a) pid e.snapshotDir := by
  cases a with
  | clientRestores i pid' dir rest =>
      cases hRestores
      obtain ⟨e', hLookup', hDir⟩ := hAlone.1
      have hPid : pid' = pid := hConsistent.named.pid_eq hLookup' hLookup hDir
      refine Or.inl ⟨i, w.disk.dumps e.snapshotDir, ?_⟩
      simp only [perform, World.setClient, Function.update_self, ClientPc.pending, hPid]
  | recoveryRestores pid' dir =>
      cases hRestores
      have hTarget : w.recovery.target = some (pid', e.snapshotDir) := by rw [hEnabled.1]; rfl
      obtain ⟨e', hLookup', hDir⟩ := hConsistent.locked pid' e.snapshotDir hTarget
      have hPid : pid' = pid := hConsistent.named.pid_eq hLookup' hLookup hDir
      subst hPid
      exact Or.inr ⟨w.disk.dumps e.snapshotDir, rfl⟩
  | _ => cases hRestores

theorem forgotten_perform (h : Inv paths w) (hEnabled : Enabled paths w a)
    (hAlone : RestoresAlone w a) {pid : Pid} {e : CheckpointEntry}
    (hLookup : (perform w a).registry.checkpointed.lookup pid = some e)
    (hMem : (e.snapshotDir, (perform w a).disk.dumps e.snapshotDir) ∈ (perform w a).restored) :
    BeingForgotten (perform w a) pid e.snapshotDir := by
  have hForgets : a.forgets ≠ some pid := forgets_ne_of_lookup hLookup
  have hMore := dumps_le_perform (w := w) (a := a) e.snapshotDir
  cases entry_origin hLookup with
  | inl hBefore =>
      obtain ⟨e₀, hLookup₀, hDir, -⟩ := hBefore
      rw [← hDir] at hMem hMore ⊢
      cases mem_restored_origin hMem with
      | inl hRestored =>
          -- a dump restored before is the one the directory still holds
          have hOld := h.consistent.restored_le _ _ hRestored
          have hSame : (perform w a).disk.dumps e₀.snapshotDir = w.disk.dumps e₀.snapshotDir :=
            Nat.le_antisymm hOld hMore
          rw [hSame] at hRestored
          cases h.forgotten pid e₀ hLookup₀ hRestored with
          | inl hClient =>
              obtain ⟨i, dump, hPending⟩ := hClient
              exact Or.inl ⟨i, dump, client_pending_stays hPending hEnabled hForgets⟩
          | inr hRecovery =>
              obtain ⟨dump, hPending⟩ := hRecovery
              exact Or.inr ⟨dump, recovery_pending_stays hPending hEnabled hForgets⟩
      | inr hNow =>
          obtain ⟨dir, hRestores, hEq⟩ := hNow
          have hSame : e₀.snapshotDir = dir := congrArg Prod.fst hEq
          rw [← hSame] at hRestores
          exact beingForgotten_of_restores h.consistent hEnabled hAlone hLookup₀ hRestores
  | inr hRecorded =>
      obtain ⟨name, rss, hAction, -⟩ := hRecorded
      subst hAction
      exact absurd hMem (h.fresh e.snapshotDir ⟨pid, name, rss, hEnabled.1⟩)

theorem fresh_perform (h : Inv paths w) (hEnabled : Enabled paths w a)
    (hAlone : RestoresAlone w a) {dir : String} (hRecorded : BeingRecorded (perform w a) dir) :
    (dir, (perform w a).disk.dumps dir) ∉ (perform w a).restored := by
  intro hMem
  have hKept : (perform w a).disk.dumps = w.disk.dumps → BeingRecorded w dir → False := by
    intro hDumps hBefore
    rw [hDumps] at hMem
    cases mem_restored_origin hMem with
    | inl hRestored => exact h.fresh dir hBefore hRestored
    | inr hNow =>
        obtain ⟨dir', hRestores, hEq⟩ := hNow
        have hSame : dir = dir' := congrArg Prod.fst hEq
        rw [← hSame] at hRestores
        obtain ⟨-, -, -, -, -, hNotRecorded⟩ := entry_of_restores h hEnabled hAlone hRestores
        exact hNotRecorded hBefore
  obtain ⟨pid, name, rss, hPc⟩ := hRecorded
  cases a with
  | checkpoint pid' name' rss' dir' result =>
      simp only [perform] at hPc
      split at hPc
      · rename_i hKilled
        cases hPc
        subst hKilled
        have hOld := h.consistent.restored_le dir _ hMem
        simp only [perform, Disk.checkpoint, Disk.dump_dumps_self] at hOld
        omega
      · cases hPc
  | record pid' name' dir' rss' => cases hPc
  | recoveryClears pid' dir' dump removed =>
      exact hKept (by rw [perform, Disk.removeDirAll_dumps]) ⟨pid, name, rss, hPc⟩
  | _ => exact hKept rfl ⟨pid, name, rss, hPc⟩

theorem own_perform (h : Inv paths w) (hEnabled : Enabled paths w a) (hAlone : RestoresAlone w a)
    {i : ι} {pid : Pid} {dir : String} {dump : Nat}
    (hPending : ((perform w a).clients i).pending = some (pid, dir, dump)) {e : CheckpointEntry}
    (hLookup : (perform w a).registry.checkpointed.lookup pid = some e) :
    e.snapshotDir = dir ∧ (perform w a).entryDump pid ≤ dump := by
  cases client_pending_origin hEnabled hPending with
  | inl hBefore =>
      cases entry_origin hLookup with
      | inl hEntry =>
          obtain ⟨e₀, hLookup₀, hDir, hDump⟩ := hEntry
          rw [← hDir, hDump]
          exact h.own i pid dir dump hBefore e₀ hLookup₀
      | inr hRecorded =>
          obtain ⟨name, rss, hAction, -⟩ := hRecorded
          subst hAction
          exact absurd hBefore (hAlone i dir dump)
  | inr hNow =>
      obtain ⟨pid', dir', rest, hAction, hEq⟩ := hNow
      cases hEq
      subst hAction
      obtain ⟨e', hLookup', hDir⟩ := hAlone.1
      have hSame : e' = e := Option.some.inj (hLookup'.symm.trans hLookup)
      subst hSame
      refine ⟨hDir, ?_⟩
      rw [← hDir]
      exact h.consistent.entry_le pid e' hLookup'

/-- **One admitted step** keeps the invariant. -/
theorem inv_perform (h : Inv paths w) (hEnabled : Enabled paths w a)
    (hAlone : RestoresAlone w a) : Inv paths (perform w a) where
  consistent := consistent_perform h.consistent hEnabled
  once := once_perform h hEnabled hAlone
  forgotten := fun _ _ hLookup hMem => forgotten_perform h hEnabled hAlone hLookup hMem
  fresh := fun _ hRecorded => fresh_perform h hEnabled hAlone hRecorded
  own := fun _ _ _ _ hPending _ hLookup => own_perform h hEnabled hAlone hPending hLookup

/-- **A restore spares the other checkpoints.** -/
theorem sparesOthers_of_inv (h : Inv paths w) (hEnabled : Enabled paths w a) :
    SparesOthers w a := by
  intro dir dump hBy pid e hLookup hOther
  cases a with
  | clientForgets i pid' dir' dump' rest =>
      cases hBy
      have hPid : pid ≠ pid' := by
        intro hEq
        subst hEq
        have hPending : (w.clients i).pending = some (pid, dir, dump) := by rw [hEnabled.1]; rfl
        obtain ⟨hDir, hDump⟩ := h.own i pid dir dump hPending e hLookup
        cases hOther with
        | inl hOtherDir => exact hOtherDir hDir
        | inr hLater => omega
      simp only [perform, World.setClient, CheckpointRegistry.lookup_remove]
      rw [if_neg hPid]
      exact hLookup
  | recoveryForgets pid' dir' dump' =>
      have hPc : w.recovery = .cleared pid' dir' dump' := hEnabled
      have hPid : pid ≠ pid' := by
        intro hEq
        subst hEq
        cases dump' with
        | none => cases hBy
        | some n =>
            cases hBy
            have hPending : w.recovery.pending = some (pid, dir, dump) := by rw [hPc]; rfl
            have hDump := h.consistent.recovery_le pid dir dump hPending
            obtain ⟨e', hLookup', hDir⟩ :=
              h.consistent.locked pid dir (target_of_pending hPending)
            rw [hLookup] at hLookup'
            cases hLookup'
            cases hOther with
            | inl hOtherDir => exact hOtherDir hDir
            | inr hLater => omega
      simp only [perform, CheckpointRegistry.lookup_remove]
      rw [if_neg hPid]
      exact hLookup
  | clientRestores i pid' dir' rest => exact hLookup
  | recoveryRestores pid' dir' => exact hLookup
  | recoveryClears pid' dir' dump' removed => exact hLookup
  | _ => cases hBy

theorem inv_step (h : Inv paths w) (m : Move ι) (hAlone : OnAction paths RestoresAlone w m) :
    Inv paths (step paths w m) := by
  unfold step
  split
  · exact h
  · rename_i a hAction
    exact inv_perform h (enabled_of_action hAction) (hAlone a hAction)

/--
**Each checkpoint is restored at most once.**  In a run from any start of the
daemon whose restores and records meet `RestoresAlone`, no dump is ever restored
twice, and a thread that restored one leaves the entries of the others as they
are.
-/
theorem restoredOnce_of_restoresAlone {registry : CheckpointRegistry}
    (hNamed : NamesOwnDirs paths registry) (disk : Disk) {moves : List (Move ι)}
    (hAlone : EveryStep (step paths) (OnAction paths RestoresAlone) (World.start registry disk)
      moves) :
    Always (step paths) RestoredOnce (World.start registry disk) moves ∧
      EveryStep (step paths) (OnAction paths SparesOthers) (World.start registry disk) moves := by
  have hStart : Inv paths (World.start registry disk : World ι) := inv_start hNamed disk
  have hStep : ∀ (w : World ι) (m : Move ι), Inv paths w → OnAction paths RestoresAlone w m →
      Inv paths (step paths w m) := fun w m h hm => inv_step h m hm
  have hSpares : ∀ (w : World ι) (m : Move ι), Inv paths w → OnAction paths RestoresAlone w m →
      OnAction paths SparesOthers w m :=
    fun w m h _ a hAction => sparesOthers_of_inv h (enabled_of_action hAction)
  constructor
  · have hAlways : Always (step paths) (Inv paths) (World.start registry disk) moves :=
      always_of_invariant hStep hStart hAlone
    exact hAlways.imp fun _ h => h.once
  · exact everyStep_of_invariant hStep hSpares hStart hAlone

end Invariant

/-! ## One checkpointed process -/

/-- `mgctl restore 999` -/
def byPid : RestoreArg where
  pid := some ⟨999⟩
  inName := fun _ => false

/-- The evictor checkpoints the process and adds the entry. -/
def checkpointIdea {ι : Type u} : List (Move ι) :=
  [.checkpoint ⟨999⟩ "idea" (Kb.clamp 2048000) .killed, .record]

/-- One connection restores the process and removes the entry. -/
def restoreIdea : List (Move Unit) :=
  checkpointIdea ++ [.clientRestore () byPid, .client () true, .client () true, .client () true]

/-- Two connections list the entry before either of them has removed it. -/
def restoreIdeaTwice : List (Move Bool) :=
  checkpointIdea ++ [.clientRestore false byPid, .clientRestore true byPid, .client false true,
    .client true true]

theorem restoreIdea_once :
    Always (step home) RestoredOnce (World.start .new noSnapshots) restoreIdea ∧
      EveryStep (step home) (OnAction home SparesOthers) (World.start .new noSnapshots)
        restoreIdea := by
  refine restoredOnce_of_restoresAlone (namesOwnDirs_new home) noSnapshots ?_
  refine ⟨?_, ?_, ?_, ?_, ?_, ?_, trivial⟩
  · intro a hAction
    cases hAction
    trivial
  · intro a hAction
    cases hAction
    intro i dir dump hPending
    cases hPending
  · intro a hAction
    cases hAction
    trivial
  · intro a hAction
    cases hAction
    refine ⟨⟨_, rfl, rfl⟩, ?_, ?_⟩
    · intro hForgotten
      cases hForgotten with
      | inl hClient =>
          obtain ⟨i, dump, hPending⟩ := hClient
          cases hPending
      | inr hRecovery =>
          obtain ⟨dump, hPending⟩ := hRecovery
          cases hPending
    · intro hRecorded
      obtain ⟨pid, name, rss, hPc⟩ := hRecorded
      cases hPc
  · intro a hAction
    cases hAction
    trivial
  · intro a hAction
    cases hAction
    trivial

theorem restoreIdeaTwice_restored_twice :
    ¬ (Always (step home) RestoredOnce (World.start .new noSnapshots) restoreIdeaTwice ∧
      EveryStep (step home) (OnAction home SparesOthers) (World.start .new noSnapshots)
        restoreIdeaTwice) := by
  intro h
  have hOnce : (run (step home) (World.start .new noSnapshots) restoreIdeaTwice).restored.Nodup :=
    h.1.last
  revert hOnce
  decide +kernel

end Mgd.Snapshots.RestoreOnce
