import Mgd.Executor.Registry
import Mgd.Lib.Run

/-!
# Waking the recovery thread

`wait_for_work` of `recovery.rs` against the threads that put work into the two
registries.  The recovery thread reads the number of frozen processes, then that
of checkpoints, and when both are zero it takes the lock of `recovery_wake` and
waits until the flag is set; it does not look at the registries again.

Three paths add work.  `execute_plan` records what it froze and checkpointed,
and after it the evictor sets the flag and notifies.  The idle freeze, in the
evictor as well, and `mgctl freeze`, in a thread of its connection, record a
frozen process and ring no bell.  Other threads may drop entries at any time.

A pass of the recovery thread over the registries is a step outside the wait.
-/

namespace Mgd.RecoveryWake

open Mgd.Types Mgd.Lib.AssocMap Mgd.Lib.Run Mgd.Executor.Registry

/-! ## The threads -/

inductive RecoveryPc
  /-- At the head of the loop, about to count the frozen processes. -/
  | counting
  /-- None was frozen. -/
  | noneFrozen
  /-- Nor was there a checkpoint: about to take the lock of the flag. -/
  | noWork
  | waiting
  /-- There is work, or the bell has rung. -/
  | passing
  | returned
deriving DecidableEq

inductive EvictorPc
  | loop
  /-- In `execute_plan`; `added` when it has recorded something. -/
  | executing (added : Bool)
  /-- The flag is set, the notification still to come. -/
  | flagSet
deriving DecidableEq

structure World where
  frozen : FrozenRegistry
  checkpointed : CheckpointRegistry
  recoveryWake : Bool
  shutdown : Bool
  recovery : RecoveryPc
  evictor : EvictorPc

/-- What an `add` to the registry of frozen processes is given. -/
structure Freeze where
  startTime : Pid → Option Nat
  /-- Unix seconds -/
  now : Nat
  pid : Pid
  name : String

/-- The registry after the `add`, and whether it recorded the process. -/
def Freeze.addTo (f : Freeze) (reg : FrozenRegistry) : FrozenRegistry × Bool :=
  reg.add f.startTime f.now f.pid f.name

inductive Move
  /-- The recovery thread takes its next step, unless it waits. -/
  | recovery
  /-- The wait runs out after five seconds, or ends spuriously. -/
  | timeout
  /-- The evictor enters `execute_plan`. -/
  | plan
  | planFreeze (f : Freeze)
  | planCheckpoint (pid : Pid) (name snapshotDir : String) (rss : Kb)
  /-- The evictor leaves `execute_plan` and sets the flag, or notifies. -/
  | evictor
  | idleFreeze (f : Freeze)
  | mgctlFreeze (f : Freeze)
  | dropFrozen (pid : Pid)
  | dropCheckpoint (pid : Pid)
  | sigterm

/-- The waiting thread looks at the shutdown request and at the flag. -/
def World.wake (w : World) : World :=
  if w.recovery = .waiting then
    if w.shutdown then { w with recovery := .returned }
    else if w.recoveryWake then { w with recoveryWake := false, recovery := .passing }
    else w
  else w

def stepRecovery (w : World) : World :=
  match w.recovery with
  | .counting =>
      if w.shutdown then { w with recovery := .returned }
      else { w with recovery := if w.frozen.count = 0 then .noneFrozen else .passing }
  | .noneFrozen => { w with recovery := if w.checkpointed.count = 0 then .noWork else .passing }
  | .noWork =>
      if w.recoveryWake then { w with recoveryWake := false, recovery := .passing }
      else { w with recovery := .waiting }
  | .waiting => w
  | .passing => { w with recovery := if w.shutdown then .returned else .counting }
  | .returned => w

def stepEvictor (w : World) : World :=
  match w.evictor with
  | .loop => w
  | .executing _ => { w with recoveryWake := true, evictor := .flagSet }
  | .flagSet => { w.wake with evictor := .loop }

/-- `add` of a freeze that rings no bell. -/
def World.addFrozen (w : World) (f : Freeze) : World :=
  { w with frozen := (f.addTo w.frozen).1 }

def step (w : World) : Move → World
  | .recovery => stepRecovery w
  | .timeout => w.wake
  | .plan => if w.evictor = .loop then { w with evictor := .executing false } else w
  | .planFreeze f =>
      match w.evictor with
      | .executing added =>
          { w.addFrozen f with evictor := .executing (added || (f.addTo w.frozen).2) }
      | _ => w
  | .planCheckpoint pid name snapshotDir rss =>
      match w.evictor with
      | .executing _ =>
          { w with
            checkpointed := w.checkpointed.add pid name snapshotDir rss
            evictor := .executing true }
      | _ => w
  | .evictor => stepEvictor w
  | .idleFreeze f => if w.evictor = .loop then w.addFrozen f else w
  | .mgctlFreeze f => w.addFrozen f
  | .dropFrozen pid => { w with frozen := w.frozen.remove pid }
  | .dropCheckpoint pid => { w with checkpointed := w.checkpointed.remove pid }
  | .sigterm => { w with shutdown := true }

/-- The registries as the last run of the daemon left them, and every thread at
its start. -/
def World.start (frozen : FrozenRegistry) (checkpointed : CheckpointRegistry) : World where
  frozen := frozen
  checkpointed := checkpointed
  recoveryWake := false
  shutdown := false
  recovery := .counting
  evictor := .loop

/-! ## What is promised, and what breaks it -/

/-- There is work for the recovery thread. -/
def World.hasWork (w : World) : Prop := w.frozen.count ≠ 0 ∨ w.checkpointed.count ≠ 0

/-- The evictor has added, and its notification is still to come. -/
def World.ringing (w : World) : Prop := w.evictor = .executing true ∨ w.evictor = .flagSet

/-- A thread that waits over work, with no bell about to ring, finds the flag
set. -/
def BellRung (w : World) : Prop :=
  w.recovery = .waiting → w.hasWork → ¬ w.ringing → w.recoveryWake = true

/-- The thread has found nothing frozen, and will not look again. -/
def RecoveryPc.blind : RecoveryPc → Bool
  | .noneFrozen | .noWork | .waiting => true
  | .counting | .passing | .returned => false

/-- A bell is rung, or will be by `execute_plan`. -/
def World.bellComing (w : World) : Prop :=
  w.recoveryWake = true ∨ w.evictor = .executing true

/-- A freeze without a bell records nothing under the eyes of a thread that will
not look again, unless a bell is coming anyway. -/
def FreezeSeen (w : World) : Move → Prop
  | .idleFreeze f =>
      w.evictor = .loop → f.startTime f.pid ≠ none → w.recovery.blind = true → w.bellComing
  | .mgctlFreeze f => f.startTime f.pid ≠ none → w.recovery.blind = true → w.bellComing
  | _ => True

instance (w : World) : Decidable w.bellComing := inferInstanceAs (Decidable (_ ∨ _))

instance (w : World) (m : Move) : Decidable (FreezeSeen w m) :=
  match m with
  | .idleFreeze _ => inferInstanceAs (Decidable (_ → _ → _ → _))
  | .mgctlFreeze _ => inferInstanceAs (Decidable (_ → _ → _))
  | .recovery | .timeout | .plan | .planFreeze _ | .planCheckpoint .. | .evictor
  | .dropFrozen _ | .dropCheckpoint _ | .sigterm => inferInstanceAs (Decidable True)

/-- The invariant: behind the back of the thread nothing is added without a bell
coming. -/
structure Inv (w : World) : Prop where
  frozen : w.recovery.blind = true → w.frozen.count ≠ 0 → w.bellComing
  checkpointed : w.recovery = .noWork ∨ w.recovery = .waiting → w.checkpointed.count ≠ 0 →
    w.bellComing

theorem inv_start (frozen : FrozenRegistry) (checkpointed : CheckpointRegistry) :
    Inv (World.start frozen checkpointed) where
  frozen := fun h => Bool.noConfusion h
  checkpointed := fun h => by rcases h with h | h <;> cases h

section Preservation

variable {w : World}

theorem bellRung_of_inv (h : Inv w) : BellRung w := by
  intro hWaiting hWork hQuiet
  have hBell : w.bellComing := by
    cases hWork with
    | inl hFrozen => exact h.frozen (by rw [hWaiting]; rfl) hFrozen
    | inr hCheckpointed => exact h.checkpointed (Or.inr hWaiting) hCheckpointed
  cases hBell with
  | inl hFlag => exact hFlag
  | inr hExecuting => exact absurd (Or.inl hExecuting) hQuiet

/-- A thread that looks at the registries again owes nothing. -/
theorem Inv.of_seeing {w' : World} (hSeeing : w'.recovery.blind = false) : Inv w' where
  frozen := fun hBlind => by
    rw [hSeeing] at hBlind
    cases hBlind
  checkpointed := fun hPc => by
    rcases hPc with hPc | hPc <;> rw [hPc] at hSeeing <;> cases hSeeing

/-- With a bell coming, every add is seen. -/
theorem Inv.of_bellComing {w' : World} (hBell : w'.bellComing) : Inv w' where
  frozen := fun _ _ => hBell
  checkpointed := fun _ _ => hBell

/-- Dropping entries is harmless. -/
theorem count_remove_frozen (reg : FrozenRegistry) (pid : Pid)
    (h : (reg.remove pid).count ≠ 0) : reg.count ≠ 0 := by
  intro hZero
  have hNone : reg.frozen.keys = [] := List.length_eq_zero_iff.mp hZero
  apply h
  simp [FrozenRegistry.count, FrozenRegistry.remove, AList.keys_erase, hNone]

theorem count_remove_checkpointed (reg : CheckpointRegistry) (pid : Pid)
    (h : (reg.remove pid).count ≠ 0) : reg.count ≠ 0 := by
  intro hZero
  have hNone : reg.checkpointed.keys = [] := List.length_eq_zero_iff.mp hZero
  apply h
  simp [CheckpointRegistry.count, CheckpointRegistry.remove, AList.keys_erase, hNone]

/-- The evictor may move on when it has added nothing that is still to be rung
for. -/
theorem Inv.setEvictor (h : Inv w) {pc : EvictorPc} (hPc : w.evictor ≠ .executing true) :
    Inv { w with evictor := pc } := by
  have hFlag : w.bellComing → w.recoveryWake = true := fun hBell => hBell.resolve_right hPc
  exact
    { frozen := fun hBlind hSome => Or.inl (hFlag (h.frozen hBlind hSome))
      checkpointed := fun hPc' hSome => Or.inl (hFlag (h.checkpointed hPc' hSome)) }

theorem wake_evictor (w : World) : w.wake.evictor = w.evictor := by
  unfold World.wake
  split
  · split
    · rfl
    · split <;> rfl
  · rfl

theorem inv_wake (h : Inv w) : Inv w.wake := by
  unfold World.wake
  split
  · split
    · exact Inv.of_seeing rfl
    · split
      · exact Inv.of_seeing rfl
      · exact h
  · exact h

theorem inv_stepRecovery (h : Inv w) : Inv (stepRecovery w) := by
  unfold stepRecovery
  split
  · split
    · exact Inv.of_seeing rfl
    · split
      · next hNone =>
          exact
            { frozen := fun _ hSome => absurd hNone hSome
              checkpointed := fun hPc => by rcases hPc with hPc | hPc <;> cases hPc }
      · exact Inv.of_seeing rfl
  · next hPc =>
      split
      · next hNone =>
          exact
            { frozen := fun _ hSome => h.frozen (by rw [hPc]; rfl) hSome
              checkpointed := fun _ hSome => absurd hNone hSome }
      · exact Inv.of_seeing rfl
  · next hPc =>
      split
      · exact Inv.of_seeing rfl
      · exact
          { frozen := fun _ hSome => h.frozen (by rw [hPc]; rfl) hSome
            checkpointed := fun _ hSome => h.checkpointed (Or.inl hPc) hSome }
  · exact h
  · split <;> exact Inv.of_seeing rfl
  · exact h

theorem inv_stepEvictor (h : Inv w) : Inv (stepEvictor w) := by
  unfold stepEvictor
  split
  · exact h
  · exact Inv.of_bellComing (Or.inl rfl)
  · next hPc =>
      refine (inv_wake h).setEvictor ?_
      rw [wake_evictor, hPc]
      exact fun hEq => EvictorPc.noConfusion hEq

/-- An `add` whose start time cannot be read records nothing. -/
theorem addFrozen_of_gone {f : Freeze} (hGone : f.startTime f.pid = none) (w : World) :
    w.addFrozen f = w := by
  simp [World.addFrozen, Freeze.addTo, FrozenRegistry.add, hGone]

/-- A freeze without a bell. -/
theorem inv_addFrozen (h : Inv w) (f : Freeze)
    (hSeen : f.startTime f.pid ≠ none → w.recovery.blind = true → w.bellComing) :
    Inv (w.addFrozen f) := by
  by_cases hGone : f.startTime f.pid = none
  · rw [addFrozen_of_gone hGone]
    exact h
  · by_cases hBlind : w.recovery.blind = true
    · exact Inv.of_bellComing (hSeen hGone hBlind)
    · exact Inv.of_seeing (Bool.not_eq_true _ ▸ hBlind)

/-- A freeze of the plan: from the first one on a bell is coming. -/
theorem inv_planFreeze (h : Inv w) (f : Freeze) : Inv (step w (.planFreeze f)) := by
  unfold step
  dsimp only
  split
  · next added hPc =>
      by_cases hGone : f.startTime f.pid = none
      · have hAdd : f.addTo w.frozen = (w.frozen, false) := by
          simp [Freeze.addTo, FrozenRegistry.add, hGone]
        rw [addFrozen_of_gone hGone, hAdd, Bool.or_false, ← hPc]
        exact h
      · have hAdd : (f.addTo w.frozen).2 = true := by
          obtain ⟨st, hst⟩ := Option.ne_none_iff_exists'.mp hGone
          simp [Freeze.addTo, FrozenRegistry.add, hst]
        rw [hAdd, Bool.or_true]
        exact Inv.of_bellComing (Or.inr rfl)
  · exact h

theorem inv_step (h : Inv w) (m : Move) (hSeen : FreezeSeen w m) : Inv (step w m) := by
  cases m with
  | recovery => exact inv_stepRecovery h
  | timeout => exact inv_wake h
  | evictor => exact inv_stepEvictor h
  | planFreeze f => exact inv_planFreeze h f
  | mgctlFreeze f => exact inv_addFrozen h f hSeen
  | plan =>
      unfold step
      dsimp only
      split
      · next hLoop =>
          refine h.setEvictor ?_
          rw [hLoop]
          exact fun hEq => EvictorPc.noConfusion hEq
      · exact h
  | planCheckpoint pid name snapshotDir rss =>
      unfold step
      dsimp only
      split
      · exact Inv.of_bellComing (Or.inr rfl)
      · exact h
  | idleFreeze f =>
      unfold step
      dsimp only
      split
      · next hLoop => exact inv_addFrozen h f (hSeen hLoop)
      · exact h
  | dropFrozen pid =>
      exact
        { frozen := fun hBlind hSome => h.frozen hBlind (count_remove_frozen _ pid hSome)
          checkpointed := h.checkpointed }
  | dropCheckpoint pid =>
      exact
        { frozen := h.frozen
          checkpointed := fun hPc hSome =>
            h.checkpointed hPc (count_remove_checkpointed _ pid hSome) }
  | sigterm => exact { frozen := h.frozen, checkpointed := h.checkpointed }

/--
**No wake-up is lost** along a run whose freezes without a bell are all seen: in
every state, when the recovery thread waits over a non-empty registry and no
adder is about to notify, the flag is set.
-/
theorem bellRung_of_freezes_seen (frozen : FrozenRegistry) (checkpointed : CheckpointRegistry)
    {moves : List Move}
    (hSeen : EveryStep step FreezeSeen (World.start frozen checkpointed) moves) :
    Always step BellRung (World.start frozen checkpointed) moves := by
  have hInv : Always step Inv (World.start frozen checkpointed) moves :=
    always_of_invariant (fun _ m h hm => inv_step h m hm) (inv_start frozen checkpointed) hSeen
  exact hInv.imp fun _ h => bellRung_of_inv h

/-- The condition is sharp: a freeze without a bell that a waiting thread does
not see leaves the frozen process unattended. -/
theorem unattended_of_unseen {f : Freeze} (hStart : f.startTime f.pid ≠ none)
    (hWaiting : w.recovery = .waiting) (hFlag : w.recoveryWake = false)
    (hLoop : w.evictor = .loop) : ¬ BellRung (step w (.mgctlFreeze f)) := by
  intro hRung
  obtain ⟨st, hst⟩ := Option.ne_none_iff_exists'.mp hStart
  have hSome : (f.addTo w.frozen).1.count ≠ 0 := by
    intro hZero
    have hKeys : (f.addTo w.frozen).1.frozen.keys = [] := List.length_eq_zero_iff.mp hZero
    have hMem : f.pid ∈ (f.addTo w.frozen).1.frozen.keys := by
      rw [mem_keys_iff]
      exact ⟨⟨f.name, f.now, st⟩,
        (FrozenRegistry.lookup_add hst w.frozen f.now f.name f.pid).trans (if_pos rfl)⟩
    rw [hKeys] at hMem
    cases hMem
  have hQuiet : ¬ (step w (.mgctlFreeze f)).ringing := by
    intro hRinging
    have hPc : (step w (.mgctlFreeze f)).evictor = .loop := hLoop
    rcases hRinging with hEq | hEq <;> rw [hPc] at hEq <;> cases hEq
  have hSet : w.recoveryWake = true := hRung hWaiting (Or.inl hSome) hQuiet
  rw [hFlag] at hSet
  cases hSet

end Preservation

/-! ## A freeze behind the back of the thread -/

/-- A process with a readable start time. -/
def idleTab : Freeze where
  startTime := fun _ => some 54321
  now := 0
  pid := ⟨1234⟩
  name := "firefox"

/-- The thread finds both registries empty and waits, and the idle freeze stops a
process. -/
def idleFreezeDuringWait : List Move := [.recovery, .recovery, .recovery, .idleFreeze idleTab]

theorem idleFreezeDuringWait_unattended :
    ¬ Always step BellRung (World.start .new .new) idleFreezeDuringWait := by
  intro hRun
  have hFlag := hRun.last (by decide) (Or.inl (by decide))
    (by unfold World.ringing; decide)
  exact absurd hFlag (by decide)

/-- The same freeze in `execute_plan`, and another while the thread is passing. -/
theorem bellRung_of_planned_freeze :
    Always step BellRung (World.start .new .new)
      [.recovery, .recovery, .recovery, .plan, .planFreeze idleTab, .evictor, .evictor,
        .mgctlFreeze { idleTab with pid := ⟨1235⟩ }, .recovery, .recovery] :=
  bellRung_of_freezes_seen .new .new (by decide)

end Mgd.RecoveryWake
