import Mathlib.Data.Fintype.Basic
import Mathlib.Logic.Function.Basic
import Mgd.Executor.Registry
import Mgd.Lib.Run

/-!
# Freezing against unfreezing

One process, the frozen registry and the threads that stop or resume the
process, interleaved at the grain of the source: a signal delivery is one
step, and so is each access to the registry under its lock.

* The evictor thread freezes (`execute_plan`: check `is_frozen`, SIGSTOP,
  `add`) and unfreezes on focus (check, SIGCONT, `remove`), one after the other.
* The unlocked unfreezers, any number of them, check, send SIGCONT and remove
  in three separate steps: the thread `process_plugin_line` spawns for an
  `ActiveWindow` message and the loop of `cmd_unfreeze` for `mgctl`.
* The recovery pass sends SIGCONT and removes while it holds the lock.

All signals succeed and the process lives on with one start time.

`StrandingAdd` is the step that goes wrong: an `add` that records the stopped
process while an unlocked unfreezer has sent its SIGCONT but not yet removed
the entry.  That unfreezer then removes the new entry.
`stopped_recorded_of_no_strandingAdd` shows that nothing else does.
-/

namespace Mgd.Executor.FreezeRace

open Mgd.Types Mgd.Lib.Run Mgd.Executor.Registry

universe u

/-! ## The threads -/

/-- The process under consideration. -/
structure Target where
  pid : Pid
  name : String
  startTime : Nat

/-- An unlocked unfreezer. -/
inductive UnfreezerPc
  | idle
  /-- The registry held the process, with this start time. -/
  | checked (startTime : Nat)
  /-- SIGCONT done, `remove` still to come. -/
  | resumed
deriving DecidableEq

inductive EvictorPc
  | idle
  | focusChecked (startTime : Nat)
  | focusResumed
  /-- `execute_plan` saw the process not frozen. -/
  | freezeChecked
  /-- SIGSTOP done, `add` still to come. -/
  | freezeStopped
deriving DecidableEq

inductive RecoveryPc
  | idle
  | locked
  | resumed
deriving DecidableEq

/-- `ι` indexes the unlocked unfreezers. -/
structure World (ι : Type u) where
  registry : FrozenRegistry
  /-- The last signal the daemon sent to the process was SIGSTOP. -/
  stopped : Bool
  evictor : EvictorPc
  recovery : RecoveryPc
  unfreezers : ι → UnfreezerPc

/-- Which thread moves, and what it starts when it is idle. -/
inductive Move (ι : Type u)
  | unfreezer (i : ι)
  | evictorFocus
  | evictorFreeze
  /-- The evictor takes the next step of what it has started. -/
  | evictor (now : Nat)
  /-- The recovery pass takes its next step; holding the lock it may pass the
  process over (too young, cap reached, RAM near baseline). -/
  | recovery (passOver : Bool)

section Steps

variable {ι : Type u} [DecidableEq ι] (t : Target)

/-- The recovery pass holds the registry lock between its steps. -/
def World.lockFree (w : World ι) : Bool := decide (w.recovery = .idle)

/-- SIGCONT behind the recycle check. -/
def World.deliverCont (w : World ι) (expectedStartTime : Nat) : World ι :=
  if t.startTime ≠ expectedStartTime then w else { w with stopped := false }

def World.setUnfreezer (w : World ι) (i : ι) (pc : UnfreezerPc) : World ι :=
  { w with unfreezers := Function.update w.unfreezers i pc }

def stepUnfreezer (w : World ι) (i : ι) : World ι :=
  match w.unfreezers i with
  | .idle =>
      if w.lockFree && w.registry.isFrozen t.pid then
        w.setUnfreezer i (.checked (w.registry.startTime t.pid))
      else w
  | .checked st => (w.deliverCont t st).setUnfreezer i .resumed
  | .resumed =>
      if w.lockFree then
        { w with registry := w.registry.remove t.pid }.setUnfreezer i .idle
      else w

def stepEvictor (w : World ι) (now : Nat) : World ι :=
  match w.evictor with
  | .idle => w
  | .focusChecked st => { w.deliverCont t st with evictor := .focusResumed }
  | .focusResumed =>
      if w.lockFree then
        { w with registry := w.registry.remove t.pid, evictor := .idle }
      else w
  | .freezeChecked => { w with stopped := true, evictor := .freezeStopped }
  | .freezeStopped =>
      if w.lockFree then
        { w with
          registry := (w.registry.add (fun _ => some t.startTime) now t.pid t.name).1
          evictor := .idle }
      else w

def stepEvictorFocus (w : World ι) : World ι :=
  if decide (w.evictor = .idle) && w.lockFree && w.registry.isFrozen t.pid then
    { w with evictor := .focusChecked (w.registry.startTime t.pid) }
  else w

def stepEvictorFreeze (w : World ι) : World ι :=
  if decide (w.evictor = .idle) && w.lockFree && !w.registry.isFrozen t.pid then
    { w with evictor := .freezeChecked }
  else w

def stepRecovery (w : World ι) (passOver : Bool) : World ι :=
  match w.recovery with
  | .idle => { w with recovery := .locked }
  | .locked =>
      if passOver || !w.registry.isFrozen t.pid then { w with recovery := .idle }
      else { w.deliverCont t (w.registry.startTime t.pid) with recovery := .resumed }
  | .resumed => { w with registry := w.registry.remove t.pid, recovery := .idle }

/-- One atomic step; a thread that is blocked or has nothing to do stays. -/
def step (w : World ι) : Move ι → World ι
  | .unfreezer i => stepUnfreezer t w i
  | .evictorFocus => stepEvictorFocus t w
  | .evictorFreeze => stepEvictorFreeze t w
  | .evictor now => stepEvictor t w now
  | .recovery passOver => stepRecovery t w passOver

end Steps

/-! ## What is promised, and what breaks it -/

section Promise

variable {ι : Type u} (t : Target)

/-- No thread is in the middle of an operation. -/
def Quiescent (w : World ι) : Prop :=
  w.evictor = .idle ∧ w.recovery = .idle ∧ ∀ i, w.unfreezers i = .idle

/-- While no operation is under way, a process stopped by the daemon is in the
registry, where every release path finds it. -/
def StoppedIsRecorded (w : World ι) : Prop :=
  Quiescent w → w.stopped = true → w.registry.isFrozen t.pid = true

/-- The daemon has sent no SIGSTOP, no thread is under way, and an entry loaded
from disk is of this incarnation. -/
def Initial (w : World ι) : Prop :=
  Quiescent w ∧ w.stopped = false ∧
    ∀ e, w.registry.frozen.lookup t.pid = some e → e.startTime = t.startTime

/-- An `add` of the stopped process under the hands of an unlocked unfreezer
that has sent its SIGCONT and not yet removed the entry. -/
def StrandingAdd (w : World ι) : Move ι → Prop
  | .evictor _ =>
      w.evictor = .freezeStopped ∧ w.stopped = true ∧ ∃ i, w.unfreezers i = .resumed
  | _ => False

/-- The invariant.  The last two fields carry the result: a stopped process is
recorded or about to be, and once recorded no thread is about to remove it
without resuming it first. -/
structure Inv (w : World ι) : Prop where
  entryStart : ∀ e, w.registry.frozen.lookup t.pid = some e → e.startTime = t.startTime
  checkedStart : ∀ i st, w.unfreezers i = .checked st → st = t.startTime
  focusStart : ∀ st, w.evictor = .focusChecked st → st = t.startTime
  freezing : w.evictor = .freezeChecked ∨ w.evictor = .freezeStopped →
    w.registry.isFrozen t.pid = false
  releasing : w.recovery = .resumed → w.registry.isFrozen t.pid = true
  stoppedRecorded : w.stopped = true →
    w.registry.isFrozen t.pid = true ∨ w.evictor = .freezeStopped
  stoppedUnclaimed : w.stopped = true → w.registry.isFrozen t.pid = true →
    (∀ i, w.unfreezers i ≠ .resumed) ∧ w.evictor ≠ .focusResumed ∧ w.recovery ≠ .resumed

variable {t} {w : World ι}

theorem inv_of_initial (h : Initial t w) : Inv t w := by
  obtain ⟨⟨hEvictor, hRecovery, hUnfreezers⟩, hRunning, hEntry⟩ := h
  refine ⟨hEntry, ?_, ?_, ?_, ?_, ?_, ?_⟩
  · intro i st hi
    simp [hUnfreezers i] at hi
  · intro st hst
    simp [hEvictor] at hst
  · intro hst
    simp [hEvictor] at hst
  · intro hst
    simp [hRecovery] at hst
  · intro hst
    simp [hRunning] at hst
  · intro hst
    simp [hRunning] at hst

theorem stoppedIsRecorded_of_inv (h : Inv t w) : StoppedIsRecorded t w := by
  intro hQuiet hStopped
  have hEvictor : w.evictor = .idle := hQuiet.1
  cases h.stoppedRecorded hStopped with
  | inl hRec => exact hRec
  | inr hMid => simp [hEvictor] at hMid

/-- The start time a thread reads from the registry is the process's own. -/
theorem Inv.startTime_eq (h : Inv t w) (hRec : w.registry.isFrozen t.pid = true) :
    w.registry.startTime t.pid = t.startTime := by
  obtain ⟨e, he⟩ := (FrozenRegistry.isFrozen_iff _ _).mp hRec
  rw [FrozenRegistry.startTime_of_lookup he]
  exact h.entryStart e he

/-- With the process's own start time, SIGCONT is delivered. -/
theorem deliverCont_self (w : World ι) :
    w.deliverCont t t.startTime = { w with stopped := false } := by
  unfold World.deliverCont
  simp

theorem lockFree_iff : w.lockFree = true ↔ w.recovery = .idle := by
  simp [World.lockFree]

/-- Resuming the process keeps the invariant. -/
theorem Inv.resume (h : Inv t w) : Inv t { w with stopped := false } where
  entryStart := h.entryStart
  checkedStart := h.checkedStart
  focusStart := h.focusStart
  freezing := h.freezing
  releasing := h.releasing
  stoppedRecorded := fun hStopped => Bool.noConfusion hStopped
  stoppedUnclaimed := fun hStopped => Bool.noConfusion hStopped

/-- A thread that has resumed the process may remove its entry: either the
process still runs, or a freeze under way has yet to record it. -/
theorem Inv.remove (h : Inv t w) (hFree : w.recovery ≠ .resumed)
    (hClaim : w.stopped = true → w.registry.isFrozen t.pid = true → False) :
    Inv t { w with registry := w.registry.remove t.pid } where
  entryStart := by
    intro e he
    rw [FrozenRegistry.lookup_remove, if_pos rfl] at he
    cases he
  checkedStart := h.checkedStart
  focusStart := h.focusStart
  freezing := fun _ => FrozenRegistry.isFrozen_remove_self w.registry t.pid
  releasing := fun hRecovery => absurd hRecovery hFree
  stoppedRecorded := by
    intro hStopped
    cases h.stoppedRecorded hStopped with
    | inl hRec => exact (hClaim hStopped hRec).elim
    | inr hMid => exact Or.inr hMid
  stoppedUnclaimed := by
    intro _ hRec
    rw [show _ = false from FrozenRegistry.isFrozen_remove_self w.registry t.pid] at hRec
    exact Bool.noConfusion hRec

/-- The evictor may move to `pc` when what it read is right, a freeze under way
finds the process unrecorded, and a stopped process is recorded with no removal
to come. -/
theorem Inv.setEvictor (h : Inv t w) {pc : EvictorPc}
    (hFocus : ∀ st, pc = .focusChecked st → st = t.startTime)
    (hFreezing : pc = .freezeChecked ∨ pc = .freezeStopped → w.registry.isFrozen t.pid = false)
    (hRecorded : w.stopped = true → w.registry.isFrozen t.pid = true)
    (hUnclaimed : w.stopped = true → pc ≠ .focusResumed) :
    Inv t { w with evictor := pc } where
  entryStart := h.entryStart
  checkedStart := h.checkedStart
  focusStart := hFocus
  freezing := hFreezing
  releasing := h.releasing
  stoppedRecorded := fun hStopped => Or.inl (hRecorded hStopped)
  stoppedUnclaimed := by
    intro hStopped hRec
    obtain ⟨hUnfreezers, -, hRecovery⟩ := h.stoppedUnclaimed hStopped hRec
    exact ⟨hUnfreezers, hUnclaimed hStopped, hRecovery⟩

/-- The recovery pass may always move to where nothing is to be removed. -/
theorem Inv.setRecovery (h : Inv t w) {pc : RecoveryPc} (hPc : pc ≠ .resumed) :
    Inv t { w with recovery := pc } where
  entryStart := h.entryStart
  checkedStart := h.checkedStart
  focusStart := h.focusStart
  freezing := h.freezing
  releasing := fun hEq => absurd hEq hPc
  stoppedRecorded := h.stoppedRecorded
  stoppedUnclaimed := by
    intro hStopped hRec
    obtain ⟨hUnfreezers, hEvictor, -⟩ := h.stoppedUnclaimed hStopped hRec
    exact ⟨hUnfreezers, hEvictor, hPc⟩

end Promise

/-! ## The invariant is preserved -/

section Preservation

variable {ι : Type u} {t : Target} {w : World ι}

/-- What the evictor's next step needs: an `add` must not strand the process. -/
theorem inv_stepEvictor (h : Inv t w) (now : Nat)
    (hSafe : ¬ StrandingAdd w (.evictor now)) : Inv t (stepEvictor t w now) := by
  unfold stepEvictor
  split
  · exact h
  · next st hst =>
      rw [h.focusStart st hst, deliverCont_self]
      exact h.resume.setEvictor (fun _ hEq => EvictorPc.noConfusion hEq)
        (fun hEq => by rcases hEq with hEq | hEq <;> cases hEq)
        (fun hStopped => Bool.noConfusion hStopped) (fun hStopped => Bool.noConfusion hStopped)
  · next hPc =>
      split
      · next hFree =>
          have hIdle : w.recovery ≠ .resumed := by
            rw [lockFree_iff.mp hFree]
            exact fun hEq => RecoveryPc.noConfusion hEq
          -- between its SIGCONT and its `remove` the evictor freezes nothing
          have hRunning : w.stopped = true → False := by
            intro hStopped
            cases h.stoppedRecorded hStopped with
            | inl hRec => exact (h.stoppedUnclaimed hStopped hRec).2.1 hPc
            | inr hMid =>
                rw [hPc] at hMid
                cases hMid
          have hRemoved := h.remove hIdle fun hStopped _ => hRunning hStopped
          exact hRemoved.setEvictor (fun _ hEq => EvictorPc.noConfusion hEq)
            (fun hEq => by rcases hEq with hEq | hEq <;> cases hEq)
            (fun hStopped => (hRunning hStopped).elim) (fun hStopped => (hRunning hStopped).elim)
      · exact h
  · next hPc =>
      have hUnrecorded := h.freezing (Or.inl hPc)
      exact
        { h with
          focusStart := fun _ hEq => EvictorPc.noConfusion hEq
          freezing := fun _ => hUnrecorded
          stoppedRecorded := fun _ => Or.inr rfl
          stoppedUnclaimed := fun _ hRec => by
            rw [show _ = false from hUnrecorded] at hRec
            cases hRec }
  · next hPc =>
      split
      · next hFree =>
          have hIdle := lockFree_iff.mp hFree
          -- the entry written is of this incarnation, and nobody is about to remove it
          have hLookup : ∀ pid', (w.registry.add (fun _ => some t.startTime) now t.pid
              t.name).1.frozen.lookup pid' =
                if pid' = t.pid then some ⟨t.name, now, t.startTime⟩
                else w.registry.frozen.lookup pid' :=
            FrozenRegistry.lookup_add rfl w.registry now t.name
          have hRec : (w.registry.add (fun _ => some t.startTime) now t.pid
              t.name).1.isFrozen t.pid = true := by
            unfold FrozenRegistry.isFrozen
            rw [hLookup t.pid, if_pos rfl]
            rfl
          refine
            { h with
              entryStart := ?_
              focusStart := fun _ hEq => EvictorPc.noConfusion hEq
              freezing := fun hEq => by rcases hEq with hEq | hEq <;> cases hEq
              releasing := fun _ => hRec
              stoppedRecorded := fun _ => Or.inl hRec
              stoppedUnclaimed := ?_ }
          · intro e he
            rw [show _ = some (⟨t.name, now, t.startTime⟩ : FrozenEntry) from
              (hLookup t.pid).trans (if_pos rfl)] at he
            cases he
            rfl
          · intro hStopped _
            refine ⟨fun i hi => hSafe ⟨hPc, hStopped, i, hi⟩,
              fun hEq => EvictorPc.noConfusion hEq, ?_⟩
            rw [show w.recovery = .idle from hIdle]
            exact fun hEq => RecoveryPc.noConfusion hEq
      · exact h

theorem inv_stepEvictorFocus (h : Inv t w) : Inv t (stepEvictorFocus t w) := by
  unfold stepEvictorFocus
  split
  · next hGo =>
      simp only [Bool.and_eq_true, decide_eq_true_eq] at hGo
      have hRec : w.registry.isFrozen t.pid = true := hGo.2
      refine h.setEvictor ?_ ?_ (fun _ => hRec) (fun _ hEq => EvictorPc.noConfusion hEq)
      · intro st hst
        cases hst
        exact h.startTime_eq hRec
      · intro hEq
        rcases hEq with hEq | hEq <;> cases hEq
  · exact h

theorem inv_stepEvictorFreeze (h : Inv t w) : Inv t (stepEvictorFreeze t w) := by
  unfold stepEvictorFreeze
  split
  · next hGo =>
      simp only [Bool.and_eq_true, decide_eq_true_eq, Bool.not_eq_true'] at hGo
      obtain ⟨⟨hPc, -⟩, hUnrecorded⟩ := hGo
      refine h.setEvictor (fun _ hEq => EvictorPc.noConfusion hEq) (fun _ => hUnrecorded) ?_
        (fun _ hEq => EvictorPc.noConfusion hEq)
      intro hStopped
      cases h.stoppedRecorded hStopped with
      | inl hRec => exact hRec
      | inr hMid =>
          rw [hPc] at hMid
          cases hMid
  · exact h

theorem inv_stepRecovery (h : Inv t w) (passOver : Bool) :
    Inv t (stepRecovery t w passOver) := by
  unfold stepRecovery
  split
  · exact h.setRecovery (by decide)
  · split
    · exact h.setRecovery (by decide)
    · next hGo =>
        have hRec : w.registry.isFrozen t.pid = true := by
          simp only [Bool.or_eq_true, Bool.not_eq_true', not_or, Bool.not_eq_false] at hGo
          exact hGo.2
        rw [h.startTime_eq hRec, deliverCont_self]
        have hResumed := h.resume
        exact
          { hResumed with
            releasing := fun _ => hRec
            stoppedUnclaimed := fun hStopped => Bool.noConfusion hStopped }
  · next hPc =>
      have hRunning : w.stopped = true → w.registry.isFrozen t.pid = true → False :=
        fun hStopped hRec => (h.stoppedUnclaimed hStopped hRec).2.2 hPc
      have hRec := h.releasing hPc
      refine
        { h with
          entryStart := ?_
          freezing := fun _ => FrozenRegistry.isFrozen_remove_self w.registry t.pid
          releasing := fun hEq => RecoveryPc.noConfusion hEq
          stoppedRecorded := fun hStopped => (hRunning hStopped hRec).elim
          stoppedUnclaimed := fun hStopped => (hRunning hStopped hRec).elim }
      intro e he
      rw [FrozenRegistry.lookup_remove, if_pos rfl] at he
      cases he

variable [DecidableEq ι]

/-- An unfreezer that becomes idle, or checks an entry, keeps the invariant. -/
theorem Inv.setUnfreezer (h : Inv t w) (i : ι) {pc : UnfreezerPc}
    (hChecked : ∀ st, pc = .checked st → st = t.startTime)
    (hResumed : pc = .resumed → w.stopped = false) : Inv t (w.setUnfreezer i pc) where
  entryStart := h.entryStart
  checkedStart := by
    intro j st hj
    by_cases hji : j = i
    · subst hji
      exact hChecked st (by simpa [World.setUnfreezer] using hj)
    · exact h.checkedStart j st (by simpa [World.setUnfreezer, hji] using hj)
  focusStart := h.focusStart
  freezing := h.freezing
  releasing := h.releasing
  stoppedRecorded := h.stoppedRecorded
  stoppedUnclaimed := by
    intro hStopped hRec
    obtain ⟨hUnfreezers, hEvictor, hRecovery⟩ := h.stoppedUnclaimed hStopped hRec
    refine ⟨fun j hj => ?_, hEvictor, hRecovery⟩
    by_cases hji : j = i
    · subst hji
      have hPc : pc = .resumed := by simpa [World.setUnfreezer] using hj
      have hRunning : w.stopped = false := hResumed hPc
      rw [show w.stopped = true from hStopped] at hRunning
      exact Bool.noConfusion hRunning
    · exact hUnfreezers j (by simpa [World.setUnfreezer, hji] using hj)

theorem inv_stepUnfreezer (h : Inv t w) (i : ι) : Inv t (stepUnfreezer t w i) := by
  unfold stepUnfreezer
  split
  · split
    · next hGo =>
        have hRec : w.registry.isFrozen t.pid = true := (Bool.and_eq_true _ _ ▸ hGo).2
        refine h.setUnfreezer i ?_ (fun hEq => UnfreezerPc.noConfusion hEq)
        intro st hst
        cases hst
        exact h.startTime_eq hRec
    · exact h
  · next st hst =>
      rw [h.checkedStart i st hst, deliverCont_self]
      exact h.resume.setUnfreezer i (fun _ hEq => UnfreezerPc.noConfusion hEq) (fun _ => rfl)
  · next hPc =>
      split
      · next hFree =>
          have hIdle : w.recovery ≠ .resumed := by
            rw [lockFree_iff.mp hFree]
            exact fun hEq => RecoveryPc.noConfusion hEq
          have hRemoved := h.remove hIdle fun hStopped hRec =>
            (h.stoppedUnclaimed hStopped hRec).1 i hPc
          exact hRemoved.setUnfreezer i (fun _ hEq => UnfreezerPc.noConfusion hEq)
            (fun hEq => UnfreezerPc.noConfusion hEq)
      · exact h

theorem inv_step (h : Inv t w) (m : Move ι) (hSafe : ¬ StrandingAdd w m) :
    Inv t (step t w m) := by
  cases m with
  | unfreezer i => exact inv_stepUnfreezer h i
  | evictorFocus => exact inv_stepEvictorFocus h
  | evictorFreeze => exact inv_stepEvictorFreeze h
  | evictor now => exact inv_stepEvictor h now hSafe
  | recovery passOver => exact inv_stepRecovery h passOver

/--
**No process is stranded** along a run without a stranding `add`: in every
state in which no operation is under way, a process stopped by the daemon is in
the registry.
-/
theorem stopped_recorded_of_no_strandingAdd {moves : List (Move ι)} (h0 : Initial t w)
    (hSafe : EveryStep (step t) (fun w m => ¬ StrandingAdd w m) w moves) :
    Always (step t) (StoppedIsRecorded t) w moves := by
  have hInv : Always (step t) (Inv t) w moves :=
    always_of_invariant (fun _ m h hm => inv_step h m hm) (inv_of_initial h0) hSafe
  exact hInv.imp fun _ h => stoppedIsRecorded_of_inv h

/-- The condition is sharp: when such an `add` goes through and the unfreezer
then removes the entry, the process is left stopped and unrecorded. -/
theorem strands_of_strandingAdd {i : ι} {now : Nat} (hEvictor : w.evictor = .freezeStopped)
    (hStopped : w.stopped = true) (hResumed : w.unfreezers i = .resumed)
    (hFree : w.recovery = .idle) :
    (run (step t) w [.evictor now, .unfreezer i]).stopped = true ∧
      (run (step t) w [.evictor now, .unfreezer i]).registry.isFrozen t.pid = false := by
  simp only [run_cons, run_nil, step, stepEvictor, stepUnfreezer, hEvictor, hResumed,
    World.lockFree, hFree, decide_true, if_true]
  exact ⟨hStopped, FrozenRegistry.isFrozen_remove_self _ _⟩

/-! ## The stranding run -/

/-- A background process of mgd's. -/
def indexer : Target where
  pid := ⟨1234⟩
  name := "baloo_file"
  startTime := 54321

/-- Nothing recorded, nobody under way. -/
def quietWorld : World Unit where
  registry := FrozenRegistry.new
  stopped := false
  evictor := .idle
  recovery := .idle
  unfreezers := fun _ => .idle

/-- The process is frozen and an `mgctl unfreeze` resumes it; before the request
removes the entry the recovery pass does, and the evictor freezes the process
again. -/
def strandingRun : List (Move Unit) :=
  [.evictorFreeze, .evictor 0, .evictor 0,
    .unfreezer (), .unfreezer (),
    .recovery false, .recovery false, .recovery false,
    .evictorFreeze, .evictor 20, .evictor 20,
    .unfreezer ()]

theorem quietWorld_initial : Initial indexer quietWorld :=
  ⟨⟨rfl, rfl, fun _ => rfl⟩, rfl, fun e he => by cases he⟩

/-- At the end of the run every thread is idle and the process is stopped, but
the registry does not know it. -/
theorem strandingRun_strands :
    Initial indexer quietWorld ∧
      ¬ Always (step indexer) (StoppedIsRecorded indexer) quietWorld strandingRun := by
  refine ⟨quietWorld_initial, fun hAlways => ?_⟩
  have hQuiet : Quiescent (run (step indexer) quietWorld strandingRun) :=
    ⟨by decide, by decide, by decide⟩
  have hStopped : (run (step indexer) quietWorld strandingRun).stopped = true := by decide
  have hLost : (run (step indexer) quietWorld strandingRun).registry.isFrozen indexer.pid =
      false := by decide
  rw [hAlways.last hQuiet hStopped] at hLost
  cases hLost

instance decidableStrandingAdd [Fintype ι] (w : World ι) (m : Move ι) :
    Decidable (StrandingAdd w m) :=
  match m with
  | .evictor _ => inferInstanceAs (Decidable (_ ∧ _ ∧ ∃ _, _))
  | .unfreezer _ | .evictorFocus | .evictorFreeze | .recovery _ =>
      inferInstanceAs (Decidable False)

/-- Freezing, an `mgctl unfreeze` served to its end, and freezing again. -/
theorem stopped_recorded_of_served_unfreeze :
    Always (step indexer) (StoppedIsRecorded indexer) quietWorld
      [.evictorFreeze, .evictor 0, .evictor 0,
        .unfreezer (), .unfreezer (), .unfreezer (),
        .evictorFreeze, .evictor 20, .evictor 20] :=
  stopped_recorded_of_no_strandingAdd quietWorld_initial (by decide)

end Preservation

end Mgd.Executor.FreezeRace
