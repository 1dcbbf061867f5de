import Mgd.Lib.Run

/-!
# Waking the maintenance thread

The maintenance loop and the evictor share `reclaim_wake`, a flag behind a mutex
with a condition variable.  An iteration of the loop looks at the shutdown
request, consumes the flag, works and then waits on the condition variable for
the rest of the minute; it looks at neither again before it waits.  The evictor
sets the flag and notifies, each a step of its own, and on shutdown it notifies
once more and returns.  A notification reaches only a thread that waits.

Of the body of an iteration nothing but its place in this order counts.
-/

namespace Mgd.MaintenanceWake

open Mgd.Lib.Run

/-! ## The threads -/

inductive MaintenancePc
  /-- About to look at the shutdown request. -/
  | top
  /-- The shutdown request was not there; the flag is still to be consumed. -/
  | checked
  /-- The flag is consumed: the body of the iteration, up to the wait. -/
  | working
  | waiting
  | returned
deriving DecidableEq

inductive EvictorPc
  | loop
  /-- The flag is set, the notification still to come. -/
  | flagSet
  | returned
deriving DecidableEq

structure World where
  reclaimWake : Bool
  shutdown : Bool
  maintenance : MaintenancePc
  evictor : EvictorPc
  /-- the last iteration consumed a set flag -/
  killTriggered : Bool
deriving DecidableEq

inductive Move
  /-- The maintenance thread takes its next step, unless it waits. -/
  | maintenance
  /-- The wait runs out, or ends spuriously. -/
  | timeout
  /-- `execute_plan` has killed: the evictor sets the flag. -/
  | evictorKilled
  /-- The evictor notifies for the flag it set, or looks at the shutdown request
  at the top of its loop. -/
  | evictor
  /-- SIGTERM or SIGINT reaches the daemon. -/
  | sigterm
deriving DecidableEq

/-- A notification ends the wait of a thread that waits. -/
def World.notify (w : World) : World :=
  if w.maintenance = .waiting then { w with maintenance := .top } else w

def stepMaintenance (w : World) : World :=
  match w.maintenance with
  | .top => { w with maintenance := if w.shutdown then .returned else .checked }
  | .checked =>
      { w with maintenance := .working, killTriggered := w.reclaimWake, reclaimWake := false }
  | .working => { w with maintenance := .waiting }
  | .waiting => w
  | .returned => w

def stepEvictor (w : World) : World :=
  match w.evictor with
  | .loop => if w.shutdown then { w.notify with evictor := .returned } else w
  | .flagSet => { w.notify with evictor := .loop }
  | .returned => w

def step (w : World) : Move → World
  | .maintenance => stepMaintenance w
  | .timeout => w.notify
  | .evictorKilled =>
      if w.evictor = .loop then { w with reclaimWake := true, evictor := .flagSet } else w
  | .evictor => stepEvictor w
  | .sigterm => { w with shutdown := true }

/-- The threads as they start. -/
def World.start : World where
  reclaimWake := false
  shutdown := false
  maintenance := .top
  evictor := .loop
  killTriggered := false

/-! ## What is promised, and what breaks it -/

/-- The wait begins with the flag clear and no shutdown requested. -/
def WaitsUnsignalled (w : World) (m : Move) : Prop :=
  w.maintenance ≠ .waiting → (step w m).maintenance = .waiting →
    w.reclaimWake = false ∧ w.shutdown = false

/-- The given steps, after the evictor's next one when the thread waits: no
timeout is among them. -/
def World.untimed (w : World) (steps : List Move) : List Move :=
  if w.maintenance = .waiting then .evictor :: steps else steps

/-- Signals are answered without sleeping out the wait. -/
structure Answered (w : World) : Prop where
  /-- The next iteration consumes a flag that is set. -/
  kill : w.reclaimWake = true → w.shutdown = false →
    (run step w (w.untimed [.maintenance, .maintenance])).killTriggered = true
  /-- The next iteration ends on a shutdown request. -/
  stop : w.shutdown = true →
    (run step w (w.untimed [.maintenance])).maintenance = .returned

/-- While the thread waits, a set flag is about to be notified, and so is a
shutdown request. -/
def WakePending (w : World) : Prop :=
  w.maintenance = .waiting →
    (w.reclaimWake = true → w.evictor = .flagSet) ∧ (w.shutdown = true → w.evictor ≠ .returned)

/-- No signal falls between the look at it and the wait: the flag is not set
after its consumption, the shutdown is not requested after its check. -/
def SignalSeen (w : World) : Move → Prop
  | .evictorKilled => w.evictor = .loop → w.maintenance ≠ .working
  | .sigterm => w.maintenance ≠ .checked ∧ w.maintenance ≠ .working
  | _ => True

instance (w : World) (m : Move) : Decidable (SignalSeen w m) :=
  match m with
  | .evictorKilled => inferInstanceAs (Decidable (_ → _ ≠ _))
  | .sigterm => inferInstanceAs (Decidable (_ ≠ _ ∧ _ ≠ _))
  | .maintenance | .timeout | .evictor => inferInstanceAs (Decidable True)

/-- The invariant: what the thread has looked at is still so until it waits. -/
structure Inv (w : World) : Prop where
  consumed : w.maintenance = .working → w.reclaimWake = false
  checked : w.maintenance = .checked ∨ w.maintenance = .working → w.shutdown = false
  returned : w.evictor = .returned → w.shutdown = true
  ended : w.maintenance = .returned → w.shutdown = true
  pending : WakePending w

theorem inv_start : Inv World.start where
  consumed := fun h => MaintenancePc.noConfusion h
  checked := fun _ => rfl
  returned := fun h => EvictorPc.noConfusion h
  ended := fun h => MaintenancePc.noConfusion h
  pending := fun h => MaintenancePc.noConfusion h

section Preservation

variable {w : World}

/-- A thread that does not wait owes no wake-up. -/
theorem wakePending_of_not_waiting (h : w.maintenance ≠ .waiting) : WakePending w :=
  fun hWaiting => absurd hWaiting h

@[simp] theorem notify_reclaimWake (w : World) : w.notify.reclaimWake = w.reclaimWake := by
  unfold World.notify
  split <;> rfl

@[simp] theorem notify_shutdown (w : World) : w.notify.shutdown = w.shutdown := by
  unfold World.notify
  split <;> rfl

@[simp] theorem notify_evictor (w : World) : w.notify.evictor = w.evictor := by
  unfold World.notify
  split <;> rfl

/-- After a notification nobody waits. -/
theorem notify_not_waiting (w : World) : w.notify.maintenance ≠ .waiting := by
  unfold World.notify
  split
  · exact fun h => MaintenancePc.noConfusion h
  · next hNot => exact hNot

/-- A thread at work is where it was before the notification. -/
theorem maintenance_of_notify {pc : MaintenancePc} (hPc : pc ≠ .top)
    (h : w.notify.maintenance = pc) : w.maintenance = pc := by
  unfold World.notify at h
  split at h
  · exact absurd h.symm hPc
  · exact h

theorem Inv.notify (h : Inv w) : Inv w.notify where
  consumed := by
    intro hPc
    rw [notify_reclaimWake]
    exact h.consumed (maintenance_of_notify (by decide) hPc)
  checked := by
    intro hPc
    rw [notify_shutdown]
    cases hPc with
    | inl hChecked => exact h.checked (Or.inl (maintenance_of_notify (by decide) hChecked))
    | inr hWorking => exact h.checked (Or.inr (maintenance_of_notify (by decide) hWorking))
  returned := by
    rw [notify_evictor, notify_shutdown]
    exact h.returned
  ended := by
    intro hPc
    rw [notify_shutdown]
    exact h.ended (maintenance_of_notify (by decide) hPc)
  pending := wakePending_of_not_waiting (notify_not_waiting w)

/-- The evictor may move on once nobody waits. -/
theorem Inv.setEvictor (h : Inv w) {pc : EvictorPc} (hAwake : w.maintenance ≠ .waiting)
    (hReturned : pc = .returned → w.shutdown = true) : Inv { w with evictor := pc } where
  consumed := h.consumed
  checked := h.checked
  returned := hReturned
  ended := h.ended
  pending := wakePending_of_not_waiting hAwake

theorem inv_stepMaintenance (h : Inv w) : Inv (stepMaintenance w) := by
  unfold stepMaintenance
  split
  · by_cases hShutdown : w.shutdown = true
    · rw [if_pos hShutdown]
      exact
        { consumed := fun hPc => MaintenancePc.noConfusion hPc
          checked := fun hPc => by rcases hPc with hPc | hPc <;> cases hPc
          returned := h.returned
          ended := fun _ => hShutdown
          pending := wakePending_of_not_waiting (by simp) }
    · rw [if_neg hShutdown]
      exact
        { consumed := fun hPc => MaintenancePc.noConfusion hPc
          checked := fun _ => Bool.not_eq_true _ ▸ hShutdown
          returned := h.returned
          ended := fun hPc => MaintenancePc.noConfusion hPc
          pending := wakePending_of_not_waiting (by simp) }
  · next hPc =>
      exact
        { consumed := fun _ => rfl
          checked := fun _ => h.checked (Or.inl hPc)
          returned := h.returned
          ended := fun hEq => MaintenancePc.noConfusion hEq
          pending := wakePending_of_not_waiting (by simp) }
  · next hPc =>
      have hFlag : w.reclaimWake = false := h.consumed hPc
      have hRunning : w.shutdown = false := h.checked (Or.inr hPc)
      refine
        { consumed := fun hEq => MaintenancePc.noConfusion hEq
          checked := fun hEq => by rcases hEq with hEq | hEq <;> cases hEq
          returned := h.returned
          ended := fun hEq => MaintenancePc.noConfusion hEq
          pending := fun _ => ⟨fun hSet => ?_, fun hSet => ?_⟩ }
      · rw [show w.reclaimWake = true from hSet] at hFlag
        cases hFlag
      · rw [show w.shutdown = true from hSet] at hRunning
        cases hRunning
  · exact h
  · exact h

theorem inv_stepEvictor (h : Inv w) : Inv (stepEvictor w) := by
  unfold stepEvictor
  split
  · split
    · next hShutdown =>
        exact h.notify.setEvictor (notify_not_waiting w)
          (fun _ => (notify_shutdown w).trans hShutdown)
    · exact h
  · exact h.notify.setEvictor (notify_not_waiting w) (fun hEq => EvictorPc.noConfusion hEq)
  · exact h

theorem inv_step (h : Inv w) (m : Move) (hSeen : SignalSeen w m) : Inv (step w m) := by
  cases m with
  | maintenance => exact inv_stepMaintenance h
  | timeout => exact h.notify
  | evictor => exact inv_stepEvictor h
  | evictorKilled =>
      unfold step
      dsimp only
      split
      · next hLoop =>
          exact
            { consumed := fun hPc => absurd hPc (hSeen hLoop)
              checked := h.checked
              returned := fun hEq => EvictorPc.noConfusion hEq
              ended := h.ended
              pending := fun _ => ⟨fun _ => rfl, fun _ hEq => EvictorPc.noConfusion hEq⟩ }
      · exact h
  | sigterm =>
      refine
        { consumed := h.consumed
          checked := fun hPc => ?_
          returned := fun _ => rfl
          ended := fun _ => rfl
          pending := fun hWaiting => ⟨(h.pending hWaiting).1, fun _ hReturned => ?_⟩ }
      · cases hPc with
        | inl hChecked => exact absurd hChecked hSeen.1
        | inr hWorking => exact absurd hWorking hSeen.2
      · exact (h.pending hWaiting).2 (h.returned hReturned) hReturned

/-- The only way into the wait is from the end of the body. -/
theorem working_of_starts_waiting {m : Move} (hBefore : w.maintenance ≠ .waiting)
    (hAfter : (step w m).maintenance = .waiting) : w.maintenance = .working := by
  cases m with
  | maintenance =>
      have hStep : (stepMaintenance w).maintenance = .waiting := hAfter
      unfold stepMaintenance at hStep
      split at hStep
      · revert hStep
        cases w.shutdown <;> simp
      · cases hStep
      · next hPc => exact hPc
      · next hPc => exact absurd hPc hBefore
      · next hPc => exact absurd hStep hBefore
  | timeout => exact absurd hAfter (notify_not_waiting w)
  | evictor =>
      have hStep : (stepEvictor w).maintenance = .waiting := hAfter
      unfold stepEvictor at hStep
      split at hStep
      · split at hStep
        · exact absurd hStep (notify_not_waiting w)
        · exact absurd hStep hBefore
      · exact absurd hStep (notify_not_waiting w)
      · exact absurd hStep hBefore
  | evictorKilled =>
      unfold step at hAfter
      dsimp only at hAfter
      split at hAfter
      · exact absurd hAfter hBefore
      · exact absurd hAfter hBefore
  | sigterm => exact absurd hAfter hBefore

theorem waitsUnsignalled_of_inv (h : Inv w) (m : Move) : WaitsUnsignalled w m := by
  intro hBefore hAfter
  have hWorking : w.maintenance = .working := working_of_starts_waiting hBefore hAfter
  exact ⟨h.consumed hWorking, h.checked (Or.inr hWorking)⟩

/-- From the top of an iteration that goes on, the flag is consumed in two
steps. -/
theorem killTriggered_of_top (hTop : w.maintenance = .top) (hRunning : w.shutdown = false) :
    (run step w [.maintenance, .maintenance]).killTriggered = w.reclaimWake := by
  simp [step, stepMaintenance, hTop, hRunning]

theorem returned_of_top (hTop : w.maintenance = .top) (hShutdown : w.shutdown = true) :
    (run step w [.maintenance]).maintenance = .returned := by
  simp [step, stepMaintenance, hTop, hShutdown]

/-- A notified thread is at the top of its loop. -/
theorem notify_of_waiting (hWaiting : w.maintenance = .waiting) :
    w.notify.maintenance = .top := by
  simp [World.notify, hWaiting]

theorem Inv.answered (h : Inv w) : Answered w where
  kill := by
    intro hFlag hRunning
    unfold World.untimed
    cases hPc : w.maintenance with
    | top => exact (killTriggered_of_top hPc hRunning).trans hFlag
    | checked => simp [step, stepMaintenance, hPc, hFlag]
    | working =>
        have hClear : w.reclaimWake = false := h.consumed hPc
        rw [hFlag] at hClear
        cases hClear
    | waiting =>
        have hSet : w.evictor = .flagSet := (h.pending hPc).1 hFlag
        have hWoken : step w .evictor = { w.notify with evictor := .loop } := by
          simp [step, stepEvictor, hSet]
        rw [if_pos rfl, run_cons, hWoken]
        have hTop : ({ w.notify with evictor := .loop } : World).maintenance = .top :=
          notify_of_waiting hPc
        have hGoes : ({ w.notify with evictor := .loop } : World).shutdown = false :=
          (notify_shutdown w).trans hRunning
        exact (killTriggered_of_top hTop hGoes).trans ((notify_reclaimWake w).trans hFlag)
    | returned =>
        have hStopped : w.shutdown = true := h.ended hPc
        rw [hRunning] at hStopped
        cases hStopped
  stop := by
    intro hShutdown
    have hBusy : ∀ pc, w.maintenance = pc → pc = .checked ∨ pc = .working → False := by
      intro pc hPc hCase
      have hRunning : w.shutdown = false := h.checked (hPc ▸ hCase)
      rw [hShutdown] at hRunning
      cases hRunning
    unfold World.untimed
    cases hPc : w.maintenance with
    | top => exact returned_of_top hPc hShutdown
    | checked => exact (hBusy _ hPc (Or.inl rfl)).elim
    | working => exact (hBusy _ hPc (Or.inr rfl)).elim
    | waiting =>
        rw [if_pos rfl, run_cons]
        have hTop : (step w .evictor).maintenance = .top ∧ (step w .evictor).shutdown = true := by
          cases hEvictor : w.evictor with
          | loop => simp [step, stepEvictor, hEvictor, hShutdown, notify_of_waiting hPc]
          | flagSet => simp [step, stepEvictor, hEvictor, hShutdown, notify_of_waiting hPc]
          | returned => exact absurd hEvictor ((h.pending hPc).2 hShutdown)
        exact returned_of_top hTop.1 hTop.2
    | returned => simp [step, stepMaintenance, hPc]

/--
**No wake-up is lost** along a run in which no signal falls between the thread's
look at it and its wait: every wait begins unsignalled, and in every state a set
flag is consumed by the next iteration, and a shutdown request ends the thread,
without a wait that has to time out.
-/
theorem no_lost_wakeup_of_signals_seen {moves : List Move}
    (hSeen : EveryStep step SignalSeen World.start moves) :
    EveryStep step WaitsUnsignalled World.start moves ∧
      Always step Answered World.start moves := by
  have hStep : ∀ w m, Inv w → SignalSeen w m → Inv (step w m) := fun _ m h hm => inv_step h m hm
  have hInv : Always step Inv World.start moves := always_of_invariant hStep inv_start hSeen
  have hWaits : EveryStep step WaitsUnsignalled World.start moves :=
    everyStep_of_invariant hStep (fun _ m h _ => waitsUnsignalled_of_inv h m) inv_start hSeen
  exact ⟨hWaits, hInv.imp fun _ h => h.answered⟩

/-- The condition is sharp for the flag: set in the body, it is still set when
the wait begins. -/
theorem waits_signalled_of_killed (hLoop : w.evictor = .loop)
    (hWorking : w.maintenance = .working) :
    ¬ WaitsUnsignalled (step w .evictorKilled) .maintenance := by
  intro hWaits
  have hSet : step w .evictorKilled = { w with reclaimWake := true, evictor := .flagSet } :=
    if_pos hLoop
  rw [hSet] at hWaits
  have hPair := hWaits (by simp [hWorking]) (by simp [step, stepMaintenance, hWorking])
  exact Bool.noConfusion hPair.1

/-- And for a shutdown requested in the body. -/
theorem waits_signalled_of_sigterm (hWorking : w.maintenance = .working) :
    ¬ WaitsUnsignalled (step w .sigterm) .maintenance := by
  intro hWaits
  have hPair := hWaits (by simp [step, hWorking]) (by simp [step, stepMaintenance, hWorking])
  exact Bool.noConfusion hPair.2

end Preservation

/-! ## A kill in the body -/

/-- The evictor kills and notifies while the thread is at work; the thread then
waits. -/
def killDuringWork : List Move :=
  [.maintenance, .maintenance, .evictorKilled, .evictor, .maintenance]

theorem killDuringWork_loses_wakeup :
    ¬ (EveryStep step WaitsUnsignalled World.start killDuringWork ∧
      Always step Answered World.start killDuringWork) := by
  intro hRun
  -- the evictor has nothing more to notify for, and the thread sleeps on
  have hAnswer := hRun.2.last.kill (by decide) (by decide)
  exact absurd hAnswer (by decide)

/-- A kill while the thread waits, and a shutdown at the top of its loop. -/
theorem no_lost_wakeup_of_kill_during_wait :
    EveryStep step WaitsUnsignalled World.start
        [.maintenance, .maintenance, .maintenance, .evictorKilled, .evictor, .maintenance,
          .maintenance, .maintenance, .sigterm, .evictor, .maintenance] ∧
      Always step Answered World.start
        [.maintenance, .maintenance, .maintenance, .evictorKilled, .evictor, .maintenance,
          .maintenance, .maintenance, .sigterm, .evictor, .maintenance] :=
  no_lost_wakeup_of_signals_seen (by decide)

end Mgd.MaintenanceWake
