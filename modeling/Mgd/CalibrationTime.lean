import Mgd.Calibration

/-!
# The seconds of the calibrator

The evictor and the maintenance thread feed one calibrator.  A cycle of the
evictor counts five seconds, a calm iteration of the maintenance loop sixty,
whatever time has passed since the sample before, and neither thread knows of
the samples of the other.

`World.running` is the time for which the daemon has run since the state was
empty.  Clock readings are nanoseconds of a clock that stands still while the
daemon is down.  The daemon itself, its files and its flushes are those of
`Calibration`.
-/

namespace Mgd.CalibrationTime

open Mgd.Types Mgd.Lib.Run Mgd.Config.Loading Mgd.Engine.Calibrate Mgd.Calibration
open Mgd.Monitor (MemoryPressure PressureLevel)

/-! ## The threads -/

/-- `POLL_SECS` -/
def pollSecs : Nat := 60

def calibrationFlushSecs : Nat := 600

/-- Seconds of the evictor's waits and sleeps, and the weight of its samples. -/
def cycleSecs : Nat := 5

inductive EvictorPc
  | loop
  /-- Waits for the PSI trigger. -/
  | polling (since : Instant)
  /-- Sleeps before a cycle. -/
  | sleeping (since : Instant)
  /-- About to read PSI. -/
  | reading
  /-- Sleeps after PSI could not be read. -/
  | retrying (since : Instant)
deriving DecidableEq

inductive MaintenancePc
  | top
  /-- PSI and the configuration are read. -/
  | working (cycleStart : Instant) (pressure : Option MemoryPressure) (psi : PsiThresholds)
  | flushing (cycleStart : Instant) (psi : PsiThresholds)
  | waiting (deadline : Instant)

structure World where
  daemon : Calibration.Daemon
  running : Duration
  /-- `running` at the last sample that counted. -/
  lastCounted : Duration
  lastLevel : PressureLevel
  evictor : EvictorPc
  maintenance : MaintenancePc
  lastFlush : Instant

/-- What becomes of the state file. -/
inductive StateWrite
  | done
  /-- It could not be opened, and keeps what it held. -/
  | notOpened
  /-- The write was cut short, and nothing that parses is left. -/
  | cut
deriving DecidableEq

def StateWrite.outcome (saved : Option CalibratorState) : StateWrite → Write CalibratorState
  | done => .done
  | notOpened => .failed saved
  | cut => .failed none

/-- The calibration flushed: at which Unix time, and how the writes went. -/
structure Flush where
  now : Nat
  state : StateWrite
  suggestion : Write String

inductive Move
  | pass (d : Duration)
  /-- The evictor goes to its wait; `trigger` when a PSI trigger is armed. -/
  | evictorWait (trigger : Bool)
  /-- The trigger fires, or its helper dies. -/
  | psiEvent
  /-- The evictor's wait or sleep runs out. -/
  | evictorTimeout
  /-- A full cycle, up to the level it ends with; no pressure when PSI cannot be
  read. -/
  | evictorCycle (pressure : Option MemoryPressure) (interventionActive : Bool)
      (level : PressureLevel)
  | maintenanceTop (pressure : Option MemoryPressure)
  | maintenanceObserve (interventionActive : Bool)
  | maintenanceFlush (flush : Flush)
  /-- The minute of the maintenance thread is over. -/
  | maintenanceTimeout
  /-- The evictor has killed and notifies, or the wait ends spuriously. -/
  | maintenanceNotified
  | reload
  /-- The daemon ends, with a flush when it is asked to, and starts again. -/
  | restart (exit : Option Flush)

section Steps

variable (toml : Toml)

/-- An event of the daemon. -/
def World.event (w : World) (e : Event) : World :=
  { w with daemon := Calibration.step toml w.daemon e }

def World.flush (w : World) (current : PsiThresholds) (f : Flush) : World :=
  w.event toml (.flush current f.now (f.state.outcome w.daemon.saved) f.suggestion)

/-- The time a sleep or a wait of the evictor that began then is over. -/
def evictorDue (since : Instant) : Instant := since + Instant.ofSecs cycleSecs

def stepEvictorTimeout (w : World) : World :=
  match w.evictor with
  | .polling since => if evictorDue since ≤ w.running then { w with evictor := .loop } else w
  | .sleeping since => if evictorDue since ≤ w.running then { w with evictor := .reading } else w
  | .retrying since => if evictorDue since ≤ w.running then { w with evictor := .loop } else w
  | .loop | .reading => w

/-- A sample; it counts unless the daemon intervenes. -/
def World.sample (w : World) (p : MemoryPressure) (interventionActive : Bool)
    (weightSecs : Nat) : World :=
  { w.event toml (.observe p.someAvg10 p.fullAvg10 interventionActive weightSecs) with
    lastCounted := if interventionActive then w.lastCounted else w.running }

def stepEvictorCycle (w : World) (pressure : Option MemoryPressure) (interventionActive : Bool)
    (level : PressureLevel) : World :=
  match w.evictor, pressure with
  | .reading, none => { w with evictor := .retrying w.running }
  | .reading, some p =>
      { w.sample toml p interventionActive cycleSecs with lastLevel := level, evictor := .loop }
  | _, _ => w

def stepMaintenanceObserve (w : World) (interventionActive : Bool) : World :=
  match w.maintenance with
  | .working cycleStart (some p) psi =>
      if pressureLevelWith p psi = .normal then
        { w.sample toml p interventionActive pollSecs with
          maintenance := .flushing cycleStart psi }
      else { w with maintenance := .flushing cycleStart psi }
  | .working cycleStart none psi => { w with maintenance := .flushing cycleStart psi }
  | _ => w

def stepMaintenanceFlush (w : World) (f : Flush) : World :=
  match w.maintenance with
  | .flushing cycleStart psi =>
      let spent := Instant.secsSince w.running cycleStart
      let wait : MaintenancePc := .waiting (w.running + Instant.ofSecs (pollSecs - spent))
      if calibrationFlushSecs ≤ Instant.secsSince w.running w.lastFlush then
        { w.flush toml psi f with maintenance := wait, lastFlush := w.running }
      else { w with maintenance := wait }
  | _ => w

/-- The threads as they start; the time counts from here when the state is
empty. -/
def World.boot (d : Calibration.Daemon) (running lastCounted : Duration) : World :=
  let fresh := decide (d.calibrator.state = CalibratorState.default)
  { daemon := d
    running := if fresh then 0 else running
    lastCounted := if fresh then 0 else lastCounted
    lastLevel := .normal
    evictor := .loop
    maintenance := .top
    lastFlush := if fresh then 0 else running }

def step (w : World) : Move → World
  | .pass d => { w with running := w.running + d }
  | .evictorWait trigger =>
      if w.evictor = .loop then
        { w with
          evictor :=
            if w.lastLevel = .normal ∧ trigger = true then .polling w.running
            else .sleeping w.running }
      else w
  | .psiEvent =>
      match w.evictor with
      | .polling _ => { w with evictor := .reading }
      | _ => w
  | .evictorTimeout => stepEvictorTimeout w
  | .evictorCycle pressure interventionActive level =>
      stepEvictorCycle toml w pressure interventionActive level
  | .maintenanceTop pressure =>
      match w.maintenance with
      | .top => { w with maintenance := .working w.running pressure w.daemon.psi }
      | _ => w
  | .maintenanceObserve interventionActive => stepMaintenanceObserve toml w interventionActive
  | .maintenanceFlush f => stepMaintenanceFlush toml w f
  | .maintenanceTimeout =>
      match w.maintenance with
      | .waiting deadline =>
          if deadline ≤ w.running then { w with maintenance := .top } else w
      | _ => w
  | .maintenanceNotified =>
      match w.maintenance with
      | .waiting _ => { w with maintenance := .top }
      | _ => w
  | .reload => w.event toml .reload
  | .restart exit =>
      let w :=
        match exit with
        | none => w
        | some f => w.flush toml w.daemon.psi f
      World.boot (Calibration.boot toml w.daemon.files w.daemon.saved) w.running w.lastCounted

/-- The first start of the daemon. -/
def World.start (files : ConfigFiles) : World := World.boot (Calibration.boot toml files none) 0 0

end Steps

/-! ## What the seconds promise -/

/-- The seconds of a state, and those of its histograms, fit in a time. -/
structure Metered (st : CalibratorState) (t : Duration) : Prop where
  observed : Instant.ofSecs st.observedSecs ≤ t
  masses : Instant.ofSecs (st.benignSecs.sum + st.stallSecs.sum) ≤ t
  full : Instant.ofSecs st.fullSecs.sum ≤ t

/-- Calibration time is time for which the daemon has run since the state was
empty. -/
structure RealTime (w : World) : Prop where
  metered : Metered w.daemon.calibrator.state w.running
  /-- Who suggests has run for a day. -/
  gate : ∀ s, w.daemon.calibrator.suggest = some s → Instant.ofSecs minObservedSecs ≤ w.running

/-- The verdict of the maintenance thread for its sample. -/
def MaintenancePc.calm : MaintenancePc → Bool
  | .working _ (some p) psi => decide (pressureLevelWith p psi = .normal)
  | .working _ none _ | .top | .flushing .. | .waiting _ => false

/-- Seconds the step counts. -/
def counted (w : World) : Move → Nat
  | .evictorCycle (some _) false _ => if w.evictor = .reading then cycleSecs else 0
  | .maintenanceObserve false => if w.maintenance.calm = true then pollSecs else 0
  | _ => 0

/-- A sample that counts comes at least its weight after the one before it, or
after the start. -/
def Spaced (w : World) (m : Move) : Prop :=
  0 < counted w m → w.lastCounted + Instant.ofSecs (counted w m) ≤ w.running

instance (w : World) (m : Move) : Decidable (Spaced w m) := inferInstanceAs (Decidable (_ → _))

/-! ## One sample -/

theorem addAt_sum_le (hist : List Nat) (i secs : Nat) :
    (addAt hist i secs).sum ≤ hist.sum + secs := by
  unfold addAt
  induction hist generalizing i with
  | nil => simp
  | cons n rest ih =>
      cases i with
      | zero =>
          have hMin : min (n + secs) u64Max ≤ n + secs := Nat.min_le_left _ _
          simp only [List.modify_zero_cons, List.sum_cons]
          omega
      | succ i =>
          have hRest := ih i
          simp only [List.modify_succ_cons, List.sum_cons]
          omega

theorem ofSecs_add (a b : Nat) : Instant.ofSecs (a + b) = Instant.ofSecs a + Instant.ofSecs b :=
  Nat.add_mul a b nanosPerSec

theorem ofSecs_mono {a b : Nat} (h : a ≤ b) : Instant.ofSecs a ≤ Instant.ofSecs b :=
  Nat.mul_le_mul_right nanosPerSec h

theorem Metered.mono {st : CalibratorState} {t t' : Duration} (h : Metered st t) (hle : t ≤ t') :
    Metered st t' where
  observed := le_trans h.observed hle
  masses := le_trans h.masses hle
  full := le_trans h.full hle

theorem metered_default (t : Duration) : Metered CalibratorState.default t where
  observed := Nat.zero_le t
  masses := le_trans (le_of_eq (by decide)) (Nat.zero_le t)
  full := le_trans (le_of_eq (by decide)) (Nat.zero_le t)

/-- A bound on seconds, `weight` of them later. -/
theorem ofSecs_le_of_spaced {n n' weight : Nat} {t t' : Duration} (h : Instant.ofSecs n ≤ t)
    (hLater : t + Instant.ofSecs weight ≤ t') (hn : n' ≤ n + weight) : Instant.ofSecs n' ≤ t' :=
  calc Instant.ofSecs n' ≤ Instant.ofSecs (n + weight) := ofSecs_mono hn
    _ = Instant.ofSecs n + Instant.ofSecs weight := ofSecs_add n weight
    _ ≤ t + Instant.ofSecs weight := Nat.add_le_add_right h _
    _ ≤ t' := hLater

/-- A sample that counts, `weight` seconds after the time of the state. -/
theorem metered_observe {c : Calibrator} {t t' : Duration} {weight : Nat}
    (h : Metered c.state t) (hLater : t + Instant.ofSecs weight ≤ t') (someAvg10 fullAvg10 : ℚ) :
    Metered (c.observe someAvg10 fullAvg10 false weight).state t' := by
  have hObserved : min (c.state.observedSecs + weight) u64Max ≤ c.state.observedSecs + weight :=
    Nat.min_le_left _ _
  unfold Calibrator.observe
  dsimp only
  rw [if_neg Bool.false_ne_true]
  split
  · have hStall := addAt_sum_le c.state.stallSecs (bin someAvg10) weight
    have hFull := addAt_sum_le c.state.fullSecs (bin fullAvg10) weight
    exact
      { observed := ofSecs_le_of_spaced h.observed hLater hObserved
        masses := ofSecs_le_of_spaced h.masses hLater (by dsimp only; omega)
        full := ofSecs_le_of_spaced h.full hLater hFull }
  · have hBenign := addAt_sum_le c.state.benignSecs (bin someAvg10) weight
    exact
      { observed := ofSecs_le_of_spaced h.observed hLater hObserved
        masses := ofSecs_le_of_spaced h.masses hLater (by dsimp only; omega)
        full := ofSecs_le_of_spaced h.full hLater (Nat.le_add_right _ _) }

theorem observedSecs_observe (c : Calibrator) (someAvg10 fullAvg10 : ℚ) (weight : Nat) :
    (c.observe someAvg10 fullAvg10 false weight).state.observedSecs =
      min (c.state.observedSecs + weight) u64Max := by
  unfold Calibrator.observe
  dsimp only
  rw [if_neg Bool.false_ne_true]
  split <;> rfl

theorem metered_loadCalibrator {st : CalibratorState} {t : Duration} (h : Metered st t) :
    Metered (loadCalibrator (some st)).state t := by
  unfold loadCalibrator
  dsimp only
  unfold Calibrator.fromState
  split
  · exact metered_default t
  · exact h

/-- Who suggests has observed for a day. -/
theorem observedSecs_of_suggest {c : Calibrator} {s : Suggestion} (h : c.suggest = some s) :
    minObservedSecs ≤ c.state.observedSecs := by
  unfold Calibrator.suggest at h
  dsimp only at h
  split at h
  · cases h
  · next hGates =>
      rw [not_or] at hGates
      exact Nat.not_lt.mp hGates.1

/-! ## The invariant -/

/-- The seconds fit in the time up to the last sample that counted, those a
restart would load included. -/
structure Inv (w : World) : Prop where
  calibrator : Metered w.daemon.calibrator.state w.lastCounted
  saved : Metered (loadCalibrator w.daemon.saved).state w.lastCounted
  past : w.lastCounted ≤ w.running

section Preservation

variable {toml : Toml} {w : World}

theorem realTime_of_inv (h : Inv w) : RealTime w where
  metered := h.calibrator.mono h.past
  gate := fun _ hSuggest =>
    calc Instant.ofSecs minObservedSecs
        ≤ Instant.ofSecs w.daemon.calibrator.state.observedSecs :=
          ofSecs_mono (observedSecs_of_suggest hSuggest)
      _ ≤ w.lastCounted := h.calibrator.observed
      _ ≤ w.running := h.past

/-- The threads move and the daemon stays. -/
theorem Inv.of_same (h : Inv w) {w' : World} (hDaemon : w'.daemon = w.daemon)
    (hCounted : w'.lastCounted = w.lastCounted) (hRunning : w'.running = w.running) : Inv w' where
  calibrator := by rw [hDaemon, hCounted]; exact h.calibrator
  saved := by rw [hDaemon, hCounted]; exact h.saved
  past := by rw [hCounted, hRunning]; exact h.past

/-- A start of the daemon, from files that fit. -/
theorem inv_boot {files : ConfigFiles} {saved : Option CalibratorState}
    {running lastCounted : Duration} (hSaved : Metered (loadCalibrator saved).state lastCounted)
    (hPast : lastCounted ≤ running) :
    Inv (World.boot (Calibration.boot toml files saved) running lastCounted) := by
  unfold World.boot
  by_cases hFresh : (loadCalibrator saved).state = CalibratorState.default
  · have hEmpty : Metered (loadCalibrator saved).state 0 := hFresh ▸ metered_default 0
    simp only [Calibration.boot, hFresh, decide_true, if_true]
    exact { calibrator := hEmpty, saved := hEmpty, past := le_refl 0 }
  · simp only [Calibration.boot, hFresh, decide_false, Bool.false_eq_true, if_false]
    exact { calibrator := hSaved, saved := hSaved, past := hPast }

theorem inv_start (toml : Toml) (files : ConfigFiles) : Inv (World.start toml files) :=
  inv_boot (metered_default 0) (le_refl 0)

/-- A flush leaves the state, and saves it or what was saved or nothing. -/
theorem flushCalibration_saved (d : Calibration.Daemon) (current : PsiThresholds) (now : Nat)
    (state : StateWrite) (suggestion : Write String) :
    (flushCalibration d current now (state.outcome d.saved) suggestion).calibrator.state =
        d.calibrator.state ∧
      ((flushCalibration d current now (state.outcome d.saved) suggestion).saved = d.saved ∨
        (flushCalibration d current now (state.outcome d.saved) suggestion).saved =
          some d.calibrator.state ∨
        (flushCalibration d current now (state.outcome d.saved) suggestion).saved = none) := by
  unfold flushCalibration
  split
  · exact ⟨rfl, Or.inl rfl⟩
  · cases state with
    | done =>
        dsimp only
        split
        · exact ⟨rfl, Or.inr (Or.inl rfl)⟩
        · exact ⟨rfl, Or.inr (Or.inl rfl)⟩
    | notOpened => exact ⟨rfl, Or.inl rfl⟩
    | cut => exact ⟨rfl, Or.inr (Or.inr rfl)⟩

theorem Inv.flush (toml : Toml) (h : Inv w) (current : PsiThresholds) (f : Flush) :
    Inv (w.flush toml current f) := by
  obtain ⟨hState, hSaved⟩ :=
    flushCalibration_saved w.daemon current f.now f.state f.suggestion
  refine { calibrator := ?_, saved := ?_, past := h.past }
  · show Metered (flushCalibration w.daemon current f.now _ f.suggestion).calibrator.state _
    rw [hState]
    exact h.calibrator
  · show Metered (loadCalibrator
      (flushCalibration w.daemon current f.now _ f.suggestion).saved).state _
    rcases hSaved with hOld | hNew | hNone
    · rw [hOld]
      exact h.saved
    · rw [hNew]
      exact metered_loadCalibrator h.calibrator
    · rw [hNone]
      exact metered_default _

/-- A sample that is spaced, or does not count. -/
theorem Inv.sample (h : Inv w) (p : MemoryPressure) {interventionActive : Bool} {weight : Nat}
    (hSpaced : interventionActive = false →
      w.lastCounted + Instant.ofSecs weight ≤ w.running) :
    Inv (w.sample toml p interventionActive weight) := by
  cases interventionActive with
  | true => exact { calibrator := h.calibrator, saved := h.saved, past := h.past }
  | false =>
      exact
        { calibrator := metered_observe h.calibrator (hSpaced rfl) p.someAvg10 p.fullAvg10
          saved := h.saved.mono h.past
          past := le_refl _ }

theorem inv_evictorCycle (h : Inv w) (pressure : Option MemoryPressure)
    (interventionActive : Bool) (level : PressureLevel)
    (hSpaced : Spaced w (.evictorCycle pressure interventionActive level)) :
    Inv (stepEvictorCycle toml w pressure interventionActive level) := by
  unfold stepEvictorCycle
  split
  · exact h.of_same rfl rfl rfl
  · next p hReading =>
      have hSample : Inv (w.sample toml p interventionActive cycleSecs) := by
        refine h.sample p fun hCounts => ?_
        have hFive : counted w (.evictorCycle (some p) interventionActive level) = cycleSecs := by
          rw [hCounts]
          exact if_pos hReading
        have hLater := hSpaced (by rw [hFive]; decide)
        rw [hFive] at hLater
        exact hLater
      exact hSample.of_same rfl rfl rfl
  · exact h

theorem inv_maintenanceObserve (h : Inv w) (interventionActive : Bool)
    (hSpaced : Spaced w (.maintenanceObserve interventionActive)) :
    Inv (stepMaintenanceObserve toml w interventionActive) := by
  unfold stepMaintenanceObserve
  split
  · next cycleStart p psi hWorking =>
      split
      · next hCalm =>
          have hSample : Inv (w.sample toml p interventionActive pollSecs) := by
            refine h.sample p fun hCounts => ?_
            have hVerdict : w.maintenance.calm = true := by
              rw [hWorking]
              exact decide_eq_true hCalm
            have hMinute : counted w (.maintenanceObserve interventionActive) = pollSecs := by
              rw [hCounts]
              exact if_pos hVerdict
            have hLater := hSpaced (by rw [hMinute]; decide)
            rw [hMinute] at hLater
            exact hLater
          exact hSample.of_same rfl rfl rfl
      · exact h.of_same rfl rfl rfl
  · exact h.of_same rfl rfl rfl
  · exact h

theorem inv_maintenanceFlush (h : Inv w) (f : Flush) : Inv (stepMaintenanceFlush toml w f) := by
  unfold stepMaintenanceFlush
  split
  · next cycleStart psi hFlushing =>
      dsimp only
      split
      · exact (h.flush toml psi f).of_same rfl rfl rfl
      · exact h.of_same rfl rfl rfl
  · exact h

theorem inv_evictorTimeout (h : Inv w) : Inv (stepEvictorTimeout w) := by
  unfold stepEvictorTimeout
  split
  · split
    · exact h.of_same rfl rfl rfl
    · exact h
  · split
    · exact h.of_same rfl rfl rfl
    · exact h
  · split
    · exact h.of_same rfl rfl rfl
    · exact h
  · exact h
  · exact h

theorem inv_restart (h : Inv w) (exit : Option Flush) : Inv (step toml w (.restart exit)) := by
  unfold step
  cases exit with
  | none => exact inv_boot h.saved h.past
  | some f =>
      have hFlushed : Inv (w.flush toml w.daemon.psi f) := h.flush toml w.daemon.psi f
      exact inv_boot hFlushed.saved hFlushed.past

theorem inv_step (h : Inv w) (m : Move) (hSpaced : Spaced w m) : Inv (step toml w m) := by
  cases m with
  | pass d =>
      exact
        { calibrator := h.calibrator
          saved := h.saved
          past := le_trans h.past (Nat.le_add_right w.running d) }
  | evictorCycle pressure interventionActive level =>
      exact inv_evictorCycle h pressure interventionActive level hSpaced
  | maintenanceObserve interventionActive =>
      exact inv_maintenanceObserve h interventionActive hSpaced
  | maintenanceFlush f => exact inv_maintenanceFlush h f
  | evictorTimeout => exact inv_evictorTimeout h
  | restart exit => exact inv_restart h exit
  | reload => exact { calibrator := h.calibrator, saved := h.saved, past := h.past }
  | evictorWait trigger =>
      unfold step
      dsimp only
      split
      · exact h.of_same rfl rfl rfl
      · exact h
  | psiEvent =>
      unfold step
      dsimp only
      split
      · exact h.of_same rfl rfl rfl
      · exact h
  | maintenanceTop pressure =>
      unfold step
      dsimp only
      split
      · exact h.of_same rfl rfl rfl
      · exact h
  | maintenanceTimeout =>
      unfold step
      dsimp only
      split
      · split
        · exact h.of_same rfl rfl rfl
        · exact h
      · exact h
  | maintenanceNotified =>
      unfold step
      dsimp only
      split
      · exact h.of_same rfl rfl rfl
      · exact h

end Preservation

/--
**Calibration time is real time** along a run in which every sample that counts,
of either thread, comes at least its weight after the one before it, or after
the state was empty; whatever wakes the threads, and over restarts.
-/
theorem realTime_of_spaced (toml : Toml) (files : ConfigFiles) {moves : List Move}
    (hSpaced : EveryStep (step toml) Spaced (World.start toml files) moves) :
    Always (step toml) RealTime (World.start toml files) moves := by
  have hInv : Always (step toml) Inv (World.start toml files) moves :=
    always_of_invariant (fun _ m h hm => inv_step h m hm) (inv_start toml files) hSpaced
  exact hInv.imp fun _ h => realTime_of_inv h

/-! ## Seconds that did not pass -/

/-- A step that counts adds its seconds, and takes no time. -/
theorem observedSecs_of_counted (toml : Toml) {w : World} {m : Move} (hCounts : 0 < counted w m) :
    (step toml w m).daemon.calibrator.state.observedSecs =
        min (w.daemon.calibrator.state.observedSecs + counted w m) u64Max ∧
      (step toml w m).running = w.running := by
  unfold counted at hCounts
  split at hCounts
  · next p level =>
      split at hCounts
      · next hReading =>
          have hFive : counted w (.evictorCycle (some p) false level) = cycleSecs :=
            if_pos hReading
          rw [hFive]
          unfold step stepEvictorCycle
          simp only [hReading]
          exact ⟨observedSecs_observe _ p.someAvg10 p.fullAvg10 _, rfl⟩
      · cases hCounts
  · split at hCounts
    · next hCalm =>
        have hMinute : counted w (.maintenanceObserve false) = pollSecs := if_pos hCalm
        rw [hMinute]
        unfold MaintenancePc.calm at hCalm
        split at hCalm
        · next p psi hWorking =>
            unfold step stepMaintenanceObserve
            simp only [hWorking, of_decide_eq_true hCalm, if_true]
            exact ⟨observedSecs_observe _ p.someAvg10 p.fullAvg10 _, rfl⟩
        all_goals cases hCalm
    · cases hCounts
  · cases hCounts

/-- The condition is sharp: once every second is accounted for, a sample that
comes too early counts time that has not passed. -/
theorem overcounts_of_unspaced {toml : Toml} {w : World} {m : Move}
    (hFull : Instant.ofSecs w.daemon.calibrator.state.observedSecs = w.lastCounted)
    (hRoom : w.daemon.calibrator.state.observedSecs + counted w m ≤ u64Max)
    (hEarly : ¬ Spaced w m) : ¬ RealTime (step toml w m) := by
  intro hReal
  unfold Spaced at hEarly
  obtain ⟨hCounts, hSoon⟩ := Classical.not_imp.mp hEarly
  obtain ⟨hSecs, hRunning⟩ := observedSecs_of_counted toml hCounts
  have hMetered := hReal.metered.observed
  rw [hSecs, Nat.min_eq_left hRoom, ofSecs_add, hFull, hRunning] at hMetered
  exact hSoon hMetered

/-- The first iteration of the maintenance loop, as the daemon starts. -/
def firstIteration : List Move := [.maintenanceTop (some ⟨0, 0⟩), .maintenanceObserve false]

/-- A calm minute is counted at the very start. -/
theorem firstIteration_counts_a_minute :
    ¬ ∀ (toml : Toml) (files : ConfigFiles) (moves : List Move),
      Always (step toml) RealTime (World.start toml files) moves := by
  intro hAll
  have hLast := (hAll seededToml freshFiles firstIteration).last.metered.observed
  have hMinute : (run (step seededToml) (World.start seededToml freshFiles)
      firstIteration).daemon.calibrator.state.observedSecs = 60 := by
    decide +kernel
  have hStart : (run (step seededToml) (World.start seededToml freshFiles)
      firstIteration).running = 0 := by
    decide +kernel
  rw [hMinute, hStart] at hLast
  exact absurd hLast (by decide)

/-- A start under pressure, a calm minute, and a pressure event five seconds
later. -/
theorem pressureThenCalm_realTime :
    Always (step seededToml) RealTime (World.start seededToml freshFiles)
      [.evictorWait true, .maintenanceTop (some ⟨30, 0⟩), .maintenanceObserve false,
        .maintenanceFlush ⟨1700000000, .done, .done⟩, .pass (Instant.ofSecs 60),
        .maintenanceTimeout, .maintenanceTop (some ⟨1, 0⟩), .maintenanceObserve false,
        .pass (Instant.ofSecs 5), .psiEvent, .evictorCycle (some ⟨12, 2⟩) false .elevated,
        .restart (some ⟨1700000065, .done, .done⟩)] :=
  realTime_of_spaced seededToml freshFiles (by decide +kernel)

end Mgd.CalibrationTime
