import Mgd.CalibrationRestart

/-!
# Flushing the calibrator

`flush_calibration` serialises the state, which clears the dirty flag, and only
then writes its two files.  A write that fails is not made up for, for the next
flush finds nothing dirty.

A run is any sequence of samples and flushes, each write with its outcome;
`persisted_iff` says which runs keep what is clean on disk.
-/

namespace Mgd.CalibrationFlush

open Mgd.Lib.Run Mgd.Config.Loading Mgd.Engine.Calibrate Mgd.CalibrationRestart
open Mgd.Calibration (Write)

/-! ## The flush -/

structure Daemon (toml : StateToml) where
  calibrator : Calibrator
  /-- `calibration_state.toml` -/
  stateFile : Option toml.Text
  /-- the suggestion file -/
  suggestionFile : Option String

variable {toml : StateToml}

/-- What a start of the daemon reads from the state file. -/
def loadCalibrator (stateFile : Option toml.Text) : Calibrator :=
  (stateFile.bind (fromToml toml)).getD Calibrator.new

/-- The text of the suggestion is written when the file has another. -/
def writeSuggestion (d : Daemon toml) (rendered : String) (outcome : Write String) : Daemon toml :=
  if d.suggestionFile = some rendered then d
  else { d with suggestionFile := outcome.after rendered }

def flushCalibration (d : Daemon toml) (current : PsiThresholds) (now : Nat)
    (state : Write toml.Text) (suggestion : Write String) : Daemon toml :=
  if d.calibrator.dirty = false then d
  else
    let (calibrator, stateToml) := toToml toml d.calibrator
    let d := { d with calibrator := calibrator, stateFile := state.after stateToml }
    match state, calibrator.suggest with
    | .done, some s => writeSuggestion d (renderSuggestion s current now) suggestion
    | _, _ => d

/-! ## Runs -/

inductive Call (toml : StateToml)
  | observe (someAvg10 fullAvg10 : ℚ) (interventionActive : Bool) (weightSecs : Nat)
  /-- `state` and `suggestion` are the outcomes of the two writes -/
  | flush (current : PsiThresholds) (now : Nat) (state : Write toml.Text)
      (suggestion : Write String)

def isFailed {α : Type} : Write α → Bool
  | .done => false
  | .failed _ => true

/-- A flush of a dirty calibrator attempts a write that fails. -/
def writeFails (d : Daemon toml) (current : PsiThresholds) (now : Nat) (state : Write toml.Text)
    (suggestion : Write String) : Bool :=
  isFailed state ||
    match d.calibrator.suggest with
    | none => false
    | some s =>
        decide (d.suggestionFile ≠ some (renderSuggestion s current now)) &&
          isFailed suggestion

/-- What a flush renders. -/
structure Rendering where
  suggestion : Suggestion
  current : PsiThresholds
  now : Nat

def Rendering.text (r : Rendering) : String := renderSuggestion r.suggestion r.current r.now

/-- The daemon, with what it suggested at the last flush whose writes all went
through. -/
structure Watch (toml : StateToml) where
  daemon : Daemon toml
  lastFlushed : Option Rendering

def step (w : Watch toml) : Call toml → Watch toml
  | .observe someAvg10 fullAvg10 interventionActive weightSecs =>
      { w with
        daemon := { w.daemon with
          calibrator :=
            w.daemon.calibrator.observe someAvg10 fullAvg10 interventionActive weightSecs } }
  | .flush current now state suggestion =>
      { daemon := flushCalibration w.daemon current now state suggestion
        lastFlushed :=
          if w.daemon.calibrator.dirty && !writeFails w.daemon current now state suggestion then
            w.daemon.calibrator.suggest.map fun s => ⟨s, current, now⟩
          else w.lastFlushed }

/-- A daemon as it starts, with what the files hold. -/
def start (stateFile : Option toml.Text) (suggestionFile : Option String) : Watch toml where
  daemon :=
    { calibrator := loadCalibrator stateFile
      stateFile := stateFile
      suggestionFile := suggestionFile }
  lastFlushed := none

/-- A clean calibrator is on disk: the next start reads its state, and the
suggestion file has the rendering of the last flush, if the suggestion is still
the same. -/
structure Persisted (w : Watch toml) : Prop where
  state : w.daemon.calibrator.dirty = false →
    (loadCalibrator w.daemon.stateFile).state = w.daemon.calibrator.state
  suggestion : w.daemon.calibrator.dirty = false → ∀ r ∈ w.lastFlushed,
    w.daemon.calibrator.suggest = some r.suggestion → w.daemon.suggestionFile = some r.text

/-- A flush that fails leaves the calibrator dirty. -/
def Retries (w : Watch toml) : Call toml → Prop
  | .observe .. => True
  | .flush current now state suggestion =>
      w.daemon.calibrator.dirty = true →
        writeFails w.daemon current now state suggestion = true →
          (flushCalibration w.daemon current now state suggestion).calibrator.dirty = true

/-- A flush of a dirty calibrator: the file can hold its state, and no write
fails. -/
def Succeeds (w : Watch toml) : Call toml → Prop
  | .observe .. => True
  | .flush current now state suggestion =>
      w.daemon.calibrator.dirty = true →
        Storable w.daemon.calibrator.state ∧
          writeFails w.daemon current now state suggestion = false

/-! ## One flush -/

section Step

variable {w : Watch toml} {d : Daemon toml} {current : PsiThresholds} {now : Nat}
  {state : Write toml.Text} {suggestion : Write String}

theorem flushCalibration_clean (h : d.calibrator.dirty = false) :
    flushCalibration d current now state suggestion = d := by
  unfold flushCalibration
  rw [if_pos h]

/-- The flag is cleared whatever becomes of the writes. -/
theorem flushCalibration_frame (current : PsiThresholds) (now : Nat) (state : Write toml.Text)
    (suggestion : Write String) (h : d.calibrator.dirty = true) :
    (flushCalibration d current now state suggestion).calibrator =
        { d.calibrator with dirty := false } ∧
      (flushCalibration d current now state suggestion).stateFile =
        state.after (toToml toml d.calibrator).2 := by
  unfold flushCalibration
  rw [if_neg (by rw [h]; decide)]
  dsimp only
  split
  · unfold writeSuggestion
    split <;> exact ⟨rfl, rfl⟩
  · exact ⟨rfl, rfl⟩

/-- The suggestion file after a flush whose writes go through. -/
theorem suggestionFile_of_not_fails {s : Suggestion} (hDirty : d.calibrator.dirty = true)
    (hFails : writeFails d current now state suggestion = false)
    (hSuggest : d.calibrator.suggest = some s) :
    (flushCalibration d current now state suggestion).suggestionFile =
      some (renderSuggestion s current now) := by
  unfold writeFails at hFails
  rw [hSuggest, Bool.or_eq_false_iff] at hFails
  obtain ⟨hState, hSuggestion⟩ := hFails
  have hSame : (toToml toml d.calibrator).1.suggest = some s := hSuggest
  unfold flushCalibration
  rw [if_neg (by rw [hDirty]; decide)]
  dsimp only
  rw [hSame]
  cases state with
  | failed left => cases hState
  | done =>
      dsimp only
      unfold writeSuggestion
      split
      · next hOld => exact hOld
      · next hOther =>
          cases suggestion with
          | failed left =>
              rw [Bool.and_eq_false_iff, decide_eq_false_iff_not, not_not] at hSuggestion
              cases hSuggestion with
              | inl hOld => exact absurd hOld hOther
              | inr hDone => cases hDone
          | done => rfl

/-- What the next start reads of a state that was written. -/
theorem loadCalibrator_written (c : Calibrator) :
    loadCalibrator (some (toToml toml c).2) = reloaded toml c := rfl

/-- The daemon of the feedback runs, which has the state file as it parses. -/
def toFeedback (base : Calibration.Daemon) (d : Daemon toml) : Calibration.Daemon :=
  { base with
    files := { base.files with suggestion := d.suggestionFile }
    saved := d.stateFile.bind toml.fromStr
    calibrator := d.calibrator }

def parsed : Write toml.Text → Write CalibratorState
  | .done => .done
  | .failed left => .failed (left.bind toml.fromStr)

/-- **The flush refines that of the feedback runs**, for a state the file can
hold. -/
theorem flushCalibration_refines (base : Calibration.Daemon)
    (hStorable : Storable d.calibrator.state) :
    toFeedback base (flushCalibration d current now state suggestion) =
      Calibration.flushCalibration (toFeedback base d) current now (parsed state) suggestion := by
  obtain ⟨text, hText⟩ :=
    Option.isSome_iff_exists.mp ((toml.toString_isSome d.calibrator.state).mpr hStorable)
  have hWritten : (toToml toml d.calibrator).2 = text := by
    unfold toToml
    rw [hText]
    rfl
  have hParses : (some text).bind toml.fromStr = some d.calibrator.state :=
    toml.fromStr_toString _ text hText
  cases hDirty : d.calibrator.dirty with
  | false =>
      have hAbstract : (toFeedback base d).calibrator.dirty = false := hDirty
      unfold flushCalibration Calibration.flushCalibration
      rw [if_pos hDirty, if_pos hAbstract]
  | true =>
      have hAbstract : ¬ (toFeedback base d).calibrator.dirty = false := by
        intro hClean
        exact absurd (hDirty.symm.trans hClean) (by decide)
      unfold flushCalibration Calibration.flushCalibration
      rw [if_neg (by rw [hDirty]; decide), if_neg hAbstract]
      cases state with
      | failed left => rfl
      | done =>
          have hSame : (toToml toml d.calibrator).1.suggest = d.calibrator.suggest := rfl
          have hSame' : ({ (toFeedback base d).calibrator with dirty := false } :
              Calibrator).suggest = d.calibrator.suggest := rfl
          dsimp only [parsed, Write.after]
          rw [hSame, hSame', hWritten]
          cases d.calibrator.suggest with
          | none =>
              dsimp only [toFeedback]
              rw [hParses]
              rfl
          | some s =>
              dsimp only [toFeedback]
              unfold writeSuggestion Calibration.writeSuggestion
              dsimp only
              split <;> (dsimp only; rw [hParses]; rfl)

theorem persisted_congr {w' : Watch toml} (h : Persisted w)
    (hDirty : w'.daemon.calibrator.dirty = w.daemon.calibrator.dirty)
    (hState : w'.daemon.calibrator.state = w.daemon.calibrator.state)
    (hFile : w'.daemon.stateFile = w.daemon.stateFile)
    (hSuggestion : w'.daemon.suggestionFile = w.daemon.suggestionFile)
    (hLast : w'.lastFlushed = w.lastFlushed) : Persisted w' where
  state := by
    rw [hDirty, hFile, hState]
    exact h.state
  suggestion := by
    rw [hDirty, hLast, hSuggestion, suggest_congr hState]
    exact h.suggestion

/-- **A sample** leaves what is clean as it was. -/
theorem persisted_observe (h : Persisted w) (someAvg10 fullAvg10 : ℚ) (interventionActive : Bool)
    (weightSecs : Nat) :
    Persisted (step w (.observe someAvg10 fullAvg10 interventionActive weightSecs)) := by
  cases interventionActive with
  | true => exact persisted_congr h rfl rfl rfl rfl rfl
  | false =>
      have hDirty : (step w (.observe someAvg10 fullAvg10 false
          weightSecs)).daemon.calibrator.dirty = true := rfl
      constructor
      · intro hClean
        rw [hDirty] at hClean
        cases hClean
      · intro hClean
        rw [hDirty] at hClean
        cases hClean

/-- **A flush** keeps the promise exactly when nothing fails. -/
theorem persisted_flush_iff (hForm : WellFormed w.daemon.calibrator.state) (h : Persisted w) :
    Persisted (step w (.flush current now state suggestion)) ∧
        Retries w (.flush current now state suggestion) ↔
      Succeeds w (.flush current now state suggestion) := by
  cases hDirty : w.daemon.calibrator.dirty with
  | false =>
      have hFlush : flushCalibration w.daemon current now state suggestion = w.daemon :=
        flushCalibration_clean hDirty
      have hSame : step w (.flush current now state suggestion) = w := by
        unfold step
        dsimp only
        rw [hFlush, hDirty]
        rfl
      rw [hSame]
      unfold Retries Succeeds
      dsimp only
      rw [hDirty]
      exact iff_of_true ⟨h, nofun⟩ nofun
  | true =>
      obtain ⟨hCalibrator, hFile⟩ := flushCalibration_frame current now state suggestion hDirty
      -- what the next start reads, when the state is written
      have hRead : isFailed state = false →
          loadCalibrator (flushCalibration w.daemon current now state suggestion).stateFile =
            reloaded toml w.daemon.calibrator := by
        intro hDone
        rw [hFile]
        cases state with
        | done => exact loadCalibrator_written w.daemon.calibrator
        | failed left => cases hDone
      constructor
      · rintro ⟨hPersisted, hRetries⟩
        intro _
        have hNotFails : writeFails w.daemon current now state suggestion = false := by
          by_contra hFails
          have hStill := hRetries hDirty (Bool.not_eq_false _ ▸ hFails)
          rw [hCalibrator] at hStill
          cases hStill
        refine ⟨?_, hNotFails⟩
        by_contra hUnstorable
        have hState : (loadCalibrator (flushCalibration w.daemon current now state
            suggestion).stateFile).state =
              (flushCalibration w.daemon current now state suggestion).calibrator.state :=
          hPersisted.state (congrArg Calibrator.dirty hCalibrator)
        rw [hRead (Bool.or_eq_false_iff.mp hNotFails).1, reloaded_of_not_storable hUnstorable,
          hCalibrator] at hState
        apply hUnstorable
        rw [← show CalibratorState.default = w.daemon.calibrator.state from hState]
        exact storable_default
      · intro hSucceeds
        obtain ⟨hStorable, hFails⟩ := hSucceeds hDirty
        refine ⟨⟨fun _ => ?_, fun _ r hr hSuggest => ?_⟩, fun _ hFailed => ?_⟩
        · show (loadCalibrator (flushCalibration w.daemon current now state
            suggestion).stateFile).state =
              (flushCalibration w.daemon current now state suggestion).calibrator.state
          rw [hRead (Bool.or_eq_false_iff.mp hFails).1, reloaded_of_storable hForm hStorable,
            hCalibrator]
        · unfold step at hr
          dsimp only at hr
          rw [hDirty, hFails, Bool.not_false, Bool.and_true, if_pos rfl] at hr
          obtain ⟨s, hs, rfl⟩ := Option.map_eq_some_iff.mp hr
          exact suggestionFile_of_not_fails hDirty hFails hs
        · rw [hFails] at hFailed
          cases hFailed

end Step

/-! ## Runs -/

theorem wellFormed_step {w : Watch toml} (h : WellFormed w.daemon.calibrator.state)
    (c : Call toml) : WellFormed (step w c).daemon.calibrator.state := by
  cases c with
  | observe someAvg10 fullAvg10 interventionActive weightSecs =>
      exact wellFormed_observe h someAvg10 fullAvg10 interventionActive weightSecs
  | flush current now state suggestion =>
      show WellFormed (flushCalibration w.daemon current now state suggestion).calibrator.state
      cases hDirty : w.daemon.calibrator.dirty with
      | false => rw [flushCalibration_clean hDirty]; exact h
      | true => rw [(flushCalibration_frame current now state suggestion hDirty).1]; exact h

theorem persisted_step_iff {w : Watch toml} (hForm : WellFormed w.daemon.calibrator.state)
    (h : Persisted w) (c : Call toml) :
    Persisted (step w c) ∧ Retries w c ↔ Succeeds w c := by
  cases c with
  | observe someAvg10 fullAvg10 interventionActive weightSecs =>
      exact iff_of_true ⟨persisted_observe h .., trivial⟩ trivial
  | flush current now state suggestion => exact persisted_flush_iff hForm h

theorem persisted_run_iff {w : Watch toml} (hForm : WellFormed w.daemon.calibrator.state)
    (h : Persisted w) (calls : List (Call toml)) :
    Always step Persisted w calls ∧ EveryStep step Retries w calls ↔
      EveryStep step Succeeds w calls := by
  induction calls generalizing w with
  | nil => exact iff_of_true ⟨h, trivial⟩ trivial
  | cons c rest ih =>
      have hHere := persisted_step_iff hForm h c
      have hForm' := wellFormed_step hForm c
      constructor
      · rintro ⟨⟨-, hAlways⟩, hRetries, hLater⟩
        have hStep := hHere.mp ⟨hAlways.head, hRetries⟩
        exact ⟨hStep, (ih hForm' hAlways.head).mp ⟨hAlways, hLater⟩⟩
      · rintro ⟨hStep, hLater⟩
        obtain ⟨hPersisted, hRetries⟩ := hHere.mpr hStep
        obtain ⟨hAlways, hRest⟩ := (ih hForm' hPersisted).mpr hLater
        exact ⟨⟨h, hAlways⟩, hRetries, hRest⟩

/-- A start reads a state with histograms of the right width. -/
theorem wellFormed_loadCalibrator (stateFile : Option toml.Text) :
    WellFormed (loadCalibrator stateFile).state := by
  unfold loadCalibrator fromToml
  cases hRead : stateFile.bind fun text => (toml.fromStr text).map Calibrator.fromState with
  | none => exact wellFormed_default
  | some c =>
      obtain ⟨text, -, hParsed⟩ := Option.bind_eq_some_iff.mp hRead
      obtain ⟨st, -, rfl⟩ := Option.map_eq_some_iff.mp hParsed
      exact wellFormed_fromState st

/-- **What is clean is on disk, and what fails is tried again**, in exactly the
runs in which nothing fails. -/
theorem persisted_iff (stateFile : Option toml.Text) (suggestionFile : Option String)
    (calls : List (Call toml)) :
    Always step Persisted (start stateFile suggestionFile) calls ∧
        EveryStep step Retries (start stateFile suggestionFile) calls ↔
      EveryStep step Succeeds (start stateFile suggestionFile) calls :=
  persisted_run_iff (wellFormed_loadCalibrator stateFile) 
    ⟨fun _ => rfl, fun _ r hr => absurd hr (Option.not_mem_none r)⟩ calls

/-- A sample, and a flush on a full disk. -/
def fullDisk : List (Call plainToml) :=
  [.observe 3 0 false 5, .flush PsiThresholds.default 1700000000 (.failed none) .done]

/-- **The sample is lost**: nothing is on disk and nothing is dirty. -/
theorem failed_flush_is_clean :
    ¬ Always step Persisted (start none none) fullDisk := by
  intro h
  have hClean : (run step (start none none) fullDisk).daemon.calibrator.dirty = false := by
    decide +kernel
  have hState := h.last.state hClean
  exact absurd hState (by decide +kernel)

end Mgd.CalibrationFlush
