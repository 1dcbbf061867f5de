import Mgd.Engine.Calibrate
import Mgd.Lib.Run

/-!
# The calibration feedback

What the calibrator observes reaches its files in `flush_calibration`, and
`load` overlays the suggestion file on the configuration.  So the daemon can
retune itself, which the calibrator's own documentation rules out.

A run here is what happens to the calibrator, its two files and the thresholds
in force: samples, flushes, reloads of the configuration and restarts of the
daemon.  `inForce_iff` says which runs keep to the configured thresholds.
-/

namespace Mgd.Calibration

open Mgd.Types Mgd.Lib.Run Mgd.Config.Loading Mgd.Engine.Calibrate

/-! ## The daemon and its files -/

structure Daemon where
  files : ConfigFiles
  /-- `calibration_state.toml`, as it parses -/
  saved : Option CalibratorState
  /-- the `[psi]` thresholds of the configuration in force -/
  psi : PsiThresholds
  calibrator : Calibrator

/-- The outcome of `fs::write`; a failed write may leave anything behind. -/
inductive Write (α : Type)
  | done
  | failed (left : Option α)

/-- What is in the file after the write. -/
def Write.after {α : Type} (content : α) : Write α → Option α
  | done => some content
  | failed left => left

inductive Event
  | observe (someAvg10 fullAvg10 : ℚ) (interventionActive : Bool) (weightSecs : Nat)
  /-- `current` is the configuration snapshot of the caller -/
  | flush (current : PsiThresholds) (now : Nat) (state : Write CalibratorState)
      (suggestion : Write String)
  | reload
  | restart

/-- `load_calibrator` -/
def loadCalibrator (saved : Option CalibratorState) : Calibrator :=
  match saved with
  | some state => Calibrator.fromState state
  | none => Calibrator.new

/-- A daemon as it starts. -/
def boot (toml : Toml) (files : ConfigFiles) (saved : Option CalibratorState) : Daemon where
  files := files
  saved := saved
  psi := load toml files
  calibrator := loadCalibrator saved

/-- The suggestion file is rewritten only when its text changes. -/
def writeSuggestion (files : ConfigFiles) (rendered : String) (outcome : Write String) :
    ConfigFiles :=
  if files.suggestion = some rendered then files
  else { files with suggestion := outcome.after rendered }

def flushCalibration (d : Daemon) (current : PsiThresholds) (now : Nat)
    (state : Write CalibratorState) (suggestion : Write String) : Daemon :=
  if d.calibrator.dirty = false then d
  else
    let d := { d with
      calibrator := { d.calibrator with dirty := false }
      saved := state.after d.calibrator.state }
    match state, d.calibrator.suggest with
    | .done, some s =>
        { d with files := writeSuggestion d.files (renderSuggestion s current now) suggestion }
    | _, _ => d

def step (toml : Toml) (d : Daemon) : Event → Daemon
  | .observe someAvg10 fullAvg10 interventionActive weightSecs =>
      { d with
        calibrator :=
          d.calibrator.observe someAvg10 fullAvg10 interventionActive weightSecs }
  | .flush current now state suggestion => flushCalibration d current now state suggestion
  | .reload => { d with psi := load toml d.files }
  | .restart => boot toml d.files d.saved

/-! ## The thresholds in force -/

/-- The suggestion says nothing the configuration does not. -/
def Harmless (toml : Toml) (files : ConfigFiles) : Prop :=
  ∀ suggestion, compile toml files ≠ none →
    files.suggestion.bind toml.suggestion = some suggestion →
      (∀ v, suggestion.elevatedPct = some v → v = (configured toml files).elevatedPct) ∧
        ∀ v, suggestion.fullCriticalPct = some v → v = (configured toml files).fullCriticalPct

theorem load_eq_configured_iff (toml : Toml) (files : ConfigFiles) :
    load toml files = configured toml files ↔ Harmless toml files := by
  unfold load configured Harmless configured
  cases hCompile : compile toml files with
  | none => simp
  | some cfg =>
      unfold applyCalibrationOverlay
      cases hSuggestion : files.suggestion.bind toml.suggestion with
      | none => simp
      | some suggestion =>
          obtain ⟨elevated, full⟩ := suggestion
          obtain ⟨cfgElevated, cfgHigh, cfgCritical, cfgEmergency, cfgFull⟩ := cfg
          cases elevated <;> cases full <;> simp

/-- The configuration is that of the user's and the system's file only. -/
theorem configured_congr (toml : Toml) {files files' : ConfigFiles}
    (hUser : files'.user = files.user) (hSystem : files'.system = files.system) :
    configured toml files' = configured toml files := by
  unfold configured compile
  rw [hUser, hSystem]

theorem flushCalibration_frame (d : Daemon) (current : PsiThresholds) (now : Nat)
    (state : Write CalibratorState) (suggestion : Write String) :
    (flushCalibration d current now state suggestion).psi = d.psi ∧
      (flushCalibration d current now state suggestion).files.user = d.files.user ∧
      (flushCalibration d current now state suggestion).files.system = d.files.system := by
  unfold flushCalibration
  split
  · exact ⟨rfl, rfl, rfl⟩
  · dsimp only
    split
    · unfold writeSuggestion
      split <;> exact ⟨rfl, rfl, rfl⟩
    · exact ⟨rfl, rfl, rfl⟩

/-- A flush whose writes both go through leaves the text of the suggestion. -/
theorem flushCalibration_done {d : Daemon} {s : Suggestion} {current : PsiThresholds} {now : Nat}
    (hDirty : d.calibrator.dirty = true) (hSuggest : d.calibrator.suggest = some s) :
    (flushCalibration d current now .done .done).files =
      { d.files with suggestion := some (renderSuggestion s current now) } := by
  have hSame : ({ d.calibrator with dirty := false } : Calibrator).suggest = some s := hSuggest
  unfold flushCalibration
  rw [if_neg (by rw [hDirty]; decide)]
  dsimp only
  rw [hSame]
  dsimp only
  unfold writeSuggestion
  split
  · next hOld => rw [← hOld]
  · rfl

/-- No event of the daemon changes what is configured. -/
theorem configured_step (toml : Toml) (d : Daemon) (i : Event) :
    configured toml (step toml d i).files = configured toml d.files := by
  cases i with
  | observe someAvg10 fullAvg10 interventionActive weightSecs => rfl
  | flush current now state suggestion =>
      obtain ⟨-, hUser, hSystem⟩ := flushCalibration_frame d current now state suggestion
      exact configured_congr toml hUser hSystem
  | reload => rfl
  | restart => rfl

/-- The configuration is loaded with a suggestion that changes nothing. -/
def LoadsHarmless (toml : Toml) (d : Daemon) : Event → Prop
  | .observe _ _ _ _ => True
  | .flush _ _ _ _ => True
  | .reload => Harmless toml d.files
  | .restart => Harmless toml d.files

theorem step_inForce_iff (toml : Toml) (d : Daemon) (i : Event)
    (h : d.psi = configured toml d.files) :
    (step toml d i).psi = configured toml d.files ↔ LoadsHarmless toml d i := by
  cases i with
  | observe someAvg10 fullAvg10 interventionActive weightSecs => exact iff_of_true h trivial
  | flush current now state suggestion =>
      obtain ⟨hPsi, -, -⟩ := flushCalibration_frame d current now state suggestion
      exact iff_of_true (hPsi.trans h) trivial
  | reload => exact load_eq_configured_iff toml d.files
  | restart => exact load_eq_configured_iff toml d.files

/-- The thresholds in force are those of the configuration. -/
def InForce (toml : Toml) (files : ConfigFiles) (d : Daemon) : Prop :=
  d.psi = configured toml files

theorem always_inForce_iff (toml : Toml) (files : ConfigFiles) (saved : Option CalibratorState)
    (events : List Event) :
    Always (step toml) (InForce toml files) (boot toml files saved) events ↔
      Harmless toml files ∧
        EveryStep (step toml) (LoadsHarmless toml) (boot toml files saved) events := by
  have hRun : ∀ d : Daemon, configured toml d.files = configured toml files →
      InForce toml files d →
      (Always (step toml) (InForce toml files) d events ↔
        EveryStep (step toml) (LoadsHarmless toml) d events) := by
    intro d hFiles hPsi
    have hSame : ∀ (d : Daemon) (i : Event), configured toml d.files = configured toml files →
        configured toml (step toml d i).files = configured toml files :=
      fun d i hd => (configured_step toml d i).trans hd
    refine always_iff_everyStep (fun d i _ hd _ _ => hSame d i hd) (fun d i _ hd hForce => ?_)
      (everyStep_true d events) hFiles hPsi
    have hIff := step_inForce_iff toml d i (hForce.trans hd.symm)
    rw [hd] at hIff
    exact hIff
  constructor
  · intro hAlways
    have hBoot : InForce toml files (boot toml files saved) := hAlways.head
    exact ⟨(load_eq_configured_iff toml files).mp hBoot, (hRun _ rfl hBoot).mp hAlways⟩
  · intro hLoads
    have hBoot : InForce toml files (boot toml files saved) :=
      (load_eq_configured_iff toml files).mpr hLoads.1
    exact (hRun _ rfl hBoot).mpr hLoads.2

/--
**Which runs suggest and do not apply.**  The thresholds in force are those of
the configuration files all through a run exactly when every load, the first
included, finds a configuration that does not compile or a suggestion without a
value of its own.  Two such runs on the same configuration files end with the
same thresholds, whatever was observed.
-/
theorem inForce_iff (toml : Toml) (files : ConfigFiles) :
    (∀ (saved : Option CalibratorState) (events : List Event),
      Always (step toml) (InForce toml files) (boot toml files saved) events ↔
        Harmless toml files ∧
          EveryStep (step toml) (LoadsHarmless toml) (boot toml files saved) events) ∧
    (∀ (saved saved' : Option CalibratorState) (events events' : List Event),
      Harmless toml files →
      EveryStep (step toml) (LoadsHarmless toml) (boot toml files saved) events →
      EveryStep (step toml) (LoadsHarmless toml) (boot toml files saved') events' →
        (run (step toml) (boot toml files saved) events).psi =
          (run (step toml) (boot toml files saved') events').psi) := by
  refine ⟨always_inForce_iff toml files, fun saved saved' events events' hFiles hRun hRun' => ?_⟩
  have hPsi := ((always_inForce_iff toml files saved events).mpr ⟨hFiles, hRun⟩).last
  have hPsi' := ((always_inForce_iff toml files saved' events').mpr ⟨hFiles, hRun'⟩).last
  exact Eq.trans hPsi (Eq.symm hPsi')

/-! ## What the calibrator writes -/

/-- A suggestion the calibrator writes passes the check exactly when its
elevated tier is below the configured high tier. -/
theorem fits_suggested_iff {c : Calibrator} {s : Suggestion} (h : c.suggest = some s)
    (cfg : PsiThresholds) :
    Fits cfg ⟨some (.finite s.elevatedPct), some (.finite s.fullCriticalPct)⟩ ↔
      F64.lt (.finite s.elevatedPct) cfg.highPct = true := by
  obtain ⟨⟨hElevated, -⟩, hFull, -⟩ := suggest_bounds h
  have hZero : (0 : F64) = .finite 0 := rfl
  have hPos : (0 : ℚ) < s.elevatedPct := lt_of_lt_of_le (by decide +kernel) hElevated
  have hFloor : (0 : ℚ) < s.fullCriticalPct := lt_of_lt_of_le (by decide +kernel) hFull
  simp [Fits, hZero, hPos, hFloor]

/-- Against the default high tier it always does. -/
theorem fits_suggested_default {c : Calibrator} {s : Suggestion} (h : c.suggest = some s) :
    Fits PsiThresholds.default
      ⟨some (.finite s.elevatedPct), some (.finite s.fullCriticalPct)⟩ := by
  rw [fits_suggested_iff h]
  have hHigh : PsiThresholds.default.highPct = .finite 25 := rfl
  rw [hHigh, F64.finite_lt_finite, decide_eq_true_iff]
  exact lt_of_le_of_lt (suggest_bounds h).1.2 (by decide +kernel)

/-! ## A daemon that retunes itself -/

/-- No configuration file of the user's or the system's, and no suggestion. -/
def freshFiles : ConfigFiles := ⟨none, none, none⟩

/-- What a day of quiet background with ten stalls leaves. -/
def seededState : CalibratorState where
  benignSecs := (List.replicate bins 0).set 3 86400
  stallSecs := (List.replicate bins 0).set 20 300
  fullSecs := (List.replicate bins 0).set 8 300
  observedSecs := 86700
  stallEvents := 10
  maxFullAvg10 := 8

/-- The suggestion after one more quiet sample. -/
def seededSuggestion : Suggestion where
  elevatedPct := 6
  fullCriticalPct := 9
  highPct := 30
  criticalPct := 60
  emergencyPct := 84
  observedHours := 86705 / 3600
  stallEvents := 10
  benignP95 := 4
  stallOnsetP10 := 21

def seededText : String := renderSuggestion seededSuggestion PsiThresholds.default 1700000000

/-- The parser reads the live keys of that text. -/
def seededToml : Toml where
  config := fun _ => none
  suggestion := fun text => if text = seededText then some ⟨some 6, some 9⟩ else none
  builtin := ⟨none, none, none, none, none⟩

def quietSample : Event := .observe 3 0 false 5

/-- The sample is flushed and the configuration reloaded. -/
def flushAndReload : List Event :=
  [quietSample, .flush PsiThresholds.default 1700000000 .done .done, .reload]

/-- With nothing flushed the thresholds stay, whatever was observed. -/
theorem inForce_without_flush :
    Always (step seededToml) (InForce seededToml freshFiles)
        (boot seededToml freshFiles (some seededState)) [quietSample, .reload] ∧
      (run (step seededToml) (boot seededToml freshFiles (some seededState))
          [quietSample, .reload]).psi =
        (run (step seededToml) (boot seededToml freshFiles none) [.reload]).psi := by
  have hFiles : Harmless seededToml freshFiles := fun _ _ hNone => (by cases hNone)
  exact ⟨((inForce_iff seededToml freshFiles).1 (some seededState) [quietSample, .reload]).mpr
      ⟨hFiles, trivial, hFiles, trivial⟩,
    (inForce_iff seededToml freshFiles).2 (some seededState) none [quietSample, .reload] [.reload]
      hFiles ⟨trivial, hFiles, trivial⟩ ⟨hFiles, trivial⟩⟩

/-- The reload puts the calibrator's own elevated tier in force. -/
theorem reload_applies_suggestion :
    ¬ ∀ (toml : Toml) (files : ConfigFiles) (saved : Option CalibratorState)
      (events : List Event), files.suggestion = none →
        Always (step toml) (InForce toml files) (boot toml files saved) events := by
  intro hAll
  have hLast := (hAll seededToml freshFiles (some seededState) flushAndReload rfl).last
  have hDirty : ((loadCalibrator (some seededState)).observe 3 0 false 5).dirty = true := by
    decide +kernel
  have hSuggest : ((loadCalibrator (some seededState)).observe 3 0 false 5).suggest =
      some seededSuggestion := by
    decide +kernel
  have hFlushed := @flushCalibration_done (step seededToml
    (boot seededToml freshFiles (some seededState)) quietSample) seededSuggestion
    PsiThresholds.default 1700000000 hDirty hSuggest
  have hFiles : (run (step seededToml) (boot seededToml freshFiles (some seededState))
      flushAndReload).psi = load seededToml ⟨none, none, some seededText⟩ :=
    congrArg (load seededToml) hFlushed
  -- for any text, so that the kernel does not compute this one
  have hText : ∀ text, text = seededText →
      (some text).bind seededToml.suggestion = some ⟨some 6, some 9⟩ := fun _ hEq => if_pos hEq
  have hParsed := hText seededText rfl
  have hHarmless := (load_eq_configured_iff seededToml ⟨none, none, some seededText⟩).mp
    (hFiles.symm.trans hLast)
  have hElevated := (hHarmless ⟨some 6, some 9⟩ (by decide +kernel) hParsed).1 6 rfl
  have hDefault : (configured seededToml ⟨none, none, some seededText⟩).elevatedPct = 5 := by
    have hBuiltin : seededToml.builtin.checked.elevatedPct = 5 := by decide +kernel
    exact hBuiltin
  rw [hDefault] at hElevated
  exact absurd hElevated (by decide +kernel)

end Mgd.Calibration
