import Mgd.Monitor

/-!
# Loading the pressure thresholds

`config/mod.rs` and `config/calibration.rs` as far as the `[psi]` block is
concerned: the source of the configuration, `compile` with its check of the
thresholds, the overlay of the calibration suggestion, and the fallback to the
built-in file.

The thresholds are floats, and a file may hold any of them; `F64` has what
comparisons tell apart.  The TOML parser is a parameter.  The check runs before
the overlay, so the thresholds that come out need not pass it:
`load_valid_iff` says when they do.
-/

namespace Mgd.Config.Loading

open Mgd.Monitor (MemoryPressure PressureLevel)

/-! ## Floats -/

/-- A float as comparisons see it. -/
inductive F64
  | nan
  | negInf
  | finite (q : ℚ)
  | posInf
deriving DecidableEq

namespace F64

/-- `<`: false when either side is not a number. -/
def lt : F64 → F64 → Bool
  | nan, _ => false
  | _, nan => false
  | _, negInf => false
  | negInf, _ => true
  | posInf, _ => false
  | finite _, posInf => true
  | finite a, finite b => decide (a < b)

/-- `<=` -/
def le : F64 → F64 → Bool
  | nan, _ => false
  | _, nan => false
  | negInf, _ => true
  | _, posInf => true
  | _, negInf => false
  | posInf, finite _ => false
  | finite a, finite b => decide (a ≤ b)

instance (n : Nat) : OfNat F64 n := ⟨finite n⟩

@[simp] theorem finite_lt_finite (a b : ℚ) : (finite a).lt (finite b) = decide (a < b) := rfl

@[simp] theorem finite_le_finite (a b : ℚ) : (finite a).le (finite b) = decide (a ≤ b) := rfl

theorem le_finite_trans {t : F64} {a b : ℚ} (h : t.le (finite a) = true) (hab : a ≤ b) :
    t.le (finite b) = true := by
  cases t with
  | nan => cases h
  | negInf => rfl
  | finite q => exact decide_eq_true (le_trans (of_decide_eq_true h) hab)
  | posInf => cases h

end F64

/-! ## Thresholds -/

structure PsiThresholds where
  elevatedPct : F64
  highPct : F64
  criticalPct : F64
  emergencyPct : F64
  fullCriticalPct : F64
deriving DecidableEq

namespace PsiThresholds

def default : PsiThresholds where
  elevatedPct := 5
  highPct := 25
  criticalPct := 50
  emergencyPct := 70
  fullCriticalPct := 20

/-- Tiers strictly increasing and within (0, 100], and a positive floor for the
full stalls. -/
def valid (t : PsiThresholds) : Bool :=
  F64.lt 0 t.elevatedPct && t.elevatedPct.lt t.highPct && t.highPct.lt t.criticalPct &&
    t.criticalPct.lt t.emergencyPct && t.emergencyPct.le 100 && F64.lt 0 t.fullCriticalPct

theorem default_valid : default.valid = true := by decide +kernel

/-- The thresholds of the other modules, which are numbers. -/
def ofNumbers (t : Monitor.PsiThresholds) : PsiThresholds where
  elevatedPct := .finite t.elevatedPct
  highPct := .finite t.highPct
  criticalPct := .finite t.criticalPct
  emergencyPct := .finite t.emergencyPct
  fullCriticalPct := .finite t.fullCriticalPct

theorem ofNumbers_default : ofNumbers .default = default := rfl

/-- Thresholds that pass the check are numbers, an infinite floor apart. -/
theorem exists_ofNumbers_of_valid {t : PsiThresholds} (h : t.valid = true)
    (hFloor : t.fullCriticalPct ≠ .posInf) : ∃ numbers, t = ofNumbers numbers := by
  have hBetween : ∀ {a b c : F64}, a.lt b = true → b.lt c = true → ∃ q, b = .finite q := by
    intro a b c hab hbc
    cases b with
    | finite q => exact ⟨q, rfl⟩
    | nan => cases c <;> cases hbc
    | negInf => cases a <;> cases hab
    | posInf => cases c <;> cases hbc
  have hUpTo : ∀ {a b : F64} {q : ℚ}, a.lt b = true → b.le (.finite q) = true →
      ∃ r, b = .finite r := by
    intro a b q hab hbq
    cases b with
    | finite r => exact ⟨r, rfl⟩
    | nan => cases hbq
    | negInf => cases a <;> cases hab
    | posInf => cases hbq
  unfold valid at h
  simp only [Bool.and_eq_true] at h
  obtain ⟨⟨⟨⟨⟨hElevated, hHigh⟩, hCritical⟩, hEmergency⟩, hTop⟩, hFull⟩ := h
  obtain ⟨e, he⟩ := hBetween hElevated hHigh
  obtain ⟨g, hg⟩ := hBetween hHigh hCritical
  obtain ⟨c, hc⟩ := hBetween hCritical hEmergency
  obtain ⟨m, hm⟩ := hUpTo hEmergency hTop
  cases hFloorValue : t.fullCriticalPct with
  | finite f =>
      refine ⟨⟨e, g, c, m, f⟩, ?_⟩
      cases t
      subst he hg hc hm hFloorValue
      rfl
  | nan =>
      rw [hFloorValue] at hFull
      cases hFull
  | negInf =>
      rw [hFloorValue] at hFull
      cases hFull
  | posInf => exact absurd hFloorValue hFloor

end PsiThresholds

/-- The verdict from the comparisons: the floor of full stalls, then the tiers
from the top. -/
def levelOf (full emergency critical high elevated : Bool) : PressureLevel :=
  if full then
    if emergency then .emergency else .critical
  else if emergency then .emergency
  else if critical then .critical
  else if high then .high
  else if elevated then .elevated
  else .normal

theorem levelOf_mono : ∀ f f' m m' c c' h h' e e' : Bool, f ≤ f' → m ≤ m' → c ≤ c' → h ≤ h' →
    e ≤ e' → levelOf f m c h e ≤ levelOf f' m' c' h' e' := by
  decide +kernel

/-- The raw verdict with these thresholds. -/
def pressureLevelWith (p : MemoryPressure) (t : PsiThresholds) : PressureLevel :=
  levelOf (t.fullCriticalPct.le (.finite p.fullAvg10)) (t.emergencyPct.le (.finite p.someAvg10))
    (t.criticalPct.le (.finite p.someAvg10)) (t.highPct.le (.finite p.someAvg10))
    (t.elevatedPct.le (.finite p.someAvg10))

/-- On numbers it is the verdict of `Mgd.Monitor`. -/
theorem pressureLevelWith_ofNumbers (p : MemoryPressure) (t : Monitor.PsiThresholds) :
    pressureLevelWith p (.ofNumbers t) = Monitor.pressureLevelWith p t := by
  unfold pressureLevelWith Monitor.pressureLevelWith levelOf PsiThresholds.ofNumbers
  simp only [F64.finite_le_finite, decide_eq_true_eq, ge_iff_le]

/-- More pressure is never a lower level, whatever the thresholds. -/
theorem pressureLevelWith_mono {p p' : MemoryPressure} (hSome : p.someAvg10 ≤ p'.someAvg10)
    (hFull : p.fullAvg10 ≤ p'.fullAvg10) (t : PsiThresholds) :
    pressureLevelWith p t ≤ pressureLevelWith p' t := by
  have hTier : ∀ (tier : F64) (a b : ℚ), a ≤ b → tier.le (.finite a) ≤ tier.le (.finite b) := by
    intro tier a b hab
    cases hLe : tier.le (.finite a) with
    | false => exact Bool.false_le _
    | true => rw [F64.le_finite_trans hLe hab]
  exact levelOf_mono _ _ _ _ _ _ _ _ _ _ (hTier _ _ _ hFull) (hTier _ _ _ hSome)
    (hTier _ _ _ hSome) (hTier _ _ _ hSome) (hTier _ _ _ hSome)

/-! ## Configuration files -/

/-- The `[psi]` block of a file; a missing key has its default. -/
structure RawPsi where
  elevatedPct : Option F64
  highPct : Option F64
  criticalPct : Option F64
  emergencyPct : Option F64
  fullCriticalPct : Option F64
deriving DecidableEq

/-- The `[psi]` block of the calibration suggestion. -/
structure CalibrationPsi where
  elevatedPct : Option F64
  fullCriticalPct : Option F64
deriving DecidableEq

/-- The TOML parser: what a text holds as a configuration and as a calibration
suggestion, `none` when it is neither.  The built-in file always parses. -/
structure Toml where
  config : String → Option RawPsi
  suggestion : String → Option CalibrationPsi
  builtin : RawPsi

/-- What the files hold, `none` when one cannot be read. -/
structure ConfigFiles where
  user : Option String
  system : Option String
  suggestion : Option String

/-- Missing keys filled in. -/
def RawPsi.thresholds (raw : RawPsi) : PsiThresholds where
  elevatedPct := raw.elevatedPct.getD 5
  highPct := raw.highPct.getD 25
  criticalPct := raw.criticalPct.getD 50
  emergencyPct := raw.emergencyPct.getD 70
  fullCriticalPct := raw.fullCriticalPct.getD 20

/-- Invalid thresholds are replaced by the defaults. -/
def RawPsi.checked (raw : RawPsi) : PsiThresholds :=
  if raw.thresholds.valid then raw.thresholds else PsiThresholds.default

theorem RawPsi.checked_valid (raw : RawPsi) : raw.checked.valid = true := by
  unfold RawPsi.checked
  split
  · next hValid => exact hValid
  · exact PsiThresholds.default_valid

/-- `compile` of the content `load` finds: the user's, the system's, or the
built-in file. -/
def compile (toml : Toml) (files : ConfigFiles) : Option PsiThresholds :=
  match files.user.or files.system with
  | some content => (toml.config content).map RawPsi.checked
  | none => some toml.builtin.checked

def applyCalibrationOverlay (toml : Toml) (files : ConfigFiles) (cfg : PsiThresholds) :
    PsiThresholds :=
  match files.suggestion.bind toml.suggestion with
  | none => cfg
  | some suggestion =>
      { cfg with
        elevatedPct := suggestion.elevatedPct.getD cfg.elevatedPct
        fullCriticalPct := suggestion.fullCriticalPct.getD cfg.fullCriticalPct }

/-- The thresholds of `load()`.  The fallback has no overlay. -/
def load (toml : Toml) (files : ConfigFiles) : PsiThresholds :=
  match compile toml files with
  | some cfg => applyCalibrationOverlay toml files cfg
  | none => toml.builtin.checked

/-- The thresholds that the configuration files ask for. -/
def configured (toml : Toml) (files : ConfigFiles) : PsiThresholds :=
  (compile toml files).getD toml.builtin.checked

theorem configured_valid (toml : Toml) (files : ConfigFiles) :
    (configured toml files).valid = true := by
  unfold configured compile
  split
  · next content hContent =>
      cases toml.config content with
      | some raw => exact raw.checked_valid
      | none => exact toml.builtin.checked_valid
  · exact toml.builtin.checked_valid

/-! ## When the loaded thresholds are valid -/

/-- A suggested elevated tier lies between 0 and the configured high tier, and a
suggested floor is positive. -/
def Fits (cfg : PsiThresholds) (suggestion : CalibrationPsi) : Prop :=
  (∀ v, suggestion.elevatedPct = some v → F64.lt 0 v = true ∧ v.lt cfg.highPct = true) ∧
    ∀ v, suggestion.fullCriticalPct = some v → F64.lt 0 v = true

theorem overlay_valid_iff {cfg : PsiThresholds} (hCfg : cfg.valid = true)
    (suggestion : CalibrationPsi) :
    { cfg with
      elevatedPct := suggestion.elevatedPct.getD cfg.elevatedPct
      fullCriticalPct := suggestion.fullCriticalPct.getD cfg.fullCriticalPct : PsiThresholds
    }.valid = true ↔ Fits cfg suggestion := by
  obtain ⟨elevated, full⟩ := suggestion
  unfold PsiThresholds.valid at hCfg ⊢
  simp only [Bool.and_eq_true] at hCfg
  obtain ⟨⟨⟨⟨⟨hPos, hElevated⟩, hHigh⟩, hCritical⟩, hEmergency⟩, hFull⟩ := hCfg
  unfold Fits
  cases elevated <;> cases full <;>
    simp [hPos, hElevated, hHigh, hCritical, hEmergency, hFull]

/--
**When the loaded thresholds are valid.**  Exactly when the configuration does
not compile, or there is no suggestion to overlay, or its elevated tier fits
below the configured high tier and its floor is positive.
-/
theorem load_valid_iff (toml : Toml) (files : ConfigFiles) :
    (load toml files).valid = true ↔
      ∀ suggestion, compile toml files ≠ none →
        files.suggestion.bind toml.suggestion = some suggestion →
          Fits (configured toml files) suggestion := by
  have hConfigured := configured_valid toml files
  unfold load configured at *
  cases hCompile : compile toml files with
  | none => simp [toml.builtin.checked_valid]
  | some cfg =>
      rw [hCompile] at hConfigured
      dsimp only [Option.getD_some] at hConfigured ⊢
      unfold applyCalibrationOverlay
      cases hSuggestion : files.suggestion.bind toml.suggestion with
      | none => simp [hConfigured]
      | some suggestion =>
          dsimp only
          rw [overlay_valid_iff hConfigured]
          simp

/-! ## A suggestion above the high tier -/

/-- A user file that lowers the high tier, and a suggestion with an elevated
tier. -/
def lowHigh : ConfigFiles where
  user := some "[psi]\nhigh_pct = 10.0\n"
  system := none
  suggestion := some "[psi]\nelevated_pct = 15.0\n"

/-- What the parser makes of the two texts. -/
def lowHighToml : Toml where
  config := fun text =>
    if text = "[psi]\nhigh_pct = 10.0\n" then some ⟨none, some 10, none, none, none⟩ else none
  suggestion := fun text =>
    if text = "[psi]\nelevated_pct = 15.0\n" then some ⟨some 15, none⟩ else none
  builtin := ⟨none, none, none, none, none⟩

/-- The overlay puts the elevated tier above the high tier. -/
theorem load_invalid_above_high :
    ¬ ∀ (toml : Toml) (files : ConfigFiles), (load toml files).valid = true := by
  intro hAll
  have hInvalid : (load lowHighToml lowHigh).valid = false := by decide +kernel
  rw [hAll lowHighToml lowHigh] at hInvalid
  cases hInvalid

end Mgd.Config.Loading
