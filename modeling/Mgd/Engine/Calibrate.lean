import Mathlib.Algebra.Order.Floor.Ring
import Mathlib.Data.Rat.Floor
import Mgd.Config.Loading
import Mgd.Types

/-!
# Passive calibration

`engine/calibrate.rs`: histograms of the pressure averages, weighted in seconds,
the thresholds they suggest, and the text of the suggestion.

Sums of histogram bins and arithmetic on percentages are exact; the bins count
seconds and stay far below the range of `u64`.
-/

namespace Mgd.Engine.Calibrate

open Mgd.Types Mgd.Config.Loading

/-! ## The accumulator -/

/-- One-percent bins over [0, 100). -/
def bins : Nat := 100

/-- `full_avg10` from which a sample counts as stalling. -/
def stallFullPct : ℚ := 1

/-- Added to the benign p95. -/
def elevatedMarginPct : ℚ := 2

def minObservedSecs : Nat := 24 * 3600

def minStallEvents : Nat := 10

def minStallSecs : Nat := 60

structure CalibratorState where
  benignSecs : List Nat
  stallSecs : List Nat
  fullSecs : List Nat
  observedSecs : Nat
  stallEvents : Nat
  maxFullAvg10 : ℚ
deriving DecidableEq

def CalibratorState.default : CalibratorState where
  benignSecs := List.replicate bins 0
  stallSecs := List.replicate bins 0
  fullSecs := List.replicate bins 0
  observedSecs := 0
  stallEvents := 0
  maxFullAvg10 := 0

structure Calibrator where
  state : CalibratorState
  inStall : Bool
  dirty : Bool
deriving DecidableEq

/-- The bin of a percentage. -/
def bin (pct : ℚ) : Nat := min ⌊max pct 0⌋.toNat (bins - 1)

/-- More seconds in one bin, saturating. -/
def addAt (hist : List Nat) (i secs : Nat) : List Nat :=
  hist.modify i fun n => min (n + secs) u64Max

namespace Calibrator

def new : Calibrator where
  state := CalibratorState.default
  inStall := false
  dirty := false

/-- Histograms of the wrong width are rejected. -/
def fromState (state : CalibratorState) : Calibrator :=
  if state.benignSecs.length ≠ bins ∨ state.stallSecs.length ≠ bins ∨
      state.fullSecs.length ≠ bins then new
  else { state := state, inStall := false, dirty := false }

def observe (c : Calibrator) (someAvg10 fullAvg10 : ℚ) (interventionActive : Bool)
    (weightSecs : Nat) : Calibrator :=
  let stalling := decide (fullAvg10 ≥ stallFullPct)
  if interventionActive then { c with inStall := stalling }
  else
    let st := c.state
    let st := { st with
      stallEvents :=
        if stalling && !c.inStall then min (st.stallEvents + 1) (2 ^ 32 - 1) else st.stallEvents
      observedSecs := min (st.observedSecs + weightSecs) u64Max
      maxFullAvg10 := if fullAvg10 > st.maxFullAvg10 then fullAvg10 else st.maxFullAvg10 }
    let st :=
      if stalling then
        { st with
          stallSecs := addAt st.stallSecs (bin someAvg10) weightSecs
          fullSecs := addAt st.fullSecs (bin fullAvg10) weightSecs }
      else { st with benignSecs := addAt st.benignSecs (bin someAvg10) weightSecs }
    { state := st, inStall := stalling, dirty := true }

end Calibrator

/-! ## The suggestion -/

structure Suggestion where
  elevatedPct : ℚ
  fullCriticalPct : ℚ
  highPct : ℚ
  criticalPct : ℚ
  emergencyPct : ℚ
  observedHours : ℚ
  stallEvents : Nat
  benignP95 : ℚ
  stallOnsetP10 : ℚ
deriving DecidableEq

/-- The first bin at which the bins so far reach the target, counted from 1. -/
def reaches (target : Nat) : List Nat → Nat → Nat → Option Nat
  | [], _, _ => none
  | w :: rest, cum, i =>
      if cum + w ≥ target then some (i + 1) else reaches target rest (cum + w) (i + 1)

/-- The upper edge of the bin that holds the percentile. -/
def percentile (hist : List Nat) (pct : ℚ) : Option ℚ :=
  if hist.sum = 0 then none
  else
    let target := ⌈(hist.sum : ℚ) * pct / 100⌉.toNat
    some (((reaches target hist 0 0).getD bins : Nat) : ℚ)

def clamp (lo hi q : ℚ) : ℚ := max lo (min hi q)

/-- The suggested elevated tier: the benign p95 with its margin, capped by where
stalls begin. -/
def suggestedElevated (benignP95 stallOnsetP10 : ℚ) : ℚ :=
  let elevated := clamp 2 15 (benignP95 + elevatedMarginPct)
  if stallOnsetP10 < elevated then max stallOnsetP10 2 else elevated

def Calibrator.suggest (c : Calibrator) : Option Suggestion :=
  let st := c.state
  if st.observedSecs < minObservedSecs ∨ st.stallEvents < minStallEvents ∨
      st.stallSecs.sum < minStallSecs then none
  else
    let benignP95 := (percentile st.benignSecs 95).getD 0
    let stallOnsetP10 := (percentile st.stallSecs 10).getD 100
    let elevated := suggestedElevated benignP95 stallOnsetP10
    let fullCritical := clamp 5 50 ((percentile st.fullSecs 95).getD 20)
    let scale := elevated / 5
    let emergency := min (70 * scale) 100
    let critical := min (50 * scale) (emergency - 1)
    let high := min (25 * scale) (critical - 1)
    some
      { elevatedPct := elevated
        fullCriticalPct := fullCritical
        highPct := high
        criticalPct := critical
        emergencyPct := emergency
        observedHours := (st.observedSecs : ℚ) / 3600
        stallEvents := st.stallEvents
        benignP95 := benignP95
        stallOnsetP10 := stallOnsetP10 }

/-- A suggested elevated tier is between 2 and 15, a suggested floor between 5
and 50. -/
theorem suggest_bounds {c : Calibrator} {s : Suggestion} (h : c.suggest = some s) :
    (2 ≤ s.elevatedPct ∧ s.elevatedPct ≤ 15) ∧ 5 ≤ s.fullCriticalPct ∧ s.fullCriticalPct ≤ 50 := by
  unfold Calibrator.suggest at h
  dsimp only at h
  split at h
  · cases h
  · have hClamp : ∀ lo hi q : ℚ, lo ≤ hi → lo ≤ clamp lo hi q ∧ clamp lo hi q ≤ hi := by
      intro lo hi q hle
      exact ⟨le_max_left _ _, max_le hle (min_le_left _ _)⟩
    have hElevated : ∀ p95 p10 : ℚ,
        2 ≤ suggestedElevated p95 p10 ∧ suggestedElevated p95 p10 ≤ 15 := by
      intro p95 p10
      have hBase := hClamp 2 15 (p95 + elevatedMarginPct) (by decide +kernel)
      unfold suggestedElevated
      dsimp only
      split
      · next hCap => exact ⟨le_max_right _ _, max_le (le_trans (le_of_lt hCap) hBase.2)
          (by decide +kernel)⟩
      · exact hBase
    cases h
    exact ⟨hElevated _ _, hClamp 5 50 _ (by decide +kernel)⟩

/-! ## The text of the suggestion -/

/-- `{:.1}` of a rational: one decimal, ties to even. -/
def fixed1 (q : ℚ) : String :=
  let scaled := |q| * 10
  let down := ⌊scaled⌋.toNat
  let rest := scaled - down
  let tenths :=
    if rest < 1 / 2 then down
    else if rest > 1 / 2 then down + 1
    else if down % 2 = 0 then down
    else down + 1
  (if q < 0 then "-" else "") ++ toString (tenths / 10) ++ "." ++ toString (tenths % 10)

/-- `{:.1}` of a float. -/
def F64.fixed1 : F64 → String
  | .nan => "NaN"
  | .negInf => "-inf"
  | .finite q => Calibrate.fixed1 q
  | .posInf => "inf"

/-- The file for the user to review.  The first two keys are live, the upper
tiers commented out. -/
def renderSuggestion (s : Suggestion) (current : PsiThresholds) (generatedUnixSecs : Nat) :
    String :=
  "# Generated by mgd passive calibration (unix time " ++ toString generatedUnixSecs ++ ")\n" ++
  "# Observed: " ++ fixed1 s.observedHours ++ "h of untreated pressure, " ++
    toString s.stallEvents ++ " stall episodes.\n" ++
  "#   benign some_avg10 p95 (noise ceiling) = " ++ fixed1 s.benignP95 ++ "%\n" ++
  "#   stall-onset some_avg10 p10            = " ++ fixed1 s.stallOnsetP10 ++ "%\n" ++
  "#\n" ++
  "# Review, then paste into ~/.config/mgd/priorities.toml and run: mgctl reload\n" ++
  "# (elevated_pct also re-arms the kernel trigger on daemon restart only.)\n" ++
  "\n" ++
  "[psi]\n" ++
  "elevated_pct      = " ++ fixed1 s.elevatedPct ++ "    # current: " ++
    F64.fixed1 current.elevatedPct ++ "\n" ++
  "full_critical_pct = " ++ fixed1 s.fullCriticalPct ++ "    # current: " ++
    F64.fixed1 current.fullCriticalPct ++ "\n" ++
  "\n" ++
  "# Upper tiers scaled from elevated_pct by the default ratios. Passive\n" ++
  "# observation can't validate them (the daemon's own interventions cap\n" ++
  "# how high pressure climbs) — uncomment only if you trust the scaling.\n" ++
  "#high_pct      = " ++ fixed1 s.highPct ++ "    # current: " ++
    F64.fixed1 current.highPct ++ "\n" ++
  "#critical_pct  = " ++ fixed1 s.criticalPct ++ "    # current: " ++
    F64.fixed1 current.criticalPct ++ "\n" ++
  "#emergency_pct = " ++ fixed1 s.emergencyPct ++ "    # current: " ++
    F64.fixed1 current.emergencyPct ++ "\n"

end Mgd.Engine.Calibrate
