import Mgd.Engine.Calibrate
import Mgd.Lib.Checked

/-!
# The arithmetic of the calibrator

`from_state` takes any histogram of the right width, and `suggest` sums them in
`u64`.  `observe` saturates.  The running sum of `percentile` is never above the
total, so `suggest_isSome_iff` is about the totals alone.
-/

namespace Mgd.Overflow

open Mgd.Types Mgd.Lib.Checked Mgd.Engine.Calibrate

/-! ## The checked suggestion -/

/-- `cum += w` down to the bin that reaches the target. -/
def reaches (target : Nat) : List Nat → Nat → Nat → Option (Option Nat)
  | [], _, _ => some none
  | w :: rest, cum, i =>
      match add u64Max cum w with
      | none => none
      | some cum => if cum ≥ target then some (some (i + 1)) else reaches target rest cum (i + 1)

def percentile (hist : List Nat) (pct : ℚ) : Option (Option ℚ) :=
  match sum u64Max hist with
  | none => none
  | some total =>
      if total = 0 then some none
      else
        let target := ⌈(total : ℚ) * pct / 100⌉.toNat
        (reaches target hist 0 0).map fun edge => some ((edge.getD bins : Nat) : ℚ)

/-- The tiers that the three percentiles suggest. -/
def suggestionOf (st : CalibratorState) (benign onset full : Option ℚ) : Suggestion :=
  let benignP95 := benign.getD 0
  let stallOnsetP10 := onset.getD 100
  let elevated := suggestedElevated benignP95 stallOnsetP10
  let fullCritical := clamp 5 50 (full.getD 20)
  let scale := elevated / 5
  let emergency := min (70 * scale) 100
  let critical := min (50 * scale) (emergency - 1)
  let high := min (25 * scale) (critical - 1)
  { elevatedPct := elevated
    fullCriticalPct := fullCritical
    highPct := high
    criticalPct := critical
    emergencyPct := emergency
    observedHours := (st.observedSecs : ℚ) / 3600
    stallEvents := st.stallEvents
    benignP95 := benignP95
    stallOnsetP10 := stallOnsetP10 }

def suggest (c : Calibrator) : Option (Option Suggestion) :=
  let st := c.state
  match sum u64Max st.stallSecs with
  | none => none
  | some stallTotal =>
      if st.observedSecs < minObservedSecs ∨ st.stallEvents < minStallEvents ∨
          stallTotal < minStallSecs then some none
      else
        match percentile st.benignSecs 95 with
        | none => none
        | some benign =>
            match percentile st.stallSecs 10 with
            | none => none
            | some onset =>
                match percentile st.fullSecs 95 with
                | none => none
                | some full => some (some (suggestionOf st benign onset full))

/-! ## When it fits -/

/-- There is enough to suggest from. -/
def Gated (st : CalibratorState) : Prop :=
  st.observedSecs < minObservedSecs ∨ st.stallEvents < minStallEvents ∨
    st.stallSecs.sum < minStallSecs

instance (st : CalibratorState) : Decidable (Gated st) := inferInstanceAs (Decidable (_ ∨ _))

/-- The masses that are summed fit: the stalls always, the others once there is
enough to suggest from. -/
def MassesFit (st : CalibratorState) : Prop :=
  st.stallSecs.sum ≤ u64Max ∧
    (¬ Gated st → st.benignSecs.sum ≤ u64Max ∧ st.fullSecs.sum ≤ u64Max)

instance (st : CalibratorState) : Decidable (MassesFit st) := inferInstanceAs (Decidable (_ ∧ _))

/-- The running sum is part of the total. -/
theorem reaches_eq (target : Nat) {hist : List Nat} {cum : Nat} (h : cum + hist.sum ≤ u64Max)
    (i : Nat) :
    reaches target hist cum i = some (Engine.Calibrate.reaches target hist cum i) := by
  induction hist generalizing cum i with
  | nil => rfl
  | cons w rest ih =>
      rw [List.sum_cons, ← Nat.add_assoc] at h
      have hHere : cum + w ≤ u64Max := by omega
      unfold reaches Engine.Calibrate.reaches add
      rw [if_pos hHere]
      dsimp only
      rw [ih h]
      split <;> rfl

theorem percentile_eq (hist : List Nat) (pct : ℚ) :
    percentile hist pct =
      if hist.sum ≤ u64Max then some (Engine.Calibrate.percentile hist pct) else none := by
  unfold percentile Engine.Calibrate.percentile
  rw [sum_eq]
  by_cases hFits : hist.sum ≤ u64Max
  · have hTotal : 0 + hist.sum ≤ u64Max := by omega
    rw [if_pos hFits, if_pos hFits]
    dsimp only
    rw [reaches_eq _ hTotal]
    split <;> rfl
  · rw [if_neg hFits, if_neg hFits]

/-- The exact suggestion. -/
theorem suggest_eq_suggestionOf (c : Calibrator) :
    c.suggest =
      if Gated c.state then none
      else some (suggestionOf c.state (Engine.Calibrate.percentile c.state.benignSecs 95)
        (Engine.Calibrate.percentile c.state.stallSecs 10)
        (Engine.Calibrate.percentile c.state.fullSecs 95)) := rfl

theorem suggest_of_fits {c : Calibrator} (h : MassesFit c.state) :
    suggest c = some c.suggest := by
  obtain ⟨hStalls, hOthers⟩ := h
  rw [suggest_eq_suggestionOf]
  unfold suggest
  dsimp only
  rw [sum_eq, if_pos hStalls]
  dsimp only
  by_cases hGated : Gated c.state
  · exact (if_pos hGated).trans (congrArg some (if_pos hGated).symm)
  · refine (if_neg hGated).trans (Eq.trans ?_ (congrArg some (if_neg hGated).symm))
    obtain ⟨hBenign, hFull⟩ := hOthers hGated
    rw [percentile_eq, percentile_eq, percentile_eq, if_pos hBenign, if_pos hStalls,
      if_pos hFull]

/-- **When a suggestion overflows.** -/
theorem suggest_isSome_iff (c : Calibrator) :
    (suggest c).isSome = true ↔ MassesFit c.state := by
  constructor
  · intro hSome
    unfold suggest at hSome
    dsimp only at hSome
    rw [sum_eq] at hSome
    by_cases hStalls : c.state.stallSecs.sum ≤ u64Max
    · refine ⟨hStalls, fun hOpen => ?_⟩
      rw [if_pos hStalls] at hSome
      dsimp only at hSome
      have hRest := (congrArg Option.isSome (if_neg hOpen)).symm.trans hSome
      rw [percentile_eq, percentile_eq, percentile_eq] at hRest
      by_cases hBenign : c.state.benignSecs.sum ≤ u64Max
      · by_cases hFull : c.state.fullSecs.sum ≤ u64Max
        · exact ⟨hBenign, hFull⟩
        · rw [if_pos hBenign, if_pos hStalls, if_neg hFull] at hRest
          cases hRest
      · rw [if_neg hBenign] at hRest
        cases hRest
    · rw [if_neg hStalls] at hSome
      cases hSome
  · intro h
    rw [suggest_of_fits h]
    rfl

end Mgd.Overflow
