import Mgd.Calibration

/-!
# Calibration across restarts

The calibrator is written with `to_toml` and read back with `from_toml`.  Its
debounce flag `in_stall` is not part of the state: after a restart it is false,
so a stall that is still going on counts as a new episode, which
`test_stall_event_debounce` rules out for one run.  TOML integers are `i64`; a
state that holds a larger `u64` is written as an empty file.

Two calibrators get the same samples, one of them is written and reloaded in
between.  `restarts_transparent_iff` says when they agree throughout.
-/

namespace Mgd.CalibrationRestart

open Mgd.Types Mgd.Lib.Run Mgd.Engine.Calibrate Mgd.Calibration

/-! ## The file format -/

/-- The largest `i64`. -/
def i64Max : Nat := 2 ^ 63 - 1

/-- Every integer of the state fits a TOML integer. -/
def Storable (st : CalibratorState) : Prop :=
  (∀ n ∈ st.benignSecs ++ st.stallSecs ++ st.fullSecs, n ≤ i64Max) ∧
    st.observedSecs ≤ i64Max ∧ st.stallEvents ≤ i64Max

instance (st : CalibratorState) : Decidable (Storable st) :=
  inferInstanceAs (Decidable (_ ∧ _))

/-- The `toml` crate on the state of the calibrator: `to_string` fails on an
integer out of range, `from_str` reads back what `to_string` wrote, and an empty
text lacks the fields. -/
structure StateToml where
  Text : Type
  empty : Text
  toString : CalibratorState → Option Text
  fromStr : Text → Option CalibratorState
  toString_isSome : ∀ st, (toString st).isSome = true ↔ Storable st
  fromStr_toString : ∀ st text, toString st = some text → fromStr text = some st
  fromStr_empty : fromStr empty = none

section Format

variable (toml : StateToml)

/-- `Calibrator::to_toml` -/
def toToml (c : Calibrator) : Calibrator × toml.Text :=
  ({ c with dirty := false }, (toml.toString c.state).getD toml.empty)

/-- `Calibrator::from_toml` -/
def fromToml (text : toml.Text) : Option Calibrator :=
  (toml.fromStr text).map Calibrator.fromState

/-- The calibrator of the next daemon, `load_calibrator` on what was written. -/
def reloaded (c : Calibrator) : Calibrator :=
  (fromToml toml (toToml toml c).2).getD Calibrator.new

end Format

/-! ## Two runs -/

/-- A run without restarts beside one with them. -/
structure TwoRuns where
  uninterrupted : Calibrator
  interrupted : Calibrator

inductive Move
  | observe (someAvg10 fullAvg10 : ℚ) (interventionActive : Bool) (weightSecs : Nat)
  | restart

def step (toml : StateToml) (r : TwoRuns) : Move → TwoRuns
  | .observe someAvg10 fullAvg10 interventionActive weightSecs =>
      { uninterrupted :=
          r.uninterrupted.observe someAvg10 fullAvg10 interventionActive weightSecs
        interrupted := r.interrupted.observe someAvg10 fullAvg10 interventionActive weightSecs }
  | .restart => { r with interrupted := reloaded toml r.interrupted }

/-- Both runs start from the same file. -/
def begin (saved : Option CalibratorState) : TwoRuns where
  uninterrupted := loadCalibrator saved
  interrupted := loadCalibrator saved

/-- The restarts leave no trace in the state, nor in what it suggests. -/
def Agree (r : TwoRuns) : Prop :=
  r.interrupted.state = r.uninterrupted.state ∧
    r.interrupted.suggest = r.uninterrupted.suggest

/-- The sample continues a stall of the uninterrupted run that the other run has
forgotten, and the event counter is not saturated. -/
def Recounted (r : TwoRuns) (fullAvg10 : ℚ) : Prop :=
  r.uninterrupted.inStall = true ∧ r.interrupted.inStall = false ∧ fullAvg10 ≥ stallFullPct ∧
    r.uninterrupted.state.stallEvents ≠ 2 ^ 32 - 1

/-- What keeps the runs together: the file can hold the state, and no untreated
sample continues a forgotten stall. -/
def Seamless (r : TwoRuns) : Move → Prop
  | .observe _ fullAvg10 interventionActive _ =>
      interventionActive = false → ¬ Recounted r fullAvg10
  | .restart => Storable r.interrupted.state

/-! ## One step -/

section Step

variable {toml : StateToml}

def WellFormed (st : CalibratorState) : Prop :=
  st.benignSecs.length = bins ∧ st.stallSecs.length = bins ∧ st.fullSecs.length = bins

theorem wellFormed_default : WellFormed CalibratorState.default :=
  ⟨List.length_replicate, List.length_replicate, List.length_replicate⟩

theorem fromState_of_wellFormed {st : CalibratorState} (h : WellFormed st) :
    Calibrator.fromState st = { state := st, inStall := false, dirty := false } := by
  obtain ⟨hBenign, hStall, hFull⟩ := h
  unfold Calibrator.fromState
  rw [if_neg (by simp [hBenign, hStall, hFull])]

theorem wellFormed_fromState (st : CalibratorState) :
    WellFormed (Calibrator.fromState st).state := by
  unfold Calibrator.fromState
  split
  · exact wellFormed_default
  · next h =>
      simp only [not_or, not_not] at h
      exact ⟨h.1, h.2.1, h.2.2⟩

/-- A sample adds to bins, and keeps their number. -/
theorem wellFormed_observe {c : Calibrator} (h : WellFormed c.state) (someAvg10 fullAvg10 : ℚ)
    (interventionActive : Bool) (weightSecs : Nat) :
    WellFormed (c.observe someAvg10 fullAvg10 interventionActive weightSecs).state := by
  obtain ⟨hBenign, hStall, hFull⟩ := h
  unfold Calibrator.observe
  dsimp only
  split
  · exact ⟨hBenign, hStall, hFull⟩
  · split
    · exact ⟨hBenign, (List.length_modify _ _ _).trans hStall,
        (List.length_modify _ _ _).trans hFull⟩
    · exact ⟨(List.length_modify _ _ _).trans hBenign, hStall, hFull⟩

/-- A state the file can hold comes back, without the flag. -/
theorem reloaded_of_storable {c : Calibrator} (hForm : WellFormed c.state)
    (hStorable : Storable c.state) :
    reloaded toml c = { state := c.state, inStall := false, dirty := false } := by
  obtain ⟨text, hText⟩ := Option.isSome_iff_exists.mp ((toml.toString_isSome c.state).mpr hStorable)
  unfold reloaded toToml fromToml
  dsimp only
  rw [hText, Option.getD_some, toml.fromStr_toString c.state text hText, Option.map_some,
    Option.getD_some, fromState_of_wellFormed hForm]

/-- Any other is lost. -/
theorem reloaded_of_not_storable {c : Calibrator} (hNot : ¬ Storable c.state) :
    reloaded toml c = Calibrator.new := by
  have hNone : toml.toString c.state = none := by
    rw [← Option.not_isSome_iff_eq_none]
    exact fun h => hNot ((toml.toString_isSome c.state).mp h)
  unfold reloaded toToml fromToml
  dsimp only
  rw [hNone, Option.getD_none, toml.fromStr_empty]
  rfl

theorem storable_default : Storable CalibratorState.default := by
  refine ⟨?_, Nat.zero_le _, Nat.zero_le _⟩
  intro n hn
  have hZero : n = 0 := by
    simp only [CalibratorState.default, List.mem_append, List.mem_replicate] at hn
    tauto
  rw [hZero]
  exact Nat.zero_le _

/-- The counter after a sample. -/
def countStall (stalling inStall : Bool) (stallEvents : Nat) : Nat :=
  if stalling && !inStall then min (stallEvents + 1) (2 ^ 32 - 1) else stallEvents

/-- An untreated sample moves two equal states apart only in the counter. -/
theorem observe_state_eq_iff {c c' : Calibrator} (hSame : c'.state = c.state)
    (someAvg10 fullAvg10 : ℚ) (weightSecs : Nat) :
    (c'.observe someAvg10 fullAvg10 false weightSecs).state =
        (c.observe someAvg10 fullAvg10 false weightSecs).state ↔
      countStall (decide (fullAvg10 ≥ stallFullPct)) c'.inStall c.state.stallEvents =
        countStall (decide (fullAvg10 ≥ stallFullPct)) c.inStall c.state.stallEvents := by
  unfold Calibrator.observe countStall
  dsimp only
  rw [hSame]
  cases decide (fullAvg10 ≥ stallFullPct) with
  | true => simp
  | false => simp

/-- Two counters that forgot different things agree unless one counts and the
other does not. -/
theorem countStall_eq_iff {stalling forgot inStall : Bool} {n : Nat}
    (hForgot : forgot = true → inStall = true) :
    countStall stalling forgot n = countStall stalling inStall n ↔
      ¬ (inStall = true ∧ forgot = false ∧ stalling = true ∧ n ≠ 2 ^ 32 - 1) := by
  unfold countStall
  cases inStall with
  | false =>
      have hSame : forgot = false := by
        cases forgot with
        | false => rfl
        | true => exact absurd (hForgot rfl) Bool.false_ne_true
      simp [hSame]
  | true =>
      cases forgot with
      | true => simp
      | false =>
          cases stalling with
          | false => simp
          | true =>
              simp only [Bool.not_false, Bool.not_true, Bool.and_true, Bool.and_false, if_true,
                Bool.false_eq_true, if_false, true_and]
              omega

theorem suggest_congr {c c' : Calibrator} (h : c'.state = c.state) :
    c'.suggest = c.suggest := by
  unfold Calibrator.suggest
  rw [h]

/-- The suggestion is a function of the state. -/
theorem agree_iff {r : TwoRuns} : Agree r ↔ r.interrupted.state = r.uninterrupted.state :=
  and_iff_left_of_imp suggest_congr

/-- Both states have their bins, and the restarted run has forgotten flags only. -/
structure Inv (r : TwoRuns) : Prop where
  wellFormed : WellFormed r.interrupted.state
  forgot : r.interrupted.inStall = true → r.uninterrupted.inStall = true

theorem Inv.step {r : TwoRuns} (h : Inv r) (move : Move) :
    Inv (CalibrationRestart.step toml r move) := by
  cases move with
  | observe someAvg10 fullAvg10 interventionActive weightSecs =>
      constructor
      · exact wellFormed_observe h.wellFormed _ _ _ _
      · intro hStall
        unfold CalibrationRestart.step Calibrator.observe at hStall ⊢
        dsimp only at hStall ⊢
        cases interventionActive with
        | true => exact hStall
        | false => exact hStall
  | restart =>
      unfold CalibrationRestart.step
      by_cases hStorable : Storable r.interrupted.state
      · rw [reloaded_of_storable h.wellFormed hStorable]
        exact ⟨h.wellFormed, fun hStall => absurd hStall Bool.false_ne_true⟩
      · rw [reloaded_of_not_storable hStorable]
        exact ⟨wellFormed_default, fun hStall => absurd hStall Bool.false_ne_true⟩

/-- **One move keeps the runs together exactly when it is seamless.** -/
theorem agree_step_iff {r : TwoRuns} (hInv : Inv r) (hAgree : Agree r) (move : Move) :
    Agree (CalibrationRestart.step toml r move) ↔ Seamless r move := by
  have hSame := agree_iff.mp hAgree
  rw [agree_iff]
  cases move with
  | observe someAvg10 fullAvg10 interventionActive weightSecs =>
      unfold CalibrationRestart.step Seamless Recounted
      dsimp only
      cases interventionActive with
      | true =>
          refine iff_of_true ?_ (fun h => absurd h (Bool.false_ne_true ∘ Eq.symm))
          unfold Calibrator.observe
          exact hSame
      | false =>
          rw [observe_state_eq_iff hSame, countStall_eq_iff hInv.forgot, decide_eq_true_eq]
          exact ⟨fun h _ => h, fun h => h rfl⟩
  | restart =>
      unfold CalibrationRestart.step Seamless
      dsimp only
      by_cases hStorable : Storable r.interrupted.state
      · rw [reloaded_of_storable hInv.wellFormed hStorable]
        exact iff_of_true hSame hStorable
      · rw [reloaded_of_not_storable hStorable]
        refine iff_of_false ?_ hStorable
        intro hNew
        apply hStorable
        rw [hSame, ← hNew]
        exact storable_default

theorem inv_begin (saved : Option CalibratorState) : Inv (begin saved) := by
  constructor
  · unfold begin loadCalibrator
    cases saved with
    | none => exact wellFormed_default
    | some st => exact wellFormed_fromState st
  · exact id

end Step

/-- **When restarts are transparent.**  Through every sequence of samples and
restarts the two runs agree in their state and in its suggestion exactly when
each restart can store the state and no untreated sample continues a stall that
a restart made the calibrator forget. -/
theorem restarts_transparent_iff (toml : StateToml) (saved : Option CalibratorState)
    (moves : List Move) :
    Always (step toml) Agree (begin saved) moves ↔
      EveryStep (step toml) Seamless (begin saved) moves :=
  always_iff_everyStep
    (fun _ move _ hInv _ _ => hInv.step move)
    (fun _ move _ hInv hAgree => agree_step_iff hInv hAgree move)
    (everyStep_true _ _) (inv_begin saved) ⟨rfl, rfl⟩

/-- A format whose texts are the states it can hold. -/
def plainToml : StateToml where
  Text := Option CalibratorState
  empty := none
  toString st := if Storable st then some (some st) else none
  fromStr := id
  toString_isSome st := by
    by_cases h : Storable st <;> simp [h]
  fromStr_toString st text h := by
    by_cases hStorable : Storable st
    · simpa [hStorable] using h.symm
    · simp [hStorable] at h
  fromStr_empty := rfl

/-- A stall, and a restart in the middle of it. -/
def stallAcrossRestart : List Move :=
  [.observe 30 5 false 5, .restart, .observe 35 8 false 5]

/-- **One stall counts twice.** -/
theorem stall_counted_twice :
    (run (step plainToml) (begin none) stallAcrossRestart).uninterrupted.state.stallEvents = 1 ∧
      (run (step plainToml) (begin none) stallAcrossRestart).interrupted.state.stallEvents = 2 ∧
      ¬ Always (step plainToml) Agree (begin none) stallAcrossRestart := by
  have hOnce : (run (step plainToml) (begin none)
      stallAcrossRestart).uninterrupted.state.stallEvents = 1 := by decide +kernel
  have hTwice : (run (step plainToml) (begin none)
      stallAcrossRestart).interrupted.state.stallEvents = 2 := by decide +kernel
  refine ⟨hOnce, hTwice, ?_⟩
  intro hAgree
  have hSame := congrArg CalibratorState.stallEvents hAgree.last.1
  rw [hOnce, hTwice] at hSame
  exact absurd hSame (by decide)

end Mgd.CalibrationRestart
