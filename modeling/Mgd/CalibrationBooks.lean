import Mathlib.Data.List.Induction
import Mathlib.Order.Bounds.Basic
import Mgd.CalibrationRestart

/-!
# The books of the calibrator

What the calibrator holds after any history of samples, in terms of the history
alone: seconds by a sum, stall episodes by a count over the samples and their
predecessors, the largest full average by a maximum.

The flag that debounces the episodes is set by treated samples too, which count
nothing; `Books.flag` relates it to the last sample of the history.
-/

namespace Mgd.CalibrationBooks

open Mgd.Types Mgd.Engine.Calibrate Mgd.CalibrationRestart

/-! ## Histories -/

/-- The arguments of one call of `observe`. -/
structure Sample where
  someAvg10 : ℚ
  fullAvg10 : ℚ
  interventionActive : Bool
  weightSecs : Nat

def Sample.stalling (s : Sample) : Bool := decide (s.fullAvg10 ≥ stallFullPct)

def see (c : Calibrator) (s : Sample) : Calibrator :=
  c.observe s.someAvg10 s.fullAvg10 s.interventionActive s.weightSecs

/-- The calibrator after a history, from a fresh state. -/
def seeAll (samples : List Sample) : Calibrator := samples.foldl see Calibrator.new

def untreated (samples : List Sample) : List Sample :=
  samples.filter fun s => !s.interventionActive

def totalSecs (samples : List Sample) : Nat := (samples.map Sample.weightSecs).sum

/-- Each sample behind the one before it. -/
def withPredecessors (samples : List Sample) : List (Option Sample × Sample) :=
  (none :: samples.map some).zip samples

/-- An untreated sample that stalls, where the one before it did not. -/
def beginsStall : Option Sample × Sample → Bool
  | (before, s) => !s.interventionActive && s.stalling && !before.any Sample.stalling

def stallsBegun (samples : List Sample) : Nat := (withPredecessors samples).countP beginsStall

/-- The full averages of the untreated samples. -/
def fullAverages (samples : List Sample) : Set ℚ :=
  {q | ∃ s ∈ untreated samples, s.fullAvg10 = q}

/-! ## One sample -/

theorem zip_predecessors_append (before : Option Sample) (samples : List Sample) (s : Sample) :
    (before :: (samples ++ [s]).map some).zip (samples ++ [s]) =
      (before :: samples.map some).zip samples ++ [(samples.getLast?.or before, s)] := by
  induction samples generalizing before with
  | nil => rfl
  | cons x rest ih =>
      have hLast : (x :: rest).getLast?.or before = rest.getLast?.or (some x) := by
        cases rest with
        | nil => rfl
        | cons y rest => simp [List.getLast?_cons]
      rw [hLast, List.cons_append, List.map_cons, List.zip_cons_cons, ih (some x), List.map_cons,
        List.zip_cons_cons, List.cons_append]

theorem stallsBegun_append (samples : List Sample) (s : Sample) :
    stallsBegun (samples ++ [s]) =
      stallsBegun samples + if beginsStall (samples.getLast?, s) then 1 else 0 := by
  unfold stallsBegun withPredecessors
  rw [zip_predecessors_append, Option.or_none, List.countP_append, List.countP_singleton]

theorem totalSecs_append (samples : List Sample) (s : Sample) :
    totalSecs (untreated (samples ++ [s])) =
      totalSecs (untreated samples) + if s.interventionActive then 0 else s.weightSecs := by
  unfold totalSecs untreated
  cases hTreated : s.interventionActive <;> simp [hTreated]

theorem fullAverages_append_treated {samples : List Sample} {s : Sample}
    (h : s.interventionActive = true) :
    fullAverages (samples ++ [s]) = fullAverages samples := by
  unfold fullAverages untreated
  simp [h]

theorem fullAverages_append_untreated {samples : List Sample} {s : Sample}
    (h : s.interventionActive = false) :
    fullAverages (samples ++ [s]) = insert s.fullAvg10 (fullAverages samples) := by
  ext q
  simp only [fullAverages, untreated, List.filter_append, List.mem_append, Set.mem_ofPred_eq,
    Set.mem_insert_iff]
  simp [h]
  grind

/-- A bin takes all the seconds when they fit. -/
theorem addAt_sum {hist : List Nat} {i : Nat} (secs : Nat) (hBin : i < hist.length)
    (hFits : hist.sum + secs ≤ u64Max) : (addAt hist i secs).sum = hist.sum + secs := by
  unfold addAt
  induction hist generalizing i with
  | nil => simp at hBin
  | cons n rest ih =>
      rw [List.sum_cons] at hFits
      cases i with
      | zero =>
          simp only [List.modify_zero_cons, List.sum_cons]
          omega
      | succ i =>
          have hRest := ih (i := i) (by simpa using hBin) (by omega)
          simp only [List.modify_succ_cons, List.sum_cons]
          omega

theorem bin_lt (pct : ℚ) : bin pct < bins :=
  lt_of_le_of_lt (Nat.min_le_right _ _) (by decide)

/-- What the calibrator holds after a history. -/
structure Books (samples : List Sample) (c : Calibrator) : Prop where
  formed : WellFormed c.state
  observed : c.state.observedSecs = totalSecs (untreated samples)
  masses : c.state.benignSecs.sum + c.state.stallSecs.sum = c.state.observedSecs
  full : c.state.fullSecs.sum = c.state.stallSecs.sum
  greatest : IsGreatest (insert 0 (fullAverages samples)) c.state.maxFullAvg10
  events : c.state.stallEvents = stallsBegun samples
  flag : c.inStall = samples.getLast?.any Sample.stalling

theorem see_treated {s : Sample} (h : s.interventionActive = true) (c : Calibrator) :
    see c s = { c with inStall := s.stalling } := by
  unfold see Calibrator.observe
  dsimp only
  rw [if_pos h]
  rfl

theorem Books.see_treated {samples : List Sample} {c : Calibrator} (h : Books samples c)
    {s : Sample} (hTreated : s.interventionActive = true) : Books (samples ++ [s]) (see c s) := by
  rw [CalibrationBooks.see_treated hTreated]
  have hSecs := totalSecs_append samples s
  have hBegun := stallsBegun_append samples s
  simp only [hTreated, beginsStall] at hSecs hBegun
  exact
    { formed := h.formed
      observed := by rw [hSecs]; exact h.observed
      masses := h.masses
      full := h.full
      greatest := by rw [fullAverages_append_treated hTreated]; exact h.greatest
      events := by rw [hBegun]; exact h.events
      flag := by simp }

theorem greatest_insert {bound : Set ℚ} {m q : ℚ} (h : IsGreatest bound m) :
    IsGreatest (insert q bound) (if q > m then q else m) := by
  constructor
  · split
    · exact Set.mem_insert q bound
    · exact Set.mem_insert_of_mem q h.1
  · intro x hx
    have hMax : m ≤ (if q > m then q else m) ∧ q ≤ (if q > m then q else m) := by
      split
      · next hAbove => exact ⟨le_of_lt hAbove, le_refl q⟩
      · next hBelow => exact ⟨le_refl m, not_lt.mp hBelow⟩
    cases hx with
    | inl hSame => rw [hSame]; exact hMax.2
    | inr hOld => exact (h.2 hOld).trans hMax.1

theorem Books.see_untreated {samples : List Sample} {c : Calibrator} (h : Books samples c)
    {s : Sample} (hUntreated : s.interventionActive = false)
    (hSecs : totalSecs (untreated (samples ++ [s])) ≤ u64Max)
    (hEvents : stallsBegun (samples ++ [s]) ≤ 2 ^ 32 - 1) : Books (samples ++ [s]) (see c s) := by
  have hTotal := totalSecs_append samples s
  have hBegun := stallsBegun_append samples s
  rw [hUntreated, if_neg Bool.false_ne_true] at hTotal
  have hFits : c.state.observedSecs + s.weightSecs ≤ u64Max := by
    rw [h.observed]
    omega
  have hMasses := h.masses
  have hFull := h.full
  have hGreatest : IsGreatest (insert 0 (fullAverages (samples ++ [s])))
      (if s.fullAvg10 > c.state.maxFullAvg10 then s.fullAvg10 else c.state.maxFullAvg10) := by
    rw [fullAverages_append_untreated hUntreated, Set.insert_comm]
    exact greatest_insert h.greatest
  have hObserved : min (c.state.observedSecs + s.weightSecs) u64Max =
      totalSecs (untreated (samples ++ [s])) := by
    rw [hTotal, ← h.observed]
    omega
  have hCounted : (if s.stalling && !c.inStall then min (c.state.stallEvents + 1) (2 ^ 32 - 1)
      else c.state.stallEvents) = stallsBegun (samples ++ [s]) := by
    have hBegins : beginsStall (samples.getLast?, s) = (s.stalling && !c.inStall) := by
      unfold beginsStall
      dsimp only
      rw [hUntreated, h.flag]
      rfl
    rw [hBegins] at hBegun
    rw [h.events]
    by_cases hNew : (s.stalling && !c.inStall) = true
    · rw [if_pos hNew] at hBegun
      rw [if_pos hNew, ← hBegun]
      exact Nat.min_eq_left hEvents
    · rw [if_neg hNew] at hBegun
      rw [if_neg hNew]
      exact hBegun.symm
  have hFlag : s.stalling = (samples ++ [s]).getLast?.any Sample.stalling := by simp
  unfold see Calibrator.observe
  dsimp only
  rw [if_neg (by rw [hUntreated]; exact Bool.false_ne_true)]
  split
  · have hStallSum := addAt_sum s.weightSecs (h.formed.2.1 ▸ bin_lt s.someAvg10) (by omega)
    have hFullSum := addAt_sum s.weightSecs (h.formed.2.2 ▸ bin_lt s.fullAvg10) (by omega)
    exact
      { formed := ⟨h.formed.1, (List.length_modify _ _ _).trans h.formed.2.1,
          (List.length_modify _ _ _).trans h.formed.2.2⟩
        observed := hObserved
        masses := by dsimp only; omega
        full := by dsimp only; omega
        greatest := hGreatest
        events := hCounted
        flag := hFlag }
  · have hBenignSum := addAt_sum s.weightSecs (h.formed.1 ▸ bin_lt s.someAvg10) (by omega)
    exact
      { formed := ⟨(List.length_modify _ _ _).trans h.formed.1, h.formed.2⟩
        observed := hObserved
        masses := by dsimp only; omega
        full := hFull
        greatest := hGreatest
        events := hCounted
        flag := hFlag }

/-- The books of the empty history. -/
theorem books_new : Books [] Calibrator.new where
  formed := wellFormed_default
  observed := rfl
  masses := by decide
  full := by decide
  greatest := by
    have hNone : fullAverages [] = ∅ := by
      unfold fullAverages untreated
      simp
    rw [hNone, insert_empty_eq]
    exact isGreatest_singleton
  events := rfl
  flag := rfl

/-- **Every history is in the books.** -/
theorem books_seeAll {samples : List Sample} (hSecs : totalSecs (untreated samples) ≤ u64Max)
    (hEvents : stallsBegun samples ≤ 2 ^ 32 - 1) : Books samples (seeAll samples) := by
  induction samples using List.reverseRecOn with
  | nil => exact books_new
  | append_singleton samples s ih =>
      have hTotal := totalSecs_append samples s
      have hBegun := stallsBegun_append samples s
      have hBefore : Books samples (seeAll samples) := ih (by omega) (by omega)
      have hLast : seeAll (samples ++ [s]) = see (seeAll samples) s := List.foldl_concat ..
      rw [hLast]
      cases hTreated : s.interventionActive with
      | true => exact hBefore.see_treated hTreated
      | false => exact hBefore.see_untreated hTreated hSecs hEvents

/-! ## The closed form -/

/-- **The calibrator keeps the books of its history.** -/
theorem calibrator_books (samples : List Sample)
    (hSecs : totalSecs (untreated samples) ≤ u64Max)
    (hEvents : stallsBegun samples ≤ 2 ^ 32 - 1) :
    (seeAll samples).state.observedSecs = totalSecs (untreated samples) ∧
      (seeAll samples).state.observedSecs =
        (seeAll samples).state.benignSecs.sum + (seeAll samples).state.stallSecs.sum ∧
      (seeAll samples).state.fullSecs.sum = (seeAll samples).state.stallSecs.sum ∧
      (∀ c s, s.interventionActive = true → (see c s).state = c.state) ∧
      IsGreatest (insert 0 (fullAverages samples)) (seeAll samples).state.maxFullAvg10 ∧
      (seeAll samples).state.stallEvents = stallsBegun samples := by
  have h := books_seeAll hSecs hEvents
  refine ⟨h.observed, h.masses.symm, h.full, ?_, h.greatest, h.events⟩
  intro c s hTreated
  rw [see_treated hTreated]

/-- A stall that begins under treatment, goes on without it, ends and begins
again. -/
def twoStalls : List Sample :=
  [⟨40, 20, true, 60⟩, ⟨30, 12, false, 5⟩, ⟨2, 0, false, 60⟩, ⟨35, 16, false, 5⟩]

theorem twoStalls_books :
    (seeAll twoStalls).state.observedSecs = 70 ∧ (seeAll twoStalls).state.stallEvents = 1 ∧
      IsGreatest (insert 0 (fullAverages twoStalls)) (seeAll twoStalls).state.maxFullAvg10 := by
  obtain ⟨hSecs, -, -, -, hGreatest, hEvents⟩ :=
    calibrator_books twoStalls (by decide +kernel) (by decide +kernel)
  exact ⟨hSecs.trans (by decide +kernel), hEvents.trans (by decide +kernel), hGreatest⟩

/-- The maximum starts at zero: in a history under treatment throughout it is the
average of no sample. -/
theorem treated_history_maximum :
    ¬ IsGreatest (fullAverages [⟨40, 20, true, 60⟩, ⟨30, 12, true, 60⟩])
      (seeAll [⟨40, 20, true, 60⟩, ⟨30, 12, true, 60⟩]).state.maxFullAvg10 := by
  intro h
  obtain ⟨s, hs, -⟩ := h.1
  have hNone : untreated [⟨40, 20, true, 60⟩, ⟨30, 12, true, 60⟩] = [] := by decide +kernel
  rw [hNone] at hs
  cases hs

end Mgd.CalibrationBooks
