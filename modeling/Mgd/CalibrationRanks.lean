import Mgd.CalibrationBooks
import Mgd.Lib.Rank

/-!
# What the percentiles of the calibrator are

`percentile` walks a histogram of one-percent bins that `observe` fills, one bin
for each sample.  Over any history it gives the nearest-rank percentile of the
samples themselves, weighted by their seconds, moved up to the edge of its bin.

The histograms tally the samples (`tallies_seeAll`), so the rank of the bins is
the bin of the rank, and the suggestion is made of the exact percentiles
(`suggestion_percentiles`).
-/

namespace Mgd.CalibrationRanks

open Mgd.Types Mgd.Engine.Calibrate Mgd.CalibrationBooks Mgd.CalibrationRestart Mgd.Lib.Rank

/-! ## Histograms and their samples -/

inductive Histogram
  | benign
  | stall
  | full
deriving DecidableEq

namespace Histogram

def secs (st : CalibratorState) : Histogram → List Nat
  | benign => st.benignSecs
  | stall => st.stallSecs
  | full => st.fullSecs

/-- Which samples it counts. -/
def holds : Histogram → Sample → Bool
  | benign, s => !s.stalling
  | stall, s => s.stalling
  | full, s => s.stalling

/-- Which average of them. -/
def value : Histogram → Sample → ℚ
  | benign, s => s.someAvg10
  | stall, s => s.someAvg10
  | full, s => s.fullAvg10

/-- The averages counted over a history, with their seconds. -/
def seen (h : Histogram) (samples : List Sample) : List (ℚ × Nat) :=
  ((untreated samples).filter h.holds).map fun s => (h.value s, s.weightSecs)

end Histogram

/-- Rank of the nearest-rank percentile, out of so many seconds. -/
def nearestRank (total : Nat) (pct : ℚ) : Nat := ⌈(total : ℚ) * pct / 100⌉.toNat

/-- The percentile of weighted values, exactly. -/
def IsPercentile (l : List (ℚ × Nat)) (pct x : ℚ) : Prop :=
  IsRank l (nearestRank (l.map Prod.snd).sum pct) x

/-- The upper edge of the bin of a percentage. -/
def edge (x : ℚ) : ℚ := ((bin x + 1 : Nat) : ℚ)

theorem nearestRank_pos {total : Nat} {pct : ℚ} (hTotal : 0 < total) (hPct : 0 < pct) :
    0 < nearestRank total pct := by
  have hPos : (0 : ℚ) < (total : ℚ) * pct / 100 := by positivity
  have hCeil : 0 < ⌈(total : ℚ) * pct / 100⌉ := Int.ceil_pos.mpr hPos
  unfold nearestRank
  omega

theorem nearestRank_le {total : Nat} {pct : ℚ} (hPct : pct ≤ 100) :
    nearestRank total pct ≤ total := by
  have hQuot : (total : ℚ) * pct / 100 ≤ ((total : Int) : ℚ) := by
    rw [Int.cast_natCast, div_le_iff₀ (by norm_num)]
    exact mul_le_mul_of_nonneg_left hPct (Nat.cast_nonneg total)
  have hCeil : ⌈(total : ℚ) * pct / 100⌉ ≤ (total : Int) := Int.ceil_le.mpr hQuot
  unfold nearestRank
  omega

/-- There is a percentile as soon as anything weighs. -/
theorem exists_percentile {l : List (ℚ × Nat)} (pct : ℚ) (hSome : 0 < (l.map Prod.snd).sum)
    (hPos : 0 < pct) (hMost : pct ≤ 100) : ∃ x, IsPercentile l pct x := by
  obtain ⟨x, -, hRank⟩ := exists_rank (nearestRank_pos hSome hPos) (nearestRank_le hMost)
  exact ⟨x.1, hRank⟩

theorem bin_mono : Monotone bin := by
  intro x y hxy
  have hFloor : ⌊max x 0⌋ ≤ ⌊max y 0⌋ := Int.floor_mono (max_le_max_right 0 hxy)
  unfold bin
  omega

/-- In the range of a percentage the edge is less than a point above it. -/
theorem edge_bounds {x : ℚ} (hNonneg : 0 ≤ x) (hBelow : x < 100) :
    x < edge x ∧ edge x ≤ x + 1 := by
  have hBin : ((bin x : Nat) : Int) = ⌊x⌋ := by
    have hFloor : ⌊x⌋ < 100 := Int.floor_lt.mpr (by exact_mod_cast hBelow)
    have hPos : 0 ≤ ⌊x⌋ := Int.floor_nonneg.mpr hNonneg
    unfold bin bins
    rw [max_eq_left hNonneg]
    omega
  have hEdge : edge x = (⌊x⌋ : ℚ) + 1 := by
    unfold edge
    rw [← hBin]
    push_cast
    rfl
  rw [hEdge]
  exact ⟨Int.lt_floor_add_one x, by linarith [Int.floor_le x]⟩

/-! ## The bins tally the samples -/

theorem see_secs {s : Sample} (hUntreated : s.interventionActive = false) (c : Calibrator)
    (h : Histogram) :
    h.secs (see c s).state =
      if h.holds s then addAt (h.secs c.state) (bin (h.value s)) s.weightSecs
      else h.secs c.state := by
  unfold see Calibrator.observe Histogram.secs Histogram.holds Histogram.value Sample.stalling
  dsimp only
  rw [if_neg (by rw [hUntreated]; exact Bool.false_ne_true)]
  by_cases hStalls : s.fullAvg10 ≥ stallFullPct
  · rw [if_pos (decide_eq_true hStalls)]
    cases h <;> simp [hStalls]
  · rw [if_neg (by simpa using hStalls)]
    cases h <;> simp [hStalls]

theorem seen_append (h : Histogram) (samples : List Sample) (s : Sample) :
    h.seen (samples ++ [s]) =
      h.seen samples ++
        if !s.interventionActive && h.holds s then [(h.value s, s.weightSecs)] else [] := by
  unfold Histogram.seen untreated
  cases hTreated : s.interventionActive <;> cases hHolds : h.holds s <;> simp [hTreated, hHolds]

/-- No histogram holds more seconds than were observed. -/
theorem seen_le (h : Histogram) (samples : List Sample) :
    ((h.seen samples).map Prod.snd).sum ≤ totalSecs (untreated samples) := by
  induction samples using List.reverseRecOn with
  | nil => exact Nat.le_refl _
  | append_singleton samples s ih =>
      rw [seen_append, totalSecs_append, List.map_append, List.sum_append]
      cases hTreated : s.interventionActive <;> cases hHolds : h.holds s <;> simp <;> omega

theorem addAt_getD {hist : List Nat} {i : Nat} (secs : Nat) (hBin : i < hist.length)
    (hFits : hist.getD i 0 + secs ≤ u64Max) (j : Nat) :
    (addAt hist i secs).getD j 0 = hist.getD j 0 + if i = j then secs else 0 := by
  unfold addAt
  rw [List.getD_eq_getElem?_getD, List.getElem?_modify]
  by_cases hSame : i = j
  · subst hSame
    rw [List.getD_eq_getElem?_getD, List.getElem?_eq_getElem hBin] at hFits
    rw [if_pos rfl, List.getD_eq_getElem?_getD, List.getElem?_eq_getElem hBin]
    simpa using hFits
  · rw [if_neg hSame, Nat.add_zero, List.getD_eq_getElem?_getD]
    simp [hSame]

theorem tallies_addAt {hist : List Nat} {l : List (Nat × Nat)} {i secs : Nat}
    (h : Tallies hist l) (hBin : i < hist.length)
    (hFits : (l.map Prod.snd).sum + secs ≤ u64Max) : Tallies (addAt hist i secs) (l ++ [(i, secs)]) := by
  have hRoom : hist.getD i 0 + secs ≤ u64Max := by
    have hLess : weight l (· = i) ≤ (l.map Prod.snd).sum :=
      (weight_mono fun _ _ _ => trivial).trans (weight_true l).le
    rw [h i]
    omega
  intro j
  rw [addAt_getD secs hBin hRoom, h j, weight_append, weight_cons]
  rfl

/-- The bins of the averages a histogram counts. -/
def binned (h : Histogram) (samples : List Sample) : List (Nat × Nat) :=
  (h.seen samples).map (Prod.map bin id)

theorem binned_weights (h : Histogram) (samples : List Sample) :
    ((binned h samples).map Prod.snd).sum = ((h.seen samples).map Prod.snd).sum := by
  unfold binned
  rw [List.map_map]
  rfl

/-- What every history keeps: the widths of the histograms and their tallies. -/
structure Tallied (samples : List Sample) (st : CalibratorState) : Prop where
  width : ∀ h : Histogram, (h.secs st).length = bins
  tallies : ∀ h : Histogram, Tallies (h.secs st) (binned h samples)

theorem Tallied.see {samples : List Sample} {c : Calibrator} (h : Tallied samples c.state)
    (s : Sample) (hSecs : totalSecs (untreated (samples ++ [s])) ≤ u64Max) :
    Tallied (samples ++ [s]) (see c s).state := by
  cases hTreated : s.interventionActive with
  | true =>
      rw [see_treated hTreated]
      refine ⟨h.width, fun hist => ?_⟩
      have hSame : binned hist (samples ++ [s]) = binned hist samples := by
        unfold binned
        rw [seen_append, hTreated]
        simp
      rw [hSame]
      exact h.tallies hist
  | false =>
      refine ⟨fun hist => ?_, fun hist => ?_⟩
      · rw [see_secs hTreated]
        split
        · exact (List.length_modify _ _ _).trans (h.width hist)
        · exact h.width hist
      · have hFits := seen_le hist (samples ++ [s])
        rw [seen_append, hTreated] at hFits
        have hBinned : binned hist (samples ++ [s]) =
            binned hist samples ++
              if hist.holds s then [(bin (hist.value s), s.weightSecs)] else [] := by
          unfold binned
          rw [seen_append, hTreated, List.map_append]
          cases hist.holds s <;> rfl
        rw [see_secs hTreated, hBinned]
        cases hHolds : hist.holds s with
        | true =>
            rw [hHolds] at hFits
            apply tallies_addAt (h.tallies hist) (h.width hist ▸ bin_lt _)
            rw [binned_weights]
            simp at hFits
            omega
        | false =>
            rw [if_neg Bool.false_ne_true, if_neg Bool.false_ne_true, List.append_nil]
            exact h.tallies hist

/-- **The bins hold what the samples weigh.** -/
theorem tallies_seeAll {samples : List Sample} (hSecs : totalSecs (untreated samples) ≤ u64Max) :
    Tallied samples (seeAll samples).state := by
  induction samples using List.reverseRecOn with
  | nil =>
      refine ⟨fun h => by cases h <;> rfl, fun h i => ?_⟩
      have hNone : (h.secs Calibrator.new.state).getD i 0 = 0 := by
        cases h <;>
          simp [Histogram.secs, Calibrator.new, CalibratorState.default,
            List.getD_eq_getElem?_getD, List.getElem?_replicate] <;> split <;> rfl
      exact hNone
  | append_singleton samples s ih =>
      have hTotal := totalSecs_append samples s
      have hLast : seeAll (samples ++ [s]) = CalibrationBooks.see (seeAll samples) s :=
        List.foldl_concat ..
      rw [hLast]
      exact (ih (by omega)).see s hSecs

/-! ## The walk over the bins -/

theorem reaches_rank {target k : Nat} {hist : List Nat} {cum i : Nat}
    (hBelow : cum + (hist.take k).sum < target)
    (hReached : target ≤ cum + (hist.take (k + 1)).sum) :
    reaches target hist cum i = some (i + k + 1) := by
  induction hist generalizing cum i k with
  | nil =>
      rw [List.take_nil] at hBelow hReached
      omega
  | cons w rest ih =>
      unfold reaches
      rw [List.take_succ_cons, List.sum_cons] at hReached
      cases k with
      | zero =>
          rw [if_pos (by simpa using hReached)]
      | succ k =>
          rw [List.take_succ_cons, List.sum_cons] at hBelow
          rw [if_neg (by omega), ih (k := k) (by omega) (by omega)]
          congr 1
          omega

theorem Tallied.sum_secs {samples : List Sample} {st : CalibratorState} (h : Tallied samples st)
    (hist : Histogram) : (hist.secs st).sum = ((hist.seen samples).map Prod.snd).sum := by
  have hAll := (h.tallies hist).sum_take bins
  rw [List.take_of_length_le (by rw [h.width hist])] at hAll
  rw [hAll, ← binned_weights, ← weight_true]
  apply weight_congr
  intro x hx
  obtain ⟨y, -, rfl⟩ := List.mem_map.mp hx
  exact iff_of_true (bin_lt y.1) trivial

/-- **The histogram percentile is the edge above the exact one.** -/
theorem percentile_edge {samples : List Sample} {st : CalibratorState} (h : Tallied samples st)
    (hist : Histogram) {pct x : ℚ} (hx : IsPercentile (hist.seen samples) pct x)
    (hSome : 0 < ((hist.seen samples).map Prod.snd).sum) :
    percentile (hist.secs st) pct = some (edge x) := by
  have hRank : IsRank (binned hist samples) _ (bin x) := rank_map bin_mono hx
  obtain ⟨hBelow, hReached⟩ := (rank_tally (h.tallies hist) _ _).mp hRank
  have hSum := h.sum_secs hist
  unfold percentile
  rw [if_neg (by omega)]
  dsimp only
  rw [hSum, reaches_rank (i := 0) (by rw [Nat.zero_add]; exact hBelow)
    (by rw [Nat.zero_add]; exact hReached), Nat.zero_add]
  rfl

/-- With no seconds in the histogram there is none. -/
theorem percentile_none {samples : List Sample} {st : CalibratorState} (h : Tallied samples st)
    (hist : Histogram) (pct : ℚ) (hNone : ((hist.seen samples).map Prod.snd).sum = 0) :
    percentile (hist.secs st) pct = none := by
  unfold percentile
  rw [h.sum_secs hist, if_pos hNone]

/-! ## The suggestion -/

/-- The noise ceiling of a history, zero where nothing benign was seen. -/
def NoiseCeiling (samples : List Sample) (q : ℚ) : Prop :=
  (q = 0 ∧ ((Histogram.benign.seen samples).map Prod.snd).sum = 0) ∨
    ∃ x, IsPercentile (Histogram.benign.seen samples) 95 x ∧ q = edge x

theorem noiseCeiling_seeAll {samples : List Sample} {st : CalibratorState}
    (h : Tallied samples st) :
    NoiseCeiling samples ((percentile st.benignSecs 95).getD 0) := by
  by_cases hSome : 0 < ((Histogram.benign.seen samples).map Prod.snd).sum
  · obtain ⟨x, hx⟩ :=
      exists_percentile 95 hSome (by norm_num) (by norm_num)
    have hEdge : percentile st.benignSecs 95 = some (edge x) :=
      percentile_edge h .benign hx hSome
    rw [hEdge]
    exact .inr ⟨x, hx, rfl⟩
  · have hNone : percentile st.benignSecs 95 = none :=
      percentile_none h .benign 95 (by omega)
    rw [hNone]
    exact .inl ⟨rfl, by omega⟩

/-- **A suggestion is made of exact percentiles.**  Over every history whose seconds
fit the counters, the ceiling of the noise, the onset of the stalls and the floor
for a critical full average are the seconds-weighted nearest-rank percentiles of
the untreated samples, each moved up to the edge of its one-percent bin. -/
theorem suggestion_percentiles (samples : List Sample)
    (hSecs : totalSecs (untreated samples) ≤ u64Max) {s : Suggestion}
    (h : (seeAll samples).suggest = some s) :
    ∃ onset full,
      IsPercentile (Histogram.stall.seen samples) 10 onset ∧
      IsPercentile (Histogram.full.seen samples) 95 full ∧
      NoiseCeiling samples s.benignP95 ∧
      s.stallOnsetP10 = edge onset ∧
      s.fullCriticalPct = clamp 5 50 (edge full) ∧
      s.elevatedPct = suggestedElevated s.benignP95 (edge onset) := by
  have hTallied := tallies_seeAll hSecs
  unfold Calibrator.suggest at h
  dsimp only at h
  split at h
  · cases h
  · next hEnough =>
      -- a minute of stalls is in both histograms of the stalls
      have hStalls : 60 ≤ ((Histogram.stall.seen samples).map Prod.snd).sum := by
        have hSum : (seeAll samples).state.stallSecs.sum = _ := hTallied.sum_secs .stall
        unfold minStallSecs at hEnough
        omega
      have hFull : ((Histogram.full.seen samples).map Prod.snd).sum =
          ((Histogram.stall.seen samples).map Prod.snd).sum := by
        unfold Histogram.seen
        rw [List.map_map, List.map_map]
        rfl
      obtain ⟨onset, hOnset⟩ := exists_percentile (l := Histogram.stall.seen samples) 10
        (by omega) (by norm_num) (by norm_num)
      obtain ⟨full, hFullPct⟩ := exists_percentile (l := Histogram.full.seen samples) 95
        (by omega) (by norm_num) (by norm_num)
      have hOnsetEdge : percentile (seeAll samples).state.stallSecs 10 = some (edge onset) :=
        percentile_edge hTallied .stall hOnset (by omega)
      have hFullEdge : percentile (seeAll samples).state.fullSecs 95 = some (edge full) :=
        percentile_edge hTallied .full hFullPct (by omega)
      rw [hOnsetEdge, hFullEdge] at h
      cases h
      exact ⟨onset, full, hOnset, hFullPct, noiseCeiling_seeAll hTallied, rfl, rfl, rfl⟩

/-- Ten stalls of six seconds in a day of quiet. -/
def tenStalls : List Sample :=
  (List.replicate 10 [⟨3 / 2, 0, false, 8640⟩, ⟨40, 12, false, 6⟩]).flatten

theorem tenStalls_percentiles :
    ∃ s, (seeAll tenStalls).suggest = some s ∧ ∃ onset full,
      IsPercentile (Histogram.stall.seen tenStalls) 10 onset ∧
      IsPercentile (Histogram.full.seen tenStalls) 95 full ∧
      NoiseCeiling tenStalls s.benignP95 ∧
      s.stallOnsetP10 = edge onset ∧
      s.fullCriticalPct = clamp 5 50 (edge full) ∧
      s.elevatedPct = suggestedElevated s.benignP95 (edge onset) := by
  have hSome : (seeAll tenStalls).suggest.isSome := by decide +kernel
  obtain ⟨s, hs⟩ := Option.isSome_iff_exists.mp hSome
  exact ⟨s, hs, suggestion_percentiles tenStalls (by decide +kernel) hs⟩

end Mgd.CalibrationRanks
