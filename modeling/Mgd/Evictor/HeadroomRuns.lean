import Mgd.Evictor.HeadroomFreeze
import Mgd.FocusUnfreeze

/-!
# Headroom over several cycles

The loop of `FreezeForHeadroom` takes the RSS of each victim off what is needed,
and stops as soon as that is covered.  The need itself is computed afresh in
every cycle, from the peaks of the Tracking spikes and from MemAvailable; the
victims already held are not taken off it, and stopping a process frees no memory
by itself.

While MemAvailable, the RSS of the processes and the Tracking set stay as they
are, the need does not rise (`need_mono`, `settled_step`).  So the first cycle that
freezes stays within the bound of one cycle; a later one asks for the same need
again.

## Main results

* `stopsWithin_bounded` : the bound, in every run whose cycles count the victims
  the run holds.
* `second_freeze_exceeds` : two cycles that freeze two indexers for one compiler.
-/

namespace Mgd.Evictor.HeadroomRuns

open Mgd.Types Mgd.Monitor Mgd.Config Mgd.Lib.AssocMap Mgd.Lib.Greedy Mgd.Lib.Run
open Mgd.SpikeMode Mgd.Evictor.Spike Mgd.Evictor.HeadroomFreeze
open Mgd.Evictor.CollectiveRelease (tracked drained_spikes update_fst sessionInput sessionProcess)
open Mgd.Evictor.ForegroundReclaim (freezable headroomGain headroomFrozen_split_iff)
open Mgd.FocusUnfreeze (releaseVictims_spikes_lookup)

/-! ## Peaks -/

section Peaks

variable {p : Params} {now : Instant} {rssD : Map Pid Kb} {proc : Process} {s : SpikeState}

/-- The samples of an update: old ones, and the one just taken. -/
theorem mem_sample {x : RssSample} (hx : x ∈ (sample p now proc s).samples) :
    x ∈ s.samples ∨ x.rss = proc.rssKb := by
  have hAll : x ∈ s.samples ++ [{ rss := proc.rssKb, takenAt := now }] :=
    (List.dropWhile_sublist _).subset hx
  rcases List.mem_append.mp hAll with hOld | hNew
  · exact Or.inl hOld
  · rw [List.mem_singleton.mp hNew]
    exact Or.inr rfl

/-- The sample just taken is in the window. -/
theorem sample_taken (p : Params) (now : Instant) (proc : Process) (s : SpikeState) :
    ∃ x ∈ (sample p now proc s).samples, x.rss = proc.rssKb := by
  have hLast : ∀ (P : RssSample → Bool) (x : RssSample), P x = false →
      ∀ xs : List RssSample, x ∈ (xs ++ [x]).dropWhile P := by
    intro P x hx xs
    induction xs with
    | nil => simp [hx]
    | cons y ys ih =>
        rw [List.cons_append, List.dropWhile_cons]
        split
        · exact ih
        · simp
  refine ⟨{ rss := proc.rssKb, takenAt := now }, hLast _ _ ?_ s.samples, rfl⟩
  simp [Instant.durationSince]

/-- An update leaves a spike with the window it has sampled, or demotes it. -/
theorem track_window (p : Params) (now : Instant) (rssD : Map Pid Kb) (proc : Process)
    (s : SpikeState) :
    ((track p now rssD proc s).1.phase = .observing ∧
        (track p now rssD proc s).1.samples = [] ∧
        (track p now rssD proc s).1.rssMax = proc.rssKb) ∨
      ((track p now rssD proc s).1.samples = (sample p now proc s).samples ∧
        (track p now rssD proc s).1.rssMax =
          windowMax (sample p now proc s).samples proc.rssKb) := by
  unfold track
  dsimp only
  split
  · exact Or.inr ⟨rfl, rfl⟩
  split
  · split
    · split
      · exact Or.inl ⟨rfl, rfl, rfl⟩
      · exact Or.inr ⟨rfl, rfl⟩
    · exact Or.inr ⟨rfl, rfl⟩
  · exact Or.inr ⟨rfl, rfl⟩

/-- Neither the window nor its maximum exceeds `m`. -/
def Below (m : Nat) (s : SpikeState) : Prop :=
  (∀ x ∈ s.samples, x.rss.val ≤ m) ∧ s.rssMax.val ≤ m

/-- The maximum covers the window and the RSS the process has. -/
def Peaked (rss : Kb) (s : SpikeState) : Prop :=
  (∀ x ∈ s.samples, x.rss.val ≤ s.rssMax.val) ∧ rss.val ≤ s.rssMax.val

/-- A sample within the bound keeps the window within it. -/
theorem track_below {m : Nat} (hRss : proc.rssKb.val ≤ m) (h : Below m s) :
    Below m (track p now rssD proc s).1 := by
  have hSample : ∀ x ∈ (sample p now proc s).samples, x.rss.val ≤ m := by
    intro x hx
    rcases mem_sample hx with hOld | hNew
    · exact h.1 x hOld
    · rw [hNew]
      exact hRss
  rcases track_window p now rssD proc s with ⟨-, hSamples, hMax⟩ | ⟨hSamples, hMax⟩
  · constructor
    · rw [hSamples]
      exact fun x hx => absurd hx List.not_mem_nil
    · rw [hMax]
      exact hRss
  · constructor
    · rw [hSamples]
      exact hSample
    · rw [hMax]
      exact windowMax_le hSample hRss

/-- After its update the maximum of a Tracking spike covers its window. -/
theorem track_peaked (hPhase : (track p now rssD proc s).1.phase = .tracking) :
    Peaked proc.rssKb (track p now rssD proc s).1 := by
  rcases track_window p now rssD proc s with ⟨hObserving, -⟩ | ⟨hSamples, hMax⟩
  · rw [hObserving] at hPhase
    cases hPhase
  · rcases sample_taken p now proc s with ⟨taken, hTaken, hRss⟩
    unfold Peaked
    rw [hSamples, hMax]
    refine ⟨fun x hx => le_windowMax hx _, ?_⟩
    rw [← hRss]
    exact le_windowMax hTaken _

end Peaks

/-! ## The need -/

section Need

/-- The headroom asked for: the peaks times the factor, less what is available. -/
def need (factor : ℚ) (available peaks : Kb) : Option Kb :=
  if peaks.val > 0 then
    if available.val < (truncKb ((peaks.val : ℚ) * factor)).val then
      some ((truncKb ((peaks.val : ℚ) * factor)).saturatingSub available)
    else none
  else none

/-- The peaks of the Tracking spikes. -/
def trackingPeaks (spikes : Map Pid SpikeState) : Kb :=
  Kb.sum (((values spikes).filter (fun s => decide (s.phase = .tracking))).map SpikeState.rssMax)

/-- The RAM check asks for what the Tracking spikes need. -/
theorem headroomDecisions_need (p : Params) (available : Kb) (spikes : Map Pid SpikeState) :
    (headroomDecisions p available spikes).findSome? neededOf =
      need p.headroomFactor available (trackingPeaks spikes) := by
  unfold headroomDecisions need trackingPeaks
  dsimp only
  split
  · split <;> rfl
  · rfl

theorem asked_eq_need (t : SpikeTracker) (inp : SpikeInput) :
    asked t inp =
      if inp.cfg.spikeModeEnabled then
        need inp.cfg.spikeHeadroomFactor inp.available (trackingPeaks (checkedSpikes t inp))
      else none := by
  rw [asked_eq, headroomDecisions_need]
  rfl

theorem truncKb_mono {q q' : ℚ} (h : q ≤ q') : (truncKb q).val ≤ (truncKb q').val := by
  have hFloor : ∀ x : ℚ, x.num.toNat / x.den = ⌊x⌋.toNat := by
    intro x
    rw [Rat.floor_def']
    cases hNum : x.num with
    | ofNat n => rfl
    | negSucc n =>
        have hNeg : (Int.negSucc n / (x.den : Int)) < 0 :=
          Int.ediv_neg_of_neg_of_pos (Int.negSucc_lt_zero n) (by exact_mod_cast x.den_pos)
        rw [Int.toNat_of_nonpos hNeg.le]
        simp
  have hNat : ⌊q⌋.toNat ≤ ⌊q'⌋.toNat := Int.toNat_le_toNat (Int.floor_mono h)
  unfold truncKb Kb.clamp
  rw [hFloor, hFloor]
  dsimp only
  omega

/-- A negative factor asks for nothing. -/
theorem truncKb_of_nonpos {q : ℚ} (h : q ≤ 0) : (truncKb q).val = 0 := by
  have hZero : (truncKb 0).val = 0 := by decide
  have hLe := truncKb_mono h
  omega

/-- **Lower peaks need no more.** -/
theorem need_mono {factor : ℚ} {available peaks peaks' needed needed' : Kb}
    (hLe : peaks'.val ≤ peaks.val) (h : need factor available peaks = some needed)
    (h' : need factor available peaks' = some needed') : needed'.val ≤ needed.val := by
  unfold need at h h'
  split at h
  case isFalse => cases h
  split at h
  case isFalse => cases h
  split at h'
  case isFalse => cases h'
  split at h'
  case isFalse => cases h'
  next hLess =>
  cases h
  cases h'
  have hFactor : 0 ≤ factor := by
    by_contra hNeg
    have hProduct : (peaks'.val : ℚ) * factor ≤ 0 :=
      mul_nonpos_of_nonneg_of_nonpos (Nat.cast_nonneg _) (not_le.mp hNeg).le
    rw [truncKb_of_nonpos hProduct] at hLess
    omega
  have hProduct : (peaks'.val : ℚ) * factor ≤ (peaks.val : ℚ) * factor :=
    mul_le_mul_of_nonneg_right (Nat.cast_le.mpr hLe) hFactor
  have hRequired := truncKb_mono hProduct
  simp only [Kb.saturatingSub, Kb.clamp]
  omega

/-- Fewer Tracking spikes with lower peaks. -/
theorem trackingPeaks_le {spikes spikes' : Map Pid SpikeState}
    (h : ∀ pid s', spikes'.lookup pid = some s' → s'.phase = .tracking →
      ∃ s, spikes.lookup pid = some s ∧ s.phase = .tracking ∧ s'.rssMax.val ≤ s.rssMax.val) :
    (trackingPeaks spikes').val ≤ (trackingPeaks spikes).val := by
  let peak : SpikeState → Nat := fun s => if s.phase = .tracking then s.rssMax.val else 0
  have hSum : ∀ xs : List SpikeState,
      (((xs.filter (fun s => decide (s.phase = .tracking))).map SpikeState.rssMax).map
        Kb.val).sum = (xs.map peak).sum := by
    intro xs
    induction xs with
    | nil => rfl
    | cons s rest ih =>
        by_cases hPhase : s.phase = .tracking
        · rw [List.filter_cons_of_pos (by simp [hPhase])]
          simp only [List.map_cons, List.sum_cons, ih, peak, if_pos hPhase]
        · rw [List.filter_cons_of_neg (by simp [hPhase])]
          simp only [List.map_cons, List.sum_cons, ih, peak, if_neg hPhase, Nat.zero_add]
  have hLe : ((values spikes').map peak).sum ≤ ((values spikes).map peak).sum := by
    refine sum_values_le fun pid s' hs' => ?_
    by_cases hPhase : s'.phase = .tracking
    · rcases h pid s' hs' hPhase with ⟨s, hs, hTracking, hMax⟩
      refine Or.inr ⟨s, hs, ?_⟩
      simp only [peak, if_pos hPhase, if_pos hTracking]
      exact hMax
    · exact Or.inl (if_neg hPhase)
  unfold trackingPeaks
  rw [Kb.sum_val, Kb.sum_val, hSum, hSum]
  omega

end Need

/-! ## Runs -/

/-- A process that was stopped as a victim, with the RSS it had. -/
structure Frozen where
  pid : Pid
  startTime : Option Nat
  rss : Kb
deriving DecidableEq

/-- The headroom asked for first, and the factor of that cycle. -/
structure Ask where
  needed : Kb
  factor : ℚ
deriving DecidableEq

/-- The tracker, the first need of the run and the processes stopped in it. -/
structure HeadroomRun where
  tracker : SpikeTracker
  first : Option Ask
  frozen : List Frozen

def HeadroomRun.start (t : SpikeTracker) : HeadroomRun where
  tracker := t
  first := none
  frozen := []

/-- The process has been stopped in the run before. -/
def known (inp : SpikeInput) (frozen : List Frozen) (p : Process) : Bool :=
  frozen.any (fun f => decide (f.pid = p.pid) && decide (f.startTime = inp.startTime p.pid))

/-- A process that is stopped again counts once. -/
def remember (inp : SpikeInput) (frozen : List Frozen) (p : Process) : List Frozen :=
  if known inp frozen p then frozen
  else frozen ++ [{ pid := p.pid, startTime := inp.startTime p.pid, rss := p.rssKb }]

def totalRss (frozen : List Frozen) : Nat := (frozen.map fun f => f.rss.val).sum

def HeadroomRun.firstAsk (s : HeadroomRun) (inp : SpikeInput) : Option Ask :=
  s.first.or ((asked s.tracker inp).map fun needed =>
    { needed := needed, factor := inp.cfg.spikeHeadroomFactor })

/-- One cycle. -/
def step (s : HeadroomRun) (inp : SpikeInput) : HeadroomRun where
  tracker := (runSpikeCycle s.tracker inp).1
  first := s.firstAsk inp
  frozen := (cycleStopped s.tracker inp).foldl (remember inp) s.frozen

/-! ## The promise -/

def IsTracking (t : SpikeTracker) (pid : Pid) : Prop :=
  ∃ spike, t.spikes.lookup pid = some spike ∧ spike.phase = .tracking

/-- MemAvailable, the RSS of every process and the Tracking set are the given
ones. -/
structure Steady (available : Kb) (rss : Pid → Kb) (tracking : Pid → Prop) (s : HeadroomRun)
    (inp : SpikeInput) : Prop where
  available : inp.available = available
  rss : ∀ p ∈ inp.procs, p.rssKb = rss p.pid
  tracking : ∀ pid, IsTracking (step s inp).tracker pid ↔ tracking pid

/-- The total is less than what was needed plus the largest of them. -/
def Within (needed : Nat) (frozen : List Frozen) : Prop :=
  frozen = [] ∨ ∃ largest ∈ frozen, (∀ f ∈ frozen, f.rss.val ≤ largest.rss.val) ∧
    totalRss frozen < needed + largest.rss.val

/-- What the run has stopped is within its first need. -/
def Bounded (s : HeadroomRun) : Prop :=
  s.frozen = [] ∨ ∃ ask, s.first = some ask ∧ Within ask.needed.val s.frozen

/-- What the run holds when the loop has gone through some candidates. -/
def heldAfter (s : HeadroomRun) (inp : SpikeInput) (before : List Process) : List Frozen :=
  (before.filter (freezable inp)).foldl (remember inp) s.frozen

/-- Each candidate that the cycle stops for the first time in the run comes up
while the processes stopped in the run do not cover the first need. -/
def CountsHeld (s : HeadroomRun) (inp : SpikeInput) : Prop :=
  ∀ needed ask before p after, asked s.tracker inp = some needed → s.firstAsk inp = some ask →
    headroomCandidates (decided s.tracker inp) inp = before ++ p :: after →
      freezable inp p = true → spent (headroomGain inp) before < needed.val →
        known inp (heldAfter s inp before) p = false →
          totalRss (heldAfter s inp before) < ask.needed.val

/-- No process has been stopped in the run, and the factor is that of its first
need. -/
def HoldsNone (s : HeadroomRun) (inp : SpikeInput) : Prop :=
  s.frozen = [] ∧ ∀ ask, s.first = some ask → inp.cfg.spikeHeadroomFactor = ask.factor

def StopsWithin (s : HeadroomRun) (inp : SpikeInput) : Prop := HoldsNone s inp ∨ CountsHeld s inp

/-! ### What one cycle adds -/

section Adding

variable {s : HeadroomRun} {inp : SpikeInput}

theorem totalRss_append (xs ys : List Frozen) :
    totalRss (xs ++ ys) = totalRss xs + totalRss ys := by
  simp [totalRss]

/-- One more, while there is room for it. -/
theorem within_append {needed : Nat} {frozen : List Frozen} (h : Within needed frozen)
    (hRoom : totalRss frozen < needed) (f : Frozen) : Within needed (frozen ++ [f]) := by
  have hTotal : totalRss (frozen ++ [f]) = totalRss frozen + f.rss.val := by
    rw [totalRss_append]
    simp [totalRss]
  have hLast : f ∈ frozen ++ [f] := by simp
  have hSplit : ∀ g ∈ frozen ++ [f], g ∈ frozen ∨ g = f := by
    intro g hg
    simpa using hg
  unfold Within
  rw [hTotal]
  right
  rcases h with rfl | ⟨largest, hLargest, hMax, -⟩
  · refine ⟨f, hLast, fun g hg => ?_, by omega⟩
    rcases hSplit g hg with hNone | rfl
    · cases hNone
    · exact le_rfl
  · by_cases hLarger : largest.rss.val ≤ f.rss.val
    · refine ⟨f, hLast, fun g hg => ?_, by omega⟩
      rcases hSplit g hg with hOld | rfl
      · exact (hMax g hOld).trans hLarger
      · exact le_rfl
    · refine ⟨largest, List.mem_append_left _ hLargest, fun g hg => ?_, by omega⟩
      rcases hSplit g hg with hOld | rfl
      · exact hMax g hOld
      · omega

/-- Going through candidates adds no more than their gains. -/
theorem totalRss_heldAfter (s : HeadroomRun) (inp : SpikeInput) (before : List Process) :
    totalRss (heldAfter s inp before) ≤ totalRss s.frozen + spent (headroomGain inp) before := by
  have hFold : ∀ frozen : List Frozen,
      totalRss ((before.filter (freezable inp)).foldl (remember inp) frozen) ≤
        totalRss frozen + spent (headroomGain inp) before := by
    induction before with
    | nil => exact fun frozen => le_rfl
    | cons p rest ih =>
        intro frozen
        rw [spent_cons]
        by_cases hFreezable : freezable inp p = true
        · have hGain : (headroomGain inp p).getD 0 = p.rssKb.val := by
            simp [headroomGain, hFreezable]
          have hHere : totalRss (remember inp frozen p) ≤ totalRss frozen + p.rssKb.val := by
            unfold remember
            split
            · omega
            · rw [totalRss_append]
              simp [totalRss]
          have hRest := ih (remember inp frozen p)
          rw [List.filter_cons_of_pos hFreezable, List.foldl_cons]
          omega
        · have hRest := ih frozen
          rw [List.filter_cons_of_neg hFreezable]
          omega
  exact hFold s.frozen

/-- A cycle that stops its first victims for a need no larger than the first counts
what it holds. -/
theorem countsHeld_of_first (hNone : s.frozen = [])
    (hNeed : ∀ needed ask, asked s.tracker inp = some needed → s.firstAsk inp = some ask →
      needed.val ≤ ask.needed.val) :
    CountsHeld s inp := by
  intro needed ask before p after hAsked hFirst _ _ hSpent _
  have hTotal := totalRss_heldAfter s inp before
  have hEmpty : totalRss s.frozen = 0 := by
    rw [hNone]
    rfl
  have hLe := hNeed needed ask hAsked hFirst
  omega

/-- **What a cycle adds** stays within the first need when it counts what the run
holds. -/
theorem within_step {ask : Ask} (hCounts : CountsHeld s inp) (hFirst : s.firstAsk inp = some ask)
    (h : Within ask.needed.val s.frozen) :
    Within ask.needed.val ((cycleStopped s.tracker inp).foldl (remember inp) s.frozen) := by
  unfold cycleStopped
  cases hAsked : asked s.tracker inp with
  | none => exact h
  | some needed =>
      -- by induction on what has been stopped so far, from the end
      have hPrefix : ∀ done left,
          stopped (decided s.tracker inp) inp needed = done ++ left →
            Within ask.needed.val (done.foldl (remember inp) s.frozen) := by
        intro done
        induction done using List.reverseRecOn with
        | nil => exact fun _ _ => h
        | append_singleton done p ih =>
            intro left hSplit
            rw [List.append_assoc, List.singleton_append] at hSplit
            have hDone := ih (p :: left) hSplit
            rcases headroomFrozen_split_iff.mp ⟨left, hSplit⟩ with
              ⟨before, after, hCandidates, hServed, hLeft, hFreezable⟩
            have hHeld : done.foldl (remember inp) s.frozen = heldAfter s inp before := by
              rw [hServed]
              rfl
            rw [List.foldl_append, List.foldl_cons, List.foldl_nil, hHeld]
            rw [hHeld] at hDone
            unfold remember
            split
            · exact hDone
            · next hNew =>
                refine within_append hDone ?_ _
                exact hCounts needed ask before p after hAsked hFirst hCandidates hFreezable
                  hLeft (Bool.not_eq_true _ ▸ hNew)
      exact hPrefix _ [] (List.append_nil _).symm

end Adding

/-! ### What stays the same -/

section Steadiness

variable {s : HeadroomRun} {inp : SpikeInput} {t : SpikeTracker} {pid : Pid} {spike : SpikeState}

/-- The RAM check reads spikes that are listed. -/
theorem listed_of_checked (h : (checkedSpikes t inp).lookup pid = some spike) :
    pid ∈ inp.procs.map Process.pid := by
  by_contra hUnlisted
  have hNone : ∀ s, (checkedSpikes t inp).lookup pid = some s → False := by
    unfold checkedSpikes tracked
    refine trackAll_keeps (P := fun _ => False)
      (fun proc hMem hPid => absurd (hPid ▸ List.mem_map_of_mem hMem) hUnlisted) (fun s hs => ?_)
    rw [foldl_register_unlisted hUnlisted, releaseVictims_spikes_lookup, if_neg hUnlisted] at hs
    cases hs
  exact hNone spike h

/-- Past the update the maximum of each Tracking spike covers its window. -/
theorem checked_peaked {rss : Pid → Kb} (hRss : ∀ p ∈ inp.procs, p.rssKb = rss p.pid)
    (h : (checkedSpikes t inp).lookup pid = some spike) (hPhase : spike.phase = .tracking) :
    Peaked (rss pid) spike := by
  have hAll : ∀ s, (checkedSpikes t inp).lookup pid = some s → s.phase = .tracking →
      Peaked (rss pid) s := by
    refine trackAll_makes (P := fun s => s.phase = .tracking → Peaked (rss pid) s)
      (listed_of_checked h) (fun proc hMem hPid s hs => ?_)
    have hPeaked := track_peaked hs
    rw [hRss proc hMem, hPid] at hPeaked
    exact hPeaked
  exact hAll spike h hPhase

/-- The update keeps a bound on a spike that bounds its process. -/
theorem checked_below {rss : Pid → Kb} (hRss : ∀ p ∈ inp.procs, p.rssKb = rss p.pid)
    {old : SpikeState} {m : Nat} (hOld : t.spikes.lookup pid = some old) (hBelow : Below m old)
    (hLe : (rss pid).val ≤ m) (h : (checkedSpikes t inp).lookup pid = some spike) :
    Below m spike := by
  have hListed := listed_of_checked h
  have hReleased : (releaseVictims t inp).1.spikes.lookup pid = some old := by
    rw [releaseVictims_spikes_lookup, if_pos hListed]
    exact hOld
  have hAll : ∀ s, (checkedSpikes t inp).lookup pid = some s → Below m s := by
    refine trackAll_keeps (fun proc hMem hPid s hs => ?_) (fun s hs => ?_)
    · refine track_below ?_ hs
      rw [hRss proc hMem, hPid]
      exact hLe
    · rw [foldl_register_lookup inp.procs hReleased] at hs
      cases hs
      exact hBelow
  exact hAll spike h

/-- With spike mode on, the cycle leaves the spikes the RAM check read, up to flags. -/
theorem runSpikeCycle_spikes_on (hEnabled : inp.cfg.spikeModeEnabled = true) (pid : Pid) :
    ((runSpikeCycle t inp).1.spikes.lookup pid).map SpikeState.unflagged =
      ((checkedSpikes t inp).lookup pid).map SpikeState.unflagged := by
  unfold runSpikeCycle
  dsimp only
  rw [foldl_executeDecision_spikes]
  unfold spikeDecisions
  rw [if_pos hEnabled, update_fst]
  dsimp only
  rw [checkCpuAll_unflagged, drained_spikes]
  rfl

/-- With spike mode off, it leaves those that are listed. -/
theorem runSpikeCycle_spikes_off (hEnabled : ¬ inp.cfg.spikeModeEnabled = true) (pid : Pid) :
    (runSpikeCycle t inp).1.spikes.lookup pid =
      if pid ∈ inp.procs.map Process.pid then t.spikes.lookup pid else none := by
  unfold runSpikeCycle
  dsimp only
  rw [foldl_executeDecision_spikes]
  unfold spikeDecisions
  rw [if_neg hEnabled]
  exact releaseVictims_spikes_lookup pid

/-- A spike that differs by its flag has the same window and phase. -/
theorem of_unflagged {m m' : Map Pid SpikeState}
    (h : (m.lookup pid).map SpikeState.unflagged = (m'.lookup pid).map SpikeState.unflagged)
    (hLookup : m.lookup pid = some spike) :
    ∃ spike', m'.lookup pid = some spike' ∧ spike'.phase = spike.phase ∧
      spike'.samples = spike.samples ∧ spike'.rssMax = spike.rssMax := by
  rw [hLookup, Option.map_some] at h
  rcases Option.map_eq_some_iff.mp h.symm with ⟨spike', hLookup', hEq⟩
  have hPhase := congrArg SpikeState.phase hEq
  have hSamples := congrArg SpikeState.samples hEq
  have hMax := congrArg SpikeState.rssMax hEq
  exact ⟨spike', hLookup', hPhase, hSamples, hMax⟩

variable {available : Kb} {rss : Pid → Kb} {tracking : Pid → Prop} {ask : Ask}

/-- After the first need: the maximum of each Tracking spike covers its window, the
Tracking set is the given one, and the peaks need no more than was asked for. -/
structure Settled (available : Kb) (rss : Pid → Kb) (tracking : Pid → Prop) (ask : Ask)
    (t : SpikeTracker) : Prop where
  peaked : ∀ pid spike, t.spikes.lookup pid = some spike → spike.phase = .tracking →
    Peaked (rss pid) spike
  tracking : ∀ pid, IsTracking t pid ↔ tracking pid
  peaks : ∃ peaks, need ask.factor available peaks = some ask.needed ∧
    (trackingPeaks t.spikes).val ≤ peaks.val

/-- What the RAM check reads is Tracking after the cycle. -/
theorem tracking_of_checked (hEnabled : inp.cfg.spikeModeEnabled = true)
    (h : (checkedSpikes t inp).lookup pid = some spike) (hPhase : spike.phase = .tracking) :
    IsTracking (runSpikeCycle t inp).1 pid := by
  rcases of_unflagged (runSpikeCycle_spikes_on hEnabled pid).symm h with
    ⟨spike', hLookup, hSame, -, -⟩
  exact ⟨spike', hLookup, hSame.trans hPhase⟩

/-- **The peaks do not rise** while nothing changes. -/
theorem checkedPeaks_le (hSettled : Settled available rss tracking ask s.tracker)
    (hSteady : Steady available rss tracking s inp) (hEnabled : inp.cfg.spikeModeEnabled = true) :
    (trackingPeaks (checkedSpikes s.tracker inp)).val ≤
      (trackingPeaks s.tracker.spikes).val := by
  refine trackingPeaks_le fun pid spike hChecked hPhase => ?_
  have hNow : tracking pid :=
    (hSteady.tracking pid).mp (tracking_of_checked hEnabled hChecked hPhase)
  rcases (hSettled.tracking pid).mpr hNow with ⟨old, hOld, hOldPhase⟩
  have hPeaked := hSettled.peaked pid old hOld hOldPhase
  have hBelow : Below old.rssMax.val old := ⟨hPeaked.1, le_rfl⟩
  exact ⟨old, hOld, hOldPhase,
    (checked_below hSteady.rss hOld hBelow hPeaked.2 hChecked).2⟩

/-- The peaks after a cycle with spike mode on are those the RAM check read. -/
theorem peaks_after_on (hEnabled : inp.cfg.spikeModeEnabled = true) :
    (trackingPeaks (runSpikeCycle t inp).1.spikes).val ≤
      (trackingPeaks (checkedSpikes t inp)).val := by
  refine trackingPeaks_le fun pid spike hLookup hPhase => ?_
  rcases of_unflagged (runSpikeCycle_spikes_on hEnabled pid) hLookup with
    ⟨spike', hChecked, hSame, -, hMax⟩
  exact ⟨spike', hChecked, hSame.trans hPhase, (congrArg Kb.val hMax).ge⟩

/-- With spike mode off, nothing is added to them. -/
theorem peaks_after_off (hEnabled : ¬ inp.cfg.spikeModeEnabled = true) :
    (trackingPeaks (runSpikeCycle t inp).1.spikes).val ≤ (trackingPeaks t.spikes).val := by
  refine trackingPeaks_le fun pid spike hLookup hPhase => ?_
  rw [runSpikeCycle_spikes_off hEnabled] at hLookup
  split at hLookup
  · exact ⟨spike, hLookup, hPhase, le_rfl⟩
  · cases hLookup

theorem peaked_after_on (hRss : ∀ p ∈ inp.procs, p.rssKb = rss p.pid)
    (hEnabled : inp.cfg.spikeModeEnabled = true)
    (hLookup : (runSpikeCycle t inp).1.spikes.lookup pid = some spike)
    (hPhase : spike.phase = .tracking) : Peaked (rss pid) spike := by
  rcases of_unflagged (runSpikeCycle_spikes_on hEnabled pid) hLookup with
    ⟨spike', hChecked, hSame, hSamples, hMax⟩
  have hPeaked := checked_peaked hRss hChecked (hSame.trans hPhase)
  unfold Peaked at hPeaked ⊢
  rw [hSamples, hMax] at hPeaked
  exact hPeaked

/-- **A steady cycle stays settled.** -/
theorem settled_step (hSettled : Settled available rss tracking ask s.tracker)
    (hSteady : Steady available rss tracking s inp) :
    Settled available rss tracking ask (step s inp).tracker := by
  rcases hSettled.peaks with ⟨peaks, hNeed, hLe⟩
  by_cases hEnabled : inp.cfg.spikeModeEnabled = true
  · have hAfter := peaks_after_on (t := s.tracker) hEnabled
    have hBefore := checkedPeaks_le hSettled hSteady hEnabled
    exact ⟨fun pid spike hLookup hPhase => peaked_after_on hSteady.rss hEnabled hLookup hPhase,
      hSteady.tracking, peaks, hNeed, hAfter.trans (hBefore.trans hLe)⟩
  · have hAfter := peaks_after_off (t := s.tracker) hEnabled
    refine ⟨fun pid spike hLookup hPhase => ?_, hSteady.tracking, peaks, hNeed, hAfter.trans hLe⟩
    have hKept : s.tracker.spikes.lookup pid = some spike := by
      have hLeft := hLookup
      change (runSpikeCycle s.tracker inp).1.spikes.lookup pid = some spike at hLeft
      rw [runSpikeCycle_spikes_off hEnabled] at hLeft
      split at hLeft
      · exact hLeft
      · cases hLeft
    exact hSettled.peaked pid spike hKept hPhase

/-- The first need settles the run. -/
theorem settled_first {needed : Kb} (hSteady : Steady available rss tracking s inp)
    (hAsked : asked s.tracker inp = some needed) :
    Settled available rss tracking
      { needed := needed, factor := inp.cfg.spikeHeadroomFactor } (step s inp).tracker := by
  rw [asked_eq_need] at hAsked
  split at hAsked
  case isFalse => cases hAsked
  next hEnabled =>
  rw [hSteady.available] at hAsked
  exact ⟨fun pid spike hLookup hPhase => peaked_after_on hSteady.rss hEnabled hLookup hPhase,
    hSteady.tracking, _, hAsked, peaks_after_on hEnabled⟩

/-- **The need does not rise** under the same factor. -/
theorem asked_le (hSettled : Settled available rss tracking ask s.tracker)
    (hSteady : Steady available rss tracking s inp)
    (hFactor : inp.cfg.spikeHeadroomFactor = ask.factor) {needed : Kb}
    (hAsked : asked s.tracker inp = some needed) : needed.val ≤ ask.needed.val := by
  rw [asked_eq_need] at hAsked
  split at hAsked
  case isFalse => cases hAsked
  next hEnabled =>
  rw [hSteady.available, hFactor] at hAsked
  rcases hSettled.peaks with ⟨peaks, hNeed, hLe⟩
  exact need_mono ((checkedPeaks_le hSettled hSteady hEnabled).trans hLe) hNeed hAsked

end Steadiness

/-! ## Over a whole run -/

section Runs

variable {available : Kb} {rss : Pid → Kb} {tracking : Pid → Prop} {s : HeadroomRun}
  {inp : SpikeInput}

structure Inv (available : Kb) (rss : Pid → Kb) (tracking : Pid → Prop) (s : HeadroomRun) :
    Prop where
  bounded : Bounded s
  settled : ∀ ask, s.first = some ask → Settled available rss tracking ask s.tracker

theorem bounded_step (h : Bounded s) (hCounts : CountsHeld s inp) : Bounded (step s inp) := by
  cases hFirst : s.firstAsk inp with
  | none =>
      have hAsked : asked s.tracker inp = none := by
        unfold HeadroomRun.firstAsk at hFirst
        exact Option.map_eq_none_iff.mp (Option.or_eq_none_iff.mp hFirst).2
      have hStopped : cycleStopped s.tracker inp = [] := by
        unfold cycleStopped
        rw [hAsked]
      have hNone : s.first = none := by
        unfold HeadroomRun.firstAsk at hFirst
        exact (Option.or_eq_none_iff.mp hFirst).1
      rcases h with hEmpty | ⟨ask, hAsk, -⟩
      · refine Or.inl ?_
        unfold step
        dsimp only
        rw [hStopped, hEmpty]
        rfl
      · rw [hNone] at hAsk
        cases hAsk
  | some ask =>
      have hBefore : Within ask.needed.val s.frozen := by
        rcases h with hEmpty | ⟨ask', hAsk', hWithin⟩
        · exact Or.inl hEmpty
        · have hSame : ask' = ask := by
            unfold HeadroomRun.firstAsk at hFirst
            rw [hAsk'] at hFirst
            exact Option.some.inj hFirst
          rw [← hSame]
          exact hWithin
      exact Or.inr ⟨ask, hFirst, within_step hCounts hFirst hBefore⟩

/-- Before anything is stopped a steady cycle needs no more than the first. -/
theorem countsHeld_of_stopsWithin (h : Inv available rss tracking s)
    (hSteady : Steady available rss tracking s inp) (hStops : StopsWithin s inp) :
    CountsHeld s inp := by
  rcases hStops with ⟨hNone, hFactor⟩ | hCounts
  · refine countsHeld_of_first hNone fun needed ask hAsked hFirst => ?_
    unfold HeadroomRun.firstAsk at hFirst
    cases hBefore : s.first with
    | none =>
        rw [hBefore, hAsked] at hFirst
        cases hFirst
        exact le_rfl
    | some ask' =>
        rw [hBefore] at hFirst
        cases hFirst
        exact asked_le (h.settled ask hBefore) hSteady (hFactor ask hBefore) hAsked
  · exact hCounts

theorem inv_step (h : Inv available rss tracking s)
    (hOk : Steady available rss tracking s inp ∧ StopsWithin s inp) :
    Inv available rss tracking (step s inp) where
  bounded := bounded_step h.bounded (countsHeld_of_stopsWithin h hOk.1 hOk.2)
  settled := by
    intro ask hFirst
    change s.firstAsk inp = some ask at hFirst
    unfold HeadroomRun.firstAsk at hFirst
    cases hBefore : s.first with
    | some ask' =>
        rw [hBefore] at hFirst
        cases hFirst
        exact settled_step (h.settled ask hBefore) hOk.1
    | none =>
        rw [hBefore, Option.none_or] at hFirst
        rcases Option.map_eq_some_iff.mp hFirst with ⟨needed, hAsked, rfl⟩
        exact settled_first hOk.1 hAsked

/--
**Headroom does not accumulate** in a steady run, from any tracker, when each cycle
that follows a freeze counts what the run holds: the processes stopped in the run
have less RSS than the first need plus the largest of them.
-/
theorem stopsWithin_bounded (t : SpikeTracker) (inputs : List SpikeInput)
    (hSteady : EveryStep step (Steady available rss tracking) (.start t) inputs)
    (hStops : EveryStep step StopsWithin (.start t) inputs) :
    Always step Bounded (.start t) inputs := by
  have hInv : Always step (Inv available rss tracking) (.start t) inputs :=
    always_of_invariant (fun s inp hInv hOk => inv_step hInv hOk)
      ⟨Or.inl rfl, fun ask hAsk => by cases hAsk⟩ (hSteady.and hStops)
  exact hInv.imp fun s hs => hs.bounded

end Runs

/-! ## Two indexers beside a compiler -/

/-- The compiler at its peak, beside others. -/
def peakInput (secs : Nat) (others : List Process) : SpikeInput :=
  sessionInput secs (sessionProcess 100 "rustc" 900000 :: others)

/-- The compiler at its start or between two peaks. -/
def lowInput (secs rss : Nat) (others : List Process) : SpikeInput :=
  sessionInput secs (sessionProcess 100 "rustc" rss :: others)

/-- Five cycles of a build, one short of Tracking. -/
def warmTracker (others : List Process) : SpikeTracker :=
  run CollectiveRelease.step SpikeTracker.new
    [lowInput 5 100000 others, peakInput 10 others, lowInput 15 300000 others,
      peakInput 20 others, lowInput 25 300000 others]

/-- Two cycles in which nothing changes: 1025000 kB are needed. -/
def peakRun (others : List Process) : List SpikeInput := [peakInput 30 others, peakInput 35 others]

def largeIndexer (pid : UInt32) : Process := sessionProcess pid "baloo_file" 1100000

def peakRss (pid : Pid) : Kb := if pid = ⟨100⟩ then Kb.clamp 900000 else Kb.clamp 1100000

theorem isTracking_iff_of_keys {t : SpikeTracker} {q : Pid} (hKeys : t.spikes.keys = [q])
    (hPhase : (t.spikes.lookup q).map SpikeState.phase = some .tracking) (pid : Pid) :
    IsTracking t pid ↔ pid = q := by
  constructor
  · intro h
    rcases h with ⟨spike, hLookup, -⟩
    have hMem : pid ∈ t.spikes.keys := mem_keys_iff.mpr ⟨spike, hLookup⟩
    rw [hKeys] at hMem
    exact List.mem_singleton.mp hMem
  · intro h
    rcases Option.map_eq_some_iff.mp hPhase with ⟨spike, hLookup, hTracking⟩
    exact ⟨spike, h ▸ hLookup, hTracking⟩

def smallIndexer : Process := sessionProcess 200 "baloo_file" 500000

def lateIndexer : Process := sessionProcess 201 "baloo_file" 400000

/-- A second indexer starts between the two cycles. -/
def lateRun : List SpikeInput :=
  [peakInput 30 [smallIndexer], peakInput 35 [smallIndexer, lateIndexer]]

def lateRss (pid : Pid) : Kb :=
  if pid = ⟨100⟩ then Kb.clamp 900000
  else if pid = ⟨200⟩ then Kb.clamp 500000
  else Kb.clamp 400000

/-- The second indexer is stopped while the first one, 500000 kB of the 1025000 kB
that were needed, is held. -/
theorem late_indexer_bounded :
    (run step (.start (warmTracker [smallIndexer])) lateRun).frozen =
        [⟨⟨200⟩, some 100, Kb.clamp 500000⟩, ⟨⟨201⟩, some 100, Kb.clamp 400000⟩] ∧
      Always step Bounded (.start (warmTracker [smallIndexer])) lateRun := by
  have hCandidates : headroomCandidates
      (decided (step (.start (warmTracker [smallIndexer])) (peakInput 30 [smallIndexer])).tracker
        (peakInput 35 [smallIndexer, lateIndexer]))
      (peakInput 35 [smallIndexer, lateIndexer]) = [lateIndexer] := by
    decide +kernel
  have hHeld : totalRss
      (step (.start (warmTracker [smallIndexer])) (peakInput 30 [smallIndexer])).frozen =
        500000 := by decide +kernel
  have hNeeded : ((step (.start (warmTracker [smallIndexer]))
      (peakInput 30 [smallIndexer])).firstAsk
        (peakInput 35 [smallIndexer, lateIndexer])).map Ask.needed = some (Kb.clamp 1025000) := by
    decide +kernel
  refine ⟨by decide +kernel, ?_⟩
  refine @stopsWithin_bounded (Kb.clamp 100000) lateRss (fun pid => pid = ⟨100⟩) _ _
    ⟨⟨rfl, by decide +kernel, ?_⟩, ⟨rfl, by decide +kernel, ?_⟩, trivial⟩
    ⟨Or.inl ⟨rfl, ?_⟩, Or.inr ?_, trivial⟩
  · exact isTracking_iff_of_keys (by decide +kernel) (by decide +kernel)
  · exact isTracking_iff_of_keys (by decide +kernel) (by decide +kernel)
  · intro ask hAsk
    cases hAsk
  · intro needed ask before p after _ hFirst hSplit _ _ _
    rw [hFirst] at hNeeded
    have hAsk : ask.needed = Kb.clamp 1025000 := Option.some.inj hNeeded
    rw [hCandidates] at hSplit
    cases before with
    | nil =>
        rw [hAsk]
        exact hHeld.trans_lt (by decide)
    | cons q before =>
        have hLength := congrArg List.length hSplit
        simp at hLength

/-- With two, the second is stopped for the same 1025000 kB. -/
theorem second_freeze_exceeds :
    EveryStep step (Steady (Kb.clamp 100000) peakRss (fun pid => pid = ⟨100⟩))
        (.start (warmTracker [largeIndexer 200, largeIndexer 201]))
        (peakRun [largeIndexer 200, largeIndexer 201]) ∧
      ¬ Always step Bounded (.start (warmTracker [largeIndexer 200, largeIndexer 201]))
        (peakRun [largeIndexer 200, largeIndexer 201]) := by
  refine ⟨⟨⟨rfl, by decide +kernel, ?_⟩, ⟨rfl, by decide +kernel, ?_⟩, trivial⟩, fun h => ?_⟩
  · exact isTracking_iff_of_keys (by decide +kernel) (by decide +kernel)
  · exact isTracking_iff_of_keys (by decide +kernel) (by decide +kernel)
  · have hLast := h.last
    have hFrozen : (run step (.start (warmTracker [largeIndexer 200, largeIndexer 201]))
        (peakRun [largeIndexer 200, largeIndexer 201])).frozen =
          [⟨⟨200⟩, some 100, Kb.clamp 1100000⟩, ⟨⟨201⟩, some 100, Kb.clamp 1100000⟩] := by
      decide +kernel
    have hFirst : ((run step (.start (warmTracker [largeIndexer 200, largeIndexer 201]))
        (peakRun [largeIndexer 200, largeIndexer 201])).first).map Ask.needed =
          some (Kb.clamp 1025000) := by
      decide +kernel
    unfold Bounded Within at hLast
    rw [hFrozen] at hLast
    rcases hLast with hEmpty | ⟨ask, hAsk, hEmpty | ⟨largest, hMem, -, hLess⟩⟩
    · cases hEmpty
    · cases hEmpty
    · rw [hAsk] at hFirst
      have hNeeded : ask.needed = Kb.clamp 1025000 := Option.some.inj hFirst
      rw [hNeeded] at hLess
      revert largest
      decide +kernel

end Mgd.Evictor.HeadroomRuns
