import Mathlib.Algebra.Order.Field.Rat
import Mathlib.Data.Rat.Floor
import Mathlib.Tactic.Linarith
import Mgd.Evictor.CollectiveRelease

/-!
# Tracking means oscillation

A spike is promoted to Tracking on two sticky flags and a number of samples.
`Watch` runs the tracker beside what it has seen of each process since the
spike was registered or last demoted: the RSS, the time, and the parameters of
the call.  Nothing of that record is read from the flags.

## Main results

* `promoted_of_oscillation` : at every promotion the record holds a peak above
  the baseline, a drop from an earlier sample at or after that peak, and as many
  samples within the window as the parameters ask for; a process whose RSS never
  decreases stays in Observing.
-/

namespace Mgd.SpikeOscillation

open Mgd.Types Mgd.Monitor Mgd.Lib.AssocMap Mgd.Lib.Run Mgd.SpikeMode
open Mgd.Evictor.CollectiveRelease (tracked update_fst drained_spikes)

/-! ## What has been seen -/

/-- One row of a process list, with the time and the parameters of the call. -/
structure Sighting where
  rss : Kb
  takenAt : Instant
  params : Params

/-- The earlier sighting is in the window of the later one. -/
def InWindow (earlier later : Sighting) : Prop :=
  Instant.durationSince later.takenAt earlier.takenAt ≤ later.params.windowSec * nanosPerSec

instance (earlier later : Sighting) : Decidable (InWindow earlier later) :=
  inferInstanceAs (Decidable (_ ≤ _))

/-- At sighting `i` the window had an RSS above the baseline and the growth
threshold. -/
def PeakedAt (baseline : Kb) (seen : List Sighting) (i : Nat) : Prop :=
  ∃ now ∈ seen[i]?, ∃ k ≤ i, ∃ peak ∈ seen[k]?, InWindow peak now ∧
    baseline.val + now.params.growthThreshold.val < peak.rss.val

/-- At sighting `j` the RSS was below the factor times that of an earlier one in
the window. -/
def DroppedAt (seen : List Sighting) (j : Nat) : Prop :=
  ∃ now ∈ seen[j]?, ∃ k < j, ∃ peak ∈ seen[k]?, InWindow peak now ∧
    (now.rss.val : ℚ) < now.params.oscillationDropFactor * (peak.rss.val : ℚ)

/-- The sightings in the window of the last one. -/
def inLastWindow (seen : List Sighting) : List Sighting :=
  match seen.getLast? with
  | some last => seen.filter fun s => decide (InWindow s last)
  | none => []

/-- A peak, a drop at or after it, and enough samples. -/
structure Oscillated (baseline : Kb) (minSamples : Nat) (seen : List Sighting) : Prop where
  peakThenDrop : ∃ i j, i ≤ j ∧ PeakedAt baseline seen i ∧ DroppedAt seen j
  enough : minSamples ≤ (inLastWindow seen).length

/-! ## The tracker beside its record -/

/-- A spike that has entered Tracking, with what was seen of it. -/
structure Promotion where
  pid : Pid
  spike : SpikeState
  seen : List Sighting

abbrev Record := Pid → List Sighting

def Record.set (record : Record) (pid : Pid) (seen : List Sighting) : Record :=
  fun other => if other = pid then seen else record other

/-- The loop of step 2 again, for the record and the promotions.  A demotion
starts the record of a process anew. -/
def watchAll (p : Params) (now : Instant) (rssD : Map Pid Kb) :
    List Process → Map Pid SpikeState → Record → Record × List Promotion
  | [], _, record => (record, [])
  | proc :: rest, spikes, record =>
      match spikes.lookup proc.pid with
      | none => watchAll p now rssD rest spikes record
      | some state =>
          let after := (track p now rssD proc state).1
          let seen := record proc.pid ++ [⟨proc.rssKb, now, p⟩]
          let demoted := state.phase = .tracking ∧ after.phase = .observing
          let promoted := state.phase = .observing ∧ after.phase = .tracking
          let later := watchAll p now rssD rest (spikes.insert proc.pid after)
            (record.set proc.pid (if demoted then [] else seen))
          (later.1, if promoted then ⟨proc.pid, after, seen⟩ :: later.2 else later.2)

structure Call where
  gap : Duration
  procs : List Process
  available : Kb
  params : Params
  foregroundPid : Option Pid

structure Watch where
  tracker : SpikeTracker
  clock : Instant
  record : Record

inductive Move
  | update (call : Call)
  /-- `on_spike_exit` -/
  | exit (pid : Pid)

namespace Watch

def start (clock : Instant) : Watch where
  tracker := SpikeTracker.new
  clock := clock
  record := fun _ => []

/-- The spikes after step 1 of the update. -/
def registered (w : Watch) (c : Call) : Map Pid SpikeState :=
  c.procs.foldl (register c.params w.tracker.prevRss (rssDeltas w.tracker.prevRss c.procs)
    (majfltDeltas w.tracker.prevMajflt c.procs)) w.tracker.spikes

/-- The record of a process begins with its registration. -/
def freshRecord (w : Watch) : Record := fun pid =>
  if (w.tracker.spikes.lookup pid).isSome then w.record pid else []

def watched (w : Watch) (c : Call) : Record × List Promotion :=
  watchAll c.params (w.clock + c.gap) (rssDeltas w.tracker.prevRss c.procs) c.procs
    (w.registered c) w.freshRecord

def step (w : Watch) : Move → Watch
  | .update c =>
      { tracker := (w.tracker.update c.procs c.available c.params (w.clock + c.gap)
          c.foregroundPid).1
        clock := w.clock + c.gap
        record := (w.watched c).1 }
  | .exit pid => { w with tracker := (w.tracker.onSpikeExit pid).1 }

end Watch

/-- The spike of the process, if there is one, is in Observing. -/
def Observing (pid : Pid) (w : Watch) : Prop :=
  ∀ s, w.tracker.spikes.lookup pid = some s → s.phase = .observing

/-- A spike that is in Tracking after the call and was not before it has been
promoted in the call, and every promotion follows an oscillation. -/
def PromotesOscillating (w : Watch) : Move → Prop
  | .update c =>
      (∀ pid, Observing pid w → ¬ Observing pid (w.step (.update c)) →
        ∃ e ∈ (w.watched c).2, e.pid = pid) ∧
      ∀ e ∈ (w.watched c).2, Oscillated e.spike.initialRss c.params.minSamples e.seen
  | .exit gone => ∀ pid, Observing pid w → Observing pid (w.step (.exit gone))

/-- The factor is at most 1. -/
def Move.drops : Move → Prop
  | .update c => c.params.oscillationDropFactor ≤ 1
  | .exit _ => True

instance : DecidablePred Move.drops
  | .update c => inferInstanceAs (Decidable (c.params.oscillationDropFactor ≤ 1))
  | .exit _ => inferInstanceAs (Decidable True)

/-- The RSS of a process in a list. -/
def rssIn (pid : Pid) (procs : List Process) : List Nat :=
  (procs.filter fun pr => decide (pr.pid = pid)).map fun pr => pr.rssKb.val

/-- The RSS of a process in the lists of the moves, in their order. -/
def rssOf (pid : Pid) (moves : List Move) : List Nat :=
  moves.flatMap fun
    | .update c => rssIn pid c.procs
    | .exit _ => []

/-! ## One sighting -/

section Sightings

variable {p : Params} {now : Instant} {rssD : Map Pid Kb} {proc : Process} {s : SpikeState}
  {baseline : Kb} {seen : List Sighting}

theorem getElem?_append_of_mem {α : Type} {xs : List α} {n : Nat} {y : α} (hy : y ∈ xs[n]?)
    (x : α) : y ∈ (xs ++ [x])[n]? := by
  have hShort : n < xs.length := (List.getElem?_eq_some_iff.mp hy).1
  rw [List.getElem?_append_left hShort]
  exact hy

theorem PeakedAt.append {i : Nat} (h : PeakedAt baseline seen i) (x : Sighting) :
    PeakedAt baseline (seen ++ [x]) i := by
  obtain ⟨now, hNow, k, hk, peak, hPeak, hWindow, hAbove⟩ := h
  exact ⟨now, getElem?_append_of_mem hNow x, k, hk, peak, getElem?_append_of_mem hPeak x,
    hWindow, hAbove⟩

theorem DroppedAt.append {j : Nat} (h : DroppedAt seen j) (x : Sighting) :
    DroppedAt (seen ++ [x]) j := by
  obtain ⟨now, hNow, k, hk, peak, hPeak, hWindow, hBelow⟩ := h
  exact ⟨now, getElem?_append_of_mem hNow x, k, hk, peak, getElem?_append_of_mem hPeak x,
    hWindow, hBelow⟩

/-- The sample that the tracker keeps of a sighting. -/
def Sighting.sample (x : Sighting) : RssSample := ⟨x.rss, x.takenAt⟩

/-- The samples are the last sightings, and the flags are borne out by what was
seen. -/
structure Backed (clock : Instant) (s : SpikeState) (seen : List Sighting) : Prop where
  samples : ∃ old kept, seen = old ++ kept ∧ s.samples = kept.map Sighting.sample
  ordered : seen.Pairwise fun a b => a.takenAt ≤ b.takenAt
  past : ∀ x ∈ seen, x.takenAt ≤ clock
  factors : ∀ x ∈ seen, x.params.oscillationDropFactor ≤ 1
  peaked : s.hasPeaked = true → ∃ i < seen.length, PeakedAt s.initialRss seen i
  oscillated : s.hasOscillated = true →
    ∃ i j, i ≤ j ∧ PeakedAt s.initialRss seen i ∧ DroppedAt seen j

/-- What is left of an ordered list after the old ones have been dropped is
young. -/
theorem young_of_dropWhile {xs : List Sighting} {now : Instant} {window : Duration}
    (hOrdered : xs.Pairwise fun a b => a.takenAt ≤ b.takenAt) :
    ∀ x ∈ xs.dropWhile (fun x => decide (Instant.durationSince now x.takenAt > window)),
      Instant.durationSince now x.takenAt ≤ window := by
  induction xs with
  | nil => simp
  | cons y rest ih =>
      rw [List.pairwise_cons] at hOrdered
      by_cases hOld : Instant.durationSince now y.takenAt > window
      · rw [List.dropWhile_cons, if_pos (decide_eq_true hOld)]
        exact ih hOrdered.2
      · rw [List.dropWhile_cons, if_neg (by simpa using hOld)]
        intro x hx
        have hYoung := Nat.le_of_not_lt hOld
        cases List.mem_cons.mp hx with
        | inl hSame =>
            rw [hSame]
            exact hYoung
        | inr hLater => exact le_trans (Nat.sub_le_sub_left (hOrdered.1 x hLater) now) hYoung

variable (p proc) in
/-- The samples after a new one: the young sightings at the end of the record. -/
theorem samples_of_sample (h : Backed now s seen) :
    ∃ old kept, seen ++ [⟨proc.rssKb, now, p⟩] = old ++ (kept ++ [⟨proc.rssKb, now, p⟩]) ∧
      (sample p now proc s).samples =
        (kept ++ [⟨proc.rssKb, now, p⟩]).map Sighting.sample ∧
      ∀ x ∈ kept ++ [⟨proc.rssKb, now, p⟩], InWindow x ⟨proc.rssKb, now, p⟩ := by
  obtain ⟨old, kept, hSeen, hSamples⟩ := h.samples
  let here : Sighting := ⟨proc.rssKb, now, p⟩
  let isOld := fun x : Sighting =>
    decide (Instant.durationSince now x.takenAt > p.windowSec * nanosPerSec)
  have hHere : isOld here = false := by
    simp [isOld, here, Instant.durationSince]
  have hDrop : (kept ++ [here]).dropWhile isOld = kept.dropWhile isOld ++ [here] := by
    rw [List.dropWhile_append]
    split
    · next hNil =>
        rw [List.isEmpty_iff.mp hNil, List.dropWhile_cons_of_neg (by simp [hHere])]
        rfl
    · rfl
  have hOrdered : (kept ++ [here]).Pairwise fun a b => a.takenAt ≤ b.takenAt := by
    have hAll := h.ordered
    rw [hSeen] at hAll
    refine List.pairwise_append.mpr ⟨(List.pairwise_append.mp hAll).2.1, by simp, ?_⟩
    intro a ha b hb
    rw [List.mem_singleton.mp hb]
    refine h.past a ?_
    rw [hSeen]
    exact List.mem_append_right old ha
  refine ⟨old ++ kept.takeWhile isOld, kept.dropWhile isOld, ?_, ?_, ?_⟩
  · rw [hSeen, List.append_assoc, List.append_assoc, ← List.append_assoc (kept.takeWhile isOld),
      List.takeWhile_append_dropWhile]
  · rw [← hDrop]
    show (s.samples ++ [here.sample]).dropWhile _ = _
    rw [hSamples, show kept.map Sighting.sample ++ [here.sample] =
      (kept ++ [here]).map Sighting.sample from by simp, List.dropWhile_map]
    rfl
  · rw [← hDrop]
    exact young_of_dropWhile hOrdered

/-- Below a truncated number is below the number. -/
theorem lt_of_lt_truncKb {n : Nat} {q : ℚ} (h : n < (truncKb q).val) : (n : ℚ) < q := by
  have hFloor : n < q.num.toNat / q.den := lt_of_lt_of_le h (Nat.min_le_left _ _)
  have hDen : (0 : ℚ) < q.den := by exact_mod_cast q.den_pos
  have hMul : (n + 1) * q.den ≤ q.num.toNat := (Nat.le_div_iff_mul_le q.den_pos).mp hFloor
  have hNum : (((n + 1) * q.den : Nat) : ℤ) ≤ q.num := by
    have hPos : 0 < (n + 1) * q.den := Nat.mul_pos n.succ_pos q.den_pos
    omega
  have hCast : ((n : ℚ) + 1) * q.den ≤ q.num := by exact_mod_cast hNum
  calc (n : ℚ) < n + 1 := by linarith
    _ ≤ q.num / q.den := (le_div_iff₀ hDen).mpr hCast
    _ = q := Rat.num_div_den q

variable (proc) in
/-- **One sighting bears out the flags it sets.** -/
theorem Backed.classify (h : Backed now s seen) (hFactor : p.oscillationDropFactor ≤ 1) :
    Backed now (classify p proc (sample p now proc s)) (seen ++ [⟨proc.rssKb, now, p⟩]) := by
  obtain ⟨old, kept, hSeen, hSamples, hYoung⟩ := samples_of_sample p proc h
  let here : Sighting := ⟨proc.rssKb, now, p⟩
  have hHere : here ∈ (seen ++ [here])[seen.length]? := by simp
  -- the largest RSS of the window was seen
  obtain ⟨peak, hPeak, hMax⟩ : ∃ x ∈ kept ++ [here],
      x.rss = (SpikeMode.sample p now proc s).rssMax := by
    have hMax : (SpikeMode.sample p now proc s).rssMax =
        windowMax (SpikeMode.sample p now proc s).samples proc.rssKb := rfl
    rw [hMax, hSamples]
    cases hKept : (kept ++ [here]).map Sighting.sample with
    | nil => simp at hKept
    | cons x rest =>
        obtain ⟨y, hy, hEq⟩ := windowMax_mem x rest proc.rssKb
        rw [← hKept] at hy
        obtain ⟨peak, hPeak, rfl⟩ := List.mem_map.mp hy
        exact ⟨peak, hPeak, hEq⟩
  have hPeaked : (SpikeMode.classify p proc (SpikeMode.sample p now proc s)).hasPeaked = true →
      ∃ i < (seen ++ [here]).length, PeakedAt s.initialRss (seen ++ [here]) i := by
    intro hFlag
    cases Bool.or_eq_true_iff.mp hFlag with
    | inl hBefore =>
        obtain ⟨i, hi, hAt⟩ := h.peaked hBefore
        exact ⟨i, by simp; omega, hAt.append here⟩
    | inr hAbove =>
        have hMem : peak ∈ seen ++ [here] := by
          rw [hSeen]
          exact List.mem_append_right old hPeak
        obtain ⟨k, hk, hGet⟩ := List.mem_iff_getElem.mp hMem
        refine ⟨seen.length, by simp, here, hHere, k, by simp at hk; omega, peak, ?_,
          hYoung peak hPeak, ?_⟩
        · exact List.getElem?_eq_some_iff.mpr ⟨hk, hGet⟩
        · have hMore : (s.initialRss.saturatingAdd p.growthThreshold).val < peak.rss.val := by
            rw [hMax]
            exact of_decide_eq_true hAbove
          have hTop := peak.rss.le_max
          unfold Kb.saturatingAdd Kb.clamp at hMore
          dsimp only at hMore
          show s.initialRss.val + p.growthThreshold.val < peak.rss.val
          omega
  refine ⟨⟨old, kept ++ [here], hSeen, hSamples⟩, ?_, ?_, ?_, hPeaked, ?_⟩
  · refine List.pairwise_append.mpr ⟨h.ordered, by simp, ?_⟩
    intro a ha b hb
    rw [List.mem_singleton.mp hb]
    exact h.past a ha
  · intro x hx
    cases List.mem_append.mp hx with
    | inl hOld => exact h.past x hOld
    | inr hNew => rw [List.mem_singleton.mp hNew]
  · intro x hx
    cases List.mem_append.mp hx with
    | inl hOld => exact h.factors x hOld
    | inr hNew =>
        rw [List.mem_singleton.mp hNew]
        exact hFactor
  · intro hFlag
    cases Bool.or_eq_true_iff.mp hFlag with
    | inl hBefore =>
        obtain ⟨i, j, hij, hAt, hDrop⟩ := h.oscillated hBefore
        exact ⟨i, j, hij, hAt.append here, hDrop.append here⟩
    | inr hNow =>
        obtain ⟨hFlagged, hLow⟩ := Bool.and_eq_true_iff.mp hNow
        obtain ⟨i, hi, hAt⟩ := hPeaked hFlagged
        have hBelow := lt_of_lt_truncKb (of_decide_eq_true hLow)
        have hRss : (peak.rss.val : ℚ) * p.oscillationDropFactor =
            p.oscillationDropFactor * peak.rss.val := mul_comm _ _
        have hDropped : (proc.rssKb.val : ℚ) < p.oscillationDropFactor * peak.rss.val := by
          rw [← hRss, hMax]
          exact hBelow
        -- with a factor of at most 1 the peak is an earlier sighting
        have hEarlier : peak ∈ kept := by
          cases List.mem_append.mp hPeak with
          | inl hKept => exact hKept
          | inr hSame =>
              rw [List.mem_singleton.mp hSame] at hDropped
              have hNonneg : (0 : ℚ) ≤ proc.rssKb.val := Nat.cast_nonneg _
              exact absurd (mul_le_of_le_one_left hNonneg hFactor) (not_le.mpr hDropped)
        have hMem : peak ∈ seen := by
          have hCut : seen = old ++ kept := by
            rw [← List.append_assoc] at hSeen
            exact List.append_cancel_right hSeen
          rw [hCut]
          exact List.mem_append_right old hEarlier
        obtain ⟨k, hk, hGet⟩ := List.mem_iff_getElem.mp hMem
        refine ⟨i, seen.length, by simp at hi; omega, hAt, here, hHere, k, hk, peak, ?_,
          hYoung peak hPeak, hDropped⟩
        exact getElem?_append_of_mem (List.getElem?_eq_some_iff.mpr ⟨hk, hGet⟩) here

/-- The samples are among the sightings in the window. -/
theorem samples_length_le (h : Backed now s seen) :
    (sample p now proc s).samples.length ≤
      (inLastWindow (seen ++ [⟨proc.rssKb, now, p⟩])).length := by
  obtain ⟨old, kept, hSeen, hSamples, hYoung⟩ := samples_of_sample p proc h
  rw [hSamples, List.length_map]
  unfold inLastWindow
  rw [List.getLast?_concat]
  dsimp only
  rw [hSeen, List.filter_append,
    List.filter_eq_self.mpr fun x hx => decide_eq_true (hYoung x hx)]
  exact (List.sublist_append_right _ _).length_le

variable (p now rssD proc s) in
/-- What a sighting does: it promotes a spike that has peaked, dropped and been
sampled often enough, demotes a Tracking one, or leaves the phase alone. -/
theorem track_outcome :
    (s.phase = .observing ∧ (classify p proc (sample p now proc s)).hasOscillated = true ∧
        p.minSamples ≤ (sample p now proc s).samples.length ∧
        (track p now rssD proc s).1 =
          { classify p proc (sample p now proc s) with phase := .tracking, idleTicks := 0 }) ∨
      (s.phase = .tracking ∧
        (track p now rssD proc s).1 = demote proc (classify p proc (sample p now proc s))) ∨
      ∃ n, (track p now rssD proc s).1 =
        { classify p proc (sample p now proc s) with idleTicks := n } := by
  unfold track
  dsimp only
  split
  · next hUp => exact Or.inl ⟨hUp.1, hUp.2.2.1, hUp.2.2.2, rfl⟩
  split
  · next hTracking =>
      split
      · split
        · exact Or.inr (Or.inl ⟨hTracking, rfl⟩)
        · exact Or.inr (Or.inr ⟨_, rfl⟩)
      · exact Or.inr (Or.inr ⟨0, rfl⟩)
  · exact Or.inr (Or.inr ⟨_, rfl⟩)

/-- Only the samples, the flags and the baseline matter. -/
theorem Backed.congr {s' : SpikeState} (h : Backed now s seen) (hSamples : s'.samples = s.samples)
    (hPeaked : s'.hasPeaked = s.hasPeaked) (hOscillated : s'.hasOscillated = s.hasOscillated)
    (hBaseline : s'.initialRss = s.initialRss) : Backed now s' seen where
  samples := hSamples ▸ h.samples
  ordered := h.ordered
  past := h.past
  factors := h.factors
  peaked := by
    rw [hPeaked, hBaseline]
    exact h.peaked
  oscillated := by
    rw [hOscillated, hBaseline]
    exact h.oscillated

theorem Backed.later {later : Instant} (h : Backed now s seen) (hLe : now ≤ later) :
    Backed later s seen :=
  { h with past := fun x hx => (h.past x hx).trans hLe }

/-- A spike with no samples and no flags. -/
theorem backed_nil (hSamples : s.samples = []) (hPeaked : s.hasPeaked = false)
    (hOscillated : s.hasOscillated = false) : Backed now s [] where
  samples := ⟨[], [], rfl, hSamples⟩
  ordered := List.Pairwise.nil
  past := nofun
  factors := nofun
  peaked hFlag := by
    rw [hPeaked] at hFlag
    cases hFlag
  oscillated hFlag := by
    rw [hOscillated] at hFlag
    cases hFlag

variable (rssD proc) in
/-- **One visit keeps the record**, and a promotion follows an oscillation. -/
theorem backed_track (h : Backed now s seen) (hFactor : p.oscillationDropFactor ≤ 1) :
    Backed now (track p now rssD proc s).1
        (if s.phase = .tracking ∧ (track p now rssD proc s).1.phase = .observing then []
          else seen ++ [⟨proc.rssKb, now, p⟩]) ∧
      (s.phase = .observing ∧ (track p now rssD proc s).1.phase = .tracking →
        Oscillated (track p now rssD proc s).1.initialRss p.minSamples
            (seen ++ [⟨proc.rssKb, now, p⟩]) ∧
          ∀ x ∈ seen ++ [⟨proc.rssKb, now, p⟩], x.params.oscillationDropFactor ≤ 1) := by
  have hHere := h.classify proc hFactor
  rcases track_outcome p now rssD proc s with
    ⟨hObserving, hFlag, hEnough, hEq⟩ | ⟨hTracking, hEq⟩ | ⟨n, hEq⟩
  · have hNot : ¬ s.phase = .tracking := by
      rw [hObserving]
      nofun
    rw [hEq, if_neg fun hBoth => hNot hBoth.1]
    exact ⟨hHere.congr rfl rfl rfl rfl, fun _ =>
      ⟨⟨hHere.oscillated hFlag, hEnough.trans (samples_length_le h)⟩, hHere.factors⟩⟩
  · rw [hEq, if_pos ⟨hTracking, rfl⟩]
    exact ⟨backed_nil rfl rfl rfl, fun hUp => by cases hUp.2⟩
  · have hSame : (track p now rssD proc s).1.phase = s.phase := by
      rw [hEq]
      rfl
    have hNotBoth : s.phase = .tracking → s.phase ≠ .observing := by
      intro hTracking
      rw [hTracking]
      nofun
    rw [hSame, if_neg fun hBoth => hNotBoth hBoth.1 hBoth.2, hEq]
    exact ⟨hHere.congr rfl rfl rfl rfl, fun hBoth => absurd hBoth.1 (hNotBoth hBoth.2)⟩

end Sightings

/-! ## One call -/

section Calls

variable {p : Params} {now : Instant} {rssD : Map Pid Kb}

def AllBacked (clock : Instant) (spikes : Map Pid SpikeState) (record : Record) : Prop :=
  ∀ pid s, spikes.lookup pid = some s → Backed clock s (record pid)

theorem allBacked_set {clock : Instant} {spikes : Map Pid SpikeState} {record : Record}
    (h : AllBacked clock spikes record) (pid : Pid) {s : SpikeState} {seen : List Sighting}
    (hNew : Backed clock s seen) : AllBacked clock (spikes.insert pid s) (record.set pid seen) := by
  intro other s' hLookup
  rw [lookup_insert_eq] at hLookup
  unfold Record.set
  split at hLookup
  · next hSame =>
      cases hLookup
      rw [if_pos hSame]
      exact hNew
  · next hOther =>
      rw [if_neg hOther]
      exact h other s' hLookup

variable (rssD) in
/-- **The loop keeps the record**, and each of its promotions follows an
oscillation. -/
theorem backed_watchAll (hFactor : p.oscillationDropFactor ≤ 1) (procs : List Process)
    {spikes : Map Pid SpikeState} {record : Record} (h : AllBacked now spikes record) :
    AllBacked now (trackAll p now rssD procs spikes).1
        (watchAll p now rssD procs spikes record).1 ∧
      ∀ e ∈ (watchAll p now rssD procs spikes record).2,
        Oscillated e.spike.initialRss p.minSamples e.seen ∧
          ∀ x ∈ e.seen, x.params.oscillationDropFactor ≤ 1 := by
  induction procs generalizing spikes record with
  | nil => exact ⟨h, fun _ he => absurd he List.not_mem_nil⟩
  | cons proc rest ih =>
      unfold trackAll watchAll
      cases hState : spikes.lookup proc.pid with
      | none => exact ih h
      | some s =>
          have hHere := backed_track rssD proc (h proc.pid s hState) hFactor
          have hRest := ih (allBacked_set h proc.pid hHere.1)
          dsimp only
          refine ⟨hRest.1, fun e he => ?_⟩
          split at he
          · next hUp =>
              cases List.mem_cons.mp he with
              | inl hFirst =>
                  rw [hFirst]
                  exact hHere.2 hUp
              | inr hLater => exact hRest.2 e hLater
          · exact hRest.2 e he

/-- A spike was there before the registrations, or is new. -/
theorem foldl_register_cases {prevRss rssD : Map Pid Kb} {majfltD : Map Pid Nat}
    {procs : List Process} {spikes : Map Pid SpikeState} {pid : Pid} {s : SpikeState}
    (h : (procs.foldl (register p prevRss rssD majfltD) spikes).lookup pid = some s) :
    spikes.lookup pid = some s ∨ spikes.lookup pid = none ∧
      ∃ name baseline path forced, s = SpikeState.new pid name baseline path forced := by
  induction procs generalizing spikes with
  | nil => exact Or.inl h
  | cons proc rest ih =>
      have hRest := ih h
      obtain hSame | ⟨hVacant, baseline, forced, hNew⟩ :=
        register_cases p prevRss rssD majfltD spikes proc
      · rw [hSame] at hRest
        exact hRest
      · rw [hNew, lookup_insert_eq] at hRest
        by_cases hHere : pid = proc.pid
        · rw [if_pos hHere] at hRest
          obtain hFresh | ⟨hNone, -⟩ := hRest
          · cases hFresh
            rw [hHere]
            exact Or.inr ⟨hVacant, _, _, _, _, rfl⟩
          · cases hNone
        · rw [if_neg hHere] at hRest
          exact hRest

/-- A spike that is registered begins without a record. -/
theorem allBacked_registered {w : Watch} (h : AllBacked w.clock w.tracker.spikes w.record)
    (c : Call) : AllBacked (w.clock + c.gap) (w.registered c) w.freshRecord := by
  intro pid s hLookup
  unfold Watch.freshRecord
  obtain hOld | ⟨hNone, name, baseline, path, forced, hNew⟩ := foldl_register_cases hLookup
  · rw [hOld, if_pos (Option.isSome_some)]
    exact (h pid s hOld).later (Nat.le_add_right _ _)
  · rw [hNone, if_neg (by simp), hNew]
    exact backed_nil rfl rfl rfl

theorem update_unflagged (w : Watch) (c : Call) (pid : Pid) :
    ((w.step (.update c)).tracker.spikes.lookup pid).map SpikeState.unflagged =
      ((trackAll c.params (w.clock + c.gap) (rssDeltas w.tracker.prevRss c.procs) c.procs
        (w.registered c)).1.lookup pid).map SpikeState.unflagged := by
  show ((w.tracker.update c.procs c.available c.params (w.clock + c.gap)
    c.foregroundPid).1.spikes.lookup pid).map SpikeState.unflagged = _
  rw [update_fst]
  dsimp only
  rw [checkCpuAll_unflagged, drained_spikes]
  rfl

/-- The exit of a process only takes its spike away. -/
theorem lookup_of_exit {w : Watch} {gone pid : Pid} {s : SpikeState}
    (h : (w.step (.exit gone)).tracker.spikes.lookup pid = some s) :
    w.tracker.spikes.lookup pid = some s := by
  have hSpikes : (w.tracker.onSpikeExit gone).1.spikes = w.tracker.spikes.erase gone :=
    Evictor.Spike.drainIfNoneTracking_spikes _
  have hErased : (w.tracker.onSpikeExit gone).1.spikes.lookup pid = some s := h
  rw [hSpikes, lookup_erase_eq] at hErased
  split at hErased
  · cases hErased
  · exact hErased

/-- **One call keeps the record.** -/
theorem allBacked_step {w : Watch} (h : AllBacked w.clock w.tracker.spikes w.record) {m : Move}
    (hDrops : m.drops) :
    AllBacked (w.step m).clock (w.step m).tracker.spikes (w.step m).record := by
  cases m with
  | update c =>
      have hAll := (backed_watchAll (rssDeltas w.tracker.prevRss c.procs) hDrops c.procs
        (allBacked_registered h c)).1
      intro pid s hLookup
      have hSame := update_unflagged w c pid
      rw [hLookup] at hSame
      obtain ⟨s', hLookup', hEq⟩ := Option.map_eq_some_iff.mp hSame.symm
      have hField : ∀ {α : Type} (f : SpikeState → α), (∀ s, f s.unflagged = f s) →
          f s = f s' := by
        intro α f hf
        rw [← hf s, ← hf s', hEq]
      exact (hAll pid s' hLookup').congr (hField SpikeState.samples fun _ => rfl)
        (hField SpikeState.hasPeaked fun _ => rfl) (hField SpikeState.hasOscillated fun _ => rfl)
        (hField SpikeState.initialRss fun _ => rfl)
  | exit gone =>
      intro pid s hLookup
      exact h pid s (lookup_of_exit hLookup)

/-- A spike that the loop does not promote stays in Observing. -/
theorem observing_trackAll {pid : Pid} {procs : List Process} {spikes : Map Pid SpikeState}
    {record : Record} (h : ∀ s, spikes.lookup pid = some s → s.phase = .observing)
    (hNone : ∀ e ∈ (watchAll p now rssD procs spikes record).2, e.pid ≠ pid) :
    ∀ s, (trackAll p now rssD procs spikes).1.lookup pid = some s → s.phase = .observing := by
  induction procs generalizing spikes record with
  | nil => exact h
  | cons proc rest ih =>
      unfold watchAll at hNone
      unfold trackAll
      cases hState : spikes.lookup proc.pid with
      | none =>
          rw [hState] at hNone
          exact ih h hNone
      | some s =>
          rw [hState] at hNone
          dsimp only at hNone ⊢
          refine @ih (spikes.insert proc.pid (track p now rssD proc s).1)
            (record.set proc.pid
              (if s.phase = .tracking ∧ (track p now rssD proc s).1.phase = .observing then []
                else record proc.pid ++ [⟨proc.rssKb, now, p⟩]))
            (fun s' hs' => ?_) (fun e he => hNone e ?_)
          · rw [lookup_insert_eq] at hs'
            split at hs'
            · next hHere =>
                cases hs'
                have hObserving := h s (hHere ▸ hState)
                cases hPhase : (track p now rssD proc s).1.phase with
                | observing => rfl
                | tracking =>
                    rw [if_pos ⟨hObserving, hPhase⟩] at hNone
                    exact absurd hHere.symm (hNone _ List.mem_cons_self)
            · exact h s' hs'
          · split
            · exact List.mem_cons_of_mem _ he
            · exact he

/-- **Without a promotion, Observing goes on.** -/
theorem observing_update {w : Watch} {c : Call} {pid : Pid} (h : Observing pid w)
    (hNone : ∀ e ∈ (w.watched c).2, e.pid ≠ pid) : Observing pid (w.step (.update c)) := by
  have hRegistered : ∀ s, (w.registered c).lookup pid = some s → s.phase = .observing := by
    intro s hs
    obtain hOld | ⟨-, _, _, _, _, hNew⟩ := foldl_register_cases hs
    · exact h s hOld
    · rw [hNew]
      rfl
  intro s hs
  have hSame := update_unflagged w c pid
  rw [hs] at hSame
  obtain ⟨s', hs', hEq⟩ := Option.map_eq_some_iff.mp hSame.symm
  have hUnflagged : s'.unflagged.phase = s.unflagged.phase := congrArg SpikeState.phase hEq
  have hPhase : s'.phase = s.phase := hUnflagged
  rw [← hPhase]
  exact observing_trackAll hRegistered hNone s' hs'

theorem observing_exit {w : Watch} {gone pid : Pid} (h : Observing pid w) :
    Observing pid (w.step (.exit gone)) :=
  fun s hs => h s (lookup_of_exit hs)

/-- **One call promotes on an oscillation.** -/
theorem promotes_of_backed {w : Watch} (h : AllBacked w.clock w.tracker.spikes w.record) {m : Move}
    (hDrops : m.drops) : PromotesOscillating w m := by
  cases m with
  | update c =>
      constructor
      · intro pid hBefore hAfter
        by_contra hNot
        apply hAfter
        apply observing_update hBefore
        intro e he hPid
        exact hNot ⟨e, he, hPid⟩
      · intro e he
        exact ((backed_watchAll _ hDrops _ (allBacked_registered h c)).2 e he).1
  | exit gone => exact fun pid hBefore => observing_exit hBefore

end Calls

/-! ## A process that only grows -/

section Rising

variable {p : Params} {now : Instant} {rssD : Map Pid Kb} {pid : Pid}

def rssSeen (seen : List Sighting) : List Nat := seen.map fun x => x.rss.val

theorem rssIn_cons_self (proc : Process) (rest : List Process) :
    rssIn proc.pid (proc :: rest) = proc.rssKb.val :: rssIn proc.pid rest := by
  simp [rssIn]

theorem rssIn_cons_of_ne {proc : Process} {rest : List Process} (h : pid ≠ proc.pid) :
    rssIn pid (proc :: rest) = rssIn pid rest := by
  simp [rssIn, Ne.symm h]

/-- A drop needs an RSS below an earlier one. -/
theorem not_droppedAt_of_rising {seen : List Sighting} {j : Nat}
    (hRising : (rssSeen seen).Pairwise (· ≤ ·))
    (hFactor : ∀ x ∈ seen, x.params.oscillationDropFactor ≤ 1) : ¬ DroppedAt seen j := by
  intro hDrop
  obtain ⟨now, hNow, k, hk, peak, hPeak, -, hBelow⟩ := hDrop
  obtain ⟨hj, hGetNow⟩ := List.getElem?_eq_some_iff.mp hNow
  obtain ⟨hk', hGetPeak⟩ := List.getElem?_eq_some_iff.mp hPeak
  have hLe := List.pairwise_iff_getElem.mp (List.pairwise_map.mp hRising) k j hk' hj hk
  rw [hGetNow, hGetPeak] at hLe
  have hCast : (peak.rss.val : ℚ) ≤ now.rss.val := by exact_mod_cast hLe
  have hSmall := hFactor now (hGetNow ▸ List.getElem_mem hj)
  have hNonneg : (0 : ℚ) ≤ peak.rss.val := Nat.cast_nonneg _
  have hScaled := mul_le_of_le_one_left hNonneg hSmall
  linarith

theorem rssSeen_append (xs ys : List Sighting) : rssSeen (xs ++ ys) = rssSeen xs ++ rssSeen ys :=
  List.map_append

/-- What the loop has seen of a process is part of its RSS before and in the
list. -/
theorem rssSeen_watchAll {procs : List Process} {spikes : Map Pid SpikeState} {record : Record} :
    (rssSeen ((watchAll p now rssD procs spikes record).1 pid)).Sublist
        (rssSeen (record pid) ++ rssIn pid procs) ∧
      ∀ e ∈ (watchAll p now rssD procs spikes record).2, e.pid = pid →
        (rssSeen e.seen).Sublist (rssSeen (record pid) ++ rssIn pid procs) := by
  induction procs generalizing spikes record with
  | nil => exact ⟨List.sublist_append_left _ _, fun _ he => absurd he List.not_mem_nil⟩
  | cons proc rest ih =>
      unfold watchAll
      cases hState : spikes.lookup proc.pid with
      | none =>
          have hLonger : (rssIn pid rest).Sublist (rssIn pid (proc :: rest)) :=
            ((List.sublist_cons_self proc rest).filter _).map _
          have hRest := @ih spikes record
          exact ⟨hRest.1.trans (hLonger.append_left _),
            fun e he hPid => (hRest.2 e he hPid).trans (hLonger.append_left _)⟩
      | some s =>
          dsimp only
          have hRest := @ih (spikes.insert proc.pid (track p now rssD proc s).1)
            (record.set proc.pid
              (if s.phase = .tracking ∧ (track p now rssD proc s).1.phase = .observing then []
                else record proc.pid ++ [⟨proc.rssKb, now, p⟩]))
          by_cases hHere : pid = proc.pid
          · subst hHere
            rw [rssIn_cons_self]
            have hSet : ∀ seen, (record.set proc.pid seen) proc.pid = seen := fun _ => if_pos rfl
            rw [hSet] at hRest
            -- after a demotion the record is shorter
            have hShorter : (rssSeen (if s.phase = .tracking ∧
                (track p now rssD proc s).1.phase = .observing then []
                else record proc.pid ++ [⟨proc.rssKb, now, p⟩])).Sublist
                  (rssSeen (record proc.pid) ++ [proc.rssKb.val]) := by
              split
              · exact List.nil_sublist _
              · rw [rssSeen_append]
                exact List.Sublist.refl _
            have hAll := hShorter.append_right (rssIn proc.pid rest)
            rw [List.append_assoc, List.singleton_append] at hAll
            refine ⟨hRest.1.trans hAll, fun e he hPid => ?_⟩
            have hLater : e ∈ (watchAll p now rssD rest _ _).2 →
                (rssSeen e.seen).Sublist
                  (rssSeen (record proc.pid) ++ proc.rssKb.val :: rssIn proc.pid rest) :=
              fun hMem => (hRest.2 e hMem hPid).trans hAll
            split at he
            · cases List.mem_cons.mp he with
              | inl hFirst =>
                  rw [hFirst, rssSeen_append]
                  exact (List.singleton_sublist.mpr List.mem_cons_self).append_left _
              | inr hMem => exact hLater hMem
            · exact hLater he
          · rw [rssIn_cons_of_ne hHere]
            have hSet : ∀ seen, (record.set proc.pid seen) pid = record pid :=
              fun _ => if_neg hHere
            rw [hSet] at hRest
            refine ⟨hRest.1, fun e he hPid => ?_⟩
            split at he
            · cases List.mem_cons.mp he with
              | inl hFirst =>
                  rw [hFirst] at hPid
                  exact absurd hPid.symm hHere
              | inr hMem => exact hRest.2 e hMem hPid
            · exact hRest.2 e he hPid

/-- What is left of the run does not lower the RSS of the process. -/
def Rising (pid : Pid) (w : Watch) (rest : List Move) : Prop :=
  (rssSeen (w.record pid) ++ rssOf pid rest).Pairwise (· ≤ ·)

theorem rssSeen_freshRecord (w : Watch) (pid : Pid) :
    (rssSeen (w.freshRecord pid)).Sublist (rssSeen (w.record pid)) := by
  unfold Watch.freshRecord
  split
  · exact List.Sublist.refl _
  · exact List.nil_sublist _

theorem rising_step {w : Watch} {m : Move} {rest : List Move} (h : Rising pid w (m :: rest)) :
    Rising pid (w.step m) rest := by
  cases m with
  | update c =>
      have hSeen : (rssSeen ((w.step (.update c)).record pid)).Sublist
          (rssSeen (w.record pid) ++ rssIn pid c.procs) :=
        rssSeen_watchAll.1.trans ((rssSeen_freshRecord w pid).append_right _)
      refine h.sublist ?_
      have hAll := hSeen.append_right (rssOf pid rest)
      rwa [List.append_assoc] at hAll
  | exit gone => exact h

/-- **One call leaves a process that only grows in Observing.** -/
theorem observing_step {w : Watch} (hBacked : AllBacked w.clock w.tracker.spikes w.record)
    (h : Observing pid w) {m : Move} {rest : List Move} (hRising : Rising pid w (m :: rest))
    (hDrops : m.drops) : Observing pid (w.step m) := by
  cases m with
  | update c =>
      apply observing_update h
      intro e he hPid
      have hSeen : (rssSeen e.seen).Sublist (rssSeen (w.record pid) ++ rssIn pid c.procs) :=
        (rssSeen_watchAll.2 e he hPid).trans ((rssSeen_freshRecord w pid).append_right _)
      have hPart : (rssSeen (w.record pid) ++ rssIn pid c.procs).Sublist
          (rssSeen (w.record pid) ++ rssOf pid (.update c :: rest)) :=
        (List.sublist_append_left _ _).append_left _
      obtain ⟨hOscillated, hFactors⟩ :=
        (backed_watchAll _ hDrops _ (allBacked_registered hBacked c)).2 e he
      obtain ⟨i, j, -, -, hDrop⟩ := hOscillated.peakThenDrop
      exact not_droppedAt_of_rising (hRising.sublist (hSeen.trans hPart)) hFactors hDrop
  | exit gone => exact observing_exit h

/-- **A run leaves a process that only grows in Observing.** -/
theorem observing_run {moves : List Move} {w : Watch}
    (hBacked : AllBacked w.clock w.tracker.spikes w.record) (h : Observing pid w)
    (hRising : Rising pid w moves) (hDrops : ∀ m ∈ moves, m.drops) :
    Always Watch.step (Observing pid) w moves := by
  induction moves generalizing w with
  | nil => exact h
  | cons m rest ih =>
      have hHere := hDrops m List.mem_cons_self
      refine ⟨h, ih (allBacked_step hBacked hHere) (observing_step hBacked h hRising hHere)
        (rising_step hRising) ?_⟩
      intro later hLater
      exact hDrops later (List.mem_cons_of_mem m hLater)

end Rising

/-- **Tracking means oscillation.** -/
theorem promoted_of_oscillation (clock : Instant) (moves : List Move)
    (hDrops : ∀ m ∈ moves, m.drops) :
    EveryStep Watch.step PromotesOscillating (Watch.start clock) moves ∧
      ∀ pid, (rssOf pid moves).Pairwise (· ≤ ·) →
        Always Watch.step (Observing pid) (Watch.start clock) moves := by
  have hStart : AllBacked clock (Watch.start clock).tracker.spikes (Watch.start clock).record :=
    fun _ _ hLookup => nomatch hLookup
  constructor
  · have hKeeps : ∀ (w : Watch) (m : Move), AllBacked w.clock w.tracker.spikes w.record →
        m.drops → AllBacked (w.step m).clock (w.step m).tracker.spikes (w.step m).record :=
      fun _ _ hInv hOk => allBacked_step hInv hOk
    exact everyStep_of_invariant hKeeps (fun _ _ hInv hOk => promotes_of_backed hInv hOk) hStart
      (everyStep_of_forall_mem hDrops (Watch.start clock))
  · intro pid hRising
    exact observing_run hStart (fun _ hLookup => nomatch hLookup) hRising hDrops

/-! ## A browser and an editor -/

open Mgd.Evictor.CollectiveRelease (sessionConfig sessionProcess)

/-- A call five seconds after the last one, with two samples asked for. -/
def desktopCall (browserRss editorRss : Nat) : Call where
  gap := 5 * nanosPerSec
  procs := [sessionProcess 100 "firefox" browserRss, sessionProcess 200 "emacs" editorRss]
  available := Kb.clamp 3000000
  params := { Params.fromConfig sessionConfig with
    included := [Config.Regex.exact "firefox", Config.Regex.exact "emacs"]
    minSamples := 2 }
  foregroundPid := none

/-- The browser peaks, drops and is promoted, while the editor only grows. -/
def desktop : List Move :=
  [.update (desktopCall 500000 500000), .update (desktopCall 4200000 900000),
    .update (desktopCall 3400000 4200000), .exit ⟨100⟩]

theorem desktop_promotes_browser :
    (EveryStep Watch.step PromotesOscillating (Watch.start 0) desktop ∧
        Always Watch.step (Observing ⟨200⟩) (Watch.start 0) desktop) ∧
      ((run Watch.step (Watch.start 0) (desktop.take 3)).tracker.spikes.lookup ⟨100⟩).map
        SpikeState.phase = some .tracking :=
  have hAll := promoted_of_oscillation 0 desktop (by decide +kernel)
  ⟨⟨hAll.1, hAll.2 ⟨200⟩ (by decide +kernel)⟩, by decide +kernel⟩

end Mgd.SpikeOscillation
