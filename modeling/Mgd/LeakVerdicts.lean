import Mathlib.Data.List.Chain
import Mgd.LeakFamilies

/-!
# What a leak verdict rests on

The tracker judges a family by its samples of the last `window_sec`.  A call that
finds the family below `min_group_count` drops the state with all samples, and a
call whose first member is excluded takes none, so a verdict may rest on fewer
calls than the window holds.  The cooldown is dropped with the state as well.

A `Watch` keeps beside the tracker all calls so far, and which families were
reaped when.

* `verdict_sound_iff` : a family reaped has not shrunk in any call of the window,
  exactly when no fall of its count is hidden from the record.
* `cooldown_kept_iff` : a family is not reaped again before its cooldown is over,
  exactly when none that lost its state in the meantime falls due.
-/

namespace Mgd.LeakVerdicts

open Mgd.Types Mgd.Monitor Mgd.Lib.AssocMap Mgd.Lib.Run Mgd.LeakGuard Mgd.LeakFamilies

/-! ## The tracker with its history -/

structure Call where
  now : Instant
  procs : List Process

/-- A family was reaped, and whether it has been below the floor since. -/
structure Reaping where
  key : String
  time : Instant
  lost : Bool
deriving DecidableEq

structure Watch where
  tracker : LeakTracker
  clock : Instant
  calls : List Call
  reapings : List Reaping

def Watch.new (now : Instant) : Watch where
  tracker := .new
  clock := now
  calls := []
  reapings := []

/-- The next call, `elapsed` after the last. -/
structure CallInput where
  procs : List Process
  elapsed : Duration

section Machine

variable (p : LeakGuardConfig)

def Watch.call (s : Watch) (i : CallInput) : Call where
  now := s.clock + i.elapsed
  procs := i.procs

/-- The call emits decisions for the family. -/
def reaps (s : Watch) (c : Call) (key : String) : Bool :=
  !(decisionsOf p c.now (familyOf c.procs key) (s.tracker.groups.lookup key)).isEmpty

def Reaping.after (c : Call) (r : Reaping) : Reaping :=
  { r with lost := r.lost || decide ((familyOf c.procs r.key).length < p.minGroupCount) }

def step (s : Watch) (i : CallInput) : Watch where
  tracker := (s.tracker.update i.procs p (s.call i).now).1
  clock := (s.call i).now
  calls := s.calls ++ [s.call i]
  reapings := s.reapings.map (Reaping.after p (s.call i)) ++
    ((currentGroups i.procs).keys.filter (reaps p s (s.call i))).map fun key =>
      ⟨key, (s.call i).now, false⟩

end Machine

/-- What the call saw of the family. -/
def sampleOf (key : String) (c : Call) : CountSample where
  count := (familyOf c.procs key).length
  takenAt := c.now

/-- The sample is one of the last `window_sec`. -/
def within (p : LeakGuardConfig) (now : Instant) (s : CountSample) : Bool :=
  !decide (p.windowSec * nanosPerSec < Instant.durationSince now s.takenAt)

/-! ## Samples -/

section Samples

variable {p : LeakGuardConfig} {now : Instant}

theorem neverShrunk_iff {samples : List CountSample} :
    neverShrunk samples = true ↔ samples.IsChain fun a b => a.count ≤ b.count := by
  induction samples with
  | nil => simp [neverShrunk]
  | cons first rest ih =>
      cases rest with
      | nil => simp [neverShrunk]
      | cons second rest =>
          rw [List.isChain_cons_cons, ← ih]
          simp [neverShrunk]

theorem within_iff {s : CountSample} :
    within p now s = true ↔ now - s.takenAt ≤ p.windowSec * nanosPerSec := by
  unfold within Instant.durationSince
  rw [Bool.not_eq_true', decide_eq_false_iff_not, Nat.not_lt]

/-- What is in the window now was in it before. -/
theorem within_mono {now' : Instant} {s : CountSample} (hLe : now ≤ now')
    (h : within p now' s = true) : within p now s = true := by
  rw [within_iff] at h ⊢
  exact le_trans (Nat.sub_le_sub_right hLe _) h

/-- Samples in the order of time leave at the front. -/
theorem prune_eq_filter {samples : List CountSample}
    (hSorted : samples.Pairwise fun a b => a.takenAt ≤ b.takenAt) :
    prune p.windowSec now samples = samples.filter (within p now) := by
  induction samples with
  | nil => rfl
  | cons first rest ih =>
      obtain ⟨hFirst, hRest⟩ := List.pairwise_cons.mp hSorted
      have hPrune : prune p.windowSec now (first :: rest) =
          if within p now first then first :: rest else prune p.windowSec now rest := by
        unfold prune within
        rw [List.dropWhile_cons]
        cases decide (p.windowSec * nanosPerSec < Instant.durationSince now first.takenAt) <;> rfl
      rw [hPrune]
      by_cases hIn : within p now first = true
      · have hAll : ∀ s ∈ first :: rest, within p now s = true := by
          intro s hs
          cases List.mem_cons.mp hs with
          | inl hSame => rw [hSame, hIn]
          | inr hLater =>
              rw [within_iff] at hIn ⊢
              exact le_trans (Nat.sub_le_sub_left (hFirst s hLater) _) hIn
        rw [if_pos hIn, List.filter_eq_self.mpr hAll]
      · rw [if_neg hIn, List.filter_cons_of_neg hIn, ih hRest]

end Samples

/-! ## The record -/

/-- A call, seen from one family: whether the tracker still has its sample. -/
structure Visit where
  sample : CountSample
  onRecord : Bool

section Record

variable (p : LeakGuardConfig) (key : String)

/-- A family below the floor loses its samples; a skipped one gets none. -/
def visit (visits : List Visit) (c : Call) : List Visit :=
  if (familyOf c.procs key).length < p.minGroupCount then
    visits.map (fun v => { v with onRecord := false }) ++ [⟨sampleOf key c, false⟩]
  else visits ++ [⟨sampleOf key c, !skipped p (familyOf c.procs key)⟩]

def visits (calls : List Call) : List Visit := calls.foldl (visit p key) []

def recorded (vs : List Visit) : List CountSample :=
  (vs.filter Visit.onRecord).map Visit.sample

theorem visits_append (calls : List Call) (c : Call) :
    visits p key (calls ++ [c]) = visit p key (visits p key calls) c := by
  unfold visits
  rw [List.foldl_append]
  rfl

theorem visits_samples (calls : List Call) :
    (visits p key calls).map Visit.sample = calls.map (sampleOf key) := by
  induction calls using List.reverseRecOn with
  | nil => rfl
  | append_singleton calls c ih =>
      rw [visits_append, List.map_append, ← ih]
      unfold visit
      split
      · rw [List.map_append, List.map_map]
        rfl
      · rw [List.map_append]
        rfl

/-- A call below the floor leaves nothing on record. -/
theorem recorded_lost {vs : List Visit} {c : Call}
    (h : (familyOf c.procs key).length < p.minGroupCount) :
    recorded (visit p key vs c) = [] := by
  unfold visit recorded
  rw [if_pos h, List.filter_append, List.filter_eq_nil_iff.mpr]
  · rfl
  · intro v hv
    obtain ⟨-, -, rfl⟩ := List.mem_map.mp hv
    exact Bool.false_ne_true

theorem recorded_skipped {vs : List Visit} {c : Call}
    (h : ¬ (familyOf c.procs key).length < p.minGroupCount)
    (hSkip : skipped p (familyOf c.procs key) = true) :
    recorded (visit p key vs c) = recorded vs := by
  unfold visit recorded
  rw [if_neg h, hSkip, List.filter_append, List.map_append]
  exact List.append_nil _

theorem recorded_taken {vs : List Visit} {c : Call}
    (h : ¬ (familyOf c.procs key).length < p.minGroupCount)
    (hTake : skipped p (familyOf c.procs key) = false) :
    recorded (visit p key vs c) = recorded vs ++ [sampleOf key c] := by
  unfold visit recorded
  rw [if_neg h, hTake, List.filter_append, List.map_append]
  rfl

end Record

/-! ## The state of a family is its record -/

/-- The samples kept, as of the last time the family was visited. -/
def RecordOf (p : LeakGuardConfig) (clock : Instant) (old : Option GroupState)
    (record : List CountSample) : Prop :=
  ∃ u ≤ clock, (old.map GroupState.samples).getD [] = record.filter (within p u)

structure Tracked (p : LeakGuardConfig) (s : Watch) : Prop where
  past : ∀ c ∈ s.calls, c.now ≤ s.clock
  sorted : s.calls.Pairwise fun a b => a.now ≤ b.now
  groups : ∀ key,
    RecordOf p s.clock (s.tracker.groups.lookup key) (recorded (visits p key s.calls))

section Tracking

variable {p : LeakGuardConfig} {s : Watch} {key : String}

theorem recorded_sorted {calls : List Call} (h : calls.Pairwise fun a b => a.now ≤ b.now) :
    (recorded (visits p key calls)).Pairwise fun a b => a.takenAt ≤ b.takenAt := by
  have hAll : ((visits p key calls).map Visit.sample).Pairwise
      fun a b => a.takenAt ≤ b.takenAt := by
    rw [visits_samples, List.pairwise_map]
    exact h
  exact hAll.sublist (List.filter_sublist.map _)

theorem sorted_append (h : Tracked p s) (i : CallInput) :
    (s.calls ++ [s.call i]).Pairwise fun a b => a.now ≤ b.now := by
  refine List.pairwise_append.mpr ⟨h.sorted, List.pairwise_singleton _ _, fun a ha b hb => ?_⟩
  rw [List.mem_singleton.mp hb]
  exact le_trans (h.past a ha) (Nat.le_add_right _ _)

/-- The samples of a family that is visited: those on record, in the window. -/
theorem samples_taken (h : Tracked p s) (i : CallInput)
    (hFloor : ¬ (familyOf i.procs key).length < p.minGroupCount)
    (hTake : skipped p (familyOf i.procs key) = false) :
    prune p.windowSec (s.call i).now
        (((s.tracker.groups.lookup key).map GroupState.samples).getD [] ++
          [sampleOf key (s.call i)]) =
      (recorded (visits p key (s.calls ++ [s.call i]))).filter (within p (s.call i).now) := by
  have hSorted : (recorded (visits p key (s.calls ++ [s.call i]))).Pairwise
      fun a b => a.takenAt ≤ b.takenAt := recorded_sorted (sorted_append h i)
  obtain ⟨u, hu, hSamples⟩ := h.groups key
  have hLater : u ≤ (s.call i).now := le_trans hu (Nat.le_add_right _ _)
  rw [visits_append, recorded_taken p key hFloor hTake] at hSorted ⊢
  rw [hSamples, prune_eq_filter]
  · rw [List.filter_append, List.filter_append, List.filter_filter]
    have hBoth : ∀ x ∈ recorded (visits p key s.calls),
        (within p (s.call i).now x && within p u x) = within p (s.call i).now x := by
      intro x _
      cases hIn : within p (s.call i).now x with
      | false => rfl
      | true => rw [Bool.true_and, within_mono hLater hIn]
    rw [List.filter_congr hBoth]
  · exact hSorted.sublist (List.filter_sublist.append_right _)

theorem recordOf_step (h : Tracked p s) (i : CallInput) (key : String) :
    RecordOf p (s.call i).now ((step p s i).tracker.groups.lookup key)
      (recorded (visits p key (s.calls ++ [s.call i]))) := by
  have hLater : s.clock ≤ (s.call i).now := Nat.le_add_right _ _
  have hState : (step p s i).tracker.groups.lookup key =
      stateAfter p (s.call i).now (familyOf i.procs key)
        (kept p (familyOf i.procs key) (s.tracker.groups.lookup key)) :=
    lookup_update s.tracker i.procs p (s.call i).now key
  rw [hState]
  by_cases hFloor : p.minGroupCount ≤ (familyOf i.procs key).length
  · have hAbove := Nat.not_lt_of_le hFloor
    cases hSkip : skipped p (familyOf i.procs key) with
    | true =>
        obtain ⟨u, hu, hSamples⟩ := h.groups key
        rw [stateAfter_skipped hFloor hSkip, visits_append, recorded_skipped p key hAbove hSkip]
        exact ⟨u, le_trans hu hLater, hSamples⟩
    | false =>
        obtain ⟨representative, hTaken⟩ := stateAfter_taken hFloor hSkip
          (s.tracker.groups.lookup key)
        refine ⟨(s.call i).now, le_refl _, ?_⟩
        rw [hTaken, Option.map_some, Option.getD_some, samples_visited]
        exact samples_taken h i hAbove hSkip
  · -- the state goes, and with it the record
    rw [stateAfter_below hFloor, visits_append, recorded_lost p key (Nat.lt_of_not_le hFloor)]
    exact ⟨(s.call i).now, le_refl _, rfl⟩

theorem Tracked.step (h : Tracked p s) (i : CallInput) : Tracked p (step p s i) where
  past := by
    intro c hc
    cases List.mem_append.mp hc with
    | inl hOld => exact le_trans (h.past c hOld) (Nat.le_add_right _ _)
    | inr hNew => exact le_of_eq (congrArg Call.now (List.mem_singleton.mp hNew))
  sorted := sorted_append h i
  groups := recordOf_step h i

theorem tracked_new (p : LeakGuardConfig) (now : Instant) : Tracked p (Watch.new now) where
  past _ hc := absurd hc List.not_mem_nil
  sorted := .nil
  groups _ := ⟨now, le_refl _, rfl⟩

end Tracking

/-! ## Sound verdicts -/

/-- What the samples of all calls must say of a leaking family. -/
structure Justified (p : LeakGuardConfig) (now : Instant) (samples : List CountSample)
    (members : List Process) : Prop where
  neverShrunk : (samples.filter (within p now)).IsChain fun a b => a.count ≤ b.count
  seen : p.minSamples ≤
    ((samples.filter (within p now)).filter fun x => decide (p.minGroupCount ≤ x.count)).length
  grown : ∃ first last, (samples.filter (within p now)).head? = some first ∧
    (samples.filter (within p now)).getLast? = some last ∧
      p.growthOverWindow ≤ last.count - first.count
  heavy : p.minGroupRss.val ≤ (Kb.sum (members.map Process.rssKb)).val

section Verdicts

variable (p : LeakGuardConfig)

/-- A family is reaped only when all calls of the window bear the verdict out. -/
def Sound (s : Watch) (i : CallInput) : Prop :=
  ∀ key, reaps p s (s.call i) key = true →
    Justified p (s.call i).now ((s.calls ++ [s.call i]).map (sampleOf key))
      (familyOf i.procs key)

/-- By its record the family is to be reaped, and has members to spare. -/
def FallsDue (s : Watch) (c : Call) (key : String) : Prop :=
  due p c.now (familyOf c.procs key) (s.tracker.groups.lookup key) = true ∧
    skipped p (familyOf c.procs key) = false ∧ p.keepNewest < (familyOf c.procs key).length

def window (s : Watch) (i : CallInput) (key : String) : List Visit :=
  (visits p key (s.calls ++ [s.call i])).filter fun v => within p (s.call i).now v.sample

/-- A family that falls due has no fall in the window but between two calls in a
row whose samples are both on record. -/
def NoHiddenFall (s : Watch) (i : CallInput) : Prop :=
  ∀ key, FallsDue p s (s.call i) key →
    (window p s i key).IsChain fun a b =>
      b.sample.count < a.sample.count → a.onRecord = true ∧ b.onRecord = true

end Verdicts

section VerdictLemmas

variable {p : LeakGuardConfig} {s : Watch} {i : CallInput} {key : String}

theorem reaps_iff {c : Call} : reaps p s c key = true ↔ FallsDue p s c key := by
  unfold reaps FallsDue
  rw [← decisionsOf_ne_nil_iff, Bool.not_eq_true', List.isEmpty_eq_false_iff]

/-- Adjacent calls that are both on record are adjacent there. -/
theorem isChain_recorded {vs : List Visit} {R : CountSample → CountSample → Prop}
    (h : (recorded vs).IsChain R) :
    vs.IsChain fun a b => a.onRecord = true → b.onRecord = true → R a.sample b.sample := by
  refine (List.isChain_isInfix vs).imp fun a b hRow hA hB => ?_
  obtain ⟨front, back, hSplit⟩ := hRow
  have hPair : [a.sample, b.sample] <:+: recorded vs := by
    refine ⟨recorded front, recorded back, ?_⟩
    rw [← hSplit]
    unfold recorded
    rw [List.filter_append, List.filter_append, List.map_append, List.map_append,
      List.filter_cons_of_pos hA, List.filter_cons_of_pos hB]
    rfl
  have hTwo : [a.sample, b.sample].IsChain R := List.IsChain.infix h hPair
  exact List.isChain_pair.mp hTwo

theorem window_samples (key : String) :
    (window p s i key).map Visit.sample =
      ((s.calls ++ [s.call i]).map (sampleOf key)).filter (within p (s.call i).now) := by
  unfold window
  rw [← visits_samples p, List.filter_map]
  rfl

theorem recorded_window (key : String) :
    recorded (window p s i key) =
      (recorded (visits p key (s.calls ++ [s.call i]))).filter (within p (s.call i).now) := by
  unfold recorded window
  rw [List.filter_map, List.filter_filter, List.filter_filter]
  apply congrArg (List.map Visit.sample)
  apply List.filter_congr
  intro v _
  rw [Function.comp_apply, Bool.and_comm]

/-- What a family that falls due has on record. -/
structure OnRecord (p : LeakGuardConfig) (s : Watch) (i : CallInput) (key : String) : Prop where
  floor : p.minGroupCount ≤ (familyOf i.procs key).length
  enough : p.minSamples ≤ (recorded (window p s i key)).length
  chain : (recorded (window p s i key)).IsChain fun a b => a.count ≤ b.count
  grown : grownEnough p.growthOverWindow (recorded (window p s i key)) = true
  heavy : p.minGroupRss.val ≤ (Kb.sum ((familyOf i.procs key).map Process.rssKb)).val

theorem of_leakingNow {now : Instant} {members : List Process} {old : Option GroupState}
    {samples : List CountSample}
    (hSamples : prune p.windowSec now
      ((old.map GroupState.samples).getD [] ++ [⟨members.length, now⟩]) = samples)
    (h : leakingNow p now members old = true) :
    p.minSamples ≤ samples.length ∧ neverShrunk samples = true ∧
      grownEnough p.growthOverWindow samples = true ∧
      p.minGroupRss.val ≤ (Kb.sum (members.map Process.rssKb)).val := by
  unfold leakingNow at h
  dsimp only at h
  rw [hSamples] at h
  simp only [Bool.and_eq_true, decide_eq_true_eq] at h
  exact ⟨h.1.1.1, h.1.1.2, h.1.2, h.2⟩

theorem onRecord_of_fallsDue (h : Tracked p s) (hDue : FallsDue p s (s.call i) key) :
    OnRecord p s i key := by
  obtain ⟨hDue, hTake, -⟩ := hDue
  unfold due at hDue
  simp only [Bool.and_eq_true, decide_eq_true_eq] at hDue
  obtain ⟨⟨hFloor, hLeaking⟩, -⟩ := hDue
  have hSamples := samples_taken h i (Nat.not_lt_of_le hFloor) hTake
  rw [← recorded_window] at hSamples
  obtain ⟨hEnough, hChain, hGrown, hHeavy⟩ := of_leakingNow hSamples hLeaking
  exact ⟨hFloor, hEnough, neverShrunk_iff.mp hChain, hGrown, hHeavy⟩

/-- What is on record was at the floor. -/
theorem floor_of_onRecord {calls : List Call} {v : Visit} (hv : v ∈ visits p key calls)
    (hRecord : v.onRecord = true) : p.minGroupCount ≤ v.sample.count := by
  induction calls using List.reverseRecOn with
  | nil => cases hv
  | append_singleton calls c ih =>
      rw [visits_append] at hv
      unfold visit at hv
      split at hv
      · cases List.mem_append.mp hv with
        | inl hOld =>
            obtain ⟨old, -, hLost⟩ := List.mem_map.mp hOld
            rw [← hLost] at hRecord
            cases hRecord
        | inr hNew =>
            rw [List.mem_singleton.mp hNew] at hRecord
            cases hRecord
      · next hFloor =>
          cases List.mem_append.mp hv with
          | inl hOld => exact ih hOld
          | inr hNew =>
              rw [List.mem_singleton.mp hNew]
              exact Nat.le_of_not_lt hFloor

/-- A list that never falls lies between its ends. -/
theorem between_of_isChain {samples : List CountSample} {first last x : CountSample}
    (h : samples.IsChain fun a b => a.count ≤ b.count) (hFirst : samples.head? = some first)
    (hLast : samples.getLast? = some last) (hx : x ∈ samples) :
    first.count ≤ x.count ∧ x.count ≤ last.count := by
  have hTrans : Trans (fun a b : CountSample => a.count ≤ b.count)
      (fun a b : CountSample => a.count ≤ b.count) (fun a b : CountSample => a.count ≤ b.count) :=
    ⟨fun hab hbc => Nat.le_trans hab hbc⟩
  have hPairs := List.isChain_iff_pairwise.mp h
  constructor
  · obtain ⟨rest, hCons⟩ := List.head?_eq_some_iff.mp hFirst
    rw [hCons] at hPairs hx
    cases List.mem_cons.mp hx with
    | inl hSame => rw [hSame]
    | inr hRest => exact (List.pairwise_cons.mp hPairs).1 x hRest
  · obtain ⟨front, hConcat⟩ := List.getLast?_eq_some_iff.mp hLast
    rw [hConcat] at hPairs hx
    cases List.mem_append.mp hx with
    | inl hFront => exact (List.pairwise_append.mp hPairs).2.2 x hFront last List.mem_cons_self
    | inr hSame => rw [List.mem_singleton.mp hSame]

/-- When the falls are on record, and none is there, the counts rise. -/
theorem rises_of_shown (h : OnRecord p s i key)
    (hShown : (window p s i key).IsChain fun a b =>
      b.sample.count < a.sample.count → a.onRecord = true ∧ b.onRecord = true) :
    ((window p s i key).map Visit.sample).IsChain fun a b => a.count ≤ b.count := by
  rw [List.isChain_map]
  refine (List.isChain_isInfix (window p s i key)).imp fun a b hRow => ?_
  have hShownRow := List.IsChain.infix hShown hRow
  have hFall := List.isChain_pair.mp hShownRow
  have hRecordRow := List.IsChain.infix (isChain_recorded h.chain) hRow
  have hRecord := List.isChain_pair.mp hRecordRow
  by_contra hDown
  obtain ⟨hA, hB⟩ := hFall (Nat.lt_of_not_le hDown)
  exact hDown (hRecord hA hB)

theorem recorded_sublist (visits : List Visit) :
    (recorded visits).Sublist (visits.map Visit.sample) :=
  List.filter_sublist.map _

/-- What is on record is at the floor. -/
theorem floor_of_mem_recorded {x : CountSample} (hx : x ∈ recorded (window p s i key)) :
    p.minGroupCount ≤ x.count := by
  obtain ⟨v, hv, rfl⟩ := List.mem_map.mp hx
  obtain ⟨hMem, hRecord⟩ := List.mem_filter.mp hv
  exact floor_of_onRecord (List.mem_of_mem_filter hMem) hRecord

/-- Rising counts grow from the first to the last by what they grow in between. -/
theorem growth_of_recorded {recordedOf samples : List CountSample} {n : Nat}
    (hSub : recordedOf.Sublist samples)
    (hRises : samples.IsChain fun a b => a.count ≤ b.count)
    (hGrown : ∃ first last, recordedOf.head? = some first ∧ recordedOf.getLast? = some last ∧
      n ≤ last.count - first.count) :
    ∃ first last, samples.head? = some first ∧ samples.getLast? = some last ∧
      n ≤ last.count - first.count := by
  obtain ⟨first, last, hFirst, hLast, hGrowth⟩ := hGrown
  have hMemFirst := hSub.subset (List.mem_of_head? hFirst)
  have hMemLast := hSub.subset (List.mem_of_getLast? hLast)
  have hSome := List.ne_nil_of_mem hMemFirst
  refine ⟨_, _, List.head?_eq_some_head hSome, List.getLast?_eq_some_getLast hSome, ?_⟩
  have hLow := (between_of_isChain hRises (List.head?_eq_some_head hSome)
    (List.getLast?_eq_some_getLast hSome) hMemFirst).1
  have hHigh := (between_of_isChain hRises (List.head?_eq_some_head hSome)
    (List.getLast?_eq_some_getLast hSome) hMemLast).2
  omega

theorem justified_of_onRecord (h : OnRecord p s i key)
    (hShown : (window p s i key).IsChain fun a b =>
      b.sample.count < a.sample.count → a.onRecord = true ∧ b.onRecord = true) :
    Justified p (s.call i).now ((s.calls ++ [s.call i]).map (sampleOf key))
      (familyOf i.procs key) := by
  have hRises := rises_of_shown h hShown
  have hSub := recorded_sublist (window p s i key)
  have hGrown := h.grown
  unfold grownEnough at hGrown
  refine ⟨?_, ?_, ?_, h.heavy⟩
  · rw [← window_samples]
    exact hRises
  · rw [← window_samples]
    have hSeen := (hSub.filter fun x => decide (p.minGroupCount ≤ x.count)).length_le
    rw [List.filter_eq_self.mpr fun x hx => decide_eq_true (floor_of_mem_recorded hx)] at hSeen
    exact le_trans h.enough hSeen
  · rw [← window_samples]
    refine growth_of_recorded hSub hRises ?_
    split at hGrown
    · next first last hFirst hLast =>
        exact ⟨first, last, hFirst, hLast, of_decide_eq_true hGrown⟩
    · cases hGrown

theorem sound_iff_noHiddenFall (h : Tracked p s) (i : CallInput) :
    Sound p s i ↔ NoHiddenFall p s i := by
  unfold Sound NoHiddenFall
  refine forall_congr' fun key => ?_
  rw [reaps_iff]
  refine imp_congr_right fun hDue => ⟨fun hJustified => ?_, fun hShown => ?_⟩
  · have hRises := hJustified.neverShrunk
    rw [← window_samples, List.isChain_map] at hRises
    exact hRises.imp fun a b hLe hFall => absurd hFall (Nat.not_lt_of_le hLe)
  · exact justified_of_onRecord (onRecord_of_fallsDue h hDue) hShown

end VerdictLemmas

/--
**When leak verdicts are sound.**  In every run of the calls of `update` from a
new tracker: a family is reaped only if, over all calls of the last `window_sec`,
its count never fell, enough calls saw it at the floor, it grew enough and it is
heavy enough, exactly when no family falls due by its record with a fall in the
window that is not between two calls in a row both on record.
-/
theorem verdict_sound_iff (p : LeakGuardConfig) (now : Instant) (inputs : List CallInput) :
    EveryStep (step p) (Sound p) (Watch.new now) inputs ↔
      EveryStep (step p) (NoHiddenFall p) (Watch.new now) inputs :=
  everyStep_iff_of_invariant (fun _ i h => Tracked.step h i)
    (fun _ i h => sound_iff_noHiddenFall h i) inputs (tracked_new p now)

/-- A family of four is tracked; three samples and three more members are a leak. -/
def lowBar : LeakGuardConfig :=
  { LeakGuardConfig.default with minGroupCount := 4, growthOverWindow := 3, minSamples := 3 }

/-- Five seconds later the family is `count` strong. -/
def familyCall (count : Nat) : CallInput where
  procs := (List.range count).map worker
  elapsed := Instant.ofSecs 5

/-- Five workers, two, then four, five and seven: the fall is forgotten, and the
family is reaped within half a minute of it. -/
theorem verdict_unsound_after_dip :
    ¬ EveryStep (step lowBar) (Sound lowBar) (Watch.new 0)
      ([familyCall 5, familyCall 2, familyCall 4, familyCall 5] ++ [familyCall 7]) := by
  intro hRun
  have hJustified := hRun.at_split "mcp-server --stdio" (by decide +kernel)
  exact absurd hJustified.neverShrunk (by decide +kernel)

/-! ## The cooldown -/

section Cooldown

variable (p : LeakGuardConfig)

/-- A family is not reaped again within the cooldown. -/
def CooldownKept (s : Watch) (i : CallInput) : Prop :=
  ∀ key, reaps p s (s.call i) key = true → ∀ r ∈ s.reapings, r.key = key →
    r.time + p.cooldownSec * nanosPerSec ≤ (s.call i).now

/-- A family that falls due within the cooldown has not been below the floor
since it was reaped. -/
def NoneLost (s : Watch) (i : CallInput) : Prop :=
  ∀ key, FallsDue p s (s.call i) key → ∀ r ∈ s.reapings, r.key = key → r.lost = true →
    r.time + p.cooldownSec * nanosPerSec ≤ (s.call i).now

/-- Reapings whose state is still there run their cooldown. -/
structure Cooling (s : Watch) : Prop where
  past : ∀ r ∈ s.reapings, r.time ≤ s.clock
  cooldown : ∀ r ∈ s.reapings, r.lost = false → ∃ u,
    (s.tracker.groups.lookup r.key).bind GroupState.cooldownUntil = some u ∧
      r.time + p.cooldownSec * nanosPerSec ≤ u

end Cooldown

section CooldownLemmas

variable {p : LeakGuardConfig} {s : Watch}

/-- A visit never brings a cooldown forward. -/
theorem cooldown_step (h : Cooling p s) (i : CallInput) {r : Reaping} (hr : r ∈ s.reapings)
    (hKept : r.lost = false) (hFloor : p.minGroupCount ≤ (familyOf i.procs r.key).length) :
    ∃ u, ((step p s i).tracker.groups.lookup r.key).bind GroupState.cooldownUntil = some u ∧
      r.time + p.cooldownSec * nanosPerSec ≤ u := by
  obtain ⟨u, hUntil, hLate⟩ := h.cooldown r hr hKept
  have hState : (step p s i).tracker.groups.lookup r.key = _ :=
    lookup_update s.tracker i.procs p (s.call i).now r.key
  rw [hState]
  cases hSkip : skipped p (familyOf i.procs r.key) with
  | true =>
      rw [stateAfter_skipped hFloor hSkip]
      exact ⟨u, hUntil, hLate⟩
  | false =>
      obtain ⟨representative, hTaken⟩ := stateAfter_taken hFloor hSkip
        (s.tracker.groups.lookup r.key)
      rw [hTaken, Option.bind_some, cooldownUntil_visited]
      split
      · refine ⟨_, rfl, Nat.add_le_add_right ?_ _⟩
        exact le_trans (h.past r hr) (Nat.le_add_right _ _)
      · exact ⟨u, hUntil, hLate⟩

/-- A family reaped starts its cooldown. -/
theorem cooldown_started {i : CallInput} {key : String} (hDue : FallsDue p s (s.call i) key) :
    ((step p s i).tracker.groups.lookup key).bind GroupState.cooldownUntil =
      some ((s.call i).now + p.cooldownSec * nanosPerSec) := by
  obtain ⟨hDue, hTake, -⟩ := hDue
  unfold due at hDue
  rw [Bool.and_eq_true, Bool.and_eq_true, decide_eq_true_iff] at hDue
  obtain ⟨⟨hFloor, hLeaking⟩, hOver⟩ := hDue
  have hState : (step p s i).tracker.groups.lookup key = _ :=
    lookup_update s.tracker i.procs p (s.call i).now key
  obtain ⟨representative, hTaken⟩ := stateAfter_taken hFloor hTake (s.tracker.groups.lookup key)
  have hBoth : (leakingNow p (s.call i).now (familyOf i.procs key)
      (s.tracker.groups.lookup key) && !coolingDown (s.call i).now
        (s.tracker.groups.lookup key)) = true := by
    rw [Bool.and_eq_true]
    exact ⟨hLeaking, hOver⟩
  have hVisited : (step p s i).tracker.groups.lookup key = _ := hState.trans hTaken
  rw [hVisited, Option.bind_some, cooldownUntil_visited]
  exact if_pos hBoth

theorem Cooling.step (h : Cooling p s) (i : CallInput) : Cooling p (step p s i) := by
  have hLater : s.clock ≤ (s.call i).now := Nat.le_add_right _ _
  refine ⟨fun r hr => ?_, fun r hr hKept => ?_⟩
  · cases List.mem_append.mp hr with
    | inl hOld =>
        obtain ⟨old, hMem, rfl⟩ := List.mem_map.mp hOld
        exact le_trans (h.past old hMem) hLater
    | inr hNew =>
        obtain ⟨key, -, rfl⟩ := List.mem_map.mp hNew
        exact le_refl _
  · cases List.mem_append.mp hr with
    | inl hOld =>
        obtain ⟨old, hMem, rfl⟩ := List.mem_map.mp hOld
        unfold Reaping.after at hKept
        dsimp only at hKept
        rw [Bool.or_eq_false_iff, decide_eq_false_iff_not] at hKept
        have hRuns := cooldown_step h i hMem hKept.1 (Nat.le_of_not_lt hKept.2)
        exact hRuns
    | inr hNew =>
        obtain ⟨key, hKey, rfl⟩ := List.mem_map.mp hNew
        have hDue := reaps_iff.mp (List.mem_filter.mp hKey).2
        exact ⟨_, cooldown_started hDue, le_refl _⟩

theorem cooldownKept_iff_noneLost (h : Cooling p s) (i : CallInput) :
    CooldownKept p s i ↔ NoneLost p s i := by
  unfold CooldownKept NoneLost
  refine forall_congr' fun key => ?_
  rw [reaps_iff]
  refine imp_congr_right fun hDue => ⟨fun hAll r hr hKey _ => hAll r hr hKey, ?_⟩
  intro hLost r hr hKey
  cases hGone : r.lost with
  | true => exact hLost r hr hKey hGone
  | false =>
      -- the state is still there, and its cooldown is over
      obtain ⟨u, hUntil, hLate⟩ := h.cooldown r hr hGone
      have hOver := hDue.1
      unfold due coolingDown at hOver
      rw [hKey] at hUntil
      rw [hUntil, Bool.and_eq_true, Bool.not_eq_true', Option.any_some,
        decide_eq_false_iff_not] at hOver
      exact le_trans hLate (Nat.le_of_not_lt hOver.2)

end CooldownLemmas

/--
**When the cooldown of a family is kept.**  In every run of the calls of `update`
from a new tracker, two calls that emit decisions for one family are at least
`cooldown_sec` apart, exactly when no family that has been below the floor since
it was reaped falls due before its cooldown is over.
-/
theorem cooldown_kept_iff (p : LeakGuardConfig) (now : Instant) (inputs : List CallInput) :
    EveryStep (step p) (CooldownKept p) (Watch.new now) inputs ↔
      EveryStep (step p) (NoneLost p) (Watch.new now) inputs := by
  have hNew : Cooling p (Watch.new now) :=
    ⟨fun r hr => absurd hr List.not_mem_nil, fun r hr => absurd hr List.not_mem_nil⟩
  exact everyStep_iff_of_invariant (fun _ i h => Cooling.step h i)
    (fun _ i h => cooldownKept_iff_noneLost h i) inputs hNew

/-- Reaped down to one worker, the family grows back and is reaped again 20 s
after the first time. -/
theorem reaped_again_in_cooldown :
    ¬ EveryStep (step lowBar) (CooldownKept lowBar) (Watch.new 0)
      ([familyCall 4, familyCall 5, familyCall 7, familyCall 1, familyCall 4, familyCall 5] ++
        [familyCall 7]) := by
  intro hRun
  have hFirst : (⟨"mcp-server --stdio", Instant.ofSecs 15, true⟩ : Reaping) ∈
      (run (step lowBar) (Watch.new 0) [familyCall 4, familyCall 5, familyCall 7, familyCall 1,
        familyCall 4, familyCall 5]).reapings := by decide +kernel
  have hLate := hRun.at_split "mcp-server --stdio" (by decide +kernel) _ hFirst rfl
  exact absurd hLate (by decide +kernel)

end Mgd.LeakVerdicts
