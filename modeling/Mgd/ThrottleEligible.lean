import Mathlib.Data.List.DropRight
import Mgd.Lib.KeyedLoop
import Mgd.Throttle

/-!
# Who is throttled

The manager keeps two maps, from six exits of a loop over the cgroups: the
state of each cgroup, and when its stretch in the background began.  This
module says what they come to over any sequence of calls.

A call finds a cgroup `eligible` when it is an active call that lists the
cgroup, in the background, with expendable processes only and none excluded.
The tracker holds the beginning of the stretch of calls that find it so, up to
the last call (`tracker_after`), and the recorded state is a function of that
beginning and of the last call (`throttled_iff`).
-/

namespace Mgd.ThrottleEligible

open Mgd.Types Mgd.Monitor Mgd.Config Mgd.Lib.AssocMap Mgd.Lib.KeyedLoop
open Mgd.Engine.Planner Mgd.Throttle

/-! ## Eligibility -/

/-- The call finds the cgroup throttle-eligible. -/
structure Eligible (args : UpdateArgs) (path : String) : Prop where
  active : args.active = true
  listed : path ∈ cgroupPaths args.planProcs
  background : findForegroundCgroup args.planProcs args.activePid ≠ some path
  expendable : ∀ p ∈ cgroupMembers args.planProcs path,
    60 ≤ getPriority p.name p.exeBasename args.cfg
  included : isExcluded args.cfg (cgroupMembers args.planProcs path) = false

/-- The test the loop makes. -/
def eligible (args : UpdateArgs) (path : String) : Bool :=
  args.active && decide (path ∈ cgroupPaths args.planProcs) &&
    decide (some path ≠ findForegroundCgroup args.planProcs args.activePid) &&
    decide (60 ≤ minPriority args.cfg (cgroupMembers args.planProcs path)) &&
    !isExcluded args.cfg (cgroupMembers args.planProcs path)

/-- The least priority is at least a bound exactly when every one is. -/
theorem le_minPriority_iff (cfg : CompiledConfig) (processes : List Process) {bound : Nat}
    (hBound : bound ≤ 100) :
    bound ≤ minPriority cfg processes ↔
      ∀ p ∈ processes, bound ≤ getPriority p.name p.exeBasename cfg := by
  have hFold : ∀ start, bound ≤ processes.foldl
      (fun m p => min m (getPriority p.name p.exeBasename cfg)) start ↔
        bound ≤ start ∧ ∀ p ∈ processes, bound ≤ getPriority p.name p.exeBasename cfg := by
    induction processes with
    | nil => simp
    | cons p rest ih =>
        intro start
        rw [List.foldl_cons, ih, le_min_iff, List.forall_mem_cons, and_assoc]
  unfold minPriority
  rw [hFold]
  exact and_iff_right hBound

theorem eligible_iff (args : UpdateArgs) (path : String) :
    eligible args path = true ↔ Eligible args path := by
  unfold eligible
  simp only [Bool.and_eq_true, decide_eq_true_eq, Bool.not_eq_true',
    le_minPriority_iff args.cfg _ (by decide : 60 ≤ 100)]
  constructor
  · intro h
    obtain ⟨⟨⟨⟨hActive, hListed⟩, hBackground⟩, hExpendable⟩, hIncluded⟩ := h
    exact ⟨hActive, hListed, Ne.symm hBackground, hExpendable, hIncluded⟩
  · intro h
    exact ⟨⟨⟨⟨h.active, h.listed⟩, Ne.symm h.background⟩, h.expendable⟩, h.included⟩

/-! ## One call -/

/-- The recorded state of a cgroup; one without an entry is not throttled. -/
def recorded (m : ThrottleManager) (path : String) : ThrottledState :=
  (m.states.lookup path).getD .none

/-- The state an eligible cgroup gets, in the background since `since`. -/
def targetState (args : UpdateArgs) (path : String) (since : Instant) : ThrottledState :=
  let backgroundDuration := Instant.secsSince (args.clock.read path) since
  if shouldForceRelease backgroundDuration args.psiSomeAvg10 args.cfg.throttleMaxDurationSec
      throttleReleasePsiFloor then .none
  else if backgroundDuration ≥ 10 then
    if minPriority args.cfg (cgroupMembers args.planProcs path) ≥ 80 then .full else .weightOnly
  else .none

/-- The entries of a cgroup. -/
def entries (m : ThrottleManager) (path : String) : Option ThrottledState × Option Instant :=
  (m.states.lookup path, m.tracker.lookup path)

section Call

variable {args : UpdateArgs} {m : ThrottleManager} {path : String}

theorem release_recorded (args : UpdateArgs) (m : ThrottleManager) (path : String) :
    recorded (release args m path (recorded m path)).1 path = .none ∧
      (release args m path (recorded m path)).1.tracker.lookup path = none := by
  unfold release
  split
  · simp [recorded]
  · next hNone =>
      rw [not_not] at hNone
      exact ⟨hNone, by simp⟩

/-- **One round**, for a cgroup of an active call: an eligible one gets its
state and keeps the beginning of its stretch, any other loses both. -/
theorem updateCgroup_entries (hActive : args.active = true)
    (hListed : path ∈ cgroupPaths args.planProcs) :
    recorded (updateCgroup args m path).1 path =
        (if eligible args path then
          targetState args path ((m.tracker.lookup path).getD (args.clock.enter path))
        else .none) ∧
      (updateCgroup args m path).1.tracker.lookup path =
        if eligible args path then
          some ((m.tracker.lookup path).getD (args.clock.enter path))
        else none := by
  have hRelease := release_recorded args m path
  unfold updateCgroup
  dsimp only
  by_cases hFront : some path = findForegroundCgroup args.planProcs args.activePid
  · have hNot : eligible args path = false := by simp [eligible, hFront]
    rw [if_pos hFront, hNot]
    exact hRelease
  rw [if_neg hFront]
  by_cases hLow : minPriority args.cfg (cgroupMembers args.planProcs path) < 60
  · have hNot : eligible args path = false := by
      have hBelow : ¬ 60 ≤ minPriority args.cfg (cgroupMembers args.planProcs path) := by omega
      simp [eligible, hBelow]
    rw [if_pos hLow, hNot]
    exact hRelease
  rw [if_neg hLow]
  cases hExcluded : isExcluded args.cfg (cgroupMembers args.planProcs path) with
  | true =>
      have hNot : eligible args path = false := by simp [eligible, hExcluded]
      rw [if_pos rfl, hNot]
      exact hRelease
  | false =>
      have hEligible : eligible args path = true := by
        have hEnough : 60 ≤ minPriority args.cfg (cgroupMembers args.planProcs path) := by omega
        simp [eligible, hActive, hListed, hFront, hEnough, hExcluded]
      rw [if_neg Bool.false_ne_true, hEligible]
      unfold targetState
      simp only [if_true]
      generalize (if shouldForceRelease _ _ _ _ = true then ThrottledState.none else _) = target
      -- the target is written down unless it is the recorded state already
      by_cases hSame : target = (m.states.lookup path).getD .none
      · rw [if_neg (not_not.mpr hSame)]
        exact ⟨hSame.symm, by simp⟩
      · rw [if_pos hSame]
        exact ⟨by simp [recorded], by simp⟩

/-- The rounds of the loop, their writes left out. -/
def round (args : UpdateArgs) (m : ThrottleManager) (path : String) : ThrottleManager :=
  (updateCgroup args m path).1

theorem updateCgroups_eq_foldl (args : UpdateArgs) (paths : List String) (m : ThrottleManager) :
    (updateCgroups args paths m).1 = paths.foldl (round args) m := by
  induction paths generalizing m with
  | nil => rfl
  | cons path rest ih => exact ih _

theorem keepsOthers_round (args : UpdateArgs) : KeepsOthers (round args) entries := by
  intro m path p hp
  have hRelease : entries (release args m path (recorded m path)).1 p = entries m p := by
    unfold release entries
    split
    · simp [hp]
    · simp [hp]
  unfold round updateCgroup
  dsimp only
  split
  · exact hRelease
  split
  · exact hRelease
  split
  · exact hRelease
  generalize (if shouldForceRelease _ _ _ _ = true then ThrottledState.none else _) = target
  split
  · simp [entries, hp]
  · simp [entries, hp]

/-- **One call**, for any cgroup. -/
theorem update_entries (m : ThrottleManager) (args : UpdateArgs) (path : String) :
    recorded (m.update args).1 path =
        (if eligible args path then
          targetState args path ((m.tracker.lookup path).getD (args.clock.enter path))
        else .none) ∧
      (m.update args).1.tracker.lookup path =
        if eligible args path then
          some ((m.tracker.lookup path).getD (args.clock.enter path))
        else none := by
  unfold ThrottleManager.update
  cases hActive : args.active with
  | false =>
      have hNot : eligible args path = false := by simp [eligible, hActive]
      rw [hNot]
      exact ⟨rfl, rfl⟩
  | true =>
      simp only [if_true, updateCgroups_eq_foldl]
      by_cases hListed : path ∈ cgroupPaths args.planProcs
      · obtain ⟨m', hBefore, hAfter⟩ := foldl_own (keepsOthers_round args) (List.nodup_dedup _)
          hListed
          ⟨retain (fun path _ => decide (path ∈ cgroupPaths args.planProcs)) m.states,
            retain (fun path _ => decide (path ∈ cgroupPaths args.planProcs)) m.tracker⟩
        obtain ⟨hState, hTracker⟩ := Prod.mk.inj hAfter
        have hSince : m'.tracker.lookup path = m.tracker.lookup path := by
          rw [(Prod.mk.inj hBefore).2, lookup_retain_key, if_pos (by simpa using hListed)]
        obtain ⟨hRecorded, hTracked⟩ := @updateCgroup_entries args m' path hActive hListed
        rw [hSince] at hRecorded hTracked
        exact ⟨(congrArg (fun s => s.getD .none) hState).trans hRecorded,
          hTracker.trans hTracked⟩
      · have hNot : eligible args path = false := by simp [eligible, hListed]
        obtain ⟨hState, hTracker⟩ := Prod.mk.inj
          (foldl_other (keepsOthers_round args) hListed
            ⟨retain (fun path _ => decide (path ∈ cgroupPaths args.planProcs)) m.states,
              retain (fun path _ => decide (path ∈ cgroupPaths args.planProcs)) m.tracker⟩)
        have hDropped : decide (path ∈ cgroupPaths args.planProcs) ≠ true := by simpa using hListed
        unfold recorded
        rw [hState, hTracker, lookup_retain_key, lookup_retain_key, if_neg hDropped,
          if_neg hDropped, hNot]
        exact ⟨rfl, rfl⟩

end Call

/-! ## Sequences of calls -/

/-- The manager after a sequence of calls. -/
def after (calls : List UpdateArgs) : ThrottleManager :=
  calls.foldl (fun m args => (m.update args).1) .new

/-- The unbroken stretch of calls, up to the last one, that find the cgroup
eligible. -/
def stretch (calls : List UpdateArgs) (path : String) : List UpdateArgs :=
  calls.rtakeWhile (fun args => eligible args path)

/-- When the stretch began: what its first call reads for the tracker. -/
def stretchStart (calls : List UpdateArgs) (path : String) : Option Instant :=
  (stretch calls path).head?.map fun args => args.clock.enter path

theorem stretchStart_concat (calls : List UpdateArgs) (args : UpdateArgs) (path : String) :
    stretchStart (calls ++ [args]) path =
      if eligible args path then
        some ((stretchStart calls path).getD (args.clock.enter path))
      else none := by
  unfold stretchStart stretch
  rw [List.rtakeWhile_concat]
  split
  · cases calls.rtakeWhile (fun args => eligible args path) with
    | nil => rfl
    | cons first rest => rfl
  · rfl

theorem after_concat (calls : List UpdateArgs) (args : UpdateArgs) :
    after (calls ++ [args]) = ((after calls).update args).1 := by
  unfold after
  rw [List.foldl_concat]

/-- **The tracker is the beginning of the stretch.** -/
theorem tracker_after (calls : List UpdateArgs) (path : String) :
    (after calls).tracker.lookup path = stretchStart calls path := by
  induction calls using List.reverseRecOn with
  | nil => rfl
  | append_singleton calls args ih =>
      rw [after_concat, (update_entries _ args path).2, ih, stretchStart_concat]

/-- After the last call the cgroup is in the background for 10 s, and neither
for the maximum duration nor longer while PSI shows no stall. -/
def HeldLongEnough (last : UpdateArgs) (path : String) (since : Instant) : Prop :=
  10 ≤ Instant.secsSince (last.clock.read path) since ∧
    ¬ (last.cfg.throttleMaxDurationSec ≤ Instant.secsSince (last.clock.read path) since ∧
      last.psiSomeAvg10 < throttleReleasePsiFloor)

theorem targetState_iff (args : UpdateArgs) (path : String) (since : Instant) :
    (targetState args path since = .full ↔ HeldLongEnough args path since ∧
        80 ≤ minPriority args.cfg (cgroupMembers args.planProcs path)) ∧
      (targetState args path since = .weightOnly ↔ HeldLongEnough args path since ∧
        minPriority args.cfg (cgroupMembers args.planProcs path) < 80) := by
  unfold targetState HeldLongEnough shouldForceRelease
  dsimp only
  simp only [Bool.and_eq_true, decide_eq_true_eq, ge_iff_le]
  by_cases hForced : args.cfg.throttleMaxDurationSec ≤
      Instant.secsSince (args.clock.read path) since ∧
        args.psiSomeAvg10 < throttleReleasePsiFloor
  · simp [hForced]
  · by_cases hLong : 10 ≤ Instant.secsSince (args.clock.read path) since
    · by_cases hFull : 80 ≤ minPriority args.cfg (cgroupMembers args.planProcs path)
      · have hNot : ¬ minPriority args.cfg (cgroupMembers args.planProcs path) < 80 := by omega
        simp [hForced, hLong, hFull, hNot]
      · have hBelow : minPriority args.cfg (cgroupMembers args.planProcs path) < 80 := by omega
        simp [hForced, hLong, hFull, hBelow]
    · simp [hForced, hLong]

/-- **Throttle eligibility**, over every sequence of calls: what is recorded of
a cgroup after the last one. -/
theorem throttled_iff (calls : List UpdateArgs) (last : UpdateArgs) (path : String) :
    (recorded (after (calls ++ [last])) path = .full ↔
      Eligible last path ∧ (∃ since, stretchStart (calls ++ [last]) path = some since ∧
        HeldLongEnough last path since) ∧
          80 ≤ minPriority last.cfg (cgroupMembers last.planProcs path)) ∧
    (recorded (after (calls ++ [last])) path = .weightOnly ↔
      Eligible last path ∧ (∃ since, stretchStart (calls ++ [last]) path = some since ∧
        HeldLongEnough last path since) ∧
          minPriority last.cfg (cgroupMembers last.planProcs path) < 80) := by
  rw [after_concat, (update_entries _ last path).1, tracker_after, stretchStart_concat]
  cases hEligible : eligible last path with
  | false =>
      have hNot : ¬ Eligible last path := by
        rw [← eligible_iff, hEligible]
        exact Bool.false_ne_true
      simp [hNot]
  | true =>
      have hYes : Eligible last path := (eligible_iff last path).mp hEligible
      simp [hYes, targetState_iff]

end Mgd.ThrottleEligible
