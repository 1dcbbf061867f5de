import Mgd.SpikeOscillation

/-!
# The representation of a spike

What holds of every entry of `spikes` between two calls of the tracker, and of
the throttle decisions that concern one spike.  A `Watch` is the tracker with
the clock and, for each process, the record of its spike since it last exited:
the throttle decisions, and the cgroup paths the entry has had.
-/

namespace Mgd.SpikeInvariant

open Mgd.Types Mgd.Monitor Mgd.Lib.AssocMap Mgd.Lib.Run Mgd.SpikeMode
open Mgd.Evictor.CollectiveRelease (tracked drained update_fst drained_spikes)
open Mgd.Evictor.Spike (drainOrphanedVictims_spikes drainTimedOutVictims_spikes
  releaseRequested_spikes onSpikeExit_spikes)

/-! ## The calls -/

/-- The arguments of an update; a process list has each process once. -/
structure Call where
  gap : Duration
  procs : List Process
  available : Kb
  params : Params
  foregroundPid : Option Pid
  distinct : (procs.map Process.pid).Nodup

inductive Move
  | update (call : Call)
  | onSpikeExit (pid : Pid)
  | recordVictimFrozen (v : SpikeVictim)
  | drainOrphanedVictims
  | drainTimedOutVictims (gap : Duration) (maxSecs : Nat)
  | releaseRequested (gap : Duration) (pids : List Pid)

/-- The decision throttles the spike of the process, or lifts its throttle. -/
def concerns (pid : Pid) : SpikeDecision → Bool
  | .throttleSpike p _ => decide (p = pid)
  | .restoreThrottle p _ => decide (p = pid)
  | .freezeForHeadroom _ => false
  | .releaseVictims _ => false

/-- The record of a spike. -/
structure Life where
  decisions : List SpikeDecision
  paths : List (Option String)

structure Watch where
  tracker : SpikeTracker
  clock : Instant
  life : Pid → Life

namespace Watch

def start (clock : Instant) : Watch where
  tracker := SpikeTracker.new
  clock := clock
  life := fun _ => ⟨[], []⟩

/-- The tracker after an update, and the decisions. -/
def updated (w : Watch) (c : Call) : SpikeTracker × List SpikeDecision :=
  w.tracker.update c.procs c.available c.params (w.clock + c.gap) c.foregroundPid

def step (w : Watch) : Move → Watch
  | .update c =>
      { tracker := (w.updated c).1
        clock := w.clock + c.gap
        life := fun pid =>
          { decisions := (w.life pid).decisions ++ (w.updated c).2.filter (concerns pid)
            paths := (w.life pid).paths ++
              (((w.updated c).1.spikes.lookup pid).map SpikeState.cgroupPath).toList } }
  | .onSpikeExit pid =>
      { tracker := (w.tracker.onSpikeExit pid).1
        clock := w.clock
        life := fun other => if other = pid then ⟨[], []⟩ else w.life other }
  | .recordVictimFrozen v => { w with tracker := w.tracker.recordVictimFrozen v }
  | .drainOrphanedVictims => { w with tracker := w.tracker.drainOrphanedVictims.1 }
  | .drainTimedOutVictims gap maxSecs =>
      { w with
        tracker := (w.tracker.drainTimedOutVictims (w.clock + gap) maxSecs).1
        clock := w.clock + gap }
  | .releaseRequested gap pids =>
      { w with
        tracker := (w.tracker.releaseRequested (w.clock + gap) pids).1
        clock := w.clock + gap }

end Watch

/-! ## The invariants -/

/-- An entry of `spikes`, under its key. -/
structure Sound (pid : Pid) (s : SpikeState) : Prop where
  key : s.pid = pid
  tracking : s.phase = .tracking → s.hasPeaked = true ∧ s.hasOscillated = true
  observing : s.phase = .observing → s.cpuThrottled = false ∧ s.idleTicks = 0
  ordered : s.samples.Pairwise fun a b => a.takenAt ≤ b.takenAt
  attained : s.samples ≠ [] → ∃ x ∈ s.samples, x.rss = s.rssMax
  highest : ∀ x ∈ s.samples, x.rss.val ≤ s.rssMax.val

def AllSound (w : Watch) : Prop :=
  ∀ pid s, w.tracker.spikes.lookup pid = some s → Sound pid s

/-- Every count of idle ticks is below `n`. -/
def IdleBelow (n : Nat) (w : Watch) : Prop :=
  ∀ pid s, w.tracker.spikes.lookup pid = some s → s.idleTicks < n

/-- Updates require `n` idle ticks. -/
def Move.Requires (n : Nat) : Move → Prop
  | .update c => c.params.idleTicksRequired = n
  | _ => True

/-- The first decision throttles the spike in its cgroup, the next one restores
it, and so on. -/
def Alternates (pid : Pid) (path : Option String) (decisions : List SpikeDecision) : Prop :=
  ∀ i d, decisions[i]? = some d → ∃ cg, path = some cg ∧
    d = if i % 2 = 0 then .throttleSpike pid cg else .restoreThrottle pid cg

/-- The decisions about a spike alternate as long as its path has not changed. -/
def AllAlternate (w : Watch) : Prop :=
  ∀ pid path, (∀ p ∈ (w.life pid).paths, p = path) → Alternates pid path (w.life pid).decisions

/-! ## One spike -/

section One

variable {p : Params} {now : Instant} {rssD : Map Pid Kb} {proc : Process} {pid : Pid}
  {s : SpikeState}

/-- A sound entry with no sample from the future. -/
structure Kept (clock : Instant) (pid : Pid) (s : SpikeState) : Prop where
  sound : Sound pid s
  past : ∀ x ∈ s.samples, x.takenAt ≤ clock

theorem Kept.mono {clock clock' : Instant} (h : Kept clock pid s) (hLater : clock ≤ clock') :
    Kept clock' pid s :=
  ⟨h.sound, fun x hx => le_trans (h.past x hx) hLater⟩

theorem kept_new (clock : Instant) (name : String) (baseline : Kb) (path : Option String)
    (forced : Bool) : Kept clock pid (SpikeState.new pid name baseline path forced) := by
  refine ⟨⟨rfl, ?_, ?_, List.Pairwise.nil, ?_, ?_⟩, ?_⟩
  · intro hTracking
    cases hTracking
  · exact fun _ => ⟨rfl, rfl⟩
  · exact fun hSome => absurd rfl hSome
  · exact fun x hx => absurd hx List.not_mem_nil
  · exact fun x hx => absurd hx List.not_mem_nil

variable (p proc) in
/-- A new sample at the end, and the old ones gone. -/
theorem kept_sample (h : Kept now pid s) : Kept now pid (sample p now proc s) := by
  have hSublist : (sample p now proc s).samples.Sublist
      (s.samples ++ [⟨proc.rssKb, now⟩]) := List.dropWhile_sublist _
  have hOrdered : List.Pairwise (fun a b : RssSample => a.takenAt ≤ b.takenAt)
      (s.samples ++ [⟨proc.rssKb, now⟩]) := by
    refine List.pairwise_append.mpr ⟨h.sound.ordered, List.pairwise_singleton _ _, ?_⟩
    intro a ha b hb
    rw [List.mem_singleton.mp hb]
    exact h.past a ha
  refine ⟨⟨h.sound.key, h.sound.tracking, h.sound.observing, hOrdered.sublist hSublist, ?_,
    fun x hx => le_windowMax hx _⟩, ?_⟩
  · intro hSome
    show ∃ x ∈ (sample p now proc s).samples,
      x.rss = windowMax (sample p now proc s).samples proc.rssKb
    cases hSamples : (sample p now proc s).samples with
    | nil => exact absurd hSamples hSome
    | cons x rest => exact windowMax_mem x rest proc.rssKb
  · intro x hx
    cases List.mem_append.mp (hSublist.mem hx) with
    | inl hBefore => exact h.past x hBefore
    | inr hNew =>
        rw [List.mem_singleton.mp hNew]

variable (p proc) in
/-- The flags are only ever raised. -/
theorem kept_classify (h : Kept now pid s) : Kept now pid (classify p proc s) := by
  refine ⟨⟨h.sound.key, ?_, h.sound.observing, h.sound.ordered, h.sound.attained,
    h.sound.highest⟩, h.past⟩
  intro hTracking
  obtain ⟨hPeaked, hOscillated⟩ := h.sound.tracking hTracking
  exact ⟨Bool.or_eq_true_iff.mpr (.inl hPeaked), Bool.or_eq_true_iff.mpr (.inl hOscillated)⟩

variable (rssD) in
/-- **Tracking keeps an entry sound**, whichever way it goes. -/
theorem kept_track (p : Params) (proc : Process) (h : Kept now pid s) :
    Kept now pid (track p now rssD proc s).1 := by
  have hSeen : Kept now pid (classify p proc (sample p now proc s)) :=
    kept_classify p proc (kept_sample p proc h)
  unfold track
  generalize classify p proc (sample p now proc s) = seen at *
  dsimp only
  split
  · next hPromoted =>
      refine ⟨⟨hSeen.sound.key, fun _ => ⟨hPromoted.2.1, hPromoted.2.2.1⟩, ?_,
        hSeen.sound.ordered, hSeen.sound.attained, hSeen.sound.highest⟩, hSeen.past⟩
      intro hObserving
      cases hObserving
  split
  · next hTracking =>
      -- a spike that stays in Tracking changes its count only
      have hCounted : ∀ ticks, Kept now pid { seen with idleTicks := ticks } := by
        intro ticks
        refine ⟨⟨hSeen.sound.key, hSeen.sound.tracking, ?_, hSeen.sound.ordered,
          hSeen.sound.attained, hSeen.sound.highest⟩, hSeen.past⟩
        intro hObserving
        rw [show seen.phase = .observing from hObserving] at hTracking
        cases hTracking
      split
      · split
        · refine ⟨⟨hSeen.sound.key, ?_, fun _ => ⟨rfl, rfl⟩, List.Pairwise.nil, ?_, ?_⟩, ?_⟩
          · intro hTracking
            cases hTracking
          · exact fun hSome => absurd rfl hSome
          · exact fun x hx => absurd hx List.not_mem_nil
          · exact fun x hx => absurd hx List.not_mem_nil
        · exact hCounted _
      · exact hCounted _
  · exact hSeen

variable (now rssD) in
theorem idleTicks_track {n : Nat} (hSome : 1 ≤ n) (hRequired : p.idleTicksRequired = n)
    (proc : Process) (h : s.idleTicks < n) : (track p now rssD proc s).1.idleTicks < n := by
  have hSeen : (classify p proc (sample p now proc s)).idleTicks < n := h
  unfold track
  generalize classify p proc (sample p now proc s) = seen at *
  dsimp only
  split
  · exact hSome
  split
  · split
    · split
      · exact hSome
      · next hFew =>
          rw [hRequired] at hFew
          exact Nat.lt_of_not_le hFew
    · exact hSome
  · exact hSeen

end One

/-! ## The loops -/

section Loops

variable {p : Params} {now : Instant} {rssD : Map Pid Kb} {prevRss : Map Pid Kb}
  {majfltD : Map Pid Nat} {procs : List Process} {spikes : Map Pid SpikeState} {pid : Pid}
  {P : SpikeState → Prop}

/-- What a fresh entry has, and the old ones have, they have after the registration. -/
theorem foldl_register_keeps
    (hNew : ∀ proc ∈ procs, proc.pid = pid → ∀ baseline forced,
      P (SpikeState.new proc.pid proc.name baseline proc.cgroupPath forced))
    (h : ∀ s, spikes.lookup pid = some s → P s) :
    ∀ s, (procs.foldl (register p prevRss rssD majfltD) spikes).lookup pid = some s → P s := by
  induction procs generalizing spikes with
  | nil => exact h
  | cons proc rest ih =>
      rw [List.foldl_cons]
      apply ih fun other hOther => hNew other (List.mem_cons_of_mem proc hOther)
      intro s hs
      obtain hSame | ⟨-, baseline, forced, hInsert⟩ :=
        register_cases p prevRss rssD majfltD spikes proc
      · rw [hSame] at hs
        exact h s hs
      · rw [hInsert, lookup_insert_eq] at hs
        split at hs
        · next hHere =>
            cases hs
            exact hNew proc List.mem_cons_self hHere.symm baseline forced
        · exact h s hs

/-- What does not depend on the flag of a Tracking spike outlives the CPU check. -/
theorem checkCpuAll_keeps (foregroundPid : Option Pid) (procs : List Process)
    (hFlag : ∀ s flag, s.phase = .tracking → P s → P { s with cpuThrottled := flag })
    (h : ∀ s, spikes.lookup pid = some s → P s) :
    ∀ s, (checkCpuAll p foregroundPid procs spikes).1.lookup pid = some s → P s := by
  induction procs generalizing spikes with
  | nil => exact h
  | cons proc rest ih =>
      unfold checkCpuAll
      apply ih
      intro s hs
      obtain hNone | ⟨state, cg, hState, hPhase, -, -, ⟨-, -, hOne⟩ | ⟨-, -, hOne⟩⟩ :=
        checkCpu_cases p foregroundPid proc spikes
      · rw [hNone] at hs
        exact h s hs
      all_goals
        rw [hOne, lookup_insert_eq] at hs
        split at hs
        · next hHere =>
            cases hs
            rw [← hHere] at hState
            exact hFlag state _ hPhase (h state hState)
        · exact h s hs

/-- **What every part of an update keeps of the entry of a process, the update keeps.** -/
theorem update_keeps {t : SpikeTracker} (available : Kb) (foregroundPid : Option Pid)
    (hNew : ∀ proc ∈ procs, proc.pid = pid → ∀ baseline forced,
      P (SpikeState.new proc.pid proc.name baseline proc.cgroupPath forced))
    (hTrack : ∀ rssD, ∀ proc ∈ procs, proc.pid = pid → ∀ s, P s → P (track p now rssD proc s).1)
    (hFlag : ∀ s flag, s.phase = .tracking → P s → P { s with cpuThrottled := flag })
    (h : ∀ s, t.spikes.lookup pid = some s → P s) :
    ∀ s, (t.update procs available p now foregroundPid).1.spikes.lookup pid = some s → P s := by
  rw [update_fst]
  apply checkCpuAll_keeps foregroundPid procs hFlag
  rw [drained_spikes]
  exact trackAll_keeps (hTrack _) (foldl_register_keeps hNew h)

end Loops

/-! ## The decisions about one spike -/

section Decisions

variable {pid : Pid} {path : Option String} {ds : List SpikeDecision}
  {spikes : Map Pid SpikeState}

theorem alternates_nil : Alternates pid path [] := by
  intro i d hGet
  cases hGet

/-- The next decision is the one that is due. -/
theorem Alternates.concat {cg : String} (h : Alternates pid path ds) (hPath : path = some cg) :
    Alternates pid path
      (ds ++ [if ds.length % 2 = 0 then .throttleSpike pid cg else .restoreThrottle pid cg]) := by
  intro i d hGet
  by_cases hBefore : i < ds.length
  · rw [List.getElem?_append_left hBefore] at hGet
    exact h i d hGet
  · rw [List.getElem?_append_right (Nat.le_of_not_lt hBefore)] at hGet
    have hLast : i - ds.length = 0 := by
      have hIndex := (List.getElem?_eq_some_iff.mp hGet).1
      rw [List.length_singleton] at hIndex
      omega
    have hIndex : i = ds.length := by omega
    rw [hLast] at hGet
    cases hGet
    exact ⟨cg, hPath, by rw [hIndex]⟩

/-- A spike about which something was decided has a cgroup. -/
theorem Alternates.path_some (h : Alternates pid path ds) (hSome : ds ≠ []) :
    ∃ cg, path = some cg := by
  cases ds with
  | nil => exact absurd rfl hSome
  | cons d rest =>
      obtain ⟨cg, hPath, -⟩ := h 0 d rfl
      exact ⟨cg, hPath⟩

/-- The flag says which decision is due. -/
structure Told (pid : Pid) (path : Option String) (ds : List SpikeDecision)
    (spikes : Map Pid SpikeState) : Prop where
  alternates : Alternates pid path ds
  flag : ∀ s, spikes.lookup pid = some s → (s.cpuThrottled = true ↔ ds.length % 2 = 1)
  absent : spikes.lookup pid = none → ds = []

theorem Told.congr {spikes' : Map Pid SpikeState} (h : Told pid path ds spikes)
    (hSame : (spikes'.lookup pid).map SpikeState.cpuThrottled =
      (spikes.lookup pid).map SpikeState.cpuThrottled) : Told pid path ds spikes' := by
  refine ⟨h.alternates, ?_, ?_⟩
  · intro s hs
    rw [hs] at hSame
    obtain ⟨before, hBefore, hFlag⟩ := Option.map_eq_some_iff.mp hSame.symm
    rw [← hFlag]
    exact h.flag before hBefore
  · intro hNone
    rw [hNone] at hSame
    exact h.absent (Option.map_eq_none_iff.mp hSame.symm)

theorem Told.insert_other {other : Pid} {s : SpikeState} (h : Told pid path ds spikes)
    (hOther : pid ≠ other) : Told pid path ds (spikes.insert other s) := by
  apply h.congr
  rw [lookup_insert_eq, if_neg hOther]

/-- A fresh spike is not throttled, and nothing was decided about it. -/
theorem told_register {p : Params} {prevRss rssD : Map Pid Kb} {majfltD : Map Pid Nat}
    (procs : List Process) (h : Told pid path ds spikes) :
    Told pid path ds (procs.foldl (register p prevRss rssD majfltD) spikes) := by
  induction procs generalizing spikes with
  | nil => exact h
  | cons proc rest ih =>
      rw [List.foldl_cons]
      apply ih
      obtain hSame | ⟨hVacant, baseline, forced, hInsert⟩ :=
        register_cases p prevRss rssD majfltD spikes proc
      · rw [hSame]
        exact h
      · rw [hInsert]
        by_cases hHere : pid = proc.pid
        · rw [← hHere] at hVacant ⊢
          have hNothing := h.absent hVacant
          refine ⟨h.alternates, ?_, fun _ => hNothing⟩
          intro s hs
          rw [lookup_insert_eq, if_pos rfl] at hs
          cases hs
          rw [hNothing]
          exact iff_of_false Bool.false_ne_true (by decide)
        · exact h.insert_other hHere

/-- What is decided about one spike is decided under its PID. -/
theorem concerns_iff {q : Pid} {cg : String} {d : SpikeDecision}
    (h : d = .throttleSpike q cg ∨ d = .restoreThrottle q cg) :
    concerns pid d = true ↔ q = pid := by
  rcases h with rfl | rfl
  all_goals exact decide_eq_true_iff

theorem filter_concerns_self {cg : String} {d : SpikeDecision}
    (h : d = .throttleSpike pid cg ∨ d = .restoreThrottle pid cg) :
    [d].filter (concerns pid) = [d] :=
  List.filter_cons_of_pos ((concerns_iff h).mpr rfl)

theorem filter_concerns_other {q : Pid} {cg : String} {d : SpikeDecision}
    (h : d = .throttleSpike q cg ∨ d = .restoreThrottle q cg) (hOther : q ≠ pid) :
    [d].filter (concerns pid) = [] :=
  List.filter_cons_of_neg fun hConcerns => hOther ((concerns_iff h).mp hConcerns)

/-- What tells the flag of the spike apart from its decisions: with an odd number
of them it is throttled, and the next one restores it. -/
theorem Told.insert_own {d : List SpikeDecision} {s : SpikeState}
    (hAlternates : Alternates pid path (ds ++ d))
    (hFlag : s.cpuThrottled = true ↔ (ds ++ d).length % 2 = 1) :
    Told pid path (ds ++ d) (spikes.insert pid s) := by
  refine ⟨hAlternates, ?_, ?_⟩
  · intro s' hs
    rw [AList.lookup_insert] at hs
    cases hs
    exact hFlag
  · intro hNone
    rw [AList.lookup_insert] at hNone
    cases hNone

/-- A demoted spike is restored exactly if it was throttled. -/
theorem told_demotion {seen after : SpikeState} (hAlternates : Alternates pid path ds)
    (hFlag : seen.cpuThrottled = true ↔ ds.length % 2 = 1) (hKey : seen.pid = pid)
    (hPath : seen.cgroupPath = path) (hAfter : after.cpuThrottled = false) :
    Told pid path (ds ++ (demotionDecisions seen).filter (concerns pid))
      (spikes.insert pid after) := by
  unfold demotionDecisions
  by_cases hThrottled : seen.cpuThrottled = true
  · have hOdd := hFlag.mp hThrottled
    have hSome : ds ≠ [] := by
      rintro rfl
      cases hOdd
    obtain ⟨cg, hCgroup⟩ := hAlternates.path_some hSome
    have hDue := hAlternates.concat hCgroup
    rw [if_neg (by omega)] at hDue
    rw [if_pos hThrottled, hPath, hCgroup, hKey]
    dsimp only
    rw [← hCgroup, filter_concerns_self (.inr rfl)]
    apply Told.insert_own hDue
    rw [hAfter, List.length_append, List.length_singleton]
    exact iff_of_false Bool.false_ne_true (by omega)
  · rw [if_neg hThrottled, List.filter_nil]
    apply Told.insert_own
    · rw [List.append_nil]
      exact hAlternates
    · rw [hAfter, List.append_nil]
      exact iff_of_false Bool.false_ne_true fun hOdd => hThrottled (hFlag.mpr hOdd)

/-- One row of the process list. -/
theorem told_track (p : Params) (now : Instant) (rssD : Map Pid Kb) {proc : Process}
    {state : SpikeState} (h : Told pid path ds spikes)
    (hState : spikes.lookup proc.pid = some state) (hKey : state.pid = proc.pid)
    (hPath : proc.pid = pid → proc.cgroupPath = path) :
    Told pid path (ds ++ (track p now rssD proc state).2.1.filter (concerns pid))
      (spikes.insert proc.pid (track p now rssD proc state).1) := by
  obtain ⟨-, ⟨hFlag, -, hNothing⟩ | ⟨hFlag, hDemoted⟩⟩ := track_cases p now rssD proc state
  · rw [hNothing, List.filter_nil, List.append_nil]
    apply h.congr
    rw [lookup_insert_eq]
    split
    · next hHere =>
        rw [hHere, hState, Option.map_some, Option.map_some, hFlag]
    · rfl
  · rw [hDemoted]
    by_cases hHere : proc.pid = pid
    · rw [hHere] at hState hKey ⊢
      exact told_demotion h.alternates (h.flag state hState) hKey (hPath hHere) hFlag
    · have hNothing : (demotionDecisions { state with cgroupPath := proc.cgroupPath }).filter
          (concerns pid) = [] := by
        obtain hNone | ⟨cg, hRestore, -⟩ :=
          demotionDecisions_cases { state with cgroupPath := proc.cgroupPath }
        · rw [hNone, List.filter_nil]
        · rw [hRestore]
          exact filter_concerns_other (.inr rfl) fun hEq => hHere (hKey.symm.trans hEq)
      rw [hNothing, List.append_nil]
      exact h.insert_other fun hEq => hHere hEq.symm

/-- Every entry has the PID it is filed under. -/
def Keyed (spikes : Map Pid SpikeState) : Prop :=
  ∀ pid s, spikes.lookup pid = some s → s.pid = pid

theorem track_pid (p : Params) (now : Instant) (rssD : Map Pid Kb) (proc : Process)
    (s : SpikeState) : (track p now rssD proc s).1.pid = s.pid := by
  unfold track
  dsimp only
  split
  · rfl
  split
  · split
    · split
      · rfl
      · rfl
    · rfl
  · rfl

theorem Keyed.insert {other : Pid} {s : SpikeState} (h : Keyed spikes) (hKey : s.pid = other) :
    Keyed (spikes.insert other s) := by
  intro q s' hs
  rw [lookup_insert_eq] at hs
  split at hs
  · next hHere =>
      cases hs
      rw [hHere]
      exact hKey
  · exact h q s' hs

/-- The loop of step 2. -/
theorem told_trackAll (p : Params) (now : Instant) (rssD : Map Pid Kb) {procs : List Process}
    (h : Told pid path ds spikes) (hKeyed : Keyed spikes)
    (hPath : (spikes.lookup pid).isSome = true →
      ∀ proc ∈ procs, proc.pid = pid → proc.cgroupPath = path) :
    Told pid path (ds ++ (trackAll p now rssD procs spikes).2.1.filter (concerns pid))
      (trackAll p now rssD procs spikes).1 := by
  induction procs generalizing spikes ds with
  | nil =>
      rw [show (trackAll p now rssD [] spikes).2.1 = [] from rfl, List.filter_nil, List.append_nil]
      exact h
  | cons proc rest ih =>
      unfold trackAll
      cases hState : spikes.lookup proc.pid with
      | none =>
          exact ih h hKeyed fun hSome other hOther =>
            hPath hSome other (List.mem_cons_of_mem proc hOther)
      | some state =>
          have hKey := hKeyed proc.pid state hState
          have hHere := told_track p now rssD h hState hKey
            fun hPid => hPath (by rw [← hPid, hState]; rfl) proc List.mem_cons_self hPid
          have hRest := ih hHere (hKeyed.insert ((track_pid p now rssD proc state).trans hKey))
            (by
              intro hSome other hOther
              apply hPath ?_ other (List.mem_cons_of_mem proc hOther)
              rw [lookup_insert_eq] at hSome
              split at hSome
              · next hPid =>
                  rw [hPid, hState]
                  rfl
              · exact hSome)
          show Told pid path
            (ds ++ ((track p now rssD proc state).2.1 ++ _).filter (concerns pid)) _
          rw [List.filter_append, ← List.append_assoc]
          exact hRest

/-- The CPU check of one row. -/
theorem told_checkCpu (p : Params) (foregroundPid : Option Pid) (proc : Process)
    (h : Told pid path ds spikes)
    (hPath : ∀ s, spikes.lookup pid = some s → s.cgroupPath = path) :
    Told pid path (ds ++ (checkCpu p foregroundPid proc spikes).2.filter (concerns pid))
      (checkCpu p foregroundPid proc spikes).1 := by
  obtain hNone | ⟨state, cg, hState, -, -, hCgroup, ⟨-, hFlag, hOne⟩ | ⟨-, hFlag, hOne⟩⟩ :=
    checkCpu_cases p foregroundPid proc spikes
  · rw [hNone, List.filter_nil, List.append_nil]
    exact h
  · rw [hOne]
    by_cases hHere : proc.pid = pid
    · rw [hHere] at hState ⊢
      have hEven : ds.length % 2 = 0 := by
        have hOdd := h.flag state hState
        rw [hFlag] at hOdd
        have hNot : ¬ ds.length % 2 = 1 := fun hOne => Bool.false_ne_true (hOdd.mpr hOne)
        omega
      have hDue := h.alternates.concat ((hPath state hState).symm.trans hCgroup)
      rw [if_pos hEven] at hDue
      rw [filter_concerns_self (.inl rfl)]
      apply Told.insert_own hDue
      rw [List.length_append, List.length_singleton]
      exact iff_of_true rfl (by omega)
    · rw [filter_concerns_other (.inl rfl) hHere, List.append_nil]
      exact h.insert_other fun hEq => hHere hEq.symm
  · rw [hOne]
    by_cases hHere : proc.pid = pid
    · rw [hHere] at hState ⊢
      have hOdd : ds.length % 2 = 1 := (h.flag state hState).mp hFlag
      have hDue := h.alternates.concat ((hPath state hState).symm.trans hCgroup)
      rw [if_neg (by omega)] at hDue
      rw [filter_concerns_self (.inr rfl)]
      apply Told.insert_own hDue
      rw [List.length_append, List.length_singleton]
      exact iff_of_false Bool.false_ne_true (by omega)
    · rw [filter_concerns_other (.inr rfl) hHere, List.append_nil]
      exact h.insert_other fun hEq => hHere hEq.symm

/-- The CPU check of the list. -/
theorem told_checkCpuAll (p : Params) (foregroundPid : Option Pid) (procs : List Process)
    (h : Told pid path ds spikes)
    (hPath : ∀ s, spikes.lookup pid = some s → s.cgroupPath = path) :
    Told pid path (ds ++ (checkCpuAll p foregroundPid procs spikes).2.filter (concerns pid))
      (checkCpuAll p foregroundPid procs spikes).1 := by
  induction procs generalizing spikes ds with
  | nil =>
      rw [show (checkCpuAll p foregroundPid [] spikes).2 = [] from rfl, List.filter_nil,
        List.append_nil]
      exact h
  | cons proc rest ih =>
      have hKept : ∀ s, (checkCpu p foregroundPid proc spikes).1.lookup pid = some s →
          s.cgroupPath = path :=
        checkCpuAll_keeps foregroundPid [proc] (fun _ _ _ hSame => hSame) hPath
      have hRest := ih (told_checkCpu p foregroundPid proc h hPath) hKept
      unfold checkCpuAll
      rw [List.filter_append, ← List.append_assoc]
      exact hRest

end Decisions

/-! ## One update -/

section Update

variable {p : Params} {now : Instant} {procs : List Process} {pid : Pid} {t : SpikeTracker}
  {available : Kb} {foregroundPid : Option Pid}

variable (p now procs) in
/-- No entry is lost in the loop. -/
theorem trackAll_present (rssD : Map Pid Kb) {spikes : Map Pid SpikeState}
    (h : (spikes.lookup pid).isSome = true) :
    ((trackAll p now rssD procs spikes).1.lookup pid).isSome = true := by
  induction procs generalizing spikes with
  | nil => exact h
  | cons proc rest ih =>
      unfold trackAll
      cases spikes.lookup proc.pid with
      | none => exact ih h
      | some state =>
          apply ih
          rw [lookup_insert_eq]
          split
          · rfl
          · exact h

/-- The entry of a listed process has the path of its row. -/
theorem path_of_listed (hDistinct : (procs.map Process.pid).Nodup) {proc : Process}
    (hProc : proc ∈ procs) {s : SpikeState}
    (h : (tracked t procs p now).1.lookup proc.pid = some s) :
    s.cgroupPath = proc.cgroupPath := by
  have hMakes : ∀ other ∈ procs, other.pid = proc.pid → ∀ before,
      (track p now (rssDeltas t.prevRss procs) other before).1.cgroupPath = proc.cgroupPath := by
    intro other hOther hPid before
    rw [List.inj_on_of_nodup_map hDistinct hOther hProc hPid]
    exact (track_cases p now _ proc before).1
  exact trackAll_makes (P := fun s => s.cgroupPath = proc.cgroupPath)
    (List.mem_map_of_mem hProc) hMakes s h

theorem update_snd : (t.update procs available p now foregroundPid).2 =
    (tracked t procs p now).2.1 ++
      (if (drained t procs p now).2.isEmpty then []
        else [SpikeDecision.releaseVictims (drained t procs p now).2]) ++
      headroomDecisions p available (drained t procs p now).1.spikes ++
      (checkCpuAll p foregroundPid procs (drained t procs p now).1.spikes).2 := rfl

/-- Releases and headroom do not concern a throttle. -/
theorem concerns_update : (t.update procs available p now foregroundPid).2.filter (concerns pid) =
    (tracked t procs p now).2.1.filter (concerns pid) ++
      (checkCpuAll p foregroundPid procs (tracked t procs p now).1).2.filter (concerns pid) := by
  have hReleases : (if (drained t procs p now).2.isEmpty then []
      else [SpikeDecision.releaseVictims (drained t procs p now).2]).filter
        (concerns pid) = [] := by
    split
    · rfl
    · rfl
  have hHeadroom : (headroomDecisions p available (drained t procs p now).1.spikes).filter
      (concerns pid) = [] := by
    obtain hNone | ⟨needed, hOne⟩ :=
      headroomDecisions_cases p available (drained t procs p now).1.spikes
    · rw [hNone]
      rfl
    · rw [hOne]
      rfl
  rw [update_snd, List.filter_append, List.filter_append, List.filter_append, hReleases, hHeadroom,
    drained_spikes, List.append_nil, List.append_nil]

/-- **One update**: as long as the path of the spike is the same, its decisions go
on alternating. -/
theorem told_update {path : Option String} {ds : List SpikeDecision}
    (hDistinct : (procs.map Process.pid).Nodup) (hKeyed : Keyed t.spikes)
    (h : Told pid path ds t.spikes)
    (hPath : ∀ s, (t.update procs available p now foregroundPid).1.spikes.lookup pid = some s →
      s.cgroupPath = path) :
    Told pid path
      (ds ++ (t.update procs available p now foregroundPid).2.filter (concerns pid))
      (t.update procs available p now foregroundPid).1.spikes := by
  have hTrackedPath : ∀ s, (tracked t procs p now).1.lookup pid = some s → s.cgroupPath = path := by
    intro s hs
    have hUnflagged := checkCpuAll_unflagged p foregroundPid procs (tracked t procs p now).1 pid
    rw [hs] at hUnflagged
    obtain ⟨after, hAfter, hSame⟩ := Option.map_eq_some_iff.mp hUnflagged
    have hEq : after.unflagged.cgroupPath = s.unflagged.cgroupPath :=
      congrArg SpikeState.cgroupPath hSame
    refine hEq.symm.trans (hPath after ?_)
    rw [update_fst, drained_spikes]
    exact hAfter
  have hRows : ((procs.foldl (register p t.prevRss (rssDeltas t.prevRss procs)
      (majfltDeltas t.prevMajflt procs)) t.spikes).lookup pid).isSome = true →
      ∀ proc ∈ procs, proc.pid = pid → proc.cgroupPath = path := by
    rintro hSome proc hProc rfl
    obtain ⟨s, hs⟩ := Option.isSome_iff_exists.mp (trackAll_present p now procs _ hSome)
    exact (path_of_listed hDistinct hProc hs).symm.trans (hTrackedPath s hs)
  have hRegisteredKeyed : Keyed (procs.foldl (register p t.prevRss (rssDeltas t.prevRss procs)
      (majfltDeltas t.prevMajflt procs)) t.spikes) := fun q =>
    foldl_register_keeps (fun _ _ hPid _ _ => hPid) (hKeyed q)
  have hTracked := told_trackAll p now (rssDeltas t.prevRss procs) (told_register procs h)
    hRegisteredKeyed hRows
  have hChecked := told_checkCpuAll p foregroundPid procs hTracked hTrackedPath
  rw [concerns_update, update_fst, drained_spikes, ← List.append_assoc]
  exact hChecked

end Update

/-! ## The run -/

/-- What holds between two calls. -/
structure Inv (w : Watch) : Prop where
  kept : ∀ pid s, w.tracker.spikes.lookup pid = some s → Kept w.clock pid s
  told : ∀ pid path, (∀ p ∈ (w.life pid).paths, p = path) →
    Told pid path (w.life pid).decisions w.tracker.spikes

theorem inv_start (clock : Instant) : Inv (Watch.start clock) where
  kept := fun _ _ hs => nomatch hs
  told := fun _ _ _ =>
    { alternates := alternates_nil
      flag := fun _ hs => nomatch hs
      absent := fun _ => rfl }

theorem Inv.keyed {w : Watch} (h : Inv w) : Keyed w.tracker.spikes :=
  fun pid s hs => (h.kept pid s hs).sound.key

theorem kept_update {w : Watch} (h : Inv w) (c : Call) (pid : Pid) :
    ∀ s, (w.step (.update c)).tracker.spikes.lookup pid = some s →
      Kept (w.clock + c.gap) pid s := by
  have hNew : ∀ proc ∈ c.procs, proc.pid = pid → ∀ baseline forced, Kept (w.clock + c.gap) pid
      (SpikeState.new proc.pid proc.name baseline proc.cgroupPath forced) := by
    rintro proc - rfl baseline forced
    exact kept_new _ _ _ _ _
  have hTrack : ∀ rssD, ∀ proc ∈ c.procs, proc.pid = pid → ∀ s, Kept (w.clock + c.gap) pid s →
      Kept (w.clock + c.gap) pid (track c.params (w.clock + c.gap) rssD proc s).1 :=
    fun rssD proc _ _ s hKept => kept_track rssD c.params proc hKept
  have hFlag : ∀ s flag, s.phase = .tracking → Kept (w.clock + c.gap) pid s →
      Kept (w.clock + c.gap) pid { s with cpuThrottled := flag } := by
    intro s flag hTracking hKept
    refine ⟨⟨hKept.sound.key, hKept.sound.tracking, ?_, hKept.sound.ordered,
      hKept.sound.attained, hKept.sound.highest⟩, hKept.past⟩
    intro hObserving
    rw [show s.phase = .observing from hObserving] at hTracking
    cases hTracking
  exact update_keeps c.available c.foregroundPid hNew hTrack hFlag fun s hs =>
    (h.kept pid s hs).mono (Nat.le_add_right _ _)

theorem inv_update {w : Watch} (h : Inv w) (c : Call) : Inv (w.step (.update c)) := by
  refine ⟨kept_update h c, ?_⟩
  intro pid path hPaths
  have hBefore : Told pid path (w.life pid).decisions w.tracker.spikes :=
    h.told pid path fun q hq => hPaths q (List.mem_append_left _ hq)
  apply told_update c.distinct h.keyed hBefore
  intro s hs
  apply hPaths s.cgroupPath
  apply List.mem_append_right
  rw [Option.mem_toList]
  exact Option.mem_map_of_mem _ hs

/-- The calls about victims touch no spike. -/
theorem step_cases (w : Watch) (m : Move) :
    (∃ c, m = .update c) ∨ (∃ pid, m = .onSpikeExit pid) ∨
      ((w.step m).tracker.spikes = w.tracker.spikes ∧ (w.step m).life = w.life ∧
        w.clock ≤ (w.step m).clock) := by
  cases m with
  | update c => exact .inl ⟨c, rfl⟩
  | onSpikeExit pid => exact .inr (.inl ⟨pid, rfl⟩)
  | recordVictimFrozen v => exact .inr (.inr ⟨rfl, rfl, Nat.le_refl _⟩)
  | drainOrphanedVictims =>
      exact .inr (.inr ⟨drainOrphanedVictims_spikes w.tracker, rfl, Nat.le_refl _⟩)
  | drainTimedOutVictims gap maxSecs =>
      exact .inr (.inr ⟨drainTimedOutVictims_spikes w.tracker (w.clock + gap) maxSecs, rfl,
        Nat.le_add_right _ _⟩)
  | releaseRequested gap pids =>
      exact .inr (.inr ⟨releaseRequested_spikes w.tracker (w.clock + gap) pids, rfl,
        Nat.le_add_right _ _⟩)

theorem lookup_exit (w : Watch) (gone pid : Pid) :
    (w.step (.onSpikeExit gone)).tracker.spikes.lookup pid =
      if pid = gone then none else w.tracker.spikes.lookup pid := by
  show (w.tracker.onSpikeExit gone).1.spikes.lookup pid = _
  rw [onSpikeExit_spikes, lookup_erase_eq]

theorem inv_exit {w : Watch} (h : Inv w) (gone : Pid) : Inv (w.step (.onSpikeExit gone)) := by
  refine ⟨?_, ?_⟩
  · intro pid s hs
    rw [lookup_exit] at hs
    split at hs
    · cases hs
    · exact h.kept pid s hs
  · intro pid path hPaths
    show Told pid path (if pid = gone then ⟨[], []⟩ else w.life pid).decisions _
    change ∀ p ∈ (if pid = gone then ⟨[], []⟩ else w.life pid).paths, p = path at hPaths
    by_cases hGone : pid = gone
    · rw [if_pos hGone]
      refine ⟨alternates_nil, ?_, fun _ => rfl⟩
      intro s hs
      rw [lookup_exit, if_pos hGone] at hs
      cases hs
    · rw [if_neg hGone] at hPaths ⊢
      apply (h.told pid path hPaths).congr
      rw [lookup_exit, if_neg hGone]

theorem inv_step {w : Watch} (h : Inv w) (m : Move) : Inv (w.step m) := by
  obtain ⟨c, rfl⟩ | ⟨gone, rfl⟩ | ⟨hSpikes, hLife, hLater⟩ := step_cases w m
  · exact inv_update h c
  · exact inv_exit h gone
  · refine ⟨?_, ?_⟩
    · rw [hSpikes]
      exact fun pid s hs => (h.kept pid s hs).mono hLater
    · rw [hSpikes, hLife]
      exact h.told

theorem idleBelow_step {n : Nat} (hSome : 1 ≤ n) {w : Watch} (h : IdleBelow n w) {m : Move}
    (hRequired : m.Requires n) : IdleBelow n (w.step m) := by
  intro pid
  obtain ⟨c, rfl⟩ | ⟨gone, rfl⟩ | ⟨hSpikes, -, -⟩ := step_cases w m
  · exact update_keeps (P := fun s => s.idleTicks < n) c.available c.foregroundPid
      (fun _ _ _ _ _ => hSome)
      (fun rssD proc _ _ _ hFew => idleTicks_track (w.clock + c.gap) rssD hSome hRequired proc hFew)
      (fun _ _ _ hFew => hFew) (h pid)
  · intro s hs
    rw [lookup_exit] at hs
    split at hs
    · cases hs
    · exact h pid s hs
  · rw [hSpikes]
    exact h pid

/-- **The representation invariant**, in every state of every run. -/
theorem representation (clock : Instant) (moves : List Move) :
    Always Watch.step AllSound (Watch.start clock) moves ∧
      (∀ n, 1 ≤ n → (∀ m ∈ moves, m.Requires n) →
        Always Watch.step (IdleBelow n) (Watch.start clock) moves) ∧
      Always Watch.step AllAlternate (Watch.start clock) moves := by
  have hInv : Always Watch.step Inv (Watch.start clock) moves :=
    always_of_invariant (fun _ m h _ => inv_step h m) (inv_start clock) (everyStep_true _ moves)
  refine ⟨hInv.imp fun w h pid s hs => (h.kept pid s hs).sound, ?_,
    hInv.imp fun w h pid path hPaths => (h.told pid path hPaths).alternates⟩
  intro n hSome hRequired
  exact always_of_invariant (fun _ _ h hOk => idleBelow_step hSome h hOk)
    (fun _ _ hs => nomatch hs) (everyStep_of_forall_mem hRequired _)

end Mgd.SpikeInvariant
