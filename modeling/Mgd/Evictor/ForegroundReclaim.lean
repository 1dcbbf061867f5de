import Mgd.Evictor.IdleReclaim
import Mgd.Evictor.Spike

/-!
# Reclaim and the foreground

Four paths write `memory.reclaim`: the early reclaim, the idle reclaim, the push
after a freeze of `execute_plan`, and the push after a headroom freeze of spike
mode.  The first two and the last leave the process of the active window out by
its PID; the write acts on the whole cgroup.  The CPU throttle and the memory
caps compare cgroups (`find_foreground_cgroup`); these four do not.

## Main results

* `mem_written_iff` : what a path writes, from what it is given.
* `sparesForeground_iff` : a path spares the cgroup of the active window exactly
  when it selects no process in that cgroup.
* `early_hits_foreground` : a helper process of the window's own application.
-/

namespace Mgd.Evictor.ForegroundReclaim

open Mgd.Types Mgd.Monitor Mgd.Config Mgd.Lib.AssocMap Mgd.Lib.Greedy Mgd.Engine.Planner
open Mgd.Executor.Registry Mgd.SpikeMode Mgd.Evictor.Execute
open Mgd.Evictor.Spike hiding executeDecision
open Mgd.Evictor.Reclaim Mgd.Evictor.IdleReclaim

/-! ## The push after a freeze of the plan -/

section PostFreeze

variable {env : ExecEnv} {planProcs : List Process}

/-- The reclaims asked of the sink, in order. -/
def reclaimCalls (calls : List SinkCall) : List ReclaimWrite :=
  calls.filterMap fun call =>
    match call with
    | .reclaim cgroup bytes => some ⟨cgroup, bytes⟩
    | _ => none

/-- The decision freezes its process, from this state: it is not frozen yet,
the signal goes through, and the registry can record it. -/
def freezesFrom (env : ExecEnv) (s : ExecState) (d : Decision) : Prop :=
  d.action = .freeze ∧ (s.lockFrozen env).frozen.isFrozen d.pid = false ∧
    (env.sink.freeze s.calls d.pid).success = true ∧ (env.startTime d.pid).isSome = true

/-- The push of the frozen process: its whole RSS, in its cgroup. -/
def freezeAim (planProcs : List Process) (d : Decision) : Option ReclaimWrite :=
  (cgroupOf planProcs d.pid).map fun cgroup => ⟨cgroup, d.rss.bytes⟩

/-- Only a freeze that succeeded and was recorded is reported as such. -/
theorem freezeProcess_result (d : Decision) (s : ExecState) :
    (freezeProcess env d s).2 = "frozen" ↔
      (env.sink.freeze s.calls d.pid).success = true ∧ (env.startTime d.pid).isSome = true := by
  have hOther : ∀ front msg : String, front.toList.getD 1 'r' ≠ 'r' → front ++ msg ≠ "frozen" := by
    intro front msg hSecond hEq
    apply hSecond
    have hChars := congrArg String.toList hEq
    rw [String.toList_append] at hChars
    cases hFront : front.toList with
    | nil => rfl
    | cons c cs =>
        rw [hFront, List.cons_append] at hChars
        cases cs with
        | nil => rfl
        | cons c' cs' => exact (List.cons.inj (List.cons.inj hChars).2).1
  have hAborted : ∀ msg : String, "aborted: " ++ msg ≠ "frozen" :=
    fun msg => hOther _ msg (by decide +kernel)
  have hFail : ∀ msg : String, "fail: " ++ msg ≠ "frozen" :=
    fun msg => hOther _ msg (by decide +kernel)
  unfold freezeProcess
  dsimp only
  cases hFreeze : (env.sink.freeze s.calls d.pid).success with
  | false =>
      simp only [Bool.false_eq_true, if_false, false_and, iff_false]
      split
      · exact hAborted _
      · exact hFail _
  | true =>
      simp only [if_true, true_and, FrozenRegistry.add_success]
      cases (env.startTime d.pid).isSome with
      | false => simp
      | true => simp

theorem reclaimCalls_append (xs ys : List SinkCall) :
    reclaimCalls (xs ++ ys) = reclaimCalls xs ++ reclaimCalls ys := List.filterMap_append

/-- The action of a decision itself asks for no reclaim. -/
theorem reclaimCalls_executeDecision (d : Decision) (s : ExecState) :
    reclaimCalls (executeDecision env d s).1.calls = reclaimCalls s.calls := by
  have hCall : ∀ c : SinkCall, reclaimCalls [c] = [] →
      reclaimCalls (s.calls ++ [c]) = reclaimCalls s.calls := by
    intro c hc
    rw [reclaimCalls_append, hc, List.append_nil]
  have hTwo : ∀ c c' : SinkCall, reclaimCalls [c] = [] → reclaimCalls [c'] = [] →
      reclaimCalls (s.calls ++ [c] ++ [c']) = reclaimCalls s.calls := by
    intro c c' hc hc'
    rw [reclaimCalls_append, hc', List.append_nil, hCall c hc]
  unfold executeDecision
  cases d.action with
  | none => rfl
  | freeze =>
      simp only [freezeProcess]
      split
      · split
        · exact hCall _ rfl
        · exact hTwo _ _ rfl rfl
      · split <;> exact hCall _ rfl
  | checkpoint =>
      simp only [executeCheckpoint]
      split
      · exact hCall _ rfl
      · split
        · exact hTwo _ _ rfl rfl
        · split <;> exact hTwo _ _ rfl rfl
  | terminate => exact hCall _ rfl
  | kill =>
      simp only [killProcess]
      split <;> exact hCall _ rfl

theorem calls_trackTarget (d : Decision) (s : ExecState) :
    (trackTarget env planProcs d s).1.calls = s.calls := by
  unfold trackTarget
  split
  · split <;> rfl
  · rfl

theorem lockFrozen_calls (s : ExecState) : (s.lockFrozen env).calls = s.calls := rfl

/-- One decision asks for the reclaim of the process it freezes, or for none. -/
theorem reclaimCalls_afterDecision (d : Decision) (s : ExecState) (w : ReclaimWrite) :
    w ∈ reclaimCalls (afterDecision env planProcs s d).calls ↔
      w ∈ reclaimCalls s.calls ∨ freezesFrom env s d ∧ freezeAim planProcs d = some w := by
  unfold afterDecision freezesFrom
  dsimp only
  by_cases hFrozen : (s.lockFrozen env).frozen.isFrozen d.pid = true
  · rw [if_pos hFrozen]
    simp [hFrozen, lockFrozen_calls]
  · rw [if_neg hFrozen, calls_trackTarget]
    rw [Bool.not_eq_true] at hFrozen
    have hDone := @reclaimCalls_executeDecision env d (s.lockFrozen env)
    unfold perform reclaimFrozen
    dsimp only
    by_cases hAction : d.action = .freeze
    · have hResult : (executeDecision env d (s.lockFrozen env)).2 = "frozen" ↔
          (env.sink.freeze s.calls d.pid).success = true ∧
            (env.startTime d.pid).isSome = true := by
        unfold executeDecision
        rw [hAction]
        exact freezeProcess_result d (s.lockFrozen env)
      simp only [hAction, hFrozen, true_and, ← hResult]
      by_cases hDoneFrozen : (executeDecision env d (s.lockFrozen env)).2 = "frozen"
      · rw [if_pos hDoneFrozen]
        unfold freezeAim
        cases cgroupOf planProcs d.pid with
        | none =>
            rw [hDone, lockFrozen_calls]
            simp
        | some cgroup =>
            have hLast : reclaimCalls [.reclaim cgroup d.rss.bytes] =
                [⟨cgroup, d.rss.bytes⟩] := rfl
            simp only [ExecState.call, reclaimCalls_append, List.mem_append, hDone, hLast,
              lockFrozen_calls, List.mem_singleton, hDoneFrozen, true_and, Option.map_some,
              Option.some.injEq, eq_comm]
      · rw [if_neg hDoneFrozen, hDone, lockFrozen_calls]
        simp only [hDoneFrozen, false_and, or_false]
    · rw [if_neg (fun h => hAction h.1), hDone, lockFrozen_calls]
      simp only [hAction, false_and, or_false]

/-- What a plan asks to be reclaimed: the processes its decisions freeze, each
from the state the decisions before it left. -/
theorem mem_reclaimCalls_iff (ds : List Decision) (s : ExecState) (w : ReclaimWrite) :
    w ∈ reclaimCalls (executePlan env planProcs ds s).state.calls ↔
      w ∈ reclaimCalls s.calls ∨
        ∃ pre d post, ds = pre ++ d :: post ∧
          freezesFrom env (executePlan env planProcs pre s).state d ∧
          freezeAim planProcs d = some w := by
  simp only [executePlan_state]
  induction ds generalizing s with
  | nil => simp
  | cons d rest ih =>
      rw [List.foldl_cons, ih, reclaimCalls_afterDecision, or_assoc]
      apply or_congr_right
      constructor
      · intro h
        cases h with
        | inl hHere => exact ⟨[], d, rest, rfl, hHere⟩
        | inr hLater =>
            obtain ⟨pre, d', post, hEq, hAt⟩ := hLater
            exact ⟨d :: pre, d', post, congrArg (d :: ·) hEq, hAt⟩
      · intro h
        obtain ⟨pre, d', post, hEq, hAt⟩ := h
        cases pre with
        | nil =>
            obtain ⟨rfl, rfl⟩ := List.cons.inj hEq
            exact Or.inl hAt
        | cons d₀ pre =>
            obtain ⟨rfl, hRest⟩ := List.cons.inj hEq
            exact Or.inr ⟨pre, d', post, hRest, hAt⟩

end PostFreeze

/-! ## The push after a headroom freeze -/

section Headroom

variable {inp : SpikeInput}

/-- The start time of the candidate can be read and SIGSTOP goes through. -/
def freezable (inp : SpikeInput) (p : Process) : Bool :=
  match inp.startTime p.pid with
  | none => false
  | some st => (freezeChecked inp.kill inp.startTime p.pid st).success

/-- What a candidate takes off the headroom still needed. -/
def headroomGain (inp : SpikeInput) (p : Process) : Option Nat :=
  if freezable inp p then some p.rssKb.val else none

theorem headroomGain_isSome (p : Process) :
    (headroomGain inp p).isSome = freezable inp p := by
  unfold headroomGain
  cases freezable inp p <;> rfl

/-- The candidates that are frozen, in order. -/
def headroomFrozen (inp : SpikeInput) (needed : Kb) (procs : List Process) : List Process :=
  walk (headroomGain inp) (fun _ p => p) needed.val procs

/-- A candidate is frozen after the freezable ones ahead of it, when these do not
cover what is needed. -/
theorem headroomFrozen_split_iff {needed : Kb} {procs done : List Process} {p : Process} :
    (∃ left, headroomFrozen inp needed procs = done ++ p :: left) ↔
      ∃ pre post, procs = pre ++ p :: post ∧ done = pre.filter (freezable inp) ∧
        spent (headroomGain inp) pre < needed.val ∧ freezable inp p = true := by
  have hBudget : ∀ pre : List Process,
      0 < (needed.val : Int) - (spent (headroomGain inp) pre : Nat) ↔
        spent (headroomGain inp) pre < needed.val := by
    intro pre
    omega
  unfold headroomFrozen
  rw [walk_split_iff]
  simp only [headroomGain_isSome, hBudget]

/-- **Who is frozen.** -/
theorem mem_headroomFrozen_iff {needed : Kb} {procs : List Process} {p : Process} :
    p ∈ headroomFrozen inp needed procs ↔
      ∃ pre post, procs = pre ++ p :: post ∧ spent (headroomGain inp) pre < needed.val ∧
        freezable inp p = true := by
  rw [List.mem_iff_append]
  simp only [headroomFrozen_split_iff]
  constructor
  · intro h
    obtain ⟨done, pre, post, hSplit, -, hLeft, hFreezable⟩ := h
    exact ⟨pre, post, hSplit, hLeft, hFreezable⟩
  · intro h
    obtain ⟨pre, post, hSplit, hLeft, hFreezable⟩ := h
    exact ⟨_, pre, post, hSplit, rfl, hLeft, hFreezable⟩

/-- The victim recorded for a frozen candidate. -/
def recordFrozen (inp : SpikeInput) (spikePid : Pid) (t : SpikeTracker) (p : Process) :
    SpikeTracker :=
  t.recordVictimFrozen
    { pid := p.pid
      name := p.name
      startTime := (inp.startTime p.pid).getD 0
      frozenForSpikePid := spikePid
      frozenAt := inp.now }

/-- **The headroom freeze records exactly the candidates of `headroomFrozen`.** -/
theorem freezeForHeadroom_eq (spikePid : Pid) (needed : Kb) (procs : List Process)
    (t : SpikeTracker) :
    freezeForHeadroom inp spikePid needed procs t =
      (headroomFrozen inp needed procs).foldl (recordFrozen inp spikePid) t := by
  unfold headroomFrozen
  induction procs generalizing needed t with
  | nil => rfl
  | cons p rest ih =>
      by_cases hZero : needed.val = 0
      · have hSpent : ((needed.val : Nat) : Int) ≤ 0 := by omega
        rw [walk_of_nonpos hSpent]
        simp [freezeForHeadroom, hZero]
      · have hLeft : ¬ ((needed.val : Nat) : Int) ≤ 0 := by omega
        have hRest : walk (headroomGain inp) (fun _ p => p)
            ((needed.saturatingSub p.rssKb).val : Nat) rest =
              walk (headroomGain inp) (fun _ p => p) (needed.val - p.rssKb.val : Int) rest := by
          have hMax : needed.val ≤ u64Max := needed.le_max
          have hVal : (needed.saturatingSub p.rssKb).val = needed.val - p.rssKb.val := by
            simp only [Kb.saturatingSub, Kb.clamp]
            omega
          rw [hVal]
          by_cases hCovers : needed.val ≤ p.rssKb.val
          · have hNone : ((needed.val - p.rssKb.val : Nat) : Int) ≤ 0 := by omega
            have hNone' : (needed.val - p.rssKb.val : Int) ≤ 0 := by omega
            rw [walk_of_nonpos hNone, walk_of_nonpos hNone']
          · congr 1
            omega
        unfold freezeForHeadroom
        rw [if_neg hZero]
        unfold walk
        rw [if_neg hLeft]
        cases hStart : inp.startTime p.pid with
        | none =>
            have hGain : headroomGain inp p = none := by simp [headroomGain, freezable, hStart]
            rw [hGain]
            exact ih needed t
        | some st =>
            cases hFreeze : (freezeChecked inp.kill inp.startTime p.pid st).success with
            | false =>
                have hGain : headroomGain inp p = none := by
                  simp [headroomGain, freezable, hStart, hFreeze]
                rw [hGain]
                simp only [hFreeze, Bool.false_eq_true, if_false]
                exact ih needed t
            | true =>
                have hGain : headroomGain inp p = some p.rssKb.val := by
                  simp [headroomGain, freezable, hStart, hFreeze]
                rw [hGain]
                simp only [hFreeze, if_true, List.foldl_cons]
                rw [← hRest, ih]
                simp only [recordFrozen, hStart, Option.getD_some]

/-- The whole RSS of a victim, in its cgroup. -/
def victimAim (p : Process) : Option ReclaimWrite :=
  p.cgroupPath.map fun cgroup => ⟨cgroup, p.rssKb.bytes⟩

def reclaimVictim (fs : CgroupFs) (written : List ReclaimWrite) (p : Process) :
    List ReclaimWrite :=
  match p.cgroupPath with
  | none => written
  | some cgroup => (reclaimCgroup fs cgroup p.rssKb.bytes written).2

end Headroom

/-! ## The four paths -/

/-- A run of `execute_plan` with its sink's view of the cgroups. -/
structure PlanPass where
  env : ExecEnv
  planProcs : List Process
  decisions : List Decision
  state : ExecState
  fs : CgroupFs
  activePid : Option Pid

/-- A `FreezeForHeadroom` decision of spike mode. -/
structure HeadroomPass where
  tracker : SpikeTracker
  inp : SpikeInput
  needed : Kb
  fs : CgroupFs

/-- The state of the plan after its first decisions, no call made before. -/
def PlanPass.stateAfter (i : PlanPass) (done : List Decision) : ExecState :=
  (executePlan i.env i.planProcs done { i.state with calls := [] }).state

inductive ReclaimPass
  | early (i : EarlyInput)
  | idle (i : IdleInput) (s : IdleState)
  | postFreeze (i : PlanPass)
  | headroom (i : HeadroomPass)

namespace ReclaimPass

def fs : ReclaimPass → CgroupFs
  | early i => i.fs
  | idle i _ => i.fs
  | postFreeze i => i.fs
  | headroom i => i.fs

/-- The active window, as the path reads it. -/
def activePid : ReclaimPass → Option Pid
  | early i => i.activePid
  | idle i _ => i.activePid
  | postFreeze i => i.activePid
  | headroom i => i.inp.activePid

/-- The writes that reach a `memory.reclaim`. -/
def written : ReclaimPass → List ReclaimWrite
  | early i => (checkEarlyProcessReclaim i).2
  | idle i s => (checkIdleProcessReclaim i s).written
  | postFreeze i =>
      (reclaimCalls (i.stateAfter i.decisions).calls).foldl
        (fun written w => (reclaimCgroup i.fs w.cgroupPath w.bytes written).2) []
  | headroom i =>
      (headroomFrozen i.inp i.needed (headroomCandidates i.tracker i.inp)).foldl
        (reclaimVictim i.fs) []

/-- The path selects a process for the reclaim `w`.

* early: when due, a target with fewer than three targets ahead of it by RSS;
* idle: with swap to spare, a background process idle for long enough, with
  fewer than three such before it in the list;
* after a plan: a decision that freezes its process from the state the
  decisions before it left;
* headroom: a candidate that can be frozen, the ones before it not covering
  what is needed. -/
def selects : ReclaimPass → ReclaimWrite → Prop
  | early i, w =>
      i.due ∧ ∃ pre p post,
        i.planProcs.filter (isEarlyTarget i.cfg i.activePid) = pre ++ p :: post ∧
        (pre.filter fun q => decide (p.rssKb.val ≤ q.rssKb.val)).length +
          (post.filter fun q => decide (p.rssKb.val < q.rssKb.val)).length < 3 ∧
        earlyAim p = some w
  | idle i s, w =>
      i.swapTooFull = false ∧ i.swapUsedPct ≤ i.idleCfg.maxSwapOccupancyPct ∧
        ∃ pre p post, i.planProcs = pre ++ p :: post ∧
          (pre.filterMap (i.idleBytes s)).length < 3 ∧
          ∃ candidate, i.idleBytes s p = some candidate ∧ i.aim candidate = some w
  | postFreeze i, w =>
      ∃ pre d post, i.decisions = pre ++ d :: post ∧
        freezesFrom i.env (i.stateAfter pre) d ∧ freezeAim i.planProcs d = some w
  | headroom i, w =>
      ∃ pre p post, headroomCandidates i.tracker i.inp = pre ++ p :: post ∧
        spent (headroomGain i.inp) pre < i.needed.val ∧ freezable i.inp p = true ∧
        victimAim p = some w

theorem mem_early_written (i : EarlyInput) (w : ReclaimWrite) :
    w ∈ (early i).written ↔ i.fs.admits w = true ∧ (early i).selects w := by
  have hFirst : (∃ p ∈ i.targets.take 3, earlyAim p = some w) ↔
      ∃ pre p post, i.planProcs.filter (isEarlyTarget i.cfg i.activePid) = pre ++ p :: post ∧
        (pre.filter fun q => decide (p.rssKb.val ≤ q.rssKb.val)).length +
          (post.filter fun q => decide (p.rssKb.val < q.rssKb.val)).length < 3 ∧
        earlyAim p = some w := by
    simp only [EarlyInput.targets, mem_take_sortDesc_iff]
    constructor
    · intro h
      obtain ⟨p, ⟨pre, post, hEq, hFew⟩, hAim⟩ := h
      exact ⟨pre, p, post, hEq, hFew, hAim⟩
    · intro h
      obtain ⟨pre, p, post, hEq, hFew, hAim⟩ := h
      exact ⟨p, ⟨pre, post, hEq, hFew⟩, hAim⟩
  have hEarly := mem_early_iff i w
  rw [hFirst] at hEarly
  exact hEarly.trans and_left_comm

theorem mem_idle_written (i : IdleInput) (s : IdleState) (w : ReclaimWrite) :
    w ∈ (idle i s).written ↔ i.fs.admits w = true ∧ (idle i s).selects w := by
  have hFirst : (∃ candidate ∈ (i.candidates s).take 3, i.aim candidate = some w) ↔
      i.swapUsedPct ≤ i.idleCfg.maxSwapOccupancyPct ∧
        ∃ pre p post, i.planProcs = pre ++ p :: post ∧
          (pre.filterMap (i.idleBytes s)).length < 3 ∧
          ∃ candidate, i.idleBytes s p = some candidate ∧ i.aim candidate = some w := by
    rw [candidates_eq]
    by_cases hRoom : i.swapUsedPct ≤ i.idleCfg.maxSwapOccupancyPct
    · rw [if_pos hRoom]
      simp only [mem_take_filterMap_iff, hRoom, true_and]
      constructor
      · intro h
        obtain ⟨candidate, ⟨pre, p, post, hEq, hBytes, hFew⟩, hAim⟩ := h
        exact ⟨pre, p, post, hEq, hFew, candidate, hBytes, hAim⟩
      · intro h
        obtain ⟨pre, p, post, hEq, hFew, candidate, hBytes, hAim⟩ := h
        exact ⟨candidate, ⟨pre, p, post, hEq, hBytes, hFew⟩, hAim⟩
    · simp [hRoom]
  have hIdle := mem_idle_iff i s w
  rw [hFirst] at hIdle
  exact hIdle.trans and_left_comm

/-- Of the reclaims a plan asks for, the admitted ones are written. -/
theorem postFreeze_written (i : PlanPass) :
    (postFreeze i).written =
      (reclaimCalls (i.stateAfter i.decisions).calls).filter i.fs.admits := by
  have hFold := @foldl_written _ some i.fs _
    (fun ws w => written_reclaimCgroup i.fs w ws)
    (reclaimCalls (i.stateAfter i.decisions).calls) []
  rw [List.filterMap_some, List.nil_append] at hFold
  exact hFold

theorem mem_postFreeze_written (i : PlanPass) (w : ReclaimWrite) :
    w ∈ (postFreeze i).written ↔ i.fs.admits w = true ∧ (postFreeze i).selects w := by
  have hCalls := @mem_reclaimCalls_iff i.env i.planProcs i.decisions
    { i.state with calls := [] } w
  have hNoneYet : ¬ w ∈ reclaimCalls ({ i.state with calls := [] } : ExecState).calls :=
    List.not_mem_nil
  rw [postFreeze_written, List.mem_filter, and_comm]
  apply and_congr_right
  intro _
  exact hCalls.trans (or_iff_right hNoneYet)

theorem written_reclaimVictim (fs : CgroupFs) (ws : List ReclaimWrite) (p : Process) :
    reclaimVictim fs ws p =
      match victimAim p with
      | some w => if fs.admits w then ws ++ [w] else ws
      | none => ws := by
  unfold reclaimVictim victimAim
  cases p.cgroupPath with
  | none => rfl
  | some cgroup => exact written_reclaimCgroup fs ⟨cgroup, _⟩ ws

/-- Of the victims' reclaims, the admitted ones are written. -/
theorem headroom_written (i : HeadroomPass) :
    (headroom i).written =
      ((headroomFrozen i.inp i.needed (headroomCandidates i.tracker i.inp)).filterMap
        victimAim).filter i.fs.admits := by
  have hFold := foldl_written (written_reclaimVictim i.fs)
    (headroomFrozen i.inp i.needed (headroomCandidates i.tracker i.inp)) []
  rw [List.nil_append] at hFold
  exact hFold

theorem mem_headroom_written (i : HeadroomPass) (w : ReclaimWrite) :
    w ∈ (headroom i).written ↔ i.fs.admits w = true ∧ (headroom i).selects w := by
  rw [headroom_written, List.mem_filter, List.mem_filterMap, and_comm]
  apply and_congr_right
  intro _
  simp only [mem_headroomFrozen_iff, selects]
  constructor
  · intro h
    obtain ⟨p, ⟨pre, post, hEq, hLeft, hFreezable⟩, hAim⟩ := h
    exact ⟨pre, p, post, hEq, hLeft, hFreezable, hAim⟩
  · intro h
    obtain ⟨pre, p, post, hEq, hLeft, hFreezable, hAim⟩ := h
    exact ⟨p, ⟨pre, post, hEq, hLeft, hFreezable⟩, hAim⟩

/-- **What a path writes**: the reclaims it selects and the guards of
`reclaim_cgroup` admit. -/
theorem mem_written_iff (r : ReclaimPass) (w : ReclaimWrite) :
    w ∈ r.written ↔ r.fs.admits w = true ∧ r.selects w := by
  cases r with
  | early i => exact mem_early_written i w
  | idle i s => exact mem_idle_written i s w
  | postFreeze i => exact mem_postFreeze_written i w
  | headroom i => exact mem_headroom_written i w

end ReclaimPass

/-! ## The cgroup of the active window -/

/-- The cgroup the process of the active window lives in. -/
def foregroundCgroup (layout : Pid → Option String) (activePid : Option Pid) : Option String :=
  activePid.bind layout

/-- No write of the path hits the cgroup of the active window. -/
def SparesForeground (layout : Pid → Option String) (r : ReclaimPass) : Prop :=
  ∀ w ∈ r.written, foregroundCgroup layout r.activePid ≠ some w.cgroupPath

/-- **A path spares the cgroup of the active window exactly when it selects no
process in it**, other than for a reclaim the guards reject. -/
theorem sparesForeground_iff (layout : Pid → Option String) (r : ReclaimPass) :
    SparesForeground layout r ↔
      ∀ cgroup, foregroundCgroup layout r.activePid = some cgroup →
        ∀ bytes, r.selects ⟨cgroup, bytes⟩ → r.fs.admits ⟨cgroup, bytes⟩ = false := by
  unfold SparesForeground
  constructor
  · intro hSpares cgroup hForeground bytes hSelects
    rw [← Bool.not_eq_true]
    intro hAdmits
    exact hSpares ⟨cgroup, bytes⟩ ((r.mem_written_iff _).mpr ⟨hAdmits, hSelects⟩) hForeground
  · intro hNone w hw hForeground
    obtain ⟨hAdmits, hSelects⟩ := (r.mem_written_iff w).mp hw
    rw [hNone w.cgroupPath hForeground w.bytes hSelects] at hAdmits
    exact Bool.noConfusion hAdmits

/-- A scope with the window's process and a helper of the same application. -/
def browserScope : String := "/user.slice/app-firefox.scope"

def browserProcess (pid : Pid) (name : String) : Process where
  pid := pid
  name := name
  exeBasename := none
  rssKb := Kb.clamp 204800
  swapKb := Kb.clamp 0
  oomScore := 0
  cgroupPath := some browserScope
  cpuPct := 0
  majflt := 0
  cmdline := ""

/-- An early reclaim of a browser with the window on its main process. -/
def browserEarly : EarlyInput where
  cfg := CompiledConfig.ofEmpty 15
  level := .elevated
  planProcs := [browserProcess ⟨100⟩ "firefox", browserProcess ⟨101⟩ "Web Content"]
  activePid := some ⟨100⟩
  fs :=
    { hasSubdir := fun _ => some false
      hasReclaim := fun _ => true
      mayWrite := fun _ => true
      answer := fun _ _ => none }
  unixNow := 1000
  lastEarlyReclaim := 0

/-- **The foreground is hit.**  The window is on PID 100; its helper, PID 101, is
a background process by PID, and half of its RSS is pushed out of the scope
they share. -/
theorem early_hits_foreground :
    ¬ ∀ layout r, SparesForeground layout r := by
  intro h
  have hWritten : (checkEarlyProcessReclaim browserEarly).2 = [⟨browserScope, 104857600⟩] := by
    decide +kernel
  have hHit : (⟨browserScope, 104857600⟩ : ReclaimWrite) ∈
      (checkEarlyProcessReclaim browserEarly).2 := by
    rw [hWritten]
    exact List.mem_singleton_self _
  exact h (fun _ => some browserScope) (.early browserEarly) _ hHit rfl


end Mgd.Evictor.ForegroundReclaim
