import Mgd.Evictor.CollectiveRelease
import Mgd.Evictor.ForegroundReclaim

/-!
# Whom the headroom freeze stops

`FreezeForHeadroom` sorts its candidates, most expendable first, and stops them
one after the other until what is needed is covered.  The first part says whom an
execution of the decision stops, and that the rest of a spike-mode cycle stops
nobody.

The filter of the candidates is its own copy of the hard rules of `plan()`.  It
tests the priority and `victim_exclude`; it does not test `[[protect]]`, which
`priorities.toml` says is never touched.  The second part says which protected
processes that costs.

## Main results

* `mem_stopped_iff` : whom an execution stops.
* `runSpikeCycle_fst` : a cycle records the processes it stops, and no other.
* `sparesProtected_iff` : when the execution leaves the protected processes alone.
-/

namespace Mgd.Evictor.HeadroomFreeze

open Mgd.Types Mgd.Monitor Mgd.Config Mgd.Lib.AssocMap Mgd.Lib.Greedy Mgd.SpikeMode
open Mgd.Engine.Planner Mgd.Executor.Registry Mgd.Evictor.Spike
open Mgd.Evictor.CollectiveRelease (tracked drained drained_spikes trackAll_decisions
  checkCpuAll_decisions sessionConfig sessionInput indexer)
open Mgd.Evictor.ForegroundReclaim (freezable headroomGain headroomGain_isSome headroomFrozen
  mem_headroomFrozen_iff recordFrozen freezeForHeadroom_eq)

/-! ## One execution -/

section Execution

/-- What the candidates are sorted by. -/
def expendability (cfg : CompiledConfig) (p : Process) : ℕ ×ₗ ℕ :=
  toLex (getPriority p.name p.exeBasename cfg, p.rssKb.val)

/-- The processes an execution of `FreezeForHeadroom` stops, in order. -/
def stopped (t : SpikeTracker) (inp : SpikeInput) (needed : Kb) : List Process :=
  headroomFrozen inp needed (headroomCandidates t inp)

/-- Of the candidates around `p` in the process list, those that are sorted before it. -/
def ahead (cfg : CompiledConfig) (p : Process) (before after : List Process) : List Process :=
  before.filter (fun q => decide (expendability cfg p ≤ expendability cfg q)) ++
    after.filter (fun q => decide (expendability cfg p < expendability cfg q))

variable {t : SpikeTracker} {inp : SpikeInput} {needed : Kb} {p : Process}

/-- The execution records those it stops. -/
theorem executeDecision_headroom (t : SpikeTracker) (inp : SpikeInput) (needed : Kb) :
    executeDecision inp t (.freezeForHeadroom needed) =
      (stopped t inp needed).foldl (recordFrozen inp (t.spikePids.head?.getD Pid.none)) t :=
  freezeForHeadroom_eq _ needed (headroomCandidates t inp) t

/-- **Whom an execution stops**: a candidate that SIGSTOP goes through for and
that has too little ahead of it to cover what is needed. -/
theorem mem_stopped_iff :
    p ∈ stopped t inp needed ↔
      ∃ before after, inp.procs.filter (isHeadroomCandidate t inp) = before ++ p :: after ∧
        spent (headroomGain inp) (ahead inp.cfg p before after) < needed.val ∧
        freezable inp p = true := by
  have hBudget : ∀ before after : List Process,
      0 < (needed.val : Int) - (spent (headroomGain inp) (ahead inp.cfg p before after) : Nat) ↔
        spent (headroomGain inp) (ahead inp.cfg p before after) < needed.val := by
    intro before after
    omega
  have hWalk := @mem_walk_sortDesc_iff _ (headroomGain inp) _ _ (expendability inp.cfg) p
    (needed.val : Int) (inp.procs.filter (isHeadroomCandidate t inp))
  rw [headroomGain_isSome] at hWalk
  exact hWalk.trans
    (exists_congr fun before => exists_congr fun after =>
      and_congr_right fun _ => and_congr_left fun _ => hBudget before after)

theorem candidate_of_mem_stopped (h : p ∈ stopped t inp needed) :
    p ∈ inp.procs ∧ isHeadroomCandidate t inp p = true ∧ freezable inp p = true := by
  rcases mem_stopped_iff.mp h with ⟨before, after, hSplit, -, hFreezable⟩
  have hMem : p ∈ inp.procs.filter (isHeadroomCandidate t inp) := by
    rw [hSplit]
    simp
  rw [List.mem_filter] at hMem
  exact ⟨hMem.1, hMem.2, hFreezable⟩

end Execution

/-! ## One cycle -/

section Cycle

def neededOf : SpikeDecision → Option Kb
  | .freezeForHeadroom needed => some needed
  | .throttleSpike _ _ => none
  | .restoreThrottle _ _ => none
  | .releaseVictims _ => none

/-- The tracker when the cycle comes to its decisions. -/
def decided (t : SpikeTracker) (inp : SpikeInput) : SpikeTracker :=
  (spikeDecisions (releaseVictims t inp).1 inp).1

/-- The headroom the cycle asks for. -/
def asked (t : SpikeTracker) (inp : SpikeInput) : Option Kb :=
  (spikeDecisions (releaseVictims t inp).1 inp).2.findSome? neededOf

/-- The processes the cycle stops. -/
def cycleStopped (t : SpikeTracker) (inp : SpikeInput) : List Process :=
  match asked t inp with
  | none => []
  | some needed => stopped (decided t inp) inp needed

variable {t : SpikeTracker} {inp : SpikeInput} {p : Process}

/-- A decision that does not freeze leaves the tracker alone. -/
theorem foldl_executeDecision_other {ds : List SpikeDecision} (h : ∀ d ∈ ds, neededOf d = none)
    (t : SpikeTracker) : ds.foldl (executeDecision inp) t = t := by
  induction ds generalizing t with
  | nil => rfl
  | cons d rest ih =>
      have hHere : executeDecision inp t d = t := by
        cases d with
        | freezeForHeadroom needed => cases h _ List.mem_cons_self
        | throttleSpike spikePid cg => rfl
        | restoreThrottle spikePid cg => rfl
        | releaseVictims victims => rfl
      rw [List.foldl_cons, hHere]
      exact ih (fun d' hd' => h d' (List.mem_cons_of_mem d hd')) t

theorem neededOf_eq_none {ds : List SpikeDecision}
    (h : ∀ needed, SpikeDecision.freezeForHeadroom needed ∉ ds) :
    ∀ d ∈ ds, neededOf d = none := by
  intro d hd
  cases d with
  | freezeForHeadroom needed => exact absurd hd (h needed)
  | throttleSpike spikePid cg => rfl
  | restoreThrottle spikePid cg => rfl
  | releaseVictims victims => rfl

/-- Among its decisions an update asks for headroom once or not at all. -/
theorem update_decisions (t : SpikeTracker) (procs : List Process) (p : Params) (now : Instant)
    (available : Kb) (foregroundPid : Option Pid) :
    ∃ before after, (t.update procs available p now foregroundPid).2 =
        before ++ headroomDecisions p available (tracked t procs p now).1 ++ after ∧
      (∀ d ∈ before, neededOf d = none) ∧ (∀ d ∈ after, neededOf d = none) := by
  refine ⟨(tracked t procs p now).2.1 ++
      (if (drained t procs p now).2.isEmpty then []
        else [SpikeDecision.releaseVictims (drained t procs p now).2]),
    (checkCpuAll p foregroundPid procs (drained t procs p now).1.spikes).2, ?_, ?_, ?_⟩
  · rw [← drained_spikes]
    rfl
  · refine neededOf_eq_none fun needed hMem => ?_
    rcases List.mem_append.mp hMem with hTracked | hRelease
    · exact trackAll_decisions procs _ hTracked
    · split at hRelease
      · cases hRelease
      · cases List.mem_singleton.mp hRelease
  · exact neededOf_eq_none fun needed hMem => checkCpuAll_decisions procs _ hMem

/-- The spikes the RAM check of the cycle reads. -/
def checkedSpikes (t : SpikeTracker) (inp : SpikeInput) : Map Pid SpikeState :=
  (tracked (releaseVictims t inp).1 inp.procs (Params.fromConfig inp.cfg) inp.now).1

/-- The headroom is asked for by the RAM check. -/
theorem asked_eq (t : SpikeTracker) (inp : SpikeInput) :
    asked t inp =
      if inp.cfg.spikeModeEnabled then
        (headroomDecisions (Params.fromConfig inp.cfg) inp.available
          (checkedSpikes t inp)).findSome? neededOf
      else none := by
  unfold asked spikeDecisions
  split
  · rcases update_decisions (releaseVictims t inp).1 inp.procs (Params.fromConfig inp.cfg) inp.now
      inp.available inp.foregroundPid with ⟨before, after, hEq, hBefore, hAfter⟩
    rw [hEq, List.findSome?_append, List.findSome?_append,
      List.findSome?_eq_none_iff.mpr hBefore, List.findSome?_eq_none_iff.mpr hAfter,
      Option.none_or, Option.or_none]
    rfl
  · rfl

/-- **A cycle records the processes it stops**, over what the releases and the
update left. -/
theorem runSpikeCycle_fst (t : SpikeTracker) (inp : SpikeInput) :
    (runSpikeCycle t inp).1 =
      (cycleStopped t inp).foldl
        (recordFrozen inp ((decided t inp).spikePids.head?.getD Pid.none)) (decided t inp) := by
  have hAsked := asked_eq t inp
  unfold runSpikeCycle cycleStopped decided
  dsimp only
  unfold spikeDecisions
  by_cases hEnabled : inp.cfg.spikeModeEnabled = true
  · rw [if_pos hEnabled] at hAsked ⊢
    rcases update_decisions (releaseVictims t inp).1 inp.procs (Params.fromConfig inp.cfg) inp.now
      inp.available inp.foregroundPid with ⟨before, after, hEq, hBefore, hAfter⟩
    rw [hEq, List.foldl_append, List.foldl_append, foldl_executeDecision_other hBefore,
      foldl_executeDecision_other hAfter, hAsked]
    rcases headroomDecisions_cases (Params.fromConfig inp.cfg) inp.available (checkedSpikes t inp)
      with hNone | ⟨needed, hOne⟩
    · rw [hNone]
      unfold checkedSpikes at hNone
      rw [hNone]
      rfl
    · rw [hOne]
      unfold checkedSpikes at hOne
      rw [hOne]
      exact executeDecision_headroom _ inp needed
  · rw [if_neg hEnabled] at hAsked ⊢
    rw [hAsked]
    rfl

/-- Whom a cycle stops, by the list of its candidates. -/
theorem mem_cycleStopped_iff :
    p ∈ cycleStopped t inp ↔
      ∃ needed before after, asked t inp = some needed ∧
        headroomCandidates (decided t inp) inp = before ++ p :: after ∧
        spent (headroomGain inp) before < needed.val ∧ freezable inp p = true := by
  unfold cycleStopped
  cases hAsked : asked t inp with
  | none => simp
  | some needed =>
      dsimp only
      unfold stopped
      rw [mem_headroomFrozen_iff]
      constructor
      · intro h
        rcases h with ⟨before, after, hFrozen⟩
        exact ⟨needed, before, after, rfl, hFrozen⟩
      · intro h
        rcases h with ⟨needed', before, after, hNeeded, hFrozen⟩
        cases hNeeded
        exact ⟨before, after, hFrozen⟩

theorem candidate_of_mem_cycleStopped (h : p ∈ cycleStopped t inp) :
    p ∈ inp.procs ∧ isHeadroomCandidate (decided t inp) inp p = true ∧
      freezable inp p = true := by
  unfold cycleStopped at h
  split at h
  · cases h
  · exact candidate_of_mem_stopped h

end Cycle

/-! ## Protected processes -/

/-- The execution stops no process that a `[[protect]]` pattern matches. -/
def SparesProtected (t : SpikeTracker) (inp : SpikeInput) (needed : Kb) : Prop :=
  ∀ p ∈ stopped t inp needed, inp.cfg.isProtected p.name = false

/-- **The protected processes are spared exactly when each of them** that passes the
filter of the candidates, and that SIGSTOP goes through for, has enough ahead of
it to cover what is needed. -/
theorem sparesProtected_iff (t : SpikeTracker) (inp : SpikeInput) (needed : Kb) :
    SparesProtected t inp needed ↔
      ∀ before p after, inp.procs.filter (isHeadroomCandidate t inp) = before ++ p :: after →
        inp.cfg.isProtected p.name = true → freezable inp p = true →
          needed.val ≤ spent (headroomGain inp) (ahead inp.cfg p before after) := by
  unfold SparesProtected
  constructor
  · intro hSpares before p after hSplit hProtected hFreezable
    by_contra hLeft
    have hStopped : p ∈ stopped t inp needed :=
      mem_stopped_iff.mpr ⟨before, after, hSplit, by omega, hFreezable⟩
    rw [hSpares p hStopped] at hProtected
    cases hProtected
  · intro h p hp
    rw [← Bool.not_eq_true]
    intro hProtected
    rcases mem_stopped_iff.mp hp with ⟨before, after, hSplit, hLeft, hFreezable⟩
    have hCovered := h before p after hSplit hProtected hFreezable
    omega

/-- The indexer of the build session, with a `[[protect]]` entry of its own. -/
def protectedInput : SpikeInput :=
  { sessionInput 5 [indexer] with
    cfg := { sessionConfig with protectRules := [Regex.exact "baloo_file"] } }

/-- It is stopped all the same. -/
theorem protected_indexer_stopped :
    protectedInput.cfg.isProtected indexer.name = true ∧
      ¬ SparesProtected SpikeTracker.new protectedInput (Kb.clamp 1000) := by
  have hStopped : indexer ∈ stopped SpikeTracker.new protectedInput (Kb.clamp 1000) := by
    decide +kernel
  refine ⟨by decide +kernel, fun hSpares => ?_⟩
  have hSpared := hSpares indexer hStopped
  revert hSpared
  decide +kernel

end Mgd.Evictor.HeadroomFreeze
