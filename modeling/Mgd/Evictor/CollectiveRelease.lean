import Mgd.Evictor.Spike
import Mgd.Lib.Run

/-!
# Collective release of the victims

Victims are frozen for the headroom of all Tracking spikes together, so they are
held while any spike is Tracking and released together once none is.  A cycle
has six ways to touch the ledger of victims: the exit of a spike, the timeout,
the orphan sweep, a manual request, the update with its demotions, and the
execution of the decisions.  `cycleMoves` lists them in order with the tracker
before and after each, so that it can be said which of them a victim left by.
-/

namespace Mgd.Evictor.CollectiveRelease

open Mgd.Types Mgd.Monitor Mgd.Config Mgd.Lib.AssocMap Mgd.Lib.Run Mgd.SpikeMode
open Mgd.Executor.Registry Mgd.Evictor.Spike

/-! ## The moves of a cycle -/

inductive Cause
  | exit (spikePid : Pid)
  | timeout
  | orphaned
  | requested
  | updated
  | executed (d : SpikeDecision)

/-- A part of the cycle, with the tracker before and after it. -/
structure Move where
  cause : Cause
  before : SpikeTracker
  after : SpikeTracker

def exitMoves : SpikeTracker → List Pid → List Move
  | _, [] => []
  | t, spikePid :: rest =>
      ⟨.exit spikePid, t, (t.onSpikeExit spikePid).1⟩ :: exitMoves (t.onSpikeExit spikePid).1 rest

def decisionMoves (inp : SpikeInput) : SpikeTracker → List SpikeDecision → List Move
  | _, [] => []
  | t, d :: rest =>
      ⟨.executed d, t, executeDecision inp t d⟩ :: decisionMoves inp (executeDecision inp t d) rest

def releaseMoves (t : SpikeTracker) (inp : SpikeInput) : List Move :=
  let exit := (exitSpikes t (exitedSpikes t inp.procs)).1
  let timedOut := (exit.drainTimedOutVictims inp.now inp.cfg.spikeMaxVictimFreezeSec).1
  let orphaned := timedOut.drainOrphanedVictims.1
  exitMoves t (exitedSpikes t inp.procs) ++
    [⟨.timeout, exit, timedOut⟩, ⟨.orphaned, timedOut, orphaned⟩,
      ⟨.requested, orphaned, (orphaned.releaseRequested inp.now inp.manualRelease).1⟩]

def cycleMoves (t : SpikeTracker) (inp : SpikeInput) : List Move :=
  let released := (releaseVictims t inp).1
  let decided := spikeDecisions released inp
  releaseMoves t inp ++ ⟨.updated, released, decided.1⟩ :: decisionMoves inp decided.1 decided.2

/-- The moves lead from one tracker to the other without a gap. -/
def Chained (a : SpikeTracker) : List Move → SpikeTracker → Prop
  | [], b => a = b
  | m :: rest, b => m.before = a ∧ Chained m.after rest b

theorem Chained.append {a b c : SpikeTracker} {xs ys : List Move} (hxs : Chained a xs b)
    (hys : Chained b ys c) : Chained a (xs ++ ys) c := by
  induction xs generalizing a with
  | nil =>
      have hEq : a = b := hxs
      exact hEq ▸ hys
  | cons m rest ih => exact ⟨hxs.1, ih hxs.2⟩

theorem foldl_exitOne_fst (exited : List Pid) (acc : SpikeTracker × List SpikeVictim) :
    (exited.foldl exitOne acc).1 = (exited.foldl exitOne (acc.1, [])).1 := by
  induction exited generalizing acc with
  | nil => rfl
  | cons spikePid rest ih =>
      simp only [List.foldl_cons]
      rw [ih (exitOne acc spikePid), ih (exitOne (acc.1, []) spikePid)]
      rfl

theorem chained_exitMoves (t : SpikeTracker) (exited : List Pid) :
    Chained t (exitMoves t exited) (exitSpikes t exited).1 := by
  induction exited generalizing t with
  | nil => rfl
  | cons spikePid rest ih =>
      have hRest : (exitSpikes t (spikePid :: rest)).1 =
          (exitSpikes (t.onSpikeExit spikePid).1 rest).1 := by
        unfold exitSpikes
        rw [List.foldl_cons, foldl_exitOne_fst]
        rfl
      rw [hRest]
      exact ⟨rfl, ih (t.onSpikeExit spikePid).1⟩

theorem chained_decisionMoves (inp : SpikeInput) (t : SpikeTracker) (ds : List SpikeDecision) :
    Chained t (decisionMoves inp t ds) (ds.foldl (executeDecision inp) t) := by
  induction ds generalizing t with
  | nil => rfl
  | cons d rest ih => exact ⟨rfl, ih (executeDecision inp t d)⟩

/-- **The moves are the cycle.** -/
theorem chained_cycleMoves (t : SpikeTracker) (inp : SpikeInput) :
    Chained t (cycleMoves t inp) (runSpikeCycle t inp).1 := by
  have hRelease : Chained t (releaseMoves t inp) (releaseVictims t inp).1 :=
    (chained_exitMoves t _).append ⟨rfl, rfl, rfl, rfl⟩
  exact hRelease.append ⟨rfl, chained_decisionMoves inp _ _⟩

/-! ## Tracking spikes -/

theorem anyTracking_iff {spikes : Map Pid SpikeState} :
    anyTracking spikes = true ↔ ∃ pid s, spikes.lookup pid = some s ∧ s.phase = .tracking := by
  simp only [anyTracking, List.any_eq_true, mem_values_iff, decide_eq_true_eq]
  constructor
  · intro h
    obtain ⟨s, ⟨pid, hLookup⟩, hPhase⟩ := h
    exact ⟨pid, s, hLookup, hPhase⟩
  · intro h
    obtain ⟨pid, s, hLookup, hPhase⟩ := h
    exact ⟨s, ⟨pid, hLookup⟩, hPhase⟩

/-- A new state for one key keeps a Tracking spike when it is Tracking, or when
what it replaces was not. -/
theorem anyTracking_insert {spikes : Map Pid SpikeState} {pid : Pid} {s : SpikeState}
    (hAny : anyTracking spikes = true)
    (hKeep : ∀ old, spikes.lookup pid = some old → old.phase = .tracking → s.phase = .tracking) :
    anyTracking (spikes.insert pid s) = true := by
  obtain ⟨q, old, hLookup, hPhase⟩ := anyTracking_iff.mp hAny
  by_cases hq : q = pid
  · subst hq
    exact anyTracking_iff.mpr ⟨q, s, AList.lookup_insert spikes, hKeep old hLookup hPhase⟩
  · exact anyTracking_iff.mpr ⟨q, old, by rw [AList.lookup_insert_ne hq]; exact hLookup, hPhase⟩

section Update

variable {p : Params} {now : Instant} {spikes : Map Pid SpikeState}

/-- Only new candidates are registered. -/
theorem anyTracking_foldl_register (prevRss rssD : Map Pid Kb) (majfltD : Map Pid Nat)
    (procs : List Process) (hAny : anyTracking spikes = true) :
    anyTracking (procs.foldl (register p prevRss rssD majfltD) spikes) = true := by
  obtain ⟨pid, s, hLookup, hPhase⟩ := anyTracking_iff.mp hAny
  exact anyTracking_iff.mpr ⟨pid, s, foldl_register_lookup procs hLookup, hPhase⟩

/-- A Tracking spike that is not demoted stays Tracking. -/
theorem track_phase {rssD : Map Pid Kb} {proc : Process} {state : SpikeState}
    (hPhase : state.phase = .tracking) (hKept : (track p now rssD proc state).2.2 = false) :
    (track p now rssD proc state).1.phase = .tracking := by
  obtain ⟨-, ⟨-, hStays, -⟩ | ⟨-, hDemoted⟩⟩ := track_cases p now rssD proc state
  · exact hStays hPhase
  · rw [hDemoted] at hKept
    cases hKept

/-- Without a demotion a Tracking spike is left. -/
theorem anyTracking_trackAll {rssD : Map Pid Kb} (procs : List Process)
    (hAny : anyTracking spikes = true) (hKept : (trackAll p now rssD procs spikes).2.2 = false) :
    anyTracking (trackAll p now rssD procs spikes).1 = true := by
  induction procs generalizing spikes with
  | nil => exact hAny
  | cons proc rest ih =>
      unfold trackAll at hKept ⊢
      cases hState : spikes.lookup proc.pid with
      | none =>
          rw [hState] at hKept
          exact ih hAny hKept
      | some state =>
          rw [hState] at hKept
          dsimp only at hKept ⊢
          rw [Bool.or_eq_false_iff] at hKept
          refine ih (anyTracking_insert hAny fun old hOld hPhase => ?_) hKept.2
          rw [hState] at hOld
          cases hOld
          exact track_phase hPhase hKept.1

/-- The CPU check leaves the phases alone. -/
theorem anyTracking_checkCpu (foregroundPid : Option Pid) (proc : Process) :
    anyTracking (checkCpu p foregroundPid proc spikes).1 = anyTracking spikes := by
  obtain hSame | ⟨state, cg, hState, hPhase, -, -, hStep⟩ :=
    checkCpu_cases p foregroundPid proc spikes
  · rw [hSame]
  have hBefore : anyTracking spikes = true := anyTracking_iff.mpr ⟨_, state, hState, hPhase⟩
  have hInsert : ∀ s : SpikeState, s.phase = .tracking →
      anyTracking (spikes.insert proc.pid s) = anyTracking spikes := by
    intro s hs
    rw [hBefore]
    exact anyTracking_insert hBefore fun _ _ _ => hs
  obtain ⟨-, -, hUp⟩ | ⟨-, -, hDown⟩ := hStep
  · rw [hUp]
    exact hInsert _ hPhase
  · rw [hDown]
    exact hInsert _ hPhase

theorem anyTracking_checkCpuAll (foregroundPid : Option Pid) (procs : List Process) :
    anyTracking (checkCpuAll p foregroundPid procs spikes).1 = anyTracking spikes := by
  induction procs generalizing spikes with
  | nil => rfl
  | cons proc rest ih => exact ih.trans (anyTracking_checkCpu foregroundPid proc)

end Update

/-! ## The ledger of victims -/

/-- Every victim is filed under its own PID. -/
def Keyed (t : SpikeTracker) : Prop :=
  ∀ pid v, t.victims.lookup pid = some v → v.pid = pid

/-- Every victim recorded has a Tracking spike it is held for. -/
def Held (t : SpikeTracker) : Prop :=
  ∀ pid v, t.victims.lookup pid = some v → anyTracking t.spikes = true

section Ledger

variable {t : SpikeTracker} {inp : SpikeInput}

theorem drainIfNoneTracking_of_tracking (hAny : anyTracking t.spikes = true) :
    t.drainIfNoneTracking = (t, []) := by
  unfold SpikeTracker.drainIfNoneTracking
  rw [hAny, Bool.or_true, if_pos rfl]

/-- What the drain leaves was there, and there is a Tracking spike for it. -/
theorem drainIfNoneTracking_lookup {pid : Pid} {v : SpikeVictim}
    (h : t.drainIfNoneTracking.1.victims.lookup pid = some v) :
    t.victims.lookup pid = some v ∧ anyTracking t.spikes = true := by
  cases hAny : anyTracking t.spikes with
  | true =>
      rw [drainIfNoneTracking_of_tracking hAny] at h
      exact ⟨h, rfl⟩
  | false =>
      have hEmpty : t.drainIfNoneTracking.1.victims.lookup pid = none := by
        cases hVictims : (values t.victims).isEmpty with
        | true =>
            have hNone : ∀ v', t.victims.lookup pid ≠ some v' := by
              intro v' hv'
              have hMem : v' ∈ values t.victims := mem_values_iff.mpr ⟨pid, hv'⟩
              rw [List.isEmpty_iff.mp hVictims] at hMem
              cases hMem
            simp [SpikeTracker.drainIfNoneTracking, hVictims, Option.eq_none_iff_forall_ne_some,
              hNone]
        | false =>
            simp only [SpikeTracker.drainIfNoneTracking, hVictims, hAny, Bool.or_self,
              Bool.false_eq_true, if_false]
            rfl
      rw [hEmpty] at h
      cases h

theorem held_drainIfNoneTracking (t : SpikeTracker) : Held t.drainIfNoneTracking.1 := by
  intro pid v h
  rw [drainIfNoneTracking_spikes]
  exact (drainIfNoneTracking_lookup h).2

/-- The drain lets nobody go while a spike is Tracking. -/
theorem not_tracking_of_drained {pid : Pid} {v : SpikeVictim}
    (hBefore : t.victims.lookup pid = some v)
    (hAfter : t.drainIfNoneTracking.1.victims.lookup pid = none) :
    anyTracking t.spikes = false := by
  rw [← Bool.not_eq_true]
  intro hAny
  rw [drainIfNoneTracking_of_tracking hAny, hBefore] at hAfter
  cases hAfter

theorem foldl_releaseOne_lookup (now : Instant) (pids : List Pid) (pid : Pid)
    (acc : SpikeTracker × List SpikeVictim) :
    (pids.foldl (SpikeTracker.releaseOne now) acc).1.victims.lookup pid =
      if pid ∈ pids then none else acc.1.victims.lookup pid := by
  induction pids generalizing acc with
  | nil => simp
  | cons first rest ih =>
      have hFirst : (SpikeTracker.releaseOne now acc first).1.victims.lookup pid =
          if pid = first then none else acc.1.victims.lookup pid := by
        unfold SpikeTracker.releaseOne
        split
        · next hNone =>
            by_cases hEq : pid = first
            · rw [if_pos hEq, hEq, hNone]
            · rw [if_neg hEq]
        · exact lookup_erase_eq first pid _
      rw [List.foldl_cons, ih, hFirst]
      by_cases hRest : pid ∈ rest
      · simp [hRest]
      · by_cases hEq : pid = first
        · simp [hEq]
        · simp [hRest, hEq]

theorem releaseRequested_lookup (t : SpikeTracker) (now : Instant) (pids : List Pid)
    (pid : Pid) :
    (t.releaseRequested now pids).1.victims.lookup pid =
      if pid ∈ pids then none else t.victims.lookup pid :=
  foldl_releaseOne_lookup now pids pid (t, [])

/-- A release keeps what it leaves. -/
theorem of_releaseRequested_lookup {now : Instant} {pids : List Pid} {pid : Pid} {v : SpikeVictim}
    (h : (t.releaseRequested now pids).1.victims.lookup pid = some v) :
    t.victims.lookup pid = some v := by
  rw [releaseRequested_lookup] at h
  split at h
  · cases h
  · exact h

theorem of_drainTimedOut_lookup {now : Instant} {maxSecs : Nat} {pid : Pid} {v : SpikeVictim}
    (h : (t.drainTimedOutVictims now maxSecs).1.victims.lookup pid = some v) :
    t.victims.lookup pid = some v := by
  unfold SpikeTracker.drainTimedOutVictims at h
  split at h
  · exact h
  · exact of_releaseRequested_lookup h

/-- Who leaves by the timeout has been frozen that long. -/
theorem timedOut_of_left {now : Instant} {maxSecs : Nat} {pid : Pid} {v : SpikeVictim}
    (hKeyed : Keyed t) (hBefore : t.victims.lookup pid = some v)
    (hAfter : (t.drainTimedOutVictims now maxSecs).1.victims.lookup pid = none) :
    maxSecs ≠ 0 ∧ Instant.secsSince now v.frozenAt ≥ maxSecs := by
  unfold SpikeTracker.drainTimedOutVictims at hAfter
  split at hAfter
  · rw [hBefore] at hAfter
    cases hAfter
  · next hMax =>
      rw [releaseRequested_lookup] at hAfter
      split at hAfter
      · next hMem =>
          simp only [List.mem_map, List.mem_filter, mem_values_iff, decide_eq_true_eq] at hMem
          obtain ⟨w, ⟨⟨key, hw⟩, hLong⟩, hPid⟩ := hMem
          -- both are filed under `pid`
          have hKey : key = pid := (hKeyed key w hw).symm.trans hPid
          rw [hKey, hBefore] at hw
          cases hw
          exact ⟨hMax, hLong⟩
      · rw [hBefore] at hAfter
        cases hAfter

/-- Freezing for headroom adds victims, each under its own PID. -/
theorem freezeForHeadroom_lookup {spikePid : Pid} {needed : Kb} {procs : List Process} {pid : Pid}
    {v : SpikeVictim}
    (h : (freezeForHeadroom inp spikePid needed procs t).victims.lookup pid = some v) :
    t.victims.lookup pid = some v ∨ v.pid = pid := by
  induction procs generalizing needed t with
  | nil => exact Or.inl h
  | cons proc rest ih =>
      unfold freezeForHeadroom at h
      split at h
      · exact Or.inl h
      · split at h
        · exact ih h
        · split at h
          · cases ih h with
            | inl hRecorded =>
                simp only [SpikeTracker.recordVictimFrozen] at hRecorded
                rw [lookup_insert_eq] at hRecorded
                split at hRecorded
                · next hEq =>
                    cases hRecorded
                    exact Or.inr hEq.symm
                · exact Or.inl hRecorded
            | inr hPid => exact Or.inr hPid
          · exact ih h

theorem freezeForHeadroom_keeps {spikePid : Pid} {needed : Kb} {procs : List Process} {pid : Pid}
    (h : t.victims.lookup pid ≠ none) :
    (freezeForHeadroom inp spikePid needed procs t).victims.lookup pid ≠ none := by
  induction procs generalizing needed t with
  | nil => exact h
  | cons proc rest ih =>
      unfold freezeForHeadroom
      split
      · exact h
      · split
        · exact ih h
        · split
          · refine ih ?_
            simp only [SpikeTracker.recordVictimFrozen]
            rw [lookup_insert_eq]
            split
            · exact Option.some_ne_none _
            · exact h
          · exact ih h

end Ledger

/-! ## The update -/

theorem trackAll_decisions {p : Params} {now : Instant} {rssD : Map Pid Kb} {needed : Kb}
    (procs : List Process) (spikes : Map Pid SpikeState) :
    .freezeForHeadroom needed ∉ (trackAll p now rssD procs spikes).2.1 := by
  intro hMem
  obtain ⟨pid, cg, hEq⟩ := mem_trackAll_decisions p now rssD procs spikes hMem
  cases hEq

theorem checkCpuAll_decisions {p : Params} {foregroundPid : Option Pid} {needed : Kb}
    (procs : List Process) (spikes : Map Pid SpikeState) :
    .freezeForHeadroom needed ∉ (checkCpuAll p foregroundPid procs spikes).2 := by
  intro hMem
  obtain ⟨pid, cg, hEq | hEq⟩ := mem_checkCpuAll_decisions p foregroundPid procs spikes hMem
  · cases hEq
  · cases hEq

/-- Headroom is asked for on behalf of a Tracking spike. -/
theorem anyTracking_of_headroom {p : Params} {available needed : Kb} {spikes : Map Pid SpikeState}
    (h : .freezeForHeadroom needed ∈ headroomDecisions p available spikes) :
    anyTracking spikes = true := by
  by_cases hAny : anyTracking spikes = true
  · exact hAny
  · have hNone : (values spikes).filter (fun s => decide (s.phase = .tracking)) = [] := by
      rw [List.filter_eq_nil_iff]
      intro s hs hPhase
      exact hAny (List.any_eq_true.mpr ⟨s, hs, hPhase⟩)
    have hZero : ¬ 0 < (Kb.sum []).val := by decide
    unfold headroomDecisions at h
    rw [hNone] at h
    simp [hZero] at h

section UpdateSpec

variable (t : SpikeTracker) (procs : List Process) (p : Params) (now : Instant)

/-- Step 2 of the update: the states, the decisions, whether any was demoted. -/
def tracked : Map Pid SpikeState × List SpikeDecision × Bool :=
  trackAll p now (rssDeltas t.prevRss procs) procs
    (procs.foldl (register p t.prevRss (rssDeltas t.prevRss procs)
      (majfltDeltas t.prevMajflt procs)) t.spikes)

/-- The tracker before the drain. -/
def advanced : SpikeTracker where
  spikes := (tracked t procs p now).1
  victims := t.victims
  victimCooldowns := retain (fun _ at_ => decide (Instant.secsSince now at_ < 300))
    t.victimCooldowns
  prevRss := retain (fun pid _ => decide (pid ∈ procs.map Process.pid))
    (procs.foldl (fun m pr => m.insert pr.pid pr.rssKb) t.prevRss)
  prevMajflt := retain (fun pid _ => decide (pid ∈ procs.map Process.pid))
    (procs.foldl (fun m pr => m.insert pr.pid pr.majflt) t.prevMajflt)

/-- The tracker after the drain: a demotion releases the victims when it leaves
no spike Tracking. -/
def drained : SpikeTracker × List SpikeVictim :=
  if (tracked t procs p now).2.2 then (advanced t procs p now).drainIfNoneTracking
  else (advanced t procs p now, [])

theorem update_fst (available : Kb) (foregroundPid : Option Pid) :
    (t.update procs available p now foregroundPid).1 =
      { (drained t procs p now).1 with
        spikes := (checkCpuAll p foregroundPid procs (drained t procs p now).1.spikes).1 } := rfl

theorem drained_spikes : (drained t procs p now).1.spikes = (tracked t procs p now).1 := by
  unfold drained
  split
  · exact drainIfNoneTracking_spikes _
  · rfl

theorem update_tracking (available : Kb) (foregroundPid : Option Pid) :
    anyTracking (t.update procs available p now foregroundPid).1.spikes =
      anyTracking (tracked t procs p now).1 := by
  rw [update_fst]
  exact (anyTracking_checkCpuAll foregroundPid procs).trans
    (congrArg anyTracking (drained_spikes t procs p now))

theorem update_headroom {available : Kb} {foregroundPid : Option Pid} {needed : Kb}
    (h : .freezeForHeadroom needed ∈ (t.update procs available p now foregroundPid).2) :
    anyTracking (tracked t procs p now).1 = true := by
  have hParts : .freezeForHeadroom needed ∈ (tracked t procs p now).2.1 ++
      (if (drained t procs p now).2.isEmpty then []
        else [SpikeDecision.releaseVictims (drained t procs p now).2]) ++
      headroomDecisions p available (drained t procs p now).1.spikes ++
      (checkCpuAll p foregroundPid procs (drained t procs p now).1.spikes).2 := h
  simp only [List.mem_append] at hParts
  rcases hParts with ((hTracked | hRelease) | hHeadroom) | hChecked
  · exact absurd hTracked (trackAll_decisions procs _)
  · split at hRelease
    · cases hRelease
    · cases List.mem_singleton.mp hRelease
  · rw [drained_spikes] at hHeadroom
    exact anyTracking_of_headroom hHeadroom
  · exact absurd hChecked (checkCpuAll_decisions procs _)

/-- What the update leaves in the ledger was there, and is held for a Tracking
spike if it was before. -/
theorem update_lookup {available : Kb} {foregroundPid : Option Pid} {pid : Pid} {v : SpikeVictim}
    (hHeld : Held t)
    (h : (t.update procs available p now foregroundPid).1.victims.lookup pid = some v) :
    t.victims.lookup pid = some v ∧ anyTracking (tracked t procs p now).1 = true := by
  have hDrained : (drained t procs p now).1.victims.lookup pid = some v := h
  unfold drained at hDrained
  split at hDrained
  · exact drainIfNoneTracking_lookup hDrained
  · next hDemoted =>
      have hBefore : t.victims.lookup pid = some v := hDrained
      exact ⟨hBefore, anyTracking_trackAll procs
        (anyTracking_foldl_register _ _ _ procs (hHeld pid v hBefore))
        (Bool.not_eq_true _ ▸ hDemoted)⟩

/-- Who leaves in the update leaves by a demotion that ends all Tracking. -/
theorem not_tracking_of_updated {available : Kb} {foregroundPid : Option Pid} {pid : Pid}
    {v : SpikeVictim} (hBefore : t.victims.lookup pid = some v)
    (hAfter : (t.update procs available p now foregroundPid).1.victims.lookup pid = none) :
    anyTracking (tracked t procs p now).1 = false := by
  have hDrained : (drained t procs p now).1.victims.lookup pid = none := hAfter
  unfold drained at hDrained
  split at hDrained
  · exact not_tracking_of_drained (t := advanced t procs p now) hBefore hDrained
  · have hKept : t.victims.lookup pid = none := hDrained
    rw [hBefore] at hKept
    cases hKept

end UpdateSpec

/-! ## The promise -/

/-- What lets a victim go while a spike is Tracking. -/
def Excused (inp : SpikeInput) : Cause → Pid → SpikeVictim → Prop
  | .timeout, _, v =>
      inp.cfg.spikeMaxVictimFreezeSec ≠ 0 ∧
        Instant.secsSince inp.now v.frozenAt ≥ inp.cfg.spikeMaxVictimFreezeSec
  | .requested, pid, _ => pid ∈ inp.manualRelease
  | _, _, _ => False

/-- Who leaves in the move while a spike is Tracking is excused. -/
def LeavesExcused (inp : SpikeInput) (m : Move) : Prop :=
  ∀ pid v, m.before.victims.lookup pid = some v → m.after.victims.lookup pid = none →
    anyTracking m.after.spikes = true → Excused inp m.cause pid v

/-- After the cycle every victim is held for a Tracking spike, and in none of its
moves did a victim leave under a Tracking spike without an excuse. -/
structure ReleasedTogether (t : SpikeTracker) (inp : SpikeInput) : Prop where
  held : Held (runSpikeCycle t inp).1
  moves : Chained t (cycleMoves t inp) (runSpikeCycle t inp).1
  leaves : ∀ m ∈ cycleMoves t inp, LeavesExcused inp m

section Cycle

variable {t : SpikeTracker} {inp : SpikeInput}

theorem onSpikeExit_lookup {spikePid pid : Pid} {v : SpikeVictim}
    (h : (t.onSpikeExit spikePid).1.victims.lookup pid = some v) :
    t.victims.lookup pid = some v :=
  (drainIfNoneTracking_lookup h).1

theorem exitSpikes_lookup {exited : List Pid} {pid : Pid} {v : SpikeVictim}
    (h : (exitSpikes t exited).1.victims.lookup pid = some v) :
    t.victims.lookup pid = some v := by
  induction exited generalizing t with
  | nil => exact h
  | cons spikePid rest ih =>
      unfold exitSpikes at h
      rw [List.foldl_cons, foldl_exitOne_fst] at h
      exact onSpikeExit_lookup (ih h)

theorem not_tracking_of_exit {spikePid pid : Pid} {v : SpikeVictim}
    (hBefore : t.victims.lookup pid = some v)
    (hAfter : (t.onSpikeExit spikePid).1.victims.lookup pid = none) :
    anyTracking (t.spikes.erase spikePid) = false :=
  not_tracking_of_drained
    (t := { t with
      spikes := t.spikes.erase spikePid
      prevRss := t.prevRss.erase spikePid
      prevMajflt := t.prevMajflt.erase spikePid })
    hBefore hAfter

theorem exitMoves_excused (inp : SpikeInput) (t : SpikeTracker) (exited : List Pid) :
    ∀ m ∈ exitMoves t exited, LeavesExcused inp m := by
  induction exited generalizing t with
  | nil => exact fun m hm => absurd hm List.not_mem_nil
  | cons spikePid rest ih =>
      intro m hm
      cases List.mem_cons.mp hm with
      | inl hHere =>
          subst hHere
          intro pid v hBefore hAfter hAny
          dsimp only at hAny
          rw [onSpikeExit_spikes, not_tracking_of_exit hBefore hAfter] at hAny
          cases hAny
      | inr hRest => exact ih (t.onSpikeExit spikePid).1 m hRest

/-- Freezing for headroom lets nobody go. -/
theorem decisionMoves_excused (t : SpikeTracker) (ds : List SpikeDecision) :
    ∀ m ∈ decisionMoves inp t ds, LeavesExcused inp m := by
  induction ds generalizing t with
  | nil => exact fun m hm => absurd hm List.not_mem_nil
  | cons d rest ih =>
      intro m hm
      cases List.mem_cons.mp hm with
      | inl hHere =>
          subst hHere
          intro pid v hBefore hAfter
          have hSome : t.victims.lookup pid ≠ none := by
            rw [show t.victims.lookup pid = some v from hBefore]
            exact Option.some_ne_none v
          have hKept : (executeDecision inp t d).victims.lookup pid ≠ none := by
            cases d with
            | freezeForHeadroom needed => exact freezeForHeadroom_keeps hSome
            | throttleSpike spikePid cg => exact hSome
            | restoreThrottle spikePid cg => exact hSome
            | releaseVictims victims => exact hSome
          exact absurd hAfter hKept
      | inr hRest => exact ih (executeDecision inp t d) m hRest

theorem releaseMoves_excused (hKeyed : Keyed t) :
    ∀ m ∈ releaseMoves t inp, LeavesExcused inp m := by
  intro m hm
  simp only [releaseMoves, List.mem_append, List.mem_cons, List.not_mem_nil, or_false] at hm
  rcases hm with hExit | hTimeout | hOrphaned | hRequested
  · exact exitMoves_excused inp t _ m hExit
  · subst hTimeout
    intro pid v hBefore hAfter _
    have hKeyedExit : Keyed (exitSpikes t (exitedSpikes t inp.procs)).1 :=
      fun pid v h => hKeyed pid v (exitSpikes_lookup h)
    exact timedOut_of_left hKeyedExit hBefore hAfter
  · subst hOrphaned
    intro pid v hBefore hAfter hAny
    have hNone := not_tracking_of_drained hBefore hAfter
    dsimp only at hAny
    rw [drainOrphanedVictims_spikes, hNone] at hAny
    cases hAny
  · subst hRequested
    intro pid v hBefore hAfter _
    dsimp only at hBefore hAfter
    rw [releaseRequested_lookup] at hAfter
    split at hAfter
    · next hMem => exact hMem
    · rw [hBefore] at hAfter
      cases hAfter

theorem cycleMoves_excused (hKeyed : Keyed t) (hEnabled : inp.cfg.spikeModeEnabled = true) :
    ∀ m ∈ cycleMoves t inp, LeavesExcused inp m := by
  intro m hm
  simp only [cycleMoves, List.mem_append, List.mem_cons] at hm
  rcases hm with hRelease | hUpdated | hExecuted
  · exact releaseMoves_excused hKeyed m hRelease
  · subst hUpdated
    intro pid v hBefore hAfter hAny
    unfold spikeDecisions at hAfter hAny
    rw [if_pos hEnabled] at hAfter hAny
    dsimp only at hAfter hAny
    have hNone := not_tracking_of_updated _ _ _ _ hBefore hAfter
    rw [update_tracking, hNone] at hAny
    cases hAny
  · exact decisionMoves_excused _ _ m hExecuted

/-- After the releases every victim is held for a Tracking spike. -/
theorem held_releaseVictims (t : SpikeTracker) (inp : SpikeInput) :
    Held (releaseVictims t inp).1 := by
  intro pid v h
  have hOrphaned := of_releaseRequested_lookup h
  unfold releaseVictims
  dsimp only
  rw [releaseRequested_spikes]
  exact held_drainIfNoneTracking _ pid v hOrphaned

/-- A victim after the executions was one before, or was frozen by one of them. -/
theorem foldl_executeDecision_lookup {ds : List SpikeDecision} {pid : Pid} {v : SpikeVictim}
    (h : (ds.foldl (executeDecision inp) t).victims.lookup pid = some v) :
    t.victims.lookup pid = some v ∨
      (v.pid = pid ∧ ∃ needed, SpikeDecision.freezeForHeadroom needed ∈ ds) := by
  induction ds generalizing t with
  | nil => exact Or.inl h
  | cons d rest ih =>
      cases ih h with
      | inl hHere =>
          cases d with
          | freezeForHeadroom needed =>
              cases freezeForHeadroom_lookup hHere with
              | inl hBefore => exact Or.inl hBefore
              | inr hPid => exact Or.inr ⟨hPid, needed, List.mem_cons_self⟩
          | throttleSpike spikePid cg => exact Or.inl hHere
          | restoreThrottle spikePid cg => exact Or.inl hHere
          | releaseVictims victims => exact Or.inl hHere
      | inr hRest =>
          obtain ⟨hPid, needed, hMem⟩ := hRest
          exact Or.inr ⟨hPid, needed, List.mem_cons_of_mem d hMem⟩

/-- **After a cycle the victims are held for a Tracking spike.** -/
theorem held_runSpikeCycle (t : SpikeTracker) (hEnabled : inp.cfg.spikeModeEnabled = true) :
    Held (runSpikeCycle t inp).1 := by
  intro pid v h
  unfold runSpikeCycle at h ⊢
  dsimp only at h ⊢
  rw [foldl_executeDecision_spikes]
  unfold spikeDecisions at h ⊢
  rw [if_pos hEnabled] at h ⊢
  rw [update_tracking]
  cases foldl_executeDecision_lookup h with
  | inl hUpdated => exact (update_lookup _ _ _ _ (held_releaseVictims t inp) hUpdated).2
  | inr hFrozen =>
      obtain ⟨-, needed, hMem⟩ := hFrozen
      exact update_headroom _ _ _ _ hMem

/-- The releases only take victims away. -/
theorem of_releaseVictims_lookup {pid : Pid} {v : SpikeVictim}
    (h : (releaseVictims t inp).1.victims.lookup pid = some v) :
    t.victims.lookup pid = some v := by
  have hOrphaned := (drainIfNoneTracking_lookup (of_releaseRequested_lookup h)).1
  exact exitSpikes_lookup (of_drainTimedOut_lookup hOrphaned)

/-- And so do the decisions. -/
theorem of_spikeDecisions_lookup {pid : Pid} {v : SpikeVictim}
    (h : (spikeDecisions (releaseVictims t inp).1 inp).1.victims.lookup pid = some v) :
    (releaseVictims t inp).1.victims.lookup pid = some v := by
  unfold spikeDecisions at h
  split at h
  · exact (update_lookup _ _ _ _ (held_releaseVictims t inp) h).1
  · exact h

theorem keyed_runSpikeCycle (hKeyed : Keyed t) : Keyed (runSpikeCycle t inp).1 := by
  intro pid v h
  unfold runSpikeCycle at h
  dsimp only at h
  cases foldl_executeDecision_lookup h with
  | inl hDecided =>
      exact hKeyed pid v (of_releaseVictims_lookup (of_spikeDecisions_lookup hDecided))
  | inr hFrozen => exact hFrozen.1

end Cycle

theorem keyed_new : Keyed SpikeTracker.new := fun pid v h => by cases h

/-- One cycle. -/
def step (t : SpikeTracker) (inp : SpikeInput) : SpikeTracker := (runSpikeCycle t inp).1

/--
**Collective release**, along every sequence of cycles with spike mode enabled:
after each cycle a recorded victim has a Tracking spike, and a victim leaves the
ledger under a Tracking spike only by the timeout or a manual request.
-/
theorem releasedTogether_of_enabled (inputs : List SpikeInput)
    (hEnabled : ∀ inp ∈ inputs, inp.cfg.spikeModeEnabled = true) :
    EveryStep step ReleasedTogether SpikeTracker.new inputs := by
  exact everyStep_of_invariant
    (fun t inp hInv _ => keyed_runSpikeCycle hInv)
    (fun t inp hInv hOn =>
      ⟨held_runSpikeCycle t hOn, chained_cycleMoves t inp, cycleMoves_excused hInv hOn⟩)
    keyed_new (everyStep_of_forall_mem hEnabled SpikeTracker.new)

/-! ## A build session -/

def sessionConfig : CompiledConfig :=
  { CompiledConfig.ofEmpty 15 with
    spikeModeEnabled := true
    spikeInclude := [Regex.exact "rustc"]
    entries := [⟨Regex.exact "baloo_file", 90, none⟩] }

/-- A cycle of a machine with 100 MB available. -/
def sessionInput (secs : Nat) (procs : List Process) : SpikeInput where
  cfg := sessionConfig
  procs := procs
  available := Kb.clamp 100000
  manualRelease := []
  foregroundPid := none
  activePid := none
  frozenPids := []
  startTime := fun _ => some 100
  kill := fun _ _ => none
  now := Instant.ofSecs secs

def sessionProcess (pid : UInt32) (name : String) (rss : Nat) : Process where
  pid := ⟨pid⟩
  name := name
  exeBasename := none
  rssKb := Kb.clamp rss
  swapKb := Kb.clamp 0
  oomScore := 0
  cgroupPath := none
  cpuPct := 50
  majflt := 0
  cmdline := ""

def indexer : Process := sessionProcess 200 "baloo_file" 500000

/-- The compiler peaks and drops six times and is gone in the end. -/
def session : List SpikeInput :=
  [sessionInput 5 [sessionProcess 100 "rustc" 100000, indexer],
    sessionInput 10 [sessionProcess 100 "rustc" 900000, indexer],
    sessionInput 15 [sessionProcess 100 "rustc" 300000, indexer],
    sessionInput 20 [sessionProcess 100 "rustc" 900000, indexer],
    sessionInput 25 [sessionProcess 100 "rustc" 300000, indexer],
    sessionInput 30 [sessionProcess 100 "rustc" 900000, indexer],
    sessionInput 35 [indexer]]

/-- The indexer is frozen in the sixth cycle and released in the seventh. -/
theorem session_releases_indexer :
    (run step SpikeTracker.new (session.take 6)).victimPids = [⟨200⟩] ∧
      (run step SpikeTracker.new session).victimPids = [] ∧
      EveryStep step ReleasedTogether SpikeTracker.new session :=
  ⟨by decide +kernel, by decide +kernel,
    releasedTogether_of_enabled session (by decide +kernel)⟩

end Mgd.Evictor.CollectiveRelease
