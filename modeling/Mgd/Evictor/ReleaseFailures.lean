import Mgd.FreezeCrash
import Mgd.ManualRelease

/-!
# Releases whose SIGCONT fails

Spike mode lets victims go on five routes: the exit of the last Tracking spike,
its idle demotion, the timeout, the sweep of orphans and a manual request.  Each
takes the victims out of the tracker and writes the rest down, and only then
calls `unfreeze_checked`, whose failure changes nothing.  The recovery pass does
it the other way round: it removes an entry after a success.

`failedRelease_kept_iff` : a route keeps the victims it fails to resume exactly
when it has none, or leaves its file as it was.
-/

namespace Mgd.Evictor.ReleaseFailures

open Mgd.Types Mgd.Monitor Mgd.Config Mgd.Lib.AssocMap Mgd.SpikeMode
open Mgd.Executor.Registry Mgd.Evictor.Spike Mgd.Evictor.CollectiveRelease
open Mgd.FocusUnfreeze Mgd.ManualRelease Mgd.FreezeCrash
open Mgd.Lib (StateFile WriteResult)

/-! ## The routes -/

/-- The victims, in memory and in `spike_victims.json`. -/
structure Ledger where
  tracker : SpikeTracker
  keyed : Keyed tracker
  file : StateFile (List VictimRecord)

/-- A route and what it reads. -/
inductive Route
  /-- `on_spike_exit` for every spike that is gone -/
  | exit (procs : List Process)
  /-- the update of a cycle, with its idle demotions -/
  | idle (procs : List Process) (available : Kb) (p : Params) (now : Instant)
      (foregroundPid : Option Pid)
  | timeout (now : Instant) (maxSecs : Nat)
  | orphaned
  | requested (now : Instant) (pids : List Pid)

/-- The tracker after a route, and the victims it hands to `unfreeze_checked`. -/
def Route.drain (route : Route) (t : SpikeTracker) : SpikeTracker × List SpikeVictim :=
  match route with
  | .exit procs => exitSpikes t (exitedSpikes t procs)
  | .idle procs available p now foregroundPid =>
      let updated := t.update procs available p now foregroundPid
      (updated.1, updated.2.flatMap decisionReleases)
  | .timeout now maxSecs => t.drainTimedOutVictims now maxSecs
  | .orphaned => t.drainOrphanedVictims
  | .requested now pids => t.releaseRequested now pids

/-- What the system answers during a route. -/
structure Answers where
  kill : KillSyscall
  startTime : Pid → Option Nat
  save : WriteResult

/-- `unfreeze_checked` on a victim. -/
def Answers.unfreeze (a : Answers) (v : SpikeVictim) : OpResult :=
  unfreezeChecked a.kill a.startTime v.pid v.startTime

/-- The file after a route: `persist_victims` runs when somebody was drained.  The
outcomes of `unfreeze_checked` do not come into it. -/
def Route.fileAfter (route : Route) (l : Ledger) (save : WriteResult) :
    StateFile (List VictimRecord) :=
  if (route.drain l.tracker).2.isEmpty then l.file
  else l.file.write (persisted (route.drain l.tracker).1) save

/-- A victim that is missing from the tracker and from the file after the route
was unfrozen with success. -/
def KeepsFailed (route : Route) (l : Ledger) (a : Answers) : Prop :=
  ∀ pid v, l.tracker.victims.lookup pid = some v →
    (route.drain l.tracker).1.victims.lookup pid = none →
    SpikeVictim.record v ∉ (route.fileAfter l a.save).read [] →
    (a.unfreeze v).success = true

/-- The route lets the victim go. -/
def Route.Due (route : Route) (t : SpikeTracker) (v : SpikeVictim) : Prop :=
  match route with
  | .exit procs => exitedSpikes t procs ≠ [] ∧ ¬ StillTracking t procs
  | .idle procs _ p now _ =>
      (tracked t procs p now).2.2 = true ∧ anyTracking (tracked t procs p now).1 = false
  | .timeout now maxSecs => maxSecs ≠ 0 ∧ Instant.secsSince now v.frozenAt ≥ maxSecs
  | .orphaned => anyTracking t.spikes = false
  | .requested _ pids => v.pid ∈ pids

/-! ## Who leaves on a route -/

section Leaving

variable {t : SpikeTracker} {pid : Pid} {v : SpikeVictim}

theorem drainIfNoneTracking_leaves_iff (hVictim : t.victims.lookup pid = some v) :
    t.drainIfNoneTracking.1.victims.lookup pid = none ↔ anyTracking t.spikes = false := by
  constructor
  · exact not_tracking_of_drained hVictim
  · intro hNone
    rw [Option.eq_none_iff_forall_ne_some]
    intro u hu
    have hTracking := (drainIfNoneTracking_lookup hu).2
    rw [hNone] at hTracking
    cases hTracking

/-- The last exit settles it. -/
theorem held_exitSpikes {exited : List Pid} (hSome : exited ≠ []) :
    Held (exitSpikes t exited).1 := by
  induction exited generalizing t with
  | nil => exact absurd rfl hSome
  | cons spikePid rest ih =>
      have hCons := exitSpikes_cons t spikePid rest
      rw [hCons]
      cases rest with
      | nil =>
          unfold exitSpikes SpikeTracker.onSpikeExit
          exact held_drainIfNoneTracking _
      | cons next rest => exact ih (List.cons_ne_nil _ _)

theorem exit_leaves_iff {procs : List Process} (hVictim : t.victims.lookup pid = some v) :
    (exitSpikes t (exitedSpikes t procs)).1.victims.lookup pid = none ↔
      exitedSpikes t procs ≠ [] ∧ ¬ StillTracking t procs := by
  by_cases hTracking : StillTracking t procs
  · have hSame := exitSpikes_victims (anyTracking_exitSpikes_iff.mpr hTracking)
    rw [hSame, hVictim]
    exact iff_of_false (Option.some_ne_none v) (fun h => h.2 hTracking)
  · by_cases hGone : exitedSpikes t procs = []
    · rw [hGone]
      refine iff_of_false ?_ (fun h => h.1 rfl)
      show t.victims.lookup pid ≠ none
      rw [hVictim]
      exact Option.some_ne_none v
    · refine iff_of_true ?_ ⟨hGone, hTracking⟩
      rw [Option.eq_none_iff_forall_ne_some]
      intro u hu
      exact hTracking (anyTracking_exitSpikes_iff.mp (held_exitSpikes hGone pid u hu))

theorem idle_leaves_iff (procs : List Process) (available : Kb) (p : Params) (now : Instant)
    (foregroundPid : Option Pid) (hVictim : t.victims.lookup pid = some v) :
    (t.update procs available p now foregroundPid).1.victims.lookup pid = none ↔
      (tracked t procs p now).2.2 = true ∧ anyTracking (tracked t procs p now).1 = false := by
  have hVictims : (t.update procs available p now foregroundPid).1.victims =
      (drained t procs p now).1.victims := rfl
  rw [hVictims]
  unfold drained
  cases hDemoted : (tracked t procs p now).2.2 with
  | true =>
      rw [if_pos rfl, and_iff_right rfl]
      exact drainIfNoneTracking_leaves_iff (t := advanced t procs p now) hVictim
  | false =>
      rw [if_neg Bool.false_ne_true]
      refine iff_of_false ?_ (fun h => Bool.false_ne_true h.1)
      show t.victims.lookup pid ≠ none
      rw [hVictim]
      exact Option.some_ne_none v

theorem timeout_leaves_iff {now : Instant} {maxSecs : Nat} (hKeyed : Keyed t)
    (hVictim : t.victims.lookup pid = some v) :
    (t.drainTimedOutVictims now maxSecs).1.victims.lookup pid = none ↔
      maxSecs ≠ 0 ∧ Instant.secsSince now v.frozenAt ≥ maxSecs := by
  constructor
  · exact timedOut_of_left hKeyed hVictim
  · intro hLong
    obtain ⟨hMax, hLong⟩ := hLong
    unfold SpikeTracker.drainTimedOutVictims
    rw [if_neg hMax, releaseRequested_lookup, if_pos]
    simp only [List.mem_map, List.mem_filter, mem_values_iff, decide_eq_true_eq]
    exact ⟨v, ⟨⟨pid, hVictim⟩, hLong⟩, hKeyed pid v hVictim⟩

/-- **Who leaves.** -/
theorem leaves_iff (route : Route) (hKeyed : Keyed t) (hVictim : t.victims.lookup pid = some v) :
    (route.drain t).1.victims.lookup pid = none ↔ route.Due t v := by
  cases route with
  | exit procs => exact exit_leaves_iff hVictim
  | idle procs available p now foregroundPid =>
      exact idle_leaves_iff procs available p now foregroundPid hVictim
  | timeout now maxSecs => exact timeout_leaves_iff hKeyed hVictim
  | orphaned => exact drainIfNoneTracking_leaves_iff hVictim
  | requested now pids =>
      have hPid : v.pid = pid := hKeyed pid v hVictim
      show (t.releaseRequested now pids).1.victims.lookup pid = none ↔ v.pid ∈ pids
      rw [releaseRequested_lookup, hPid]
      by_cases hMem : pid ∈ pids
      · rw [if_pos hMem]
        exact iff_of_true rfl hMem
      · rw [if_neg hMem, hVictim]
        exact iff_of_false (Option.some_ne_none v) hMem

/-- Victims go nowhere but to `unfreeze_checked`. -/
theorem conserves_drain (route : Route) (hKeyed : Keyed t) :
    Conserves t (route.drain t).1 (route.drain t).2 := by
  cases route with
  | exit procs => exact conserves_exitSpikes hKeyed _
  | idle procs available p now foregroundPid =>
      exact conserves_update hKeyed procs available p now foregroundPid
  | timeout now maxSecs => exact conserves_drainTimedOut hKeyed now maxSecs
  | orphaned => exact conserves_drainIfNoneTracking hKeyed
  | requested now pids => exact conserves_releaseRequested hKeyed now pids

theorem drained_ne_nil_of_left (route : Route) (hKeyed : Keyed t)
    (hVictim : t.victims.lookup pid = some v)
    (hLeft : (route.drain t).1.victims.lookup pid = none) : (route.drain t).2 ≠ [] := by
  intro hNobody
  have hPid := conserves_drain route hKeyed pid
  rw [hNobody, hLeft, hVictim] at hPid
  cases hPid

/-- Who has left is not in what is written down. -/
theorem record_not_mem_persisted {route : Route} (hKeyed : Keyed t)
    (hVictim : t.victims.lookup pid = some v)
    (hLeft : (route.drain t).1.victims.lookup pid = none) :
    SpikeVictim.record v ∉ persisted (route.drain t).1 := by
  intro hMem
  unfold persisted at hMem
  obtain ⟨u, hu, hRecord⟩ := List.mem_map.mp hMem
  obtain ⟨key, hKey⟩ := mem_values_iff.mp hu
  have hPid : u.pid = v.pid := congrArg VictimRecord.pid hRecord
  have hKeyedAfter := (conserves_drain route hKeyed).keyed hKeyed
  rw [hKeyedAfter key u hKey, hKeyed pid v hVictim] at hPid
  rw [hPid, hLeft] at hKey
  cases hKey

end Leaving

/-- What is left of the file of a victim that has gone: its record of before, when
the write could not open the file. -/
theorem record_mem_fileAfter_iff {route : Route} {l : Ledger} {save : WriteResult} {pid : Pid}
    {v : SpikeVictim} (hVictim : l.tracker.victims.lookup pid = some v)
    (hLeft : (route.drain l.tracker).1.victims.lookup pid = none) :
    SpikeVictim.record v ∈ (route.fileAfter l save).read [] ↔
      save = .unopened ∧ SpikeVictim.record v ∈ l.file.read [] := by
  have hSome := drained_ne_nil_of_left route l.keyed hVictim hLeft
  unfold Route.fileAfter
  rw [if_neg (by simpa using hSome)]
  cases save with
  | written =>
      refine iff_of_false (record_not_mem_persisted l.keyed hVictim hLeft) ?_
      exact fun h => WriteResult.noConfusion h.1
  | unopened => exact (and_iff_right rfl).symm
  | cutShort =>
      refine iff_of_false List.not_mem_nil ?_
      exact fun h => WriteResult.noConfusion h.1

/-- **When a failed release keeps its victim**: on no victim that is due on the
route does `unfreeze_checked` fail, or the file could not be opened and still holds
the victim. -/
theorem failedRelease_kept_iff (route : Route) (l : Ledger) (a : Answers) :
    KeepsFailed route l a ↔
      ∀ pid v, l.tracker.victims.lookup pid = some v → route.Due l.tracker v →
        (a.unfreeze v).success = true ∨
          a.save = .unopened ∧ SpikeVictim.record v ∈ l.file.read [] := by
  unfold KeepsFailed
  refine forall_congr' fun pid => forall_congr' fun v => ?_
  refine forall_congr' fun hVictim => ?_
  rw [leaves_iff route l.keyed hVictim]
  refine forall_congr' fun hDue => ?_
  rw [record_mem_fileAfter_iff hVictim ((leaves_iff route l.keyed hVictim).mpr hDue),
    or_comm, or_iff_not_imp_left]

/-! ## A victim that is lost -/

def frozenIndexer : SpikeVictim where
  pid := ⟨200⟩
  name := "baloo_file"
  startTime := 100
  frozenForSpikePid := ⟨100⟩
  frozenAt := Instant.ofSecs 30

def indexerHeld : Ledger where
  tracker := SpikeTracker.new.recordVictimFrozen frozenIndexer
  keyed := by
    intro pid v hVictim
    have hLookup : (if pid = frozenIndexer.pid then some frozenIndexer
        else (∅ : Map Pid SpikeVictim).lookup pid) = some v :=
      (lookup_insert_eq _ _ _ _).symm.trans hVictim
    split at hLookup
    · next hPid => exact (congrArg SpikeVictim.pid (Option.some.inj hLookup)).symm.trans hPid.symm
    · cases hLookup
  file := .whole [SpikeVictim.record frozenIndexer]

/-- SIGCONT is refused. -/
def refused : Answers where
  kill _ _ := some "Operation not permitted (os error 1)"
  startTime _ := some 100
  save := .written

/-- **The indexer is asked for, not resumed, and forgotten.** -/
theorem indexer_lost :
    (refused.unfreeze frozenIndexer).success = false ∧
      ((Route.requested (Instant.ofSecs 60) [⟨200⟩]).drain indexerHeld.tracker).1.victimPids = [] ∧
      ((Route.requested (Instant.ofSecs 60) [⟨200⟩]).fileAfter indexerHeld .written).read [] = [] ∧
      ¬ KeepsFailed (.requested (Instant.ofSecs 60) [⟨200⟩]) indexerHeld refused := by
  have hRefused : (refused.unfreeze frozenIndexer).success = false := by decide
  have hFile : ((Route.requested (Instant.ofSecs 60) [⟨200⟩]).fileAfter indexerHeld
      .written).read [] = [] := by decide +kernel
  refine ⟨hRefused, by decide +kernel, hFile, ?_⟩
  intro hKeeps
  have hVictim : indexerHeld.tracker.victims.lookup ⟨200⟩ = some frozenIndexer :=
    AList.lookup_insert _
  have hLeft := (leaves_iff (.requested (Instant.ofSecs 60) [⟨200⟩]) indexerHeld.keyed
    hVictim).mpr (List.mem_singleton_self _)
  have hSuccess := hKeeps ⟨200⟩ frozenIndexer hVictim hLeft (hFile ▸ List.not_mem_nil)
  rw [hRefused] at hSuccess
  cases hSuccess

end Mgd.Evictor.ReleaseFailures
