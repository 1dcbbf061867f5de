import Mgd.FocusUnfreeze
import Mgd.Lib.Mailbox

/-!
# Releases asked for by hand

`mgctl unfreeze` of a spike victim appends the PID to a queue, as only the
evictor owns the tracker.  The evictor empties the queue in the middle of an
iteration, on a timeout of the PSI wait and in the full cycle, and hands what it
took to `release_victims`; an iteration that ends with a PSI error does not get
that far.  A reload and the death of the trigger helper happen on the way.

Four other rules may let a victim go before the requests are looked at.
`conserves_signalled` follows the victims through all of them: each leaves at
most once, with one SIGCONT.
-/

namespace Mgd.ManualRelease

open Mgd.Types Mgd.Monitor Mgd.Config Mgd.Lib.AssocMap Mgd.Lib.Run Mgd.Lib.Mailbox
open Mgd.SpikeMode Mgd.Evictor.Spike Mgd.FocusUnfreeze
open Mgd.Evictor.CollectiveRelease (Keyed keyed_new keyed_runSpikeCycle foldl_exitOne_fst tracked
  advanced drained releaseRequested_lookup of_spikeDecisions_lookup session sessionInput
  sessionProcess indexer)

/-! ## The evictor and the queue -/

inductive Phase
  /-- at the head of the loop -/
  | between
  /-- an iteration has started, with this tracker -/
  | started (tracker : SpikeTracker)
  /-- it has emptied the queue -/
  | took (tracker : SpikeTracker) (manual : List Pid)

namespace Phase

/-- What the iteration under way has taken. -/
def taken : Phase → List (List Pid)
  | .took _ manual => [manual]
  | _ => []

/-- The tracker as the iteration under way found it. -/
def found : Phase → Option SpikeTracker
  | .between => none
  | .started tracker => some tracker
  | .took tracker _ => some tracker

end Phase

/-- An iteration that reached the spike-mode cycle. -/
structure Iteration where
  /-- the tracker when the iteration started -/
  start : SpikeTracker
  /-- the tracker when the cycle began -/
  before : SpikeTracker
  inp : SpikeInput

structure World where
  tracker : SpikeTracker
  /-- `spike_release_requests` -/
  requests : Box Pid
  phase : Phase
  iterations : List Iteration

def start : World where
  tracker := .new
  requests := .empty
  phase := .between
  iterations := []

inductive Move
  /-- The IPC thread queues the victims that match. -/
  | request (pids : List Pid)
  | beginIteration
  | reload
  /-- The trigger helper has exited; it is respawned and the cycle goes on. -/
  | helperDied
  /-- PSI cannot be read: the iteration is over. -/
  | psiError
  /-- The wait has timed out, or the full cycle is this far. -/
  | take
  /-- `run_spike_cycle` with what was taken. -/
  | spikeCycle (inp : SpikeInput)

def step (w : World) : Move → World
  | .request pids => { w with requests := w.requests.send pids }
  | .beginIteration =>
      match w.phase with
      | .between => { w with phase := .started w.tracker }
      | _ => w
  | .reload => w
  | .helperDied => w
  | .psiError =>
      match w.phase with
      | .started _ => { w with phase := .between }
      | _ => w
  | .take =>
      match w.phase with
      | .started tracker =>
          { w with phase := .took tracker w.requests.queue, requests := w.requests.take }
      | _ => w
  | .spikeCycle inp =>
      match w.phase with
      | .took tracker manual =>
          let given := { inp with manualRelease := manual }
          { w with
            tracker := (runSpikeCycle w.tracker given).1
            phase := .between
            iterations := w.iterations ++ [⟨tracker, w.tracker, given⟩] }
      | _ => w

/-- The victims of this PID among those that get SIGCONT. -/
def signalsTo (pid : Pid) (victims : List SpikeVictim) : List SpikeVictim :=
  victims.filter fun v => decide (v.pid = pid)

/-- A victim that was asked for gets one `unfreeze_checked`, with the start time
recorded when it was frozen, and its entry is gone. -/
def Released (it : Iteration) : Prop :=
  ∀ pid ∈ it.inp.manualRelease, ∀ v, it.start.victims.lookup pid = some v →
    signalsTo pid (signalled it.before it.inp) = [v] ∧
      (releaseVictims it.before it.inp).1.victims.lookup pid = none

/-- Every request is taken once, by the first iteration that takes any, and what
an iteration takes it releases. -/
structure Served (w : World) : Prop where
  once : w.requests.takes.flatMap Take.items ++ w.requests.queue = w.requests.sent
  first : ∀ earlier t later, w.requests.takes = earlier ++ t :: later →
    t.items = (w.requests.sent.take t.seen).drop (seenBy earlier)
  iterations : w.requests.takes.map Take.items =
    w.iterations.map (fun it => it.inp.manualRelease) ++ w.phase.taken
  released : ∀ it ∈ w.iterations, Released it

/-- How a request gets from the queue to a cycle.  It is appended; an iteration
that gets as far as a take empties the queue and has what was in it; the cycle of
that iteration is given exactly this; and no other move touches the queue. -/
def HandsOver (w : World) (m : Move) : Prop :=
  match m with
  | .request pids =>
      (step w m).requests.queue = w.requests.queue ++ pids ∧
        (step w m).requests.sent = w.requests.sent ++ pids
  | .beginIteration =>
      (step w m).requests = w.requests ∧
        (w.phase = .between → (step w m).phase = .started w.tracker)
  | .reload => step w m = w
  | .helperDied => step w m = w
  | .psiError => (step w m).requests = w.requests ∧ (step w m).iterations = w.iterations
  | .take =>
      ∀ tracker, w.phase = .started tracker →
        (step w m).requests.queue = [] ∧ (step w m).phase = .took tracker w.requests.queue ∧
          ∃ t, (step w m).requests.takes = w.requests.takes ++ [t] ∧ t.items = w.requests.queue
  | .spikeCycle inp =>
      ∀ tracker manual, w.phase = .took tracker manual →
        (step w m).requests = w.requests ∧ (step w m).phase = .between ∧
          ∃ t, w.requests.takes.getLast? = some t ∧
            (step w m).iterations =
              w.iterations ++ [⟨tracker, w.tracker, { inp with manualRelease := t.items }⟩]

/-! ## Where the victims go -/

/-- For every PID, the victim before is the one signalled or the one after. -/
def Conserves (t t' : SpikeTracker) (victims : List SpikeVictim) : Prop :=
  ∀ pid, signalsTo pid victims ++ (t'.victims.lookup pid).toList = (t.victims.lookup pid).toList

section Conservation

variable {t t' t'' : SpikeTracker} {inp : SpikeInput} {vs ws : List SpikeVictim}

theorem conserves_refl (t : SpikeTracker) : Conserves t t [] := fun _ => rfl

theorem Conserves.of_victims_eq (h : t'.victims = t.victims) : Conserves t t' [] := by
  intro pid
  rw [h]
  rfl

theorem Conserves.trans (h : Conserves t t' vs) (h' : Conserves t' t'' ws) :
    Conserves t t'' (vs ++ ws) := by
  intro pid
  have hFilter : signalsTo pid (vs ++ ws) = signalsTo pid vs ++ signalsTo pid ws :=
    List.filter_append ..
  rw [hFilter, List.append_assoc, h' pid, h pid]

/-- What stays is what was there. -/
theorem Conserves.lookup (h : Conserves t t' vs) {pid : Pid} {v : SpikeVictim}
    (hAfter : t'.victims.lookup pid = some v) : t.victims.lookup pid = some v := by
  have hPid := h pid
  rw [hAfter] at hPid
  cases hBefore : t.victims.lookup pid with
  | none =>
      rw [hBefore] at hPid
      simp at hPid
  | some u =>
      rw [hBefore] at hPid
      have hLast := congrArg List.getLast? hPid
      simp at hLast
      rw [hLast]

theorem Conserves.keyed (h : Conserves t t' vs) (hKeyed : Keyed t) : Keyed t' :=
  fun pid v hv => hKeyed pid v (h.lookup hv)

/-- Each PID is signalled as its own entry says. -/
theorem signalsTo_snd {entries : List (Sigma fun _ : Pid => SpikeVictim)}
    (hNodup : entries.NodupKeys) (hKeyed : ∀ e ∈ entries, e.2.pid = e.1) (pid : Pid) :
    signalsTo pid (entries.map Sigma.snd) = (entries.dlookup pid).toList := by
  induction entries with
  | nil => rfl
  | cons e rest ih =>
      obtain ⟨key, v⟩ := e
      have hRest := ih (List.nodupKeys_cons.mp hNodup).2 fun e he =>
        hKeyed e (List.mem_cons_of_mem _ he)
      have hKey : v.pid = key := hKeyed ⟨key, v⟩ List.mem_cons_self
      unfold signalsTo at hRest ⊢
      by_cases hPid : key = pid
      · subst hPid
        have hNone : rest.dlookup key = none :=
          List.dlookup_eq_none.mpr (List.nodupKeys_cons.mp hNodup).1
        rw [hNone] at hRest
        rw [List.map_cons, List.filter_cons_of_pos (by simpa using hKey), hRest,
          List.dlookup_cons_eq]
        rfl
      · rw [List.map_cons, List.filter_cons_of_neg (by simpa [hKey] using hPid), hRest,
          List.dlookup_cons_ne _ _ (Ne.symm hPid)]

theorem conserves_drainIfNoneTracking (hKeyed : Keyed t) :
    Conserves t t.drainIfNoneTracking.1 t.drainIfNoneTracking.2 := by
  unfold SpikeTracker.drainIfNoneTracking
  split
  · exact conserves_refl t
  · intro pid
    have hAll := signalsTo_snd t.victims.nodupKeys
      (fun e he => hKeyed e.1 e.2 (lookup_eq_some_iff.mpr he)) pid
    rw [AList.lookup_empty, Option.toList_none, List.append_nil]
    exact hAll

/-- One entry leaves. -/
theorem conserves_releaseOne (now : Instant) {acc : SpikeTracker × List SpikeVictim}
    (h : Conserves t acc.1 acc.2) (hKeyed : Keyed t) (pid : Pid) :
    Conserves t (SpikeTracker.releaseOne now acc pid).1
      (SpikeTracker.releaseOne now acc pid).2 := by
  unfold SpikeTracker.releaseOne
  split
  · exact h
  · next v hv =>
      have hPid : v.pid = pid := h.keyed hKeyed pid v hv
      refine Conserves.trans h (?_ : Conserves _ _ [v])
      intro other
      rw [lookup_erase_eq]
      by_cases hOther : other = pid
      · rw [if_pos hOther, hOther, hv]
        simp [signalsTo, hPid]
      · rw [if_neg hOther]
        have hNe : v.pid ≠ other := fun hEq => hOther (hEq.symm.trans hPid)
        simp [signalsTo, hNe]

theorem conserves_foldl_releaseOne (now : Instant) (hKeyed : Keyed t) (pids : List Pid)
    {acc : SpikeTracker × List SpikeVictim} (h : Conserves t acc.1 acc.2) :
    Conserves t (pids.foldl (SpikeTracker.releaseOne now) acc).1
      (pids.foldl (SpikeTracker.releaseOne now) acc).2 := by
  induction pids generalizing acc with
  | nil => exact h
  | cons pid rest ih => exact ih (conserves_releaseOne now h hKeyed pid)

theorem conserves_releaseRequested (hKeyed : Keyed t) (now : Instant) (pids : List Pid) :
    Conserves t (t.releaseRequested now pids).1 (t.releaseRequested now pids).2 :=
  conserves_foldl_releaseOne now hKeyed pids (conserves_refl t)

theorem conserves_drainTimedOut (hKeyed : Keyed t) (now : Instant) (maxSecs : Nat) :
    Conserves t (t.drainTimedOutVictims now maxSecs).1 (t.drainTimedOutVictims now maxSecs).2 := by
  unfold SpikeTracker.drainTimedOutVictims
  split
  · exact conserves_refl t
  · exact conserves_releaseRequested hKeyed now _

theorem conserves_exitSpikes (hKeyed : Keyed t) (exited : List Pid) :
    Conserves t (exitSpikes t exited).1 (exitSpikes t exited).2 := by
  suffices hFold : ∀ acc : SpikeTracker × List SpikeVictim, Conserves t acc.1 acc.2 →
      Conserves t (exited.foldl exitOne acc).1 (exited.foldl exitOne acc).2 from
    hFold (t, []) (conserves_refl t)
  induction exited with
  | nil => exact fun acc h => h
  | cons spikePid rest ih =>
      intro acc h
      have hExit : Conserves acc.1 (acc.1.onSpikeExit spikePid).1
          (acc.1.onSpikeExit spikePid).2 := by
        unfold SpikeTracker.onSpikeExit
        exact conserves_drainIfNoneTracking (t := { acc.1 with
          spikes := acc.1.spikes.erase spikePid
          prevRss := acc.1.prevRss.erase spikePid
          prevMajflt := acc.1.prevMajflt.erase spikePid }) (h.keyed hKeyed)
      exact ih _ (h.trans hExit)

/-- **The four releases.** -/
theorem conserves_releaseVictims (hKeyed : Keyed t) (inp : SpikeInput) :
    Conserves t (releaseVictims t inp).1 (releaseVictims t inp).2 := by
  have hExit := conserves_exitSpikes hKeyed (exitedSpikes t inp.procs)
  have hExitKeyed := hExit.keyed hKeyed
  have hTimed := conserves_drainTimedOut hExitKeyed inp.now inp.cfg.spikeMaxVictimFreezeSec
  have hTimedKeyed := hTimed.keyed hExitKeyed
  have hOrphaned := conserves_drainIfNoneTracking hTimedKeyed
  have hOrphanedKeyed := hOrphaned.keyed hTimedKeyed
  have hRequested := conserves_releaseRequested hOrphanedKeyed inp.now inp.manualRelease
  exact ((hExit.trans hTimed).trans hOrphaned).trans hRequested

/-! ### The update -/

/-- Decisions of the other kinds release nobody. -/
theorem flatMap_releases_eq_nil {ds : List SpikeDecision}
    (h : ∀ d ∈ ds, decisionReleases d = []) : ds.flatMap decisionReleases = [] :=
  List.flatMap_eq_nil_iff.mpr h

theorem trackAll_releases {p : Params} {now : Instant} {rssD : Map Pid Kb} (procs : List Process)
    (spikes : Map Pid SpikeState) :
    (trackAll p now rssD procs spikes).2.1.flatMap decisionReleases = [] := by
  refine flatMap_releases_eq_nil fun d hd => ?_
  obtain ⟨pid, cg, rfl⟩ := mem_trackAll_decisions p now rssD procs spikes hd
  rfl

theorem checkCpuAll_releases {p : Params} {foregroundPid : Option Pid} (procs : List Process)
    (spikes : Map Pid SpikeState) :
    (checkCpuAll p foregroundPid procs spikes).2.flatMap decisionReleases = [] := by
  refine flatMap_releases_eq_nil fun d hd => ?_
  obtain ⟨pid, cg, rfl | rfl⟩ := mem_checkCpuAll_decisions p foregroundPid procs spikes hd
  · rfl
  · rfl

theorem headroomDecisions_releases (p : Params) (available : Kb) (spikes : Map Pid SpikeState) :
    (headroomDecisions p available spikes).flatMap decisionReleases = [] := by
  obtain hNone | ⟨needed, hAsked⟩ := headroomDecisions_cases p available spikes
  · rw [hNone]
    rfl
  · rw [hAsked]
    rfl

theorem conserves_update (hKeyed : Keyed t) (procs : List Process) (available : Kb) (p : Params)
    (now : Instant) (foregroundPid : Option Pid) :
    Conserves t (t.update procs available p now foregroundPid).1
      ((t.update procs available p now foregroundPid).2.flatMap decisionReleases) := by
  have hReleases : (t.update procs available p now foregroundPid).2.flatMap decisionReleases =
      (drained t procs p now).2 := by
    show ((tracked t procs p now).2.1 ++
      (if (drained t procs p now).2.isEmpty then []
        else [SpikeDecision.releaseVictims (drained t procs p now).2]) ++ _ ++ _).flatMap
          decisionReleases = _
    rw [List.flatMap_append, List.flatMap_append, List.flatMap_append, checkCpuAll_releases,
      headroomDecisions_releases, tracked, trackAll_releases]
    cases hDrained : (drained t procs p now).2 with
    | nil => rfl
    | cons v rest => simp [decisionReleases]
  rw [hReleases]
  have hDrain : Conserves t (drained t procs p now).1 (drained t procs p now).2 := by
    unfold drained
    split
    · exact conserves_drainIfNoneTracking (t := advanced t procs p now) hKeyed
    · exact Conserves.of_victims_eq rfl
  exact hDrain

/-- **Through the whole cycle**, up to the headroom freeze. -/
theorem conserves_signalled (hKeyed : Keyed t) (inp : SpikeInput) :
    Conserves t (spikeDecisions (releaseVictims t inp).1 inp).1 (signalled t inp) := by
  have hRelease := conserves_releaseVictims hKeyed inp
  refine hRelease.trans ?_
  unfold spikeDecisions
  split
  · exact conserves_update (hRelease.keyed hKeyed) inp.procs inp.available
      (Params.fromConfig inp.cfg) inp.now inp.foregroundPid
  · exact conserves_refl _

/-- A victim that was asked for leaves with one signal. -/
theorem released_of_requested (hKeyed : Keyed t) {pid : Pid} {v : SpikeVictim}
    (hMem : pid ∈ inp.manualRelease) (hVictim : t.victims.lookup pid = some v) :
    signalsTo pid (signalled t inp) = [v] ∧
      (releaseVictims t inp).1.victims.lookup pid = none := by
  have hGone : (releaseVictims t inp).1.victims.lookup pid = none := by
    unfold releaseVictims
    exact (releaseRequested_lookup _ _ _ _).trans (if_pos hMem)
  refine ⟨?_, hGone⟩
  have hKept : ∀ u,
      (spikeDecisions (releaseVictims t inp).1 inp).1.victims.lookup pid ≠ some u := by
    intro u hu
    rw [of_spikeDecisions_lookup hu] at hGone
    cases hGone
  have hAll := conserves_signalled hKeyed inp pid
  rw [Option.eq_none_iff_forall_ne_some.mpr hKept, hVictim] at hAll
  simpa using hAll

end Conservation

/-! ## Runs -/

structure Inv (w : World) : Prop where
  keyed : Keyed w.tracker
  requests : Exact w.requests
  taken : w.requests.takes.map Take.items =
    w.iterations.map (fun it => it.inp.manualRelease) ++ w.phase.taken
  found : ∀ t, w.phase.found = some t → t = w.tracker
  released : ∀ it ∈ w.iterations, Released it

theorem inv_start : Inv start where
  keyed := keyed_new
  requests := exact_empty
  taken := rfl
  found := fun t h => by cases h
  released := fun it hIt => by cases hIt

theorem inv_take {w : World} (h : Inv w) : Inv (step w .take) := by
  simp only [step]
  split
  · next t hPhase =>
      have hTaken := h.taken
      rw [hPhase] at hTaken
      refine ⟨h.keyed, h.requests.take, ?_, ?_, h.released⟩
      · simp only [Box.take, List.map_append, hTaken]
        simp [Phase.taken]
      · have hFound := h.found
        rw [hPhase] at hFound
        exact hFound
  · exact h

theorem inv_spikeCycle {w : World} (h : Inv w) (inp : SpikeInput) :
    Inv (step w (.spikeCycle inp)) := by
  simp only [step]
  split
  · next t manual hPhase =>
      have hTaken := h.taken
      rw [hPhase] at hTaken
      have hSame : t = w.tracker := h.found t (by rw [hPhase]; rfl)
      refine ⟨keyed_runSpikeCycle h.keyed, h.requests, ?_, (fun u hu => by cases hu), ?_⟩
      · rw [hTaken]
        simp [Phase.taken]
      · intro it hIt
        cases List.mem_append.mp hIt with
        | inl hOld => exact h.released it hOld
        | inr hNew =>
            rw [List.mem_singleton.mp hNew]
            intro pid hMem v hVictim
            rw [hSame] at hVictim
            exact released_of_requested h.keyed hMem hVictim
  · exact h

theorem inv_step {w : World} (h : Inv w) (m : Move) : Inv (step w m) := by
  cases m with
  | request pids => exact ⟨h.keyed, h.requests.send pids, h.taken, h.found, h.released⟩
  | beginIteration =>
      simp only [step]
      split
      · next hPhase =>
          have hTaken := h.taken
          rw [hPhase] at hTaken
          exact ⟨h.keyed, h.requests, hTaken, fun t ht => (Option.some.inj ht).symm, h.released⟩
      · exact h
  | reload => exact h
  | helperDied => exact h
  | psiError =>
      simp only [step]
      split
      · next t hPhase =>
          have hTaken := h.taken
          rw [hPhase] at hTaken
          exact ⟨h.keyed, h.requests, hTaken, fun u hu => (by cases hu), h.released⟩
      · exact h
  | take => exact inv_take h
  | spikeCycle inp => exact inv_spikeCycle h inp

/-- What the iteration under way has taken is the last take. -/
theorem Inv.last_take {w : World} (h : Inv w) {tracker : SpikeTracker} {manual : List Pid}
    (hPhase : w.phase = .took tracker manual) :
    ∃ t, w.requests.takes.getLast? = some t ∧ t.items = manual := by
  have hTaken := h.taken
  rw [hPhase, Phase.taken] at hTaken
  have hLast := congrArg List.getLast? hTaken
  rw [List.getLast?_map, List.getLast?_concat] at hLast
  exact Option.map_eq_some_iff.mp hLast

theorem handsOver_of_inv {w : World} (h : Inv w) (m : Move) : HandsOver w m := by
  cases m with
  | request pids => exact ⟨rfl, rfl⟩
  | beginIteration =>
      refine ⟨?_, ?_⟩
      · simp only [step]
        split <;> rfl
      · intro hPhase
        simp only [step, hPhase]
  | reload => rfl
  | helperDied => rfl
  | psiError =>
      simp only [HandsOver, step]
      split <;> exact ⟨rfl, rfl⟩
  | take =>
      intro tracker hPhase
      simp only [step, hPhase]
      exact ⟨rfl, trivial, ⟨w.requests.queue, w.requests.sent.length⟩, rfl, rfl⟩
  | spikeCycle inp =>
      intro tracker manual hPhase
      obtain ⟨t, hLast, hItems⟩ := h.last_take hPhase
      simp only [step, hPhase]
      refine ⟨trivial, trivial, t, hLast, ?_⟩
      rw [hItems]

/--
**Requests are served once.**  In every interleaving each request is taken by
exactly one iteration, the first that takes any after it, and a victim it names
leaves in that iteration with one SIGCONT to the process that was frozen.  A take
leaves the queue empty, and what it found is what the cycle after it is given.
-/
theorem requests_served (moves : List Move) :
    Always step Served start moves ∧ EveryStep step HandsOver start moves := by
  have hStep : ∀ w m, Inv w → True → Inv (step w m) := fun w m h _ => inv_step h m
  have hInv : Always step Inv start moves :=
    always_of_invariant hStep inv_start (everyStep_true start moves)
  constructor
  · exact hInv.imp fun w h => ⟨h.requests.once, h.requests.first, h.taken, h.released⟩
  · exact everyStep_of_invariant hStep (fun w m h _ => handsOver_of_inv h m) inv_start
      (everyStep_true start moves)

/-! ## A victim is asked for -/

/-- An iteration of the evictor with the full cycle. -/
def iteration (inp : SpikeInput) : List Move := [.beginIteration, .take, .spikeCycle inp]

/-- The indexer is frozen for a compiler.  Its release is asked for when the next
iteration has started; that one ends with a PSI error, and the one after it takes
the request. -/
def askedFor : List Move :=
  (session.take 6).flatMap iteration ++
    [.beginIteration, .request [⟨200⟩], .psiError] ++
    iteration (sessionInput 35 [sessionProcess 100 "rustc" 900000, indexer])

/-- **The indexer is resumed** by that iteration, while the compiler goes on. -/
theorem indexer_released_on_request :
    (∃ it ∈ (run step start askedFor).iterations, it.inp.manualRelease = [⟨200⟩] ∧
      ∃ v, it.start.victims.lookup ⟨200⟩ = some v ∧ v.startTime = 100 ∧
        signalsTo ⟨200⟩ (signalled it.before it.inp) = [v]) ∧
      (run step start askedFor).requests.queue = [] ∧
      (run step start askedFor).tracker.victimPids = [] ∧
      (run step start askedFor).tracker.spikePids = [⟨100⟩] := by
  have hServed := (requests_served askedFor).1.last
  have hTakes : (run step start askedFor).iterations.getLast?.map
      (fun it => it.inp.manualRelease) = some [⟨200⟩] := by decide +kernel
  have hFrozen : ((run step start askedFor).iterations.getLast?.bind
      fun it => it.start.victims.lookup ⟨200⟩).map SpikeVictim.startTime = some 100 := by
    decide +kernel
  obtain ⟨it, hLast, hManual⟩ := Option.map_eq_some_iff.mp hTakes
  rw [hLast] at hFrozen
  obtain ⟨v, hVictim, hStart⟩ := Option.map_eq_some_iff.mp hFrozen
  have hIt := List.mem_of_getLast? hLast
  have hAsked : ⟨200⟩ ∈ it.inp.manualRelease := by
    rw [hManual]
    exact List.mem_singleton_self _
  refine ⟨⟨it, hIt, hManual, v, hVictim, hStart, ?_⟩, by decide +kernel, by decide +kernel,
    by decide +kernel⟩
  exact (hServed.released it hIt ⟨200⟩ hAsked v hVictim).1

end Mgd.ManualRelease
