import Mgd.Evictor.HeadroomFreeze
import Mgd.FocusUnfreeze

/-!
# The rest of a released victim

A victim that is released should not be frozen for headroom again for 60 s.  The
candidates leave out the PIDs with an entry in `victim_cooldowns` younger than
that.  A victim leaves by one of five routes; the timeout and the manual request
write the entry, the exit of a spike, the orphan sweep and the idle demotion
(`drain_if_none_tracking`) do not.

A run keeps the list of its releases beside the tracker.  Time moves forward by
the time between two cycles; one reading serves a cycle.

## Main results

* `covered_step` : each release by the timeout or on request has its entry, as long
  as the entry matters.
* `rests_iff` : when a run lets every released victim rest.
* `released_indexer_refrozen` : released and frozen again in the same cycle.
-/

namespace Mgd.Evictor.VictimRest

open Mgd.Types Mgd.Monitor Mgd.Config Mgd.Lib.AssocMap Mgd.Lib.Greedy Mgd.Lib.Run
open Mgd.SpikeMode Mgd.Evictor.Spike Mgd.Evictor.HeadroomFreeze
open Mgd.Evictor.CollectiveRelease (advanced drained update_fst sessionInput sessionProcess
  indexer)
open Mgd.Evictor.ForegroundReclaim (freezable headroomGain recordFrozen)
open Mgd.FocusUnfreeze (decisionReleases signalled)

/-! ## Releases -/

inductive Route
  | exit
  | timeout
  | orphan
  | manual
  | idle
deriving DecidableEq, Repr

/-- The route starts a cooldown. -/
def Route.startsCooldown : Route → Bool
  | .timeout => true
  | .manual => true
  | .exit => false
  | .orphan => false
  | .idle => false

structure Release where
  victim : SpikeVictim
  route : Route
  releasedAt : Instant
deriving DecidableEq

def tagged (route : Route) (now : Instant) (victims : List SpikeVictim) : List Release :=
  victims.map fun v => { victim := v, route := route, releasedAt := now }

theorem of_mem_tagged {route : Route} {now : Instant} {victims : List SpikeVictim} {r : Release}
    (h : r ∈ tagged route now victims) :
    r.victim ∈ victims ∧ r.route = route ∧ r.releasedAt = now := by
  rcases List.mem_map.mp h with ⟨v, hv, rfl⟩
  exact ⟨hv, rfl, rfl⟩

theorem tagged_victims (route : Route) (now : Instant) (victims : List SpikeVictim) :
    (tagged route now victims).map Release.victim = victims := by
  unfold tagged
  rw [List.map_map]
  exact List.map_id victims

/-- The releases of a cycle, in the order of `release_victims`, the idle demotion
last. -/
def cycleReleases (t : SpikeTracker) (inp : SpikeInput) : List Release :=
  let exit := exitSpikes t (exitedSpikes t inp.procs)
  let timedOut := exit.1.drainTimedOutVictims inp.now inp.cfg.spikeMaxVictimFreezeSec
  let orphaned := timedOut.1.drainOrphanedVictims
  let requested := orphaned.1.releaseRequested inp.now inp.manualRelease
  let demoted := (spikeDecisions (releaseVictims t inp).1 inp).2.flatMap decisionReleases
  tagged .exit inp.now exit.2 ++ tagged .timeout inp.now timedOut.2 ++
    tagged .orphan inp.now orphaned.2 ++ tagged .manual inp.now requested.2 ++
    tagged .idle inp.now demoted

/-- The victims released are those the cycle sends SIGCONT to. -/
theorem cycleReleases_signalled (t : SpikeTracker) (inp : SpikeInput) :
    (cycleReleases t inp).map Release.victim = signalled t inp := by
  unfold cycleReleases signalled
  simp only [List.map_append, tagged_victims]
  rfl

/-! ## Runs -/

/-- The time since the cycle before, and what the cycle is given. -/
structure Turn where
  elapsed : Duration
  inp : SpikeInput

structure RestRun where
  tracker : SpikeTracker
  released : List Release
  clock : Instant

def RestRun.start : RestRun where
  tracker := SpikeTracker.new
  released := []
  clock := 0

def Turn.input (turn : Turn) (s : RestRun) : SpikeInput :=
  { turn.inp with now := s.clock + turn.elapsed }

def step (s : RestRun) (turn : Turn) : RestRun where
  tracker := (runSpikeCycle s.tracker (turn.input s)).1
  released := s.released ++ cycleReleases s.tracker (turn.input s)
  clock := (turn.input s).now

/-! ## The promise -/

/-- The victim released is the process. -/
def Release.isOf (r : Release) (inp : SpikeInput) (p : Process) : Prop :=
  r.victim.pid = p.pid ∧ inp.startTime p.pid = some r.victim.startTime

/-- The cycle stops no victim released less than 60 s ago. -/
def Rests (s : RestRun) (turn : Turn) : Prop :=
  ∀ p ∈ cycleStopped s.tracker (turn.input s), ∀ r ∈ (step s turn).released,
    r.isOf (turn.input s) p → 60 ≤ Instant.secsSince (turn.input s).now r.releasedAt

/-- A victim that a spike exit, the orphan sweep or an idle demotion released less
than 60 s ago is no candidate that can be stopped, or comes up when the candidates
before it cover what is needed. -/
def SparesUnrested (s : RestRun) (turn : Turn) : Prop :=
  ∀ r ∈ (step s turn).released, r.route.startsCooldown = false →
    Instant.secsSince (turn.input s).now r.releasedAt < 60 →
      ∀ needed before p after, asked s.tracker (turn.input s) = some needed →
        headroomCandidates (decided s.tracker (turn.input s)) (turn.input s) =
            before ++ p :: after →
          r.isOf (turn.input s) p → freezable (turn.input s) p = true →
            needed.val ≤ spent (headroomGain (turn.input s)) before

/-! ### Cooldowns -/

section Cooldowns

variable {t : SpikeTracker} {inp : SpikeInput} {pid : Pid}

theorem drainIfNoneTracking_cooldowns (t : SpikeTracker) :
    t.drainIfNoneTracking.1.victimCooldowns = t.victimCooldowns := by
  unfold SpikeTracker.drainIfNoneTracking
  split <;> rfl

theorem exitSpikes_cooldowns (t : SpikeTracker) (exited : List Pid) :
    (exitSpikes t exited).1.victimCooldowns = t.victimCooldowns := by
  have hFold : ∀ acc : SpikeTracker × List SpikeVictim,
      (exited.foldl exitOne acc).1.victimCooldowns = acc.1.victimCooldowns := by
    induction exited with
    | nil => exact fun acc => rfl
    | cons spikePid rest ih =>
        intro acc
        rw [List.foldl_cons, ih]
        exact drainIfNoneTracking_cooldowns _
  exact hFold (t, [])

/-- A release on request leaves an entry alone or starts it anew. -/
theorem releaseOne_cooldowns (now : Instant) (acc : SpikeTracker × List SpikeVictim)
    (first pid : Pid) :
    (SpikeTracker.releaseOne now acc first).1.victimCooldowns.lookup pid =
        acc.1.victimCooldowns.lookup pid ∨
      (SpikeTracker.releaseOne now acc first).1.victimCooldowns.lookup pid = some now := by
  unfold SpikeTracker.releaseOne
  split
  · exact Or.inl rfl
  · dsimp only
    rw [lookup_insert_eq]
    split
    · exact Or.inr rfl
    · exact Or.inl rfl

theorem foldl_releaseOne_cooldowns (now : Instant) (pids : List Pid)
    (acc : SpikeTracker × List SpikeVictim) (pid : Pid) :
    (pids.foldl (SpikeTracker.releaseOne now) acc).1.victimCooldowns.lookup pid =
        acc.1.victimCooldowns.lookup pid ∨
      (pids.foldl (SpikeTracker.releaseOne now) acc).1.victimCooldowns.lookup pid =
        some now := by
  induction pids generalizing acc with
  | nil => exact Or.inl rfl
  | cons first rest ih =>
      rw [List.foldl_cons]
      rcases ih (SpikeTracker.releaseOne now acc first) with hSame | hNow
      · rw [hSame]
        exact releaseOne_cooldowns now acc first pid
      · exact Or.inr hNow

/-- Whoever is released on request has an entry. -/
theorem foldl_releaseOne_started (now : Instant) (pids : List Pid)
    (acc : SpikeTracker × List SpikeVictim)
    (h : ∀ v ∈ acc.2, acc.1.victimCooldowns.lookup v.pid = some now) :
    ∀ v ∈ (pids.foldl (SpikeTracker.releaseOne now) acc).2,
      (pids.foldl (SpikeTracker.releaseOne now) acc).1.victimCooldowns.lookup v.pid =
        some now := by
  induction pids generalizing acc with
  | nil => exact h
  | cons first rest ih =>
      rw [List.foldl_cons]
      refine ih _ fun v hv => ?_
      have hOld : v ∈ acc.2 →
          (SpikeTracker.releaseOne now acc first).1.victimCooldowns.lookup v.pid = some now := by
        intro hMem
        rcases releaseOne_cooldowns now acc first v.pid with hSame | hNow
        · rw [hSame]
          exact h v hMem
        · exact hNow
      unfold SpikeTracker.releaseOne at hv hOld ⊢
      split at hv
      · next hNone =>
          rw [hNone] at hOld
          exact hOld hv
      · next w hVictim =>
          rw [hVictim] at hOld
          rcases List.mem_append.mp hv with hMem | hHere
          · exact hOld hMem
          · rw [List.mem_singleton.mp hHere]
            exact AList.lookup_insert _

theorem drainTimedOut_cooldowns (t : SpikeTracker) (now : Instant) (maxSecs : Nat) (pid : Pid) :
    (t.drainTimedOutVictims now maxSecs).1.victimCooldowns.lookup pid =
        t.victimCooldowns.lookup pid ∨
      (t.drainTimedOutVictims now maxSecs).1.victimCooldowns.lookup pid = some now := by
  unfold SpikeTracker.drainTimedOutVictims
  split
  · exact Or.inl rfl
  · exact foldl_releaseOne_cooldowns now _ (t, []) pid

theorem drainTimedOut_started {now : Instant} {maxSecs : Nat} {v : SpikeVictim}
    (h : v ∈ (t.drainTimedOutVictims now maxSecs).2) :
    (t.drainTimedOutVictims now maxSecs).1.victimCooldowns.lookup v.pid = some now := by
  unfold SpikeTracker.drainTimedOutVictims at h ⊢
  split at h
  · cases h
  · next hMax =>
      rw [if_neg hMax]
      exact foldl_releaseOne_started now _ (t, []) (fun w hw => by cases hw) v h

/-- The releases leave an entry alone or start it anew. -/
theorem releaseVictims_cooldowns (t : SpikeTracker) (inp : SpikeInput) (pid : Pid) :
    (releaseVictims t inp).1.victimCooldowns.lookup pid = t.victimCooldowns.lookup pid ∨
      (releaseVictims t inp).1.victimCooldowns.lookup pid = some inp.now := by
  unfold releaseVictims
  dsimp only
  rcases foldl_releaseOne_cooldowns inp.now inp.manualRelease
    (((exitSpikes t (exitedSpikes t inp.procs)).1.drainTimedOutVictims inp.now
      inp.cfg.spikeMaxVictimFreezeSec).1.drainOrphanedVictims.1, []) pid with hSame | hNow
  · unfold SpikeTracker.releaseRequested
    rw [hSame]
    unfold SpikeTracker.drainOrphanedVictims
    dsimp only
    rw [drainIfNoneTracking_cooldowns,
      ← exitSpikes_cooldowns t (exitedSpikes t inp.procs)]
    exact drainTimedOut_cooldowns _ inp.now _ pid
  · exact Or.inr hNow

/-- A release by the timeout or on request has an entry when the cycle comes to its
update. -/
theorem started_releaseVictims {r : Release} (h : r ∈ cycleReleases t inp)
    (hRoute : r.route.startsCooldown = true) :
    (releaseVictims t inp).1.victimCooldowns.lookup r.victim.pid = some inp.now := by
  have hOther : ∀ route victims, route.startsCooldown = false →
      r ∉ tagged route inp.now victims := by
    intro route victims hNone hMem
    rw [(of_mem_tagged hMem).2.1, hNone] at hRoute
    cases hRoute
  unfold cycleReleases at h
  simp only [List.mem_append] at h
  unfold releaseVictims
  dsimp only
  rcases h with (((hExit | hTimeout) | hOrphan) | hManual) | hIdle
  · exact absurd hExit (hOther .exit _ rfl)
  · have hStarted := drainTimedOut_started (of_mem_tagged hTimeout).1
    rcases foldl_releaseOne_cooldowns inp.now inp.manualRelease
      (((exitSpikes t (exitedSpikes t inp.procs)).1.drainTimedOutVictims inp.now
        inp.cfg.spikeMaxVictimFreezeSec).1.drainOrphanedVictims.1, []) r.victim.pid
      with hSame | hNow
    · unfold SpikeTracker.releaseRequested
      rw [hSame]
      unfold SpikeTracker.drainOrphanedVictims
      dsimp only
      rw [drainIfNoneTracking_cooldowns]
      exact hStarted
    · exact hNow
  · exact absurd hOrphan (hOther .orphan _ rfl)
  · exact foldl_releaseOne_started inp.now inp.manualRelease (_, []) (fun w hw => by cases hw)
      r.victim (of_mem_tagged hManual).1
  · exact absurd hIdle (hOther .idle _ rfl)

/-- The update drops the entries of 300 s and more. -/
theorem decided_cooldowns (t : SpikeTracker) (inp : SpikeInput) (pid : Pid) {at_ : Instant}
    (h : (releaseVictims t inp).1.victimCooldowns.lookup pid = some at_) :
    (decided t inp).victimCooldowns.lookup pid = some at_ ∨
      300 ≤ Instant.secsSince inp.now at_ := by
  unfold decided spikeDecisions
  split
  · have hDrained : (drained (releaseVictims t inp).1 inp.procs (Params.fromConfig inp.cfg)
        inp.now).1.victimCooldowns =
          (advanced (releaseVictims t inp).1 inp.procs (Params.fromConfig inp.cfg)
            inp.now).victimCooldowns := by
      unfold drained
      split
      · exact drainIfNoneTracking_cooldowns _
      · rfl
    rw [update_fst]
    dsimp only
    rw [hDrained]
    unfold advanced
    dsimp only
    rw [lookup_retain, h]
    by_cases hYoung : Instant.secsSince inp.now at_ < 300
    · simp [Option.filter, hYoung]
    · exact Or.inr (by omega)
  · exact Or.inl h

theorem foldl_recordFrozen_cooldowns (spikePid : Pid) (procs : List Process) (t : SpikeTracker) :
    (procs.foldl (recordFrozen inp spikePid) t).victimCooldowns = t.victimCooldowns := by
  induction procs generalizing t with
  | nil => rfl
  | cons p rest ih =>
      rw [List.foldl_cons, ih]
      rfl

/-- Freezing starts no cooldown and ends none. -/
theorem runSpikeCycle_cooldowns (t : SpikeTracker) (inp : SpikeInput) :
    (runSpikeCycle t inp).1.victimCooldowns = (decided t inp).victimCooldowns := by
  rw [runSpikeCycle_fst]
  exact foldl_recordFrozen_cooldowns _ _ _

/-- The release is long ago, or its PID has an entry no older. -/
def Covered (now : Instant) (cooldowns : Map Pid Instant) (r : Release) : Prop :=
  300 ≤ Instant.secsSince now r.releasedAt ∨
    ∃ at_, cooldowns.lookup r.victim.pid = some at_ ∧ r.releasedAt ≤ at_

/-- A covered release stays covered until the cycle comes to its decisions. -/
theorem covered_decided {clock : Instant} {r : Release} (h : Covered clock t.victimCooldowns r)
    (hClock : clock ≤ inp.now) (hPast : r.releasedAt ≤ clock) :
    Covered inp.now (decided t inp).victimCooldowns r := by
  rcases h with hLong | ⟨at_, hEntry, hLe⟩
  · exact Or.inl (hLong.trans (Instant.secsSince_mono hClock))
  · have hReleased : ∃ at', (releaseVictims t inp).1.victimCooldowns.lookup r.victim.pid =
        some at' ∧ r.releasedAt ≤ at' := by
      rcases releaseVictims_cooldowns t inp r.victim.pid with hSame | hNow
      · exact ⟨at_, hSame.trans hEntry, hLe⟩
      · exact ⟨inp.now, hNow, hPast.trans hClock⟩
    rcases hReleased with ⟨at', hEntry', hLe'⟩
    rcases decided_cooldowns t inp _ hEntry' with hKept | hOld
    · exact Or.inr ⟨at', hKept, hLe'⟩
    · exact Or.inl (hOld.trans (Instant.secsSince_anti hLe'))

theorem releasedAt_of_mem {r : Release} (h : r ∈ cycleReleases t inp) :
    r.releasedAt = inp.now := by
  unfold cycleReleases at h
  simp only [List.mem_append] at h
  rcases h with (((hExit | hTimeout) | hOrphan) | hManual) | hIdle
  · exact (of_mem_tagged hExit).2.2
  · exact (of_mem_tagged hTimeout).2.2
  · exact (of_mem_tagged hOrphan).2.2
  · exact (of_mem_tagged hManual).2.2
  · exact (of_mem_tagged hIdle).2.2

/-- A new release by the timeout or on request is covered. -/
theorem covered_started {r : Release} (h : r ∈ cycleReleases t inp)
    (hRoute : r.route.startsCooldown = true) :
    Covered inp.now (decided t inp).victimCooldowns r := by
  have hAt := releasedAt_of_mem h
  rcases decided_cooldowns t inp _ (started_releaseVictims h hRoute) with hKept | hOld
  · exact Or.inr ⟨inp.now, hKept, hAt.le⟩
  · have hZero : Instant.secsSince inp.now inp.now = 0 := by
      simp [Instant.secsSince, Instant.durationSince, Duration.asSecs]
    omega

/-- **Nobody is stopped within the 60 s of a covered release.** -/
theorem rest_of_covered {r : Release} {p : Process} (hStopped : p ∈ cycleStopped t inp)
    (hPid : r.victim.pid = p.pid) (h : Covered inp.now (decided t inp).victimCooldowns r) :
    60 ≤ Instant.secsSince inp.now r.releasedAt := by
  rcases h with hLong | ⟨at_, hEntry, hLe⟩
  · omega
  · have hCandidate := (candidate_of_mem_cycleStopped hStopped).2.1
    rw [hPid] at hEntry
    have hRested : ¬ Instant.secsSince inp.now at_ < 60 := by
      intro hYoung
      simp [isHeadroomCandidate, SpikeTracker.isVictimCooldown, hEntry, hYoung] at hCandidate
    have hAnti := @Instant.secsSince_anti inp.now r.releasedAt at_ hLe
    omega

end Cooldowns

/-! ## Over a whole run -/

section Runs

variable {s : RestRun}

/-- Releases lie in the past, and those that start a cooldown are covered. -/
structure Inv (s : RestRun) : Prop where
  past : ∀ r ∈ s.released, r.releasedAt ≤ s.clock
  covered : ∀ r ∈ s.released, r.route.startsCooldown = true →
    Covered s.clock s.tracker.victimCooldowns r

theorem clock_le (s : RestRun) (turn : Turn) : s.clock ≤ (turn.input s).now :=
  Nat.le_add_right s.clock turn.elapsed

/-- In every cycle the releases that start a cooldown are covered when it comes to
its decisions. -/
theorem covered_step (h : Inv s) (turn : Turn) :
    ∀ r ∈ (step s turn).released, r.route.startsCooldown = true →
      Covered (turn.input s).now (decided s.tracker (turn.input s)).victimCooldowns r := by
  intro r hr hRoute
  rcases List.mem_append.mp hr with hOld | hNew
  · exact covered_decided (h.covered r hOld hRoute) (clock_le s turn) (h.past r hOld)
  · exact covered_started hNew hRoute

theorem inv_start : Inv .start where
  past := fun r hr => by cases hr
  covered := fun r hr => by cases hr

theorem inv_step (h : Inv s) (turn : Turn) : Inv (step s turn) where
  past := by
    intro r hr
    rcases List.mem_append.mp hr with hOld | hNew
    · exact (h.past r hOld).trans (clock_le s turn)
    · exact (releasedAt_of_mem hNew).le
  covered := by
    intro r hr hRoute
    have hCovered := covered_step h turn r hr hRoute
    rw [← runSpikeCycle_cooldowns] at hCovered
    exact hCovered

/-- One cycle lets the released rest exactly when it spares those without a
cooldown. -/
theorem rests_step_iff (h : Inv s) (turn : Turn) : Rests s turn ↔ SparesUnrested s turn := by
  constructor
  · intro hRests r hr _ hYoung needed before p after hAsked hSplit hOf hFreezable
    by_contra hLeft
    have hStopped : p ∈ cycleStopped s.tracker (turn.input s) :=
      mem_cycleStopped_iff.mpr ⟨needed, before, after, hAsked, hSplit, by omega, hFreezable⟩
    have hRested := hRests p hStopped r hr hOf
    omega
  · intro hSpares p hp r hr hOf
    cases hRoute : r.route.startsCooldown with
    | true => exact rest_of_covered hp hOf.1 (covered_step h turn r hr hRoute)
    | false =>
        by_contra hYoung
        rcases mem_cycleStopped_iff.mp hp with
          ⟨needed, before, after, hAsked, hSplit, hLeft, hFreezable⟩
        have hSpent := hSpares r hr hRoute (by omega) needed before p after hAsked hSplit hOf
          hFreezable
        omega

/--
**Released victims rest for 60 s**, in every run from the start of the daemon,
exactly when no cycle comes to a victim that a spike exit, the orphan sweep or an
idle demotion released within that time.
-/
theorem rests_iff (turns : List Turn) :
    EveryStep step Rests .start turns ↔ EveryStep step SparesUnrested .start turns :=
  everyStep_iff_of_invariant (fun _ turn hInv => inv_step hInv turn)
    (fun _ turn hInv => rests_step_iff hInv turn) turns inv_start

end Runs

/-! ## Two compilers -/

/-- Five seconds after the cycle before. -/
def turn (procs : List Process) : Turn where
  elapsed := Instant.ofSecs 5
  inp := sessionInput 0 procs

def first (rss : Nat) : Process := sessionProcess 100 "rustc" rss

def second (rss : Nat) : Process := sessionProcess 101 "rustc" rss

/-- The second compiler starts one cycle after the first. -/
def buildTurns : List Turn :=
  [turn [first 100000, indexer], turn [first 900000, second 100000, indexer],
    turn [first 300000, second 900000, indexer], turn [first 900000, second 300000, indexer],
    turn [first 300000, second 900000, indexer], turn [first 900000, second 300000, indexer]]

/-- The first compiler is gone in the seventh cycle: the indexer is released for
it and frozen for the second. -/
theorem released_indexer_refrozen :
    ¬ EveryStep step Rests .start (buildTurns ++ [turn [second 900000, indexer]]) := by
  intro h
  have hRests : Rests (run step .start buildTurns) (turn [second 900000, indexer]) :=
    h.at_split
  have hStopped : indexer ∈ cycleStopped (run step .start buildTurns).tracker
      ((turn [second 900000, indexer]).input (run step .start buildTurns)) := by
    decide +kernel
  have hReleased : (⟨⟨⟨200⟩, "baloo_file", 100, ⟨101⟩, Instant.ofSecs 30⟩, .exit,
      Instant.ofSecs 35⟩ : Release) ∈
        (step (run step .start buildTurns) (turn [second 900000, indexer])).released := by
    decide +kernel
  have hRested := hRests indexer hStopped _ hReleased ⟨rfl, rfl⟩
  revert hRested
  decide +kernel

end Mgd.Evictor.VictimRest
