import Mgd.Evictor.IdleFreeze
import Mgd.Lib.Run

/-!
# Idle means idle

The idle pass measures how long a process has been in the background with two maps
from PIDs to clock readings.  A call starts a clock for every process that is not
the active window and drops the clocks of PIDs that are gone.  It leaves the clock
of the active window as it is: a visit to the foreground does not stop a clock that
runs, and the next call after the visit reads it on.

A run keeps the visits beside the two maps.  Between two calls other threads may
change the registry, processes come and go, and a PID may pass to another process.

## Main results

* `idle_of_unclocked` : idle means idle, in every run whose visits find no clock.
* `visited_browser_reclaimed` : reclaimed and frozen 20 s after the visit.
-/

namespace Mgd.Evictor.IdleVisits

open Mgd.Types Mgd.Monitor Mgd.Config Mgd.Lib.AssocMap Mgd.Lib.Run Mgd.Engine.Planner
open Mgd.Executor.Registry Mgd.Evictor.Execute Mgd.Evictor.Reclaim Mgd.Evictor.IdleReclaim
open Mgd.Evictor.IdleFreeze (stop_mem_freezeIdle lookup_orInsert foldl_reclaimCandidate_frame)

/-! ## Runs -/

/-- Every reading is taken within the given time. -/
def Within (length : Duration) (clock : IdleClock) : Prop :=
  ∀ pid, clock.select pid ≤ length ∧ clock.start pid ≤ length ∧ clock.reset pid ≤ length ∧
    clock.freezeEnter pid ≤ length ∧ clock.freezeRead pid ≤ length

/-- The readings of a call that starts at `t`. -/
def startingAt (t : Instant) (clock : IdleClock) : IdleClock where
  select pid := t + clock.select pid
  start pid := t + clock.start pid
  reset pid := t + clock.reset pid
  freezeEnter pid := t + clock.freezeEnter pid
  freezeRead pid := t + clock.freezeRead pid

/-- One call.  The readings of its clock count from its start. -/
structure IdleCall where
  input : IdleInput
  /-- the time since the call before -/
  gap : Duration
  length : Duration
  inTime : Within length input.clock
  /-- the registry as the call finds it -/
  registry : FrozenRegistry
  /-- the start time of the process that has the PID -/
  incarnation : Pid → Option Nat

/-- A call at which a process was the active window. -/
structure Visit where
  pid : Pid
  incarnation : Option Nat
  /-- the end of the call -/
  at_ : Instant
deriving DecidableEq

structure IdleRun where
  state : IdleState
  visits : List Visit
  clock : Instant

def IdleRun.start : IdleRun where
  state :=
    { pidTracker := ∅
      freezePidTracker := ∅
      frozen := FrozenRegistry.new
      lastIdleReclaim := 0 }
  visits := []
  clock := 0

/-- What the call is given. -/
def IdleRun.input (s : IdleRun) (c : IdleCall) : IdleInput :=
  { c.input with clock := startingAt (s.clock + c.gap) c.input.clock }

/-- The state the call finds. -/
def IdleRun.found (s : IdleRun) (c : IdleCall) : IdleState := { s.state with frozen := c.registry }

def IdleRun.pass (s : IdleRun) (c : IdleCall) : IdlePass :=
  checkIdleProcessReclaim (s.input c) (s.found c)

def step (s : IdleRun) (c : IdleCall) : IdleRun where
  state := (s.pass c).state
  visits := s.visits ++ c.input.activePid.toList.map fun pid =>
    { pid := pid, incarnation := c.incarnation pid, at_ := s.clock + c.gap + c.length }
  clock := s.clock + c.gap + c.length

/-! ## The promise -/

/-- The threshold of the reclaim: by priority, that of the important tier or not. -/
def requiredIdle (ic : IdleReclaimConfig) (cfg : CompiledConfig) (p : Process) : Nat :=
  if getPriority p.name p.exeBasename cfg ≥ 50 then ic.idleSec else ic.importantIdleSec

/-- The amount depends on the idle time through the threshold alone. -/
theorem idleReclaimBytes_eq (ic : IdleReclaimConfig) (cfg : CompiledConfig) (secs : Nat)
    (p : Process) :
    idleReclaimBytes ic cfg secs p =
      if requiredIdle ic cfg p ≤ secs then
        idleReclaimBytes ic cfg (requiredIdle ic cfg p) p
      else none := by
  unfold idleReclaimBytes requiredIdle
  dsimp only
  by_cases hLow : getPriority p.name p.exeBasename cfg ≥ 50
  · simp only [if_pos hLow, lt_irrefl, if_false]
    by_cases hIdle : ic.idleSec ≤ secs
    · simp only [if_pos hIdle, if_neg (not_lt.mpr hIdle)]
    · simp only [if_neg hIdle, if_pos (not_le.mp hIdle), ite_self]
  · simp only [if_neg hLow, lt_irrefl, if_false]
    by_cases hIdle : ic.importantIdleSec ≤ secs
    · simp only [if_pos hIdle, if_neg (not_lt.mpr hIdle)]
    · simp only [if_neg hIdle, if_pos (not_le.mp hIdle), ite_self]

/-- The pass writes to `memory.reclaim` for the process. -/
def Reclaims (i : IdleInput) (s : IdleState) (p : Process) : Prop :=
  ∃ candidate ∈ (i.candidates s).take 3, i.idleBytes s p = some candidate ∧
    ∃ w ∈ (checkIdleProcessReclaim i s).written, i.aim candidate = some w

/-- The pass sends SIGSTOP to the process. -/
def Freezes (i : IdleInput) (s : IdleState) (p : Process) : Prop :=
  (p.pid, Signal.stop) ∈ (checkIdleProcessReclaim i s).signals

/-- The process is not the active window of the call, and was that of no call in
the last `secs` seconds. -/
def Away (s : IdleRun) (c : IdleCall) (p : Process) (now : Instant) (secs : Nat) : Prop :=
  some p.pid ≠ c.input.activePid ∧
    ∀ v ∈ s.visits, v.pid = p.pid → v.incarnation = c.incarnation p.pid →
      secs ≤ Instant.secsSince now v.at_

/-- Whom the call reclaims or freezes has been away for the time that takes. -/
structure IdleMeansIdle (s : IdleRun) (c : IdleCall) : Prop where
  reclaimed : ∀ p ∈ c.input.planProcs, Reclaims (s.input c) (s.found c) p →
    Away s c p ((s.input c).clock.select p.pid) (requiredIdle c.input.idleCfg c.input.cfg p)
  frozen : ∀ p ∈ c.input.planProcs, ∀ freezeSecs, c.input.freezeAfterSec = some freezeSecs →
    Freezes (s.input c) (s.found c) p →
      Away s c p ((s.input c).clock.freezeRead p.pid) freezeSecs

/-- The active window of the call has no clock, or one that the call drops because
the PID is not in its list. -/
def VisitsUnclocked (s : IdleRun) (c : IdleCall) : Prop :=
  ∀ pid, c.input.activePid = some pid →
    (s.state.pidTracker.lookup pid = none ∧ s.state.freezePidTracker.lookup pid = none) ∨
      ((s.input c).swapTooFull = false ∧ pid ∉ c.input.planProcs.map Process.pid)

/-! ## Clocks -/

section Clocks

variable {visits : List Visit} {active : Option Pid} {tracker : Map Pid Instant} {pid : Pid}

/-- The reading is taken after every visit of the process. -/
def Since (visits : List Visit) (pid : Pid) (since : Instant) : Prop :=
  ∀ v ∈ visits, v.pid = pid → v.at_ ≤ since

/-- Every clock has started after the visits of its process, and the active window
has none. -/
structure Fresh (visits : List Visit) (active : Option Pid) (tracker : Map Pid Instant) :
    Prop where
  since : ∀ pid since, tracker.lookup pid = some since → Since visits pid since
  unclocked : ∀ pid, active = some pid → tracker.lookup pid = none

theorem Fresh.insert (h : Fresh visits active tracker) (hBackground : some pid ≠ active)
    {now : Instant} (hNow : Since visits pid now) :
    Fresh visits active (tracker.insert pid now) where
  since := by
    intro q since hLookup
    rw [lookup_insert_eq] at hLookup
    split at hLookup
    · next hSame =>
        cases hLookup
        rw [hSame]
        exact hNow
    · exact h.since q since hLookup
  unclocked := by
    intro q hActive
    have hOther : q ≠ pid := fun hSame => hBackground (hSame ▸ hActive.symm)
    rw [lookup_insert_eq, if_neg hOther]
    exact h.unclocked q hActive

theorem Fresh.orInsert (h : Fresh visits active tracker) (hBackground : some pid ≠ active)
    {now : Instant} (hNow : Since visits pid now) :
    Fresh visits active (IdleInput.orInsert tracker pid now) := by
  unfold IdleInput.orInsert
  split
  · exact h
  · exact h.insert hBackground hNow

theorem Fresh.erase (h : Fresh visits active tracker) (pid : Pid) :
    Fresh visits active (tracker.erase pid) where
  since := by
    intro q since hLookup
    rw [lookup_erase_eq] at hLookup
    split at hLookup
    · cases hLookup
    · exact h.since q since hLookup
  unclocked := by
    intro q hActive
    rw [lookup_erase_eq]
    split
    · rfl
    · exact h.unclocked q hActive

variable {i : IdleInput}

/-- The call takes its readings after the visits. -/
def After (visits : List Visit) (clock : IdleClock) : Prop :=
  ∀ v ∈ visits, ∀ pid, v.at_ ≤ clock.start pid ∧ v.at_ ≤ clock.reset pid ∧
    v.at_ ≤ clock.freezeEnter pid

theorem fresh_startClocks (hAfter : After visits i.clock) (procs : List Process)
    (h : Fresh visits i.activePid tracker) :
    Fresh visits i.activePid (procs.foldl i.startClock tracker) := by
  induction procs generalizing tracker with
  | nil => exact h
  | cons p rest ih =>
      rw [List.foldl_cons]
      refine ih ?_
      unfold IdleInput.startClock
      split
      · next hBackground =>
          exact h.orInsert hBackground (fun v hv _ => (hAfter v hv p.pid).1)
      · exact h

/-- A candidate is in the background. -/
theorem background_of_candidate {s : IdleState} {candidate : Pid × Nat}
    (h : candidate ∈ i.candidates s) : some candidate.1 ≠ i.activePid := by
  rw [candidates_eq] at h
  split at h
  · rcases List.mem_filterMap.mp h with ⟨p, -, hBytes⟩
    unfold IdleInput.idleBytes at hBytes
    split at hBytes
    · cases hBytes
    · next hBackground =>
        rcases Option.map_eq_some_iff.mp hBytes with ⟨bytes, -, rfl⟩
        exact hBackground
  · cases h

theorem fresh_reclaims (hAfter : After visits i.clock) {xs : List (Pid × Nat)}
    (hBackground : ∀ candidate ∈ xs, some candidate.1 ≠ i.activePid) (acc : IdlePass)
    (h : Fresh visits i.activePid acc.state.pidTracker) :
    Fresh visits i.activePid (xs.foldl i.reclaimCandidate acc).state.pidTracker := by
  induction xs generalizing acc with
  | nil => exact h
  | cons candidate rest ih =>
      rw [List.foldl_cons]
      refine ih (fun other hMem => hBackground other (List.mem_cons_of_mem candidate hMem)) _ ?_
      have hReset : Fresh visits i.activePid
          (acc.state.pidTracker.insert candidate.1 (i.clock.reset candidate.1)) :=
        h.insert (hBackground candidate List.mem_cons_self)
          (fun v hv _ => (hAfter v hv candidate.1).2.1)
      unfold IdleInput.reclaimCandidate
      split
      · exact h
      · split
        · exact h
        · dsimp only
          split
          · exact hReset
          · exact hReset
          · exact h
          · exact h

/-- A freeze drops at most a clock, and leaves the clocks of the reclaim alone. -/
theorem freezeIdle_trackers (p : Process) (acc : IdlePass) :
    (i.freezeIdle p acc).1.state.pidTracker = acc.state.pidTracker ∧
      ((i.freezeIdle p acc).1.state.freezePidTracker = acc.state.freezePidTracker ∨
        (i.freezeIdle p acc).1.state.freezePidTracker =
          acc.state.freezePidTracker.erase p.pid) := by
  unfold IdleInput.freezeIdle
  split
  · exact ⟨rfl, Or.inl rfl⟩
  · split
    · dsimp only
      split
      · exact ⟨rfl, Or.inr rfl⟩
      · exact ⟨rfl, Or.inl rfl⟩
    · exact ⟨rfl, Or.inl rfl⟩

/-- What a part of the idle freeze has kept: the clocks are fresh, those of the
reclaim are as before, and whom it stopped has been away for `freezeSecs`. -/
structure FreezesIdle (i : IdleInput) (visits : List Visit) (freezeSecs : Nat)
    (before after : IdlePass) : Prop where
  fresh : Fresh visits i.activePid after.state.freezePidTracker
  same : after.state.pidTracker = before.state.pidTracker
  stops : ∀ pid, (pid, Signal.stop) ∈ after.signals →
    (pid, Signal.stop) ∈ before.signals ∨
      (some pid ≠ i.activePid ∧ ∃ since, Since visits pid since ∧
        freezeSecs ≤ Instant.secsSince (i.clock.freezeRead pid) since)

section Freezes

variable {freezeSecs : Nat} {p : Process}

theorem FreezesIdle.refl {acc : IdlePass}
    (h : Fresh visits i.activePid acc.state.freezePidTracker) :
    FreezesIdle i visits freezeSecs acc acc :=
  ⟨h, rfl, fun _ => Or.inl⟩

theorem FreezesIdle.trans {first second third : IdlePass}
    (h : FreezesIdle i visits freezeSecs first second)
    (h' : FreezesIdle i visits freezeSecs second third) :
    FreezesIdle i visits freezeSecs first third where
  fresh := h'.fresh
  same := h'.same.trans h.same
  stops := fun pid hStop => (h'.stops pid hStop).elim (h.stops pid) Or.inr

/-- The loop starts the clock of a process in the background. -/
theorem freezesIdle_entered (hAfter : After visits i.clock) (freezeSecs : Nat)
    (hBackground : some p.pid ≠ i.activePid) {acc : IdlePass}
    (h : Fresh visits i.activePid acc.state.freezePidTracker) :
    FreezesIdle i visits freezeSecs acc { acc with state := { acc.state with
      freezePidTracker := IdleInput.orInsert acc.state.freezePidTracker p.pid
        (i.clock.freezeEnter p.pid) } } where
  fresh := h.orInsert hBackground (fun v hv _ => (hAfter v hv p.pid).2.2)
  same := rfl
  stops := fun _ => Or.inl

/-- The loop freezes a process whose clock is old enough. -/
theorem freezesIdle_freezeIdle (hBackground : some p.pid ≠ i.activePid) {acc : IdlePass}
    (h : Fresh visits i.activePid acc.state.freezePidTracker) {since : Instant}
    (hClock : acc.state.freezePidTracker.lookup p.pid = some since)
    (hOld : freezeSecs ≤ idleSecs acc.state.freezePidTracker i.clock.freezeRead p.pid) :
    FreezesIdle i visits freezeSecs acc (i.freezeIdle p acc).1 where
  fresh := by
    rcases (freezeIdle_trackers (i := i) p acc).2 with hKept | hErased
    · rw [hKept]
      exact h
    · rw [hErased]
      exact h.erase p.pid
  same := (freezeIdle_trackers p acc).1
  stops := by
    intro pid hStop
    rcases (stop_mem_freezeIdle p acc pid).mp hStop with hBefore | ⟨rfl, -⟩
    · exact Or.inl hBefore
    · unfold idleSecs at hOld
      rw [hClock] at hOld
      exact Or.inr ⟨hBackground, since, h.since p.pid since hClock, hOld⟩

/-- **The loop of the idle freeze** keeps the clocks fresh, and stops nobody before
the time is up. -/
theorem freezesIdle (hAfter : After visits i.clock) (freezeSecs : Nat) (procs : List Process)
    (freezeCount : Nat) (acc : IdlePass)
    (h : Fresh visits i.activePid acc.state.freezePidTracker) :
    FreezesIdle i visits freezeSecs acc (i.idleFreeze freezeSecs freezeCount procs acc) := by
  induction procs generalizing freezeCount acc with
  | nil => exact .refl h
  | cons p rest ih =>
      unfold IdleInput.idleFreeze
      dsimp only
      split
      · exact .refl h
      split
      · exact ih freezeCount acc h
      next hBackground =>
      split
      · exact ih freezeCount acc h
      have hEntered := freezesIdle_entered hAfter freezeSecs hBackground h
      split
      · exact hEntered.trans (ih freezeCount _ hEntered.fresh)
      next hOld =>
      -- the clock that the loop has just read
      have hClock := lookup_orInsert acc.state.freezePidTracker p.pid p.pid
        (i.clock.freezeEnter p.pid)
      rw [if_pos rfl] at hClock
      have hFrozen := freezesIdle_freezeIdle hBackground hEntered.fresh hClock (not_lt.mp hOld)
      exact (hEntered.trans hFrozen).trans (ih _ _ hFrozen.fresh)

end Freezes

end Clocks

/-! ## One call -/

section Call

variable {visits : List Visit} {i : IdleInput} {s : IdleState}

/-- Pruned, the clocks are fresh for the call when the active window has none
left. -/
theorem fresh_liveClocks {tracker : Map Pid Instant} (h : Fresh visits none tracker)
    (hActive : ∀ pid, i.activePid = some pid → (i.liveClocks tracker).lookup pid = none) :
    Fresh visits i.activePid (i.liveClocks tracker) where
  since := by
    intro pid since hLookup
    unfold IdleInput.liveClocks at hLookup
    rw [lookup_retain_key] at hLookup
    split at hLookup
    · exact h.since pid since hLookup
    · cases hLookup
  unclocked := hActive

/-- A candidate has been away for its threshold. -/
theorem idle_of_bytes (h : Fresh visits i.activePid (i.liveClocks s.pidTracker)) {p : Process}
    {candidate : Pid × Nat} (hBytes : i.idleBytes s p = some candidate) :
    some p.pid ≠ i.activePid ∧ ∀ v ∈ visits, v.pid = p.pid →
      requiredIdle i.idleCfg i.cfg p ≤ Instant.secsSince (i.clock.select p.pid) v.at_ := by
  unfold IdleInput.idleBytes at hBytes
  split at hBytes
  · cases hBytes
  next hBackground =>
  refine ⟨hBackground, fun v hv hPid => ?_⟩
  rcases Option.map_eq_some_iff.mp hBytes with ⟨bytes, hAmount, -⟩
  have hLong : requiredIdle i.idleCfg i.cfg p ≤
      idleSecs (i.liveClocks s.pidTracker) i.clock.select p.pid := by
    rw [idleReclaimBytes_eq] at hAmount
    split at hAmount
    · next hIdle => exact hIdle
    · cases hAmount
  refine hLong.trans ?_
  unfold idleSecs
  cases hLookup : (i.liveClocks s.pidTracker).lookup p.pid with
  | none => exact Nat.zero_le _
  | some since => exact Instant.secsSince_anti (h.since p.pid since hLookup v hv hPid)

/-- What a call that goes through leaves behind. -/
theorem pass_fresh (hRoom : i.swapTooFull = false) (hAfter : After visits i.clock)
    (hClocks : Fresh visits i.activePid (i.liveClocks s.pidTracker))
    (hFreezes : Fresh visits i.activePid (i.liveClocks s.freezePidTracker)) :
    Fresh visits i.activePid (checkIdleProcessReclaim i s).state.pidTracker ∧
      Fresh visits i.activePid (checkIdleProcessReclaim i s).state.freezePidTracker ∧
      ∀ freezeSecs, i.freezeAfterSec = some freezeSecs →
        ∀ pid, (pid, Signal.stop) ∈ (checkIdleProcessReclaim i s).signals →
          some pid ≠ i.activePid ∧ ∃ since, Since visits pid since ∧
            freezeSecs ≤ Instant.secsSince (i.clock.freezeRead pid) since := by
  unfold checkIdleProcessReclaim
  rw [hRoom]
  simp only [Bool.false_eq_true, if_false]
  have hStarted := fresh_startClocks hAfter i.planProcs hClocks
  have hBackground : ∀ candidate ∈ (i.candidates s).take 3, some candidate.1 ≠ i.activePid :=
    fun candidate hMem => background_of_candidate (List.mem_of_mem_take hMem)
  have hReclaims := fresh_reclaims hAfter hBackground
    ⟨{ s with pidTracker := i.planProcs.foldl i.startClock (i.liveClocks s.pidTracker) }, [], []⟩
    hStarted
  have hFrame := foldl_reclaimCandidate_frame (i := i) ((i.candidates s).take 3)
    ⟨{ s with pidTracker := i.planProcs.foldl i.startClock (i.liveClocks s.pidTracker) }, [], []⟩
  generalize ((i.candidates s).take 3).foldl i.reclaimCandidate
    ⟨{ s with pidTracker := i.planProcs.foldl i.startClock (i.liveClocks s.pidTracker) }, [], []⟩ =
      reclaimed at hReclaims hFrame ⊢
  obtain ⟨hSilent, hSame, -⟩ := hFrame
  have hPruned : Fresh visits i.activePid (i.liveClocks reclaimed.state.freezePidTracker) := by
    rw [hSame]
    exact hFreezes
  cases i.freezeAfterSec with
  | none => exact ⟨hReclaims, hPruned, fun _ hNone => by cases hNone⟩
  | some freezeSecs =>
      have hLoop := freezesIdle hAfter freezeSecs i.planProcs 0
        { reclaimed with state := { reclaimed.state with
            freezePidTracker := i.liveClocks reclaimed.state.freezePidTracker } } hPruned
      refine ⟨?_, hLoop.fresh, fun secs hSecs pid hStop => ?_⟩
      · rw [hLoop.same]
        exact hReclaims
      · cases hSecs
        rcases hLoop.stops pid hStop with hOld | hNew
        · dsimp only at hOld
          rw [hSilent] at hOld
          cases hOld
        · exact hNew

end Call

/-! ## Over a whole run -/

section Runs

variable {s : IdleRun} {c : IdleCall}

/-- Visits lie in the past, and every clock has started after those of its process. -/
structure Inv (s : IdleRun) : Prop where
  past : ∀ v ∈ s.visits, v.at_ ≤ s.clock
  clocks : Fresh s.visits none s.state.pidTracker
  freezes : Fresh s.visits none s.state.freezePidTracker

theorem fresh_empty (visits : List Visit) : Fresh visits none ∅ where
  since := fun pid since hLookup => by cases hLookup
  unclocked := fun pid hNone => by cases hNone

theorem inv_start : Inv .start where
  past := fun v hv => by cases hv
  clocks := fresh_empty _
  freezes := fresh_empty _

theorem after_input (h : Inv s) (c : IdleCall) : After s.visits (s.input c).clock := by
  intro v hv pid
  have hPast := h.past v hv
  have hBegin : v.at_ ≤ s.clock + c.gap := Nat.le_add_right_of_le hPast
  exact ⟨Nat.le_add_right_of_le hBegin, Nat.le_add_right_of_le hBegin,
    Nat.le_add_right_of_le hBegin⟩

/-- The clocks a call reads, when it goes through and its visit finds none. -/
theorem fresh_found (h : Inv s) (hVisit : VisitsUnclocked s c) :
    Fresh s.visits (s.input c).activePid ((s.input c).liveClocks s.state.pidTracker) ∧
      Fresh s.visits (s.input c).activePid
        ((s.input c).liveClocks s.state.freezePidTracker) := by
  have hNone : ∀ tracker : Map Pid Instant, ∀ pid,
      tracker.lookup pid = none ∨ pid ∉ c.input.planProcs.map Process.pid →
        ((s.input c).liveClocks tracker).lookup pid = none := by
    intro tracker pid hGone
    unfold IdleInput.liveClocks
    rw [lookup_retain_key]
    split
    · next hLive =>
        have hListed : pid ∈ c.input.planProcs.map Process.pid := of_decide_eq_true hLive
        exact hGone.resolve_right (fun hUnlisted => hUnlisted hListed)
    · rfl
  constructor
  · refine fresh_liveClocks h.clocks fun pid hActive => hNone _ pid ?_
    exact (hVisit pid hActive).imp And.left And.right
  · refine fresh_liveClocks h.freezes fun pid hActive => hNone _ pid ?_
    exact (hVisit pid hActive).imp And.right And.right

/-- The new visit leaves the clocks fresh: its process has none. -/
theorem fresh_append {visits new : List Visit} {active : Option Pid} {tracker : Map Pid Instant}
    (h : Fresh visits active tracker) (hNew : ∀ v ∈ new, active = some v.pid) :
    Fresh (visits ++ new) none tracker where
  since := by
    intro pid since hLookup v hv hPid
    rcases List.mem_append.mp hv with hOld | hLast
    · exact h.since pid since hLookup v hOld hPid
    · have hActive := hNew v hLast
      rw [hPid] at hActive
      rw [h.unclocked pid hActive] at hLookup
      cases hLookup
  unclocked := fun pid hNone => by cases hNone

/-- The clocks after a call. -/
theorem fresh_pass (h : Inv s) (hVisit : VisitsUnclocked s c) :
    Fresh s.visits (s.input c).activePid (s.pass c).state.pidTracker ∧
      Fresh s.visits (s.input c).activePid (s.pass c).state.freezePidTracker := by
  unfold IdleRun.pass
  cases hSwap : (s.input c).swapTooFull with
  | true =>
      have hSame : checkIdleProcessReclaim (s.input c) (s.found c) = ⟨s.found c, [], []⟩ := by
        unfold checkIdleProcessReclaim
        rw [if_pos hSwap]
      rw [hSame]
      have hUnclocked : ∀ pid, (s.input c).activePid = some pid →
          s.state.pidTracker.lookup pid = none ∧ s.state.freezePidTracker.lookup pid = none := by
        intro pid hActive
        refine (hVisit pid hActive).resolve_right fun hGone => ?_
        rw [hSwap] at hGone
        cases hGone.1
      exact ⟨⟨h.clocks.since, fun pid hActive => (hUnclocked pid hActive).1⟩,
        ⟨h.freezes.since, fun pid hActive => (hUnclocked pid hActive).2⟩⟩
  | false =>
      have hFound := fresh_found h hVisit
      have hPass := pass_fresh (s := s.found c) hSwap (after_input h c) hFound.1 hFound.2
      exact ⟨hPass.1, hPass.2.1⟩

theorem inv_step (h : Inv s) (hVisit : VisitsUnclocked s c) : Inv (step s c) := by
  have hNew : ∀ v ∈ c.input.activePid.toList.map (fun pid =>
      ({ pid := pid, incarnation := c.incarnation pid, at_ := s.clock + c.gap + c.length } :
        Visit)), c.input.activePid = some v.pid ∧ v.at_ = s.clock + c.gap + c.length := by
    intro v hv
    rcases List.mem_map.mp hv with ⟨pid, hActive, rfl⟩
    exact ⟨Option.mem_toList.mp hActive, rfl⟩
  have hFresh := fresh_pass h hVisit
  constructor
  · intro v hv
    rcases List.mem_append.mp hv with hOld | hLast
    · have hPast := h.past v hOld
      exact Nat.le_add_right_of_le (Nat.le_add_right_of_le hPast)
    · exact (hNew v hLast).2.le
  · exact fresh_append hFresh.1 fun v hv => (hNew v hv).1
  · exact fresh_append hFresh.2 fun v hv => (hNew v hv).1

/-- **One call** reclaims and freezes only those that have been away. -/
theorem idle_step (h : Inv s) (hVisit : VisitsUnclocked s c) : IdleMeansIdle s c := by
  have hFound := fresh_found h hVisit
  constructor
  · intro p _ hReclaims
    rcases hReclaims with ⟨candidate, -, hBytes, -⟩
    rcases idle_of_bytes (s := s.found c) hFound.1 hBytes with ⟨hBackground, hLong⟩
    exact ⟨hBackground, fun v hv hPid _ => hLong v hv hPid⟩
  · intro p _ freezeSecs hSecs hStop
    unfold Freezes at hStop
    cases hSwap : (s.input c).swapTooFull with
    | true =>
        unfold checkIdleProcessReclaim at hStop
        rw [if_pos hSwap] at hStop
        cases hStop
    | false =>
        have hPass := pass_fresh (s := s.found c) hSwap (after_input h c) hFound.1 hFound.2
        rcases hPass.2.2 freezeSecs hSecs p.pid hStop with ⟨hBackground, since, hSince, hLong⟩
        exact ⟨hBackground, fun v hv hPid _ =>
          hLong.trans (Instant.secsSince_anti (hSince v hv hPid))⟩

/--
**Idle means idle**, in every run of calls at each of which the active window has no
clock that the call keeps: a process is reclaimed or frozen only if it was the
active window of no call within its threshold.
-/
theorem idle_of_unclocked (calls : List IdleCall)
    (hVisits : EveryStep step VisitsUnclocked .start calls) :
    EveryStep step IdleMeansIdle .start calls :=
  everyStep_of_invariant (fun _ _ hInv hVisit => inv_step hInv hVisit)
    (fun _ _ hInv hVisit => idle_step hInv hVisit) inv_start hVisits

end Runs

/-! ## A browser that is looked at -/

def browser : Process where
  pid := ⟨100⟩
  name := "firefox"
  exeBasename := some "firefox"
  rssKb := Kb.clamp 400000
  swapKb := Kb.clamp 0
  oomScore := 0
  cgroupPath := some "app-firefox.scope"
  cpuPct := 0
  majflt := 0
  cmdline := "firefox"

/-- A call at an instant, with a threshold of 180 s for both passes. -/
def browserCall (gap : Nat) (activePid : Option Pid) : IdleCall where
  input :=
    { cfg := CompiledConfig.ofEmpty 15
      idleCfg :=
        { maxSwapOccupancyPct := 60
          idleSec := 180
          rssMinMb := 50
          reclaimPct := 20
          importantEnabled := false
          importantMinPriority := 20
          importantIdleSec := 300
          importantPct := 10 }
      freezeAfterSec := some 180
      planProcs := [browser]
      activePid := activePid
      meminfo := ⟨Kb.clamp 4000000, Kb.clamp 16000000, Kb.clamp 0, Kb.clamp 0⟩
      clock :=
        { select := fun _ => 0
          start := fun _ => 0
          reset := fun _ => 0
          freezeEnter := fun _ => 0
          freezeRead := fun _ => 0 }
      unixNow := 1700000000
      fs :=
        { hasSubdir := fun _ => some false
          hasReclaim := fun _ => true
          mayWrite := fun _ => true
          answer := fun _ _ => none }
      kill := fun _ _ => none
      startTimes := ⟨fun _ => some 50, fun _ => some 50, fun _ => some 50⟩
      others := fun _ frozen => frozen }
  gap := Instant.ofSecs gap
  length := 0
  inTime := fun _ => ⟨le_rfl, le_rfl, le_rfl, le_rfl, le_rfl⟩
  registry := FrozenRegistry.new
  incarnation := fun _ => some 50

/-- Left at 10 s, the browser is reclaimed at 220 s, its clock running from 20 s. -/
def browserLeft : List IdleCall :=
  [browserCall 10 (some ⟨100⟩), browserCall 10 none, browserCall 200 none]

theorem browserLeft_idle : EveryStep step IdleMeansIdle .start browserLeft := by
  refine idle_of_unclocked browserLeft ⟨?_, ?_, ?_, trivial⟩
  · intro pid hActive
    cases hActive
    exact Or.inl ⟨rfl, rfl⟩
  · intro pid hActive
    cases hActive
  · intro pid hActive
    cases hActive

/-- In the background at 10 s, looked at at 180 s. -/
def browserVisited : List IdleCall := [browserCall 10 none, browserCall 170 (some ⟨100⟩)]

/-- At 200 s it is reclaimed and frozen. -/
theorem visited_browser_reclaimed :
    ¬ EveryStep step IdleMeansIdle .start (browserVisited ++ [browserCall 20 none]) := by
  intro h
  have hIdle : IdleMeansIdle (run step .start browserVisited) (browserCall 20 none) := h.at_split
  have hReclaims : Reclaims ((run step .start browserVisited).input (browserCall 20 none))
      ((run step .start browserVisited).found (browserCall 20 none)) browser :=
    ⟨(⟨100⟩, 81920000), by decide +kernel, by decide +kernel,
      ⟨"app-firefox.scope", 81920000⟩, by decide +kernel, by decide +kernel⟩
  have hVisit : (⟨⟨100⟩, some 50, Instant.ofSecs 180⟩ : Visit) ∈
      (run step .start browserVisited).visits := by
    decide +kernel
  have hLong := (hIdle.reclaimed browser List.mem_cons_self hReclaims).2 _ hVisit rfl rfl
  revert hLong
  decide +kernel

end Mgd.Evictor.IdleVisits
