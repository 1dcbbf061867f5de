import Mgd.Evictor.IdleVisits

/-!
# Whose turn it is in idle reclaim

A sweep tries the first three candidates, in the order of the process list.  A
process that was reclaimed, or for which the kernel answered EAGAIN, gets a new
clock and leaves its slot to others until that is old.  One that was skipped or
failed keeps its clock, and its slot in the next sweep.

`attempted_of_rotating` : how soon each process is attempted when no sweep spends
its three slots on processes attempted before while another one waits.
-/

namespace Mgd.Evictor.IdleRotation

open Mgd.Types Mgd.Monitor Mgd.Config Mgd.Lib.AssocMap Mgd.Lib.Run Mgd.Engine.Planner
open Mgd.Executor.Registry Mgd.Evictor.Execute Mgd.Evictor.Reclaim Mgd.Evictor.IdleReclaim
open Mgd.Evictor.IdleVisits

/-! ## Attempts -/

/-- `try_reclaim_cgroup` is called for the candidate. -/
def tried (i : IdleInput) (candidate : Pid × Nat) : Bool :=
  decide (candidate.2 ≠ 0) && (cgroupOf i.planProcs candidate.1).isSome

def attempts (i : IdleInput) (s : IdleState) : List Pid :=
  if i.swapTooFull then []
  else (((i.candidates s).take 3).filter (tried i)).map Prod.fst

/-- Sweeps, and whom they have attempted. -/
structure Rotation where
  idle : IdleRun
  attempted : List Pid

def Rotation.start (idle : IdleRun) : Rotation where
  idle := idle
  attempted := []

def Rotation.candidates (s : Rotation) (c : IdleCall) : List (Pid × Nat) :=
  (s.idle.input c).candidates (s.idle.found c)

def sweep (s : Rotation) (c : IdleCall) : Rotation where
  idle := step s.idle c
  attempted := s.attempted ++ attempts (s.idle.input c) (s.idle.found c)

/-! ## The property -/

/-- In the background, of a priority and a size to be reclaimed once it is idle,
with something to reclaim and a known cgroup. -/
structure Eligible (i : IdleInput) (p : Process) : Prop where
  background : some p.pid ≠ i.activePid
  large : ∃ bytes, bytes ≠ 0 ∧
    idleReclaimBytes i.idleCfg i.cfg (requiredIdle i.idleCfg i.cfg p) p = some bytes
  cgroup : ∃ cgroup, cgroupOf i.planProcs p.pid = some cgroup

/-- Swap is below the limits, and the processes are eligible and in their order. -/
structure Steady (ic : IdleReclaimConfig) (pids : List Pid) (c : IdleCall) : Prop where
  config : c.input.idleCfg = ic
  room : c.input.swapTooFull = false
  occupancy : c.input.swapUsedPct ≤ ic.maxSwapOccupancyPct
  listed : (c.input.planProcs.map Process.pid).filter (fun pid => decide (pid ∈ pids)) = pids
  eligible : ∀ p ∈ c.input.planProcs, p.pid ∈ pids → Eligible c.input p

/-- The longer of the two thresholds. -/
def longestIdle (ic : IdleReclaimConfig) : Nat :=
  max ic.idleSec ic.importantIdleSec

/-- The candidate waits for its first attempt. -/
def Waits (pids : List Pid) (s : Rotation) (candidate : Pid × Nat) : Prop :=
  candidate.1 ∈ pids ∧ candidate.1 ∉ s.attempted

/-- A second after the sweep before, and not without a slot for a candidate that
waits when there is one. -/
structure Rotates (pids : List Pid) (s : Rotation) (c : IdleCall) : Prop where
  apart : Instant.ofSecs 1 ≤ c.gap
  turn : (∃ candidate ∈ s.candidates c, Waits pids s candidate) →
    ∃ candidate ∈ (s.candidates c).take 3, Waits pids s candidate

/-! ## The clocks after a sweep -/

section Clocks

variable {i : IdleInput} {s : IdleState}

theorem lookup_startClock (tracker : Map Pid Instant) (p : Process) (pid : Pid) :
    (i.startClock tracker p).lookup pid =
      if pid = p.pid ∧ some pid ≠ i.activePid then
        some ((tracker.lookup pid).getD (i.clock.start pid))
      else tracker.lookup pid := by
  unfold IdleInput.startClock
  by_cases hActive : some p.pid = i.activePid
  · rw [if_neg (fun h => h hActive)]
    refine (if_neg fun h => h.2 ?_).symm
    rw [h.1]
    exact hActive
  · rw [if_pos hActive, IdleFreeze.lookup_orInsert]
    by_cases hSame : pid = p.pid
    · subst hSame
      rw [if_pos rfl, if_pos ⟨rfl, hActive⟩]
    · rw [if_neg hSame, if_neg (fun h => hSame h.1)]

/-- A listed process in the background has a clock after the sweep has started
those that were missing. -/
theorem lookup_startClocks (procs : List Process) (tracker : Map Pid Instant) (pid : Pid) :
    (procs.foldl i.startClock tracker).lookup pid =
      if pid ∈ procs.map Process.pid ∧ some pid ≠ i.activePid then
        some ((tracker.lookup pid).getD (i.clock.start pid))
      else tracker.lookup pid := by
  induction procs generalizing tracker with
  | nil => rfl
  | cons p rest ih =>
      rw [List.foldl_cons, ih, lookup_startClock]
      simp only [List.map_cons, List.mem_cons]
      by_cases hActive : some pid ≠ i.activePid
      · by_cases hSame : pid = p.pid
        · subst hSame
          simp only [true_or, true_and, if_pos hActive, Option.getD_some, ite_self]
        · simp only [hSame, false_or, false_and, if_false]
      · simp only [hActive, and_false, if_false]

/-- A candidate changes no clock but its own, and that only when it is tried. -/
theorem lookup_reclaimCandidate (acc : IdlePass) (candidate : Pid × Nat) (pid : Pid) :
    (i.reclaimCandidate acc candidate).state.pidTracker.lookup pid =
        acc.state.pidTracker.lookup pid ∨
      (candidate.1 = pid ∧ tried i candidate = true ∧
        (i.reclaimCandidate acc candidate).state.pidTracker.lookup pid =
          some (i.clock.reset pid)) := by
  unfold IdleInput.reclaimCandidate
  split
  · exact Or.inl rfl
  next hBytes =>
  split
  · exact Or.inl rfl
  next cgroup hCgroup =>
  have hTried : tried i candidate = true := by
    unfold tried
    rw [hCgroup, Option.isSome_some, Bool.and_true]
    exact decide_eq_true hBytes
  have hReset : (acc.state.pidTracker.insert candidate.1 (i.clock.reset candidate.1)).lookup pid =
        acc.state.pidTracker.lookup pid ∨
      (candidate.1 = pid ∧ tried i candidate = true ∧
        (acc.state.pidTracker.insert candidate.1 (i.clock.reset candidate.1)).lookup pid =
          some (i.clock.reset pid)) := by
    rw [lookup_insert_eq]
    by_cases hSame : pid = candidate.1
    · subst hSame
      exact Or.inr ⟨rfl, hTried, if_pos rfl⟩
    · exact Or.inl (if_neg hSame)
  dsimp only
  split
  · exact hReset
  · exact hReset
  · exact Or.inl rfl
  · exact Or.inl rfl

theorem lookup_reclaims (xs : List (Pid × Nat)) (acc : IdlePass) (pid : Pid) :
    (xs.foldl i.reclaimCandidate acc).state.pidTracker.lookup pid =
        acc.state.pidTracker.lookup pid ∨
      (pid ∈ (xs.filter (tried i)).map Prod.fst ∧
        (xs.foldl i.reclaimCandidate acc).state.pidTracker.lookup pid =
          some (i.clock.reset pid)) := by
  induction xs generalizing acc with
  | nil => exact Or.inl rfl
  | cons x rest ih =>
      rw [List.foldl_cons]
      have hRest : ∀ pid, pid ∈ (rest.filter (tried i)).map Prod.fst →
          pid ∈ ((x :: rest).filter (tried i)).map Prod.fst := by
        intro pid hMem
        exact List.map_subset _ ((List.sublist_cons_self x rest).filter _).subset hMem
      rcases ih (i.reclaimCandidate acc x) with hSame | ⟨hMem, hReset⟩
      · rcases lookup_reclaimCandidate acc x pid with hFirst | ⟨hPid, hTried, hReset⟩
        · exact Or.inl (hSame.trans hFirst)
        · refine Or.inr ⟨?_, hSame.trans hReset⟩
          rw [List.filter_cons_of_pos hTried, List.map_cons, hPid]
          exact List.mem_cons_self
      · exact Or.inr ⟨hRest pid hMem, hReset⟩

/-- The idle freeze leaves the clocks of the reclaim alone. -/
theorem pidTracker_idleFreeze (freezeSecs freezeCount : Nat) (procs : List Process)
    (acc : IdlePass) :
    (i.idleFreeze freezeSecs freezeCount procs acc).state.pidTracker = acc.state.pidTracker := by
  induction procs generalizing freezeCount acc with
  | nil => rfl
  | cons p rest ih =>
      unfold IdleInput.idleFreeze
      dsimp only
      split
      · rfl
      split
      · exact ih _ _
      split
      · exact ih _ _
      split
      · exact ih _ _
      · rw [ih, (freezeIdle_trackers p _).1]

/-- The pass before its first candidate. -/
def started (i : IdleInput) (s : IdleState) : IdlePass where
  state := { s with pidTracker := i.planProcs.foldl i.startClock (i.liveClocks s.pidTracker) }
  written := []
  signals := []

theorem pidTracker_pass (hRoom : i.swapTooFull = false) :
    (checkIdleProcessReclaim i s).state.pidTracker =
      (((i.candidates s).take 3).foldl i.reclaimCandidate (started i s)).state.pidTracker := by
  unfold checkIdleProcessReclaim
  rw [hRoom]
  simp only [Bool.false_eq_true, if_false]
  cases i.freezeAfterSec with
  | none => rfl
  | some freezeSecs => exact pidTracker_idleFreeze freezeSecs 0 i.planProcs _

theorem lookup_started {pid : Pid} (hListed : pid ∈ i.planProcs.map Process.pid)
    (hBackground : some pid ≠ i.activePid) :
    (started i s).state.pidTracker.lookup pid =
      some ((s.pidTracker.lookup pid).getD (i.clock.start pid)) := by
  have hStart := lookup_startClocks (i := i) i.planProcs (i.liveClocks s.pidTracker) pid
  rw [if_pos ⟨hListed, hBackground⟩] at hStart
  have hLive : (i.liveClocks s.pidTracker).lookup pid = s.pidTracker.lookup pid := by
    unfold IdleInput.liveClocks
    rw [lookup_retain_key]
    exact if_pos (decide_eq_true hListed)
  rw [hLive] at hStart
  exact hStart

/-- **The clock of a process that is not attempted** runs on. -/
theorem lookup_pass_of_not_attempted (hRoom : i.swapTooFull = false) {pid : Pid}
    (hListed : pid ∈ i.planProcs.map Process.pid) (hBackground : some pid ≠ i.activePid)
    (hNot : pid ∉ attempts i s) :
    (checkIdleProcessReclaim i s).state.pidTracker.lookup pid =
      some ((s.pidTracker.lookup pid).getD (i.clock.start pid)) := by
  rw [pidTracker_pass hRoom, ← lookup_started hListed hBackground]
  refine (lookup_reclaims _ (started i s) pid).resolve_right fun hReset => hNot ?_
  unfold attempts
  rw [hRoom]
  exact hReset.1

/-- A clock after a sweep was there before, or was read in the sweep. -/
theorem clock_of_pass {pid : Pid} {since : Instant}
    (h : (checkIdleProcessReclaim i s).state.pidTracker.lookup pid = some since) :
    s.pidTracker.lookup pid = some since ∨ since = i.clock.start pid ∨
      since = i.clock.reset pid := by
  cases hSwap : i.swapTooFull with
  | true =>
      unfold checkIdleProcessReclaim at h
      rw [if_pos hSwap] at h
      exact Or.inl h
  | false =>
      rw [pidTracker_pass hSwap] at h
      rcases lookup_reclaims ((i.candidates s).take 3) (started i s) pid with hSame | ⟨-, hReset⟩
      · have hStart := (lookup_startClocks (i := i) i.planProcs _ pid).symm.trans
          (hSame.symm.trans h)
        have hOld : ∀ since, (i.liveClocks s.pidTracker).lookup pid = some since →
            s.pidTracker.lookup pid = some since := by
          intro since hLive
          unfold IdleInput.liveClocks at hLive
          rw [lookup_retain_key] at hLive
          split at hLive
          · exact hLive
          · cases hLive
        split at hStart
        · cases hLive : (i.liveClocks s.pidTracker).lookup pid with
          | none =>
              rw [hLive] at hStart
              exact Or.inr (Or.inl (Option.some.inj hStart).symm)
          | some old =>
              rw [hLive] at hStart
              exact Or.inl (hOld since (hLive.trans hStart))
        · exact Or.inl (hOld since hStart)
      · exact Or.inr (Or.inr (Option.some.inj (h.symm.trans hReset)))

end Clocks

/-! ## One sweep -/

section Sweeps

variable {ic : IdleReclaimConfig} {pids : List Pid} {s : Rotation} {c : IdleCall}

theorem Steady.exists_eligible (h : Steady ic pids c) {pid : Pid} (hMem : pid ∈ pids) :
    ∃ p ∈ c.input.planProcs, p.pid = pid ∧ Eligible c.input p := by
  have hListed := hMem
  rw [← h.listed] at hListed
  obtain ⟨p, hp, rfl⟩ := List.mem_map.mp (List.mem_of_mem_filter hListed)
  exact ⟨p, hp, rfl, h.eligible p hp hMem⟩

/-- What a process in the background stands for. -/
theorem idleBytes_eq (i : IdleInput) (found : IdleState) {p : Process}
    (hBackground : some p.pid ≠ i.activePid) :
    i.idleBytes found p =
      if requiredIdle i.idleCfg i.cfg p ≤
          idleSecs (i.liveClocks found.pidTracker) i.clock.select p.pid then
        (idleReclaimBytes i.idleCfg i.cfg (requiredIdle i.idleCfg i.cfg p) p).map (p.pid, ·)
      else none := by
  unfold IdleInput.idleBytes
  rw [if_neg hBackground, idleReclaimBytes_eq]
  split <;> rfl

/-- With an old enough clock, each of the processes is a candidate. -/
theorem candidate_of_old (h : Steady ic pids c) {pid : Pid} (hMem : pid ∈ pids) {since : Instant}
    (hClock : s.idle.state.pidTracker.lookup pid = some since)
    (hOld : since + Instant.ofSecs (longestIdle ic) ≤ s.idle.clock + c.gap) :
    ∃ candidate ∈ s.candidates c, candidate.1 = pid := by
  obtain ⟨p, hp, rfl, hEligible⟩ := h.exists_eligible hMem
  obtain ⟨bytes, -, hBytes⟩ := hEligible.large
  have hLive : ((s.idle.input c).liveClocks s.idle.state.pidTracker).lookup p.pid = some since := by
    unfold IdleInput.liveClocks
    rw [lookup_retain_key]
    exact (if_pos (decide_eq_true (List.mem_map_of_mem hp))).trans hClock
  have hSecs : requiredIdle c.input.idleCfg c.input.cfg p ≤
      idleSecs ((s.idle.input c).liveClocks s.idle.state.pidTracker)
        (s.idle.input c).clock.select p.pid := by
    have hRequired : requiredIdle c.input.idleCfg c.input.cfg p ≤ longestIdle ic := by
      rw [h.config]
      unfold requiredIdle longestIdle
      split
      · exact le_max_left _ _
      · exact le_max_right _ _
    have hRead : since + Instant.ofSecs (longestIdle ic) ≤
        (s.idle.input c).clock.select p.pid := Nat.le_add_right_of_le hOld
    unfold idleSecs
    rw [hLive]
    exact hRequired.trans (Instant.le_secsSince hRead)
  refine ⟨(p.pid, bytes), ?_, rfl⟩
  have hRoom : (s.idle.input c).swapUsedPct ≤ (s.idle.input c).idleCfg.maxSwapOccupancyPct := by
    have hConfig : (s.idle.input c).idleCfg = ic := h.config
    rw [hConfig]
    exact h.occupancy
  unfold Rotation.candidates
  rw [candidates_eq, if_pos hRoom]
  refine List.mem_filterMap.mpr ⟨p, hp, ?_⟩
  rw [idleBytes_eq (s.idle.input c) (s.idle.found c) hEligible.background]
  exact (if_pos hSecs).trans (congrArg (Option.map (p.pid, ·)) hBytes)

/-- A candidate of a process that is eligible is tried. -/
theorem attempted_of_candidate (h : Steady ic pids c) {candidate : Pid × Nat}
    (hFirst : candidate ∈ (s.candidates c).take 3) (hMem : candidate.1 ∈ pids) :
    candidate.1 ∈ attempts (s.idle.input c) (s.idle.found c) := by
  have hCandidate := List.mem_of_mem_take hFirst
  unfold Rotation.candidates at hCandidate
  rw [candidates_eq] at hCandidate
  split at hCandidate
  · obtain ⟨p, hp, hBytes⟩ := List.mem_filterMap.mp hCandidate
    unfold IdleInput.idleBytes at hBytes
    split at hBytes
    · cases hBytes
    obtain ⟨amount, hAmount, rfl⟩ := Option.map_eq_some_iff.mp hBytes
    obtain ⟨-, ⟨bytes, hPos, hLarge⟩, ⟨cgroup, hCgroup⟩⟩ := h.eligible p hp hMem
    rw [idleReclaimBytes_eq] at hAmount
    split at hAmount
    · have hSame : amount = bytes := Option.some.inj (hAmount.symm.trans hLarge)
      have hTried : tried (s.idle.input c) (p.pid, amount) = true := by
        have hKnown : (cgroupOf (s.idle.input c).planProcs p.pid).isSome = true := by
          rw [Option.isSome_iff_exists]
          exact ⟨cgroup, hCgroup⟩
        unfold tried
        rw [hKnown, Bool.and_true]
        exact decide_eq_true (hSame ▸ hPos)
      have hRoom : (s.idle.input c).swapTooFull = false := h.room
      unfold attempts
      rw [hRoom]
      exact List.mem_map_of_mem (List.mem_filter.mpr ⟨hFirst, hTried⟩)
    · cases hAmount
  · cases hCandidate

/-- The processes that wait for their first attempt. -/
def waiting (pids : List Pid) (s : Rotation) : List Pid :=
  pids.filter fun pid => decide (pid ∉ s.attempted)

theorem mem_waiting_iff {pid : Pid} :
    pid ∈ waiting pids s ↔ pid ∈ pids ∧ pid ∉ s.attempted := by
  unfold waiting
  rw [List.mem_filter, decide_eq_true_eq]

theorem waiting_sweep (pids : List Pid) (s : Rotation) (c : IdleCall) :
    waiting pids (sweep s c) =
      (waiting pids s).filter fun pid =>
        decide (pid ∉ attempts (s.idle.input c) (s.idle.found c)) := by
  unfold waiting sweep
  rw [List.filter_filter]
  refine List.filter_congr fun pid _ => ?_
  simp only [List.mem_append, not_or, Bool.decide_and, Bool.and_comm]

/-- What is known after `n` steady sweeps: no clock is in the future, those that
wait have a clock that started with the first sweep, and once their clocks are old
there is one less of them with each sweep. -/
structure Inv (ic : IdleReclaimConfig) (pids : List Pid) (n : Nat) (s : Rotation) : Prop where
  past : ∀ pid since, s.idle.state.pidTracker.lookup pid = some since → since ≤ s.idle.clock
  clocked : 0 < n → ∀ pid ∈ waiting pids s, ∃ since,
    s.idle.state.pidTracker.lookup pid = some since ∧
      since + Instant.ofSecs (n - 1) ≤ s.idle.clock
  few : (waiting pids s).length ≤ pids.length - (n - (longestIdle ic + 1))

theorem past_step {idle : IdleRun}
    (h : ∀ pid since, idle.state.pidTracker.lookup pid = some since → since ≤ idle.clock)
    (c : IdleCall) {pid : Pid} {since : Instant}
    (hClock : (step idle c).state.pidTracker.lookup pid = some since) :
    since ≤ (step idle c).clock := by
  obtain ⟨-, hStart, hReset, -, -⟩ := c.inTime pid
  rcases clock_of_pass (i := idle.input c) (s := idle.found c) hClock with hOld | hNew | hNew
  · exact (h pid since hOld).trans (Nat.le_add_right_of_le (Nat.le_add_right _ _))
  · rw [hNew]
    exact Nat.add_le_add_left hStart _
  · rw [hNew]
    exact Nat.add_le_add_left hReset _

theorem inv_start {idle : IdleRun}
    (h : ∀ pid since, idle.state.pidTracker.lookup pid = some since → since ≤ idle.clock) :
    Inv ic pids 0 (.start idle) where
  past := h
  clocked := fun hPos => absurd hPos (lt_irrefl 0)
  few := (List.length_filter_le _ _).trans (Nat.le_of_eq (by rw [Nat.zero_sub, Nat.sub_zero]))

/-- Those that still wait after a sweep have kept their clock or got one. -/
theorem clocked_sweep {n : Nat} (h : Inv ic pids n s) (hSteady : Steady ic pids c)
    (hApart : Instant.ofSecs 1 ≤ c.gap) {pid : Pid} (hWaits : pid ∈ waiting pids (sweep s c)) :
    ∃ since, (sweep s c).idle.state.pidTracker.lookup pid = some since ∧
      since + Instant.ofSecs n ≤ (sweep s c).idle.clock := by
  rw [waiting_sweep, List.mem_filter, decide_eq_true_eq] at hWaits
  obtain ⟨hBefore, hNot⟩ := hWaits
  obtain ⟨p, hp, rfl, hEligible⟩ := hSteady.exists_eligible (mem_waiting_iff.mp hBefore).1
  have hRoom : (s.idle.input c).swapTooFull = false := hSteady.room
  have hAfter := lookup_pass_of_not_attempted hRoom (List.mem_map_of_mem hp)
    hEligible.background hNot
  refine ⟨_, hAfter, ?_⟩
  cases n with
  | zero =>
      have hPast := past_step h.past c hAfter
      rwa [Instant.ofSecs, Nat.zero_mul, Nat.add_zero]
  | succ n =>
      obtain ⟨since, hClock, hOld⟩ := h.clocked n.succ_pos p.pid hBefore
      have hFound : (s.idle.found c).pidTracker.lookup p.pid = some since := hClock
      rw [hFound, Option.getD_some]
      calc since + Instant.ofSecs (n + 1)
          = since + Instant.ofSecs n + Instant.ofSecs 1 := by
            unfold Instant.ofSecs
            rw [Nat.add_mul, Nat.add_assoc]
        _ ≤ s.idle.clock + c.gap := Nat.add_le_add hOld hApart
        _ ≤ (sweep s c).idle.clock := Nat.le_add_right _ _

/-- When their clocks are old, one of those that wait gets its attempt. -/
theorem fewer_sweep {n : Nat} (h : Inv ic pids n s) (hSteady : Steady ic pids c)
    (hRotates : Rotates pids s c) (hOld : longestIdle ic + 1 ≤ n) (hSome : waiting pids s ≠ []) :
    (waiting pids (sweep s c)).length < (waiting pids s).length := by
  obtain ⟨pid, hWaits⟩ := List.exists_mem_of_ne_nil _ hSome
  obtain ⟨since, hClock, hSince⟩ := h.clocked (by omega) pid hWaits
  obtain ⟨hMem, hNot⟩ := mem_waiting_iff.mp hWaits
  have hLong : since + Instant.ofSecs (longestIdle ic) ≤ s.idle.clock + c.gap := by
    have hMono : Instant.ofSecs (longestIdle ic) ≤ Instant.ofSecs (n - 1) :=
      Nat.mul_le_mul_right _ (by omega)
    exact (Nat.add_le_add_left hMono since).trans (Nat.le_add_right_of_le hSince)
  obtain ⟨candidate, hCandidate, rfl⟩ := candidate_of_old hSteady hMem hClock hLong
  obtain ⟨first, hFirst, hFirstMem, hFirstNot⟩ := hRotates.turn ⟨candidate, hCandidate, hMem, hNot⟩
  rw [waiting_sweep, List.length_filter_lt_length_iff_exists]
  refine ⟨first.1, mem_waiting_iff.mpr ⟨hFirstMem, hFirstNot⟩, ?_⟩
  rw [decide_eq_true_eq, not_not]
  exact attempted_of_candidate hSteady hFirst hFirstMem

/-- **One sweep.** -/
theorem inv_sweep {n : Nat} (h : Inv ic pids n s) (hSteady : Steady ic pids c)
    (hRotates : Rotates pids s c) : Inv ic pids (n + 1) (sweep s c) where
  past := fun _ _ hClock => past_step h.past c hClock
  clocked := fun _ _ hWaits => clocked_sweep h hSteady hRotates.apart hWaits
  few := by
    have hLe : (waiting pids (sweep s c)).length ≤ (waiting pids s).length := by
      rw [waiting_sweep]
      exact List.length_filter_le _ _
    have hFew := h.few
    by_cases hOld : longestIdle ic + 1 ≤ n
    · by_cases hSome : waiting pids s = []
      · rw [hSome, List.length_nil] at hLe
        omega
      · have hLt := fewer_sweep h hSteady hRotates hOld hSome
        omega
    · omega

end Sweeps

/-! ## Over a whole run -/

/-- In every run no clock is in the future. -/
theorem past_run (before : List IdleCall) {idle : IdleRun}
    (h : ∀ pid since, idle.state.pidTracker.lookup pid = some since → since ≤ idle.clock) :
    ∀ pid since, (run step idle before).state.pidTracker.lookup pid = some since →
      since ≤ (run step idle before).clock := by
  induction before generalizing idle with
  | nil => exact h
  | cons c rest ih => exact ih fun _ _ hClock => past_step h c hClock

/--
**When idle reclaim does not starve.**  Processes that are eligible in every sweep,
in any state that a run has reached, have all been attempted after as many sweeps
as there are processes, seconds in the longer threshold, and one more, when no
sweep leaves one waiting without giving a slot to one that waits.
-/
theorem attempted_of_rotating (ic : IdleReclaimConfig) (pids : List Pid)
    (before sweeps : List IdleCall) (hSteady : ∀ c ∈ sweeps, Steady ic pids c)
    (hRotates : EveryStep sweep (Rotates pids) (.start (run step .start before)) sweeps)
    (hLong : pids.length + longestIdle ic + 1 ≤ sweeps.length) :
    ∀ pid ∈ pids, pid ∈ (run sweep (.start (run step .start before)) sweeps).attempted := by
  have hStart : ∀ pid since, IdleRun.start.state.pidTracker.lookup pid = some since →
      since ≤ IdleRun.start.clock := nofun
  have hPast := past_run before hStart
  have hInv := run_of_counted
    (fun n s c h hSweep => inv_sweep h hSweep.1 hSweep.2) (inv_start hPast)
    ((everyStep_of_forall_mem hSteady _).and hRotates)
  have hNone : waiting pids (run sweep (.start (run step .start before)) sweeps) = [] := by
    have hFew : (waiting pids (run sweep (.start (run step .start before)) sweeps)).length ≤
        pids.length - (0 + sweeps.length - (longestIdle ic + 1)) := hInv.few
    rw [← List.length_eq_zero_iff]
    omega
  intro pid hMem
  by_contra hNot
  have hWaits := mem_waiting_iff.mpr ⟨hMem, hNot⟩
  rw [hNone] at hWaits
  cases hWaits

instance (pids : List Pid) (s : Rotation) (candidate : Pid × Nat) :
    Decidable (Waits pids s candidate) :=
  inferInstanceAs (Decidable (_ ∧ _))

instance (pids : List Pid) (s : Rotation) (c : IdleCall) : Decidable (Rotates pids s c) :=
  decidable_of_iff
    (Instant.ofSecs 1 ≤ c.gap ∧ ((∃ candidate ∈ s.candidates c, Waits pids s candidate) →
      ∃ candidate ∈ (s.candidates c).take 3, Waits pids s candidate))
    ⟨fun h => ⟨h.1, h.2⟩, fun h => ⟨h.apart, h.turn⟩⟩

/-- A browser with four processes. -/
def tabs : List Process :=
  [{ browser with pid := ⟨1⟩ }, { browser with pid := ⟨2⟩ }, { browser with pid := ⟨3⟩ },
    { browser with pid := ⟨4⟩ }]

/-- A second after the call before, with both thresholds at two seconds. -/
def quickCall : IdleCall :=
  { browserCall 1 none with
    input :=
      { (browserCall 1 none).input with
        freezeAfterSec := none
        planProcs := tabs
        idleCfg :=
          { (browserCall 1 none).input.idleCfg with
            idleSec := 2
            importantIdleSec := 2 } } }

/-- The third sweep has four candidates for its three slots, the fourth one takes
the process that was left over. -/
theorem attempted_tabs :
    ((run sweep (.start (run step .start [])) (List.replicate 3 quickCall)).attempted =
        [⟨1⟩, ⟨2⟩, ⟨3⟩]) ∧
      ∀ pid ∈ tabs.map Process.pid, pid ∈
        (run sweep (.start (run step .start [])) (List.replicate 7 quickCall)).attempted := by
  refine ⟨by decide +kernel, ?_⟩
  refine attempted_of_rotating quickCall.input.idleCfg (tabs.map Process.pid) []
    (List.replicate 7 quickCall) ?_ (by decide +kernel) (by decide)
  intro c hMem
  rw [List.eq_of_mem_replicate hMem]
  refine ⟨rfl, by decide +kernel, by decide +kernel, by decide +kernel, fun p hp _ => ?_⟩
  have hFacts : ∀ p ∈ tabs, idleReclaimBytes quickCall.input.idleCfg quickCall.input.cfg
        (requiredIdle quickCall.input.idleCfg quickCall.input.cfg p) p = some 81920000 ∧
      cgroupOf tabs p.pid = some "app-firefox.scope" := by decide +kernel
  obtain ⟨hLarge, hCgroup⟩ := hFacts p hp
  exact ⟨nofun, ⟨81920000, by decide, hLarge⟩, ⟨"app-firefox.scope", hCgroup⟩⟩

/-! ## Three that are always skipped -/

section Skipped

variable {i : IdleInput}

/-- A cgroup with cgroups in it is skipped, and its process keeps its clock. -/
theorem reclaimCandidate_of_inner {candidate : Pid × Nat} {cgroup : String}
    (hCgroup : cgroupOf i.planProcs candidate.1 = some cgroup) (hName : cgroup ≠ "/" ∧ cgroup ≠ "")
    (hInner : isCgroupLeaf i.fs cgroup = false) (acc : IdlePass) :
    i.reclaimCandidate acc candidate = acc := by
  unfold IdleInput.reclaimCandidate
  split
  · rfl
  next hBytes =>
  have hSkipped : tryReclaimCgroup i.fs cgroup candidate.2 acc.written =
      (.skipped, acc.written) := by
    unfold tryReclaimCgroup reclaimCgroup
    rw [if_neg hBytes, if_neg (fun h => h.elim hName.1 hName.2), if_pos hInner]
  simp only [hCgroup, hSkipped]

/-- Three machines whose cgroups have cgroups in them, and an editor. -/
def queue : List Process :=
  [{ browser with pid := ⟨1⟩, cgroupPath := some "machine-1.scope" },
    { browser with pid := ⟨2⟩, cgroupPath := some "machine-2.scope" },
    { browser with pid := ⟨3⟩, cgroupPath := some "machine-3.scope" },
    { browser with pid := ⟨4⟩, cgroupPath := some "editor.scope" }]

def queueCall : IdleCall :=
  { browserCall 30 none with
    input :=
      { (browserCall 30 none).input with
        freezeAfterSec := none
        planProcs := queue
        fs := { (browserCall 30 none).input.fs with
          hasSubdir := fun cgroup => some (decide (cgroup ≠ "editor.scope")) } } }

/-- The four clocks read the same. -/
def Level (s : Rotation) : Prop :=
  ∀ p ∈ queue, s.idle.state.pidTracker.lookup p.pid = s.idle.state.pidTracker.lookup ⟨4⟩

variable {s : Rotation}

theorem idleBytes_queue (h : Level s) {p : Process} (hp : p ∈ queue) :
    (s.idle.input queueCall).idleBytes (s.idle.found queueCall) p =
      if 180 ≤ idleSecs s.idle.state.pidTracker (s.idle.input queueCall).clock.select ⟨4⟩ then
        some (p.pid, 81920000)
      else none := by
  have hAmounts : ∀ p ∈ queue, requiredIdle queueCall.input.idleCfg queueCall.input.cfg p = 180 ∧
      idleReclaimBytes queueCall.input.idleCfg queueCall.input.cfg 180 p = some 81920000 := by
    decide +kernel
  have hAmount : requiredIdle (s.idle.input queueCall).idleCfg (s.idle.input queueCall).cfg p =
        180 ∧
      idleReclaimBytes (s.idle.input queueCall).idleCfg (s.idle.input queueCall).cfg 180 p =
        some 81920000 := hAmounts p hp
  have hSecs : idleSecs ((s.idle.input queueCall).liveClocks (s.idle.found queueCall).pidTracker)
        (s.idle.input queueCall).clock.select p.pid =
      idleSecs s.idle.state.pidTracker (s.idle.input queueCall).clock.select ⟨4⟩ := by
    have hLive : (s.idle.input queueCall).isLive p.pid = true :=
      decide_eq_true (List.mem_map_of_mem hp)
    have hSame : (s.idle.found queueCall).pidTracker.lookup p.pid =
        s.idle.state.pidTracker.lookup ⟨4⟩ := h p hp
    unfold idleSecs IdleInput.liveClocks
    rw [lookup_retain_key, if_pos hLive, hSame]
    rfl
  have hBackground : some p.pid ≠ (s.idle.input queueCall).activePid := nofun
  rw [idleBytes_eq _ _ hBackground, hAmount.1, hAmount.2, hSecs, Option.map_some]

/-- The four are candidates together. -/
theorem candidates_queue (h : Level s) :
    s.candidates queueCall = [] ∨
      s.candidates queueCall =
        [(⟨1⟩, 81920000), (⟨2⟩, 81920000), (⟨3⟩, 81920000), (⟨4⟩, 81920000)] := by
  have hRoom : (s.idle.input queueCall).swapUsedPct ≤
      (s.idle.input queueCall).idleCfg.maxSwapOccupancyPct := by
    have hFacts : queueCall.input.swapUsedPct ≤ queueCall.input.idleCfg.maxSwapOccupancyPct := by
      decide +kernel
    exact hFacts
  have hQueue : s.candidates queueCall = queue.filterMap fun p =>
      if 180 ≤ idleSecs s.idle.state.pidTracker (s.idle.input queueCall).clock.select ⟨4⟩ then
        some (p.pid, 81920000)
      else none := by
    unfold Rotation.candidates
    rw [candidates_eq, if_pos hRoom]
    exact List.filterMap_congr fun p hp => idleBytes_queue h hp
  rw [hQueue]
  split
  · exact Or.inr rfl
  · exact Or.inl rfl

/-- A sweep skips the first three, and starts the clocks that are missing. -/
theorem reclaims_queue (h : Level s) (acc : IdlePass) :
    ((s.candidates queueCall).take 3).foldl (s.idle.input queueCall).reclaimCandidate acc =
      acc := by
  rcases candidates_queue h with hNone | hAll
  · rw [hNone]
    rfl
  · rw [hAll]
    have hSkips : ∀ (pid : Pid) (cgroup : String),
        cgroupOf queue pid = some cgroup → cgroup ≠ "/" ∧ cgroup ≠ "" →
          cgroup ≠ "editor.scope" → ∀ acc,
            (s.idle.input queueCall).reclaimCandidate acc (pid, 81920000) = acc := by
      intro pid cgroup hCgroup hName hOther acc
      refine reclaimCandidate_of_inner hCgroup hName ?_ acc
      have hSubdir : (s.idle.input queueCall).fs.hasSubdir cgroup = some true :=
        congrArg some (decide_eq_true hOther)
      unfold isCgroupLeaf
      rw [hSubdir]
      rfl
    simp only [List.take_succ_cons, List.take_zero, List.foldl_cons, List.foldl_nil]
    rw [hSkips ⟨1⟩ "machine-1.scope" rfl (by decide) (by decide),
      hSkips ⟨2⟩ "machine-2.scope" rfl (by decide) (by decide),
      hSkips ⟨3⟩ "machine-3.scope" rfl (by decide) (by decide)]

theorem level_sweep (h : Level s) : Level (sweep s queueCall) := by
  have hRoom : (s.idle.input queueCall).swapTooFull = false := by
    have hFacts : queueCall.input.swapTooFull = false := by decide +kernel
    exact hFacts
  have hClock : ∀ p ∈ queue, (sweep s queueCall).idle.state.pidTracker.lookup p.pid =
      some ((s.idle.state.pidTracker.lookup ⟨4⟩).getD (s.idle.clock + queueCall.gap + 0)) := by
    intro p hp
    have hBackground : some p.pid ≠ (s.idle.input queueCall).activePid := nofun
    have hStarted := lookup_started (i := s.idle.input queueCall) (s := s.idle.found queueCall)
      (List.mem_map_of_mem hp) hBackground
    have hPass := pidTracker_pass (s := s.idle.found queueCall) hRoom
    have hSame : ((s.candidates queueCall).take 3).foldl
        (s.idle.input queueCall).reclaimCandidate
          (started (s.idle.input queueCall) (s.idle.found queueCall)) = _ := reclaims_queue h _
    unfold Rotation.candidates at hSame
    rw [hSame] at hPass
    have hFound : (s.idle.found queueCall).pidTracker.lookup p.pid =
        s.idle.state.pidTracker.lookup ⟨4⟩ := h p hp
    rw [hFound] at hStarted
    exact (congrArg (fun tracker => tracker.lookup p.pid) hPass).trans hStarted
  intro p hp
  rw [hClock p hp]
  exact (hClock { browser with pid := ⟨4⟩, cgroupPath := some "editor.scope" }
    (List.mem_of_elem_eq_true rfl)).symm

theorem editor_not_attempted (h : Level s) :
    (⟨4⟩ : Pid) ∉ attempts (s.idle.input queueCall) (s.idle.found queueCall) := by
  have hRoom : (s.idle.input queueCall).swapTooFull = false := by
    have hFacts : queueCall.input.swapTooFull = false := by decide +kernel
    exact hFacts
  unfold attempts
  rw [hRoom]
  intro hMem
  obtain ⟨candidate, hFirst, hPid⟩ := List.mem_map.mp hMem
  have hTaken : candidate ∈ (s.candidates queueCall).take 3 := (List.mem_filter.mp hFirst).1
  rcases candidates_queue h with hNone | hAll
  · rw [hNone] at hTaken
    cases hTaken
  · rw [hAll] at hTaken
    have hOthers : ∀ candidate ∈ ([(⟨1⟩, 81920000), (⟨2⟩, 81920000), (⟨3⟩, 81920000)] :
        List (Pid × Nat)), candidate.1 ≠ ⟨4⟩ := by decide
    exact hOthers candidate hTaken hPid

theorem never_attempted (n : Nat) (h : Level s) (hNot : ⟨4⟩ ∉ s.attempted) :
    ⟨4⟩ ∉ (run sweep s (List.replicate n queueCall)).attempted := by
  induction n generalizing s with
  | zero => exact hNot
  | succ n ih =>
      rw [List.replicate_succ, run_cons]
      refine ih (level_sweep h) fun hMem => ?_
      exact (List.mem_append.mp hMem).elim hNot (editor_not_attempted h)

end Skipped

/-- No bound fits: the editor is never attempted, however many sweeps, half a
minute apart, find the three machines before it. -/
theorem editor_starves :
    ¬ ∃ bound : Nat → IdleReclaimConfig → Nat,
      ∀ (ic : IdleReclaimConfig) (pids : List Pid) (sweeps : List IdleCall),
        (∀ c ∈ sweeps, Steady ic pids c) → (∀ c ∈ sweeps, Instant.ofSecs 1 ≤ c.gap) →
          bound pids.length ic ≤ sweeps.length →
            ∀ pid ∈ pids, pid ∈ (run sweep (.start .start) sweeps).attempted := by
  rintro ⟨bound, hBound⟩
  have hLevel : Level (.start .start) := fun _ _ => rfl
  refine never_attempted (bound 4 queueCall.input.idleCfg) hLevel List.not_mem_nil
    (hBound queueCall.input.idleCfg (queue.map Process.pid) _ ?_ ?_ ?_ ⟨4⟩ (by decide))
  · intro c hMem
    rw [List.eq_of_mem_replicate hMem]
    refine ⟨rfl, by decide +kernel, by decide +kernel, by decide +kernel, fun p hp _ => ?_⟩
    have hFacts : ∀ p ∈ queue, idleReclaimBytes queueCall.input.idleCfg queueCall.input.cfg
          (requiredIdle queueCall.input.idleCfg queueCall.input.cfg p) p = some 81920000 ∧
        cgroupOf queue p.pid = p.cgroupPath ∧ p.cgroupPath.isSome = true := by
      decide +kernel
    obtain ⟨hLarge, hCgroup, hSome⟩ := hFacts p hp
    exact ⟨nofun, ⟨81920000, by decide, hLarge⟩,
      Option.isSome_iff_exists.mp (hCgroup ▸ hSome)⟩
  · intro c hMem
    rw [List.eq_of_mem_replicate hMem]
    decide +kernel
  · exact (List.length_replicate ..).ge

end Mgd.Evictor.IdleRotation
