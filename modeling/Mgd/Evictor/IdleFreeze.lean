import Mgd.Evictor.IdleReclaim

/-!
# The idle freeze and the hard rules

`priorities.toml` promises that priorities up to 19 and the `[[protect]]` names
are never touched.  The planner and the leak guard check both; the idle freeze
checks the active window, the size and the clock of a process, and nothing else.

`idleFreeze_spares_iff` : a pass stops no such process exactly when none of them
is due, that is old, large and in the background with fewer than two processes
frozen before it.
-/

namespace Mgd.Evictor.IdleFreeze

open Mgd.Types Mgd.Monitor Mgd.Config Mgd.Lib.AssocMap Mgd.Engine.Planner
open Mgd.Lib.Greedy Mgd.Executor.Registry Mgd.Evictor.Execute Mgd.Evictor.Reclaim
open Mgd.Evictor.IdleReclaim

/-- What the configuration says is never touched. -/
def OffLimits (cfg : CompiledConfig) (p : Process) : Prop :=
  cfg.priorityFor p.name p.exeBasename ≤ 19 ∨ cfg.isProtected p.name = true

instance (cfg : CompiledConfig) (p : Process) : Decidable (OffLimits cfg p) :=
  inferInstanceAs (Decidable (_ ∨ _))

/-- The pass sends SIGSTOP to no such process. -/
def Spares (i : IdleInput) (s : IdleState) : Prop :=
  ∀ p ∈ i.planProcs, OffLimits i.cfg p →
    (p.pid, Signal.stop) ∉ (checkIdleProcessReclaim i s).signals

/-! ## When a process is due -/

/-- Seconds on the freeze clock of a process when the pass reads it; the clock of
a process without one starts in the pass. -/
def freezeAge (i : IdleInput) (tracker : Map Pid Instant) (p : Process) : Nat :=
  Instant.secsSince (i.clock.freezeRead p.pid)
    ((tracker.lookup p.pid).getD (i.clock.freezeEnter p.pid))

/-- `freeze_checked` gets its start time and succeeds. -/
def stoppable (i : IdleInput) (p : Process) : Bool :=
  match i.startTimes.first p.pid with
  | some st => (freezeChecked i.kill i.startTimes.check p.pid st).success
  | none => false

/-- The filters of the loop, and a freeze that succeeds. -/
def eligible (i : IdleInput) (freezeSecs : Nat) (tracker : Map Pid Instant) (p : Process) : Bool :=
  decide (some p.pid ≠ i.activePid) && decide (i.idleCfg.rssMinKb ≤ p.rssKb.val) &&
    decide (freezeSecs ≤ freezeAge i tracker p) && stoppable i p

/-- The freezes that count: those that are recorded. -/
def counted (i : IdleInput) (freezeSecs : Nat) (tracker : Map Pid Instant) (p : Process) : Bool :=
  eligible i freezeSecs tracker p && (i.startTimes.add p.pid).isSome

/-- A process is due when the loop gets to it, after fewer than two freezes, and
its freeze succeeds. -/
def Due (i : IdleInput) (s : IdleState) (p : Process) : Prop :=
  i.swapTooFull = false ∧ ∃ freezeSecs, i.freezeAfterSec = some freezeSecs ∧
    ∃ pre post, i.planProcs = pre ++ p :: post ∧
      eligible i freezeSecs s.freezePidTracker p = true ∧
      pre.countP (counted i freezeSecs s.freezePidTracker) < 2

/-! ## One process -/

section Loop

variable {i : IdleInput}

theorem stop_mem_freezeIdle (p : Process) (acc : IdlePass) (pid : Pid) :
    (pid, Signal.stop) ∈ (i.freezeIdle p acc).1.signals ↔
      (pid, Signal.stop) ∈ acc.signals ∨ pid = p.pid ∧ stoppable i p = true := by
  unfold IdleInput.freezeIdle stoppable
  cases i.startTimes.first p.pid with
  | none => simp
  | some st =>
      dsimp only
      by_cases hStopped : (freezeChecked i.kill i.startTimes.check p.pid st).success = true
      · rw [if_pos hStopped]
        split
        · simp [hStopped]
        · dsimp only
          split <;> simp [hStopped]
      · rw [if_neg hStopped]
        simp [hStopped]

/-- A freeze counts when it is recorded. -/
theorem freezeIdle_snd (p : Process) (acc : IdlePass) :
    (i.freezeIdle p acc).2 = (stoppable i p && (i.startTimes.add p.pid).isSome) := by
  unfold IdleInput.freezeIdle stoppable
  cases i.startTimes.first p.pid with
  | none => rfl
  | some st =>
      dsimp only
      by_cases hStopped : (freezeChecked i.kill i.startTimes.check p.pid st).success = true
      · rw [if_pos hStopped, hStopped, Bool.true_and, FrozenRegistry.add_success]
        cases (i.startTimes.add p.pid).isSome <;> rfl
      · rw [if_neg hStopped]
        simp [hStopped]

/-- A freeze leaves the clocks of the others alone. -/
theorem tracker_freezeIdle {p : Process} {pid : Pid} (hOther : pid ≠ p.pid) (acc : IdlePass) :
    (i.freezeIdle p acc).1.state.freezePidTracker.lookup pid =
      acc.state.freezePidTracker.lookup pid := by
  unfold IdleInput.freezeIdle
  split
  · rfl
  · split
    · dsimp only
      split
      · exact (lookup_erase_eq _ _ _).trans (if_neg hOther)
      · rfl
    · rfl

theorem lookup_orInsert (tracker : Map Pid Instant) (p pid : Pid) (now : Instant) :
    (IdleInput.orInsert tracker p now).lookup pid =
      if pid = p then some ((tracker.lookup p).getD now) else tracker.lookup pid := by
  unfold IdleInput.orInsert
  cases hClock : tracker.lookup p with
  | some since =>
      by_cases hSame : pid = p
      · rw [if_pos hSame, hSame]
        exact hClock
      · rw [if_neg hSame]
  | none => exact lookup_insert_eq p pid now tracker

/-- The clock the loop reads. -/
theorem idleSecs_orInsert (tracker : Map Pid Instant) (p : Process) :
    idleSecs (IdleInput.orInsert tracker p.pid (i.clock.freezeEnter p.pid))
      i.clock.freezeRead p.pid = freezeAge i tracker p := by
  unfold idleSecs freezeAge
  rw [lookup_orInsert, if_pos rfl]

/-! ## The loop -/

/-- What a step of the loop leaves behind for the rest of it. -/
theorem idleFreeze_cons (freezeSecs freezeCount : Nat) (p : Process) (rest : List Process)
    (acc : IdlePass) (hFew : freezeCount < 2) :
    ∃ acc', i.idleFreeze freezeSecs freezeCount (p :: rest) acc =
        i.idleFreeze freezeSecs
          (freezeCount + if counted i freezeSecs acc.state.freezePidTracker p then 1 else 0)
          rest acc' ∧
      (∀ pid, (pid, Signal.stop) ∈ acc'.signals ↔
        (pid, Signal.stop) ∈ acc.signals ∨
          pid = p.pid ∧ eligible i freezeSecs acc.state.freezePidTracker p = true) ∧
      ∀ pid, pid ≠ p.pid → acc'.state.freezePidTracker.lookup pid =
        acc.state.freezePidTracker.lookup pid := by
  unfold counted eligible
  rw [IdleInput.idleFreeze, if_neg (by omega)]
  by_cases hActive : some p.pid = i.activePid
  · rw [if_pos hActive]
    exact ⟨acc, by simp [hActive], by simp [hActive], fun pid _ => rfl⟩
  rw [if_neg hActive]
  by_cases hSmall : p.rssKb.val < i.idleCfg.rssMinKb
  · have hNotLarge : ¬ i.idleCfg.rssMinKb ≤ p.rssKb.val := not_le.mpr hSmall
    rw [if_pos hSmall]
    exact ⟨acc, by simp [hNotLarge], by simp [hNotLarge], fun pid _ => rfl⟩
  rw [if_neg hSmall]
  dsimp only
  rw [idleSecs_orInsert]
  have hLarge : i.idleCfg.rssMinKb ≤ p.rssKb.val := not_lt.mp hSmall
  by_cases hYoung : freezeAge i acc.state.freezePidTracker p < freezeSecs
  · rw [if_pos hYoung]
    have hNotOld : ¬ freezeSecs ≤ freezeAge i acc.state.freezePidTracker p := not_le.mpr hYoung
    refine ⟨_, by rw [if_neg (by simp [hNotOld]), Nat.add_zero], by simp [hNotOld], ?_⟩
    intro pid hOther
    exact (lookup_orInsert _ _ _ _).trans (if_neg hOther)
  rw [if_neg hYoung]
  have hOld : freezeSecs ≤ freezeAge i acc.state.freezePidTracker p := not_lt.mp hYoung
  have hCount : (if (stoppable i p && (i.startTimes.add p.pid).isSome) = true then freezeCount + 1
        else freezeCount) =
      freezeCount + if (decide (some p.pid ≠ i.activePid) &&
        decide (i.idleCfg.rssMinKb ≤ p.rssKb.val) &&
        decide (freezeSecs ≤ freezeAge i acc.state.freezePidTracker p) && stoppable i p &&
        (i.startTimes.add p.pid).isSome) = true then 1 else 0 := by
    simp only [hActive, hLarge, hOld, ne_eq, not_false_eq_true, decide_true, Bool.true_and]
    split <;> rfl
  rw [freezeIdle_snd, hCount]
  refine ⟨_, rfl, ?_, ?_⟩
  · intro pid
    rw [stop_mem_freezeIdle]
    simp [hActive, hLarge, hOld]
  · intro pid hOther
    rw [tracker_freezeIdle hOther]
    exact (lookup_orInsert _ _ _ _).trans (if_neg hOther)

/-- **Who is stopped by the loop.** -/
theorem stop_mem_idleFreeze {freezeSecs : Nat} {procs : List Process} {tracker : Map Pid Instant}
    (freezeCount : Nat) (acc : IdlePass) (hPids : (procs.map Process.pid).Nodup)
    (hTracker : ∀ p ∈ procs,
      acc.state.freezePidTracker.lookup p.pid = tracker.lookup p.pid) (pid : Pid) :
    (pid, Signal.stop) ∈ (i.idleFreeze freezeSecs freezeCount procs acc).signals ↔
      (pid, Signal.stop) ∈ acc.signals ∨
        ∃ pre p post, procs = pre ++ p :: post ∧ p.pid = pid ∧
          eligible i freezeSecs tracker p = true ∧
          freezeCount + pre.countP (counted i freezeSecs tracker) < 2 := by
  induction procs generalizing freezeCount acc with
  | nil => simp [IdleInput.idleFreeze]
  | cons p rest ih =>
      have hAge : freezeAge i acc.state.freezePidTracker p = freezeAge i tracker p := by
        unfold freezeAge
        rw [hTracker p List.mem_cons_self]
      have hEligible : eligible i freezeSecs acc.state.freezePidTracker p =
          eligible i freezeSecs tracker p := by
        unfold eligible
        rw [hAge]
      have hCounted : counted i freezeSecs acc.state.freezePidTracker p =
          counted i freezeSecs tracker p := by
        unfold counted
        rw [hEligible]
      obtain ⟨hNew, hPids⟩ := List.nodup_cons.mp hPids
      by_cases hFew : freezeCount < 2
      · obtain ⟨acc', hLoop, hSignals, hClocks⟩ :=
          idleFreeze_cons (i := i) freezeSecs freezeCount p rest acc hFew
        have hTracker' : ∀ q ∈ rest,
            acc'.state.freezePidTracker.lookup q.pid = tracker.lookup q.pid := by
          intro q hq
          have hOther : q.pid ≠ p.pid :=
            fun hSame => hNew (List.mem_map.mpr ⟨q, hq, hSame⟩)
          rw [hClocks q.pid hOther]
          exact hTracker q (List.mem_cons_of_mem _ hq)
        rw [hLoop, ih _ acc' hPids hTracker', hSignals, hEligible, hCounted,
          exists_split_cons, or_assoc]
        have hSum : ∀ pre, freezeCount + (p :: pre).countP (counted i freezeSecs tracker) =
            (freezeCount + if counted i freezeSecs tracker p = true then 1 else 0) +
              pre.countP (counted i freezeSecs tracker) := by
          intro pre
          rw [List.countP_cons]
          omega
        simp only [hSum]
        refine or_congr_right (or_congr_left ?_)
        exact and_congr eq_comm (and_iff_left (by simpa using hFew)).symm
      · rw [IdleInput.idleFreeze, if_pos (by omega)]
        refine (or_iff_left ?_).symm
        intro hSplit
        obtain ⟨pre, q, post, -, -, -, hCount⟩ := hSplit
        omega

end Loop

/-! ## The pass -/

section Pass

variable {i : IdleInput} {s : IdleState}

/-- The reclaim part of the pass signals nobody and leaves the freeze clocks and
the registry alone. -/
theorem reclaimCandidate_frame (acc : IdlePass) (candidate : Pid × Nat) :
    (i.reclaimCandidate acc candidate).signals = acc.signals ∧
      (i.reclaimCandidate acc candidate).state.freezePidTracker = acc.state.freezePidTracker ∧
      (i.reclaimCandidate acc candidate).state.frozen = acc.state.frozen := by
  unfold IdleInput.reclaimCandidate
  split
  · exact ⟨rfl, rfl, rfl⟩
  · split
    · exact ⟨rfl, rfl, rfl⟩
    · dsimp only
      split <;> exact ⟨rfl, rfl, rfl⟩

theorem foldl_reclaimCandidate_frame (xs : List (Pid × Nat)) (acc : IdlePass) :
    (xs.foldl i.reclaimCandidate acc).signals = acc.signals ∧
      (xs.foldl i.reclaimCandidate acc).state.freezePidTracker = acc.state.freezePidTracker ∧
      (xs.foldl i.reclaimCandidate acc).state.frozen = acc.state.frozen := by
  induction xs generalizing acc with
  | nil => exact ⟨rfl, rfl, rfl⟩
  | cons x xs ih =>
      obtain ⟨hSignals, hClocks, hFrozen⟩ := reclaimCandidate_frame (i := i) acc x
      rw [List.foldl_cons, (ih _).1, (ih _).2.1, (ih _).2.2]
      exact ⟨hSignals, hClocks, hFrozen⟩

/-- **Who is stopped by a pass.** -/
theorem stop_mem_iff (hPids : (i.planProcs.map Process.pid).Nodup) (pid : Pid) :
    (pid, Signal.stop) ∈ (checkIdleProcessReclaim i s).signals ↔
      ∃ p, p.pid = pid ∧ Due i s p := by
  unfold checkIdleProcessReclaim Due
  cases hSwap : i.swapTooFull with
  | true => simp
  | false =>
      simp only [Bool.false_eq_true, if_false, true_and]
      generalize hStarted : (⟨⟨i.planProcs.foldl i.startClock (i.liveClocks s.pidTracker),
        s.freezePidTracker, s.frozen, s.lastIdleReclaim⟩, [], []⟩ : IdlePass) = started
      obtain ⟨hSignals, hClocks, -⟩ :=
        foldl_reclaimCandidate_frame (i := i) ((i.candidates s).take 3) started
      have hSilent : started.signals = [] := by rw [← hStarted]
      have hFreeze : started.state.freezePidTracker = s.freezePidTracker := by rw [← hStarted]
      cases hAfter : i.freezeAfterSec with
      | none => simp [hSignals, hSilent]
      | some freezeSecs =>
          have hTracker : ∀ p ∈ i.planProcs,
              (i.liveClocks ((i.candidates s).take 3 |>.foldl i.reclaimCandidate
                started).state.freezePidTracker).lookup p.pid =
              s.freezePidTracker.lookup p.pid := by
            intro p hp
            have hLive : i.isLive p.pid = true :=
              decide_eq_true (List.mem_map.mpr ⟨p, hp, rfl⟩)
            unfold IdleInput.liveClocks
            rw [lookup_retain_key, if_pos hLive, hClocks, hFreeze]
          dsimp only
          rw [stop_mem_idleFreeze 0 _ hPids hTracker]
          dsimp only
          rw [hSignals, hSilent]
          simp only [List.not_mem_nil, false_or, Nat.zero_add, Option.some.injEq,
            exists_eq_left']
          constructor
          · intro h
            obtain ⟨pre, p, post, hSplit, hPid, hDue⟩ := h
            exact ⟨p, hPid, pre, post, hSplit, hDue⟩
          · intro h
            obtain ⟨p, hPid, pre, post, hSplit, hDue⟩ := h
            exact ⟨pre, p, post, hSplit, hPid, hDue⟩

theorem mem_planProcs_of_due {p : Process} (hDue : Due i s p) : p ∈ i.planProcs := by
  obtain ⟨-, -, -, pre, post, hSplit, -⟩ := hDue
  rw [hSplit]
  simp

end Pass

/-- **When the idle freeze keeps to the hard rules.**  The pass stops no process
that is off limits exactly when none is due. -/
theorem idleFreeze_spares_iff (i : IdleInput) (s : IdleState)
    (hPids : (i.planProcs.map Process.pid).Nodup) :
    Spares i s ↔ ∀ p, OffLimits i.cfg p → ¬ Due i s p := by
  unfold Spares
  constructor
  · intro hSpares p hLimits hDue
    exact hSpares p (mem_planProcs_of_due hDue) hLimits
      ((stop_mem_iff hPids p.pid).mpr ⟨p, rfl, hDue⟩)
  · intro hNone p hp hLimits hStopped
    obtain ⟨q, hPid, hDue⟩ := (stop_mem_iff hPids p.pid).mp hStopped
    have hSame : q = p :=
      List.inj_on_of_nodup_map hPids (mem_planProcs_of_due hDue) hp hPid
    exact hNone q (hSame ▸ hLimits) hDue

/-! ## The compositor -/

def compositor : Process where
  pid := ⟨700⟩
  name := "kwin_wayland"
  exeBasename := some "kwin_wayland"
  rssKb := Kb.clamp 180000
  swapKb := Kb.clamp 0
  oomScore := 0
  cgroupPath := none
  cpuPct := 0
  majflt := 0
  cmdline := "kwin_wayland"

/-- The compositor has priority 5; its freeze clock is 15 minutes old and the
limit is 10 minutes. -/
def compositorPass (activePid : Option Pid) : IdleInput where
  cfg := { CompiledConfig.ofEmpty 15 with entries := [⟨Regex.exact "kwin_wayland", 5, none⟩] }
  idleCfg :=
    { maxSwapOccupancyPct := 50
      idleSec := 300
      rssMinMb := 100
      reclaimPct := 30
      importantEnabled := false
      importantMinPriority := 20
      importantIdleSec := 600
      importantPct := 10 }
  freezeAfterSec := some 600
  planProcs := [compositor]
  activePid := activePid
  meminfo := ⟨Kb.clamp 4000000, Kb.clamp 16000000, Kb.clamp 0, Kb.clamp 0⟩
  clock :=
    { select := fun _ => Instant.ofSecs 1000
      start := fun _ => Instant.ofSecs 1000
      reset := fun _ => Instant.ofSecs 1000
      freezeEnter := fun _ => Instant.ofSecs 1000
      freezeRead := fun _ => Instant.ofSecs 1000 }
  unixNow := 1700000000
  fs :=
    { hasSubdir := fun _ => none
      hasReclaim := fun _ => false
      mayWrite := fun _ => false
      answer := fun _ _ => none }
  kill _ _ := none
  startTimes := ⟨fun _ => some 50, fun _ => some 50, fun _ => some 50⟩
  others _ frozen := frozen

def agedClock : IdleState where
  pidTracker := ∅
  freezePidTracker := (∅ : Map Pid Instant).insert ⟨700⟩ (Instant.ofSecs 100)
  frozen := FrozenRegistry.new
  lastIdleReclaim := 0

/-- **The idle freeze stops the compositor.** -/
theorem compositor_stopped :
    (checkIdleProcessReclaim (compositorPass none) agedClock).signals = [(⟨700⟩, .stop)] ∧
      OffLimits (compositorPass none).cfg compositor ∧
      ¬ Spares (compositorPass none) agedClock := by
  have hStopped : (checkIdleProcessReclaim (compositorPass none) agedClock).signals =
      [(⟨700⟩, .stop)] := by decide +kernel
  have hLimits : OffLimits (compositorPass none).cfg compositor := by decide +kernel
  refine ⟨hStopped, hLimits, ?_⟩
  intro hSpares
  exact hSpares compositor List.mem_cons_self hLimits (hStopped ▸ List.mem_cons_self)

/-- In front, the compositor is spared. -/
theorem compositor_spared_in_front : Spares (compositorPass (some ⟨700⟩)) agedClock := by
  refine (idleFreeze_spares_iff (compositorPass (some ⟨700⟩)) agedClock (by decide)).mpr ?_
  intro p _ hDue
  have hp : p ∈ [compositor] := mem_planProcs_of_due hDue
  obtain rfl := List.mem_singleton.mp hp
  obtain ⟨-, freezeSecs, -, -, -, -, hEligible, -⟩ := hDue
  have hBackground : some compositor.pid ≠ (compositorPass (some ⟨700⟩)).activePid := by
    unfold eligible at hEligible
    simp only [Bool.and_eq_true, decide_eq_true_eq] at hEligible
    exact hEligible.1.1.1
  exact hBackground rfl

end Mgd.Evictor.IdleFreeze
