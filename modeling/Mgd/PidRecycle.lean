import Mgd.Engine.Planner
import Mgd.Executor.Signals

/-!
# Signals and recycled PIDs

A decision names a process by its PID.  `list_processes` reads no start time, so
nothing in a decision tells the process it was made for from one that takes the
PID before the executor acts.  The start times that guard the signals are read
when the executor acts: before a freeze, at the start of the SIGTERM thread, and
not at all before SIGKILL.

An `Act` is what becomes of one decision: the plan's, the leak guard's, a
headroom freeze, an idle freeze.  Its timeline starts when the executor begins
to act.

## Main results

* `Act.signals_iff` : whom the signals of an act reach.
* `recycleSafe_iff` : an act spares the process that took the PID exactly when
  that process is out of the way, or unreadable, or refuses, at the accesses that
  count.
-/

namespace Mgd.PidRecycle

open Mgd.Types Mgd.Monitor Mgd.Lib.AssocMap Mgd.Lib.Accesses Mgd.Engine.Planner
open Mgd.Executor.Signals
open Mgd.Executor.Registry hiding sendSignal freezeChecked unfreezeChecked

/-! ## The executor -/

/-- `RealSink::freeze`: the start time is read, and checked against itself. -/
def freeze (pid : Pid) : Syscalls OpResult :=
  .ask (.readStartTime pid) fun st =>
    match st with
    | some st => freezeChecked pid st
    | none => .ret (OpResult.fail "process vanished before freeze")

/-- A freeze recorded by `FrozenRegistry::add`, which reads the start time once
more; without one the freeze is taken back.  Whether it was recorded. -/
def freezeAndRecord (pid : Pid) : Syscalls Bool :=
  (freeze pid).bind fun r =>
    if r.success then
      .ask (.readStartTime pid) fun st =>
        if st.isSome then .ret true
        else (sendSignal pid .cont).bind fun _ => .ret false
    else .ret false

/-- The dump of the helper, then SIGKILL; a process that is already gone counts
as killed.  The error, if any. -/
def checkpoint (pid : Pid) : Syscalls (Option String) :=
  .ask (.dump pid) fun error =>
    if error ≠ none then .ret error
    else
      .ask (.kill (asPidT pid) (some .kill)) fun errno =>
        if errno = some .eperm then
          .ret (some ("CRIU succeeded but SIGKILL failed: " ++ Errno.eperm.text))
        else .ret none

/-- What takes the place of a failed checkpoint. -/
def checkpointFallback (pid : Pid) (prio : Nat) : Syscalls OpResult :=
  if prio ≥ 60 then sigterm pid else sigkill pid

def executeCheckpoint (pid : Pid) (prio : Nat) : Syscalls OpResult :=
  (checkpoint pid).bind fun error =>
    if error = none then .ret OpResult.ok else checkpointFallback pid prio

/-- `execute_decision` on the real sink. -/
def executeDecision (action : Action) (pid : Pid) (prio : Nat) : Syscalls Unit :=
  match action with
  | .freeze => (freezeAndRecord pid).bind fun _ => .ret ()
  | .terminate => (sigterm pid).bind fun _ => .ret ()
  | .kill => (sigkill pid).bind fun _ => .ret ()
  | .checkpoint => (executeCheckpoint pid prio).bind fun _ => .ret ()
  | .none => .ret ()

/-! ## Acts -/

inductive ActKind
  /-- a decision of the plan, skipped when the registry holds the PID -/
  | planned (action : Action) (prio : Nat) (frozen : FrozenRegistry)
  | leakGuard
  | headroom
  | idleFreeze

structure Act where
  kind : ActKind
  pid : Pid
  /-- the start time of the process `list_processes` saw -/
  seen : Nat
  /-- what the accesses find once the executor begins to act -/
  timeline : Timeline

namespace Act

def program (a : Act) : Syscalls Unit :=
  match a.kind with
  | .planned action prio frozen =>
      if frozen.isFrozen a.pid then .ret () else executeDecision action a.pid prio
  | .leakGuard => (sigterm a.pid).bind fun _ => .ret ()
  | .headroom => (freeze a.pid).bind fun _ => .ret ()
  | .idleFreeze => (freezeAndRecord a.pid).bind fun _ => .ret ()

def deliveries (a : Act) : List Delivery := a.timeline.deliveries 0 a.program

/-- The PID was taken by `n` when the executor begins to act. -/
def Recycled (a : Act) (n : Occupant) : Prop :=
  (a.timeline.kernel 0).procs.lookup a.pid = some n ∧ n.startTime ≠ a.seen

/-- A signal of the act is delivered to the process `n`. -/
def Signals (a : Act) (n : Occupant) : Prop :=
  ∃ d ∈ a.deliveries, d.pid = a.pid ∧ d.occupant.startTime = n.startTime

/-! ### What it takes to hit a process -/

/-- The process `n` still has the PID at the access `t` and takes the signal. -/
def reaches (a : Act) (t : Nat) (target : Int) (signal : Signal) (n : Occupant) : Prop :=
  ∃ o, o.startTime = n.startTime ∧ (a.timeline.kernel t).takes target (some signal) a.pid o

/-- The two readings of a start time before a freeze agree. -/
def sameStart (a : Act) : Prop :=
  (a.timeline.kernel 0).readStartTime a.pid ≠ none ∧
    (a.timeline.kernel 1).readStartTime a.pid = (a.timeline.kernel 0).readStartTime a.pid

/-- SIGSTOP is sent to the PID. -/
def sendsStop (a : Act) : Prop := a.sameStart ∧ a.pid.val.toNat ≤ i32Max

/-- The freeze hits `n` itself. -/
def freezeHits (a : Act) (n : Occupant) : Prop :=
  a.sendsStop ∧ a.reaches 2 a.pid.val.toNat .stop n

/-- The freeze cannot be recorded, and taking it back hits `n`. -/
def rollbackHits (a : Act) (n : Occupant) : Prop :=
  a.sendsStop ∧ (a.timeline.kernel 2).delivered a.pid.val.toNat (some .stop) ≠ [] ∧
    (a.timeline.kernel 3).readStartTime a.pid = none ∧
    a.reaches 4 a.pid.val.toNat .cont n

/-- SIGTERM hits `n`, or the SIGKILL after it does. -/
def sigtermHits (a : Act) (t : Nat) (n : Occupant) : Prop :=
  a.reaches (t + 1) (asPidT a.pid) .term n ∨
    a.timeline.reachesKill a.pid t ∧
      a.reaches (a.timeline.killTime a.pid t) (asPidT a.pid) .kill n

def fallbackHits (a : Act) (prio t : Nat) (n : Occupant) : Prop :=
  if prio ≥ 60 then a.sigtermHits t n else a.reaches t (asPidT a.pid) .kill n

/-- After a dump, SIGKILL hits `n`, or it is refused and the fallback hits; or
there is no dump and the fallback hits. -/
def checkpointHits (a : Act) (prio : Nat) (n : Occupant) : Prop :=
  if a.timeline.dump 0 = none then
    a.reaches 1 (asPidT a.pid) .kill n ∨
      (a.timeline.kernel 1).kill (asPidT a.pid) (some .kill) = some .eperm ∧
        a.fallbackHits prio 2 n
  else a.fallbackHits prio 1 n

/-- The act finds `n` in its way. -/
def Hits (a : Act) (n : Occupant) : Prop :=
  match a.kind with
  | .planned action prio frozen =>
      frozen.isFrozen a.pid = false ∧
        match action with
        | .freeze => a.freezeHits n ∨ a.rollbackHits n
        | .terminate => a.sigtermHits 0 n
        | .kill => a.reaches 0 (asPidT a.pid) .kill n
        | .checkpoint => a.checkpointHits prio n
        | .none => False
  | .leakGuard => a.sigtermHits 0 n
  | .headroom => a.freezeHits n
  | .idleFreeze => a.freezeHits n ∨ a.rollbackHits n

end Act

/-! ## What the executor delivers -/

section Deliveries

variable {tl : Timeline} {t : Nat} {pid : Pid} {d : Delivery}

/-- A trailing result without accesses changes nothing. -/
@[simp] theorem deliveries_bind_ret {α β : Type} (p : Syscalls α) (f : α → β) :
    tl.deliveries t (p.bind fun a => .ret (f a)) = tl.deliveries t p := by
  rw [deliveries_bind, deliveries_ret, List.append_nil]

theorem deliveries_freeze :
    tl.deliveries t (freeze pid) =
      match (tl.kernel t).readStartTime pid with
      | some st => tl.deliveries (t + 1) (freezeChecked pid st)
      | none => [] := by
  unfold freeze
  rw [deliveries_readStartTime]
  cases (tl.kernel t).readStartTime pid <;> rfl

/-- SIGSTOP goes to whoever holds the PID after two equal readings. -/
theorem mem_deliveries_freeze :
    d ∈ tl.deliveries 0 (freeze pid) ↔
      ((tl.kernel 0).readStartTime pid ≠ none ∧
        (tl.kernel 1).readStartTime pid = (tl.kernel 0).readStartTime pid) ∧
        pid.val.toNat ≤ i32Max ∧ d ∈ tl.send 2 pid.val.toNat .stop := by
  rw [deliveries_freeze]
  cases hFirst : (tl.kernel 0).readStartTime pid with
  | none => simp
  | some st =>
      simp only [deliveries_freezeChecked, deliveries_sendSignal, Nat.zero_add, Nat.reduceAdd]
      by_cases hSame : (tl.kernel 1).readStartTime pid = some st
      · by_cases hFits : pid.val.toNat ≤ i32Max
        · simp [hSame, hFits]
        · simp [hFits]
      · simp [hSame]

theorem result_freeze_of_some {st : Nat} (h : (tl.kernel 0).readStartTime pid = some st) :
    (freeze pid).result tl.answer 0 = (freezeChecked pid st).result tl.answer 1 ∧
      (freeze pid).finish tl.answer 0 = (freezeChecked pid st).finish tl.answer 1 := by
  unfold freeze
  rw [result_readStartTime, finish_readStartTime, h]
  exact ⟨rfl, rfl⟩

theorem success_freeze :
    ((freeze pid).result tl.answer 0).success = true ↔
      ((tl.kernel 0).readStartTime pid ≠ none ∧
        (tl.kernel 1).readStartTime pid = (tl.kernel 0).readStartTime pid) ∧
        pid.val.toNat ≤ i32Max ∧
        (tl.kernel 2).delivered pid.val.toNat (some .stop) ≠ [] := by
  cases hFirst : (tl.kernel 0).readStartTime pid with
  | none =>
      unfold freeze
      rw [result_readStartTime, hFirst]
      simp [OpResult.fail]
  | some st =>
      rw [(result_freeze_of_some hFirst).1, success_freezeChecked, success_sendSignal]
      simp

theorem finish_freeze (h : ((freeze pid).result tl.answer 0).success = true) :
    (freeze pid).finish tl.answer 0 = 3 := by
  obtain ⟨st, hFirst⟩ := Option.ne_none_iff_exists'.mp (success_freeze.mp h).1.1
  obtain ⟨hResult, hFinish⟩ := result_freeze_of_some hFirst
  rw [hResult] at h
  rw [hFinish, finish_freezeChecked h]

/-- A freeze that cannot be recorded is taken back. -/
theorem mem_deliveries_freezeAndRecord :
    d ∈ tl.deliveries 0 (freezeAndRecord pid) ↔
      d ∈ tl.deliveries 0 (freeze pid) ∨
        (((freeze pid).result tl.answer 0).success = true ∧
          (tl.kernel 3).readStartTime pid = none) ∧ d ∈ tl.send 4 pid.val.toNat .cont := by
  unfold freezeAndRecord
  rw [deliveries_bind, List.mem_append]
  apply or_congr_right
  by_cases hDone : ((freeze pid).result tl.answer 0).success = true
  · have hFits : pid.val.toNat ≤ i32Max := (success_freeze.mp hDone).2.1
    rw [if_pos hDone, finish_freeze hDone, deliveries_readStartTime]
    cases (tl.kernel 3).readStartTime pid with
    | none => simp [hDone, hFits, deliveries_sendSignal]
    | some st => simp
  · rw [if_neg hDone]
    simp [hDone]

/-- SIGKILL after the dump, and the fallback when there is no dump or SIGKILL is
refused. -/
theorem mem_deliveries_executeCheckpoint (prio : Nat) :
    d ∈ tl.deliveries 0 (executeCheckpoint pid prio) ↔
      if tl.dump 0 = none then
        d ∈ tl.send 1 (asPidT pid) .kill ∨
          (tl.kernel 1).kill (asPidT pid) (some .kill) = some .eperm ∧
            d ∈ tl.deliveries 2 (checkpointFallback pid prio)
      else d ∈ tl.deliveries 1 (checkpointFallback pid prio) := by
  unfold executeCheckpoint checkpoint
  simp only [Program.bind, deliveries_dump, Nat.zero_add]
  by_cases hDumped : tl.dump 0 = none
  · rw [if_pos hDumped, if_neg (not_not.mpr hDumped)]
    simp only [Program.bind, deliveries_kill, List.mem_append]
    apply or_congr_right
    by_cases hRefused : (tl.kernel 1).kill (asPidT pid) (some .kill) = some .eperm
    · rw [if_pos hRefused]
      simp [Program.bind, hRefused]
    · rw [if_neg hRefused]
      simp [Program.bind, hRefused]
  · rw [if_neg hDumped, if_pos hDumped]
    simp [Program.bind, hDumped]

end Deliveries

/-! ## Which acts hit whom -/

section Hits

variable {a : Act} {n : Occupant}

namespace Act

/-- A send hits `n` when `n` has the PID then and takes the signal. -/
theorem exists_send_iff (t : Nat) (target : Int) (signal : Signal) :
    (∃ d ∈ a.timeline.send t target signal,
        d.pid = a.pid ∧ d.occupant.startTime = n.startTime) ↔
      a.reaches t target signal n := by
  unfold reaches
  constructor
  · intro h
    obtain ⟨d, hd, hPid, hStart⟩ := h
    obtain ⟨-, -, hTakes⟩ := Timeline.mem_send_iff.mp hd
    rw [hPid] at hTakes
    exact ⟨d.occupant, hStart, hTakes⟩
  · intro h
    obtain ⟨o, hStart, hTakes⟩ := h
    exact ⟨⟨t, signal, a.pid, o⟩, Timeline.mem_send_iff.mpr ⟨rfl, rfl, hTakes⟩, rfl, hStart⟩

/-- A program that sends first and then, under a condition, again. -/
theorem exists_or_iff {ds first second : List Delivery} {again : Prop} {hit : Delivery → Prop}
    (h : ∀ d, d ∈ ds ↔ d ∈ first ∨ again ∧ d ∈ second) :
    (∃ d ∈ ds, hit d) ↔ (∃ d ∈ first, hit d) ∨ again ∧ ∃ d ∈ second, hit d := by
  simp only [h, or_and_right, exists_or, and_assoc, exists_and_left]

theorem sigterm_hits_iff (t : Nat) :
    (∃ d ∈ a.timeline.deliveries t (sigterm a.pid),
        d.pid = a.pid ∧ d.occupant.startTime = n.startTime) ↔ a.sigtermHits t n := by
  rw [exists_or_iff fun d => mem_deliveries_sigterm, exists_send_iff, exists_send_iff]
  rfl

theorem fallback_hits_iff (prio t : Nat) :
    (∃ d ∈ a.timeline.deliveries t (checkpointFallback a.pid prio),
        d.pid = a.pid ∧ d.occupant.startTime = n.startTime) ↔ a.fallbackHits prio t n := by
  unfold checkpointFallback fallbackHits
  by_cases hLow : prio ≥ 60
  · rw [if_pos hLow, if_pos hLow]
    exact sigterm_hits_iff t
  · rw [if_neg hLow, if_neg hLow, deliveries_sigkill]
    exact exists_send_iff _ _ _

theorem freeze_hits_iff :
    (∃ d ∈ a.timeline.deliveries 0 (freeze a.pid),
        d.pid = a.pid ∧ d.occupant.startTime = n.startTime) ↔ a.freezeHits n := by
  unfold freezeHits sendsStop sameStart
  rw [← exists_send_iff]
  simp only [mem_deliveries_freeze, and_assoc, exists_and_left]

theorem freezeAndRecord_hits_iff :
    (∃ d ∈ a.timeline.deliveries 0 (freezeAndRecord a.pid),
        d.pid = a.pid ∧ d.occupant.startTime = n.startTime) ↔
      a.freezeHits n ∨ a.rollbackHits n := by
  rw [exists_or_iff fun d => mem_deliveries_freezeAndRecord, freeze_hits_iff, exists_send_iff,
    success_freeze]
  unfold rollbackHits sendsStop sameStart
  simp only [and_assoc]

theorem checkpoint_hits_iff (prio : Nat) :
    (∃ d ∈ a.timeline.deliveries 0 (executeCheckpoint a.pid prio),
        d.pid = a.pid ∧ d.occupant.startTime = n.startTime) ↔ a.checkpointHits prio n := by
  unfold checkpointHits
  by_cases hDumped : a.timeline.dump 0 = none
  · rw [if_pos hDumped, ← exists_send_iff, ← fallback_hits_iff]
    apply exists_or_iff
    intro d
    rw [mem_deliveries_executeCheckpoint, if_pos hDumped]
  · rw [if_neg hDumped, ← fallback_hits_iff]
    simp only [mem_deliveries_executeCheckpoint, if_neg hDumped]

/-- **The signals of an act.** -/
theorem signals_iff (a : Act) (n : Occupant) : a.Signals n ↔ a.Hits n := by
  unfold Signals Hits deliveries program
  cases a.kind with
  | planned action prio frozen =>
      by_cases hFrozen : frozen.isFrozen a.pid = true
      · simp [hFrozen]
      · have hOpen : frozen.isFrozen a.pid = false := by simpa using hFrozen
        dsimp only
        rw [if_neg hFrozen]
        refine Iff.trans ?_ (and_iff_right hOpen).symm
        cases action with
        | freeze =>
            simp only [executeDecision, deliveries_bind_ret]
            exact freezeAndRecord_hits_iff
        | terminate =>
            simp only [executeDecision, deliveries_bind_ret]
            exact sigterm_hits_iff 0
        | kill =>
            simp only [executeDecision, deliveries_bind_ret, deliveries_sigkill]
            exact exists_send_iff 0 _ _
        | checkpoint =>
            simp only [executeDecision, deliveries_bind_ret]
            exact checkpoint_hits_iff prio
        | none => simp [executeDecision]
  | leakGuard =>
      simp only [deliveries_bind_ret]
      exact sigterm_hits_iff 0
  | headroom =>
      simp only [deliveries_bind_ret]
      exact freeze_hits_iff
  | idleFreeze =>
      simp only [deliveries_bind_ret]
      exact freezeAndRecord_hits_iff

end Act

/-- No act of the run signals the process that took its PID. -/
def RecycleSafe (acts : List Act) : Prop :=
  ∀ a ∈ acts, ∀ n, a.Recycled n → ¬ a.Signals n

/-- **A run spares the processes that took its PIDs exactly when none of its
acts finds one in its way.** -/
theorem recycleSafe_iff (acts : List Act) :
    RecycleSafe acts ↔ ∀ a ∈ acts, ∀ n, a.Recycled n → ¬ a.Hits n := by
  unfold RecycleSafe
  simp only [Act.signals_iff]

end Hits

/-- A process that took PID 1234, left by the one the plan was made for. -/
def newcomer : Occupant where
  startTime := 500
  processGroup := 1234
  ownedByUser := true
  inUserSlice := true
  row :=
    { pid := ⟨1234⟩
      name := "kwrite"
      exeBasename := some "kwrite"
      rssKb := Kb.clamp 60000
      swapKb := Kb.clamp 0
      oomScore := 0
      cgroupPath := some "/user.slice/app-kwrite.scope"
      cpuPct := 0
      majflt := 0
      cmdline := "kwrite" }

def newcomerRunning : Kernel where
  procs := (∅ : Map Pid Occupant).insert ⟨1234⟩ newcomer
  statReadable := fun _ => true
  permits := fun _ _ => true
  self := ⟨900⟩
  selfGroup := 900

/-- The plan kills PID 1234, seen with start time 100. -/
def killRecycled : Act where
  kind := .planned .kill 80 FrozenRegistry.new
  pid := ⟨1234⟩
  seen := 100
  timeline := ⟨fun _ => newcomerRunning, fun _ => none⟩

/-- **A newcomer is killed in place of the process the plan was made for.** -/
theorem killRecycled_hits_newcomer : ¬ RecycleSafe [killRecycled] := by
  intro h
  have hHits : killRecycled.Hits newcomer := by
    refine ⟨by decide +kernel, newcomer, rfl, ?_⟩
    exact ⟨by decide +kernel, by decide +kernel, rfl⟩
  have hSafe := h killRecycled (List.mem_singleton_self _) newcomer
    ⟨by decide +kernel, by decide +kernel⟩
  exact hSafe ((Act.signals_iff _ _).mpr hHits)

end Mgd.PidRecycle
