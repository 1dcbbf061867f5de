import Mgd.Evictor.ForegroundReclaim

/-!
# What a plan does

The whole effect of `execute_plan`: the calls of the sink in order, both
registries and the returned count, decision by decision.  The calls depend on
what the sink answered and on the registry as each decision finds it; a `Turn`
is a decision with the state it finds.

The kill cooldown is filled from the action a decision plans.  A checkpoint
that fails ends in `terminate` or `kill` all the same, and that one is not
entered: the next cycles may aim at the same dying application again.

## Main results

* `executePlan_effects` : the calls, the registries and the count of a plan.
* `killsCooled_iff` : every kill of a plan is in its cooldown map exactly when
  each failed checkpoint falls in a cgroup that is there for another reason.
-/

namespace Mgd.Evictor.PlanEffects

open Mgd.Types Mgd.Monitor Mgd.Lib.AssocMap Mgd.Engine.Planner Mgd.Executor.Registry
open Mgd.Evictor.Execute Mgd.Evictor.ForegroundReclaim

/-! ## Turns -/

/-- A decision and the state it finds, the registry just locked. -/
structure Turn where
  reached : ExecState
  decision : Decision

/-- The turns of a plan, in order. -/
def turns (env : ExecEnv) (planProcs : List Process) : List Decision → ExecState → List Turn
  | [], _ => []
  | d :: rest, s =>
      ⟨s.lockFrozen env, d⟩ :: turns env planProcs rest (afterDecision env planProcs s d)

namespace Turn

/-- The process is frozen when its decision is reached. -/
def skipped (t : Turn) : Bool := t.reached.frozen.isFrozen t.decision.pid

/-- What the decision asks for. -/
def primaryCall (t : Turn) : Option SinkCall :=
  match t.decision.action with
  | .freeze => some (.freeze t.decision.pid)
  | .checkpoint => some (.checkpoint t.decision.pid t.decision.name)
  | .terminate => some (.terminate t.decision.pid)
  | .kill => some (.kill t.decision.pid)
  | .none => none

/-- The decision freezes, and the freeze succeeds. -/
def stops (env : ExecEnv) (t : Turn) : Bool :=
  decide (t.decision.action = .freeze) &&
    (env.sink.freeze t.reached.calls t.decision.pid).success

/-- A freeze is registered when the start time of its process can be read. -/
def registers (env : ExecEnv) (t : Turn) : Bool :=
  t.stops env && (env.startTime t.decision.pid).isSome

/-- The decision checkpoints: the directory of the dump, if it succeeds. -/
def dumpsTo (env : ExecEnv) (t : Turn) : Option String :=
  match t.decision.action, env.sink.checkpoint t.reached.calls t.decision.pid t.decision.name with
  | .checkpoint, .ok dir => some dir
  | _, _ => none

/-- The decision checkpoints, and the dump fails. -/
def dumpFails (env : ExecEnv) (t : Turn) : Bool :=
  decide (t.decision.action = .checkpoint) && (t.dumpsTo env).isNone

/-- What follows the call the decision asks for. -/
def followUps (env : ExecEnv) (planProcs : List Process) (t : Turn) : List SinkCall :=
  if t.registers env then
    ((cgroupOf planProcs t.decision.pid).map fun cgroup =>
      SinkCall.reclaim cgroup t.decision.rss.bytes).toList
  else if t.stops env then [.unfreeze t.decision.pid]
  else if t.dumpFails env then
    if t.decision.prio ≥ 60 then [.terminate t.decision.pid] else [.kill t.decision.pid]
  else []

/-- Every call of a turn, in order. -/
def calls (env : ExecEnv) (planProcs : List Process) (t : Turn) : List SinkCall :=
  if t.skipped then [] else t.primaryCall.toList ++ t.followUps env planProcs

/-- What the other threads do to the registry of frozen processes meanwhile: it
is locked when the turn comes, and once more after a freeze. -/
def byOthers (env : ExecEnv) (t : Turn) (reg : FrozenRegistry) : FrozenRegistry :=
  let reg := env.others t.reached.calls reg
  if !t.skipped && t.stops env then
    env.others (t.reached.calls ++ [.freeze t.decision.pid]) reg
  else reg

/-- What the turn adds to the registry of frozen processes. -/
def record (env : ExecEnv) (t : Turn) (reg : FrozenRegistry) : FrozenRegistry :=
  if !t.skipped && t.registers env then
    (reg.add env.startTime env.unixNow t.decision.pid t.decision.name).1
  else reg

/-- What the turn adds to the registry of checkpoints. -/
def recordDump (env : ExecEnv) (t : Turn) (reg : CheckpointRegistry) : CheckpointRegistry :=
  match t.skipped, t.dumpsTo env with
  | false, some dir => reg.add t.decision.pid t.decision.name dir t.decision.rss
  | _, _ => reg

/-- A `Kill` or `Checkpoint` decision that is not skipped. -/
def counts (t : Turn) : Bool :=
  !t.skipped && decide (t.decision.action = .kill ∨ t.decision.action = .checkpoint)

/-- A `Kill` or `Terminate` decision that is not skipped. -/
def ends (t : Turn) : Bool :=
  !t.skipped && decide (t.decision.action = .kill ∨ t.decision.action = .terminate)

end Turn

/-! ## One turn -/

section OneTurn

variable {env : ExecEnv} {planProcs : List Process}

/-- The calls of a freeze: the signal, taken back when it is not registered. -/
theorem freezeProcess_calls (d : Decision) (s : ExecState) :
    (freezeProcess env d s).1.calls =
      s.calls ++ (.freeze d.pid ::
        if (env.sink.freeze s.calls d.pid).success && (env.startTime d.pid).isNone then
          [SinkCall.unfreeze d.pid]
        else []) := by
  unfold freezeProcess
  dsimp only
  cases hFreeze : (env.sink.freeze s.calls d.pid).success with
  | false =>
      simp only [Bool.false_eq_true, if_false, Bool.false_and]
      split <;> rfl
  | true =>
      simp only [if_true, FrozenRegistry.add_success, Bool.true_and]
      cases env.startTime d.pid with
      | none => simp [ExecState.call, ExecState.lockFrozen]
      | some st => simp [ExecState.call, ExecState.lockFrozen]

/-- The calls of a checkpoint: the dump, and the end of the process when it
fails. -/
theorem executeCheckpoint_calls (d : Decision) (s : ExecState) :
    (executeCheckpoint env d s).1.calls =
      s.calls ++ (.checkpoint d.pid d.name ::
        match env.sink.checkpoint s.calls d.pid d.name with
        | .ok _ => []
        | .err _ => if d.prio ≥ 60 then [SinkCall.terminate d.pid] else [.kill d.pid]) := by
  unfold executeCheckpoint
  dsimp only
  cases env.sink.checkpoint s.calls d.pid d.name with
  | ok dir => rfl
  | err err =>
      dsimp only
      by_cases hLow : d.prio ≥ 60
      · rw [if_pos hLow, if_pos hLow]
        simp [terminateProcess, ExecState.call]
      · rw [if_neg hLow, if_neg hLow]
        split <;> simp [ExecState.call]

/-- **The calls of a decision that is not skipped.** -/
theorem perform_calls (d : Decision) (s : ExecState) :
    (perform env planProcs d s).calls =
      s.calls ++ ((Turn.mk s d).primaryCall.toList ++ (Turn.mk s d).followUps env planProcs) := by
  unfold perform executeDecision Turn.primaryCall Turn.followUps Turn.registers Turn.stops
    Turn.dumpFails Turn.dumpsTo
  cases hAction : d.action with
  | none => simp [reclaimFrozen, hAction]
  | terminate => simp [reclaimFrozen, hAction, terminateProcess, ExecState.call]
  | kill =>
      have hKill : (killProcess env d s).1 = s.call (.kill d.pid) := by
        unfold killProcess
        dsimp only
        split <;> rfl
      simp [reclaimFrozen, hAction, hKill, ExecState.call]
  | freeze =>
      have hResult := @freezeProcess_result env d s
      have hCalls := @freezeProcess_calls env d s
      unfold reclaimFrozen
      simp only [hAction, true_and, hResult]
      cases hFreeze : (env.sink.freeze s.calls d.pid).success with
      | false => simp [hCalls, hFreeze]
      | true =>
          cases hStart : env.startTime d.pid with
          | none => simp [hCalls, hFreeze, hStart]
          | some st =>
              cases hCgroup : cgroupOf planProcs d.pid with
              | none => simp [hCalls, hFreeze, hStart]
              | some cgroup => simp [hCalls, hFreeze, hStart, ExecState.call]
  | checkpoint =>
      have hCalls := @executeCheckpoint_calls env d s
      simp only [reclaimFrozen, hAction, reduceCtorEq, false_and, if_false, hCalls]
      cases env.sink.checkpoint s.calls d.pid d.name with
      | ok dir => simp
      | err err => simp

theorem reclaimFrozen_checkpointed (d : Decision) (result : String) (s : ExecState) :
    (reclaimFrozen planProcs d result s).checkpointed = s.checkpointed := by
  unfold reclaimFrozen
  split
  · split <;> rfl
  · rfl

theorem reclaimFrozen_frozen (d : Decision) (result : String) (s : ExecState) :
    (reclaimFrozen planProcs d result s).frozen = s.frozen := by
  unfold reclaimFrozen
  split
  · split <;> rfl
  · rfl

theorem trackTarget_checkpointed (d : Decision) (s : ExecState) :
    (trackTarget env planProcs d s).1.checkpointed = s.checkpointed := by
  unfold trackTarget
  split
  · split <;> rfl
  · rfl

theorem trackTarget_frozen (d : Decision) (s : ExecState) :
    (trackTarget env planProcs d s).1.frozen = s.frozen := by
  unfold trackTarget
  split
  · split <;> rfl
  · rfl

/-- A checkpoint is registered when the dump succeeds, and nothing else is. -/
theorem executeDecision_checkpointed (d : Decision) (s : ExecState) :
    (executeDecision env d s).1.checkpointed =
      match (Turn.mk s d).dumpsTo env with
      | some dir => s.checkpointed.add d.pid d.name dir d.rss
      | none => s.checkpointed := by
  unfold executeDecision Turn.dumpsTo
  cases hAction : d.action with
  | none => rfl
  | terminate => rfl
  | freeze =>
      simp only [freezeProcess]
      split
      · split <;> rfl
      · split <;> rfl
  | kill =>
      simp only [killProcess]
      split <;> rfl
  | checkpoint =>
      simp only [executeCheckpoint]
      cases env.sink.checkpoint s.calls d.pid d.name with
      | ok dir => rfl
      | err err =>
          dsimp only
          split
          · rfl
          · split <;> rfl

/-- A freeze is registered when the start time can be read, and nothing else
is; the other threads have the registry while the signal is sent. -/
theorem executeDecision_frozen (d : Decision) (s : ExecState) :
    (executeDecision env d s).1.frozen =
      if (Turn.mk s d).stops env then
        let reg := env.others (s.calls ++ [.freeze d.pid]) s.frozen
        if (Turn.mk s d).registers env then
          (reg.add env.startTime env.unixNow d.pid d.name).1
        else reg
      else s.frozen := by
  unfold executeDecision Turn.registers Turn.stops
  cases hAction : d.action with
  | none => rfl
  | terminate => rfl
  | kill =>
      simp only [killProcess]
      split <;> rfl
  | checkpoint =>
      simp only [executeCheckpoint]
      split
      · rfl
      · split
        · rfl
        · split <;> rfl
  | freeze =>
      simp only [freezeProcess]
      cases (env.sink.freeze s.calls d.pid).success with
      | false =>
          simp only [Bool.false_eq_true, if_false]
          split <;> rfl
      | true =>
          simp only [if_true, FrozenRegistry.add_success]
          cases hStart : env.startTime d.pid with
          | none => simp [ExecState.call, ExecState.lockFrozen, FrozenRegistry.add, hStart]
          | some st => simp [ExecState.call, ExecState.lockFrozen]

variable (env planProcs)

theorem afterDecision_calls (s : ExecState) (d : Decision) :
    (afterDecision env planProcs s d).calls =
      s.calls ++ (Turn.mk (s.lockFrozen env) d).calls env planProcs := by
  unfold afterDecision Turn.calls Turn.skipped
  dsimp only
  split
  · exact (List.append_nil _).symm
  · rw [calls_trackTarget, perform_calls]
    rfl

theorem afterDecision_checkpointed (s : ExecState) (d : Decision) :
    (afterDecision env planProcs s d).checkpointed =
      (Turn.mk (s.lockFrozen env) d).recordDump env s.checkpointed := by
  unfold afterDecision Turn.recordDump Turn.skipped
  dsimp only
  cases (s.lockFrozen env).frozen.isFrozen d.pid with
  | true => rfl
  | false =>
      simp only [Bool.false_eq_true, if_false, trackTarget_checkpointed, perform,
        reclaimFrozen_checkpointed, executeDecision_checkpointed]
      cases (Turn.mk (s.lockFrozen env) d).dumpsTo env with
      | none => rfl
      | some dir => rfl

theorem afterDecision_frozen (s : ExecState) (d : Decision) :
    (afterDecision env planProcs s d).frozen =
      (Turn.mk (s.lockFrozen env) d).record env
        ((Turn.mk (s.lockFrozen env) d).byOthers env s.frozen) := by
  unfold afterDecision Turn.record Turn.byOthers Turn.skipped
  dsimp only
  cases (s.lockFrozen env).frozen.isFrozen d.pid with
  | true => rfl
  | false =>
      simp only [Bool.false_eq_true, if_false, trackTarget_frozen, perform,
        reclaimFrozen_frozen, executeDecision_frozen, Bool.not_false, Bool.true_and]
      cases hStops : (Turn.mk (s.lockFrozen env) d).stops env with
      | true => rfl
      | false =>
          have hNot : (Turn.mk (s.lockFrozen env) d).registers env = false := by
            simp [Turn.registers, hStops]
          rw [hNot]
          rfl

end OneTurn

/-! ## The plan -/

section Plan

variable (env : ExecEnv) (planProcs : List Process)

/-- What a plan does, from a state: the calls of its turns in order, what they
and the other threads make of both registries, and the count it returns. -/
structure Effects (ds : List Decision) (s : ExecState) (done : Execution) : Prop where
  calls : done.state.calls =
    s.calls ++ (turns env planProcs ds s).flatMap (Turn.calls env planProcs)
  frozen : done.state.frozen =
    (turns env planProcs ds s).foldl (fun reg t => t.record env (t.byOthers env reg)) s.frozen
  checkpointed : done.state.checkpointed =
    (turns env planProcs ds s).foldl (fun reg t => t.recordDump env reg) s.checkpointed
  destructiveCount : done.destructiveCount =
    ((turns env planProcs ds s).filter Turn.counts).length

theorem turns_calls (ds : List Decision) (s : ExecState) :
    (ds.foldl (afterDecision env planProcs) s).calls =
      s.calls ++ (turns env planProcs ds s).flatMap (Turn.calls env planProcs) := by
  induction ds generalizing s with
  | nil => simp [turns]
  | cons d rest ih =>
      rw [List.foldl_cons, ih, afterDecision_calls, turns, List.flatMap_cons, List.append_assoc]

theorem turns_frozen (ds : List Decision) (s : ExecState) :
    (ds.foldl (afterDecision env planProcs) s).frozen =
      (turns env planProcs ds s).foldl (fun reg t => t.record env (t.byOthers env reg))
        s.frozen := by
  induction ds generalizing s with
  | nil => rfl
  | cons d rest ih =>
      rw [List.foldl_cons, ih, afterDecision_frozen, turns, List.foldl_cons]

theorem turns_checkpointed (ds : List Decision) (s : ExecState) :
    (ds.foldl (afterDecision env planProcs) s).checkpointed =
      (turns env planProcs ds s).foldl (fun reg t => t.recordDump env reg) s.checkpointed := by
  induction ds generalizing s with
  | nil => rfl
  | cons d rest ih =>
      rw [List.foldl_cons, ih, afterDecision_checkpointed, turns, List.foldl_cons]

theorem turns_destructiveCount (ds : List Decision) (s : ExecState) :
    (executePlan env planProcs ds s).destructiveCount =
      ((turns env planProcs ds s).filter Turn.counts).length := by
  induction ds generalizing s with
  | nil => rfl
  | cons d rest ih =>
      unfold executePlan turns afterDecision
      dsimp only
      rw [List.filter_cons]
      by_cases hSkip : (s.lockFrozen env).frozen.isFrozen d.pid = true
      · have hNot : (Turn.mk (s.lockFrozen env) d).counts = false := by
          simp [Turn.counts, Turn.skipped, hSkip]
        rw [if_pos hSkip, if_pos hSkip, hNot, ih]
        rfl
      · have hCounts : (Turn.mk (s.lockFrozen env) d).counts =
            decide (d.action = .kill ∨ d.action = .checkpoint) := by
          simp [Turn.counts, Turn.skipped, hSkip]
        rw [if_neg hSkip, if_neg hSkip, hCounts]
        dsimp only
        rw [ih]
        unfold destructiveIncrement
        cases d.action with
        | none => simp
        | freeze => simp
        | terminate => simp
        | kill => simp [Nat.add_comm]
        | checkpoint => simp [Nat.add_comm]

/-- **What `execute_plan` does**, for every plan, whatever the sink answers and
the registries hold. -/
theorem executePlan_effects (ds : List Decision) (s : ExecState) :
    Effects env planProcs ds s (executePlan env planProcs ds s) where
  calls := by
    rw [executePlan_state]
    exact turns_calls env planProcs ds s
  frozen := by
    rw [executePlan_state]
    exact turns_frozen env planProcs ds s
  checkpointed := by
    rw [executePlan_state]
    exact turns_checkpointed env planProcs ds s
  destructiveCount := turns_destructiveCount env planProcs ds s

end Plan

/-- Signals go through and start times can be read; no dump succeeds. -/
def undumpableEnv : ExecEnv where
  sink :=
    { freeze := fun _ _ => .ok
      kill := fun _ _ => .ok
      checkpoint := fun _ _ _ => .err "mgd-checkpoint failed" }
  startTime := fun _ => some 1
  unixNow := 0
  readCgroupPath := fun _ => none
  clock := fun _ => 0
  others := fun _ reg => reg

/-- Nothing is frozen, checkpointed or cooling down. -/
def freshState : ExecState where
  frozen := .new
  checkpointed := .new
  recentlyKilledCgroups := ∅
  failedBinaries := []
  calls := []

/-- A decision on the browser's PID 100. -/
def browserDecision (action : Action) : Decision where
  pid := ⟨100⟩
  name := "firefox"
  action := action
  rss := Kb.clamp 204800
  reason := "test"
  prio := 50

/-- A decision with nothing to do is served, and calls nothing. -/
theorem none_decision_calls_nothing :
    (executePlan undumpableEnv [] [browserDecision .none] freshState).executed =
        [browserDecision .none] ∧
      (executePlan undumpableEnv [] [browserDecision .none] freshState).state.calls = [] := by
  decide +kernel

/-! ## The kill cooldown -/

section Cooldown

variable {env : ExecEnv} {planProcs : List Process}

/-- The process a call terminates or kills. -/
def killedPid : SinkCall → Option Pid
  | .terminate pid | .kill pid => some pid
  | _ => none

/-- Every process terminated or killed by the plan whose cgroup is known is
found in the cooldown map when the plan is done. -/
def KillsCooled (env : ExecEnv) (planProcs : List Process) (ds : List Decision)
    (s : ExecState) : Prop :=
  ∀ pid ∈ ((executePlan env planProcs ds s).state.calls.drop s.calls.length).filterMap killedPid,
    ∀ cgroup, targetCgroup env planProcs pid = some cgroup →
      cgroup ∈ (executePlan env planProcs ds s).state.recentlyKilledCgroups

/-- What a turn kills: the process of a kill or a termination, or that of a
checkpoint that fails. -/
theorem mem_killed_iff (t : Turn) (pid : Pid) :
    pid ∈ (t.calls env planProcs).filterMap killedPid ↔
      pid = t.decision.pid ∧ (t.ends = true ∨ t.skipped = false ∧ t.dumpFails env = true) := by
  unfold Turn.calls Turn.ends Turn.primaryCall Turn.followUps Turn.registers Turn.stops
    Turn.dumpFails Turn.dumpsTo
  cases hSkip : t.skipped with
  | true => simp
  | false =>
      cases hAction : t.decision.action with
      | none => simp
      | terminate => simp [killedPid]
      | kill => simp [killedPid]
      | freeze =>
          cases hFreeze : (env.sink.freeze t.reached.calls t.decision.pid).success with
          | false => simp [killedPid]
          | true =>
              cases (env.startTime t.decision.pid).isSome with
              | false => simp [killedPid]
              | true =>
                  cases cgroupOf planProcs t.decision.pid with
                  | none => simp [killedPid]
                  | some cgroup => simp [killedPid]
      | checkpoint =>
          cases env.sink.checkpoint t.reached.calls t.decision.pid t.decision.name with
          | ok dir => simp [killedPid]
          | err err =>
              by_cases hLow : t.decision.prio ≥ 60
              · simp [killedPid, hLow, eq_comm]
              · simp [killedPid, hLow, eq_comm]

/-- The cooldown map after a turn: one more cgroup for a kill or a termination
whose cgroup is known. -/
theorem mem_afterDecision_ledger_iff (s : ExecState) (d : Decision) (cgroup : String) :
    cgroup ∈ (afterDecision env planProcs s d).recentlyKilledCgroups ↔
      cgroup ∈ s.recentlyKilledCgroups ∨
        (Turn.mk (s.lockFrozen env) d).ends = true ∧
          targetCgroup env planProcs d.pid = some cgroup := by
  have hSame : (perform env planProcs d (s.lockFrozen env)).recentlyKilledCgroups =
      s.recentlyKilledCgroups := perform_ledger d (s.lockFrozen env)
  unfold afterDecision Turn.ends Turn.skipped
  dsimp only
  cases (s.lockFrozen env).frozen.isFrozen d.pid with
  | true => simp [ExecState.lockFrozen]
  | false =>
      simp only [Bool.false_eq_true, if_false, Bool.not_false, Bool.true_and, decide_eq_true_eq]
      unfold trackTarget
      by_cases hEnds : d.action = .kill ∨ d.action = .terminate
      · rw [if_pos hEnds]
        cases hPath : targetCgroup env planProcs d.pid with
        | none => simp [hSame]
        | some path =>
            simp only [hSame, AList.mem_insert, hEnds, true_and, Option.some.injEq]
            rw [or_comm, eq_comm]
      · rw [if_neg hEnds]
        simp [hSame, hEnds]

/-- The cooldown map after a plan. -/
theorem mem_executePlan_ledger_iff (ds : List Decision) (s : ExecState) (cgroup : String) :
    cgroup ∈ (executePlan env planProcs ds s).state.recentlyKilledCgroups ↔
      cgroup ∈ s.recentlyKilledCgroups ∨
        ∃ t ∈ turns env planProcs ds s, t.ends = true ∧
          targetCgroup env planProcs t.decision.pid = some cgroup := by
  rw [executePlan_state]
  induction ds generalizing s with
  | nil => simp [turns]
  | cons d rest ih =>
      rw [List.foldl_cons, ih, mem_afterDecision_ledger_iff, turns, or_assoc]
      simp only [List.mem_cons, exists_eq_or_imp]

/-- **The kill cooldown covers every kill of a plan** exactly when each failed
checkpoint whose cgroup is known falls in a cgroup that was in the map before
the plan, or that a kill or a termination of the plan puts there. -/
theorem killsCooled_iff (ds : List Decision) (s : ExecState) :
    KillsCooled env planProcs ds s ↔
      ∀ t ∈ turns env planProcs ds s, t.skipped = false → t.dumpFails env = true →
        ∀ cgroup, targetCgroup env planProcs t.decision.pid = some cgroup →
          cgroup ∈ s.recentlyKilledCgroups ∨
            ∃ t' ∈ turns env planProcs ds s, t'.ends = true ∧
              targetCgroup env planProcs t'.decision.pid = some cgroup := by
  have hNew : (executePlan env planProcs ds s).state.calls.drop s.calls.length =
      (turns env planProcs ds s).flatMap (Turn.calls env planProcs) := by
    rw [executePlan_state, turns_calls, List.drop_left]
  have hKilled : ∀ pid, pid ∈ ((turns env planProcs ds s).flatMap
      (Turn.calls env planProcs)).filterMap killedPid ↔
        ∃ t ∈ turns env planProcs ds s, pid = t.decision.pid ∧
          (t.ends = true ∨ t.skipped = false ∧ t.dumpFails env = true) := by
    intro pid
    rw [List.filterMap_flatMap, List.mem_flatMap]
    simp only [mem_killed_iff]
  unfold KillsCooled
  simp only [hNew, hKilled, mem_executePlan_ledger_iff]
  constructor
  · intro hCooled t ht hServed hFails cgroup hPath
    exact hCooled t.decision.pid ⟨t, ht, rfl, Or.inr ⟨hServed, hFails⟩⟩ cgroup hPath
  · intro hFailed pid hKilledPid cgroup hPath
    obtain ⟨t, ht, rfl, hEnded⟩ := hKilledPid
    cases hEnded with
    | inl hEnds => exact Or.inr ⟨t, ht, hEnds, hPath⟩
    | inr hFails => exact hFailed t ht hFails.1 hFails.2 cgroup hPath

end Cooldown

/-- **A kill outside its cooldown.**  The dump of the browser fails, its process
is killed, and its scope is not in the map. -/
theorem fallback_kill_not_cooled :
    ¬ ∀ env planProcs ds s, KillsCooled env planProcs ds s := by
  intro h
  have hKilled : (⟨100⟩ : Pid) ∈ ((executePlan undumpableEnv [browserProcess ⟨100⟩ "firefox"]
      [browserDecision .checkpoint] freshState).state.calls.drop
        freshState.calls.length).filterMap killedPid := by
    decide +kernel
  have hPath : targetCgroup undumpableEnv [browserProcess ⟨100⟩ "firefox"] ⟨100⟩ =
      some browserScope := by
    decide +kernel
  have hEmpty : (executePlan undumpableEnv [browserProcess ⟨100⟩ "firefox"]
      [browserDecision .checkpoint] freshState).state.recentlyKilledCgroups.keys = [] := by
    decide +kernel
  have hCooled := mem_keys_iff.mpr
    (mem_iff_lookup.mp (h undumpableEnv _ _ freshState _ hKilled _ hPath))
  rw [hEmpty] at hCooled
  exact List.not_mem_nil hCooled

end Mgd.Evictor.PlanEffects
