import Mgd.Engine.Planner
import Mgd.Executor.Registry

/-!
# Executing a plan

`execute_plan` and `execute_decision` of `evictor/execute.rs`.  The side effects
go through an `ActionSink`; every call to it is logged in order, and what the
sink answers, what the clock shows and what the other threads do to the
registry may depend on the calls so far.

`Targeting` records an entry of the ledger of recently killed cgroups as it is
made: which decision targeted which cgroup, and when.
-/

namespace Mgd.Evictor.Execute

open Mgd.Types Mgd.Monitor Mgd.Lib.AssocMap Mgd.Engine.Planner Mgd.Executor.Registry

/-! ## The port -/

inductive SinkCall
  | freeze (pid : Pid)
  | unfreeze (pid : Pid)
  | terminate (pid : Pid)
  | kill (pid : Pid)
  | checkpoint (pid : Pid) (name : String)
  | reclaim (cgroup : String) (bytes : Nat)
deriving DecidableEq

inductive CheckpointResult
  | ok (snapshotDir : String)
  | err (error : String)

/-- The answers of the sink.  Those to `unfreeze` and `terminate` are ignored
and those to `reclaim` only logged. -/
structure ActionSink where
  freeze : List SinkCall → Pid → OpResult
  kill : List SinkCall → Pid → OpResult
  checkpoint : List SinkCall → Pid → String → CheckpointResult

/-- What the execution of a plan depends on. -/
structure ExecEnv where
  sink : ActionSink
  /-- the reading of `FrozenRegistry::add` -/
  startTime : Pid → Option Nat
  /-- Unix seconds -/
  unixNow : Nat
  /-- `read_process_cgroup_path` -/
  readCgroupPath : Pid → Option String
  clock : List SinkCall → Instant
  /-- What other threads do to the registry before it is locked. -/
  others : List SinkCall → FrozenRegistry → FrozenRegistry

structure ExecState where
  frozen : FrozenRegistry
  checkpointed : CheckpointRegistry
  recentlyKilledCgroups : Map String Instant
  /-- `CHECKPOINT_FAILED_BINARIES` -/
  failedBinaries : List String
  calls : List SinkCall

def ExecState.call (s : ExecState) (c : SinkCall) : ExecState := { s with calls := s.calls ++ [c] }

/-- The registry once its lock is taken. -/
def ExecState.lockFrozen (s : ExecState) (env : ExecEnv) : ExecState :=
  { s with frozen := env.others s.calls s.frozen }

/-! ## One decision -/

def freezeProcess (env : ExecEnv) (d : Decision) (s : ExecState) : ExecState × String :=
  let r := env.sink.freeze s.calls d.pid
  let s := s.call (.freeze d.pid)
  if r.success then
    let s := s.lockFrozen env
    let added := s.frozen.add env.startTime env.unixNow d.pid d.name
    let s := { s with frozen := added.1 }
    if added.2 then (s, "frozen")
    else (s.call (.unfreeze d.pid), "aborted: process vanished before fingerprint")
  else
    let msg := r.error.getD ""
    if msg.startsWith "process vanished" then (s, "aborted: " ++ msg) else (s, "fail: " ++ msg)

def terminateProcess (d : Decision) (s : ExecState) : ExecState × String :=
  (s.call (.terminate d.pid), "terminating (async SIGTERM→SIGKILL)")

def killProcess (env : ExecEnv) (d : Decision) (s : ExecState) : ExecState × String :=
  let r := env.sink.kill s.calls d.pid
  let s := s.call (.kill d.pid)
  match r.error with
  | none => (s, "killed")
  | some err => (s, "fail: " ++ err)

def executeCheckpoint (env : ExecEnv) (d : Decision) (s : ExecState) : ExecState × String :=
  let r := env.sink.checkpoint s.calls d.pid d.name
  let s := s.call (.checkpoint d.pid d.name)
  match r with
  | .ok dir =>
      ({ s with checkpointed := s.checkpointed.add d.pid d.name dir d.rss },
        "checkpointed → \"" ++ dir ++ "\"")
  | .err err =>
      -- the binary is not checkpointed again in this session
      let s := { s with failedBinaries := d.name :: s.failedBinaries }
      if d.prio ≥ 60 then
        ((terminateProcess d s).1, "terminating (CRIU failed: " ++ err ++ ")")
      else
        let kr := env.sink.kill s.calls d.pid
        let s := s.call (.kill d.pid)
        if kr.success then (s, "killed (CRIU failed: " ++ err ++ ")")
        else (s, "kill_fail: " ++ kr.error.getD "")

def executeDecision (env : ExecEnv) (d : Decision) (s : ExecState) : ExecState × String :=
  match d.action with
  | .freeze => freezeProcess env d s
  | .terminate => terminateProcess d s
  | .kill => killProcess env d s
  | .checkpoint => executeCheckpoint env d s
  | .none => (s, "")

/-! ## The plan -/

/-- An entry made in the ledger of recently killed cgroups. -/
structure Targeting where
  decision : Decision
  cgroupPath : String
  takenAt : Instant
deriving DecidableEq

/-- The cgroup of a process of the plan. -/
def cgroupOf (planProcs : List Process) (pid : Pid) : Option String :=
  (planProcs.find? (fun p => decide (p.pid = pid))).bind Process.cgroupPath

/-- The cgroup under which a kill or a termination is tracked. -/
def targetCgroup (env : ExecEnv) (planProcs : List Process) (pid : Pid) : Option String :=
  (cgroupOf planProcs pid).or (env.readCgroupPath pid)

/-- A fresh freeze is followed by a push of the process to zram. -/
def reclaimFrozen (planProcs : List Process) (d : Decision) (result : String) (s : ExecState) :
    ExecState :=
  if d.action = .freeze ∧ result = "frozen" then
    match cgroupOf planProcs d.pid with
    | some cgroupPath => s.call (.reclaim cgroupPath d.rss.bytes)
    | none => s
  else s

/-- The ledger entry of a kill or a termination, whatever became of it. -/
def trackTarget (env : ExecEnv) (planProcs : List Process) (d : Decision) (s : ExecState) :
    ExecState × List Targeting :=
  if d.action = .kill ∨ d.action = .terminate then
    match targetCgroup env planProcs d.pid with
    | some cgroupPath =>
        let takenAt := env.clock s.calls
        ({ s with recentlyKilledCgroups := s.recentlyKilledCgroups.insert cgroupPath takenAt },
          [⟨d, cgroupPath, takenAt⟩])
    | none => (s, [])
  else (s, [])

/-- Only synchronous kills count: a termination has not freed its RAM yet. -/
def destructiveIncrement (d : Decision) : Nat :=
  match d.action with
  | .kill | .checkpoint => 1
  | _ => 0

/-- The action of a decision and the reclaim after it. -/
def perform (env : ExecEnv) (planProcs : List Process) (d : Decision) (s : ExecState) :
    ExecState :=
  let done := executeDecision env d s
  reclaimFrozen planProcs d done.2 done.1

/-- What a plan leaves behind. -/
structure Execution where
  state : ExecState
  /-- the decisions that were not skipped -/
  executed : List Decision
  targeted : List Targeting
  destructiveCount : Nat

def executePlan (env : ExecEnv) (planProcs : List Process) : List Decision → ExecState → Execution
  | [], s => ⟨s, [], [], 0⟩
  | d :: rest, s =>
      let s := s.lockFrozen env
      if s.frozen.isFrozen d.pid then executePlan env planProcs rest s
      else
        let tracked := trackTarget env planProcs d (perform env planProcs d s)
        let after := executePlan env planProcs rest tracked.1
        { state := after.state
          executed := d :: after.executed
          targeted := tracked.2 ++ after.targeted
          destructiveCount := destructiveIncrement d + after.destructiveCount }

/-- The state after one decision of the plan. -/
def afterDecision (env : ExecEnv) (planProcs : List Process) (s : ExecState) (d : Decision) :
    ExecState :=
  let s := s.lockFrozen env
  if s.frozen.isFrozen d.pid then s
  else (trackTarget env planProcs d (perform env planProcs d s)).1

/-- The state a plan leaves is that of its decisions, one after the other. -/
theorem executePlan_state (env : ExecEnv) (planProcs : List Process) (ds : List Decision)
    (s : ExecState) :
    (executePlan env planProcs ds s).state = ds.foldl (afterDecision env planProcs) s := by
  induction ds generalizing s with
  | nil => rfl
  | cons d rest ih =>
      rw [List.foldl_cons, ← ih]
      conv_lhs => unfold executePlan
      unfold afterDecision
      dsimp only
      split <;> rfl

/-! ## The ledger of killed cgroups -/

section Ledger

variable {env : ExecEnv} {planProcs : List Process}

/-- No action writes the ledger itself. -/
theorem executeDecision_ledger (d : Decision) (s : ExecState) :
    (executeDecision env d s).1.recentlyKilledCgroups = s.recentlyKilledCgroups := by
  unfold executeDecision
  cases d.action with
  | none => rfl
  | freeze =>
      simp only [freezeProcess]
      split
      · split <;> rfl
      · split <;> rfl
  | checkpoint =>
      simp only [executeCheckpoint]
      split
      · rfl
      · split
        · rfl
        · split <;> rfl
  | terminate => rfl
  | kill =>
      simp only [killProcess]
      split <;> rfl

theorem reclaimFrozen_ledger (d : Decision) (result : String) (s : ExecState) :
    (reclaimFrozen planProcs d result s).recentlyKilledCgroups = s.recentlyKilledCgroups := by
  unfold reclaimFrozen
  split
  · split <;> rfl
  · rfl

theorem perform_ledger (d : Decision) (s : ExecState) :
    (perform env planProcs d s).recentlyKilledCgroups = s.recentlyKilledCgroups :=
  (reclaimFrozen_ledger d _ _).trans (executeDecision_ledger d s)

variable (env planProcs) in
/-- Either nothing is tracked, or one kill or termination is. -/
theorem trackTarget_cases (d : Decision) (s : ExecState) :
    (trackTarget env planProcs d s = (s, [])) ∨
      ∃ cgroupPath takenAt, (d.action = .kill ∨ d.action = .terminate) ∧
        targetCgroup env planProcs d.pid = some cgroupPath ∧
        (trackTarget env planProcs d s).1.recentlyKilledCgroups =
          s.recentlyKilledCgroups.insert cgroupPath takenAt ∧
        (trackTarget env planProcs d s).2 = [⟨d, cgroupPath, takenAt⟩] := by
  unfold trackTarget
  split
  · next hAction =>
      split
      · next cgroupPath hPath => exact Or.inr ⟨cgroupPath, _, hAction, hPath, rfl, rfl⟩
      · exact Or.inl rfl
  · exact Or.inl rfl

/-- What is executed was decided. -/
theorem mem_of_executed {ds : List Decision} {s : ExecState} {d : Decision}
    (hd : d ∈ (executePlan env planProcs ds s).executed) : d ∈ ds := by
  induction ds generalizing s with
  | nil => cases hd
  | cons d' rest ih =>
      unfold executePlan at hd
      dsimp only at hd
      split at hd
      · exact List.mem_cons_of_mem _ (ih hd)
      · rw [List.mem_cons] at hd
        cases hd with
        | inl hHere => exact List.mem_cons.mpr (Or.inl hHere)
        | inr hAfter => exact List.mem_cons_of_mem _ (ih hAfter)

/-- **Every kill and termination is tracked** that was not skipped and whose
cgroup is known. -/
theorem targeted_of_executed {ds : List Decision} {s : ExecState} {d : Decision}
    {cgroupPath : String} (hd : d ∈ (executePlan env planProcs ds s).executed)
    (hAction : d.action = .kill ∨ d.action = .terminate)
    (hPath : targetCgroup env planProcs d.pid = some cgroupPath) :
    ∃ g ∈ (executePlan env planProcs ds s).targeted, g.cgroupPath = cgroupPath := by
  induction ds generalizing s with
  | nil => cases hd
  | cons d' rest ih =>
      unfold executePlan at hd ⊢
      dsimp only at hd ⊢
      split at hd
      · next hSkipped =>
          rw [if_pos hSkipped]
          exact ih hd
      · next hServed =>
          rw [if_neg hServed]
          simp only [List.mem_append]
          rw [List.mem_cons] at hd
          cases hd with
          | inl hHere =>
              subst hHere
              have hTracked : (trackTarget env planProcs d
                  (perform env planProcs d (s.lockFrozen env))).2 =
                    [⟨d, cgroupPath,
                      env.clock (perform env planProcs d (s.lockFrozen env)).calls⟩] := by
                unfold trackTarget
                rw [if_pos hAction, hPath]
              rw [hTracked]
              exact ⟨_, Or.inl (List.mem_singleton_self _), rfl⟩
          | inr hAfter =>
              obtain ⟨g, hg, hCgroup⟩ := ih hAfter
              exact ⟨g, Or.inr hg, hCgroup⟩

/-- The ledger after a plan is the ledger before it, overwritten by the entries
the plan made. -/
theorem executePlan_ledger (ds : List Decision) (s : ExecState) :
    (executePlan env planProcs ds s).state.recentlyKilledCgroups =
      insertAll Targeting.cgroupPath Targeting.takenAt s.recentlyKilledCgroups
        (executePlan env planProcs ds s).targeted := by
  induction ds generalizing s with
  | nil => rfl
  | cons d rest ih =>
      unfold executePlan
      dsimp only
      split
      · exact ih _
      · dsimp only
        rw [insertAll_append, ih]
        congr 1
        have hSame : (perform env planProcs d (s.lockFrozen env)).recentlyKilledCgroups =
            s.recentlyKilledCgroups := perform_ledger d (s.lockFrozen env)
        cases trackTarget_cases env planProcs d (perform env planProcs d (s.lockFrozen env)) with
        | inl hNone =>
            rw [hNone]
            exact hSame
        | inr hOne =>
            obtain ⟨cgroupPath, takenAt, -, -, hInsert, hTargeted⟩ := hOne
            rw [hInsert, hTargeted, hSame]
            rfl

/-- Every entry of the ledger was there before or was made by the plan. -/
theorem ledger_origin {ds : List Decision} {s : ExecState} {cg : String} {t : Instant}
    (h : (executePlan env planProcs ds s).state.recentlyKilledCgroups.lookup cg = some t) :
    s.recentlyKilledCgroups.lookup cg = some t ∨
      ∃ g ∈ (executePlan env planProcs ds s).targeted, g.cgroupPath = cg ∧ g.takenAt = t := by
  rw [executePlan_ledger] at h
  exact insertAll_origin h

/-- A targeted cgroup is in the ledger, with the time of its last targeting. -/
theorem ledger_of_targeted {ds : List Decision} {s : ExecState} {g : Targeting}
    (hg : g ∈ (executePlan env planProcs ds s).targeted) :
    ∃ g' ∈ (executePlan env planProcs ds s).targeted, g'.cgroupPath = g.cgroupPath ∧
      (executePlan env planProcs ds s).state.recentlyKilledCgroups.lookup g.cgroupPath =
        some g'.takenAt := by
  rw [executePlan_ledger]
  exact insertAll_of_mem hg s.recentlyKilledCgroups

end Ledger

end Mgd.Evictor.Execute
