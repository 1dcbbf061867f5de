import Mathlib.Data.Prod.Lex
import Mathlib.Data.Rat.Floor
import Mgd.Config
import Mgd.Lib.Greedy

/-!
# The eviction planner

`plan` of `engine/decision.rs`: which action to take on which process at the
current pressure level.  It is a dry run without side effects.  What the
function reads besides its arguments (the active window, the GPU cache, the
checkpoint support) is the `PlanEnv`.

`planned` keeps each decision next to the process it is for; `plan` is its
second column.  A memory reading in KB counts bytes of a 64-bit address space,
so the cast to `i64` keeps it and the deficit is a plain integer.

The loop of the planner is an instance of `Greedy.walk` over the list sorted
by `Greedy.sortDesc`; `mem_planned_iff` reads a decision off that form.
-/

namespace Mgd.Engine.Planner

open Mgd.Types Mgd.Monitor Mgd.Config Mgd.Lib.Greedy

/-- Action for a process under pressure, ordered by severity. -/
inductive Action
  | none
  | freeze
  | checkpoint
  | terminate
  | kill
deriving DecidableEq, Repr

/-- The actions that end the process: everything but `none` and `freeze`. -/
def Action.isDestructive : Action → Bool
  | none | freeze => false
  | checkpoint | terminate | kill => true

structure Decision where
  pid : Pid
  name : String
  action : Action
  rss : Kb
  reason : String
  prio : Nat
deriving DecidableEq

/-- What `plan` reads from the rest of the daemon. -/
structure PlanEnv where
  /-- `plugin_server::get_active_foreground_pid` -/
  activePid : Option Pid
  /-- `plugin_server::get_gpu_kb` -/
  gpuKb : Pid → Kb
  /-- `executor::checkpoint::is_checkpoint_eligible` -/
  checkpointEligible : String → Bool

/-- Priority 0-100 of a process from the configuration. -/
def getPriority (name : String) (exeBasename : Option String) (cfg : CompiledConfig) : Nat :=
  cfg.priorityFor name exeBasename

/-- The cast of a float to `i64`: truncation toward zero, saturating. -/
def truncI64 (q : ℚ) : Int :=
  max (-2 ^ 63) (min (2 ^ 63 - 1) (q.num.tdiv q.den))

/-- How many KB must be freed to meet the target; negative when available
memory is above it. -/
def calculateRamDeficitKb (availableKb totalKb : Kb) (targetAvailablePct : ℚ) : Int :=
  let targetPct := targetAvailablePct / 100
  let targetKb := truncI64 ((totalKb.val : ℚ) * targetPct)
  targetKb - availableKb.val

/-- Action for one process from pressure level, priority, swap ratio and the
per-process checkpoint override. -/
def determineProcessAction (level : PressureLevel) (prio : Nat) (swapRatio : ℚ)
    (checkpointOverride : Option Bool) (swapExhausted cpSupported : Bool) : Action :=
  if swapExhausted = true ∧ prio ≥ 80 then .kill
  else
    match level with
    | .normal => .none
    | .elevated => if prio ≥ 60 then .freeze else .none
    | .high =>
        if prio ≥ 80 then .terminate
        else if prio ≥ 60 then .freeze
        else .none
    | .critical =>
        match checkpointOverride with
        | some cp =>
            if cp && cpSupported then .checkpoint
            else if swapRatio > 1 / 2 then .kill
            else .terminate
        | none =>
            -- mostly in swap already: checkpointing buys nothing
            if swapRatio > 1 / 2 ∧ prio ≥ 60 then .kill
            else if prio ≥ 75 then .terminate
            else if cpSupported then .checkpoint
            else if prio ≥ 60 then .terminate
            else .kill
    | .emergency => .kill

/-! ## Candidates -/

structure Candidate where
  prio : Nat
  sortFootprintKb : Kb
  proc : Process

/-- Smallest rss + swap worth acting on, in KB. -/
def minCandidateKb : Nat := 10 * 1024

/-- The priority the planner works with.  The foreground process is moved 25
down, but not below 20: subtraction alone can push a foreground app into the
system tier. -/
def effectivePriority (cfg : CompiledConfig) (activePid : Option Pid) (p : Process) : Nat :=
  let prio := cfg.priorityFor p.name p.exeBasename
  if some p.pid = activePid then max (prio - 25) 20 else prio

def isCandidate (p : Process) : Bool :=
  decide (minCandidateKb < (p.rssKb.saturatingAdd p.swapKb).val)

def toCandidate (level : PressureLevel) (cfg : CompiledConfig) (env : PlanEnv)
    (p : Process) : Candidate where
  prio := effectivePriority cfg env.activePid p
  sortFootprintKb :=
    p.rssKb.saturatingAdd (if level ≥ .high then env.gpuKb p.pid else Kb.clamp 0)
  proc := p

/-- The candidate list before sorting. -/
def candidates (level : PressureLevel) (procs : List Process) (cfg : CompiledConfig)
    (env : PlanEnv) : List Candidate :=
  (procs.filter isCandidate).map (toCandidate level cfg env)

/-- Highest priority score first (least important), then largest footprint,
then highest OOM score. -/
def sortKey (c : Candidate) : ℕ ×ₗ ℕ ×ₗ ℤ :=
  toLex (c.prio, toLex (c.sortFootprintKb.val, c.proc.oomScore))

/-! ## The loop -/

def swapRatio (p : Process) : ℚ :=
  let totalMemory := p.rssKb.saturatingAdd p.swapKb
  if totalMemory.val > 0 then (p.swapKb.val : ℚ) / (totalMemory.val : ℚ) else 0

/-- The action the loop asks for one candidate. -/
def candidateAction (level : PressureLevel) (swapExhausted : Bool) (cfg : CompiledConfig)
    (env : PlanEnv) (c : Candidate) : Action :=
  determineProcessAction level c.prio (swapRatio c.proc)
    (cfg.checkpointOverride c.proc.name) swapExhausted (env.checkpointEligible c.proc.name)

/-- `{:.0}`: the nearest integer, ties to even. -/
def fixed0 (q : ℚ) : String :=
  let down := ⌊q⌋
  let rounded :=
    if q - down < 1 / 2 then down
    else if q - down > 1 / 2 then down + 1
    else if down % 2 = 0 then down
    else down + 1
  toString rounded

def reasonFor (deficit : Int) (c : Candidate) : String :=
  "priority=" ++ toString c.prio ++
    " rss=" ++ fixed0 ((c.proc.rssKb.val : ℚ) / 1024) ++
    "MB swap=" ++ fixed0 ((c.proc.swapKb.val : ℚ) / 1024) ++
    "MB swap_ratio=" ++ fixed0 (swapRatio c.proc * 100) ++
    "% deficit=" ++ fixed0 ((deficit : ℚ) / 1024) ++ "MB"

/-- The decision for a candidate, and the process it is for. -/
def decisionFor (action : Action) (deficit : Int) (c : Candidate) : Process × Decision :=
  (c.proc,
    { pid := c.proc.pid
      name := c.proc.name
      action := action
      rss := c.proc.rssKb
      reason := reasonFor deficit c
      prio := c.prio })

/-- What an action takes off the deficit.  A freeze frees no RAM; the others
free the full RSS. -/
def freed (action : Action) (c : Candidate) : Nat :=
  match action with
  | .freeze => 0
  | _ => c.proc.rssKb.val

/-- The walk over the sorted candidates, until the deficit is covered. -/
def planLoop (level : PressureLevel) (swapExhausted : Bool) (cfg : CompiledConfig)
    (env : PlanEnv) : Int → List Candidate → List (Process × Decision)
  | _, [] => []
  | deficit, c :: rest =>
      if deficit ≤ 0 then []
      -- never touch the system/critical tier or the protect list
      else if c.prio ≤ 19 then planLoop level swapExhausted cfg env deficit rest
      else if cfg.isProtected c.proc.name then
        planLoop level swapExhausted cfg env deficit rest
      else
        let action := candidateAction level swapExhausted cfg env c
        if action = .none then planLoop level swapExhausted cfg env deficit rest
        else
          decisionFor action deficit c ::
            planLoop level swapExhausted cfg env (deficit - freed action c) rest

/-- `plan` with the process of each decision. -/
def planned (level : PressureLevel) (procs : List Process) (availableKb totalKb : Kb)
    (swapExhausted : Bool) (cfg : CompiledConfig) (env : PlanEnv) :
    List (Process × Decision) :=
  if level = .normal then []
  else
    let deficit := calculateRamDeficitKb availableKb totalKb cfg.targetAvailablePct
    if deficit ≤ 0 then []
    else
      planLoop level swapExhausted cfg env deficit
        (sortDesc sortKey (candidates level procs cfg env))

/-- Decide actions for the current pressure level. -/
def plan (level : PressureLevel) (procs : List Process) (availableKb totalKb : Kb)
    (swapExhausted : Bool) (cfg : CompiledConfig) (env : PlanEnv) : List Decision :=
  (planned level procs availableKb totalKb swapExhausted cfg env).map Prod.snd

/-! ## Reading the plan -/

section Reading

variable {level : PressureLevel} {swapExhausted : Bool} {cfg : CompiledConfig}
  {env : PlanEnv} {procs : List Process} {availableKb totalKb : Kb}

/-- What serving a candidate takes off the deficit; `none` when the loop passes
it over. -/
def gain (level : PressureLevel) (swapExhausted : Bool) (cfg : CompiledConfig)
    (env : PlanEnv) (c : Candidate) : Option Nat :=
  if c.prio ≤ 19 ∨ cfg.isProtected c.proc.name = true ∨
      candidateAction level swapExhausted cfg env c = .none then none
  else some (freed (candidateAction level swapExhausted cfg env c) c)

theorem gain_isSome_iff (c : Candidate) :
    (gain level swapExhausted cfg env c).isSome ↔
      19 < c.prio ∧ cfg.isProtected c.proc.name = false ∧
        candidateAction level swapExhausted cfg env c ≠ .none := by
  unfold gain
  split
  · next h =>
      simp only [Option.isSome_none, Bool.false_eq_true, false_iff]
      intro hServed
      obtain ⟨hPrio, hProt, hAct⟩ := hServed
      rcases h with hLow | hListed | hNone
      · omega
      · simp [hProt] at hListed
      · exact hAct hNone
  · next h =>
      simp only [not_or, not_le, Bool.not_eq_true] at h
      simpa using h

/-- The loop is the greedy walk with this gain. -/
theorem planLoop_eq_walk (deficit : Int) (cs : List Candidate) :
    planLoop level swapExhausted cfg env deficit cs =
      walk (gain level swapExhausted cfg env)
        (fun d c => decisionFor (candidateAction level swapExhausted cfg env c) d c)
        deficit cs := by
  induction cs generalizing deficit with
  | nil => rfl
  | cons c rest ih =>
      simp only [planLoop, walk, gain]
      by_cases hPrio : c.prio ≤ 19
      · simp [hPrio, ih]
      by_cases hProt : cfg.isProtected c.proc.name = true
      · simp [hPrio, hProt, ih]
      by_cases hAct : candidateAction level swapExhausted cfg env c = .none
      · simp [hPrio, hProt, hAct, ih]
      · simp [hPrio, hProt, hAct, ih]

/-- **A decision of the plan** is for a candidate that the walk reaches with a
positive deficit and does not pass over. -/
theorem mem_planned_iff (x : Process × Decision) :
    x ∈ planned level procs availableKb totalKb swapExhausted cfg env ↔
      level ≠ .normal ∧ ∃ pre c post,
        sortDesc sortKey (candidates level procs cfg env) = pre ++ c :: post ∧
        0 < calculateRamDeficitKb availableKb totalKb cfg.targetAvailablePct -
          spent (gain level swapExhausted cfg env) pre ∧
        (gain level swapExhausted cfg env c).isSome ∧
        x = decisionFor (candidateAction level swapExhausted cfg env c)
          (calculateRamDeficitKb availableKb totalKb cfg.targetAvailablePct -
            spent (gain level swapExhausted cfg env) pre) c := by
  unfold planned
  by_cases hLevel : level = .normal
  · simp [hLevel]
  rw [if_neg hLevel]
  generalize calculateRamDeficitKb availableKb totalKb cfg.targetAvailablePct = deficit
  by_cases hDeficit : deficit ≤ 0
  · constructor
    · intro h
      simp [hDeficit] at h
    · intro h
      obtain ⟨-, pre, c, post, -, hpos, -⟩ := h
      omega
  · rw [if_neg hDeficit, planLoop_eq_walk, mem_walk_iff]
    simp [hLevel]

theorem mem_candidates_iff (c : Candidate) :
    c ∈ candidates level procs cfg env ↔
      ∃ p ∈ procs, isCandidate p = true ∧ c = toCandidate level cfg env p := by
  simp only [candidates, List.mem_map, List.mem_filter]
  constructor
  · intro h
    obtain ⟨p, ⟨hp, hc⟩, hEq⟩ := h
    exact ⟨p, hp, hc, hEq.symm⟩
  · intro h
    obtain ⟨p, hp, hc, hEq⟩ := h
    exact ⟨p, ⟨hp, hc⟩, hEq.symm⟩

/-- A process decided on is one of the list. -/
theorem mem_procs_of_planned {x : Process × Decision}
    (hx : x ∈ planned level procs availableKb totalKb swapExhausted cfg env) : x.1 ∈ procs := by
  obtain ⟨-, pre, c, post, hSorted, -, -, rfl⟩ := (mem_planned_iff x).mp hx
  have hInSorted : c ∈ sortDesc sortKey (candidates level procs cfg env) := by
    rw [hSorted]
    simp
  obtain ⟨p, hp, -, rfl⟩ := (mem_candidates_iff c).mp (mem_sortDesc.mp hInSorted)
  exact hp

/-- The PID of a decision is that of its process. -/
theorem pid_of_planned {x : Process × Decision}
    (hx : x ∈ planned level procs availableKb totalKb swapExhausted cfg env) :
    x.2.pid = x.1.pid := by
  obtain ⟨-, pre, c, post, -, -, -, rfl⟩ := (mem_planned_iff x).mp hx
  rfl

/-- **Least important first.**  Next to a decision for some process, every
less important process that the planner has an action for gets it. -/
theorem planned_of_less_important {x : Process × Decision} {p : Process}
    (hx : x ∈ planned level procs availableKb totalKb swapExhausted cfg env)
    (hp : p ∈ procs) (hSize : isCandidate p = true)
    (hPrio : x.2.prio < effectivePriority cfg env.activePid p)
    (hProt : cfg.isProtected p.name = false)
    (hAct : candidateAction level swapExhausted cfg env (toCandidate level cfg env p) ≠ .none) :
    ∃ d, (p, d) ∈ planned level procs availableKb totalKb swapExhausted cfg env ∧
      d.action = candidateAction level swapExhausted cfg env (toCandidate level cfg env p) := by
  obtain ⟨hNormal, pre, c, post, hSorted, hPos, hGain, rfl⟩ := (mem_planned_iff x).mp hx
  have hMem : toCandidate level cfg env p ∈ candidates level procs cfg env :=
    (mem_candidates_iff _).mpr ⟨p, hp, hSize, rfl⟩
  have hKey : sortKey c < sortKey (toCandidate level cfg env p) :=
    Prod.Lex.toLex_lt_toLex.mpr (Or.inl hPrio)
  obtain ⟨A, B, rfl⟩ := sortDesc_before hMem hSorted hKey
  have hServed : (gain level swapExhausted cfg env (toCandidate level cfg env p)).isSome := by
    have hTier : 19 < c.prio := ((gain_isSome_iff c).mp hGain).1
    have hAbove : c.prio < (toCandidate level cfg env p).prio := hPrio
    exact (gain_isSome_iff _).mpr ⟨by omega, hProt, hAct⟩
  have hReached : 0 < calculateRamDeficitKb availableKb totalKb cfg.targetAvailablePct -
      (spent (gain level swapExhausted cfg env) A : Nat) := by
    rw [spent_append] at hPos
    omega
  have hSplit : sortDesc sortKey (candidates level procs cfg env) =
      A ++ toCandidate level cfg env p :: (B ++ c :: post) := by
    rw [hSorted, List.append_assoc, List.cons_append]
  exact ⟨_, (mem_planned_iff _).mpr ⟨hNormal, A, _, _, hSplit, hReached, hServed, rfl⟩, rfl⟩

/-- With the target already met there is nothing to decide. -/
theorem planned_of_deficit_nonpos
    (h : calculateRamDeficitKb availableKb totalKb cfg.targetAvailablePct ≤ 0) :
    planned level procs availableKb totalKb swapExhausted cfg env = [] := by
  unfold planned
  split
  · rfl
  · simp [h]

end Reading

end Mgd.Engine.Planner
