import Mgd.Engine.SystemTier

/-!
# Two laws of the planner

`ARCHITECTURE.md` gives the algorithm as a walk over the ordered candidates until
the deficit is covered.  `plan_shortestCover` is that walk in closed form: of the
candidates the planner has an action for, the shortest prefix whose RAM covers
the deficit.

The foreground process is moved 25 down in priority, which the documentation
calls a shield from eviction.  The action table is not monotone in priority: at
Critical, without a checkpoint, a priority from 60 on is terminated and a lower
one is killed.  `foreground_action_le_iff` gives the inputs where the shield
therefore turns a SIGTERM into a SIGKILL.
-/

namespace Mgd.Engine.PlanLaws

open Mgd.Types Mgd.Monitor Mgd.Config Mgd.Lib.Greedy Mgd.Engine.Planner Mgd.Engine.SystemTier

variable {level : PressureLevel} {swapExhausted : Bool} {cfg : CompiledConfig}
  {env : PlanEnv} {procs : List Process} {availableKb totalKb : Kb}

/-! ## The shortest plan -/

/-- The candidates the loop serves when it gets to them, in its order: above the
system tier, not protected, and with an action. -/
def actionable (level : PressureLevel) (procs : List Process) (swapExhausted : Bool)
    (cfg : CompiledConfig) (env : PlanEnv) : List Candidate :=
  (sortDesc sortKey (candidates level procs cfg env)).filter fun c =>
    killable cfg c && decide (candidateAction level swapExhausted cfg env c ≠ .none)

/-- What the action of a candidate takes off the deficit. -/
def frees (level : PressureLevel) (swapExhausted : Bool) (cfg : CompiledConfig)
    (env : PlanEnv) (c : Candidate) : Nat :=
  freed (candidateAction level swapExhausted cfg env c) c

/-- The loop serves the actionable candidates. -/
theorem gain_isSome_eq (c : Candidate) :
    (gain level swapExhausted cfg env c).isSome =
      (killable cfg c && decide (candidateAction level swapExhausted cfg env c ≠ .none)) := by
  rw [Bool.eq_iff_iff, gain_isSome_iff]
  simp [killable, and_assoc]

theorem gain_of_isSome {c : Candidate} (h : (gain level swapExhausted cfg env c).isSome) :
    (gain level swapExhausted cfg env c).getD 0 = frees level swapExhausted cfg env c := by
  unfold gain at h ⊢
  split
  · next hSkip => simp [hSkip] at h
  · rfl

/-- **The plan is the shortest prefix that covers the deficit.**  At Normal, or
without a deficit, there is nothing to do.  Otherwise the decisions are, in
order, those for the shortest prefix of the actionable candidates whose RAM
covers the deficit, or for all of them. -/
theorem plan_shortestCover (level : PressureLevel) (procs : List Process)
    (availableKb totalKb : Kb) (swapExhausted : Bool) (cfg : CompiledConfig) (env : PlanEnv) :
    if level = .normal ∨
        calculateRamDeficitKb availableKb totalKb cfg.targetAvailablePct ≤ 0 then
      plan level procs availableKb totalKb swapExhausted cfg env = []
    else
      ∃ cover, ShortestCover (frees level swapExhausted cfg env)
          (calculateRamDeficitKb availableKb totalKb cfg.targetAvailablePct)
          (actionable level procs swapExhausted cfg env) cover ∧
        List.Forall₂
          (fun decision c => ∃ left, decision =
            (decisionFor (candidateAction level swapExhausted cfg env c) left c).2)
          (plan level procs availableKb totalKb swapExhausted cfg env) cover := by
  unfold plan planned
  generalize calculateRamDeficitKb availableKb totalKb cfg.targetAvailablePct = deficit
  by_cases hLevel : level = .normal
  · simp [hLevel]
  by_cases hDeficit : deficit ≤ 0
  · simp [hDeficit]
  rw [if_neg (by simp [hLevel, hDeficit]), if_neg hLevel]
  dsimp only
  rw [if_neg hDeficit, planLoop_eq_walk]
  obtain ⟨cover, hCover, hServed⟩ := walk_shortestCover (gain level swapExhausted cfg env)
    (fun d c => decisionFor (candidateAction level swapExhausted cfg env c) d c)
    deficit (sortDesc sortKey (candidates level procs cfg env))
  have hList : (sortDesc sortKey (candidates level procs cfg env)).filter
      (fun c => (gain level swapExhausted cfg env c).isSome) =
      actionable level procs swapExhausted cfg env :=
    List.filter_congr fun c _ => gain_isSome_eq c
  have hCost : ∀ c ∈ (sortDesc sortKey (candidates level procs cfg env)).filter
      (fun c => (gain level swapExhausted cfg env c).isSome),
      (gain level swapExhausted cfg env c).getD 0 = frees level swapExhausted cfg env c :=
    fun c hc => gain_of_isSome (List.mem_filter.mp hc).2
  refine ⟨cover, ?_, ?_⟩
  · rw [← hList]
    exact hCover.congr hCost
  · rw [List.forall₂_map_left_iff]
    refine hServed.imp ?_
    intro x c h
    obtain ⟨left, rfl⟩ := h
    exact ⟨left, rfl⟩

/-! ## The foreground process -/

/-- `Action` is ordered by severity, in the order of its declaration. -/
def severity : Action → Nat
  | .none => 0
  | .freeze => 1
  | .checkpoint => 2
  | .terminate => 3
  | .kill => 4

theorem severity_injective : Function.Injective severity := by
  intro a b h
  cases a <;> cases b <;> first | rfl | exact absurd h (by decide)

instance : LinearOrder Action := LinearOrder.lift' severity severity_injective

/-- What the loop does with a process it gets to, when the active window is that
of `activePid`. -/
def actionOn (level : PressureLevel) (swapExhausted : Bool) (cfg : CompiledConfig)
    (env : PlanEnv) (activePid : Option Pid) (p : Process) : Action :=
  let env := { env with activePid := activePid }
  let c := toCandidate level cfg env p
  if killable cfg c then candidateAction level swapExhausted cfg env c else .none

/-- The decisions of a plan carry this action. -/
theorem action_of_mem_planned {x : Process × Decision}
    (hx : x ∈ planned level procs availableKb totalKb swapExhausted cfg env) :
    x.2.action = actionOn level swapExhausted cfg env env.activePid x.1 := by
  obtain ⟨-, pre, c, post, hSorted, -, hServed, rfl⟩ := (mem_planned_iff x).mp hx
  have hInSorted : c ∈ sortDesc sortKey (candidates level procs cfg env) := by
    rw [hSorted]
    simp
  obtain ⟨p, -, -, rfl⟩ := (mem_candidates_iff c).mp (mem_sortDesc.mp hInSorted)
  rw [gain_isSome_eq, Bool.and_eq_true] at hServed
  unfold actionOn
  dsimp only
  exact (if_pos hServed.1).symm

/-- The branch of the action table that ends the more important process the
harder way: at Critical, neither checkpointed nor mostly in swap. -/
def Inverted (level : PressureLevel) (ratio : ℚ) (override : Option Bool) (cpSupported : Bool) :
    Prop :=
  level = .critical ∧ override = none ∧ cpSupported = false ∧ ratio ≤ 1 / 2

theorem le_kill (a : Action) : a ≤ .kill := by
  cases a <;> decide

/-- Below the priorities that exhausted swap condemns, the table is monotone up
to Critical, and there outside the inverted branch. -/
theorem determineProcessAction_le_iff_of_spared {lo hi : Nat} {ratio : ℚ}
    {override : Option Bool} {cpSupported : Bool} (hLe : lo ≤ hi)
    (hSpared : ¬ (swapExhausted = true ∧ 80 ≤ hi)) :
    determineProcessAction level lo ratio override swapExhausted cpSupported ≤
        determineProcessAction level hi ratio override swapExhausted cpSupported ↔
      ¬ (Inverted level ratio override cpSupported ∧ lo < 60 ∧ 60 ≤ hi) := by
  have hLow : ¬ (swapExhausted = true ∧ lo ≥ 80) :=
    fun h => hSpared ⟨h.1, Nat.le_trans h.2 hLe⟩
  unfold determineProcessAction Inverted
  rw [if_neg hLow, if_neg hSpared]
  cases level with
  | normal => simp
  | elevated =>
      refine iff_of_true ?_ (by simp)
      dsimp only
      split_ifs <;> first | decide | omega
  | high =>
      refine iff_of_true ?_ (by simp)
      dsimp only
      split_ifs <;> first | decide | omega
  | emergency => simp
  | critical =>
      cases override with
      | some cp => simp
      | none =>
          by_cases hSwapped : ratio > 1 / 2
          · refine iff_of_true ?_ (fun h => absurd h.1.2.2.2 (not_le.mpr hSwapped))
            simp only [hSwapped, true_and]
            cases cpSupported <;> split_ifs <;> first | decide | omega
          · have hRatio : ratio ≤ 1 / 2 := not_lt.mp hSwapped
            simp only [hSwapped, false_and, if_false, hRatio, and_true, true_and]
            cases cpSupported with
            | true =>
                refine iff_of_true ?_ (by simp)
                simp only [if_true]
                split_ifs <;> first | decide | omega
            | false =>
                simp only [Bool.false_eq_true, if_false]
                by_cases hSplit : lo < 60 ∧ 60 ≤ hi
                · refine iff_of_false ?_ (by simp [hSplit])
                  have h75 : ¬ lo ≥ 75 := by omega
                  have h60 : ¬ lo ≥ 60 := by omega
                  simp only [h75, h60, hSplit.2, if_false, if_true, ge_iff_le]
                  split_ifs <;> decide
                · refine iff_of_true ?_ (fun h => hSplit h.2)
                  split_ifs <;> first | decide | omega

/-- **Where the action table is monotone in the priority.** -/
theorem determineProcessAction_le_iff {lo hi : Nat} {ratio : ℚ} {override : Option Bool}
    {cpSupported : Bool} (hLe : lo ≤ hi) :
    determineProcessAction level lo ratio override swapExhausted cpSupported ≤
        determineProcessAction level hi ratio override swapExhausted cpSupported ↔
      ¬ (Inverted level ratio override cpSupported ∧ lo < 60 ∧ 60 ≤ hi ∧
        ¬ (swapExhausted = true ∧ 80 ≤ hi)) := by
  by_cases hExhausted : swapExhausted = true ∧ 80 ≤ hi
  · refine iff_of_true ?_ (fun h => h.2.2.2 hExhausted)
    have hKill : determineProcessAction level hi ratio override swapExhausted cpSupported =
        .kill := by
      unfold determineProcessAction
      exact if_pos hExhausted
    rw [hKill]
    exact le_kill _
  · rw [determineProcessAction_le_iff_of_spared hLe hExhausted]
    simp only [hExhausted, not_false_eq_true, and_true]

/-- The inputs on which the foreground costs a process the SIGTERM: priority 60
to 84, at Critical, not to be checkpointed and not mostly in swap. -/
def KilledInForeground (level : PressureLevel) (swapExhausted : Bool) (cfg : CompiledConfig)
    (env : PlanEnv) (p : Process) : Prop :=
  Inverted level (swapRatio p) (cfg.checkpointOverride p.name)
      (env.checkpointEligible p.name) ∧
    cfg.isProtected p.name = false ∧
    60 ≤ cfg.priorityFor p.name p.exeBasename ∧ cfg.priorityFor p.name p.exeBasename < 85 ∧
    ¬ (swapExhausted = true ∧ 80 ≤ cfg.priorityFor p.name p.exeBasename)

/-- **When the foreground does not hurt**: the action on a process as the active
one is at most as severe as the action on it as a background process, except on
`KilledInForeground`. -/
theorem foreground_action_le_iff (level : PressureLevel) (swapExhausted : Bool)
    (cfg : CompiledConfig) (env : PlanEnv) (p : Process) (other : Option Pid)
    (hOther : other ≠ some p.pid) (hPrio : 20 ≤ cfg.priorityFor p.name p.exeBasename) :
    actionOn level swapExhausted cfg env (some p.pid) p ≤
        actionOn level swapExhausted cfg env other p ↔
      ¬ KilledInForeground level swapExhausted cfg env p := by
  have hFront : effectivePriority cfg (some p.pid) p =
      max (cfg.priorityFor p.name p.exeBasename - 25) 20 := if_pos rfl
  have hBack : effectivePriority cfg other p = cfg.priorityFor p.name p.exeBasename :=
    if_neg (Ne.symm hOther)
  unfold actionOn killable KilledInForeground toCandidate
  dsimp only
  rw [hFront, hBack]
  generalize cfg.priorityFor p.name p.exeBasename = prio at hPrio ⊢
  cases hProt : cfg.isProtected p.name with
  | true => simp
  | false =>
      have hTierFront : 19 < max (prio - 25) 20 := by omega
      have hTierBack : 19 < prio := by omega
      simp only [hTierFront, hTierBack, decide_true, Bool.not_false, Bool.and_self, if_true,
        candidateAction, true_and]
      rw [determineProcessAction_le_iff (by omega)]
      apply not_congr
      apply and_congr_right
      intro _
      constructor
      · intro h
        obtain ⟨hLow, hHigh, hSpared⟩ := h
        exact ⟨hHigh, by omega, hSpared⟩
      · intro h
        obtain ⟨hHigh, hBelow, hSpared⟩ := h
        exact ⟨by omega, hHigh, hSpared⟩

/-- A browser at priority 70 that is all in RAM. -/
def browser : Process where
  pid := ⟨100⟩
  name := "browser"
  exeBasename := none
  rssKb := Kb.clamp 2000000
  swapKb := Kb.clamp 0
  oomScore := 0
  cgroupPath := none
  cpuPct := 0
  majflt := 0
  cmdline := "browser"

def browserConfig : CompiledConfig := { CompiledConfig.ofEmpty 15 with defaultPriority := 70 }

/-- A system without CRIU. -/
def noCheckpoint : PlanEnv where
  activePid := none
  gpuKb _ := Kb.clamp 0
  checkpointEligible _ := false

/-- The browser gets a SIGTERM in the background and a SIGKILL in front. -/
theorem not_foreground_action_le :
    actionOn .critical false browserConfig noCheckpoint none browser = .terminate ∧
      actionOn .critical false browserConfig noCheckpoint (some browser.pid) browser = .kill ∧
      ¬ actionOn .critical false browserConfig noCheckpoint (some browser.pid) browser ≤
        actionOn .critical false browserConfig noCheckpoint none browser := by
  decide +kernel

/-- At High the foreground spares the browser its freeze. -/
theorem foreground_action_le_high :
    actionOn .high false browserConfig noCheckpoint (some browser.pid) browser ≤
      actionOn .high false browserConfig noCheckpoint none browser :=
  (foreground_action_le_iff .high false browserConfig noCheckpoint browser none
    (by decide) (by decide)).mpr (fun h => absurd h.1.1 (by decide))

end Mgd.Engine.PlanLaws
