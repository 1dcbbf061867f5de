import Mgd.Engine.Planner

/-!
# The system tier and the protect list

`DECISION_TREE.md` lists priorities up to 19 as never touched, and so does the
`[[protect]]` table.  The loop tests the tier on the effective priority, which
for the foreground process has already been raised to 20 at least.  A system
process in the foreground therefore passes the test.

`hardRule_iff` says when that matters: at Critical and Emergency, when the RAM
of the candidates ranked ahead of it does not cover the deficit.  The protect
list is tested on the name and holds without condition.
-/

namespace Mgd.Engine.SystemTier

open Mgd.Types Mgd.Monitor Mgd.Config Mgd.Lib.Greedy Mgd.Engine.Planner

variable {level : PressureLevel} {swapExhausted : Bool} {cfg : CompiledConfig}
  {env : PlanEnv} {procs : List Process} {availableKb totalKb : Kb}

/-- The hard rule, read on the process of each decision and its configured
priority. -/
def HardRule (level : PressureLevel) (procs : List Process) (availableKb totalKb : Kb)
    (swapExhausted : Bool) (cfg : CompiledConfig) (env : PlanEnv) : Prop :=
  ∀ x ∈ planned level procs availableKb totalKb swapExhausted cfg env,
    19 < cfg.priorityFor x.1.name x.1.exeBasename ∧ cfg.isProtected x.1.name = false

instance : Decidable (HardRule level procs availableKb totalKb swapExhausted cfg env) :=
  inferInstanceAs (Decidable (∀ _ ∈ _, _))

/-- Neither the tier nor the protect list spares the candidate. -/
def killable (cfg : CompiledConfig) (c : Candidate) : Bool :=
  decide (19 < c.prio) && !cfg.isProtected c.proc.name

/-- RAM of the candidates the loop may kill among those ranked ahead of `c`:
those before it with a key at least as large, those after it with a larger
one. -/
def killableAheadKb (cfg : CompiledConfig) (pre : List Candidate) (c : Candidate)
    (post : List Candidate) : Nat :=
  (((pre.filter (fun a => decide (sortKey c ≤ sortKey a)) ++
    post.filter (fun a => decide (sortKey c < sortKey a))).filter (killable cfg)).map
      (fun a => a.proc.rssKb.val)).sum

/-- A system-tier process in the foreground is exposed: the level allows any
action on it, it is not protected by name, and the deficit outlasts the
candidates ranked ahead of it. -/
def ForegroundExposed (level : PressureLevel) (procs : List Process)
    (availableKb totalKb : Kb) (cfg : CompiledConfig) (env : PlanEnv) : Prop :=
  .critical ≤ level ∧ ∃ pre c post,
    candidates level procs cfg env = pre ++ c :: post ∧
    env.activePid = some c.proc.pid ∧
    cfg.priorityFor c.proc.name c.proc.exeBasename ≤ 19 ∧
    cfg.isProtected c.proc.name = false ∧
    (killableAheadKb cfg pre c post : Int) <
      calculateRamDeficitKb availableKb totalKb cfg.targetAvailablePct

/-! ## The action at a level -/

/-- From Critical on, every process the loop does not pass over is ended. -/
theorem determineProcessAction_of_critical_le {prio : Nat} {ratio : ℚ}
    {override : Option Bool} {cp : Bool} (h : .critical ≤ level) :
    (determineProcessAction level prio ratio override swapExhausted cp).isDestructive := by
  unfold determineProcessAction
  split
  · rfl
  cases level with
  | normal => exact absurd h (by decide)
  | elevated => exact absurd h (by decide)
  | high => exact absurd h (by decide)
  | critical =>
      cases override with
      | some b =>
          dsimp only
          split
          · rfl
          · split <;> rfl
      | none =>
          dsimp only
          split
          · rfl
          · split
            · rfl
            · split
              · rfl
              · split <;> rfl
  | emergency => rfl

/-- Below Critical nothing is done to a process under priority 60. -/
theorem determineProcessAction_of_lt_critical {prio : Nat} {ratio : ℚ}
    {override : Option Bool} {cp : Bool} (hPrio : prio < 60) (h : level < .critical) :
    determineProcessAction level prio ratio override swapExhausted cp = .none := by
  have hNot : ¬ (swapExhausted = true ∧ prio ≥ 80) := by
    intro h
    have h80 : prio ≥ 80 := h.2
    omega
  unfold determineProcessAction
  rw [if_neg hNot]
  cases level with
  | normal => rfl
  | elevated => simp [hPrio]
  | high =>
      have h80 : ¬ prio ≥ 80 := by omega
      simp [h80, hPrio]
  | critical => exact absurd h (by decide)
  | emergency => exact absurd h (by decide)

theorem candidateAction_ne_none (h : .critical ≤ level) (c : Candidate) :
    candidateAction level swapExhausted cfg env c ≠ .none := by
  have hAct : (candidateAction level swapExhausted cfg env c).isDestructive :=
    determineProcessAction_of_critical_le h
  intro hEq
  rw [hEq] at hAct
  exact absurd hAct (by decide)

theorem freed_of_destructive {action : Action} (c : Candidate)
    (h : action.isDestructive = true) : freed action c = c.proc.rssKb.val := by
  cases action <;> first | rfl | exact absurd h (by decide)

/-- From Critical on, the gain of a candidate is its RSS unless the tier or the
protect list spares it. -/
theorem gain_of_critical_le (h : .critical ≤ level) (c : Candidate) :
    (gain level swapExhausted cfg env c).getD 0 =
      if killable cfg c then c.proc.rssKb.val else 0 := by
  have hAct : (candidateAction level swapExhausted cfg env c).isDestructive :=
    determineProcessAction_of_critical_le h
  have hNone : candidateAction level swapExhausted cfg env c ≠ .none := candidateAction_ne_none h c
  unfold gain killable
  rw [freed_of_destructive c hAct]
  by_cases hPrio : c.prio ≤ 19
  · simp [hPrio, Nat.not_lt.mpr hPrio]
  · cases hProt : cfg.isProtected c.proc.name <;> simp [hPrio, hNone, Nat.lt_of_not_le hPrio]

theorem spent_of_critical_le (h : .critical ≤ level) (cs : List Candidate) :
    spent (gain level swapExhausted cfg env) cs =
      ((cs.filter (killable cfg)).map (fun a => a.proc.rssKb.val)).sum := by
  induction cs with
  | nil => rfl
  | cons c cs ih =>
      rw [spent_cons, gain_of_critical_le h, ih]
      split
      · next hKeep => rw [List.filter_cons_of_pos hKeep, List.map_cons, List.sum_cons]
      · next hDrop => rw [List.filter_cons_of_neg hDrop, Nat.zero_add]

/-! ## The foreground adjustment -/

/-- The adjustment can only lift a system-tier process when it is in the
foreground, and then exactly to 20. -/
theorem effectivePriority_of_system {activePid : Option Pid} {p : Process}
    (hConf : cfg.priorityFor p.name p.exeBasename ≤ 19)
    (hEff : 19 < effectivePriority cfg activePid p) :
    activePid = some p.pid ∧ effectivePriority cfg activePid p = 20 := by
  unfold effectivePriority at hEff ⊢
  by_cases hActive : some p.pid = activePid
  · simp only [if_pos hActive] at hEff ⊢
    have hFloor : max (cfg.priorityFor p.name p.exeBasename - 25) 20 = 20 := by omega
    exact ⟨hActive.symm, hFloor⟩
  · simp only [if_neg hActive] at hEff
    omega

theorem effectivePriority_foreground {activePid : Option Pid} {p : Process}
    (hActive : activePid = some p.pid) : 20 ≤ effectivePriority cfg activePid p := by
  unfold effectivePriority
  simp only [hActive, if_true]
  omega

/-- The protect list is never touched. -/
theorem planned_not_protected {x : Process × Decision}
    (hx : x ∈ planned level procs availableKb totalKb swapExhausted cfg env) :
    cfg.isProtected x.1.name = false := by
  obtain ⟨-, pre, c, post, -, -, hGain, rfl⟩ := (mem_planned_iff x).mp hx
  exact ((gain_isSome_iff c).mp hGain).2.1

/-- A decision for a system-tier process means the foreground is exposed. -/
theorem exposed_of_planned {x : Process × Decision}
    (hx : x ∈ planned level procs availableKb totalKb swapExhausted cfg env)
    (hConf : cfg.priorityFor x.1.name x.1.exeBasename ≤ 19) :
    ForegroundExposed level procs availableKb totalKb cfg env := by
  obtain ⟨-, P, c, Q, hSorted, hPos, hGain, rfl⟩ := (mem_planned_iff x).mp hx
  obtain ⟨hPrio, hProt, hAct⟩ := (gain_isSome_iff c).mp hGain
  have hInSorted : c ∈ sortDesc sortKey (candidates level procs cfg env) := by
    rw [hSorted]
    simp
  have hMem : c ∈ candidates level procs cfg env := mem_sortDesc.mp hInSorted
  obtain ⟨p, -, -, rfl⟩ := (mem_candidates_iff c).mp hMem
  obtain ⟨hActive, hTwenty⟩ := effectivePriority_of_system (p := p) hConf hPrio
  have hLevel : .critical ≤ level := by
    by_contra hLow
    have hBelow : effectivePriority cfg env.activePid p < 60 := by omega
    exact hAct (determineProcessAction_of_lt_critical hBelow (not_le.mp hLow))
  obtain ⟨pre, post, A, hSplit, hFirst, hPerm⟩ := sortDesc_first hMem hSorted
  refine ⟨hLevel, pre, _, post, hSplit, hActive, hConf, hProt, ?_⟩
  have hAhead : killableAheadKb cfg pre (toCandidate level cfg env p) post =
      spent (gain level swapExhausted cfg env) A := by
    rw [spent_perm hPerm, spent_of_critical_le hLevel]
    rfl
  -- the candidates served before this one include those ranked ahead of it
  obtain ⟨R, rfl⟩ := hFirst
  rw [spent_append] at hPos
  rw [hAhead]
  omega

/-- An exposed foreground process gets a decision. -/
theorem planned_of_exposed (swapExhausted : Bool)
    (h : ForegroundExposed level procs availableKb totalKb cfg env) :
    ∃ x ∈ planned level procs availableKb totalKb swapExhausted cfg env,
      cfg.priorityFor x.1.name x.1.exeBasename ≤ 19 := by
  obtain ⟨hLevel, pre, c, post, hSplit, hActive, hConf, hProt, hDeficit⟩ := h
  have hMem : c ∈ candidates level procs cfg env := by
    rw [hSplit]
    simp
  obtain ⟨p, -, -, rfl⟩ := (mem_candidates_iff c).mp hMem
  obtain ⟨A, B, hSorted, hPerm⟩ := sortDesc_split sortKey pre (toCandidate level cfg env p) post
  have hAhead : killableAheadKb cfg pre (toCandidate level cfg env p) post =
      spent (gain level swapExhausted cfg env) A := by
    rw [spent_perm hPerm, spent_of_critical_le hLevel]
    rfl
  have hGain : (gain level swapExhausted cfg env (toCandidate level cfg env p)).isSome := by
    refine (gain_isSome_iff _).mpr ⟨effectivePriority_foreground hActive, hProt, ?_⟩
    exact candidateAction_ne_none hLevel _
  have hNormal : level ≠ .normal := by
    intro hEq
    rw [hEq] at hLevel
    exact absurd hLevel (by decide)
  have hReached : 0 < calculateRamDeficitKb availableKb totalKb cfg.targetAvailablePct -
      (spent (gain level swapExhausted cfg env) A : Nat) := by
    rw [hAhead] at hDeficit
    omega
  rw [← hSplit] at hSorted
  exact ⟨_, (mem_planned_iff _).mpr ⟨hNormal, A, _, B, hSorted, hReached, hGain, rfl⟩, hConf⟩

/--
**When the hard rule holds.**  Every decision is for a process outside the
system tier and off the protect list exactly when no system-tier process in
the foreground is exposed.
-/
theorem hardRule_iff :
    HardRule level procs availableKb totalKb swapExhausted cfg env ↔
      ¬ ForegroundExposed level procs availableKb totalKb cfg env := by
  constructor
  · intro hRule hExposed
    obtain ⟨x, hx, hConf⟩ := planned_of_exposed swapExhausted hExposed
    have hTier : 19 < cfg.priorityFor x.1.name x.1.exeBasename := (hRule x hx).1
    omega
  · intro hSafe x hx
    refine ⟨?_, planned_not_protected hx⟩
    by_contra hConf
    exact hSafe (exposed_of_planned hx (Nat.not_lt.mp hConf))

/-! ## The compositor in the foreground -/

/-- A compositor of 300 MB. -/
def compositor : Process where
  pid := ⟨1000⟩
  name := "kwin_wayland"
  exeBasename := none
  rssKb := Kb.clamp 300000
  swapKb := Kb.clamp 0
  oomScore := 0
  cgroupPath := none
  cpuPct := 0
  majflt := 0
  cmdline := ""

/-- A configuration that puts the compositor into the system tier. -/
def compositorConfig : CompiledConfig :=
  { CompiledConfig.ofEmpty 15 with entries := [⟨Regex.exact "kwin_wayland", 5, none⟩] }

/-- The compositor owns the active window; checkpointing is unavailable. -/
def compositorEnv : PlanEnv where
  activePid := some compositor.pid
  gpuKb := fun _ => Kb.clamp 0
  checkpointEligible := fun _ => false

/-- At Critical the compositor in the foreground is killed. -/
theorem hardRule_fails_for_foreground_compositor :
    ¬ HardRule .critical [compositor] (Kb.clamp 500000) (Kb.clamp 16000000) false
      compositorConfig compositorEnv := by
  decide +kernel

end Mgd.Engine.SystemTier
