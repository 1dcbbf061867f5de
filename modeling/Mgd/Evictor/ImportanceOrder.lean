import Mgd.Evictor.Run

/-!
# Least important first, across cycles

The planner takes the least important candidates first, but its list leaves out
the frozen processes, the tracked spikes with their victims, and the cgroups
targeted less than 45 s ago.  `leastImportantUnfrozenFirst` relates a cycle to
the history behind those lists: next to a destructive decision, every less
important process that is not frozen gets one too, or an earlier cycle of the
run has targeted its cgroup.

A frozen process is left alone on purpose: acting on it would act twice.
`freezeThenEscalate_spares_frozen` is a run in which one that an Elevated cycle
froze outlives a more important process at Emergency.
-/

namespace Mgd.Evictor.ImportanceOrder

open Mgd.Types Mgd.Monitor Mgd.Config Mgd.Lib.AssocMap Mgd.Lib.Run Mgd.Engine.Planner
open Mgd.Executor.Registry Mgd.SpikeMode Mgd.Throttle
open Mgd.Evictor.Scoring Mgd.Evictor.Spike Mgd.Evictor.Execute Mgd.Evictor.Run

/-! ## The loop with its history -/

/-- The cgroups an iteration targets. -/
def targets (e : LoopState) : Iteration → List Targeting
  | .cycle c => cycleTargets e c
  | .waitTimeout _ => []
  | .psiError => []

/-- The action the planner has for a process of the cycle. -/
def planAction (e : LoopState) (c : FullCycle) (p : Process) : Action :=
  candidateAction (effectiveLevel e c) (cycleSwapExhausted c) c.cfg (planEnv (beforePlan e c) c)
    (toCandidate (effectiveLevel e c) c.cfg (planEnv (beforePlan e c) c) p)

/-- A live process that is less important than priority `b` and that the
planner would end, were it a candidate. -/
structure Expendable (e : LoopState) (c : FullCycle) (b : Nat) (p : Process) : Prop where
  live : p ∈ c.procs
  unprotected : c.cfg.isProtected p.name = false
  notSpike : p.pid ∉ (beforePlan e c).spikeTracker.spikePids
  notVictim : p.pid ∉ (beforePlan e c).spikeTracker.victimPids
  sizeable : isCandidate p = true
  lessImportant : b < effectivePriority c.cfg c.planActivePid p
  destructive : (planAction e c p).isDestructive = true

/-- The process gets a destructive decision. -/
def Served (e : LoopState) (c : FullCycle) (p : Process) : Prop :=
  ∃ d, (p, d) ∈ cycleDecisions e c ∧ d.action.isDestructive = true

/-- An iteration of the history targeted the cgroup of the process less than
45 s ago. -/
def TargetedLately (history : List (List Targeting)) (c : FullCycle) (p : Process) : Prop :=
  ∃ g ∈ history.flatten, p.cgroupPath = some g.cgroupPath ∧
    Instant.secsSince c.planNow g.takenAt < 45

/-- Next to a destructive decision every expendable process of the given kind
gets one too, or its cgroup was targeted lately. -/
def NoneOvertaken (kind : LoopState → FullCycle → Process → Prop)
    (s : LoopState × List (List Targeting)) : Iteration → Prop
  | .cycle c =>
      ∀ x ∈ cycleDecisions s.1 c, x.2.action.isDestructive = true →
        ∀ p, Expendable s.1 c x.2.prio p → kind s.1 c p → Served s.1 c p ∨ TargetedLately s.2 c p
  | .waitTimeout _ => True
  | .psiError => True

/-- Least important first, whatever became of the process before. -/
def LeastImportantFirst (s : LoopState × List (List Targeting)) : Iteration → Prop :=
  NoneOvertaken (fun _ _ _ => True) s

/-- Least important first among the processes that are not frozen when the
candidates are listed. -/
def LeastImportantUnfrozenFirst (s : LoopState × List (List Targeting)) : Iteration → Prop :=
  NoneOvertaken (fun e c p => (frozenAtPlan (beforePlan e c) c).isFrozen p.pid = false) s

/-- A process in the registry when the candidates are listed gets no decision,
and none is executed for its PID. -/
def FrozenLeftAlone (s : LoopState × List (List Targeting)) : Iteration → Prop
  | .cycle c =>
      ∀ p, (frozenAtPlan (beforePlan s.1 c) c).isFrozen p.pid = true →
        (∀ x ∈ cycleDecisions s.1 c, x.1 ≠ p ∧ x.2.pid ≠ p.pid) ∧
          ∀ d ∈ cycleExecuted s.1 c, d.pid ≠ p.pid
  | .waitTimeout _ => True
  | .psiError => True

/-! ## The ledger and the history -/

/-- Every entry of the ledger was made by an iteration of the history. -/
def LedgerKnown (s : LoopState × List (List Targeting)) : Prop :=
  ∀ cg time, s.1.recentlyKilledCgroups.lookup cg = some time →
    ∃ g ∈ s.2.flatten, g.cgroupPath = cg ∧ g.takenAt = time

theorem ledgerKnown_step (s : LoopState × List (List Targeting)) (i : Iteration)
    (h : LedgerKnown s) : LedgerKnown (logged step targets s i) := by
  intro cg time hLookup
  rw [logged_snd, List.flatten_append, List.flatten_singleton]
  have hKept : s.1.recentlyKilledCgroups.lookup cg = some time →
      ∃ g ∈ s.2.flatten ++ targets s.1 i, g.cgroupPath = cg ∧ g.takenAt = time := by
    intro hBefore
    obtain ⟨g, hg, hPath, hTime⟩ := h cg time hBefore
    exact ⟨g, List.mem_append_left _ hg, hPath, hTime⟩
  cases i with
  | waitTimeout t =>
      rw [logged_fst] at hLookup
      simp only [step] at hLookup
      split at hLookup
      · rw [(idleTimeoutReclaim_frame s.1 t).2.2.2] at hLookup
        exact hKept hLookup
      · exact hKept hLookup
  | psiError => exact hKept hLookup
  | cycle c =>
      rcases fullCycle_ledger_origin hLookup with hBefore | ⟨g, hg, hPath, hTime⟩
      · exact hKept hBefore
      · exact ⟨g, List.mem_append_right _ hg, hPath, hTime⟩

theorem beforePlan_ledger (e : LoopState) (c : FullCycle) :
    (beforePlan e c).recentlyKilledCgroups = e.recentlyKilledCgroups :=
  throttleGate_ledger

/-- One cycle over a known ledger. -/
theorem leastImportantUnfrozenFirst_of_ledgerKnown (s : LoopState × List (List Targeting))
    (i : Iteration) (h : LedgerKnown s) : LeastImportantUnfrozenFirst s i := by
  cases i with
  | waitTimeout t => trivial
  | psiError => trivial
  | cycle c =>
      intro x hx hDestructive p hp hFrozen
      cases hTargeted : inTargetedCgroup (beforePlan s.1 c) c p with
      | true =>
          obtain ⟨cg, time, hPath, hLookup, hRecent⟩ := inTargetedCgroup_iff.mp hTargeted
          rw [beforePlan_ledger] at hLookup
          obtain ⟨g, hg, hCgroup, hTime⟩ := h cg time hLookup
          right
          refine ⟨g, hg, ?_, ?_⟩
          · rw [hPath, hCgroup]
          · rw [hTime]
            exact hRecent
      | false =>
          have hNotFrozen : p.pid ∉ (frozenAtPlan (beforePlan s.1 c) c).frozenPids := by
            intro hMem
            have hInRegistry := (FrozenRegistry.mem_frozenPids_iff _ _).mp hMem
            rw [hInRegistry] at hFrozen
            cases hFrozen
          have hInList : p ∈ planProcs (beforePlan s.1 c) c :=
            mem_planProcs_iff.mpr ⟨hp.live, hNotFrozen, hp.notVictim, hp.notSpike, hTargeted⟩
          have hAct : planAction s.1 c p ≠ .none := by
            intro hNone
            have hEnds := hp.destructive
            rw [hNone] at hEnds
            cases hEnds
          obtain ⟨d, hd, hAction⟩ := planned_of_less_important hx hInList hp.sizeable
            hp.lessImportant hp.unprotected hAct
          left
          refine ⟨d, hd, ?_⟩
          rw [hAction]
          exact hp.destructive

/-- The decisions of a cycle are for processes outside the registry. -/
theorem notFrozen_of_decided {e : LoopState} {c : FullCycle} {x : Process × Decision}
    (hx : x ∈ cycleDecisions e c) :
    (frozenAtPlan (beforePlan e c) c).isFrozen x.1.pid = false := by
  have hListed := (mem_planProcs_iff.mp (mem_procs_of_planned hx)).2.1
  rw [FrozenRegistry.mem_frozenPids_iff] at hListed
  exact Bool.eq_false_iff.mpr hListed

theorem frozenLeftAlone (s : LoopState × List (List Targeting)) (i : Iteration) :
    FrozenLeftAlone s i := by
  cases i with
  | waitTimeout t => trivial
  | psiError => trivial
  | cycle c =>
      intro p hFrozen
      have hOther : ∀ x ∈ cycleDecisions s.1 c, x.1.pid ≠ p.pid := by
        intro x hx hSame
        have hNot := notFrozen_of_decided hx
        rw [hSame, hFrozen] at hNot
        cases hNot
      constructor
      · intro x hx
        constructor
        · intro hSame
          exact hOther x hx (congrArg Process.pid hSame)
        · rw [pid_of_planned hx]
          exact hOther x hx
      · intro d hd
        unfold cycleExecuted at hd
        split at hd
        · cases hd
        · obtain ⟨x, hx, rfl⟩ := List.mem_map.mp (mem_of_executed hd)
          rw [pid_of_planned hx]
          exact hOther x hx

/--
**Least important first, across cycles.**  In every run, when a cycle decides
to end a process, it also ends every less important live process that is
neither protected, frozen, a spike nor a victim and that the level calls to
end, unless an earlier cycle targeted its cgroup in the last 45 s.  For a frozen
process no cycle decides or executes anything.
-/
theorem leastImportantUnfrozenFirst (start : Startup)
    (inputs : List Iteration) :
    EveryStep (logged step targets)
      (fun s i => LeastImportantUnfrozenFirst s i ∧ FrozenLeftAlone s i)
      (LoopState.new start, []) inputs := by
  have hInitial : LedgerKnown (LoopState.new start, []) := by
    intro cg time hLookup
    cases hLookup
  exact everyStep_of_invariant (fun s i h _ => ledgerKnown_step s i h)
    (fun s i h _ => ⟨leastImportantUnfrozenFirst_of_ledgerKnown s i h, frozenLeftAlone s i⟩)
    hInitial (everyStep_true _ inputs)

/-! ## Frozen, then overtaken -/

def chat : Process := appProcess 3000 "slack" "/user.slice/app-slack.scope" 500000

def editor : Process := appProcess 3001 "kate" "/user.slice/app-kate.scope" 600000

def desktopConfig : CompiledConfig :=
  { CompiledConfig.ofEmpty 15 with
    entries := [⟨Regex.exact "slack", 70, none⟩, ⟨Regex.exact "kate", 30, none⟩] }

def cycleAt (secs : Nat) (psi : ℚ) (swapFree : Nat) : FullCycle :=
  plainCycle desktopConfig [chat, editor] secs (tightSample psi secs swapFree)

/-- Two cycles at a PSI of 30% reach Elevated and freeze the chat; a jump to
100% with 80% of swap used reaches Emergency. -/
def freezeThenEscalate : List Iteration :=
  [.cycle (cycleAt 5 30 1000000), .cycle (cycleAt 10 30 1000000), .cycle (cycleAt 15 100 200000)]

/-- The state and the history when the last cycle starts. -/
def frozenChat : LoopState × List (List Targeting) :=
  run (logged step targets) (LoopState.new .first, [])
    [.cycle (cycleAt 5 30 1000000), .cycle (cycleAt 10 30 1000000)]

/-- The editor is killed and the chat, less important and frozen, is not. -/
theorem freezeThenEscalate_spares_frozen :
    ¬ EveryStep (logged step targets) LeastImportantFirst (LoopState.new .first, [])
      freezeThenEscalate := by
  intro hEvery
  have hLast : LeastImportantFirst frozenChat (.cycle (cycleAt 15 100 200000)) := hEvery.2.2.1
  have hKill : ∃ x ∈ cycleDecisions frozenChat.1 (cycleAt 15 100 200000),
      x.2.action.isDestructive = true ∧ x.2.prio = 30 := by decide +kernel
  obtain ⟨x, hx, hEnds, hPrio⟩ := hKill
  have hChat : Expendable frozenChat.1 (cycleAt 15 100 200000) x.2.prio chat :=
    { live := by simp [cycleAt, plainCycle]
      unprotected := rfl
      notSpike := by decide +kernel
      notVictim := by decide +kernel
      sizeable := by decide +kernel
      lessImportant := by
        rw [hPrio]
        decide +kernel
      destructive := by decide +kernel }
  have hSpared : ∀ y ∈ cycleDecisions frozenChat.1 (cycleAt 15 100 200000), y.1 ≠ chat := by
    decide +kernel
  have hHistory : frozenChat.2.flatten = [] := by decide +kernel
  rcases hLast x hx hEnds chat hChat trivial with ⟨d, hd, -⟩ | ⟨g, hg, -⟩
  · exact hSpared (chat, d) hd rfl
  · rw [hHistory] at hg
    cases hg

end Mgd.Evictor.ImportanceOrder
