import Mgd.Evictor.Run
import Mgd.Lib.Run

/-!
# Terminations in flight

A termination frees its memory up to five seconds after the decision, on a
thread of its own, and the next cycle measures again.  `NoOverEviction` says
that the next cycle credits what is still in flight.  It does not:
`overEviction_of_slow_exit` is a run in which the first termination alone would
have met the target and a second process is terminated.

What the loop does instead is in `noFurtherEviction`: a cycle whose own reading
of available memory meets the target decides nothing, and no cycle acts in a
cgroup in which the cycle before it terminated a process, for 45 s.
-/

namespace Mgd.Evictor.InFlight

open Mgd.Types Mgd.Monitor Mgd.Config Mgd.Lib.AssocMap Mgd.Lib.Run Mgd.Engine.Planner
open Mgd.Evictor.Execute Mgd.Evictor.Run

/-! ## Two consecutive cycles -/

/-- What may lie between two consecutive cycles: an iteration that skips its
own. -/
inductive Skipped
  | waitTimeout (t : IdleTick)
  | psiError

def Skipped.toIteration : Skipped → Iteration
  | .waitTimeout t => .waitTimeout t
  | .psiError => .psiError

/-- The state in which the cycle after `c` starts. -/
def nextStart (e : LoopState) (c : FullCycle) (between : List Skipped) : LoopState :=
  run step (fullCycle e c) (between.map Skipped.toIteration)

/-- The processes the cycle terminates that are still there, unchanged, in the
snapshot of the next. -/
def inFlight (e : LoopState) (c next : FullCycle) : List Process :=
  (((cycleDecisions e c).filter fun x => decide (x.2.action = .terminate)).map Prod.fst).filter
    fun p => next.procs.any fun q => decide (q.pid = p.pid) && decide (q.rssKb = p.rssKb)

def inFlightKb (e : LoopState) (c next : FullCycle) : Kb :=
  Kb.sum ((inFlight e c next).map Process.rssKb)

/-- If available memory and what is in flight reach the target, the next cycle,
which starts in `e'`, ends no process. -/
def NoOverEviction (e : LoopState) (c : FullCycle) (e' : LoopState) (next : FullCycle) : Prop :=
  calculateRamDeficitKb (next.sample.meminfo.availableKb.saturatingAdd (inFlightKb e c next))
      next.sample.meminfo.totalKb next.cfg.targetAvailablePct ≤ 0 →
    ∀ x ∈ cycleDecisions e' next, x.2.action.isDestructive = false

/-- The cycle terminated a process of the cgroup, and targeted the cgroup less than
45 s before the next cycle plans. -/
def JustTerminated (e : LoopState) (c next : FullCycle) (cgroupPath : String) : Prop :=
  (∃ d ∈ cycleExecuted e c, d.action = .terminate ∧
      targetCgroup c.exec (planProcs (beforePlan e c) c) d.pid = some cgroupPath) ∧
    ∀ g ∈ cycleTargets e c, g.cgroupPath = cgroupPath →
      Instant.secsSince next.planNow g.takenAt < 45

/-- What the next cycle does leave alone. -/
structure NoFurtherEviction (e : LoopState) (c : FullCycle) (e' : LoopState)
    (next : FullCycle) : Prop where
  targetMet :
    calculateRamDeficitKb next.sample.meminfo.availableKb next.sample.meminfo.totalKb
      next.cfg.targetAvailablePct ≤ 0 → cycleDecisions e' next = []
  sameCgroup :
    ∀ cgroupPath, JustTerminated e c next cgroupPath →
      ∀ x ∈ cycleDecisions e' next, x.1.cgroupPath ≠ some cgroupPath

/-- Iterations between two cycles leave the ledger of killed cgroups alone. -/
theorem nextStart_ledger (e : LoopState) (c : FullCycle) (between : List Skipped) :
    (nextStart e c between).recentlyKilledCgroups = (fullCycle e c).recentlyKilledCgroups := by
  have hRun : ∀ (between : List Skipped) (e : LoopState),
      (run step e (between.map Skipped.toIteration)).recentlyKilledCgroups =
        e.recentlyKilledCgroups := by
    intro between
    induction between with
    | nil => exact fun _ => rfl
    | cons i rest ih =>
        intro e
        rw [List.map_cons, run_cons, ih]
        cases i with
        | waitTimeout t =>
            simp only [Skipped.toIteration, step]
            split
            · exact (idleTimeoutReclaim_frame e t).2.2.2
            · rfl
        | psiError => rfl
  exact hRun between (fullCycle e c)

/--
**Terminations in flight.**  In every run, of two consecutive cycles the second
decides nothing when its own reading meets the target, and in any case leaves
alone the cgroups of the processes the first terminated in the last 45 s.
-/
theorem noFurtherEviction (start : Startup) (before : List Iteration)
    (c : FullCycle) (between : List Skipped) (next : FullCycle) :
    NoFurtherEviction (run step (LoopState.new start) before) c
      (nextStart (run step (LoopState.new start) before) c between) next := by
  generalize run step (LoopState.new start) before = e
  constructor
  · intro hMet
    exact planned_of_deficit_nonpos hMet
  · intro cgroupPath hJust x hx hPath
    obtain ⟨⟨d, hd, hAction, hTarget⟩, hRecent⟩ := hJust
    obtain ⟨g, hg, hCgroup⟩ := cycleTargets_of_terminated hd hAction hTarget
    have hFree : inTargetedCgroup (beforePlan (nextStart e c between) next) next x.1 = false :=
      (mem_planProcs_iff.mp (mem_procs_of_planned hx)).2.2.2.2
    have hTargeted :
        inTargetedCgroup (beforePlan (nextStart e c between) next) next x.1 = true := by
      obtain ⟨g', hg', hSame, hLookup⟩ := fullCycle_ledger_of_target hg
      rw [hCgroup] at hSame hLookup
      have hGate : (beforePlan (nextStart e c between) next).recentlyKilledCgroups =
          (nextStart e c between).recentlyKilledCgroups := throttleGate_ledger
      refine inTargetedCgroup_iff.mpr ⟨cgroupPath, g'.takenAt, hPath, ?_, hRecent g' hg' hSame⟩
      rw [hGate, nextStart_ledger]
      exact hLookup
    rw [hTargeted] at hFree
    cases hFree

/-! ## A slow exit -/

def updater : Process := appProcess 3100 "packagekitd" "/system.slice/packagekit.service" 1500000

def browser : Process := appProcess 3101 "firefox" "/user.slice/app-firefox.scope" 600000

def slowExitConfig : CompiledConfig :=
  { CompiledConfig.ofEmpty 15 with
    entries := [⟨Regex.exact "packagekitd", 90, none⟩, ⟨Regex.exact "firefox", 80, none⟩] }

/-- Both are running, at a PSI of 60% and 1.4 GB below the target. -/
def cycleAt (secs : Nat) : FullCycle :=
  plainCycle slowExitConfig [updater, browser] secs (tightSample 60 secs 1000000)

/-- The updater's memory covers the deficit; five seconds later it is still
exiting, and the browser goes too. -/
theorem overEviction_of_slow_exit :
    ¬ ∀ (before : List Iteration) (c : FullCycle) (between : List Skipped) (next : FullCycle),
      NoOverEviction (run step (LoopState.new .first) before) c
        (nextStart (run step (LoopState.new .first) before) c between) next := by
  intro hAll
  have hPair := hAll [.cycle (cycleAt 5)] (cycleAt 10) [] (cycleAt 15)
  have hMet : calculateRamDeficitKb
      ((cycleAt 15).sample.meminfo.availableKb.saturatingAdd
        (inFlightKb (run step (LoopState.new .first) [.cycle (cycleAt 5)]) (cycleAt 10)
          (cycleAt 15)))
      (cycleAt 15).sample.meminfo.totalKb (cycleAt 15).cfg.targetAvailablePct ≤ 0 := by
    decide +kernel
  have hBrowser : ∃ x ∈ cycleDecisions
      (nextStart (run step (LoopState.new .first) [.cycle (cycleAt 5)]) (cycleAt 10) [])
      (cycleAt 15), x.2.action.isDestructive = true := by decide +kernel
  obtain ⟨x, hx, hEnds⟩ := hBrowser
  have hSpared := hPair hMet x hx
  rw [hEnds] at hSpared
  cases hSpared

end Mgd.Evictor.InFlight
