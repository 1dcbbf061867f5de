import Mgd.Evictor.Run
import Mgd.ThrottleLedger

/-!
# The CPU throttle at Normal

At Normal the loop blocks on the PSI wait, so what is throttled then stays
throttled.  `CalmUnthrottled` says that nothing is: the manager records no
throttle and every cgroup it wrote is back at its defaults.

Restoring is behind the throttle gate, which opens on a change of focus or
when the interval shared with the idle reclaim is over.
`calmUnthrottled_iff` says what that costs: among the runs in which every
active update lists the throttled cgroups, `CalmUnthrottled` holds throughout
exactly when every cycle that reaches Normal with a throttle recorded finds
the gate open.
-/

namespace Mgd.Evictor.ThrottleRestore

open Mgd.Types Mgd.Monitor Mgd.Config Mgd.Lib.AssocMap Mgd.Lib.Run Mgd.Throttle
open Mgd.ThrottleLedger (AllInStep InStep ListsLowered Throttling ThrottleCall allInStep_initial
  allInStep_step restoreAll_weight update_inactive)
open Mgd.Evictor.Sensing (psiSample)
open Mgd.Evictor.Run

/-! ## The loop with working files -/

/-- The iteration with every sysfs write succeeding. -/
def writesOk : Iteration → Iteration
  | .cycle c => .cycle { c with sysfs := .allOk }
  | .waitTimeout t => .waitTimeout t
  | .psiError => .psiError

def okStep (e : LoopState) (i : Iteration) : LoopState := step e (writesOk i)

/-- The files of a cgroup are untouched, or back at their defaults. -/
def Restored (files : CpuFiles) (path : String) : Prop :=
  files.weight path = none ∧ files.max path = none ∨
    files.weight path = some 100 ∧ files.max path = some maxUnlimited

/-- While the last level is Normal nothing is throttled. -/
def CalmUnthrottled (e : LoopState) : Prop :=
  e.controller.lastLevel = .normal →
    (∀ path, e.throttle.isLowered path = false) ∧ ∀ path, Restored e.cpuFiles path

/-- The cgroups the manager records as throttled. -/
def throttledPaths (e : LoopState) : List String :=
  e.throttle.states.keys.filter (fun path => e.throttle.isLowered path)

/-- Every active update gets a process of each throttled cgroup. -/
def ListsThrottled (e : LoopState) : Iteration → Prop
  | .cycle c =>
      effectiveLevel e c ≥ .elevated → gateOpen e c = true →
        ∀ path ∈ throttledPaths e, path ∈ cgroupPaths (throttleProcs e c)
  | .waitTimeout _ => True
  | .psiError => True

/-- A cycle that reaches Normal with a throttle recorded finds the gate open. -/
def GateServes (e : LoopState) : Iteration → Prop
  | .cycle c => effectiveLevel e c = .normal → throttledPaths e ≠ [] → gateOpen e c = true
  | .waitTimeout _ => True
  | .psiError => True

instance (e : LoopState) (i : Iteration) : Decidable (ListsThrottled e i ∧ GateServes e i) := by
  cases i with
  | cycle c =>
      unfold ListsThrottled GateServes
      infer_instance
  | waitTimeout t => exact inferInstanceAs (Decidable (True ∧ True))
  | psiError => exact inferInstanceAs (Decidable (True ∧ True))

/-! ## Files and ledger -/

section Files

variable {files : CpuFiles} {m : ThrottleManager} {args : UpdateArgs}

/-- The manager leaves a cgroup restored or lowered, nothing in between. -/
def Shaped (files : CpuFiles) : Prop :=
  ∀ path, Restored files path ∨ files.weight path = some 1

theorem Restored.congr {files' : CpuFiles} {path : String} (h : Restored files path)
    (hWeight : files'.weight path = files.weight path)
    (hMax : files'.max path = files.max path) : Restored files' path := by
  unfold Restored
  rw [hWeight, hMax]
  exact h

/-- Rewriting the files of one cgroup keeps the shape of all when it gives that
one the shape. -/
theorem Shaped.rewrite {files' : CpuFiles} (h : Shaped files) (q : String)
    (hHere : Restored files' q ∨ files'.weight q = some 1)
    (hWeight : ∀ path, path ≠ q → files'.weight path = files.weight path)
    (hMax : ∀ path, path ≠ q → files'.max path = files.max path) : Shaped files' := by
  intro path
  by_cases hq : path = q
  · rw [hq]
    exact hHere
  · cases h path with
    | inl hBack => exact Or.inl (hBack.congr (hWeight path hq) (hMax path hq))
    | inr hLow => exact Or.inr ((hWeight path hq).trans hLow)

theorem shaped_restore (h : Shaped files) (q : String) :
    Shaped (files.applyAll (restoreCgroupCpu .allOk q)) := by
  refine h.rewrite q ?_ ?_ ?_
  · left
    right
    rw [CpuFiles.applyAll_restore_weight, CpuFiles.applyAll_restore_max, if_pos rfl, if_pos rfl]
    exact ⟨rfl, rfl⟩
  · intro path hq
    rw [CpuFiles.applyAll_restore_weight, if_neg hq]
  · intro path hq
    rw [CpuFiles.applyAll_restore_max, if_neg hq]

theorem shaped_lower (h : Shaped files) (q limit : String) :
    Shaped (files.applyAll (lowerCgroupCpu .allOk q limit)) := by
  refine h.rewrite q ?_ ?_ ?_
  · right
    rw [CpuFiles.applyAll_lower_weight, if_pos rfl]
  · intro path hq
    rw [CpuFiles.applyAll_lower_weight, if_neg hq]
  · intro path hq
    rw [CpuFiles.applyAll_lower_max, if_neg hq]

theorem shaped_restoreList (h : Shaped files) (paths : List String) :
    Shaped (files.applyAll (paths.flatMap (restoreCgroupCpu .allOk))) := by
  induction paths generalizing files with
  | nil => exact h
  | cons q rest ih =>
      rw [List.flatMap_cons, CpuFiles.applyAll_append]
      exact ih (shaped_restore h q)

theorem shaped_updateCgroup (hOk : args.sysfs = .allOk) (h : Shaped files)
    (m : ThrottleManager) (q : String) :
    Shaped (files.applyAll (updateCgroup args m q).2) := by
  rcases updateCgroup_cases args m q with
    ⟨-, hWrites⟩ | ⟨-, hWrites⟩ | ⟨-, limit, -, -, hWrites⟩
  · rw [hWrites]
    exact h
  · rw [hWrites, hOk]
    exact shaped_restore h q
  · rw [hWrites, hOk]
    exact shaped_lower h q limit

theorem shaped_update (hOk : args.sysfs = .allOk) (h : Shaped files) (m : ThrottleManager) :
    Shaped (files.applyAll (m.update args).2) := by
  have hLoop : ∀ (paths : List String) (m : ThrottleManager) (files : CpuFiles),
      Shaped files → Shaped (files.applyAll (updateCgroups args paths m).2) := by
    intro paths
    induction paths with
    | nil => exact fun _ _ hFiles => hFiles
    | cons q rest ih =>
        intro m files hFiles
        simp only [updateCgroups, CpuFiles.applyAll_append]
        exact ih _ _ (shaped_updateCgroup hOk hFiles m q)
  cases hActive : args.active with
  | true =>
      unfold ThrottleManager.update
      rw [if_pos hActive]
      exact hLoop _ _ _ h
  | false =>
      rw [update_inactive m args hOk hActive]
      exact shaped_restoreList h m.states.keys

theorem restored_of_shaped {path : String} (h : Shaped files)
    (hWeight : files.weight path ≠ some 1) : Restored files path :=
  (h path).resolve_right hWeight

end Files

/-! ## One iteration -/

section Iterations

variable {e : LoopState} {c : FullCycle}

theorem mem_throttledPaths_iff {path : String} :
    path ∈ throttledPaths e ↔ e.throttle.isLowered path = true := by
  unfold throttledPaths
  rw [List.mem_filter]
  constructor
  · intro h
    exact h.2
  · intro hLow
    exact ⟨mem_keys_of_isLowered hLow, hLow⟩

/-- The manager and the files agree, and each cgroup is restored or lowered. -/
structure Settled (e : LoopState) : Prop where
  inStep : AllInStep e.throttle e.cpuFiles
  shaped : Shaped e.cpuFiles

/-- What the gate of a cycle does to the manager and the files. -/
theorem okStep_cycle_throttle (e : LoopState) (c : FullCycle) :
    let args := { throttleArgs e c (effectiveLevel e c) with sysfs := .allOk }
    (gateOpen e c = true ∧ (okStep e (.cycle c)).throttle = (e.throttle.update args).1 ∧
        (okStep e (.cycle c)).cpuFiles = e.cpuFiles.applyAll (e.throttle.update args).2) ∨
      (gateOpen e c = false ∧ (okStep e (.cycle c)).throttle = e.throttle ∧
        (okStep e (.cycle c)).cpuFiles = e.cpuFiles) := by
  intro args
  obtain ⟨hThrottle, hFiles⟩ := fullCycle_throttle e { c with sysfs := .allOk }
  cases hGate : gateOpen e c with
  | true =>
      left
      have hOpen : gateOpen e { c with sysfs := .allOk } = true := hGate
      unfold throttleGate at hThrottle hFiles
      rw [if_pos hOpen] at hThrottle hFiles
      exact ⟨rfl, hThrottle, hFiles⟩
  | false =>
      right
      have hShut : ¬ gateOpen e { c with sysfs := .allOk } = true := by
        rw [show gateOpen e { c with sysfs := .allOk } = false from hGate]
        exact Bool.false_ne_true
      unfold throttleGate at hThrottle hFiles
      rw [if_neg hShut] at hThrottle hFiles
      exact ⟨rfl, hThrottle, hFiles⟩

theorem okStep_cycle_level (e : LoopState) (c : FullCycle) :
    (okStep e (.cycle c)).controller.lastLevel = effectiveLevel e c := by
  unfold okStep
  rw [step_controller]
  rfl

/-- A timeout or a failed PSI read moves neither the throttle nor the level. -/
theorem okStep_idle {i : Iteration} (hi : ∀ c, i ≠ .cycle c) :
    (okStep e i).throttle = e.throttle ∧ (okStep e i).cpuFiles = e.cpuFiles ∧
      (okStep e i).controller = e.controller := by
  cases i with
  | waitTimeout t =>
      obtain ⟨hController, hThrottle, hFiles, -⟩ := idleTimeoutReclaim_frame e t
      simp only [okStep, writesOk, step]
      split
      · exact ⟨hThrottle, hFiles, hController⟩
      · exact ⟨rfl, rfl, rfl⟩
  | psiError => exact ⟨rfl, rfl, rfl⟩
  | cycle c => exact absurd rfl (hi c)

theorem settled_step (i : Iteration) (hLists : ListsThrottled e i) (h : Settled e) :
    Settled (okStep e i) := by
  cases i with
  | waitTimeout t =>
      obtain ⟨hThrottle, hFiles, -⟩ := okStep_idle (e := e) (i := .waitTimeout t) (by simp)
      constructor
      · rw [hThrottle, hFiles]
        exact h.inStep
      · rw [hFiles]
        exact h.shaped
  | psiError => exact h
  | cycle c =>
      rcases okStep_cycle_throttle e c with ⟨hGate, hThrottle, hFiles⟩ | ⟨-, hThrottle, hFiles⟩
      · constructor
        · rw [hThrottle, hFiles]
          refine allInStep_step (s := ⟨e.throttle, e.cpuFiles⟩) h.inStep
            (.update (throttleArgs e c (effectiveLevel e c))) ?_
          intro hActive path hWeight
          have hLevel : effectiveLevel e c ≥ .elevated := of_decide_eq_true hActive
          have hLow : e.throttle.isLowered path = true := (h.inStep path).weight hWeight
          exact hLists hLevel hGate path (mem_throttledPaths_iff.mpr hLow)
        · rw [hFiles]
          exact shaped_update rfl h.shaped e.throttle
      · constructor
        · rw [hThrottle, hFiles]
          exact h.inStep
        · rw [hFiles]
          exact h.shaped

/-- Below Elevated there is Normal only. -/
theorem not_elevated_of_normal {level : PressureLevel} (h : level = .normal) :
    decide (level ≥ PressureLevel.elevated) = false := by
  rw [h]
  decide

/-- One iteration keeps the throttle off at Normal exactly when the gate
serves. -/
theorem calmUnthrottled_step_iff (i : Iteration) (h : Settled e) (hCalm : CalmUnthrottled e) :
    CalmUnthrottled (okStep e i) ↔ GateServes e i := by
  cases i with
  | waitTimeout t =>
      obtain ⟨hThrottle, hFiles, hController⟩ :=
        okStep_idle (e := e) (i := .waitTimeout t) (by simp)
      have hSame : CalmUnthrottled (okStep e (.waitTimeout t)) := by
        unfold CalmUnthrottled
        rw [hThrottle, hFiles, hController]
        exact hCalm
      exact iff_of_true hSame trivial
  | psiError => exact iff_of_true hCalm trivial
  | cycle c =>
      unfold CalmUnthrottled GateServes
      rw [okStep_cycle_level]
      constructor
      · intro hAfter hNormal hSome
        rcases okStep_cycle_throttle e c with ⟨hGate, -⟩ | ⟨-, hThrottle, -⟩
        · exact hGate
        · obtain ⟨path, hPath⟩ := List.exists_mem_of_ne_nil _ hSome
          have hLow : e.throttle.isLowered path = true := mem_throttledPaths_iff.mp hPath
          have hClean := (hAfter hNormal).1 path
          rw [hThrottle, hLow] at hClean
          cases hClean
      · intro hServes hNormal
        rcases okStep_cycle_throttle e c with ⟨-, hThrottle, hFiles⟩ | ⟨hGate, hThrottle, hFiles⟩
        · -- an inactive update restores every recorded cgroup and forgets it
          have hUpdate := update_inactive e.throttle
            { throttleArgs e c (effectiveLevel e c) with sysfs := .allOk } rfl
            (not_elevated_of_normal hNormal)
          have hShaped : Shaped (e.cpuFiles.applyAll (e.throttle.restoreAll .allOk)) :=
            shaped_restoreList h.shaped e.throttle.states.keys
          rw [hThrottle, hFiles, hUpdate]
          refine ⟨fun path => rfl, fun path => ?_⟩
          exact restored_of_shaped hShaped (restoreAll_weight h.inStep path).1
        · -- with the gate shut nothing was recorded
          have hNone : throttledPaths e = [] := by
            by_contra hSome
            rw [hServes hNormal hSome] at hGate
            cases hGate
          have hClean : ∀ path, e.throttle.isLowered path = false := by
            intro path
            apply Bool.eq_false_of_not_eq_true
            intro hLow
            have hMem := mem_throttledPaths_iff.mpr hLow
            rw [hNone] at hMem
            cases hMem
          rw [hThrottle, hFiles]
          refine ⟨hClean, fun path => restored_of_shaped h.shaped ?_⟩
          intro hWeight
          have hLow := (h.inStep path).weight hWeight
          rw [hClean path] at hLow
          cases hLow

end Iterations

/-! ## Runs -/

theorem settled_new (start : Startup) : Settled (LoopState.new start) where
  inStep := allInStep_initial
  shaped := fun _ => Or.inl (Or.inl ⟨rfl, rfl⟩)

theorem calmUnthrottled_new (start : Startup) : CalmUnthrottled (LoopState.new start) := by
  intro _
  exact ⟨fun _ => rfl, fun _ => Or.inl ⟨rfl, rfl⟩⟩

/-- **The gate is all it takes.**  Among the runs in which every active update
lists the throttled cgroups, nothing stays throttled at Normal exactly when
every cycle that reaches Normal with a throttle recorded finds the gate
open. -/
theorem calmUnthrottled_iff (start : Startup) {inputs : List Iteration}
    (hLists : EveryStep okStep ListsThrottled (LoopState.new start) inputs) :
    Always okStep CalmUnthrottled (LoopState.new start) inputs ↔
      EveryStep okStep GateServes (LoopState.new start) inputs :=
  always_iff_everyStep (fun _ i hi hInv _ _ => settled_step i hi hInv)
    (fun _ i _ hInv hCalm => calmUnthrottled_step_iff i hInv hCalm) hLists
    (settled_new start) (calmUnthrottled_new start)

/--
**When nothing stays throttled at Normal.**  In every run whose active updates
list the throttled cgroups and whose cycles find the gate open when they reach
Normal with a throttle recorded, the loop never waits at Normal with a cgroup
throttled.
-/
theorem calmUnthrottled_of_served (start : Startup)
    (inputs : List Iteration)
    (h : EveryStep okStep (fun e i => ListsThrottled e i ∧ GateServes e i)
      (LoopState.new start) inputs) :
    Always okStep CalmUnthrottled (LoopState.new start) inputs := by
  have hLists : EveryStep okStep ListsThrottled (LoopState.new start) inputs :=
    h.imp fun _ _ hBoth => hBoth.1
  have hServes : EveryStep okStep GateServes (LoopState.new start) inputs :=
    h.imp fun _ _ hBoth => hBoth.2
  exact (calmUnthrottled_iff start hLists).mpr hServes

/-! ## A throttle that outlives the pressure -/

def worker : Process := appProcess 3200 "baloo_file" "/user.slice/app-baloo.service" 200000

def workerConfig : CompiledConfig :=
  { CompiledConfig.ofEmpty 15 with entries := [⟨Regex.exact "baloo_file", 90, none⟩] }

/-- A cycle every five seconds with enough memory, at the given PSI. -/
def cycleAt (psi : ℚ) (tick : Nat) : FullCycle :=
  plainCycle workerConfig [worker] (5 * tick) (psiSample psi (5 * tick))

/-- Ten seconds at a PSI of 30%, then quiet.  The gate opens after 30 s and
after 60 s, the second time with the worker in the background long enough. -/
def pressureThenQuiet : List Iteration :=
  [.cycle (cycleAt 30 1), .cycle (cycleAt 30 2)] ++
    (List.range' 3 11).map fun tick => .cycle (cycleAt 0 tick)

/-- The twelfth quiet cycle reaches Normal after 70 s, together with a change of
focus. -/
theorem calmUnthrottled_with_focus :
    Always okStep CalmUnthrottled (LoopState.new .first)
      (pressureThenQuiet ++ [.cycle { cycleAt 0 14 with activePid := some ⟨77⟩ }]) :=
  calmUnthrottled_of_served .first _ (by decide +kernel)

/-- It reaches Normal with the gate shut: the loop waits for the next event with
the worker throttled. -/
theorem pressureThenQuiet_stays_throttled :
    ¬ Always okStep CalmUnthrottled (LoopState.new .first)
      (pressureThenQuiet ++ [.cycle (cycleAt 0 14)]) := by
  intro hAlways
  have hNormal : (run okStep (LoopState.new .first)
      (pressureThenQuiet ++ [.cycle (cycleAt 0 14)])).controller.lastLevel = .normal := by
    decide +kernel
  have hThrottled : (run okStep (LoopState.new .first)
      (pressureThenQuiet ++ [.cycle (cycleAt 0 14)])).throttle.isLowered
        "/user.slice/app-baloo.service" = true := by
    decide +kernel
  have hClean := (hAlways.last hNormal).1 "/user.slice/app-baloo.service"
  rw [hThrottled] at hClean
  cases hClean

end Mgd.Evictor.ThrottleRestore
