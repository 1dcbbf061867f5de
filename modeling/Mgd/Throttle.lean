import Mathlib.Data.List.Dedup
import Mgd.Engine.Planner

/-!
# CPU throttling of background cgroups

`ThrottleManager` of `throttle.rs` and the two sysfs files it writes.

A write either takes effect or fails; which writes succeed is a parameter
(`Sysfs`).  Functions that write return the writes that took effect, in order,
and `CpuFiles.apply` keeps for each cgroup the last value written to each file.

The manager goes through a hash map of cgroups, whose order is unspecified.
Each round touches the entries and the files of its own cgroup only
(`updateCgroup_frame`), so the list of cgroups is taken in the order of the
process list.
-/

namespace Mgd.Throttle

open Mgd.Types Mgd.Monitor Mgd.Config Mgd.Lib.AssocMap Mgd.Engine.Planner

/-! ## The sysfs files -/

/-- A write to `cpu.weight` or `cpu.max` of a cgroup. -/
inductive CpuWrite
  | weight (cgroupPath : String) (weight : Nat)
  | max (cgroupPath : String) (maxLimit : String)
deriving DecidableEq

def CpuWrite.cgroupPath : CpuWrite → String
  | .weight path _ => path
  | .max path _ => path

/-- Which writes succeed. -/
abbrev Sysfs := CpuWrite → Bool

/-- Every write succeeds. -/
def Sysfs.allOk : Sysfs := fun _ => true

/-- A write whose outcome the caller ignores. -/
def attempt (sysfs : Sysfs) (w : CpuWrite) : List CpuWrite := if sysfs w then [w] else []

/-- The last value written to each file, `none` before the first write. -/
structure CpuFiles where
  weight : String → Option Nat
  max : String → Option String

def CpuFiles.untouched : CpuFiles where
  weight := fun _ => none
  max := fun _ => none

def CpuFiles.apply (files : CpuFiles) : CpuWrite → CpuFiles
  | .weight path w => { files with weight := fun p => if p = path then some w else files.weight p }
  | .max path m => { files with max := fun p => if p = path then some m else files.max p }

def CpuFiles.applyAll (files : CpuFiles) (ws : List CpuWrite) : CpuFiles :=
  ws.foldl CpuFiles.apply files

/-- The unlimited `cpu.max`. -/
def maxUnlimited : String := "max 100000"

/-- Half a CPU. -/
def maxHalf : String := "50000 100000"

/-! ## The manager -/

inductive ThrottledState
  | none
  | weightOnly
  | full
deriving DecidableEq, Repr

structure ThrottleManager where
  states : Map String ThrottledState
  tracker : Map String Instant

def ThrottleManager.new : ThrottleManager := ⟨∅, ∅⟩

/-- Below this raw PSI there is no active stall. -/
def throttleReleasePsiFloor : ℚ := 2

/-- Throttle-eligible for the maximum duration while PSI shows no stall. -/
def shouldForceRelease (backgroundDurationSecs : Nat) (psiSomeAvg10 : ℚ)
    (maxDurationSecs : Nat) (psiFloor : ℚ) : Bool :=
  decide (backgroundDurationSecs ≥ maxDurationSecs) && decide (psiSomeAvg10 < psiFloor)

def restoreCgroupCpu (sysfs : Sysfs) (path : String) : List CpuWrite :=
  attempt sysfs (.weight path 100) ++ attempt sysfs (.max path maxUnlimited)

/-- Weight 1, and the `cpu.max` of the state once that took effect. -/
def lowerCgroupCpu (sysfs : Sysfs) (path : String) (maxLimit : String) : List CpuWrite :=
  if sysfs (.weight path 1) then .weight path 1 :: attempt sysfs (.max path maxLimit) else []

/-- The readings of the clock in one `update`: when the entry of a cgroup is
created and when its age is taken. -/
structure ThrottleClock where
  enter : String → Instant
  read : String → Instant

/-- The arguments of `update`, with what it reads from the clock and what
becomes of its writes. -/
structure UpdateArgs where
  planProcs : List Process
  activePid : Option Pid
  active : Bool
  psiSomeAvg10 : ℚ
  cfg : CompiledConfig
  clock : ThrottleClock
  sysfs : Sysfs

def findForegroundCgroup (planProcs : List Process) (activePid : Option Pid) : Option String :=
  activePid.bind fun apid =>
    (planProcs.find? (fun p => decide (p.pid = apid))).bind Process.cgroupPath

/-- The keys of `cgroup_groups`. -/
def cgroupPaths (planProcs : List Process) : List String :=
  (planProcs.filterMap Process.cgroupPath).dedup

/-- The processes of one cgroup. -/
def cgroupMembers (planProcs : List Process) (path : String) : List Process :=
  planProcs.filter (fun p => decide (p.cgroupPath = some path))

def minPriority (cfg : CompiledConfig) (processes : List Process) : Nat :=
  processes.foldl (fun m p => min m (getPriority p.name p.exeBasename cfg)) 100

/-- Some process of the cgroup matches a `[throttle] exclude` pattern. -/
def isExcluded (cfg : CompiledConfig) (processes : List Process) : Bool :=
  !cfg.throttleExclude.isEmpty && processes.any fun p =>
    cfg.throttleExclude.any fun re => re.isMatch (p.exeBasename.getD p.name) || re.isMatch p.name

/-- The three early exits of the loop: undo a throttle, stop the clock. -/
def release (args : UpdateArgs) (m : ThrottleManager) (path : String)
    (current : ThrottledState) : ThrottleManager × List CpuWrite :=
  if current ≠ .none then
    (⟨m.states.insert path .none, m.tracker.erase path⟩, restoreCgroupCpu args.sysfs path)
  else (⟨m.states, m.tracker.erase path⟩, [])

/-- One round of the loop of `update`. -/
def updateCgroup (args : UpdateArgs) (m : ThrottleManager) (path : String) :
    ThrottleManager × List CpuWrite :=
  let processes := cgroupMembers args.planProcs path
  let current := (m.states.lookup path).getD .none
  if some path = findForegroundCgroup args.planProcs args.activePid then
    release args m path current
  else if minPriority args.cfg processes < 60 then release args m path current
  else if isExcluded args.cfg processes then release args m path current
  else
    let since := (m.tracker.lookup path).getD (args.clock.enter path)
    let tracker := m.tracker.insert path since
    let backgroundDuration := Instant.secsSince (args.clock.read path) since
    let forceRelease := shouldForceRelease backgroundDuration args.psiSomeAvg10
      args.cfg.throttleMaxDurationSec throttleReleasePsiFloor
    let target : ThrottledState :=
      if forceRelease then .none
      else if backgroundDuration ≥ 10 then
        if minPriority args.cfg processes ≥ 80 then .full else .weightOnly
      else .none
    if target ≠ current then
      let writes :=
        match target with
        | .none => restoreCgroupCpu args.sysfs path
        | .weightOnly => lowerCgroupCpu args.sysfs path maxUnlimited
        | .full => lowerCgroupCpu args.sysfs path maxHalf
      (⟨m.states.insert path target, tracker⟩, writes)
    else (⟨m.states, tracker⟩, [])

/-- The loop over the cgroups. -/
def updateCgroups (args : UpdateArgs) : List String → ThrottleManager →
    ThrottleManager × List CpuWrite
  | [], m => (m, [])
  | path :: rest, m =>
      let here := updateCgroup args m path
      let after := updateCgroups args rest here.1
      (after.1, here.2 ++ after.2)

/-- `restore_all`: the entries stay. -/
def ThrottleManager.restoreAll (m : ThrottleManager) (sysfs : Sysfs) : List CpuWrite :=
  m.states.keys.flatMap (restoreCgroupCpu sysfs)

def ThrottleManager.update (m : ThrottleManager) (args : UpdateArgs) :
    ThrottleManager × List CpuWrite :=
  if args.active then
    let paths := cgroupPaths args.planProcs
    updateCgroups args paths
      ⟨retain (fun path _ => decide (path ∈ paths)) m.states,
        retain (fun path _ => decide (path ∈ paths)) m.tracker⟩
  else (ThrottleManager.new, m.restoreAll args.sysfs)

/-- The cgroup is recorded as lowered. -/
def ThrottleManager.isLowered (m : ThrottleManager) (path : String) : Bool :=
  match m.states.lookup path with
  | some .weightOnly | some .full => true
  | _ => false

/-! ## What the writes leave behind -/

section Files

variable {files : CpuFiles} {path : String}

theorem CpuFiles.applyAll_append (xs ys : List CpuWrite) :
    files.applyAll (xs ++ ys) = (files.applyAll xs).applyAll ys :=
  List.foldl_append

theorem CpuFiles.applyAll_restore_weight (p : String) :
    (files.applyAll (restoreCgroupCpu .allOk path)).weight p =
      if p = path then some 100 else files.weight p := rfl

theorem CpuFiles.applyAll_restore_max (p : String) :
    (files.applyAll (restoreCgroupCpu .allOk path)).max p =
      if p = path then some maxUnlimited else files.max p := rfl

theorem CpuFiles.applyAll_lower_weight (limit p : String) :
    (files.applyAll (lowerCgroupCpu .allOk path limit)).weight p =
      if p = path then some 1 else files.weight p := rfl

theorem CpuFiles.applyAll_lower_max (limit p : String) :
    (files.applyAll (lowerCgroupCpu .allOk path limit)).max p =
      if p = path then some limit else files.max p := rfl

/-- Restoring a list of cgroups restores each of them and no other. -/
theorem CpuFiles.applyAll_restore_list (paths : List String) (p : String) :
    (files.applyAll (paths.flatMap (restoreCgroupCpu .allOk))).weight p =
        (if p ∈ paths then some 100 else files.weight p) ∧
      (files.applyAll (paths.flatMap (restoreCgroupCpu .allOk))).max p =
        (if p ∈ paths then some maxUnlimited else files.max p) := by
  induction paths generalizing files with
  | nil => exact ⟨rfl, rfl⟩
  | cons q paths ih =>
      rw [List.flatMap_cons, CpuFiles.applyAll_append, ih.1, ih.2,
        CpuFiles.applyAll_restore_weight, CpuFiles.applyAll_restore_max]
      by_cases hq : p = q <;> by_cases hp : p ∈ paths <;> simp [hq, hp]

end Files

/-! ## What one round does -/

section Round

variable {args : UpdateArgs} {m : ThrottleManager} {path : String}

theorem release_cases (args : UpdateArgs) (m : ThrottleManager) (path : String)
    (current : ThrottledState) :
    ((release args m path current).1.states = m.states ∧
      (release args m path current).2 = []) ∨
    ((release args m path current).1.states = m.states.insert path .none ∧
      (release args m path current).2 = restoreCgroupCpu args.sysfs path) := by
  unfold release
  split
  · exact Or.inr ⟨rfl, rfl⟩
  · exact Or.inl ⟨rfl, rfl⟩

/-- A round leaves the state and the files of its cgroup alone, restores it, or
lowers it and records a throttle. -/
theorem updateCgroup_cases (args : UpdateArgs) (m : ThrottleManager) (path : String) :
    ((updateCgroup args m path).1.states = m.states ∧ (updateCgroup args m path).2 = []) ∨
    ((updateCgroup args m path).1.states = m.states.insert path .none ∧
      (updateCgroup args m path).2 = restoreCgroupCpu args.sysfs path) ∨
    ∃ target limit, target ≠ ThrottledState.none ∧
      (updateCgroup args m path).1.states = m.states.insert path target ∧
      (updateCgroup args m path).2 = lowerCgroupCpu args.sysfs path limit := by
  unfold updateCgroup
  dsimp only
  split
  · exact (release_cases args m path _).imp_right Or.inl
  split
  · exact (release_cases args m path _).imp_right Or.inl
  split
  · exact (release_cases args m path _).imp_right Or.inl
  generalize (if shouldForceRelease _ _ _ _ then ThrottledState.none else _) = target
  split
  · right
    cases target with
    | none => exact Or.inl ⟨rfl, rfl⟩
    | weightOnly => exact Or.inr ⟨.weightOnly, maxUnlimited, by decide, rfl, rfl⟩
    | full => exact Or.inr ⟨.full, maxHalf, by decide, rfl, rfl⟩
  · exact Or.inl ⟨rfl, rfl⟩

theorem isLowered_of_lookup {target : ThrottledState} (hTarget : target ≠ .none)
    (h : m.states.lookup path = some target) : m.isLowered path = true := by
  unfold ThrottleManager.isLowered
  rw [h]
  cases target with
  | none => exact absurd rfl hTarget
  | weightOnly => rfl
  | full => rfl

/-- A recorded throttle has an entry. -/
theorem mem_keys_of_isLowered (h : m.isLowered path = true) : path ∈ m.states.keys := by
  unfold ThrottleManager.isLowered at h
  split at h
  · next hEntry => exact mem_keys_iff.mpr ⟨_, hEntry⟩
  · next hEntry => exact mem_keys_iff.mpr ⟨_, hEntry⟩
  · cases h

theorem isLowered_eq_of_lookup {m' : ThrottleManager}
    (h : m'.states.lookup path = m.states.lookup path) : m'.isLowered path = m.isLowered path := by
  unfold ThrottleManager.isLowered
  rw [h]

end Round

end Mgd.Throttle
