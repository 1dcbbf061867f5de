import Mgd.Engine.Planner

/-!
# Pushing memory out of a cgroup

`evictor/reclaim_primitive.rs`, the only writer of `memory.reclaim`, and the
early reclaim of `evictor/early_reclaim.rs`.

The cgroup tree is a parameter (`CgroupFs`); the kernel's answer to a write may
depend on the writes before it.  A pass carries the writes that reached the
kernel, oldest first, and `written_reclaimCgroup` says which ones do.
-/

namespace Mgd.Evictor.Reclaim

open Mgd.Types Mgd.Monitor Mgd.Config Mgd.Lib.Greedy Mgd.Engine.Planner

/-! ## The primitive -/

/-- `std::io::ErrorKind`, the kinds that are told apart. -/
inductive IoErrorKind
  | permissionDenied
  | notFound
  | wouldBlock
  | other
deriving DecidableEq, Repr

/-- A write to the `memory.reclaim` of a cgroup. -/
structure ReclaimWrite where
  cgroupPath : String
  bytes : Nat
deriving DecidableEq, Repr

structure CgroupFs where
  /-- whether the directory of a cgroup has a subdirectory, `none` when it
  cannot be read -/
  hasSubdir : String → Option Bool
  /-- `memory.reclaim` exists -/
  hasReclaim : String → Bool
  /-- `memory.reclaim` may be opened for writing -/
  mayWrite : String → Bool
  /-- the error of a write, given the writes before it -/
  answer : List ReclaimWrite → ReclaimWrite → Option IoErrorKind

inductive ReclaimOutcome
  | reclaimed
  | skipped
  | blocked
  | failed (e : IoErrorKind)
deriving DecidableEq, Repr

/-- A directory that cannot be read counts as a leaf. -/
def isCgroupLeaf (fs : CgroupFs) (cgroupPath : String) : Bool :=
  match fs.hasSubdir cgroupPath with
  | some sub => !sub
  | none => true

/-- The result of `reclaim_cgroup`, with the writes so far. -/
def reclaimCgroup (fs : CgroupFs) (cgroupPath : String) (bytesSize : Nat)
    (written : List ReclaimWrite) : Except IoErrorKind Bool × List ReclaimWrite :=
  if bytesSize = 0 then (.ok false, written)
  else if cgroupPath = "/" ∨ cgroupPath = "" then (.error .permissionDenied, written)
  else if isCgroupLeaf fs cgroupPath = false then (.ok false, written)
  else if fs.hasReclaim cgroupPath = false then (.error .notFound, written)
  else if fs.mayWrite cgroupPath = false then (.ok false, written)
  else
    let w : ReclaimWrite := ⟨cgroupPath, bytesSize⟩
    match fs.answer written w with
    | none => (.ok true, written ++ [w])
    | some .permissionDenied => (.ok false, written ++ [w])
    | some e => (.error e, written ++ [w])

def tryReclaimCgroup (fs : CgroupFs) (cgroupPath : String) (bytesSize : Nat)
    (written : List ReclaimWrite) : ReclaimOutcome × List ReclaimWrite :=
  let r := reclaimCgroup fs cgroupPath bytesSize written
  match r.1 with
  | .ok true => (.reclaimed, r.2)
  | .ok false => (.skipped, r.2)
  | .error .wouldBlock => (.blocked, r.2)
  | .error e => (.failed e, r.2)

/-- A write that the guards of `reclaim_cgroup` let through to the kernel. -/
def CgroupFs.admits (fs : CgroupFs) (w : ReclaimWrite) : Bool :=
  decide (w.bytes ≠ 0) && decide (w.cgroupPath ≠ "/" ∧ w.cgroupPath ≠ "") &&
    isCgroupLeaf fs w.cgroupPath && fs.hasReclaim w.cgroupPath && fs.mayWrite w.cgroupPath

/-- **What reaches the kernel**: an admitted write, whatever the kernel makes of
it, and nothing else. -/
theorem written_reclaimCgroup (fs : CgroupFs) (w : ReclaimWrite) (written : List ReclaimWrite) :
    (reclaimCgroup fs w.cgroupPath w.bytes written).2 =
      if fs.admits w then written ++ [w] else written := by
  unfold reclaimCgroup CgroupFs.admits
  by_cases hBytes : w.bytes = 0
  · simp [hBytes]
  by_cases hRoot : w.cgroupPath = "/" ∨ w.cgroupPath = ""
  · have hNot : ¬ (w.cgroupPath ≠ "/" ∧ w.cgroupPath ≠ "") := by tauto
    simp [hBytes, hRoot, hNot]
  have hInner : w.cgroupPath ≠ "/" ∧ w.cgroupPath ≠ "" := by tauto
  rw [if_neg hBytes, if_neg hRoot]
  cases isCgroupLeaf fs w.cgroupPath with
  | false => simp
  | true =>
      cases fs.hasReclaim w.cgroupPath with
      | false => simp
      | true =>
          cases fs.mayWrite w.cgroupPath with
          | false => simp
          | true =>
              simp only [Bool.true_eq_false, if_false, hBytes, hInner, ne_eq, not_false_eq_true,
                and_self, decide_true, Bool.and_self, if_true]
              split <;> rfl

theorem written_tryReclaimCgroup (fs : CgroupFs) (w : ReclaimWrite)
    (written : List ReclaimWrite) :
    (tryReclaimCgroup fs w.cgroupPath w.bytes written).2 =
      if fs.admits w then written ++ [w] else written := by
  rw [← written_reclaimCgroup]
  unfold tryReclaimCgroup
  dsimp only
  split <;> rfl

/-- A pass that sets out for a list of writes leaves the admitted ones. -/
theorem foldl_written {α : Type*} {aim : α → Option ReclaimWrite} {fs : CgroupFs}
    {act : List ReclaimWrite → α → List ReclaimWrite}
    (hAct : ∀ written x, act written x =
      match aim x with
      | some w => if fs.admits w then written ++ [w] else written
      | none => written)
    (xs : List α) (written : List ReclaimWrite) :
    xs.foldl act written = written ++ (xs.filterMap aim).filter fs.admits := by
  induction xs generalizing written with
  | nil => simp
  | cons x xs ih =>
      rw [List.foldl_cons, ih, hAct]
      cases hAim : aim x with
      | none => simp [hAim]
      | some w =>
          by_cases hAdmits : fs.admits w = true
          · simp [hAim, hAdmits]
          · simp [hAim, hAdmits]

/-! ## Early reclaim -/

structure EarlyInput where
  cfg : CompiledConfig
  level : PressureLevel
  planProcs : List Process
  activePid : Option Pid
  fs : CgroupFs
  /-- Unix seconds -/
  unixNow : Nat
  /-- `LAST_EARLY_RECLAIM`, 0 for never -/
  lastEarlyReclaim : Nat

/-- A background process of the middle tier with more than 20 MB. -/
def isEarlyTarget (cfg : CompiledConfig) (activePid : Option Pid) (p : Process) : Bool :=
  decide (p.rssKb.val > 20000) && decide (some p.pid ≠ activePid) &&
    decide (50 ≤ getPriority p.name p.exeBasename cfg ∧
      getPriority p.name p.exeBasename cfg < 60)

/-- Largest RSS first. -/
def EarlyInput.targets (i : EarlyInput) : List Process :=
  sortDesc (fun p => p.rssKb.val) (i.planProcs.filter (isEarlyTarget i.cfg i.activePid))

/-- Half of the RSS of a target, in its cgroup. -/
def earlyAim (p : Process) : Option ReclaimWrite :=
  p.cgroupPath.map fun cgroup => ⟨cgroup, (p.rssKb.percentOf 50).bytes⟩

/-- The outcome of the reclaim is only logged. -/
def reclaimTarget (fs : CgroupFs) (written : List ReclaimWrite) (p : Process) :
    List ReclaimWrite :=
  match p.cgroupPath with
  | none => written
  | some cgroup => (tryReclaimCgroup fs cgroup (p.rssKb.percentOf 50).bytes written).2

/-- `LAST_EARLY_RECLAIM` after the call, and the writes. -/
def checkEarlyProcessReclaim (i : EarlyInput) : Nat × List ReclaimWrite :=
  if i.level ≠ .elevated then (i.lastEarlyReclaim, [])
  else if i.lastEarlyReclaim ≠ 0 ∧ i.unixNow - i.lastEarlyReclaim < 30 then
    (i.lastEarlyReclaim, [])
  else (i.unixNow, (i.targets.take 3).foldl (reclaimTarget i.fs) [])

/-- The early reclaim gets past its level and its cooldown. -/
def EarlyInput.due (i : EarlyInput) : Prop :=
  i.level = .elevated ∧ (i.lastEarlyReclaim = 0 ∨ 30 ≤ i.unixNow - i.lastEarlyReclaim)

/-- The early reclaim writes for the three largest targets, when it is due. -/
theorem mem_early_iff (i : EarlyInput) (w : ReclaimWrite) :
    w ∈ (checkEarlyProcessReclaim i).2 ↔
      i.due ∧ i.fs.admits w = true ∧ ∃ p ∈ i.targets.take 3, earlyAim p = some w := by
  have hAct : ∀ written p, reclaimTarget i.fs written p =
      match earlyAim p with
      | some w => if i.fs.admits w then written ++ [w] else written
      | none => written := by
    intro written p
    unfold reclaimTarget earlyAim
    cases p.cgroupPath with
    | none => rfl
    | some cgroup => exact written_tryReclaimCgroup i.fs ⟨cgroup, _⟩ written
  unfold checkEarlyProcessReclaim EarlyInput.due
  by_cases hLevel : i.level = .elevated
  · rw [if_neg (not_not.mpr hLevel)]
    by_cases hCooling : i.lastEarlyReclaim ≠ 0 ∧ i.unixNow - i.lastEarlyReclaim < 30
    · rw [if_pos hCooling]
      have hNot : ¬ (i.lastEarlyReclaim = 0 ∨ 30 ≤ i.unixNow - i.lastEarlyReclaim) := by omega
      simp [hNot]
    · rw [if_neg hCooling]
      have hOver : i.lastEarlyReclaim = 0 ∨ 30 ≤ i.unixNow - i.lastEarlyReclaim := by omega
      simp only [foldl_written hAct, List.nil_append, List.mem_filter, List.mem_filterMap, hLevel,
        hOver, and_self, true_and]
      exact and_comm
  · simp [hLevel]

end Mgd.Evictor.Reclaim
