import Mathlib.Data.Rat.Defs
import Mathlib.Algebra.Order.Ring.Rat
import Mathlib.Order.Basic
import Mgd.Types

/-!
# What the daemon reads from the kernel

The records of `monitor/process.rs`, `monitor/meminfo.rs` and `monitor/psi.rs`
and the pure functions over them.  Reading `/proc` is outside the model: a
reading is an input of the step that consumes it.

Floating-point percentages are exact rationals here; the comparisons the
daemon makes are on the exact values, without the rounding of `f64`.
-/

namespace Mgd.Monitor

open Mgd.Types

/-! ## Processes -/

/-- One row of `list_processes`. -/
structure Process where
  pid : Pid
  name : String
  exeBasename : Option String
  rssKb : Kb
  swapKb : Kb
  oomScore : Int
  cgroupPath : Option String
  cpuPct : ℚ
  majflt : Nat
  cmdline : String
deriving DecidableEq

/-! ## Memory -/

/-- `/proc/meminfo`, the four figures the daemon uses. -/
structure MemInfo where
  availableKb : Kb
  totalKb : Kb
  swapFreeKb : Kb
  swapTotalKb : Kb

def MemInfo.swapUsedPct (m : MemInfo) : ℚ :=
  if m.swapTotalKb.val = 0 then 0
  else ((m.swapTotalKb.saturatingSub m.swapFreeKb).val : ℚ) / (m.swapTotalKb.val : ℚ) * 100

/-! ## Pressure -/

/-- Pressure levels in ascending severity. -/
inductive PressureLevel
  | normal
  | elevated
  | high
  | critical
  | emergency
deriving DecidableEq, Repr

namespace PressureLevel

/-- Position in the declaration order, which is the derived `Ord` of the
source. -/
def severity : PressureLevel → Nat
  | normal => 0
  | elevated => 1
  | high => 2
  | critical => 3
  | emergency => 4

theorem severity_injective : Function.Injective severity := by
  intro a b h
  cases a <;> cases b <;> first | rfl | exact absurd h (by decide)

instance : LinearOrder PressureLevel := LinearOrder.lift' severity severity_injective

end PressureLevel

/-- The two averages of `/proc/pressure/memory` that decisions use, in
percent. -/
structure MemoryPressure where
  someAvg10 : ℚ
  fullAvg10 : ℚ

/-- Tier boundaries on `some_avg10`, and the `full_avg10` floor. -/
structure PsiThresholds where
  elevatedPct : ℚ
  highPct : ℚ
  criticalPct : ℚ
  emergencyPct : ℚ
  fullCriticalPct : ℚ

/-- `PsiThresholds::default`. -/
def PsiThresholds.default : PsiThresholds where
  elevatedPct := 5
  highPct := 25
  criticalPct := 50
  emergencyPct := 70
  fullCriticalPct := 20

/-- The raw verdict: `some_avg10` against the tiers, with a Critical minimum
while `full_avg10` is over its floor. -/
def pressureLevelWith (p : MemoryPressure) (t : PsiThresholds) : PressureLevel :=
  if p.fullAvg10 ≥ t.fullCriticalPct then
    if p.someAvg10 ≥ t.emergencyPct then .emergency else .critical
  else if p.someAvg10 ≥ t.emergencyPct then .emergency
  else if p.someAvg10 ≥ t.criticalPct then .critical
  else if p.someAvg10 ≥ t.highPct then .high
  else if p.someAvg10 ≥ t.elevatedPct then .elevated
  else .normal

end Mgd.Monitor
