import Mathlib.Algebra.Order.Field.Rat
import Mgd.Config
import Mgd.Executor.Registry

/-!
# The recovery thread

`recovery.rs`, with the health baseline of `engine/health.rs`.  An iteration
reads PSI and, when the raw verdict is Normal, resumes frozen processes and
restores one checkpoint.

The sum in `safeToRestore` stays far below the range of `u64` for any memory
size, and which frozen processes come first is the order of a hash map; no
result depends on it.
-/

namespace Mgd.Recovery

open Mgd.Types Mgd.Monitor Mgd.Config Mgd.Lib.AssocMap Mgd.Executor.Registry

/-! ## The health baseline -/

/-- Moving average of available RAM at Normal pressure. -/
structure HealthBaseline where
  avgAvailableKb : ℚ
  samples : Nat

namespace HealthBaseline

def new : HealthBaseline where
  avgAvailableKb := 0
  samples := 0

def observe (b : HealthBaseline) (available : Kb) : HealthBaseline where
  avgAvailableKb :=
    if b.samples = 0 then (available.val : ℚ)
    else 5 / 100 * (available.val : ℚ) + (1 - 5 / 100) * b.avgAvailableKb
  samples := min (b.samples + 1) (2 ^ 32 - 1)

/-- Room for the process: 10% of RAM on a cold baseline, 85% of the average on a
warm one. -/
def safeToRestore (b : HealthBaseline) (available total processRss : Kb) : Bool :=
  let after := available.saturatingSub processRss
  if b.samples < 10 then decide (after.val > total.val * 10 / 100)
  else decide ((after.val : ℚ) > b.avgAvailableKb * (85 / 100))

end HealthBaseline

/-! ## The passes -/

def maxRestoreAttempts : Nat := 3

def minFreezeAgeSecs : Nat := 15

def maxUnfreezePerCycle : Nat := 4

/-- What an iteration reads. -/
structure RecoveryTick where
  /-- `none` when PSI cannot be read -/
  pressure : Option MemoryPressure
  cfg : CompiledConfig
  meminfo : MemInfo
  /-- the second reading, for the restore -/
  meminfoAtRestore : MemInfo
  /-- Unix seconds -/
  now : Nat
  startTime : Pid → Option Nat
  kill : KillSyscall
  /-- the outcome of `checkpoint::restore` for a snapshot -/
  restore : String → Bool

/-- The loop of `unfreeze_pass`: the registry and the PIDs it sent SIGCONT to. -/
def unfreezeLoop (tick : RecoveryTick) (baseline : HealthBaseline) :
    List Pid → Nat → FrozenRegistry → FrozenRegistry × List Pid
  | [], _, reg => (reg, [])
  | pid :: rest, unfrozenThisCycle, reg =>
      if unfrozenThisCycle ≥ maxUnfreezePerCycle then (reg, [])
      else if baseline.safeToRestore tick.meminfo.availableKb tick.meminfo.totalKb
          (Kb.clamp 0) = false then (reg, [])
      else if tick.now - reg.frozenAt pid < minFreezeAgeSecs then
        unfreezeLoop tick baseline rest unfrozenThisCycle reg
      else if (unfreezeChecked tick.kill tick.startTime pid (reg.startTime pid)).success then
        let after := unfreezeLoop tick baseline rest (unfrozenThisCycle + 1) (reg.remove pid)
        -- a recycled or vanished PID is dropped without a signal
        if tick.startTime pid = some (reg.startTime pid) then (after.1, pid :: after.2) else after
      else unfreezeLoop tick baseline rest unfrozenThisCycle reg

def unfreezePass (tick : RecoveryTick) (baseline : HealthBaseline) (reg : FrozenRegistry) :
    FrozenRegistry × List Pid :=
  unfreezeLoop tick baseline reg.frozenPids 0 reg

/-- The lightest checkpoint is given up, restored or counted as failed; the PID
is that of a restored one. -/
def restorePass (tick : RecoveryTick) (baseline : HealthBaseline) (reg : CheckpointRegistry) :
    CheckpointRegistry × Option Pid :=
  match reg.entriesLightestFirst with
  | [] => (reg, none)
  | (pid, entry) :: _ =>
      if entry.attempts ≥ maxRestoreAttempts then (reg.remove pid, none)
      else if baseline.safeToRestore tick.meminfoAtRestore.availableKb
          tick.meminfoAtRestore.totalKb entry.rss then
        if tick.restore entry.snapshotDir then (reg.remove pid, some pid)
        else (reg.incrementAttempts pid, none)
      else (reg, none)

/-! ## One iteration -/

/-- The raw verdict of the thread. -/
def readsNormal (tick : RecoveryTick) : Bool :=
  match tick.pressure with
  | none => false
  | some p => decide (pressureLevelWith p tick.cfg.psi = .normal)

/-- What an iteration leaves behind. -/
structure Recovered where
  baseline : HealthBaseline
  frozen : FrozenRegistry
  checkpointed : CheckpointRegistry
  resumed : List Pid
  restored : Option Pid

def recover (tick : RecoveryTick) (baseline : HealthBaseline) (frozen : FrozenRegistry)
    (checkpointed : CheckpointRegistry) : Recovered :=
  if readsNormal tick then
    let baseline := baseline.observe tick.meminfo.availableKb
    let thawed := unfreezePass tick baseline frozen
    let revived := restorePass tick baseline checkpointed
    ⟨baseline, thawed.1, revived.1, thawed.2, revived.2⟩
  else ⟨baseline, frozen, checkpointed, [], none⟩

end Mgd.Recovery
