import Mgd.Config
import Mgd.Executor.Registry

/-!
# The maintenance thread

The calm path of `maintenance.rs` as far as it acts on processes:
`check_auto_kill_idle`.  The swap reclaim and the calibration, which act on no
process, are left out.
-/

namespace Mgd.Maintenance

open Mgd.Types Mgd.Monitor Mgd.Config Mgd.Lib.AssocMap Mgd.Executor.Registry

/-- What an iteration reads. -/
structure MaintenanceTick where
  /-- `none` when PSI cannot be read -/
  pressure : Option MemoryPressure
  cfg : CompiledConfig
  procs : List Process
  startTime : Pid → Option Nat
  now : Instant

/-- `(pid, start_time)` of a process, and the last time it used the CPU. -/
abbrev LastActive := Map (Pid × Nat) Instant

/-- The processes whose start time can be read, by key. -/
def liveKeys (tick : MaintenanceTick) : Map (Pid × Nat) Process :=
  insertAll Prod.fst Prod.snd ∅ <| tick.procs.filterMap fun p =>
    (tick.startTime p.pid).map fun st => ((p.pid, st), p)

/-- One process: the idle clocks, and the PID when it gets SIGTERM. -/
def checkIdle (tick : MaintenanceTick) (frozen : FrozenRegistry) (lastActive : LastActive)
    (key : Pid × Nat) (p : Process) : LastActive × List Pid :=
  match tick.cfg.autoKillIdleAfterFor p.name with
  | none => (lastActive, [])
  | some idleSecs =>
      if frozen.isFrozen p.pid then (lastActive, [])
      else
        let since :=
          if p.cpuPct > 1 / 10 then tick.now else (lastActive.lookup key).getD tick.now
        let elapsed := Instant.secsSince tick.now since
        if elapsed ≥ idleSecs then (lastActive.erase key, [p.pid])
        else (lastActive.insert key since, [])

def checkIdleAll (tick : MaintenanceTick) (frozen : FrozenRegistry) :
    List ((Pid × Nat) × Process) → LastActive → LastActive × List Pid
  | [], lastActive => (lastActive, [])
  | (key, p) :: rest, lastActive =>
      let here := checkIdle tick frozen lastActive key p
      let after := checkIdleAll tick frozen rest here.1
      (after.1, here.2 ++ after.2)

def checkAutoKillIdle (tick : MaintenanceTick) (frozen : FrozenRegistry)
    (lastActive : LastActive) : LastActive × List Pid :=
  if tick.cfg.autoKillRules.isEmpty then (lastActive, [])
  else
    let live := liveKeys tick
    let checked := checkIdleAll tick frozen (live.entries.map fun e => (e.1, e.2)) lastActive
    (retain (fun key _ => (live.lookup key).isSome) checked.1, checked.2)

/-- The raw verdict of the thread; a read error counts as not calm. -/
def readsCalm (tick : MaintenanceTick) : Bool :=
  match tick.pressure with
  | none => false
  | some p => decide (pressureLevelWith p tick.cfg.psi = .normal)

/-- One iteration: the idle clocks and the PIDs that got SIGTERM. -/
def maintain (tick : MaintenanceTick) (frozen : FrozenRegistry) (lastActive : LastActive) :
    LastActive × List Pid :=
  if readsCalm tick then checkAutoKillIdle tick frozen lastActive else (lastActive, [])

end Mgd.Maintenance
