import Mgd.Lib.Run
import Mgd.Maintenance
import Mgd.SpikeMode

/-!
# Auto-kill and the CPU cache

`check_auto_kill_idle` of `maintenance.rs` in the accesses it makes, among those of
the other callers of `list_processes`, of the freezes and releases, and of the
processes themselves.

`list_processes` reads the ticks of one process after the other.  For each it takes
the lock of `CPU_CACHE` to compare them with the ticks that are there, which may be
those of any caller, and to leave its own; at the end it prunes the cache to its
list.  The check then reads the clock, the start times, and for each process the
registry of frozen processes.
-/

namespace Mgd.AutoKill

open Mgd.Types Mgd.Monitor Mgd.Config Mgd.Lib.AssocMap Mgd.Executor.Registry Mgd.SpikeMode
open Mgd.Maintenance

/-! ## The CPU cache -/

/-- An entry of `CPU_CACHE`. -/
structure Sample where
  ticks : Nat
  /-- Unix seconds -/
  at_ : Nat
deriving DecidableEq

structure Sysconf where
  /-- `_SC_CLK_TCK`, at least 1 -/
  clkTck : Nat
  /-- `_SC_NPROCESSORS_ONLN`, at least 1 -/
  numCpus : Nat

/-- Percent of one CPU since the last sample, 0 without one. -/
def computeCpuPct (sys : Sysconf) (prev : Option Sample) (ticks now : Nat) : ℚ :=
  match prev with
  | none => 0
  | some last =>
      let deltaTicks : ℚ := (ticks - last.ticks : Nat)
      let deltaSecs : ℚ := (max (now - last.at_) 1 : Nat)
      min (deltaTicks / sys.clkTck / deltaSecs * 100) (100 * sys.numCpus)

/-! ## The machine -/

/-- The last process to get a PID. -/
structure Occupant where
  startTime : Nat
  /-- CPU ticks used -/
  ticks : Nat
  alive : Bool
deriving DecidableEq

/-- `(pid, start_time)` -/
abbrev Key := Pid × Nat

/-- A process of the list, and the ticks that were read for it. -/
structure Row where
  process : Process
  ticks : Option Nat

def Row.pid (row : Row) : Pid := row.process.pid

def Row.withPct (row : Row) (pct : ℚ) : Row :=
  { row with process := { row.process with cpuPct := pct } }

/-- How far the check is. -/
inductive Check
  | off
  | listing (cfg : CompiledConfig) (rows : List Row)
  /-- the ticks of a process are read, the cache is not updated yet -/
  | reading (cfg : CompiledConfig) (rows : List Row) (row : Row)
  | listed (cfg : CompiledConfig) (rows : List Row)
  /-- the start times, `live` those that are read -/
  | keying (cfg : CompiledConfig) (now : Instant) (rest : List Row) (live : List (Key × Row))
  /-- `pending` are those the loop has not come to, in no order -/
  | handling (cfg : CompiledConfig) (now : Instant) (live pending : List (Key × Row))

structure Machine where
  clock : Instant
  holders : Map Pid Occupant
  cpuCache : Map Pid Sample
  /-- what other callers have read and not written yet -/
  inFlight : List (Pid × Nat)
  frozen : FrozenRegistry
  spikeTracker : SpikeTracker
  lastActive : LastActive
  check : Check
  /-- when CPU ticks were used -/
  burns : List (Key × Instant)
  /-- when a process has left the ledgers -/
  releases : List (Key × Instant)

def start (holders : Map Pid Occupant) : Machine where
  clock := 0
  holders := holders
  cpuCache := ∅
  inFlight := []
  frozen := .new
  spikeTracker := .new
  lastActive := ∅
  check := .off
  burns := []
  releases := []

/-- The processes that are recorded as stopped. -/
def stoppedKeys (frozen : FrozenRegistry) (spikeTracker : SpikeTracker) : List Key :=
  frozen.frozen.entries.map (fun e => (e.1, e.2.startTime)) ++
    spikeTracker.victims.entries.map (fun e => (e.1, e.2.startTime))

def Machine.stopped (s : Machine) : List Key := stoppedKeys s.frozen s.spikeTracker

/-- The process that has the PID. -/
def Machine.occupant (s : Machine) (pid : Pid) : Option Occupant :=
  (s.holders.lookup pid).filter Occupant.alive

inductive Move
  | wait (d : Duration)
  | starts (pid : Pid) (startTime : Nat)
  | exits (pid : Pid)
  /-- the process uses a CPU tick -/
  | burns (pid : Pid)
  /-- a freeze or a release by another thread -/
  | ledgers (frozen : FrozenRegistry) (spikeTracker : SpikeTracker)
  | otherReads (pid : Pid)
  | otherUpdates (reading : Pid × Nat) (unixNow : Nat)
  | otherPrunes (live : List Pid)
  -- the check, in its order
  | lists (cfg : CompiledConfig)
  | reads (p : Process) (readable : Bool)
  | updates (unixNow : Nat)
  | prunes
  | takesNow
  | readsStartTime (readable : Bool)
  | handles (key : Key)
  | finishes

/-- A PID is free when no process has it, and its next process is younger. -/
def startProcess (holders : Map Pid Occupant) (pid : Pid) (startTime : Nat) : Map Pid Occupant :=
  match holders.lookup pid with
  | none => holders.insert pid ⟨startTime, 0, true⟩
  | some h =>
      if h.alive ∨ startTime ≤ h.startTime then holders
      else holders.insert pid ⟨startTime, 0, true⟩

/-- `compute_cpu_pct` for a row: the cache it leaves, and the row with its percentage. -/
def updateRow (sys : Sysconf) (cache : Map Pid Sample) (unixNow : Nat) (row : Row) :
    Map Pid Sample × Row :=
  match row.ticks with
  | none => (cache, row.withPct 0)
  | some ticks =>
      (cache.insert row.pid ⟨ticks, unixNow⟩,
        row.withPct (computeCpuPct sys (cache.lookup row.pid) ticks unixNow))

/-- What `check_idle` reads of the iteration: its configuration and its clock. -/
def tickAt (cfg : CompiledConfig) (now : Instant) : MaintenanceTick where
  pressure := none
  cfg := cfg
  procs := []
  startTime := fun _ => none
  now := now

/-- The process under the key, when the loop has not come to it. -/
def Machine.due (s : Machine) (key : Key) : Option (CompiledConfig × Instant × Row) :=
  match s.check with
  | .handling cfg now _ pending =>
      (pending.find? fun e => decide (e.1 = key)).map fun e => (cfg, now, e.2)
  | _ => none

/-- The loop goes on to the next key. -/
def Check.without : Check → Key → Check
  | .handling cfg now live pending, key =>
      .handling cfg now live (pending.filter fun e => decide (e.1 ≠ key))
  | check, _ => check

/-- The loop body, for a process that is due. -/
def Machine.checkIdle (s : Machine) (key : Key) (due : CompiledConfig × Instant × Row) :
    LastActive × List Pid :=
  Maintenance.checkIdle (tickAt due.1 due.2.1) s.frozen s.lastActive key due.2.2.process

def step (sys : Sysconf) (s : Machine) : Move → Machine
  | .wait d => { s with clock := s.clock + d }
  | .starts pid startTime => { s with holders := startProcess s.holders pid startTime }
  | .exits pid => { s with holders := adjust pid (fun h => { h with alive := false }) s.holders }
  | .burns pid =>
      match s.occupant pid with
      | none => s
      | some h =>
          { s with
            holders := s.holders.insert pid { h with ticks := h.ticks + 1 }
            burns := s.burns ++ [((pid, h.startTime), s.clock)] }
  | .ledgers frozen spikeTracker =>
      { s with
        frozen := frozen
        spikeTracker := spikeTracker
        releases := s.releases ++
          (s.stopped.filter fun key => decide (key ∉ stoppedKeys frozen spikeTracker)).map
            (·, s.clock) }
  | .otherReads pid =>
      match s.occupant pid with
      | none => s
      | some h => { s with inFlight := s.inFlight ++ [(pid, h.ticks)] }
  | .otherUpdates reading unixNow =>
      if reading ∈ s.inFlight then
        { s with cpuCache := s.cpuCache.insert reading.1 ⟨reading.2, unixNow⟩ }
      else s
  | .otherPrunes live =>
      { s with cpuCache := retain (fun pid _ => decide (pid ∈ live)) s.cpuCache }
  | .lists cfg =>
      match s.check with
      | .off => if cfg.autoKillRules.isEmpty then s else { s with check := .listing cfg [] }
      | _ => s
  | .reads p readable =>
      match s.check, s.occupant p.pid with
      | .listing cfg rows, some h =>
          if p.pid ∈ rows.map Row.pid then s
          else
            { s with
              check := .reading cfg rows ⟨p, if readable then some h.ticks else none⟩ }
      | _, _ => s
  | .updates unixNow =>
      match s.check with
      | .reading cfg rows row =>
          let updated := updateRow sys s.cpuCache unixNow row
          { s with cpuCache := updated.1, check := .listing cfg (rows ++ [updated.2]) }
      | _ => s
  | .prunes =>
      match s.check with
      | .listing cfg rows =>
          { s with
            cpuCache := retain (fun pid _ => decide (pid ∈ rows.map Row.pid)) s.cpuCache
            check := .listed cfg rows }
      | _ => s
  | .takesNow =>
      match s.check with
      | .listed cfg rows => { s with check := .keying cfg s.clock rows [] }
      | _ => s
  | .readsStartTime readable =>
      match s.check with
      | .keying cfg now [] live => { s with check := .handling cfg now live live }
      | .keying cfg now (row :: rest) live =>
          match s.occupant row.pid with
          | some h =>
              if readable then
                { s with check := .keying cfg now rest (live ++ [((row.pid, h.startTime), row)]) }
              else { s with check := .keying cfg now rest live }
          | none => { s with check := .keying cfg now rest live }
      | _ => s
  | .handles key =>
      match s.due key with
      | some due => { s with lastActive := (s.checkIdle key due).1, check := s.check.without key }
      | none => s
  | .finishes =>
      match s.check with
      | .handling _ _ live [] =>
          { s with
            lastActive := retain (fun key _ => decide (key ∈ live.map Prod.fst)) s.lastActive
            check := .off }
      | _ => s

/-! ## The property -/

/-- The process has used no tick, and was in no ledger, for that many seconds. -/
structure LongIdle (s : Machine) (key : Key) (secs : Nat) : Prop where
  unused : ∀ e ∈ s.burns, e.1 = key → e.2 + Instant.ofSecs secs ≤ s.clock
  unstopped : key ∉ s.stopped
  released : ∀ e ∈ s.releases, e.1 = key → e.2 + Instant.ofSecs secs ≤ s.clock

/-- Whoever gets a SIGTERM has been idle for as long as its rule says. -/
def KillsIdle (s : Machine) : Move → Prop
  | .handles key =>
      ∀ due, s.due key = some due → due.2.2.pid ∈ (s.checkIdle key due).2 →
        ∀ h, s.occupant due.2.2.pid = some h →
          ∀ secs, due.1.autoKillIdleAfterFor due.2.2.process.name = some secs →
            LongIdle s (due.2.2.pid, h.startTime) secs
  | _ => True

/-! ## The condition -/

/-- The processes the check is about and has not come to. -/
def Check.rows : Check → List Row
  | .off => []
  | .listing _ rows => rows
  | .reading _ rows _ => rows
  | .listed _ rows => rows
  | .keying _ _ rest live => rest ++ live.map Prod.snd
  | .handling _ _ _ pending => pending.map Prod.snd

/-- The process whose ticks are read and not in the cache yet. -/
def Check.current : Check → Option Row
  | .reading _ _ row => some row
  | _ => none

def Check.pids (check : Check) : List Pid :=
  check.current.toList.map Row.pid ++ check.rows.map Row.pid

/-- The process has an idle clock, or the check is about it. -/
def Machine.Busy (s : Machine) (pid : Pid) : Prop :=
  (∃ startTime since, s.lastActive.lookup (pid, startTime) = some since) ∨ pid ∈ s.check.pids

/-- The loop does not skip the process. -/
def Evaluated (s : Machine) (due : CompiledConfig × Instant × Row) : Prop :=
  (∃ secs, due.1.autoKillIdleAfterFor due.2.2.process.name = some secs) ∧
    s.frozen.isFrozen due.2.2.pid = false

/-- Ticks that a process with an idle clock has used since the last sample come to
more than 0.1 %. -/
def ShowsActivity (sys : Sysconf) (s : Machine) (unixNow : Nat) : Prop :=
  ∀ row, s.check.current = some row → ∀ ticks, row.ticks = some ticks →
    ∀ h, s.occupant row.pid = some h → ∀ since,
      s.lastActive.lookup (row.pid, h.startTime) = some since →
        ∀ last, s.cpuCache.lookup row.pid = some last → ticks ≠ last.ticks →
          1 / 10 < computeCpuPct sys (some last) ticks unixNow

/-- A process with an idle clock is not skipped.  One that is not skipped is no spike
victim, its ticks were read, and if they showed no activity it has used none since. -/
structure Settled (s : Machine) (key : Key) (due : CompiledConfig × Instant × Row)
    (h : Occupant) : Prop where
  evaluated : (∃ since, s.lastActive.lookup key = some since) → Evaluated s due
  victim : Evaluated s due → ∀ v, s.spikeTracker.victims.lookup due.2.2.pid = some v →
    v.startTime ≠ h.startTime
  ticks : Evaluated s due → ∃ ticks, due.2.2.ticks = some ticks ∧
    (due.2.2.process.cpuPct ≤ 1 / 10 → ticks = h.ticks)

/-- While a process is busy, its PID does not pass on during the check, no ledger
takes it up or lets it go, and the other callers leave its sample as it is. -/
def Undisturbed (sys : Sysconf) (s : Machine) : Move → Prop
  | .starts pid _ => pid ∉ s.check.pids
  | .ledgers frozen spikeTracker =>
      ∀ key : Key, s.Busy key.1 → (key ∈ stoppedKeys frozen spikeTracker ↔ key ∈ s.stopped)
  | .otherUpdates reading _ =>
      reading ∈ s.inFlight → s.Busy reading.1 →
        (s.cpuCache.lookup reading.1).map Sample.ticks = some reading.2
  | .otherPrunes live => ∀ pid, s.Busy pid → pid ∈ live
  | .updates unixNow => ShowsActivity sys s unixNow
  | .handles key => ∀ due, s.due key = some due → ∀ h, s.occupant due.2.2.pid = some h →
      Settled s key due h
  | _ => True

end Mgd.AutoKill
