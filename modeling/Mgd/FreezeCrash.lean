import Mgd.Evictor.CollectiveRelease
import Mgd.ShutdownLedger

/-!
# Stopped processes across a crash

The daemon stops processes on four paths and writes each of them down after the
SIGSTOP: `execute_plan`, the idle freeze and `mgctl freeze` in `FrozenRegistry`
with its file `frozen.json`, the headroom freeze among the victims of
`SpikeTracker` with `spike_victims.json`.  It may be killed between any two steps,
and in the middle of a write, which is a write cut short and then the crash.  At
the next start `initialize` loads the registry, and `load_and_unfreeze_victims`
reads the victims, removes their file and sends each of them SIGCONT.

What a path looks at before it stops a process is of no account here, except that
the headroom freeze passes over its own victims.  `ι` indexes the connections
that serve `mgctl freeze`, `κ` the threads that resume a process without holding
the lock: the focus handlers and `mgctl unfreeze`.
-/

namespace Mgd.FreezeCrash

open Mgd.Types Mgd.Lib.AssocMap Mgd.Lib.Run Mgd.SpikeMode
open Mgd.Executor.Registry Mgd.Evictor.CollectiveRelease Mgd.ShutdownLedger
open Mgd.Lib (StateFile WriteResult)

universe u v

/-! ## Signals -/

/-- SIGSTOP reaches the process of that PID, if there is one. -/
def stop (procs : ProcTable) (pid : Pid) : ProcTable :=
  Function.update procs pid ((procs pid).map fun p => { p with stopped := true })

/-- SIGCONT reaches the process of that PID, if there is one. -/
def cont (procs : ProcTable) (pid : Pid) : ProcTable :=
  Function.update procs pid ((procs pid).map fun p => { p with stopped := false })

/-- `unfreeze_checked`: the process table after it. -/
def unfreeze (kill : KillSyscall) (procs : ProcTable) (pid : Pid) (startTime : Nat) : ProcTable :=
  if contDelivered kill procs.startTime pid startTime then cont procs pid else procs

/-! ## The daemon -/

/-- An entry of `spike_victims.json`. -/
structure VictimRecord where
  pid : Pid
  name : String
  startTime : Nat
deriving DecidableEq

def SpikeVictim.record (v : SpikeVictim) : VictimRecord := ⟨v.pid, v.name, v.startTime⟩

/-- What `persist_victims` writes. -/
def persisted (t : SpikeTracker) : List VictimRecord := (values t.victims).map SpikeVictim.record

inductive Phase
  | down
  /-- `initialize` has loaded the registry and removed the file of the victims; these
  are still to be resumed. -/
  | starting (rest : List VictimRecord)
  | running
deriving DecidableEq

inductive EvictorPc
  | idle
  /-- `execute_plan` or the idle freeze: SIGSTOP done, `add` still to come. -/
  | stopped (pid : Pid) (name : String)
  /-- `add` found no process: SIGCONT still to come. -/
  | rollingBack (pid : Pid)
  /-- The start time is the expected one, SIGSTOP still to come. -/
  | headroomChecked (v : SpikeVictim)
  /-- SIGSTOP done, `record_victim_frozen` still to come. -/
  | headroomStopped (v : SpikeVictim)
  /-- They are no victims any more, SIGCONT still to come. -/
  | releasing (rest : List SpikeVictim)

/-- A connection that serves `mgctl freeze`. -/
inductive ClientPc
  | idle
  /-- SIGSTOP done, `add` still to come. -/
  | stopped (pid : Pid) (name : String)

/-- A thread that resumes a process without holding the lock. -/
inductive UnfreezerPc
  | idle
  /-- The registry held the PID, with this start time. -/
  | checked (pid : Pid) (startTime : Nat)
  /-- SIGCONT done, `remove` still to come. -/
  | resumed (pid : Pid)

structure Daemon (ι : Type u) (κ : Type v) where
  /-- `stopped` tells that the last signal from the daemon was SIGSTOP. -/
  procs : ProcTable
  /-- `frozen.json` -/
  frozenFile : StateFile FrozenRegistry
  /-- `spike_victims.json` -/
  victimsFile : StateFile (List VictimRecord)
  phase : Phase
  registry : FrozenRegistry
  tracker : SpikeTracker
  evictor : EvictorPc
  clients : ι → ClientPc
  unfreezers : κ → UnfreezerPc

/-- What the system answers a thread during a step. -/
structure Answer where
  kill : KillSyscall
  /-- Unix seconds -/
  now : Nat
  /-- how the write of the state file ends, if the step makes one -/
  save : WriteResult

inductive Move (ι : Type u) (κ : Type v)
  /-- The process ends, another one takes its PID, or somebody resumes it, as the sweep
  of a shutdown does. -/
  | setProcess (pid : Pid) (startTime : Option Nat)
  | evictorFreeze (pid : Pid) (name : String) (kill : KillSyscall)
  | evictorHeadroom (pid : Pid) (name : String) (spikePid : Pid) (now : Instant)
  /-- A release of `SpikeTracker`: the victims that stay. -/
  | evictorRelease (keep : Pid → Bool) (save : WriteResult)
  | evictor (a : Answer)
  | clientFreeze (i : ι) (pid : Pid) (name : String) (kill : KillSyscall)
  | client (i : ι) (a : Answer)
  | unfreeze (k : κ) (pid : Pid)
  | unfreezer (k : κ) (a : Answer)
  /-- The recovery pass resumes a process and removes its entry, under the lock. -/
  | recovery (pid : Pid) (a : Answer)
  /-- The daemon is killed. -/
  | crash
  /-- `initialize` reads the state files; whether it can remove that of the victims. -/
  | load (removed : Bool)
  /-- `load_and_unfreeze_victims` resumes the next victim. -/
  | resume (kill : KillSyscall)
  /-- The threads start. -/
  | start

section Steps

variable {ι : Type u} {κ : Type v}

/-- `FrozenRegistry::add` and its save. -/
def Daemon.add (d : Daemon ι κ) (pid : Pid) (name : String) (a : Answer) : Daemon ι κ :=
  let added := d.registry.add d.procs.startTime a.now pid name
  if added.2 then { d with registry := added.1, frozenFile := d.frozenFile.write added.1 a.save }
  else d

/-- `FrozenRegistry::remove` and its save. -/
def Daemon.remove (d : Daemon ι κ) (pid : Pid) (save : WriteResult) : Daemon ι κ :=
  if d.registry.isFrozen pid then
    { d with
      registry := d.registry.remove pid
      frozenFile := d.frozenFile.write (d.registry.remove pid) save }
  else d

/-- The tracker changes its victims and writes them down. -/
def Daemon.setVictims (d : Daemon ι κ) (t : SpikeTracker) (save : WriteResult) : Daemon ι κ :=
  { d with tracker := t, victimsFile := d.victimsFile.write (persisted t) save }

def stepEvictor (d : Daemon ι κ) (a : Answer) : Daemon ι κ :=
  match d.evictor with
  | .idle => d
  | .stopped pid name =>
      { d.add pid name a with
        evictor := if (d.procs pid).isSome then .idle else .rollingBack pid }
  | .rollingBack pid =>
      { d with
        procs := if (sendSignal a.kill pid .cont).success then cont d.procs pid else d.procs
        evictor := .idle }
  | .headroomChecked v =>
      if (sendSignal a.kill v.pid .stop).success then
        { d with procs := stop d.procs v.pid, evictor := .headroomStopped v }
      else { d with evictor := .idle }
  | .headroomStopped v =>
      { d.setVictims (d.tracker.recordVictimFrozen v) a.save with evictor := .idle }
  | .releasing [] => { d with evictor := .idle }
  | .releasing (v :: rest) =>
      -- whether the SIGCONT was delivered is not looked at
      { d with procs := unfreeze a.kill d.procs v.pid v.startTime, evictor := .releasing rest }

variable [DecidableEq ι] [DecidableEq κ]

def Daemon.setClient (d : Daemon ι κ) (i : ι) (pc : ClientPc) : Daemon ι κ :=
  { d with clients := Function.update d.clients i pc }

def Daemon.setUnfreezer (d : Daemon ι κ) (k : κ) (pc : UnfreezerPc) : Daemon ι κ :=
  { d with unfreezers := Function.update d.unfreezers k pc }

def stepClient (d : Daemon ι κ) (i : ι) (a : Answer) : Daemon ι κ :=
  match d.clients i with
  | .idle => d
  | .stopped pid name => (d.add pid name a).setClient i .idle

def stepUnfreezer (d : Daemon ι κ) (k : κ) (a : Answer) : Daemon ι κ :=
  match d.unfreezers k with
  | .idle => d
  | .checked pid st =>
      { d with procs := unfreeze a.kill d.procs pid st }.setUnfreezer k
        (if (unfreezeChecked a.kill d.procs.startTime pid st).success then .resumed pid else .idle)
  | .resumed pid => (d.remove pid a.save).setUnfreezer k .idle

/-- A step of the running daemon. -/
def stepRunning (d : Daemon ι κ) : Move ι κ → Daemon ι κ
  | .evictorFreeze pid name kill =>
      match d.evictor, d.procs.startTime pid with
      | .idle, some st =>
          if (freezeChecked kill d.procs.startTime pid st).success then
            { d with procs := stop d.procs pid, evictor := .stopped pid name }
          else d
      | _, _ => d
  | .evictorHeadroom pid name spikePid now =>
      match d.evictor, d.procs.startTime pid with
      | .idle, some st =>
          if pid ∈ d.tracker.victimPids then d
          else { d with evictor := .headroomChecked ⟨pid, name, st, spikePid, now⟩ }
      | _, _ => d
  | .evictorRelease keep save =>
      match d.evictor, (values d.tracker.victims).filter fun v => !keep v.pid with
      | .idle, [] => d
      | .idle, released =>
          { d.setVictims
              { d.tracker with victims := retain (fun pid _ => keep pid) d.tracker.victims }
              save with
            evictor := .releasing released }
      | _, _ => d
  | .evictor a => stepEvictor d a
  | .clientFreeze i pid name kill =>
      match d.clients i with
      | .idle =>
          if (sendSignal kill pid .stop).success then
            { d with procs := stop d.procs pid }.setClient i (.stopped pid name)
          else d
      | .stopped _ _ => d
  | .client i a => stepClient d i a
  | .unfreeze k pid =>
      match d.unfreezers k with
      | .idle =>
          if d.registry.isFrozen pid then
            d.setUnfreezer k (.checked pid (d.registry.startTime pid))
          else d
      | .checked _ _ => d
      | .resumed _ => d
  | .unfreezer k a => stepUnfreezer d k a
  | .recovery pid a =>
      if d.registry.isFrozen pid then
        let resumed := { d with procs := unfreeze a.kill d.procs pid (d.registry.startTime pid) }
        if (unfreezeChecked a.kill d.procs.startTime pid (d.registry.startTime pid)).success then
          resumed.remove pid a.save
        else resumed
      else d
  | _ => d

def step (d : Daemon ι κ) (m : Move ι κ) : Daemon ι κ :=
  match m, d.phase with
  | .setProcess pid startTime, _ =>
      if pid = Pid.none then d
      else
        { d with
          procs := Function.update d.procs pid (startTime.map fun st => ⟨st, false⟩) }
  | .crash, _ =>
      { d with
        phase := .down
        registry := .new
        tracker := .new
        evictor := .idle
        clients := fun _ => .idle
        unfreezers := fun _ => .idle }
  | .load removed, .down =>
      { d with
        registry := ShutdownLedger.load d.frozenFile
        victimsFile := if removed then .absent else d.victimsFile
        phase := .starting (d.victimsFile.read []) }
  | .resume kill, .starting (r :: rest) =>
      if r.pid = Pid.none then { d with phase := .starting rest }
      else { d with procs := unfreeze kill d.procs r.pid r.startTime, phase := .starting rest }
  | .start, .starting [] => { d with phase := .running }
  | m, .running => stepRunning d m
  | _, _ => d

/-- The processes before the daemon is first started; none has PID 0. -/
def processes (startTimes : Pid → Option Nat) : ProcTable := fun pid =>
  if pid = Pid.none then none else (startTimes pid).map fun st => ⟨st, false⟩

/-- Before the daemon's first start. -/
def Daemon.initial (startTimes : Pid → Option Nat) (frozenFile : StateFile FrozenRegistry)
    (victimsFile : StateFile (List VictimRecord)) : Daemon ι κ where
  procs := processes startTimes
  frozenFile := frozenFile
  victimsFile := victimsFile
  phase := .down
  registry := .new
  tracker := .new
  evictor := .idle
  clients := fun _ => .idle
  unfreezers := fun _ => .idle

end Steps

/-! ## What is promised, and when it is kept -/

section Promise

variable {ι : Type u} {κ : Type v}

def IsFrozen (reg : FrozenRegistry) (pid : Pid) (startTime : Nat) : Prop :=
  ∃ e, reg.frozen.lookup pid = some e ∧ e.startTime = startTime

def IsVictim (t : SpikeTracker) (pid : Pid) (startTime : Nat) : Prop :=
  ∃ v, t.victims.lookup pid = some v ∧ v.startTime = startTime

/-- **When `initialize` is done**, every process the daemon had stopped and that is
still there is in the loaded registry, unless it has been sent SIGCONT. -/
def FrozenAreKnown (d : Daemon ι κ) : Prop :=
  d.phase = .starting [] →
    ∀ pid p, d.procs pid = some p → p.stopped = true → IsFrozen d.registry pid p.startTime

/-- The evictor has stopped the process and not yet recorded it, or has dropped its
record and not yet resumed it. -/
def EvictorPc.Holds (pid : Pid) (startTime : Nat) : EvictorPc → Prop
  | .stopped pid' _ => pid' = pid
  | .headroomStopped v => v.pid = pid ∧ v.startTime = startTime
  | .releasing rest => ∃ v ∈ rest, v.pid = pid ∧ v.startTime = startTime
  | _ => False

/-- A thread has stopped the process and not yet recorded it, or the evictor has
dropped its record and not yet resumed it. -/
def InBetween (d : Daemon ι κ) (pid : Pid) (startTime : Nat) : Prop :=
  d.evictor.Holds pid startTime ∨ ∃ i name, d.clients i = .stopped pid name

/-- Both files hold what the ledgers hold. -/
def Saved (d : Daemon ι κ) : Prop :=
  (∀ pid e, d.registry.frozen.lookup pid = some e →
      (ShutdownLedger.load d.frozenFile).frozen.lookup pid = some e) ∧
    ∀ pid v, d.tracker.victims.lookup pid = some v →
      SpikeVictim.record v ∈ d.victimsFile.read []

/-- The crash strikes while no stopped process is in between and both files are
saved; or, at the start, when no victim still to be resumed is missing from the
file. -/
def CrashSpares (d : Daemon ι κ) : Prop :=
  match d.phase with
  | .down => True
  | .starting rest =>
      ∀ r ∈ rest, ∀ p, d.procs r.pid = some p → p.stopped = true → p.startTime = r.startTime →
        r ∈ d.victimsFile.read []
  | .running =>
      Saved d ∧ ∀ pid p, d.procs pid = some p → p.stopped = true → ¬ InBetween d pid p.startTime

/-- The SIGSTOP of the headroom freeze reaches the process whose start time was
read, and the SIGCONT of a release does not fail. -/
def EvictorSpares (d : Daemon ι κ) (a : Answer) : Prop :=
  match d.evictor with
  | .headroomChecked v => ∀ p, d.procs v.pid = some p → p.startTime = v.startTime
  | .releasing (v :: _) =>
      (unfreezeChecked a.kill d.procs.startTime v.pid v.startTime).success = true
  | _ => True

/-- No unlocked thread removes the entry of a process that was stopped again, unless
the process is a victim or in between. -/
def UnfreezerSpares (d : Daemon ι κ) (k : κ) : Prop :=
  match d.unfreezers k with
  | .resumed pid =>
      ∀ p, d.procs pid = some p → p.stopped = true →
        IsVictim d.tracker pid p.startTime ∨ InBetween d pid p.startTime
  | _ => True

/-- The SIGCONT of a recovered victim does not fail. -/
def ResumeSpares (d : Daemon ι κ) (kill : KillSyscall) : Prop :=
  match d.phase with
  | .starting (r :: _) =>
      (unfreezeChecked kill d.procs.startTime r.pid r.startTime).success = true
  | _ => True

def SparesStopped (d : Daemon ι κ) : Move ι κ → Prop
  | .crash => CrashSpares d
  | .evictor a => EvictorSpares d a
  | .unfreezer k _ => UnfreezerSpares d k
  | .resume kill => ResumeSpares d kill
  | _ => True

end Promise

/-! ## The invariant -/

section Invariant

variable {ι : Type u} {κ : Type v}

/-- Where the record of a stopped process is. -/
def Accounted (d : Daemon ι κ) (pid : Pid) (startTime : Nat) : Prop :=
  match d.phase with
  | .down =>
      IsFrozen (ShutdownLedger.load d.frozenFile) pid startTime ∨
        ∃ r ∈ d.victimsFile.read [], r.pid = pid ∧ r.startTime = startTime
  | .starting rest =>
      IsFrozen d.registry pid startTime ∨ ∃ r ∈ rest, r.pid = pid ∧ r.startTime = startTime
  | .running =>
      IsFrozen d.registry pid startTime ∨ IsVictim d.tracker pid startTime ∨
        InBetween d pid startTime

/-- The process a headroom freeze is about. -/
def EvictorPc.candidate : EvictorPc → Option Pid
  | .headroomChecked v => some v.pid
  | .headroomStopped v => some v.pid
  | _ => none

structure Inv (d : Daemon ι κ) : Prop where
  accounted : ∀ pid p, d.procs pid = some p → p.stopped = true → Accounted d pid p.startTime
  keyed : Keyed d.tracker
  /-- The headroom freeze passes over its own victims. -/
  candidateNew : ∀ pid, d.evictor.candidate = some pid → d.tracker.victims.lookup pid = none
  noZero : d.procs Pid.none = none
  loaded : ∀ rest, d.phase = .starting rest → d.registry = ShutdownLedger.load d.frozenFile

theorem frozenAreKnown_of_inv {d : Daemon ι κ} (h : Inv d) : FrozenAreKnown d := by
  intro hPhase pid p hProc hStopped
  have hAccounted := h.accounted pid p hProc hStopped
  unfold Accounted at hAccounted
  rw [hPhase] at hAccounted
  cases hAccounted with
  | inl hFrozen => exact hFrozen
  | inr hRest =>
      obtain ⟨r, hMem, -⟩ := hRest
      cases hMem

end Invariant

/-! ## Signals and ledgers under the steps -/

section Signals

variable {kill : KillSyscall} {procs : ProcTable} {pid q : Pid} {p : ProcState} {startTime : Nat}

theorem of_stop (h : stop procs pid q = some p) :
    (q = pid ∧ ∃ p₀, procs pid = some p₀ ∧ p₀.startTime = p.startTime) ∨
      q ≠ pid ∧ procs q = some p := by
  unfold stop at h
  by_cases hPid : q = pid
  · subst hPid
    rw [Function.update_self, Option.map_eq_some_iff] at h
    obtain ⟨p₀, hBefore, hAfter⟩ := h
    exact Or.inl ⟨rfl, p₀, hBefore, by rw [← hAfter]⟩
  · rw [Function.update_of_ne hPid] at h
    exact Or.inr ⟨hPid, h⟩

/-- A process that is stopped after a SIGCONT is another one. -/
theorem of_cont (h : cont procs pid q = some p) (hStopped : p.stopped = true) :
    q ≠ pid ∧ procs q = some p := by
  unfold cont at h
  by_cases hPid : q = pid
  · subst hPid
    rw [Function.update_self, Option.map_eq_some_iff] at h
    obtain ⟨p₀, -, hAfter⟩ := h
    rw [← hAfter] at hStopped
    cases hStopped
  · rw [Function.update_of_ne hPid] at h
    exact ⟨hPid, h⟩

theorem of_unfreeze (h : unfreeze kill procs pid startTime q = some p)
    (hStopped : p.stopped = true) : procs q = some p := by
  unfold unfreeze at h
  split at h
  · exact (of_cont h hStopped).2
  · exact h

/-- After a SIGCONT that did not fail, a stopped process is not the one of that
start time. -/
theorem of_unfreeze_success
    (hSuccess : (unfreezeChecked kill procs.startTime pid startTime).success = true)
    (h : unfreeze kill procs pid startTime q = some p) (hStopped : p.stopped = true) :
    ¬ (q = pid ∧ p.startTime = startTime) := by
  intro hSame
  obtain ⟨hPid, hStart⟩ := hSame
  subst hPid
  have hProc := of_unfreeze h hStopped
  have hRead : procs.startTime q = some startTime := by
    unfold ProcTable.startTime
    rw [hProc]
    exact congrArg some hStart
  unfold unfreeze contDelivered at h
  rw [decide_eq_true hRead, hSuccess] at h
  exact (of_cont h hStopped).1 rfl

/-- A SIGCONT for another process changes nothing. -/
theorem unfreeze_other (h : procs q = some p) (hOther : ¬ (q = pid ∧ p.startTime = startTime)) :
    unfreeze kill procs pid startTime q = some p := by
  unfold unfreeze
  split
  · rename_i hDelivered
    have hPid : q ≠ pid := by
      intro hEq
      subst hEq
      unfold contDelivered at hDelivered
      rw [Bool.and_eq_true, decide_eq_true_eq] at hDelivered
      have hRead := hDelivered.1
      unfold ProcTable.startTime at hRead
      rw [h] at hRead
      exact hOther ⟨rfl, Option.some.inj hRead⟩
    unfold cont
    rw [Function.update_of_ne hPid]
    exact h
  · exact h

theorem stop_none (h : procs q = none) : stop procs pid q = none := by
  unfold stop
  by_cases hPid : q = pid
  · subst hPid
    rw [Function.update_self, h]
    rfl
  · rw [Function.update_of_ne hPid]
    exact h

theorem cont_none (h : procs q = none) : cont procs pid q = none := by
  unfold cont
  by_cases hPid : q = pid
  · subst hPid
    rw [Function.update_self, h]
    rfl
  · rw [Function.update_of_ne hPid]
    exact h

theorem unfreeze_none (h : procs q = none) : unfreeze kill procs pid startTime q = none := by
  unfold unfreeze
  split
  · exact cont_none h
  · exact h

/-- An `add` records the process it finds, and leaves the others. -/
theorem isFrozen_add {reg : FrozenRegistry} (hProc : procs q = some p)
    (h : IsFrozen reg q p.startTime ∨ q = pid) (now : Nat) (name : String) :
    IsFrozen (reg.add procs.startTime now pid name).1 q p.startTime := by
  cases hStart : procs.startTime pid with
  | none =>
      unfold FrozenRegistry.add
      rw [hStart]
      cases h with
      | inl hFrozen => exact hFrozen
      | inr hPid =>
          subst hPid
          unfold ProcTable.startTime at hStart
          rw [hProc] at hStart
          cases hStart
  | some st =>
      unfold IsFrozen
      rw [FrozenRegistry.lookup_add hStart]
      by_cases hPid : q = pid
      · subst hPid
        unfold ProcTable.startTime at hStart
        rw [hProc] at hStart
        cases hStart
        rw [if_pos rfl]
        exact ⟨_, rfl, rfl⟩
      · rw [if_neg hPid]
        exact h.resolve_right hPid

theorem isFrozen_remove {reg : FrozenRegistry} (h : IsFrozen reg q startTime) (hPid : q ≠ pid) :
    IsFrozen (reg.remove pid) q startTime := by
  obtain ⟨e, hLookup, hStart⟩ := h
  refine ⟨e, ?_, hStart⟩
  rw [FrozenRegistry.lookup_remove, if_neg hPid]
  exact hLookup

end Signals

section Ledgers

variable {ι : Type u} {κ : Type v} {d : Daemon ι κ} {pid q : Pid} {startTime : Nat}

theorem add_registry (d : Daemon ι κ) (pid : Pid) (name : String) (a : Answer) :
    (d.add pid name a).registry = (d.registry.add d.procs.startTime a.now pid name).1 := by
  unfold Daemon.add FrozenRegistry.add
  cases d.procs.startTime pid <;> rfl

/-- `add` touches the registry and its file alone. -/
theorem add_frame (d : Daemon ι κ) (pid : Pid) (name : String) (a : Answer) :
    (d.add pid name a).procs = d.procs ∧ (d.add pid name a).phase = d.phase ∧
      (d.add pid name a).tracker = d.tracker ∧ (d.add pid name a).evictor = d.evictor ∧
        (d.add pid name a).clients = d.clients := by
  unfold Daemon.add
  dsimp only
  split <;> exact ⟨rfl, rfl, rfl, rfl, rfl⟩

theorem isFrozen_daemonRemove (h : IsFrozen d.registry q startTime) (hPid : q ≠ pid)
    (save : WriteResult) : IsFrozen (d.remove pid save).registry q startTime := by
  unfold Daemon.remove
  split
  · exact isFrozen_remove h hPid
  · exact h

/-- `remove` touches the registry and its file alone. -/
theorem remove_frame (d : Daemon ι κ) (pid : Pid) (save : WriteResult) :
    (d.remove pid save).procs = d.procs ∧ (d.remove pid save).phase = d.phase ∧
      (d.remove pid save).tracker = d.tracker ∧ (d.remove pid save).evictor = d.evictor ∧
        (d.remove pid save).clients = d.clients := by
  unfold Daemon.remove
  split <;> exact ⟨rfl, rfl, rfl, rfl, rfl⟩

theorem inv_of_running (hPhase : d.phase = .running)
    (hAccounted : ∀ pid p, d.procs pid = some p → p.stopped = true →
      IsFrozen d.registry pid p.startTime ∨ IsVictim d.tracker pid p.startTime ∨
        InBetween d pid p.startTime)
    (hKeyed : Keyed d.tracker)
    (hCandidate : ∀ pid, d.evictor.candidate = some pid → d.tracker.victims.lookup pid = none)
    (hZero : d.procs Pid.none = none) : Inv d where
  accounted := by
    intro pid p hProc hStopped
    unfold Accounted
    rw [hPhase]
    exact hAccounted pid p hProc hStopped
  keyed := hKeyed
  candidateNew := hCandidate
  noZero := hZero
  loaded := by
    intro rest hStarting
    rw [hPhase] at hStarting
    cases hStarting

theorem Inv.accounted_running (h : Inv d) (hPhase : d.phase = .running) {p : ProcState}
    (hProc : d.procs pid = some p) (hStopped : p.stopped = true) :
    IsFrozen d.registry pid p.startTime ∨ IsVictim d.tracker pid p.startTime ∨
      InBetween d pid p.startTime := by
  have hAccounted := h.accounted pid p hProc hStopped
  unfold Accounted at hAccounted
  rw [hPhase] at hAccounted
  exact hAccounted

/-- While the evictor holds nothing, only a connection is in between. -/
theorem client_of_inBetween (h : InBetween d pid startTime)
    (hHolds : ¬ d.evictor.Holds pid startTime) : ∃ i name, d.clients i = .stopped pid name :=
  h.resolve_left hHolds

end Ledgers

/-! ## One step of the running daemon -/

section Evictor

variable {ι : Type u} {κ : Type v} {d : Daemon ι κ}

/-- The thread that adds its process has it in between no longer; the registry has
it.  `pc` and `clients` are where the threads are after that. -/
theorem inv_add (h : Inv d) (hPhase : d.phase = .running) (pid : Pid) (name : String) (a : Answer)
    {pc : EvictorPc} {clients : ι → ClientPc}
    (hBetween : ∀ q st, InBetween d q st →
      q = pid ∨ pc.Holds q st ∨ ∃ i name', clients i = .stopped q name')
    (hCandidate : ∀ q, pc.candidate = some q → d.evictor.candidate = some q) :
    Inv { d.add pid name a with evictor := pc, clients := clients } := by
  obtain ⟨hProcs, hSamePhase, hTracker, -, -⟩ := add_frame d pid name a
  refine inv_of_running (hSamePhase.trans hPhase) ?_ ?_ ?_ ?_
  · intro q p hProc hStopped
    have hBefore : d.procs q = some p := hProcs ▸ hProc
    show IsFrozen (d.add pid name a).registry q p.startTime ∨
      IsVictim (d.add pid name a).tracker q p.startTime ∨ _
    rw [add_registry, hTracker]
    cases h.accounted_running hPhase hBefore hStopped with
    | inl hFrozen => exact Or.inl (isFrozen_add hBefore (Or.inl hFrozen) _ _)
    | inr hRest =>
        cases hRest with
        | inl hVictim => exact Or.inr (Or.inl hVictim)
        | inr hWas =>
            cases hBetween q p.startTime hWas with
            | inl hPid => exact Or.inl (isFrozen_add hBefore (Or.inr hPid) _ _)
            | inr hStill => exact Or.inr (Or.inr hStill)
  · show Keyed (d.add pid name a).tracker
    rw [hTracker]
    exact h.keyed
  · intro q hq
    show (d.add pid name a).tracker.victims.lookup q = none
    rw [hTracker]
    exact h.candidateNew q (hCandidate q hq)
  · show (d.add pid name a).procs Pid.none = none
    rw [hProcs]
    exact h.noZero

theorem inv_evictorStopped (h : Inv d) (hPhase : d.phase = .running) {pid : Pid} {name : String}
    (hPc : d.evictor = .stopped pid name) (a : Answer) (pc : EvictorPc)
    (hCandidate : pc.candidate = none) : Inv { d.add pid name a with evictor := pc } := by
  obtain ⟨-, -, -, -, hClients⟩ := add_frame d pid name a
  refine inv_add h hPhase pid name a ?_ ?_
  · intro q st hBetween
    cases hBetween with
    | inl hHolds =>
        rw [hPc] at hHolds
        exact Or.inl (Eq.symm hHolds)
    | inr hClient =>
        rw [hClients]
        exact Or.inr (Or.inr hClient)
  · intro q hq
    rw [hCandidate] at hq
    cases hq

/-- The evictor goes on without changing a ledger, and holds what it held of the
processes that are still stopped. -/
theorem inv_evictorTurns (h : Inv d) (hPhase : d.phase = .running) {procs : ProcTable}
    {pc : EvictorPc}
    (hProcs : ∀ q p, procs q = some p → p.stopped = true →
      d.procs q = some p ∧ (d.evictor.Holds q p.startTime → pc.Holds q p.startTime) ∨
        pc.Holds q p.startTime)
    (hCandidate : ∀ q, pc.candidate = some q → d.tracker.victims.lookup q = none)
    (hZero : procs Pid.none = none) : Inv { d with procs := procs, evictor := pc } := by
  refine inv_of_running hPhase ?_ h.keyed hCandidate hZero
  intro q p hProc hStopped
  cases hProcs q p hProc hStopped with
  | inl hBefore =>
      refine (h.accounted_running hPhase hBefore.1 hStopped).imp_right (Or.imp_right ?_)
      intro hBetween
      exact hBetween.imp_left hBefore.2
  | inr hHolds => exact Or.inr (Or.inr (Or.inl hHolds))

theorem inv_headroomStopped (h : Inv d) (hPhase : d.phase = .running) {v : SpikeVictim}
    (hPc : d.evictor = .headroomStopped v) (save : WriteResult) :
    Inv { d.setVictims (d.tracker.recordVictimFrozen v) save with evictor := .idle } := by
  have hNew : d.tracker.victims.lookup v.pid = none :=
    h.candidateNew v.pid (by rw [hPc]; rfl)
  have hLookup : ∀ q, (d.tracker.recordVictimFrozen v).victims.lookup q =
      if q = v.pid then some v else d.tracker.victims.lookup q :=
    fun q => lookup_insert_eq v.pid q v d.tracker.victims
  refine inv_of_running hPhase ?_ ?_ (fun q hq => by cases hq) h.noZero
  · intro q p hProc hStopped
    show IsFrozen d.registry q p.startTime ∨
      IsVictim (d.tracker.recordVictimFrozen v) q p.startTime ∨ _
    cases h.accounted_running hPhase hProc hStopped with
    | inl hFrozen => exact Or.inl hFrozen
    | inr hRest =>
        right
        cases hRest with
        | inl hVictim =>
            left
            obtain ⟨w, hw, hStart⟩ := hVictim
            have hPid : q ≠ v.pid := by
              intro hEq
              rw [hEq, hNew] at hw
              cases hw
            refine ⟨w, ?_, hStart⟩
            rw [hLookup, if_neg hPid]
            exact hw
        | inr hBetween =>
            cases hBetween with
            | inl hHolds =>
                left
                rw [hPc] at hHolds
                obtain ⟨hPid, hStart⟩ := hHolds
                refine ⟨v, ?_, hStart⟩
                rw [hLookup, if_pos hPid.symm]
            | inr hClient => exact Or.inr (Or.inr hClient)
  · intro q w hw
    have hBoth : (d.tracker.recordVictimFrozen v).victims.lookup q = some w := hw
    rw [hLookup] at hBoth
    split at hBoth
    · rename_i hPid
      cases hBoth
      exact hPid.symm
    · exact h.keyed q w hBoth

theorem inv_evictor (h : Inv d) (hPhase : d.phase = .running) {a : Answer}
    (hSpares : EvictorSpares d a) : Inv (stepEvictor d a) := by
  unfold EvictorSpares at hSpares
  unfold stepEvictor
  cases hPc : d.evictor with
  | idle => exact h
  | stopped pid name =>
      exact inv_evictorStopped h hPhase hPc a _ (by split <;> rfl)
  | rollingBack pid =>
      refine inv_evictorTurns h hPhase ?_ (fun q hq => by cases hq) ?_
      · intro q p hProc hStopped
        left
        refine ⟨?_, fun hHolds => ?_⟩
        · split at hProc
          · exact (of_cont hProc hStopped).2
          · exact hProc
        · rw [hPc] at hHolds
          cases hHolds
      · split
        · exact cont_none h.noZero
        · exact h.noZero
  | headroomChecked v =>
      rw [hPc] at hSpares
      have hNew : ∀ q, (EvictorPc.headroomStopped v).candidate = some q →
          d.tracker.victims.lookup q = none := by
        intro q hq
        exact h.candidateNew q (by rw [hPc]; exact hq)
      dsimp only
      split
      · refine inv_evictorTurns h hPhase ?_ hNew (stop_none h.noZero)
        intro q p hProc hStopped
        cases of_stop hProc with
        | inl hSame =>
            -- the SIGSTOP reached the process whose start time was read
            obtain ⟨hPid, p₀, hBefore, hStart⟩ := hSame
            exact Or.inr ⟨hPid.symm, (hSpares p₀ hBefore).symm.trans hStart⟩
        | inr hOther =>
            refine Or.inl ⟨hOther.2, fun hHolds => ?_⟩
            rw [hPc] at hHolds
            cases hHolds
      · refine inv_evictorTurns h hPhase ?_ (fun q hq => by cases hq) h.noZero
        intro q p hProc hStopped
        refine Or.inl ⟨hProc, fun hHolds => ?_⟩
        rw [hPc] at hHolds
        cases hHolds
  | headroomStopped v => exact inv_headroomStopped h hPhase hPc a.save
  | releasing rest =>
      rw [hPc] at hSpares
      cases rest with
      | nil =>
          refine inv_evictorTurns h hPhase ?_ (fun q hq => by cases hq) h.noZero
          intro q p hProc hStopped
          refine Or.inl ⟨hProc, fun hHolds => ?_⟩
          rw [hPc] at hHolds
          obtain ⟨v, hMem, -⟩ := hHolds
          cases hMem
      | cons v rest =>
          refine inv_evictorTurns h hPhase ?_ (fun q hq => by cases hq) (unfreeze_none h.noZero)
          intro q p hProc hStopped
          refine Or.inl ⟨of_unfreeze hProc hStopped, fun hHolds => ?_⟩
          have hOther := of_unfreeze_success hSpares hProc hStopped
          rw [hPc] at hHolds
          obtain ⟨w, hMem, hPid, hStart⟩ := hHolds
          cases List.mem_cons.mp hMem with
          | inl hFirst =>
              subst hFirst
              exact absurd ⟨hPid.symm, hStart.symm⟩ hOther
          | inr hRest => exact ⟨w, hRest, hPid, hStart⟩

/-- A release moves the victims that go to those the evictor holds. -/
theorem inv_release (h : Inv d) (hPhase : d.phase = .running) (hIdle : d.evictor = .idle)
    (keep : Pid → Bool) (save : WriteResult) :
    Inv { d.setVictims
        { d.tracker with victims := retain (fun pid _ => keep pid) d.tracker.victims } save with
      evictor := .releasing ((values d.tracker.victims).filter fun v => !keep v.pid) } := by
  refine inv_of_running hPhase ?_ ?_ (fun q hq => by cases hq) h.noZero
  · intro q p hProc hStopped
    cases h.accounted_running hPhase hProc hStopped with
    | inl hFrozen => exact Or.inl hFrozen
    | inr hRest =>
        right
        cases hRest with
        | inl hVictim =>
            obtain ⟨v, hLookup, hStart⟩ := hVictim
            have hPid : v.pid = q := h.keyed q v hLookup
            cases hKeep : keep q with
            | true => exact Or.inl ⟨v, lookup_retain_eq_some_iff.mpr ⟨hLookup, hKeep⟩, hStart⟩
            | false =>
                have hReleased : v ∈ (values d.tracker.victims).filter fun v => !keep v.pid := by
                  rw [List.mem_filter, mem_values_iff, hPid, hKeep]
                  exact ⟨⟨q, hLookup⟩, rfl⟩
                exact Or.inr (Or.inl ⟨v, hReleased, hPid, hStart⟩)
        | inr hBetween =>
            have hClient := client_of_inBetween hBetween (by rw [hIdle]; exact fun hHolds => hHolds)
            exact Or.inr (Or.inr hClient)
  · intro q v hLookup
    exact h.keyed q v (lookup_retain_eq_some_iff.mp hLookup).1

end Evictor

section Removal

variable {ι : Type u} {κ : Type v} {d : Daemon ι κ}

/-- A process is resumed, and then its entry removed: nothing else is lost. -/
theorem inv_remove (h : Inv d) (hPhase : d.phase = .running) (procs : ProcTable) {pid : Pid}
    (hProcs : ∀ q p, procs q = some p → p.stopped = true → d.procs q = some p)
    (hGone : ∀ p, procs pid = some p → p.stopped = true →
      ¬ IsFrozen d.registry pid p.startTime ∨ IsVictim d.tracker pid p.startTime ∨
        InBetween d pid p.startTime)
    (hZero : procs Pid.none = none) (save : WriteResult) :
    Inv ({ d with procs := procs }.remove pid save) := by
  obtain ⟨hSameProcs, hSamePhase, hTracker, hEvictor, hClients⟩ :=
    remove_frame { d with procs := procs } pid save
  refine inv_of_running (hSamePhase.trans hPhase) ?_ ?_ ?_ ?_
  · intro q p hProc hStopped
    rw [hSameProcs] at hProc
    have hBefore : d.procs q = some p := hProcs q p hProc hStopped
    have hBetweenSame : InBetween d q p.startTime →
        InBetween ({ d with procs := procs }.remove pid save) q p.startTime := by
      intro hBetween
      unfold InBetween
      rw [hEvictor, hClients]
      exact hBetween
    rw [hTracker]
    by_cases hPid : q = pid
    · subst hPid
      have hElsewhere : IsVictim d.tracker q p.startTime ∨ InBetween d q p.startTime := by
        cases hGone p hProc hStopped with
        | inl hNotFrozen =>
            exact (h.accounted_running hPhase hBefore hStopped).resolve_left hNotFrozen
        | inr hElsewhere => exact hElsewhere
      exact Or.inr (hElsewhere.imp_right hBetweenSame)
    · exact (h.accounted_running hPhase hBefore hStopped).imp
        (fun hFrozen => isFrozen_daemonRemove (d := { d with procs := procs }) hFrozen hPid save)
        (Or.imp_right hBetweenSame)
  · rw [hTracker]
    exact h.keyed
  · intro q hq
    rw [hEvictor] at hq
    rw [hTracker]
    exact h.candidateNew q hq
  · rw [hSameProcs]
    exact hZero

/-- A SIGCONT alone loses nothing. -/
theorem inv_resumed (h : Inv d) (hPhase : d.phase = .running) {procs : ProcTable}
    (hProcs : ∀ q p, procs q = some p → p.stopped = true → d.procs q = some p)
    (hZero : procs Pid.none = none) : Inv { d with procs := procs } :=
  inv_of_running hPhase (fun q p hProc hStopped =>
    h.accounted_running hPhase (hProcs q p hProc hStopped) hStopped) h.keyed h.candidateNew hZero

end Removal

section Clients

variable {ι : Type u} {κ : Type v} [DecidableEq ι] {d : Daemon ι κ}

/-- What another thread is in between with stays so. -/
theorem inBetween_setClient {i : ι} {pid : Pid} {startTime : Nat} (pc : ClientPc)
    (h : InBetween d pid startTime) (hOther : ∀ name, d.clients i ≠ .stopped pid name) :
    InBetween (d.setClient i pc) pid startTime := by
  refine h.imp_right fun hClient => ?_
  obtain ⟨j, name, hPc⟩ := hClient
  have hClientNe : j ≠ i := by
    intro hEq
    subst hEq
    exact hOther name hPc
  refine ⟨j, name, ?_⟩
  simp only [Daemon.setClient]
  rw [Function.update_of_ne hClientNe]
  exact hPc

theorem inv_clientFreeze (h : Inv d) (hPhase : d.phase = .running) {i : ι}
    (hIdle : d.clients i = .idle) (pid : Pid) (name : String) :
    Inv ({ d with procs := stop d.procs pid }.setClient i (.stopped pid name)) := by
  refine inv_of_running hPhase ?_ h.keyed h.candidateNew (stop_none h.noZero)
  intro q p hProc hStopped
  cases of_stop hProc with
  | inl hSame =>
      refine Or.inr (Or.inr (Or.inr ⟨i, name, ?_⟩))
      simp only [Daemon.setClient]
      rw [Function.update_self, hSame.1]
  | inr hOther =>
      refine (h.accounted_running hPhase hOther.2 hStopped).imp_right (Or.imp_right ?_)
      intro hBetween
      refine inBetween_setClient _ (d := { d with procs := stop d.procs pid }) hBetween ?_
      intro name' hPc
      have hBusy : d.clients i = .stopped q name' := hPc
      rw [hIdle] at hBusy
      cases hBusy

theorem inv_client (h : Inv d) (hPhase : d.phase = .running) (i : ι) (a : Answer) :
    Inv (stepClient d i a) := by
  unfold stepClient
  cases hPc : d.clients i with
  | idle => exact h
  | stopped pid name =>
      obtain ⟨-, -, -, hEvictor, hClients⟩ := add_frame d pid name a
      refine inv_add h hPhase pid name a ?_ ?_
      · intro q st hBetween
        by_cases hPid : q = pid
        · exact Or.inl hPid
        · right
          have hSame : InBetween (d.add pid name a) q st := by
            unfold InBetween
            rw [hEvictor, hClients]
            exact hBetween
          refine inBetween_setClient _ hSame fun name' hOther => hPid ?_
          rw [hClients, hPc] at hOther
          cases hOther
          rfl
      · intro q hq
        rw [hEvictor] at hq
        exact hq

end Clients

section Unfreezers

variable {ι : Type u} {κ : Type v} [DecidableEq κ] {d : Daemon ι κ}

/-- The state of the unlocked threads is no record of anything. -/
theorem inv_setUnfreezer (h : Inv d) (hPhase : d.phase = .running) (k : κ) (pc : UnfreezerPc) :
    Inv (d.setUnfreezer k pc) :=
  inv_of_running hPhase (fun _ _ hProc hStopped => h.accounted_running hPhase hProc hStopped)
    h.keyed h.candidateNew h.noZero

theorem inv_unfreezer (h : Inv d) (hPhase : d.phase = .running) {k : κ} {a : Answer}
    (hSpares : UnfreezerSpares d k) : Inv (stepUnfreezer d k a) := by
  unfold UnfreezerSpares at hSpares
  unfold stepUnfreezer
  cases hPc : d.unfreezers k with
  | idle => exact h
  | checked pid st =>
      exact inv_setUnfreezer
        (inv_resumed h hPhase (fun _ _ hProc hStopped => of_unfreeze hProc hStopped)
          (unfreeze_none h.noZero)) hPhase k _
  | resumed pid =>
      rw [hPc] at hSpares
      have hRemoved : Inv (d.remove pid a.save) :=
        inv_remove h hPhase d.procs (fun _ _ hProc _ => hProc)
          (fun p hProc hStopped => Or.inr (hSpares p hProc hStopped)) h.noZero a.save
      exact inv_setUnfreezer hRemoved ((remove_frame d pid a.save).2.1.trans hPhase) k _

end Unfreezers

section Running

variable {ι : Type u} {κ : Type v} [DecidableEq ι] [DecidableEq κ] {d : Daemon ι κ}

theorem inv_recovery (h : Inv d) (hPhase : d.phase = .running) (pid : Pid) (a : Answer) :
    Inv (stepRunning d (.recovery pid a)) := by
  unfold stepRunning
  dsimp only
  split
  · rename_i hFrozen
    obtain ⟨e, hLookup⟩ := (FrozenRegistry.isFrozen_iff d.registry pid).mp hFrozen
    have hRead : d.registry.startTime pid = e.startTime :=
      FrozenRegistry.startTime_of_lookup hLookup
    split
    · rename_i hSuccess
      refine inv_remove h hPhase _ (fun _ _ hProc hStopped => of_unfreeze hProc hStopped) ?_
        (unfreeze_none h.noZero) a.save
      intro p hProc hStopped
      -- the entry of a process that is still stopped is that of an earlier one
      left
      intro hEntry
      obtain ⟨e', hLookup', hStart⟩ := hEntry
      rw [hLookup] at hLookup'
      cases hLookup'
      exact of_unfreeze_success hSuccess hProc hStopped ⟨rfl, hStart.symm.trans hRead.symm⟩
    · exact inv_resumed h hPhase (fun _ _ hProc hStopped => of_unfreeze hProc hStopped)
        (unfreeze_none h.noZero)
  · exact h

theorem inv_running (h : Inv d) (hPhase : d.phase = .running) {m : Move ι κ}
    (hSpares : SparesStopped d m) : Inv (stepRunning d m) := by
  cases m with
  | evictorFreeze pid name kill =>
      unfold stepRunning
      dsimp only
      split
      · rename_i st hIdle hStart
        split
        · refine inv_evictorTurns h hPhase ?_ (fun q hq => by cases hq) (stop_none h.noZero)
          intro q p hProc hStopped
          cases of_stop hProc with
          | inl hSame => exact Or.inr hSame.1.symm
          | inr hOther =>
              refine Or.inl ⟨hOther.2, fun hHolds => ?_⟩
              rw [hIdle] at hHolds
              cases hHolds
        · exact h
      · exact h
  | evictorHeadroom pid name spikePid now =>
      unfold stepRunning
      dsimp only
      split
      · rename_i st hIdle hStart
        split
        · exact h
        · rename_i hNotVictim
          refine inv_evictorTurns h hPhase ?_ ?_ h.noZero
          · intro q p hProc hStopped
            refine Or.inl ⟨hProc, fun hHolds => ?_⟩
            rw [hIdle] at hHolds
            cases hHolds
          · intro q hq
            cases hq
            cases hLookup : d.tracker.victims.lookup pid with
            | none => rfl
            | some v => exact absurd (mem_keys_iff.mpr ⟨v, hLookup⟩) hNotVictim
      · exact h
  | evictorRelease keep save =>
      unfold stepRunning
      dsimp only
      split
      · exact h
      · rename_i hIdle hReleased
        exact inv_release h hPhase hIdle keep save
      · exact h
  | evictor a => exact inv_evictor h hPhase hSpares
  | clientFreeze i pid name kill =>
      unfold stepRunning
      dsimp only
      split
      · rename_i hIdle
        split
        · exact inv_clientFreeze h hPhase hIdle pid name
        · exact h
      · exact h
  | client i a => exact inv_client h hPhase i a
  | unfreeze k pid =>
      unfold stepRunning
      dsimp only
      split
      · split
        · exact inv_setUnfreezer h hPhase k _
        · exact h
      all_goals exact h
  | unfreezer k a => exact inv_unfreezer h hPhase hSpares
  | recovery pid a => exact inv_recovery h hPhase pid a
  | _ => exact h

end Running

/-! ## A crash and the next start -/

section Restart

variable {ι : Type u} {κ : Type v} {d : Daemon ι κ}

/-- **An admitted crash** leaves every stopped process in one of the files. -/
theorem accounted_crash (h : Inv d) (hSpares : CrashSpares d) {pid : Pid} {p : ProcState}
    (hProc : d.procs pid = some p) (hStopped : p.stopped = true) :
    IsFrozen (ShutdownLedger.load d.frozenFile) pid p.startTime ∨
      ∃ r ∈ d.victimsFile.read [], r.pid = pid ∧ r.startTime = p.startTime := by
  have hAccounted := h.accounted pid p hProc hStopped
  unfold Accounted at hAccounted
  unfold CrashSpares at hSpares
  cases hPhase : d.phase with
  | down =>
      rw [hPhase] at hAccounted
      exact hAccounted
  | starting rest =>
      rw [hPhase] at hAccounted hSpares
      cases hAccounted with
      | inl hFrozen =>
          rw [h.loaded rest hPhase] at hFrozen
          exact Or.inl hFrozen
      | inr hVictim =>
          obtain ⟨r, hMem, hPid, hStart⟩ := hVictim
          subst hPid
          exact Or.inr ⟨r, hSpares r hMem p hProc hStopped hStart.symm, rfl, hStart⟩
  | running =>
      rw [hPhase] at hAccounted hSpares
      obtain ⟨⟨hFrozenSaved, hVictimsSaved⟩, hNotBetween⟩ := hSpares
      cases hAccounted with
      | inl hFrozen =>
          obtain ⟨e, hLookup, hStart⟩ := hFrozen
          exact Or.inl ⟨e, hFrozenSaved pid e hLookup, hStart⟩
      | inr hRest =>
          cases hRest with
          | inl hVictim =>
              obtain ⟨v, hLookup, hStart⟩ := hVictim
              have hPid : v.pid = pid := h.keyed pid v hLookup
              exact Or.inr ⟨SpikeVictim.record v, hVictimsSaved pid v hLookup, hPid, hStart⟩
          | inr hBetween => exact absurd hBetween (hNotBetween pid p hProc hStopped)

/-- The victims of PID 0 are passed over, and no process has it. -/
theorem inv_resume (h : Inv d) {kill : KillSyscall} {r : VictimRecord} {rest : List VictimRecord}
    (hPhase : d.phase = .starting (r :: rest))
    (hSuccess : (unfreezeChecked kill d.procs.startTime r.pid r.startTime).success = true) :
    Inv (if r.pid = Pid.none then { d with phase := .starting rest }
      else
        { d with
          procs := unfreeze kill d.procs r.pid r.startTime
          phase := .starting rest }) := by
  have hRest : ∀ q p, d.procs q = some p → p.stopped = true →
      ¬ (q = r.pid ∧ p.startTime = r.startTime) →
        IsFrozen d.registry q p.startTime ∨
          ∃ r' ∈ rest, r'.pid = q ∧ r'.startTime = p.startTime := by
    intro q p hProc hStopped hOther
    have hAccounted := h.accounted q p hProc hStopped
    unfold Accounted at hAccounted
    rw [hPhase] at hAccounted
    refine hAccounted.imp_right fun hVictim => ?_
    obtain ⟨r', hMem, hPid, hStart⟩ := hVictim
    cases List.mem_cons.mp hMem with
    | inl hFirst =>
        subst hFirst
        exact absurd ⟨hPid.symm, hStart.symm⟩ hOther
    | inr hLater => exact ⟨r', hLater, hPid, hStart⟩
  have hLoaded : d.registry = ShutdownLedger.load d.frozenFile := h.loaded _ hPhase
  split
  · rename_i hZero
    refine ⟨?_, h.keyed, h.candidateNew, h.noZero, fun _ _ => hLoaded⟩
    intro q p hProc hStopped
    refine hRest q p hProc hStopped fun hSame => ?_
    have hNone : d.procs q = none := by
      rw [hSame.1, hZero]
      exact h.noZero
    have hSome : d.procs q = some p := hProc
    rw [hNone] at hSome
    cases hSome
  · refine ⟨?_, h.keyed, h.candidateNew, unfreeze_none h.noZero, fun _ _ => hLoaded⟩
    intro q p hProc hStopped
    exact hRest q p (of_unfreeze hProc hStopped) hStopped
      (of_unfreeze_success hSuccess hProc hStopped)

theorem inv_setProcess (h : Inv d) {pid : Pid} (hPid : pid ≠ Pid.none)
    (startTime : Option Nat) :
    Inv { d with procs := Function.update d.procs pid (startTime.map fun st => ⟨st, false⟩) } where
  accounted := by
    intro q p hProc hStopped
    have hUpdated : Function.update d.procs pid (startTime.map fun st => ⟨st, false⟩) q =
        some p := hProc
    by_cases hSame : q = pid
    · subst hSame
      rw [Function.update_self, Option.map_eq_some_iff] at hUpdated
      obtain ⟨st, -, hp⟩ := hUpdated
      rw [← hp] at hStopped
      cases hStopped
    · rw [Function.update_of_ne hSame] at hUpdated
      exact h.accounted q p hUpdated hStopped
  keyed := h.keyed
  candidateNew := h.candidateNew
  noZero := by
    show Function.update d.procs pid (startTime.map fun st => ⟨st, false⟩) Pid.none = none
    rw [Function.update_of_ne hPid.symm]
    exact h.noZero
  loaded := h.loaded

end Restart

/-! ## Runs -/

section Runs

variable {ι : Type u} {κ : Type v} [DecidableEq ι] [DecidableEq κ]

theorem inv_step {d : Daemon ι κ} (h : Inv d) (m : Move ι κ) (hSpares : SparesStopped d m) :
    Inv (step d m) := by
  unfold step
  split
  · split
    · exact h
    · rename_i hPid
      exact inv_setProcess h hPid _
  · refine ⟨?_, fun pid v hLookup => (by cases hLookup), fun pid hq => (by cases hq), h.noZero,
      fun rest hStarting => (by cases hStarting)⟩
    intro pid p hProc hStopped
    exact accounted_crash h hSpares hProc hStopped
  · rename_i removed hPhase
    refine ⟨?_, h.keyed, h.candidateNew, h.noZero, fun _ _ => rfl⟩
    intro pid p hProc hStopped
    have hAccounted := h.accounted pid p hProc hStopped
    unfold Accounted at hAccounted
    rw [hPhase] at hAccounted
    exact hAccounted
  · rename_i kill r rest hPhase
    have hSuccess : ResumeSpares d kill := hSpares
    unfold ResumeSpares at hSuccess
    rw [hPhase] at hSuccess
    exact inv_resume h hPhase hSuccess
  · rename_i hPhase
    refine ⟨?_, h.keyed, h.candidateNew, h.noZero, fun rest hStarting => (by cases hStarting)⟩
    intro pid p hProc hStopped
    exact Or.inl (frozenAreKnown_of_inv h hPhase pid p hProc hStopped)
  · rename_i hPhase
    exact inv_running h hPhase hSpares
  · exact h

/-- The start resumes the victims of the file and nobody else. -/
theorem run_resume (kill : KillSyscall) {pid : Pid} {p : ProcState} (rest : List VictimRecord)
    {d : Daemon ι κ} (hPhase : d.phase = .starting rest) (hProc : d.procs pid = some p)
    (hNone : ∀ r ∈ rest, ¬ (r.pid = pid ∧ r.startTime = p.startTime)) :
    (run step d (rest.map fun _ => .resume kill)).phase = .starting [] ∧
      (run step d (rest.map fun _ => .resume kill)).procs pid = some p ∧
        (run step d (rest.map fun _ => .resume kill)).registry = d.registry := by
  induction rest generalizing d with
  | nil => exact ⟨hPhase, hProc, rfl⟩
  | cons r rest ih =>
      have hLater : ∀ r' ∈ rest, ¬ (r'.pid = pid ∧ r'.startTime = p.startTime) :=
        fun r' hMem => hNone r' (List.mem_cons_of_mem r hMem)
      have hStep : step d (.resume kill) =
          if r.pid = Pid.none then { d with phase := .starting rest }
          else
            { d with
              procs := unfreeze kill d.procs r.pid r.startTime
              phase := .starting rest } := by
        simp only [step, hPhase]
      rw [List.map_cons, run_cons, hStep]
      split
      · exact ih (d := { d with phase := .starting rest }) rfl hProc hLater
      · refine ih
          (d := { d with
            procs := unfreeze kill d.procs r.pid r.startTime
            phase := .starting rest }) rfl ?_ hLater
        refine unfreeze_other hProc fun hSame => ?_
        exact hNone r List.mem_cons_self ⟨hSame.1.symm, hSame.2.symm⟩

/-- **What a crash strands.**  A stopped process that neither file has is unknown to
the next start. -/
theorem not_frozenAreKnown_of_crash (d : Daemon ι κ) {pid : Pid} {p : ProcState}
    (hProc : d.procs pid = some p) (hStopped : p.stopped = true)
    (hFrozen : ¬ IsFrozen (ShutdownLedger.load d.frozenFile) pid p.startTime)
    (hVictim : ∀ r ∈ d.victimsFile.read [], ¬ (r.pid = pid ∧ r.startTime = p.startTime))
    (removed : Bool) (kill : KillSyscall) :
    ¬ FrozenAreKnown (run step (step (step d .crash) (.load removed))
      ((d.victimsFile.read []).map fun _ => .resume kill)) := by
  intro hKnown
  obtain ⟨hPhase, hStill, hRegistry⟩ :=
    run_resume kill (d.victimsFile.read []) (d := step (step d .crash) (.load removed)) rfl hProc
      hVictim
  have hEntry := hKnown hPhase pid p hStill hStopped
  rw [hRegistry] at hEntry
  exact hFrozen hEntry

end Runs

/-! ## One frozen process -/

end Mgd.FreezeCrash
