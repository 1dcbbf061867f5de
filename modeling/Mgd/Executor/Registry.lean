import Mathlib.Data.List.Sort
import Mgd.Lib.AssocMap
import Mgd.Types

/-!
# Signals and ledgers

The executor's outcome type, the freezer's signal primitives, and the two
ledgers of what the daemon holds back: `FrozenRegistry` for stopped processes
and `CheckpointRegistry` for processes dumped to disk.

What the kernel answers is a parameter: `startTime` is the reading of field 22
of `/proc/PID/stat` (`none` when it cannot be read) and `kill` is `kill(2)`,
`none` for success and the error text otherwise.
-/

namespace Mgd.Executor.Registry

open Mgd.Types Mgd.Lib.AssocMap

/-! ## Outcomes and signals -/

structure OpResult where
  success : Bool
  error : Option String
deriving DecidableEq

def OpResult.ok : OpResult where
  success := true
  error := none

def OpResult.fail (error : String) : OpResult where
  success := false
  error := some error

inductive Signal
  | stop
  | cont
  | term
  | kill
deriving DecidableEq, Repr

/-- `kill(2)`: `none` on success, the error text otherwise. -/
abbrev KillSyscall := Pid → Signal → Option String

/-- The largest `i32`, the type `kill(2)` takes. -/
def i32Max : Nat := 2 ^ 31 - 1

def sendSignal (kill : KillSyscall) (pid : Pid) (signal : Signal) : OpResult :=
  if pid.val.toNat ≤ i32Max then
    match kill pid signal with
    | none => OpResult.ok
    | some err => OpResult.fail err
  else OpResult.fail "Invalid PID: exceeds i32 limits"

/-- SIGCONT unless the PID was recycled or is gone, which counts as done. -/
def unfreezeChecked (kill : KillSyscall) (startTime : Pid → Option Nat) (pid : Pid)
    (expectedStartTime : Nat) : OpResult :=
  match startTime pid with
  | some st => if st ≠ expectedStartTime then OpResult.ok else sendSignal kill pid .cont
  | none => OpResult.ok

/-- `unfreezeChecked` sends SIGCONT to the process of that start time, and it is
delivered. -/
def contDelivered (kill : KillSyscall) (startTime : Pid → Option Nat) (pid : Pid)
    (expectedStartTime : Nat) : Bool :=
  decide (startTime pid = some expectedStartTime) &&
    (unfreezeChecked kill startTime pid expectedStartTime).success

/-- SIGSTOP unless the PID was recycled or is gone, which is a failure. -/
def freezeChecked (kill : KillSyscall) (startTime : Pid → Option Nat) (pid : Pid)
    (expectedStartTime : Nat) : OpResult :=
  match startTime pid with
  | some st =>
      if st ≠ expectedStartTime then OpResult.fail "PID recycled — aborting freeze"
      else sendSignal kill pid .stop
  | none => OpResult.fail "process gone"

/-! ## Frozen processes -/

structure FrozenEntry where
  name : String
  /-- Unix seconds -/
  frozenAt : Nat
  /-- clock ticks since boot, for the recycle check -/
  startTime : Nat
deriving DecidableEq

structure FrozenRegistry where
  frozen : Map Pid FrozenEntry

namespace FrozenRegistry

def new : FrozenRegistry := ⟨∅⟩

/-- Record a process as frozen; `false` when its start time cannot be read. -/
def add (reg : FrozenRegistry) (startTime : Pid → Option Nat) (now : Nat) (pid : Pid)
    (name : String) : FrozenRegistry × Bool :=
  match startTime pid with
  | none => (reg, false)
  | some st => (⟨reg.frozen.insert pid ⟨name, now, st⟩⟩, true)

def remove (reg : FrozenRegistry) (pid : Pid) : FrozenRegistry := ⟨reg.frozen.erase pid⟩

def frozenPids (reg : FrozenRegistry) : List Pid := reg.frozen.keys

def frozenAt (reg : FrozenRegistry) (pid : Pid) : Nat :=
  match reg.frozen.lookup pid with
  | some e => e.frozenAt
  | none => 0

def name (reg : FrozenRegistry) (pid : Pid) : String :=
  match reg.frozen.lookup pid with
  | some e => e.name
  | none => ""

def startTime (reg : FrozenRegistry) (pid : Pid) : Nat :=
  match reg.frozen.lookup pid with
  | some e => e.startTime
  | none => 0

def isFrozen (reg : FrozenRegistry) (pid : Pid) : Bool := (reg.frozen.lookup pid).isSome

def count (reg : FrozenRegistry) : Nat := reg.frozen.keys.length

theorem isFrozen_iff (reg : FrozenRegistry) (pid : Pid) :
    reg.isFrozen pid = true ↔ ∃ e, reg.frozen.lookup pid = some e :=
  Option.isSome_iff_exists

theorem mem_frozenPids_iff (reg : FrozenRegistry) (pid : Pid) :
    pid ∈ reg.frozenPids ↔ reg.isFrozen pid = true := by
  rw [isFrozen_iff]
  exact mem_keys_iff

/-- `add` succeeds exactly when the start time can be read. -/
theorem add_success (reg : FrozenRegistry) (startTime : Pid → Option Nat) (now : Nat) (pid : Pid)
    (name : String) : (reg.add startTime now pid name).2 = (startTime pid).isSome := by
  unfold add
  split
  · next h => rw [h, Option.isSome_none]
  · next h => rw [h, Option.isSome_some]

/-- A successful `add` records exactly its own process. -/
theorem lookup_add {startTime : Pid → Option Nat} {st : Nat} {pid : Pid}
    (hst : startTime pid = some st) (reg : FrozenRegistry) (now : Nat) (name : String)
    (pid' : Pid) :
    (reg.add startTime now pid name).1.frozen.lookup pid' =
      if pid' = pid then some ⟨name, now, st⟩ else reg.frozen.lookup pid' := by
  unfold add
  rw [hst]
  exact lookup_insert_eq pid pid' _ _

theorem lookup_remove (reg : FrozenRegistry) (pid pid' : Pid) :
    (reg.remove pid).frozen.lookup pid' =
      if pid' = pid then none else reg.frozen.lookup pid' :=
  lookup_erase_eq pid pid' _

theorem isFrozen_remove_self (reg : FrozenRegistry) (pid : Pid) :
    (reg.remove pid).isFrozen pid = false := by
  unfold isFrozen
  rw [lookup_remove, if_pos rfl]
  rfl

/-- The start time read for a recorded process is that of its entry. -/
theorem startTime_of_lookup {reg : FrozenRegistry} {pid : Pid} {e : FrozenEntry}
    (h : reg.frozen.lookup pid = some e) : reg.startTime pid = e.startTime := by
  unfold startTime
  rw [h]

end FrozenRegistry

/-! ## Checkpointed processes -/

structure CheckpointEntry where
  name : String
  snapshotDir : String
  rss : Kb
  attempts : Nat
deriving DecidableEq

structure CheckpointRegistry where
  checkpointed : Map Pid CheckpointEntry

namespace CheckpointRegistry

def new : CheckpointRegistry := ⟨∅⟩

def add (reg : CheckpointRegistry) (pid : Pid) (name snapshotDir : String) (rss : Kb) :
    CheckpointRegistry :=
  ⟨reg.checkpointed.insert pid ⟨name, snapshotDir, rss, 0⟩⟩

def remove (reg : CheckpointRegistry) (pid : Pid) : CheckpointRegistry :=
  ⟨reg.checkpointed.erase pid⟩

def incrementAttempts (reg : CheckpointRegistry) (pid : Pid) : CheckpointRegistry :=
  ⟨adjust pid (fun e => { e with attempts := e.attempts + 1 }) reg.checkpointed⟩

/-- The entries, lightest first.  The order among equals is that of the hash
map, which is unspecified. -/
def entriesLightestFirst (reg : CheckpointRegistry) : List (Pid × CheckpointEntry) :=
  (reg.checkpointed.entries.map (fun e => (e.1, e.2))).insertionSort
    (fun a b => a.2.rss.val ≤ b.2.rss.val)

def count (reg : CheckpointRegistry) : Nat := reg.checkpointed.keys.length

theorem lookup_add (reg : CheckpointRegistry) (pid : Pid) (name snapshotDir : String) (rss : Kb)
    (pid' : Pid) :
    (reg.add pid name snapshotDir rss).checkpointed.lookup pid' =
      if pid' = pid then some ⟨name, snapshotDir, rss, 0⟩ else reg.checkpointed.lookup pid' :=
  lookup_insert_eq pid pid' _ _

theorem lookup_remove (reg : CheckpointRegistry) (pid pid' : Pid) :
    (reg.remove pid).checkpointed.lookup pid' =
      if pid' = pid then none else reg.checkpointed.lookup pid' :=
  lookup_erase_eq pid pid' _

theorem mem_entriesLightestFirst_iff {reg : CheckpointRegistry} {pid : Pid}
    {e : CheckpointEntry} :
    (pid, e) ∈ reg.entriesLightestFirst ↔ reg.checkpointed.lookup pid = some e := by
  unfold entriesLightestFirst
  rw [List.mem_insertionSort, List.mem_map, lookup_eq_some_iff]
  constructor
  · intro h
    obtain ⟨entry, hMem, hEntry⟩ := h
    cases hEntry
    exact hMem
  · intro h
    exact ⟨⟨pid, e⟩, h, rfl⟩

/-- The first entry is a lightest one. -/
theorem lightest_of_cons {reg : CheckpointRegistry} {pid : Pid} {e : CheckpointEntry}
    {rest : List (Pid × CheckpointEntry)} (h : reg.entriesLightestFirst = (pid, e) :: rest) :
    ∀ pid' e', reg.checkpointed.lookup pid' = some e' → e.rss.val ≤ e'.rss.val := by
  have hSorted : reg.entriesLightestFirst.Pairwise fun a b => a.2.rss.val ≤ b.2.rss.val := by
    have : Std.Total fun a b : Pid × CheckpointEntry => a.2.rss.val ≤ b.2.rss.val :=
      ⟨fun a b => Nat.le_total _ _⟩
    have : IsTrans (Pid × CheckpointEntry) fun a b => a.2.rss.val ≤ b.2.rss.val :=
      ⟨fun a b c => Nat.le_trans⟩
    exact List.pairwise_insertionSort _ _
  intro pid' e' hEntry
  have hMem := mem_entriesLightestFirst_iff.mpr hEntry
  rw [h] at hSorted hMem
  cases List.mem_cons.mp hMem with
  | inl hSame =>
      cases hSame
      exact Nat.le_refl _
  | inr hRest => exact (List.pairwise_cons.mp hSorted).1 (pid', e') hRest

theorem lookup_incrementAttempts (reg : CheckpointRegistry) (pid pid' : Pid) :
    (reg.incrementAttempts pid).checkpointed.lookup pid' =
      if pid' = pid then
        (reg.checkpointed.lookup pid).map fun e => { e with attempts := e.attempts + 1 }
      else reg.checkpointed.lookup pid' :=
  lookup_adjust_eq pid pid' _ _

end CheckpointRegistry

end Mgd.Executor.Registry
