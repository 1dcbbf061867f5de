import Mgd.Lib.Run
import Mgd.ManualRelease

/-!
# Ledger entries and the processes they stand for

Both ledgers record a start time with each PID, and the releases compare it.  The
lists of processes to leave alone are made of the PIDs only: a process that gets
the PID of a frozen process that died is left out of planning, idle reclaim,
throttling, headroom freezes and the execution of the plan as long as the entry
is there, and recovery drops no entry under pressure.

`ownEntry_of_noTakeover` : that a PID passes on while a ledger, the evictor's
hand or its process list still names it is the only way to be left out by the
entry of another process.
-/

namespace Mgd.LedgerIdentity

open Mgd.Types Mgd.Monitor Mgd.Lib.AssocMap Mgd.Lib.Run Mgd.Executor.Registry Mgd.SpikeMode
open Mgd.Evictor.Spike
open Mgd.Evictor.CollectiveRelease (Keyed keyed_new)

/-! ## Processes and ledgers -/

/-- The last process to get a PID. -/
structure Holder where
  /-- clock ticks since boot -/
  startTime : Nat
  alive : Bool
deriving DecidableEq

/-- A row of `list_processes`, with the start time of its process. -/
structure Listed where
  pid : Pid
  startTime : Nat
deriving DecidableEq

/-- A headroom freeze under way. -/
inductive Hand
  | empty
  /-- the start time has been read -/
  | read (pid : Pid) (startTime : Nat)
  /-- and checked, and SIGSTOP sent -/
  | stopped (pid : Pid) (startTime : Nat)
deriving DecidableEq

structure Machine where
  holders : Map Pid Holder
  frozen : FrozenRegistry
  spikeTracker : SpikeTracker
  hand : Hand
  /-- the process list of the cycle -/
  procs : List Listed

def start (holders : Map Pid Holder) : Machine where
  holders := holders
  frozen := .new
  spikeTracker := .new
  hand := .empty
  procs := []

def Machine.readStartTime (s : Machine) (readable : Bool) (pid : Pid) : Option Nat :=
  match s.holders.lookup pid with
  | some h => if h.alive && readable then some h.startTime else none
  | none => none

/-- Where processes are left out. -/
inductive Use
  | throttle
  | idleReclaim
  | headroom
  | plan
  | executePlan

/-- The PID is left out as that of a frozen process.  The planner and the headroom
freeze leave out the spikes as well, for being spikes. -/
def leftOut (s : Machine) (pid : Pid) : Use → Bool
  | .throttle | .idleReclaim =>
      decide (pid ∈ excludedPids s.frozen.frozenPids s.spikeTracker false)
  | .headroom | .plan =>
      decide (pid ∈ excludedPids s.frozen.frozenPids s.spikeTracker true) &&
        decide (pid ∉ s.spikeTracker.spikePids)
  | .executePlan => s.frozen.isFrozen pid

inductive Move
  | starts (pid : Pid) (startTime : Nat)
  | exits (pid : Pid)
  | listProcesses (visible : Pid → Bool)
  /-- `FrozenRegistry::add` -/
  | addFrozen (pid : Pid) (name : String) (now : Nat) (readable : Bool)
  /-- a release by recovery, the focus or `mgctl` -/
  | removeFrozen (pid : Pid)
  /-- the releases and the update of the spike-mode cycle -/
  | spikeUpdate (inp : SpikeInput)
  | readVictim (pid : Pid) (readable : Bool)
  | stopVictim (readable : Bool)
  | recordVictim (name : String) (spikePid : Pid) (now : Instant)
  /-- a new daemon, with the registry from the disk -/
  | restart
  | use (u : Use)

/-- A PID is free when no process has it, and its next process is younger. -/
def startProcess (holders : Map Pid Holder) (pid : Pid) (startTime : Nat) : Map Pid Holder :=
  match holders.lookup pid with
  | none => holders.insert pid ⟨startTime, true⟩
  | some h =>
      if h.alive ∨ startTime ≤ h.startTime then holders
      else holders.insert pid ⟨startTime, true⟩

def step (s : Machine) : Move → Machine
  | .starts pid startTime => { s with holders := startProcess s.holders pid startTime }
  | .exits pid => { s with holders := adjust pid (fun h => { h with alive := false }) s.holders }
  | .listProcesses visible =>
      { s with
        procs := s.holders.entries.filterMap fun e =>
          if e.2.alive && visible e.1 then some ⟨e.1, e.2.startTime⟩ else none }
  | .addFrozen pid name now readable =>
      { s with frozen := (s.frozen.add (s.readStartTime readable) now pid name).1 }
  | .removeFrozen pid => { s with frozen := s.frozen.remove pid }
  | .spikeUpdate inp =>
      { s with spikeTracker := (spikeDecisions (releaseVictims s.spikeTracker inp).1 inp).1 }
  | .readVictim pid readable =>
      match s.readStartTime readable pid with
      | some st => { s with hand := .read pid st }
      | none => { s with hand := .empty }
  | .stopVictim readable =>
      match s.hand with
      | .read pid st =>
          if s.readStartTime readable pid = some st then { s with hand := .stopped pid st }
          else { s with hand := .empty }
      | _ => s
  | .recordVictim name spikePid now =>
      match s.hand with
      | .stopped pid st =>
          { s with
            spikeTracker := s.spikeTracker.recordVictimFrozen ⟨pid, name, st, spikePid, now⟩
            hand := .empty }
      | _ => s
  | .restart => { s with spikeTracker := .new, hand := .empty, procs := [] }
  | .use _ => s

/-! ## The property -/

/-- A ledger holds an entry for this very process. -/
def Recorded (s : Machine) (p : Listed) : Prop :=
  (∃ e, s.frozen.frozen.lookup p.pid = some e ∧ e.startTime = p.startTime) ∨
    ∃ v, s.spikeTracker.victims.lookup p.pid = some v ∧ v.startTime = p.startTime

/-- Whom a use leaves out as frozen, a ledger has recorded. -/
def OwnEntry (s : Machine) : Move → Prop
  | .use u => ∀ p ∈ s.procs, leftOut s p.pid u = true → Recorded s p
  | _ => True

/-- The PID the headroom freeze is about. -/
def Hand.names : Hand → Pid → Prop
  | .empty, _ => False
  | .read pid _, other => other = pid
  | .stopped pid _, other => other = pid

/-- A process starts on a PID that no ledger names, nor the hand, nor the list. -/
def NoTakeover (s : Machine) : Move → Prop
  | .starts pid _ =>
      s.frozen.isFrozen pid = false ∧ pid ∉ s.spikeTracker.victimPids ∧ ¬ s.hand.names pid ∧
        pid ∉ s.procs.map Listed.pid
  | _ => True

/-! ## The entries are those of the holders -/

/-- The start time is that of the last process to get the PID. -/
def LastOf (holders : Map Pid Holder) (pid : Pid) (startTime : Nat) : Prop :=
  (holders.lookup pid).map Holder.startTime = some startTime

def Hand.start : Hand → Option (Pid × Nat)
  | .empty => none
  | .read pid st => some (pid, st)
  | .stopped pid st => some (pid, st)

structure Inv (s : Machine) : Prop where
  frozen : ∀ pid e, s.frozen.frozen.lookup pid = some e → LastOf s.holders pid e.startTime
  victims : ∀ pid v, s.spikeTracker.victims.lookup pid = some v →
    LastOf s.holders pid v.startTime
  hand : ∀ e, s.hand.start = some e → LastOf s.holders e.1 e.2
  listed : ∀ p ∈ s.procs, LastOf s.holders p.pid p.startTime
  keyed : Keyed s.spikeTracker

section Steps

variable {s : Machine}

theorem inv_start (holders : Map Pid Holder) : Inv (start holders) where
  frozen pid e h := by cases h
  victims pid v h := by cases h
  hand e h := by cases h
  listed p h := by cases h
  keyed := keyed_new

theorem lastOf_of_read {readable : Bool} {pid : Pid} {st : Nat}
    (h : s.readStartTime readable pid = some st) : LastOf s.holders pid st := by
  unfold Machine.readStartTime at h
  unfold LastOf
  cases hHolder : s.holders.lookup pid with
  | none =>
      rw [hHolder] at h
      cases h
  | some holder =>
      rw [hHolder] at h
      dsimp only at h
      split at h
      · exact h
      · cases h

theorem lookup_startProcess {holders : Map Pid Holder} {pid other : Pid} (st : Nat)
    (hOther : other ≠ pid) :
    (startProcess holders pid st).lookup other = holders.lookup other := by
  unfold startProcess
  split
  · rw [lookup_insert_eq, if_neg hOther]
  · split
    · rfl
    · rw [lookup_insert_eq, if_neg hOther]

/-- Holders that change nothing but PIDs nobody names. -/
theorem Inv.of_holders (h : Inv s) {holders : Map Pid Holder}
    (hLast : ∀ pid st, LastOf s.holders pid st →
      (s.frozen.isFrozen pid = true ∨ pid ∈ s.spikeTracker.victimPids ∨ s.hand.names pid ∨
        pid ∈ s.procs.map Listed.pid) → LastOf holders pid st) :
    Inv { s with holders := holders } where
  frozen pid e hEntry :=
    hLast pid _ (h.frozen pid e hEntry) (Or.inl ((s.frozen.isFrozen_iff pid).mpr ⟨e, hEntry⟩))
  victims pid v hVictim :=
    hLast pid _ (h.victims pid v hVictim)
      (Or.inr (Or.inl (SpikeTracker.mem_victimPids_iff.mpr ⟨v, hVictim⟩)))
  hand e hHand := by
    refine hLast e.1 e.2 (h.hand e hHand) (Or.inr (Or.inr (Or.inl ?_)))
    cases hState : s.hand with
    | empty =>
        rw [hState] at hHand
        cases hHand
    | read pid st =>
        rw [hState] at hHand
        cases hHand
        rfl
    | stopped pid st =>
        rw [hState] at hHand
        cases hHand
        rfl
  listed p hp :=
    hLast p.pid _ (h.listed p hp) (Or.inr (Or.inr (Or.inr (List.mem_map_of_mem hp))))
  keyed := h.keyed

theorem inv_starts (h : Inv s) {pid : Pid} {st : Nat} (hFree : NoTakeover s (.starts pid st)) :
    Inv (step s (.starts pid st)) := by
  obtain ⟨hFrozen, hVictim, hHand, hListed⟩ := hFree
  refine h.of_holders fun other st' hLast hNamed => ?_
  have hOther : other ≠ pid := by
    rintro rfl
    rcases hNamed with hF | hV | hH | hL
    · rw [hFrozen] at hF
      cases hF
    · exact hVictim hV
    · exact hHand hH
    · exact hListed hL
  unfold LastOf
  rw [lookup_startProcess st hOther]
  exact hLast

theorem inv_exits (h : Inv s) (pid : Pid) : Inv (step s (.exits pid)) := by
  refine h.of_holders fun other st hLast _ => ?_
  unfold LastOf at hLast ⊢
  rw [lookup_adjust_eq]
  split
  · next hSame =>
      rw [← hSame, Option.map_map]
      exact hLast
  · exact hLast

theorem inv_listProcesses (h : Inv s) (visible : Pid → Bool) :
    Inv (step s (.listProcesses visible)) where
  frozen := h.frozen
  victims := h.victims
  hand := h.hand
  listed p hp := by
    obtain ⟨e, he, hRow⟩ := List.mem_filterMap.mp hp
    split at hRow
    · cases hRow
      unfold LastOf
      have hHolder : s.holders.lookup e.1 = some e.2 := lookup_eq_some_iff.mpr he
      show (s.holders.lookup e.1).map Holder.startTime = some e.2.startTime
      rw [hHolder]
      rfl
    · cases hRow
  keyed := h.keyed

theorem inv_addFrozen (h : Inv s) (pid : Pid) (name : String) (now : Nat) (readable : Bool) :
    Inv (step s (.addFrozen pid name now readable)) where
  frozen other e hEntry := by
    cases hRead : s.readStartTime readable pid with
    | none =>
        have hSame : (s.frozen.add (s.readStartTime readable) now pid name).1 = s.frozen := by
          unfold FrozenRegistry.add
          rw [hRead]
        have hOld : s.frozen.frozen.lookup other = some e := hSame ▸ hEntry
        exact h.frozen other e hOld
    | some st =>
        have hLookup := FrozenRegistry.lookup_add hRead s.frozen now name other
        have hNew := hLookup.symm.trans hEntry
        split at hNew
        · next hSame =>
            cases hNew
            rw [hSame]
            exact lastOf_of_read hRead
        · exact h.frozen other e hNew
  victims := h.victims
  hand := h.hand
  listed := h.listed
  keyed := h.keyed

theorem inv_removeFrozen (h : Inv s) (pid : Pid) : Inv (step s (.removeFrozen pid)) where
  frozen other e hEntry := by
    have hOld := (FrozenRegistry.lookup_remove s.frozen pid other).symm.trans hEntry
    split at hOld
    · cases hOld
    · exact h.frozen other e hOld
  victims := h.victims
  hand := h.hand
  listed := h.listed
  keyed := h.keyed

/-- The spike-mode cycle adds no victim before its headroom freeze. -/
theorem inv_spikeUpdate (h : Inv s) (inp : SpikeInput) : Inv (step s (.spikeUpdate inp)) := by
  have hConserves := ManualRelease.conserves_signalled h.keyed inp
  exact ⟨h.frozen, fun pid v hVictim => h.victims pid v (hConserves.lookup hVictim), h.hand,
    h.listed, hConserves.keyed h.keyed⟩

theorem inv_readVictim (h : Inv s) (pid : Pid) (readable : Bool) :
    Inv (step s (.readVictim pid readable)) := by
  unfold step
  dsimp only
  split
  · next st hRead =>
      refine ⟨h.frozen, h.victims, fun e hHand => ?_, h.listed, h.keyed⟩
      cases hHand
      exact lastOf_of_read hRead
  · exact ⟨h.frozen, h.victims, nofun, h.listed, h.keyed⟩

theorem inv_stopVictim (h : Inv s) (readable : Bool) : Inv (step s (.stopVictim readable)) := by
  unfold step
  dsimp only
  split
  · next pid st hHand =>
      split
      · next hSame =>
          refine ⟨h.frozen, h.victims, fun e hStart => ?_, h.listed, h.keyed⟩
          cases hStart
          exact lastOf_of_read hSame
      · exact ⟨h.frozen, h.victims, nofun, h.listed, h.keyed⟩
  · exact h

theorem inv_recordVictim (h : Inv s) (name : String) (spikePid : Pid) (now : Instant) :
    Inv (step s (.recordVictim name spikePid now)) := by
  unfold step
  dsimp only
  split
  · next pid st hHand =>
      have hLast : LastOf s.holders pid st := by
        have hStart : s.hand.start = some (pid, st) := by
          rw [hHand]
          rfl
        exact h.hand (pid, st) hStart
      refine ⟨h.frozen, fun other v hVictim => ?_, nofun, h.listed, fun other v hVictim => ?_⟩
      · have hOld := (lookup_insert_eq pid other _ _).symm.trans hVictim
        split at hOld
        · next hSame =>
            cases hOld
            rw [hSame]
            exact hLast
        · exact h.victims other v hOld
      · have hOld := (lookup_insert_eq pid other _ _).symm.trans hVictim
        split at hOld
        · next hSame =>
            cases hOld
            exact hSame.symm
        · exact h.keyed other v hOld
  · exact h

/-- **One step** that hands no named PID on. -/
theorem inv_step (h : Inv s) {m : Move} (hFree : NoTakeover s m) : Inv (step s m) := by
  cases m with
  | starts pid st => exact inv_starts h hFree
  | exits pid => exact inv_exits h pid
  | listProcesses visible => exact inv_listProcesses h visible
  | addFrozen pid name now readable => exact inv_addFrozen h pid name now readable
  | removeFrozen pid => exact inv_removeFrozen h pid
  | spikeUpdate inp => exact inv_spikeUpdate h inp
  | readVictim pid readable => exact inv_readVictim h pid readable
  | stopVictim readable => exact inv_stopVictim h readable
  | recordVictim name spikePid now => exact inv_recordVictim h name spikePid now
  | restart =>
      exact ⟨h.frozen, nofun, nofun, nofun, keyed_new⟩
  | use u => exact h

/-- A PID is left out when a ledger names it. -/
theorem named_of_leftOut {pid : Pid} {u : Use} (h : leftOut s pid u = true) :
    (∃ e, s.frozen.frozen.lookup pid = some e) ∨
      ∃ v, s.spikeTracker.victims.lookup pid = some v := by
  rw [← s.frozen.isFrozen_iff, ← SpikeTracker.mem_victimPids_iff]
  cases u <;>
    simp only [leftOut, excludedPids, Bool.and_eq_true, decide_eq_true_eq, List.mem_append,
      if_true, Bool.false_eq_true, if_false, s.frozen.mem_frozenPids_iff] at h
  · exact h
  · exact h
  · exact h.1.resolve_right h.2
  · exact h.1.resolve_right h.2
  · exact Or.inl h

theorem ownEntry_of_inv (h : Inv s) (m : Move) : OwnEntry s m := by
  cases m with
  | use u =>
      intro p hp hLeft
      have hListed := h.listed p hp
      unfold LastOf at hListed
      cases named_of_leftOut hLeft with
      | inl hFrozen =>
          obtain ⟨e, hEntry⟩ := hFrozen
          have hLast := h.frozen p.pid e hEntry
          unfold LastOf at hLast
          rw [hListed] at hLast
          exact Or.inl ⟨e, hEntry, (Option.some.inj hLast).symm⟩
      | inr hVictim =>
          obtain ⟨v, hVictim⟩ := hVictim
          have hLast := h.victims p.pid v hVictim
          unfold LastOf at hLast
          rw [hListed] at hLast
          exact Or.inr ⟨v, hVictim, (Option.some.inj hLast).symm⟩
  | _ => trivial

end Steps

/--
**When an entry stands for its own process.**  In every run in which a process
starts only on PIDs that no ledger names, nor the headroom freeze under way, nor
the process list in use, a process is left out as frozen only when a ledger has
recorded its start time with its PID.
-/
theorem ownEntry_of_noTakeover (holders : Map Pid Holder) (moves : List Move)
    (hFree : EveryStep step NoTakeover (start holders) moves) :
    EveryStep step OwnEntry (start holders) moves :=
  everyStep_of_invariant (fun _ _ h hMove => inv_step h hMove)
    (fun _ m h _ => ownEntry_of_inv h m) (inv_start holders) hFree

/-- A player is frozen and left out of the plan; it is released and exits, and a
compiler gets its PID and is stopped for a spike. -/
def playerThenCompiler : List Move :=
  [.starts ⟨1234⟩ 500, .addFrozen ⟨1234⟩ "player" 0 true, .listProcesses fun _ => true, .use .plan,
    .removeFrozen ⟨1234⟩, .exits ⟨1234⟩, .listProcesses fun _ => true, .starts ⟨1234⟩ 900,
    .readVictim ⟨1234⟩ true, .stopVictim true, .recordVictim "rustc" ⟨4000⟩ 30,
    .listProcesses fun _ => true]

/-- The planner leaves the compiler out as well, by an entry of its own. -/
theorem ownEntry_player :
    leftOut (run step (start ∅) (playerThenCompiler.take 3)) ⟨1234⟩ .plan = true ∧
      leftOut (run step (start ∅) playerThenCompiler) ⟨1234⟩ .plan = true ∧
      EveryStep step OwnEntry (start ∅) (playerThenCompiler ++ [.use .plan]) := by
  have hFree : EveryStep step NoTakeover (start ∅) (playerThenCompiler ++ [.use .plan]) := by
    refine ⟨⟨rfl, ?_, fun h => h, ?_⟩, trivial, trivial, trivial, trivial, trivial, trivial,
      ⟨rfl, ?_, fun h => h, ?_⟩, trivial, trivial, trivial, trivial, trivial, trivial⟩
    · decide
    · decide
    · decide +kernel
    · decide +kernel
  exact ⟨by decide +kernel, by decide +kernel, ownEntry_of_noTakeover ∅ _ hFree⟩

/-- The player dies, a compiler gets its PID, and the planner leaves out the
compiler. -/
theorem compiler_left_out :
    ¬ EveryStep step OwnEntry (start ∅)
      ([.starts ⟨1234⟩ 500, .addFrozen ⟨1234⟩ "player" 0 true, .exits ⟨1234⟩,
        .starts ⟨1234⟩ 900, .listProcesses fun _ => true] ++ [.use .plan]) := by
  intro hRun
  have hOwn := hRun.at_split ⟨⟨1234⟩, 900⟩ (by decide +kernel) (by decide +kernel)
  cases hOwn with
  | inl hEntry =>
      obtain ⟨e, hLookup, hStart⟩ := hEntry
      cases hLookup
      exact absurd hStart (by decide)
  | inr hVictim =>
      obtain ⟨v, hLookup, -⟩ := hVictim
      cases hLookup

end Mgd.LedgerIdentity
