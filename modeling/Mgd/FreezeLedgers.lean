import Mathlib.Logic.Function.Basic
import Mgd.Evictor.Spike
import Mgd.Lib.Run

/-!
# The two ledgers of stopped processes

A stopped process is recorded in `FrozenRegistry`, which all threads share, or
among the victims of `SpikeTracker`, which the evictor owns.  Four paths stop
processes, and they look at different ledgers before they do:

* `FreezeForHeadroom` of the evictor reads both once, for its exclusion list,
  and then goes through its candidates;
* `execute_plan` and the idle freeze of the evictor do the same, and
  `execute_plan` looks at the registry again for each process;
* `mgctl freeze`, in the thread of its connection, looks at the registry only.

A step is one access to the registry under its lock, or one signal; `ι` indexes
the connections.  Removals by `mgctl unfreeze`, by the focus handlers and by the
recovery pass are single steps: they only ever shrink a ledger.
-/

namespace Mgd.FreezeLedgers

open Mgd.Types Mgd.Monitor Mgd.Config Mgd.Lib.AssocMap Mgd.Lib.Greedy Mgd.Lib.Run
open Mgd.SpikeMode Mgd.Executor.Registry Mgd.Evictor.Spike

universe u

/-! ## The threads -/

/-- The evictor's two ways to fill the registry. -/
inductive FreezePath
  | executePlan
  | idleFreeze
deriving DecidableEq

inductive EvictorPc
  | idle
  | headroom (needed : Kb) (spikePid : Pid) (rest : List Process)
  /-- SIGSTOP done, `record_victim_frozen` still to come. -/
  | headroomStopped (needed : Kb) (spikePid : Pid) (p : Process) (startTime : Nat)
      (rest : List Process)
  | freezing (path : FreezePath) (rest : List Process)
  /-- The registry does not hold the process, or was not asked. -/
  | checked (path : FreezePath) (p : Process) (rest : List Process)
  /-- SIGSTOP done, `add` still to come. -/
  | stopped (path : FreezePath) (p : Process) (rest : List Process)

/-- A connection that serves `mgctl freeze`. -/
inductive ClientPc
  | idle
  | freezing (rest : List Process)
  | checked (p : Process) (rest : List Process)
  | stopped (p : Process) (rest : List Process)

structure World (ι : Type u) where
  frozen : FrozenRegistry
  tracker : SpikeTracker
  evictor : EvictorPc
  clients : ι → ClientPc

/-- What the system answers a thread during a step. -/
structure Answer where
  /-- the start time of the process at hand -/
  startTime : Option Nat
  /-- SIGSTOP was delivered -/
  signalled : Bool
  now : Instant
  /-- Unix seconds -/
  unixNow : Nat

inductive Move (ι : Type u)
  /-- The evictor starts on a `FreezeForHeadroom` decision. -/
  | evictorHeadroom (inp : SpikeInput) (needed : Kb)
  /-- The evictor starts on the freezes of a plan, or on the idle freeze, with
  processes from the list it excluded the ledgers from. -/
  | evictorFreeze (path : FreezePath) (procs : List Process)
  | evictor (a : Answer)
  /-- A release of `SpikeTracker`: the victims that stay. -/
  | evictorRelease (keep : Pid → Bool)
  | clientFreeze (i : ι) (procs : List Process)
  | client (i : ι) (a : Answer)
  /-- `mgctl unfreeze` or a focus handler removes an entry. -/
  | remove (pid : Pid)
  /-- The recovery pass resumes a process and removes its entry, under the lock. -/
  | recovery (pid : Pid)

section Steps

variable {ι : Type u} [DecidableEq ι]

/-- The exclusion list of the evictor, read now. -/
def World.excluded (w : World ι) (includeSpikePids : Bool) : List Pid :=
  excludedPids w.frozen.frozenPids w.tracker includeSpikePids

def stepHeadroom (w : World ι) (a : Answer) (needed : Kb) (spikePid : Pid) :
    List Process → World ι
  | [] => { w with evictor := .idle }
  | p :: rest =>
      if needed.val = 0 then { w with evictor := .idle }
      else
        match a.startTime with
        | none => { w with evictor := .headroom needed spikePid rest }
        | some st =>
            if a.signalled then { w with evictor := .headroomStopped needed spikePid p st rest }
            else { w with evictor := .headroom needed spikePid rest }

def stepEvictor (w : World ι) (a : Answer) : World ι :=
  match w.evictor with
  | .idle => w
  | .headroom needed spikePid rest => stepHeadroom w a needed spikePid rest
  | .headroomStopped needed spikePid p st rest =>
      let victim : SpikeVictim :=
        { pid := p.pid
          name := p.name
          startTime := st
          frozenForSpikePid := spikePid
          frozenAt := a.now }
      { w with
        tracker := w.tracker.recordVictimFrozen victim
        evictor := .headroom (needed.saturatingSub p.rssKb) spikePid rest }
  | .freezing _ [] => { w with evictor := .idle }
  | .freezing path (p :: rest) =>
      if path = .executePlan ∧ w.frozen.isFrozen p.pid = true then
        { w with evictor := .freezing path rest }
      else { w with evictor := .checked path p rest }
  | .checked path p rest =>
      if a.signalled then { w with evictor := .stopped path p rest }
      else { w with evictor := .freezing path rest }
  | .stopped path p rest =>
      -- a process whose start time is gone is resumed and not recorded
      { w with
        frozen := (w.frozen.add (fun _ => a.startTime) a.unixNow p.pid p.name).1
        evictor := .freezing path rest }

def World.setClient (w : World ι) (i : ι) (pc : ClientPc) : World ι :=
  { w with clients := Function.update w.clients i pc }

/-- The loop of `cmd_freeze`. -/
def stepClient (w : World ι) (i : ι) (a : Answer) : World ι :=
  match w.clients i with
  | .idle => w
  | .freezing [] => w.setClient i .idle
  | .freezing (p :: rest) =>
      if w.frozen.isFrozen p.pid then w.setClient i (.freezing rest)
      else w.setClient i (.checked p rest)
  | .checked p rest =>
      if a.signalled then w.setClient i (.stopped p rest) else w.setClient i (.freezing rest)
  | .stopped p rest =>
      { w with
        frozen := (w.frozen.add (fun _ => a.startTime) a.unixNow p.pid p.name).1 }.setClient i
          (.freezing rest)

/-- One step; a thread that has nothing to do, or something else, stays. -/
def step (w : World ι) : Move ι → World ι
  | .evictorHeadroom inp needed =>
      match w.evictor with
      | .idle =>
          { w with
            evictor := .headroom needed (w.tracker.spikePids.head?.getD Pid.none)
              (headroomCandidates w.tracker { inp with frozenPids := w.frozen.frozenPids }) }
      | _ => w
  | .evictorFreeze path procs =>
      match w.evictor with
      | .idle =>
          { w with
            evictor := .freezing path
              (procs.filter fun p => decide (p.pid ∉ w.excluded (decide (path = .executePlan)))) }
      | _ => w
  | .evictor a => stepEvictor w a
  | .evictorRelease keep =>
      match w.evictor with
      | .idle =>
          { w with
            tracker :=
              { w.tracker with victims := retain (fun pid _ => keep pid) w.tracker.victims } }
      | _ => w
  | .clientFreeze i procs =>
      match w.clients i with
      | .idle => w.setClient i (.freezing procs)
      | _ => w
  | .client i a => stepClient w i a
  | .remove pid => { w with frozen := w.frozen.remove pid }
  | .recovery pid => { w with frozen := w.frozen.remove pid }

/-- The registry as the last run of the daemon left it, and no victim. -/
def World.start (frozen : FrozenRegistry) : World ι where
  frozen := frozen
  tracker := SpikeTracker.new
  evictor := .idle
  clients := fun _ => .idle

end Steps

/-! ## What is promised, and what breaks it -/

section Promise

variable {ι : Type u}

/-- No process is in both ledgers. -/
def OneLedger (w : World ι) : Prop :=
  ∀ pid, pid ∈ w.tracker.victimPids → w.frozen.isFrozen pid = false

/-- The recovery pass does not resume a victim. -/
def RecoverySpares (w : World ι) : Move ι → Prop
  | .recovery pid => w.frozen.isFrozen pid = true → pid ∉ w.tracker.victimPids
  | _ => True

/-- `mgctl freeze` records no victim, and the headroom freeze records no process
that came into the registry since its exclusion list was read. -/
def RecordsElsewhere (w : World ι) : Move ι → Prop
  | .client i a =>
      match w.clients i with
      | .stopped p _ => a.startTime ≠ none → p.pid ∉ w.tracker.victimPids
      | _ => True
  | .evictor _ =>
      match w.evictor with
      | .headroomStopped _ _ p _ _ => w.frozen.isFrozen p.pid = false
      | _ => True
  | _ => True

/-- The processes the evictor may still put into the registry. -/
def EvictorPc.pending : EvictorPc → List Process
  | .freezing _ rest => rest
  | .checked _ p rest => p :: rest
  | .stopped _ p rest => p :: rest
  | .idle | .headroom .. | .headroomStopped .. => []

/-- The evictor owns the victims, so those it left out of its list stay out of
it until it is done. -/
def PendingSpared (w : World ι) : Prop :=
  ∀ p ∈ w.evictor.pending, p.pid ∉ w.tracker.victimPids

variable {w : World ι}

/-- Releasing only takes victims away. -/
theorem mem_victimPids_of_retain {t : SpikeTracker} {keep : Pid → Bool} {pid : Pid}
    (h : pid ∈ { t with victims := retain (fun pid _ => keep pid) t.victims }.victimPids) :
    pid ∈ t.victimPids := by
  rw [SpikeTracker.mem_victimPids_iff] at h ⊢
  obtain ⟨v, hv⟩ := h
  exact ⟨v, (lookup_retain_eq_some_iff.mp hv).1⟩

/-- Whatever takes entries away keeps the ledgers apart. -/
theorem OneLedger.shrink {w' : World ι} (h : OneLedger w)
    (hVictims : ∀ pid, pid ∈ w'.tracker.victimPids → pid ∈ w.tracker.victimPids)
    (hFrozen : ∀ pid, w'.frozen.isFrozen pid = true → w.frozen.isFrozen pid = true) :
    OneLedger w' := by
  intro pid hVictim
  rw [← Bool.not_eq_true]
  intro hRec
  have hApart : w.frozen.isFrozen pid = false := h pid (hVictims pid hVictim)
  rw [hFrozen pid hRec] at hApart
  cases hApart

/-- A step that leaves both ledgers alone. -/
theorem OneLedger.of_same {w' : World ι} (h : OneLedger w) (hFrozen : w'.frozen = w.frozen)
    (hTracker : w'.tracker = w.tracker) : OneLedger w' := by
  unfold OneLedger
  rw [hFrozen, hTracker]
  exact h

theorem isFrozen_of_remove {reg : FrozenRegistry} {pid pid' : Pid}
    (h : (reg.remove pid').isFrozen pid = true) : reg.isFrozen pid = true := by
  rw [FrozenRegistry.isFrozen_iff] at h ⊢
  obtain ⟨e, he⟩ := h
  rw [FrozenRegistry.lookup_remove] at he
  split at he
  · cases he
  · exact ⟨e, he⟩

/-- An `add` with a readable start time records its own process and no other. -/
theorem isFrozen_add (reg : FrozenRegistry) (st now : Nat) (name : String) (pid pid' : Pid) :
    (reg.add (fun _ => some st) now pid name).1.isFrozen pid' = true ↔
      pid' = pid ∨ reg.isFrozen pid' = true := by
  have hLookup : (reg.add (fun _ => some st) now pid name).1.frozen.lookup pid' =
      if pid' = pid then some ⟨name, now, st⟩ else reg.frozen.lookup pid' :=
    FrozenRegistry.lookup_add rfl reg now name pid'
  rw [FrozenRegistry.isFrozen_iff, FrozenRegistry.isFrozen_iff, hLookup]
  by_cases h : pid' = pid
  · simp [h]
  · simp [h]

/-- **An `add`** keeps the ledgers apart exactly when it records no victim. -/
theorem oneLedger_add_iff (h : OneLedger w) (startTime : Option Nat) (now : Nat) (pid : Pid)
    (name : String) :
    OneLedger { w with frozen := (w.frozen.add (fun _ => startTime) now pid name).1 } ↔
      (startTime ≠ none → pid ∉ w.tracker.victimPids) := by
  cases startTime with
  | none => exact iff_of_true h (fun hNone => absurd rfl hNone)
  | some st =>
      constructor
      · intro hAdded _ hVictim
        have hApart := hAdded pid hVictim
        have hRec := (isFrozen_add w.frozen st now name pid pid).mpr (Or.inl rfl)
        rw [show _ = false from hApart] at hRec
        cases hRec
      · intro hOther pid' hVictim
        rw [← Bool.not_eq_true]
        intro hRec
        cases (isFrozen_add w.frozen st now name pid pid').mp hRec with
        | inl hEq => exact hOther (Option.some_ne_none st) (hEq ▸ hVictim)
        | inr hBefore =>
            have hApart : w.frozen.isFrozen pid' = false := h pid' hVictim
            rw [hBefore] at hApart
            cases hApart

/-- **A new victim** keeps the ledgers apart exactly when the registry does not
hold it. -/
theorem oneLedger_record_iff (h : OneLedger w) (v : SpikeVictim) :
    OneLedger { w with tracker := w.tracker.recordVictimFrozen v } ↔
      w.frozen.isFrozen v.pid = false := by
  constructor
  · intro hRecorded
    exact hRecorded v.pid (SpikeTracker.mem_victimPids_record.mpr (Or.inl rfl))
  · intro hOther pid hVictim
    cases SpikeTracker.mem_victimPids_record.mp hVictim with
    | inl hEq =>
        rw [hEq]
        exact hOther
    | inr hBefore => exact h pid hBefore

theorem recoverySpares_of_oneLedger (h : OneLedger w) (m : Move ι) : RecoverySpares w m := by
  cases m with
  | recovery pid =>
      intro hRec hVictim
      rw [h pid hVictim] at hRec
      cases hRec
  | _ => trivial

theorem pendingSpared_start (frozen : FrozenRegistry) :
    PendingSpared (World.start frozen : World ι) :=
  fun _ hp => absurd hp List.not_mem_nil

theorem oneLedger_start (frozen : FrozenRegistry) : OneLedger (World.start frozen : World ι) :=
  fun _ hVictim => absurd hVictim List.not_mem_nil

theorem stepHeadroom_frame (w : World ι) (a : Answer) (needed : Kb) (spikePid : Pid)
    (rest : List Process) :
    (stepHeadroom w a needed spikePid rest).frozen = w.frozen ∧
      (stepHeadroom w a needed spikePid rest).tracker = w.tracker ∧
      (stepHeadroom w a needed spikePid rest).evictor.pending = [] := by
  cases rest with
  | nil => exact ⟨rfl, rfl, rfl⟩
  | cons p rest =>
      by_cases hNeeded : needed.val = 0
      · simp [stepHeadroom, hNeeded, EvictorPc.pending]
      · cases hStart : a.startTime with
        | none => simp [stepHeadroom, hNeeded, hStart, EvictorPc.pending]
        | some st =>
            cases hSignalled : a.signalled with
            | true => simp [stepHeadroom, hNeeded, hStart, hSignalled, EvictorPc.pending]
            | false => simp [stepHeadroom, hNeeded, hStart, hSignalled, EvictorPc.pending]

end Promise

/-! ## Runs -/

section Runs

variable {ι : Type u} [DecidableEq ι] {w : World ι}

/-- What the evictor has pending it had before, or left the victims out of. -/
theorem pendingSpared_step (h : PendingSpared w) (m : Move ι) : PendingSpared (step w m) := by
  cases m with
  | evictorHeadroom inp needed =>
      unfold step
      dsimp only
      split
      · exact fun p hp => absurd hp List.not_mem_nil
      · exact h
  | evictorFreeze path procs =>
      unfold step
      dsimp only
      split
      · intro p hp
        have hExcluded : p.pid ∉ w.excluded (decide (path = .executePlan)) :=
          of_decide_eq_true (List.mem_filter.mp hp).2
        intro hVictim
        apply hExcluded
        unfold World.excluded excludedPids
        split
        · simp only [List.mem_append]
          exact Or.inl (Or.inr hVictim)
        · exact List.mem_append_right _ hVictim
      · exact h
  | evictor a =>
      show PendingSpared (stepEvictor w a)
      unfold stepEvictor
      split
      · exact h
      · next needed spikePid rest hPc =>
          intro p hp
          rw [(stepHeadroom_frame w a needed spikePid rest).2.2] at hp
          cases hp
      · exact fun p hp => absurd hp List.not_mem_nil
      · exact fun p hp => absurd hp List.not_mem_nil
      · next path first rest hPc =>
          have hPending : ∀ p ∈ first :: rest, p.pid ∉ w.tracker.victimPids := by
            intro p hp
            exact h p (by rw [hPc]; exact hp)
          split
          · exact fun p hp => hPending p (List.mem_cons_of_mem first hp)
          · exact hPending
      · next path first rest hPc =>
          have hPending : ∀ p ∈ first :: rest, p.pid ∉ w.tracker.victimPids := by
            intro p hp
            exact h p (by rw [hPc]; exact hp)
          split
          · exact hPending
          · exact fun p hp => hPending p (List.mem_cons_of_mem first hp)
      · next path first rest hPc =>
          intro p hp
          exact h p (by rw [hPc]; exact List.mem_cons_of_mem first hp)
  | evictorRelease keep =>
      unfold step
      dsimp only
      split
      · next hIdle =>
          intro p hp
          have hNone : w.evictor.pending = [] := by
            rw [hIdle]
            rfl
          rw [show _ = [] from hNone] at hp
          cases hp
      · exact h
  | clientFreeze i procs =>
      unfold step
      dsimp only
      split <;> exact h
  | client i a =>
      show PendingSpared (stepClient w i a)
      unfold stepClient
      split
      · exact h
      · exact h
      · split <;> exact h
      · split <;> exact h
      · exact h
  | remove pid => exact h
  | recovery pid => exact h

/-- **One step** keeps the ledgers apart exactly when it records elsewhere. -/
theorem oneLedger_step_iff (hPending : PendingSpared w) (h : OneLedger w) (m : Move ι) :
    OneLedger (step w m) ↔ RecordsElsewhere w m := by
  cases m with
  | evictorHeadroom inp needed =>
      refine iff_of_true ?_ trivial
      unfold step
      dsimp only
      split <;> exact h
  | evictorFreeze path procs =>
      refine iff_of_true ?_ trivial
      unfold step
      dsimp only
      split <;> exact h
  | evictor a =>
      show OneLedger (stepEvictor w a) ↔ _
      unfold stepEvictor RecordsElsewhere
      dsimp only
      cases hPc : w.evictor with
      | idle => exact iff_of_true h trivial
      | headroom needed spikePid rest =>
          obtain ⟨hFrozen, hTracker, -⟩ := stepHeadroom_frame w a needed spikePid rest
          exact iff_of_true (h.of_same hFrozen hTracker) trivial
      | headroomStopped needed spikePid p st rest => exact oneLedger_record_iff h _
      | freezing path rest =>
          refine iff_of_true ?_ trivial
          cases rest with
          | nil => exact h
          | cons p rest =>
              dsimp only
              split <;> exact h
      | checked path p rest =>
          refine iff_of_true ?_ trivial
          dsimp only
          split <;> exact h
      | stopped path p rest =>
          have hOther : p.pid ∉ w.tracker.victimPids :=
            hPending p (by rw [hPc]; exact List.mem_cons_self)
          exact iff_of_true
            ((oneLedger_add_iff h a.startTime a.unixNow p.pid p.name).mpr fun _ => hOther) trivial
  | evictorRelease keep =>
      refine iff_of_true ?_ trivial
      unfold step
      dsimp only
      split
      · exact h.shrink (fun _ hVictim => mem_victimPids_of_retain hVictim) (fun _ hRec => hRec)
      · exact h
  | clientFreeze i procs =>
      refine iff_of_true ?_ trivial
      unfold step
      dsimp only
      split <;> exact h
  | client i a =>
      show OneLedger (stepClient w i a) ↔ _
      unfold stepClient RecordsElsewhere
      dsimp only
      cases hPc : w.clients i with
      | idle => exact iff_of_true h trivial
      | freezing rest =>
          refine iff_of_true ?_ trivial
          cases rest with
          | nil => exact h
          | cons p rest =>
              dsimp only
              split <;> exact h
      | checked p rest =>
          refine iff_of_true ?_ trivial
          dsimp only
          split <;> exact h
      | stopped p rest => exact oneLedger_add_iff h a.startTime a.unixNow p.pid p.name
  | remove pid =>
      exact iff_of_true (h.shrink (fun _ hVictim => hVictim) fun _ => isFrozen_of_remove) trivial
  | recovery pid =>
      exact iff_of_true (h.shrink (fun _ hVictim => hVictim) fun _ => isFrozen_of_remove) trivial

/-- Along a run that keeps the ledgers apart the recovery pass resumes no
victim. -/
theorem recoverySpares_of_always {moves : List (Move ι)} (h : Always step OneLedger w moves) :
    EveryStep step RecoverySpares w moves := by
  induction moves generalizing w with
  | nil => trivial
  | cons m rest ih => exact ⟨recoverySpares_of_oneLedger h.1 m, ih h.2⟩

/--
**When there is one ledger.**  In a run of the threads from the daemon's start no
process is ever in both ledgers, and the recovery pass resumes no victim, exactly
when every `mgctl freeze` records a process that is no victim and every headroom
freeze one that is not in the registry.
-/
theorem oneLedger_iff (frozen : FrozenRegistry) (moves : List (Move ι)) :
    (Always step OneLedger (World.start frozen) moves ∧
        EveryStep step RecoverySpares (World.start frozen) moves) ↔
      EveryStep step RecordsElsewhere (World.start frozen) moves := by
  have hIff : Always step OneLedger (World.start frozen) moves ↔
      EveryStep step RecordsElsewhere (World.start frozen) moves :=
    always_iff_everyStep (fun _ m _ hInv _ _ => pendingSpared_step hInv m)
      (fun _ m _ hInv hOne => oneLedger_step_iff hInv hOne m)
      (everyStep_true (World.start frozen) moves) (pendingSpared_start frozen)
      (oneLedger_start frozen)
  constructor
  · intro h
    exact hIff.mp h.1
  · intro h
    exact ⟨hIff.mpr h, recoverySpares_of_always (hIff.mpr h)⟩

/-! ## A headroom pass without company -/

/-- What the system answers the headroom pass for one process. -/
def headroomAnswer (inp : SpikeInput) (p : Process) : Answer where
  startTime := inp.startTime p.pid
  signalled :=
    match inp.startTime p.pid with
    | some st => (freezeChecked inp.kill inp.startTime p.pid st).success
    | none => false
  now := inp.now
  unixNow := 0

/-- The steps of a pass over the processes. -/
def headroomMoves (inp : SpikeInput) : Kb → List Process → List (Move ι)
  | _, [] => [.evictor ⟨none, false, 0, 0⟩]
  | needed, p :: rest =>
      if needed.val = 0 then [.evictor (headroomAnswer inp p)]
      else if (headroomAnswer inp p).signalled then
        .evictor (headroomAnswer inp p) :: .evictor (headroomAnswer inp p) ::
          headroomMoves inp (needed.saturatingSub p.rssKb) rest
      else .evictor (headroomAnswer inp p) :: headroomMoves inp needed rest

/-- **A pass that no other thread interrupts is `freezeForHeadroom`.** -/
theorem run_headroomMoves (inp : SpikeInput) (spikePid : Pid) (procs : List Process) (needed : Kb)
    (w : World ι) (hPc : w.evictor = .headroom needed spikePid procs) :
    run step w (headroomMoves inp needed procs) =
      { w with
        tracker := freezeForHeadroom inp spikePid needed procs w.tracker
        evictor := .idle } := by
  induction procs generalizing needed w with
  | nil => simp [headroomMoves, step, stepEvictor, stepHeadroom, hPc, freezeForHeadroom]
  | cons p rest ih =>
      by_cases hNeeded : needed.val = 0
      · simp [headroomMoves, step, stepEvictor, stepHeadroom, hPc, freezeForHeadroom, hNeeded]
      · cases hStart : inp.startTime p.pid with
        | none =>
            have hSkip : step w (.evictor (headroomAnswer inp p)) =
                { w with evictor := .headroom needed spikePid rest } := by
              simp [step, stepEvictor, stepHeadroom, hPc, hNeeded, headroomAnswer, hStart]
            have hSignal : (headroomAnswer inp p).signalled = false := by
              simp [headroomAnswer, hStart]
            simp only [headroomMoves, hNeeded, hSignal, if_false, Bool.false_eq_true, run_cons,
              hSkip]
            rw [ih needed _ rfl]
            simp [freezeForHeadroom, hNeeded, hStart]
        | some st =>
            cases hFreeze : (freezeChecked inp.kill inp.startTime p.pid st).success with
            | false =>
                have hSignal : (headroomAnswer inp p).signalled = false := by
                  simp [headroomAnswer, hStart, hFreeze]
                have hSkip : step w (.evictor (headroomAnswer inp p)) =
                    { w with evictor := .headroom needed spikePid rest } := by
                  simp [step, stepEvictor, stepHeadroom, hPc, hNeeded, headroomAnswer, hStart,
                    hFreeze]
                simp only [headroomMoves, hNeeded, hSignal, if_false, Bool.false_eq_true, run_cons,
                  hSkip]
                rw [ih needed _ rfl]
                simp [freezeForHeadroom, hNeeded, hStart, hFreeze]
            | true =>
                have hSignal : (headroomAnswer inp p).signalled = true := by
                  simp [headroomAnswer, hStart, hFreeze]
                have hStop : step w (.evictor (headroomAnswer inp p)) =
                    { w with evictor := .headroomStopped needed spikePid p st rest } := by
                  simp [step, stepEvictor, stepHeadroom, hPc, hNeeded, headroomAnswer, hStart,
                    hFreeze]
                simp only [headroomMoves, hNeeded, hSignal, if_false, if_true, run_cons, hStop]
                have hRecord := ih (needed.saturatingSub p.rssKb)
                  (step { w with evictor := .headroomStopped needed spikePid p st rest }
                    (.evictor (headroomAnswer inp p))) rfl
                rw [hRecord]
                simp [step, stepEvictor, freezeForHeadroom, hNeeded, hStart, hFreeze,
                  headroomAnswer]

end Runs

/-! ## A victim frozen by hand -/

def tab : Process where
  pid := ⟨1234⟩
  name := "firefox"
  exeBasename := none
  rssKb := Kb.clamp 800000
  swapKb := Kb.clamp 0
  oomScore := 0
  cgroupPath := none
  cpuPct := 0
  majflt := 0
  cmdline := ""

/-- A headroom pass over the tab alone. -/
def tabInput : SpikeInput where
  cfg := { CompiledConfig.ofEmpty 15 with entries := [⟨Regex.exact "firefox", 80, none⟩] }
  procs := [tab]
  available := Kb.clamp 100000
  manualRelease := []
  foregroundPid := none
  activePid := none
  frozenPids := []
  startTime := fun _ => some 54321
  kill := fun _ _ => none
  now := 0

/-- The process is there and takes its signals. -/
def alive : Answer where
  startTime := some 54321
  signalled := true
  now := 0
  unixNow := 1751700000

/-- The evictor freezes the tab for headroom, and `mgctl freeze firefox`, which
does not find it in the registry, freezes it again. -/
def freezeVictimByHand : List (Move Unit) :=
  [.evictorHeadroom tabInput (Kb.clamp 500000), .evictor alive, .evictor alive,
    .clientFreeze () [tab], .client () alive, .client () alive, .client () alive]

theorem freezeVictimByHand_in_both :
    ¬ (Always step OneLedger (World.start .new) freezeVictimByHand ∧
        EveryStep step RecoverySpares (World.start .new) freezeVictimByHand) := by
  intro hRun
  have hVictim : tab.pid ∈
      (run step (World.start .new) freezeVictimByHand).tracker.victimPids := by decide +kernel
  have hRec : (run step (World.start .new) freezeVictimByHand).frozen.isFrozen tab.pid = true := by
    decide +kernel
  rw [hRun.1.last tab.pid hVictim] at hRec
  cases hRec

end Mgd.FreezeLedgers
