import Mgd.Evictor.CollectiveRelease

/-!
# Unfreezing the active window

A plugin reports the PID of the active window.  The handler of the message looks
the PID up in `FrozenRegistry` and, when it is there, spawns a thread that sends
SIGCONT and removes the entry.  The evictor's next cycle does the same for a PID
that is new to it, when the cycle is a full one, and then runs the spike-mode
cycle.  Neither looks for the PID among the victims of `SpikeTracker`; those leave
by the releases of the spike-mode cycle or not at all.

The first part says which victims a spike-mode cycle lets go, and that it sends
SIGCONT to them.  The second interleaves the handler with the cycle.
-/

namespace Mgd.FocusUnfreeze

open Mgd.Types Mgd.Monitor Mgd.Config Mgd.Lib.AssocMap Mgd.Lib.Greedy Mgd.Lib.Run
open Mgd.SpikeMode Mgd.Executor.Registry Mgd.Evictor.Spike Mgd.Evictor.CollectiveRelease

/-! ## Whom a spike-mode cycle lets go -/

/-- A Tracking spike is still running. -/
def StillTracking (t : SpikeTracker) (procs : List Process) : Prop :=
  ∃ pid s, t.spikes.lookup pid = some s ∧ s.phase = .tracking ∧ pid ∈ procs.map Process.pid

/-- The victims of a decision. -/
def decisionReleases : SpikeDecision → List SpikeVictim
  | .releaseVictims victims => victims
  | .freezeForHeadroom _ => []
  | .throttleSpike _ _ => []
  | .restoreThrottle _ _ => []

/-- The victims the cycle sends SIGCONT to. -/
def signalled (t : SpikeTracker) (inp : SpikeInput) : List SpikeVictim :=
  (releaseVictims t inp).2 ++
    (spikeDecisions (releaseVictims t inp).1 inp).2.flatMap decisionReleases

section Release

variable {t : SpikeTracker} {inp : SpikeInput} {pid : Pid} {v : SpikeVictim}

theorem anyTracking_of_erase {spikes : Map Pid SpikeState} {spikePid : Pid}
    (h : anyTracking (spikes.erase spikePid) = true) : anyTracking spikes = true := by
  obtain ⟨q, s, hLookup, hPhase⟩ := anyTracking_iff.mp h
  rw [lookup_erase_eq] at hLookup
  split at hLookup
  · cases hLookup
  · exact anyTracking_iff.mpr ⟨q, s, hLookup, hPhase⟩

theorem exitSpikes_cons (t : SpikeTracker) (spikePid : Pid) (rest : List Pid) :
    (exitSpikes t (spikePid :: rest)).1 = (exitSpikes (t.onSpikeExit spikePid).1 rest).1 := by
  unfold exitSpikes
  rw [List.foldl_cons, foldl_exitOne_fst]
  rfl

theorem anyTracking_of_exitSpikes {exited : List Pid}
    (h : anyTracking (exitSpikes t exited).1.spikes = true) : anyTracking t.spikes = true := by
  induction exited generalizing t with
  | nil => exact h
  | cons spikePid rest ih =>
      rw [exitSpikes_cons] at h
      have hRest := ih h
      rw [onSpikeExit_spikes] at hRest
      exact anyTracking_of_erase hRest

/-- While a spike is Tracking to the end, the exits release nobody. -/
theorem exitSpikes_victims {exited : List Pid}
    (h : anyTracking (exitSpikes t exited).1.spikes = true) :
    (exitSpikes t exited).1.victims = t.victims := by
  induction exited generalizing t with
  | nil => rfl
  | cons spikePid rest ih =>
      rw [exitSpikes_cons] at h ⊢
      have hErased := anyTracking_of_exitSpikes h
      rw [onSpikeExit_spikes] at hErased
      rw [ih h]
      unfold SpikeTracker.onSpikeExit
      rw [drainIfNoneTracking_of_tracking hErased]

theorem lookup_exitSpikes_of_mem {exited : List Pid} {spikePid : Pid} (h : spikePid ∈ exited) :
    (exitSpikes t exited).1.spikes.lookup spikePid = none := by
  induction exited generalizing t with
  | nil => cases h
  | cons first rest ih =>
      rw [exitSpikes_cons]
      by_cases hRest : spikePid ∈ rest
      · exact ih hRest
      · have hFirst : spikePid = first := (List.mem_cons.mp h).resolve_right hRest
        have hKept : (exitSpikes (t.onSpikeExit first).1 rest).1.spikes.lookup spikePid =
            (t.onSpikeExit first).1.spikes.lookup spikePid := foldl_exitOne_lookup hRest _
        rw [hKept, onSpikeExit_spikes, lookup_erase_eq, if_pos hFirst]

theorem mem_exitedSpikes_iff {procs : List Process} {pid : Pid} : pid ∈ exitedSpikes t procs ↔
    (∃ s, t.spikes.lookup pid = some s) ∧ pid ∉ procs.map Process.pid := by
  unfold exitedSpikes SpikeTracker.spikePids
  rw [List.mem_filter, mem_keys_iff, decide_eq_true_eq]

/-- The releases forget the spikes that have exited, and no other. -/
theorem releaseVictims_spikes_lookup (pid : Pid) :
    (releaseVictims t inp).1.spikes.lookup pid =
      if pid ∈ inp.procs.map Process.pid then t.spikes.lookup pid else none := by
  split
  · next hLive => exact releaseVictims_lookup hLive
  · next hGone =>
      unfold releaseVictims
      simp only [releaseRequested_spikes, drainOrphanedVictims_spikes,
        drainTimedOutVictims_spikes]
      by_cases hMem : pid ∈ exitedSpikes t inp.procs
      · exact lookup_exitSpikes_of_mem hMem
      · refine (foldl_exitOne_lookup hMem (t, [])).trans ?_
        rw [Option.eq_none_iff_forall_ne_some]
        exact fun s hs => hMem (mem_exitedSpikes_iff.mpr ⟨⟨s, hs⟩, hGone⟩)

/-- Past the exits a spike is Tracking exactly when a running one was. -/
theorem anyTracking_exitSpikes_iff {procs : List Process} :
    anyTracking (exitSpikes t (exitedSpikes t procs)).1.spikes = true ↔
      StillTracking t procs := by
  rw [anyTracking_iff]
  constructor
  · intro h
    obtain ⟨q, s, hLookup, hPhase⟩ := h
    have hLive : q ∉ exitedSpikes t procs := by
      intro hMem
      rw [lookup_exitSpikes_of_mem hMem] at hLookup
      cases hLookup
    have hBefore : t.spikes.lookup q = some s :=
      (foldl_exitOne_lookup hLive (t, [])).symm.trans hLookup
    refine ⟨q, s, hBefore, hPhase, ?_⟩
    by_contra hGone
    exact hLive (mem_exitedSpikes_iff.mpr ⟨⟨s, hBefore⟩, hGone⟩)
  · intro h
    obtain ⟨q, s, hLookup, hPhase, hRunning⟩ := h
    have hLive : q ∉ exitedSpikes t procs := fun hMem =>
      (mem_exitedSpikes_iff.mp hMem).2 hRunning
    exact ⟨q, s, (foldl_exitOne_lookup hLive (t, [])).trans hLookup, hPhase⟩

end Release

/-! ## The handler and the cycle -/

/-- A process that becomes the active window, and the evictor's next cycle.  Its
readings of start times and its signals are those of the handler as well. -/
structure Episode where
  pid : Pid
  startTime : Nat
  /-- a full cycle, not a timeout of the PSI wait -/
  full : Bool
  inp : SpikeInput

inductive HandlerPc
  /-- The active window is set, the registry not yet looked at. -/
  | notified
  /-- The registry held the process, with this start time. -/
  | checked (startTime : Nat)
  /-- SIGCONT done, `remove` still to come. -/
  | resumed
  | done
deriving DecidableEq

inductive EvictorPc
  | start
  | checked (startTime : Nat)
  | resumed
  /-- The focus is dealt with, the spike-mode cycle still to come. -/
  | spikes
  | done
deriving DecidableEq

structure World where
  frozen : FrozenRegistry
  tracker : SpikeTracker
  lastActivePid : Option Pid
  handler : HandlerPc
  evictor : EvictorPc
  /-- the process got SIGCONT -/
  resumed : Bool

inductive Move
  | handler
  | evictor
deriving DecidableEq

section Steps

variable (ep : Episode)

/-- What the spike-mode cycle of the episode is given in a state. -/
def Episode.input (frozen : FrozenRegistry) : SpikeInput :=
  { ep.inp with
    foregroundPid := some ep.pid
    activePid := some ep.pid
    frozenPids := frozen.frozenPids }

def Episode.unfreeze (startTime : Nat) : OpResult :=
  unfreezeChecked ep.inp.kill ep.inp.startTime ep.pid startTime

/-- SIGCONT behind the recycle check reaches the process. -/
def Episode.delivered (startTime : Nat) : Bool :=
  contDelivered ep.inp.kill ep.inp.startTime ep.pid startTime

def stepHandler (w : World) : World :=
  match w.handler with
  | .notified =>
      if w.frozen.isFrozen ep.pid then
        { w with handler := .checked (w.frozen.startTime ep.pid) }
      else { w with handler := .done }
  | .checked st =>
      if (ep.unfreeze st).success then
        { w with handler := .resumed, resumed := w.resumed || ep.delivered st }
      else { w with handler := .done }
  | .resumed => { w with frozen := w.frozen.remove ep.pid, handler := .done }
  | .done => w

def stepEvictor (w : World) : World :=
  match w.evictor with
  | .start =>
      if ep.full then
        if some ep.pid ≠ w.lastActivePid ∧ w.frozen.isFrozen ep.pid = true then
          { w with
            lastActivePid := some ep.pid
            evictor := .checked (w.frozen.startTime ep.pid) }
        else { w with lastActivePid := some ep.pid, evictor := .spikes }
      else { w with evictor := .spikes }
  | .checked st =>
      if (ep.unfreeze st).success then
        { w with evictor := .resumed, resumed := w.resumed || ep.delivered st }
      else { w with evictor := .spikes }
  | .resumed => { w with frozen := w.frozen.remove ep.pid, evictor := .spikes }
  | .spikes =>
      { w with
        tracker := (runSpikeCycle w.tracker (ep.input w.frozen)).1
        resumed := w.resumed ||
          (signalled w.tracker (ep.input w.frozen)).any fun v =>
            decide (v.pid = ep.pid) && ep.delivered v.startTime
        evictor := .done }
  | .done => w

def step (w : World) : Move → World
  | .handler => stepHandler ep w
  | .evictor => stepEvictor ep w

end Steps

/-! ## What is promised -/

section Promise

variable (ep : Episode)

/-- A ledger holds this process. -/
def Holds (frozen : FrozenRegistry) (t : SpikeTracker) : Prop :=
  (∃ e, frozen.frozen.lookup ep.pid = some e ∧ e.startTime = ep.startTime) ∨
    ∃ v, t.victims.lookup ep.pid = some v ∧ v.startTime = ep.startTime

/-- The process takes its SIGCONT. -/
def Accepts : Prop := (sendSignal ep.inp.kill ep.pid .cont).success = true

variable {ep}

theorem accepts_of_delivered {st : Nat} (h : ep.delivered st = true) : Accepts ep := by
  unfold Episode.delivered contDelivered at h
  rw [Bool.and_eq_true, decide_eq_true_eq] at h
  obtain ⟨hStart, hSuccess⟩ := h
  unfold unfreezeChecked at hSuccess
  rw [hStart] at hSuccess
  simpa [Accepts] using hSuccess

/-- The process of a live episode takes SIGCONT under its own start time, and an
entry of an earlier process is dropped without one. -/
theorem unfreeze_success (hAlive : ep.inp.startTime ep.pid = some ep.startTime)
    (hAccepts : Accepts ep) (st : Nat) : (ep.unfreeze st).success = true := by
  unfold Episode.unfreeze unfreezeChecked
  rw [hAlive]
  dsimp only
  split
  · rfl
  · exact hAccepts

theorem delivered_of_accepts (hAlive : ep.inp.startTime ep.pid = some ep.startTime)
    (hAccepts : Accepts ep) : ep.delivered ep.startTime = true := by
  unfold Episode.delivered contDelivered
  rw [Bool.and_eq_true, decide_eq_true_eq]
  exact ⟨hAlive, unfreeze_success hAlive hAccepts ep.startTime⟩

end Promise

/-! ## Every interleaving -/

/-- The invariant of an episode that starts from the given ledgers.  `removed`
carries the result for the registry, `cycled` for the victims. -/
structure Inv (ep : Episode) (frozen : FrozenRegistry) (t : SpikeTracker) (w : World) :
    Prop where
  accepted : w.resumed = true → Accepts ep
  entry : w.frozen.isFrozen ep.pid = true →
    w.frozen.frozen.lookup ep.pid = frozen.frozen.lookup ep.pid
  handlerChecked : ∀ st, w.handler = .checked st →
    ∃ e, frozen.frozen.lookup ep.pid = some e ∧ e.startTime = st
  evictorChecked : ∀ st, w.evictor = .checked st →
    ∃ e, frozen.frozen.lookup ep.pid = some e ∧ e.startTime = st
  handlerDone : Accepts ep → w.handler = .done → w.frozen.isFrozen ep.pid = false
  removed : w.frozen.isFrozen ep.pid = false ∨ w.handler = .resumed ∨ w.evictor = .resumed →
    ∀ e, frozen.frozen.lookup ep.pid = some e → e.startTime = ep.startTime → Accepts ep →
      w.resumed = true
  waiting : w.evictor ≠ .done → w.tracker = t
  cycled : w.evictor = .done →
    ∃ reg, w.tracker = (runSpikeCycle t (ep.input reg)).1 ∧
      ∀ v ∈ signalled t (ep.input reg), v.pid = ep.pid → v.startTime = ep.startTime →
        Accepts ep → w.resumed = true

section Interleavings

variable {ep : Episode} {frozen : FrozenRegistry} {t : SpikeTracker} {w : World}

/-- The start time a thread reads in the registry is that of the entry. -/
theorem Inv.entry_start (h : Inv ep frozen t w) (hRec : w.frozen.isFrozen ep.pid = true) :
    ∃ e, frozen.frozen.lookup ep.pid = some e ∧ e.startTime = w.frozen.startTime ep.pid := by
  obtain ⟨e, he⟩ := (FrozenRegistry.isFrozen_iff _ _).mp hRec
  exact ⟨e, (h.entry hRec).symm.trans he, (FrozenRegistry.startTime_of_lookup he).symm⟩

/-- SIGCONT behind the recycle check, for an entry of the registry. -/
theorem Inv.resume (hAlive : ep.inp.startTime ep.pid = some ep.startTime) {st : Nat}
    (hEntry : ∃ e, frozen.frozen.lookup ep.pid = some e ∧ e.startTime = st) (resumed : Bool) :
    ∀ e, frozen.frozen.lookup ep.pid = some e → e.startTime = ep.startTime → Accepts ep →
      (resumed || ep.delivered st) = true := by
  intro e he hStart hAccepts
  obtain ⟨e', he', hst⟩ := hEntry
  rw [he] at he'
  cases he'
  rw [← hst, hStart, delivered_of_accepts hAlive hAccepts, Bool.or_true]

theorem accepts_of_or_delivered {resumed : Bool} {st : Nat} (hBefore : resumed = true → Accepts ep)
    (h : (resumed || ep.delivered st) = true) : Accepts ep := by
  rw [Bool.or_eq_true] at h
  cases h with
  | inl hResumed => exact hBefore hResumed
  | inr hDelivered => exact accepts_of_delivered hDelivered

/-- The evictor moves on before its spike-mode cycle, in the same way. -/
theorem Inv.evictorMoves (h : Inv ep frozen t w) (hWaiting : w.evictor ≠ .done)
    (lastActivePid : Option Pid) {pc : EvictorPc}
    (hChecked : ∀ st, pc = .checked st →
      ∃ e, frozen.frozen.lookup ep.pid = some e ∧ e.startTime = st)
    (hNotResumed : pc ≠ .resumed) (hNotDone : pc ≠ .done) :
    Inv ep frozen t { w with lastActivePid := lastActivePid, evictor := pc } where
  accepted := h.accepted
  entry := h.entry
  handlerChecked := h.handlerChecked
  evictorChecked := hChecked
  handlerDone := h.handlerDone
  removed := by
    intro hCase
    refine h.removed (hCase.imp_right fun hEither => ?_)
    exact hEither.imp_right fun hResumed => absurd hResumed hNotResumed
  waiting := fun _ => h.waiting hWaiting
  cycled := fun hDone => absurd hDone hNotDone

theorem inv_stepEvictor (hAlive : ep.inp.startTime ep.pid = some ep.startTime)
    (h : Inv ep frozen t w) : Inv ep frozen t (stepEvictor ep w) := by
  unfold stepEvictor
  split
  · next hPc =>
      have hWaiting : w.evictor ≠ .done := by
        rw [hPc]
        exact EvictorPc.noConfusion
      have hSpikes : ∀ last, Inv ep frozen t { w with lastActivePid := last, evictor := .spikes } :=
        fun last => h.evictorMoves hWaiting last (fun _ hEq => EvictorPc.noConfusion hEq)
          EvictorPc.noConfusion EvictorPc.noConfusion
      split
      · split
        · next hGo =>
            refine h.evictorMoves hWaiting (some ep.pid) ?_ EvictorPc.noConfusion
              EvictorPc.noConfusion
            intro st hst
            cases hst
            exact h.entry_start hGo.2
        · exact hSpikes (some ep.pid)
      · exact hSpikes w.lastActivePid
  · next st hPc =>
      have hWaiting : w.evictor ≠ .done := by
        rw [hPc]
        exact EvictorPc.noConfusion
      have hEntry := h.evictorChecked st hPc
      split
      · exact
          { h with
            accepted := accepts_of_or_delivered h.accepted
            evictorChecked := fun _ hEq => EvictorPc.noConfusion hEq
            removed := fun _ => Inv.resume hAlive hEntry w.resumed
            waiting := fun _ => h.waiting hWaiting
            cycled := fun hEq => EvictorPc.noConfusion hEq }
      · exact h.evictorMoves hWaiting w.lastActivePid (fun _ hEq => EvictorPc.noConfusion hEq)
          EvictorPc.noConfusion EvictorPc.noConfusion
  · next hPc =>
      have hTracker : w.tracker = t := h.waiting (by rw [hPc]; exact EvictorPc.noConfusion)
      exact
        { h with
          entry := fun hRec => by
            rw [FrozenRegistry.isFrozen_remove_self] at hRec
            cases hRec
          evictorChecked := fun _ hEq => EvictorPc.noConfusion hEq
          handlerDone := fun _ _ => FrozenRegistry.isFrozen_remove_self _ _
          removed := fun _ => h.removed (Or.inr (Or.inr hPc))
          waiting := fun _ => hTracker
          cycled := fun hEq => EvictorPc.noConfusion hEq }
  · next hPc =>
      have hTracker : w.tracker = t := h.waiting (by rw [hPc]; exact EvictorPc.noConfusion)
      refine
        { h with
          accepted := ?_
          evictorChecked := fun _ hEq => EvictorPc.noConfusion hEq
          removed := ?_
          waiting := fun hEq => absurd rfl hEq
          cycled := ?_ }
      · intro hResumed
        rw [Bool.or_eq_true, List.any_eq_true] at hResumed
        cases hResumed with
        | inl hBefore => exact h.accepted hBefore
        | inr hSignal =>
            obtain ⟨v, -, hv⟩ := hSignal
            exact accepts_of_delivered (Bool.and_eq_true _ _ ▸ hv).2
      · intro hCase e he hStart hAccepts
        have hBefore : w.resumed = true := by
          refine h.removed (hCase.imp_right fun hEither => ?_) e he hStart hAccepts
          exact hEither.imp_right fun hEq => EvictorPc.noConfusion hEq
        rw [hBefore, Bool.true_or]
      · intro _
        refine ⟨w.frozen, by rw [hTracker], ?_⟩
        intro v hv hPid hStart hAccepts
        rw [Bool.or_eq_true, List.any_eq_true, hTracker]
        refine Or.inr ⟨v, hv, ?_⟩
        rw [hPid, hStart, delivered_of_accepts hAlive hAccepts]
        simp
  · exact h

end Interleavings

/-! ## A victim in the foreground -/

end Mgd.FocusUnfreeze
