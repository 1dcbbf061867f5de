import Mgd.Overflow.Evictor
import Mgd.SpikeMode

/-!
# The arithmetic of spike mode

`SpikeTracker::update` counts the idle ticks of a spike in a `u32`; everything
else it does with numbers of the configuration saturates, casts a float or
compares.  The floats may be any.

`update_isSome` says that the count stays below the largest `u32`, since a spike
that reaches `idle_ticks_required` is demoted; `update_ofExact` that with finite
floats the update is the exact one.
-/

namespace Mgd.Overflow

open Mgd.Types Mgd.Monitor Mgd.Config Mgd.Lib.AssocMap Mgd.Lib.Checked
open Mgd.SpikeMode (SpikeState SpikeTracker SpikeDecision register sample demote
  demotionDecisions rssDeltas majfltDeltas)
open Mgd.Config.Loading (F64)

/-! ## The checked update -/

def u32Max : Nat := 2 ^ 32 - 1

/-- `x as u64` -/
def toU64 : F64 → Kb
  | .nan => Kb.clamp 0
  | .negInf => Kb.clamp 0
  | .finite q => SpikeMode.truncKb q
  | .posInf => Kb.clamp u64Max

structure SpikeParams where
  windowSec : Nat
  minRss : Kb
  growthThreshold : Kb
  majfltThreshold : Nat
  oscillationDropFactor : F64
  minSamples : Nat
  headroomFactor : F64
  cpuThresholdPct : F64
  idleCpuThresholdPct : F64
  idleRssDelta : Kb
  idleTicksRequired : Nat
  included : List Regex
  excluded : List Regex
  /-- it is a `u32` -/
  idleTicksRequired_le : idleTicksRequired ≤ u32Max

/-- For what uses no float. -/
def SpikeParams.withoutFloats (p : SpikeParams) : SpikeMode.Params where
  windowSec := p.windowSec
  minRss := p.minRss
  growthThreshold := p.growthThreshold
  majfltThreshold := p.majfltThreshold
  oscillationDropFactor := 0
  minSamples := p.minSamples
  headroomFactor := 0
  cpuThresholdPct := 0
  idleCpuThresholdPct := 0
  idleRssDelta := p.idleRssDelta
  idleTicksRequired := p.idleTicksRequired
  included := p.included
  excluded := p.excluded

def classify (p : SpikeParams) (proc : Process) (state : SpikeState) : SpikeState :=
  let hasPeaked := state.hasPeaked ||
    decide (state.rssMax.val > (state.initialRss.saturatingAdd p.growthThreshold).val)
  let valleyFloor := toU64 (scaled state.rssMax.val p.oscillationDropFactor)
  let hasOscillated := state.hasOscillated ||
    (hasPeaked && decide (proc.rssKb.val < valleyFloor.val))
  { state with
    hasPeaked := hasPeaked
    hasOscillated := hasOscillated }

def track (p : SpikeParams) (now : Instant) (rssD : Map Pid Kb) (proc : Process)
    (state : SpikeState) : Option (SpikeState × List SpikeDecision × Bool) :=
  let state := classify p proc (sample p.withoutFloats now proc state)
  if state.phase = .observing ∧ state.hasPeaked = true ∧ state.hasOscillated = true ∧
      state.samples.length ≥ p.minSamples then
    some ({ state with phase := .tracking, idleTicks := 0 }, [], false)
  else if state.phase = .tracking then
    let rssDelta := (rssD.lookup proc.pid).getD (Kb.clamp 0)
    let isIdleTick := F64.lt (.finite proc.cpuPct) p.idleCpuThresholdPct &&
      decide (rssDelta.val < p.idleRssDelta.val)
    if isIdleTick then
      (add u32Max state.idleTicks 1).map fun ticks =>
        let state := { state with idleTicks := ticks }
        if state.idleTicks ≥ p.idleTicksRequired then
          (demote proc state, demotionDecisions state, true)
        else (state, [], false)
    else some ({ state with idleTicks := 0 }, [], false)
  else some (state, [], false)

def trackAll (p : SpikeParams) (now : Instant) (rssD : Map Pid Kb) :
    List Process → Map Pid SpikeState → Option (Map Pid SpikeState × List SpikeDecision × Bool)
  | [], spikes => some (spikes, [], false)
  | proc :: rest, spikes =>
      match spikes.lookup proc.pid with
      | none => trackAll p now rssD rest spikes
      | some state =>
          match track p now rssD proc state with
          | none => none
          | some here =>
              (trackAll p now rssD rest (spikes.insert proc.pid here.1)).map fun after =>
                (after.1, here.2.1 ++ after.2.1, here.2.2 || after.2.2)

def headroomDecisions (p : SpikeParams) (available : Kb) (spikes : Map Pid SpikeState) :
    List SpikeDecision :=
  let sumRssMax := Kb.sum
    (((values spikes).filter (fun s => decide (s.phase = .tracking))).map SpikeState.rssMax)
  if sumRssMax.val > 0 then
    let required := toU64 (scaled sumRssMax.val p.headroomFactor)
    if available.val < required.val then
      [.freezeForHeadroom (required.saturatingSub available)]
    else []
  else []

def checkCpu (p : SpikeParams) (foregroundPid : Option Pid) (proc : Process)
    (spikes : Map Pid SpikeState) : Map Pid SpikeState × List SpikeDecision :=
  match spikes.lookup proc.pid with
  | none => (spikes, [])
  | some state =>
      if state.phase ≠ .tracking then (spikes, [])
      else if foregroundPid = some proc.pid then (spikes, [])
      else
        match state.cgroupPath with
        | none => (spikes, [])
        | some cg =>
            if p.cpuThresholdPct.le (.finite proc.cpuPct) = true ∧ state.cpuThrottled = false then
              (spikes.insert proc.pid { state with cpuThrottled := true },
                [.throttleSpike proc.pid cg])
            else if F64.lt (.finite proc.cpuPct) p.cpuThresholdPct = true ∧
                state.cpuThrottled = true then
              (spikes.insert proc.pid { state with cpuThrottled := false },
                [.restoreThrottle proc.pid cg])
            else (spikes, [])

def checkCpuAll (p : SpikeParams) (foregroundPid : Option Pid) :
    List Process → Map Pid SpikeState → Map Pid SpikeState × List SpikeDecision
  | [], spikes => (spikes, [])
  | proc :: rest, spikes =>
      let here := checkCpu p foregroundPid proc spikes
      let after := checkCpuAll p foregroundPid rest here.1
      (after.1, here.2 ++ after.2)

def updateSpikes (t : SpikeTracker) (procs : List Process) (available : Kb) (p : SpikeParams)
    (now : Instant) (foregroundPid : Option Pid) : Option (SpikeTracker × List SpikeDecision) :=
  let live := procs.map Process.pid
  let rssD := rssDeltas t.prevRss procs
  let majfltD := majfltDeltas t.prevMajflt procs
  let registered := procs.foldl (register p.withoutFloats t.prevRss rssD majfltD) t.spikes
  match trackAll p now rssD procs registered with
  | none => none
  | some tracked =>
      let advanced : SpikeTracker :=
        { spikes := tracked.1
          victims := t.victims
          victimCooldowns := retain (fun _ at_ => decide (Instant.secsSince now at_ < 300))
            t.victimCooldowns
          prevRss := retain (fun pid _ => decide (pid ∈ live))
            (procs.foldl (fun m pr => m.insert pr.pid pr.rssKb) t.prevRss)
          prevMajflt := retain (fun pid _ => decide (pid ∈ live))
            (procs.foldl (fun m pr => m.insert pr.pid pr.majflt) t.prevMajflt) }
      let drained := if tracked.2.2 then advanced.drainIfNoneTracking else (advanced, [])
      let releases := if drained.2.isEmpty then [] else [SpikeDecision.releaseVictims drained.2]
      let headroom := headroomDecisions p available drained.1.spikes
      let checked := checkCpuAll p foregroundPid procs drained.1.spikes
      some ({ drained.1 with spikes := checked.1 },
        tracked.2.1 ++ releases ++ headroom ++ checked.2)

/-! ## The idle ticks -/

/-- Every spike can count one more idle tick. -/
def TicksFit (spikes : Map Pid SpikeState) : Prop :=
  ∀ pid s, spikes.lookup pid = some s → s.idleTicks < u32Max

section TicksFit

variable {p : SpikeParams} {now : Instant} {rssD : Map Pid Kb} {spikes : Map Pid SpikeState}

theorem ticksFit_new : TicksFit SpikeTracker.new.spikes := by
  intro pid s hs
  cases hs

theorem TicksFit.insert {s : SpikeState} {pid : Pid} (h : TicksFit spikes)
    (hs : s.idleTicks < u32Max) : TicksFit (spikes.insert pid s) := by
  intro other s' hs'
  rw [lookup_insert_eq] at hs'
  split at hs'
  · cases hs'
    exact hs
  · exact h other s' hs'

theorem TicksFit.erase (h : TicksFit spikes) (pid : Pid) : TicksFit (spikes.erase pid) := by
  intro other s hs
  rw [lookup_erase_eq] at hs
  split at hs
  · cases hs
  · exact h other s hs

/-- A new spike starts at zero. -/
theorem TicksFit.registered {q : SpikeMode.Params} {prevRss : Map Pid Kb}
    {majfltD : Map Pid Nat} (procs : List Process) (h : TicksFit spikes) :
    TicksFit (procs.foldl (register q prevRss rssD majfltD) spikes) := by
  induction procs generalizing spikes with
  | nil => exact h
  | cons proc rest ih =>
      apply ih
      obtain hSame | ⟨-, baseline, forced, hNew⟩ :=
        SpikeMode.register_cases q prevRss rssD majfltD spikes proc
      · rw [hSame]
        exact h
      · rw [hNew]
        exact h.insert (show 0 < u32Max by decide)

/-- A spike that reaches the required ticks starts over. -/
theorem track_isSome {proc : Process} {s : SpikeState} (hTicks : s.idleTicks < u32Max) :
    ∃ here, track p now rssD proc s = some here ∧ here.1.idleTicks < u32Max := by
  have hSample : (classify p proc (sample p.withoutFloats now proc s)).idleTicks =
      s.idleTicks := rfl
  unfold track
  dsimp only
  split
  · exact ⟨_, rfl, show 0 < u32Max by decide⟩
  split
  · split
    · have hFits : s.idleTicks + 1 ≤ u32Max := hTicks
      unfold add
      rw [hSample, if_pos hFits]
      refine ⟨_, rfl, ?_⟩
      dsimp only
      split
      · show 0 < u32Max
        decide
      · next hFew =>
          have hRequired := p.idleTicksRequired_le
          show s.idleTicks + 1 < u32Max
          omega
    · exact ⟨_, rfl, show 0 < u32Max by decide⟩
  · exact ⟨_, rfl, hTicks⟩

theorem trackAll_isSome (procs : List Process) (h : TicksFit spikes) :
    ∃ tracked, trackAll p now rssD procs spikes = some tracked ∧ TicksFit tracked.1 := by
  induction procs generalizing spikes with
  | nil => exact ⟨_, rfl, h⟩
  | cons proc rest ih =>
      unfold trackAll
      cases hState : spikes.lookup proc.pid with
      | none => exact ih h
      | some state =>
          obtain ⟨here, hHere, hTicks⟩ :=
            @track_isSome p now rssD proc state (h proc.pid state hState)
          obtain ⟨after, hAfter, hFit⟩ := ih (h.insert hTicks)
          dsimp only
          rw [hHere]
          dsimp only
          rw [hAfter]
          exact ⟨_, rfl, hFit⟩

/-- The CPU check leaves the ticks alone. -/
theorem TicksFit.checkCpuAll (foregroundPid : Option Pid) (procs : List Process)
    (h : TicksFit spikes) : TicksFit (checkCpuAll p foregroundPid procs spikes).1 := by
  induction procs generalizing spikes with
  | nil => exact h
  | cons proc rest ih =>
      apply ih
      unfold checkCpu
      cases hState : spikes.lookup proc.pid with
      | none => exact h
      | some state =>
          have hTicks := h proc.pid state hState
          dsimp only
          split
          · exact h
          split
          · exact h
          split
          · exact h
          split
          · exact h.insert hTicks
          split
          · exact h.insert hTicks
          · exact h

theorem drainIfNoneTracking_spikes (t : SpikeTracker) :
    t.drainIfNoneTracking.1.spikes = t.spikes := by
  unfold SpikeTracker.drainIfNoneTracking
  split <;> rfl

theorem TicksFit.onSpikeExit {t : SpikeTracker} (h : TicksFit t.spikes) (pid : Pid) :
    TicksFit (t.onSpikeExit pid).1.spikes := by
  unfold SpikeTracker.onSpikeExit
  rw [drainIfNoneTracking_spikes]
  exact h.erase pid

/-- **An update never overflows**, and the next one will not. -/
theorem updateSpikes_isSome {t : SpikeTracker} (h : TicksFit t.spikes) (procs : List Process)
    (available : Kb) (foregroundPid : Option Pid) :
    ∃ updated, updateSpikes t procs available p now foregroundPid = some updated ∧
      TicksFit updated.1.spikes := by
  obtain ⟨tracked, hTracked, hFit⟩ := @trackAll_isSome p now (rssDeltas t.prevRss procs) _
    procs (h.registered procs)
  unfold updateSpikes
  dsimp only
  rw [hTracked]
  refine ⟨_, rfl, ?_⟩
  dsimp only
  apply TicksFit.checkCpuAll
  split
  · rw [drainIfNoneTracking_spikes]
    exact hFit
  · exact hFit

end TicksFit

/-! ## Finite floats -/

def SpikeParams.ofExact (q : SpikeMode.Params) (hRequired : q.idleTicksRequired ≤ u32Max) :
    SpikeParams where
  windowSec := q.windowSec
  minRss := q.minRss
  growthThreshold := q.growthThreshold
  majfltThreshold := q.majfltThreshold
  oscillationDropFactor := .finite q.oscillationDropFactor
  minSamples := q.minSamples
  headroomFactor := .finite q.headroomFactor
  cpuThresholdPct := .finite q.cpuThresholdPct
  idleCpuThresholdPct := .finite q.idleCpuThresholdPct
  idleRssDelta := q.idleRssDelta
  idleTicksRequired := q.idleTicksRequired
  included := q.included
  excluded := q.excluded
  idleTicksRequired_le := hRequired

section Exact

variable {q : SpikeMode.Params} {hRequired : q.idleTicksRequired ≤ u32Max} {now : Instant}
  {rssD : Map Pid Kb}

theorem track_ofExact {s : SpikeState} (hTicks : s.idleTicks < u32Max) (proc : Process) :
    track (SpikeParams.ofExact q hRequired) now rssD proc s =
      some (SpikeMode.track q now rssD proc s) := by
  have hSame : classify (SpikeParams.ofExact q hRequired) proc
      (sample (SpikeParams.ofExact q hRequired).withoutFloats now proc s) =
        SpikeMode.classify q proc (sample q now proc s) := rfl
  have hKept : (SpikeMode.classify q proc (sample q now proc s)).idleTicks = s.idleTicks := rfl
  have hFits : s.idleTicks + 1 ≤ u32Max := hTicks
  unfold track SpikeMode.track add
  dsimp only
  rw [hSame, hKept, if_pos hFits]
  generalize SpikeMode.classify q proc (sample q now proc s) = state
  by_cases hStart : state.phase = .observing ∧ state.hasPeaked = true ∧
      state.hasOscillated = true ∧ state.samples.length ≥ q.minSamples
  · exact (if_pos hStart).trans (congrArg some (if_pos hStart).symm)
  refine (if_neg hStart).trans (Eq.trans ?_ (congrArg some (if_neg hStart).symm))
  by_cases hTracking : state.phase = .tracking
  · refine (if_pos hTracking).trans (Eq.trans ?_ (congrArg some (if_pos hTracking).symm))
    by_cases hIdle : (decide (proc.cpuPct < q.idleCpuThresholdPct) &&
        decide (((rssD.lookup proc.pid).getD (Kb.clamp 0)).val < q.idleRssDelta.val)) = true
    · exact (if_pos hIdle).trans (congrArg some (if_pos hIdle).symm)
    · exact (if_neg hIdle).trans (congrArg some (if_neg hIdle).symm)
  · exact (if_neg hTracking).trans (congrArg some (if_neg hTracking).symm)

theorem trackAll_ofExact (procs : List Process)
    {spikes : Map Pid SpikeState} (h : TicksFit spikes) :
    trackAll (SpikeParams.ofExact q hRequired) now rssD procs spikes =
      some (SpikeMode.trackAll q now rssD procs spikes) := by
  induction procs generalizing spikes with
  | nil => rfl
  | cons proc rest ih =>
      unfold trackAll SpikeMode.trackAll
      cases hState : spikes.lookup proc.pid with
      | none => exact ih h
      | some state =>
          have hTicks := h proc.pid state hState
          obtain ⟨here, hHere, hFit⟩ :=
            @track_isSome (SpikeParams.ofExact q hRequired) now rssD proc state hTicks
          have hExact := @track_ofExact q hRequired now rssD state hTicks proc
          rw [hHere, Option.some_inj] at hExact
          dsimp only
          rw [hHere]
          dsimp only
          rw [ih (h.insert hFit), hExact]
          rfl

theorem checkCpuAll_ofExact (foregroundPid : Option Pid) (procs : List Process)
    (spikes : Map Pid SpikeState) :
    checkCpuAll (SpikeParams.ofExact q hRequired) foregroundPid procs spikes =
      SpikeMode.checkCpuAll q foregroundPid procs spikes := by
  have hOne : ∀ (proc : Process) (spikes : Map Pid SpikeState),
      checkCpu (SpikeParams.ofExact q hRequired) foregroundPid proc spikes =
        SpikeMode.checkCpu q foregroundPid proc spikes := by
    intro proc spikes
    unfold checkCpu SpikeMode.checkCpu
    cases spikes.lookup proc.pid with
    | none => rfl
    | some state =>
        dsimp only
        cases state.cgroupPath with
        | none => rfl
        | some cg =>
            simp only [SpikeParams.ofExact, F64.finite_le_finite, F64.finite_lt_finite,
              decide_eq_true_eq, ge_iff_le]
  induction procs generalizing spikes with
  | nil => rfl
  | cons proc rest ih =>
      unfold checkCpuAll SpikeMode.checkCpuAll
      rw [hOne]
      dsimp only
      rw [ih]

theorem headroomDecisions_ofExact (available : Kb) (spikes : Map Pid SpikeState) :
    headroomDecisions (SpikeParams.ofExact q hRequired) available spikes =
      SpikeMode.headroomDecisions q available spikes := rfl

theorem updateSpikes_ofExact {t : SpikeTracker} (h : TicksFit t.spikes) (procs : List Process)
    (available : Kb) (foregroundPid : Option Pid) :
    updateSpikes t procs available (SpikeParams.ofExact q hRequired) now foregroundPid =
      some (t.update procs available q now foregroundPid) := by
  have hRegister : ∀ (prevRss rssD : Map Pid Kb) (majfltD : Map Pid Nat),
      register (SpikeParams.ofExact q hRequired).withoutFloats prevRss rssD majfltD =
        register q prevRss rssD majfltD := fun _ _ _ => rfl
  unfold updateSpikes SpikeTracker.update
  dsimp only
  rw [hRegister, trackAll_ofExact procs (h.registered procs)]
  dsimp only
  rw [checkCpuAll_ofExact, headroomDecisions_ofExact]

end Exact

end Mgd.Overflow
