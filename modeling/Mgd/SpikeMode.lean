import Mgd.Config

/-!
# Spike mode

`SpikeTracker` of `spike_mode.rs`: it watches for processes whose memory
oscillates (builds, browsers), asks for headroom while one is in its Tracking
phase, and throttles a Tracking process that hogs the CPU.

`update` is the source's five steps, each a definition of its own.  One clock
reading serves a whole call.  The order of a hash map is unspecified in the
source; where the model lists a map, no result depends on the order.
Persistence of the victims is outside the model.
-/

namespace Mgd.SpikeMode

open Mgd.Types Mgd.Monitor Mgd.Config Mgd.Lib.AssocMap

/-! ## Data -/

inductive SpikePhase
  | observing
  | tracking
deriving DecidableEq, Repr

structure SpikeVictim where
  pid : Pid
  name : String
  startTime : Nat
  frozenForSpikePid : Pid
  frozenAt : Instant
deriving DecidableEq

inductive SpikeDecision
  | freezeForHeadroom (needed : Kb)
  | throttleSpike (spikePid : Pid) (cgroupPath : String)
  | restoreThrottle (spikePid : Pid) (cgroupPath : String)
  | releaseVictims (victims : List SpikeVictim)
deriving DecidableEq

structure RssSample where
  rss : Kb
  takenAt : Instant
deriving DecidableEq

structure SpikeState where
  pid : Pid
  name : String
  phase : SpikePhase
  samples : List RssSample
  initialRss : Kb
  rssMax : Kb
  hasPeaked : Bool
  hasOscillated : Bool
  cpuThrottled : Bool
  idleTicks : Nat
  cgroupPath : Option String
  forceIncluded : Bool
deriving DecidableEq

def SpikeState.new (pid : Pid) (name : String) (baseline : Kb) (cgroupPath : Option String)
    (forceIncluded : Bool) : SpikeState where
  pid := pid
  name := name
  phase := .observing
  samples := []
  initialRss := baseline
  rssMax := baseline
  hasPeaked := false
  hasOscillated := false
  cpuThrottled := false
  idleTicks := 0
  cgroupPath := cgroupPath
  forceIncluded := forceIncluded

/-- The `[spike_mode]` fields an update uses. -/
structure Params where
  windowSec : Nat
  minRss : Kb
  growthThreshold : Kb
  majfltThreshold : Nat
  oscillationDropFactor : ℚ
  minSamples : Nat
  headroomFactor : ℚ
  cpuThresholdPct : ℚ
  idleCpuThresholdPct : ℚ
  idleRssDelta : Kb
  idleTicksRequired : Nat
  included : List Regex
  excluded : List Regex

def Params.fromConfig (cfg : CompiledConfig) : Params where
  windowSec := cfg.spikeWindowSec
  minRss := cfg.spikeMinRssKb
  growthThreshold := cfg.spikeGrowthThresholdKb
  majfltThreshold := cfg.spikeMajfltThreshold
  oscillationDropFactor := cfg.spikeOscillationDropFactor
  minSamples := cfg.spikeMinSamples
  headroomFactor := cfg.spikeHeadroomFactor
  cpuThresholdPct := cfg.spikeCpuThresholdPct
  idleCpuThresholdPct := cfg.spikeIdleCpuThresholdPct
  idleRssDelta := cfg.spikeIdleRssDeltaKb
  idleTicksRequired := cfg.spikeIdleTicksRequired
  included := cfg.spikeInclude
  excluded := cfg.spikeExclude

structure SpikeTracker where
  spikes : Map Pid SpikeState
  victims : Map Pid SpikeVictim
  victimCooldowns : Map Pid Instant
  prevRss : Map Pid Kb
  prevMajflt : Map Pid Nat

def SpikeTracker.new : SpikeTracker := ⟨∅, ∅, ∅, ∅, ∅⟩

/-! ## Step 0: deltas -/

/-- RSS growth per PID since the last update. -/
def rssDeltas (prevRss : Map Pid Kb) (procs : List Process) : Map Pid Kb :=
  procs.foldl
    (fun d pr =>
      d.insert pr.pid (pr.rssKb.saturatingSub ((prevRss.lookup pr.pid).getD pr.rssKb)))
    ∅

/-- Major faults per PID since the last update. -/
def majfltDeltas (prevMajflt : Map Pid Nat) (procs : List Process) : Map Pid Nat :=
  procs.foldl
    (fun d pr => d.insert pr.pid (pr.majflt - (prevMajflt.lookup pr.pid).getD pr.majflt))
    ∅

/-! ## Step 1: registration -/

/-- Register one process when it is a new candidate. -/
def register (p : Params) (prevRss : Map Pid Kb) (rssD : Map Pid Kb) (majfltD : Map Pid Nat)
    (spikes : Map Pid SpikeState) (proc : Process) : Map Pid SpikeState :=
  if (spikes.lookup proc.pid).isSome then spikes
  else if p.excluded.any (fun re => re.isMatch proc.name) then spikes
  else
    let forceIncluded := p.included.any (fun re => re.isMatch proc.name)
    let growthSignal :=
      decide (((rssD.lookup proc.pid).getD (Kb.clamp 0)).val > p.growthThreshold.val)
    let majfltSignal := decide ((majfltD.lookup proc.pid).getD 0 > p.majfltThreshold)
    let isBehavioral := decide (proc.rssKb.val ≥ p.minRss.val) && (growthSignal || majfltSignal)
    if forceIncluded || isBehavioral then
      -- the previous RSS is the baseline: detection happens at the peak
      let baseline := (prevRss.lookup proc.pid).getD proc.rssKb
      spikes.insert proc.pid
        (SpikeState.new proc.pid proc.name baseline proc.cgroupPath forceIncluded)
    else spikes

section RegisterSpec

variable {p : Params} {prevRss rssD : Map Pid Kb} {majfltD : Map Pid Nat}
  {spikes : Map Pid SpikeState} {pid : Pid} {s : SpikeState}

variable (p prevRss rssD majfltD spikes) in
/-- Registration fills a vacant PID with a fresh state, or does nothing. -/
theorem register_cases (proc : Process) :
    register p prevRss rssD majfltD spikes proc = spikes ∨
      (spikes.lookup proc.pid = none ∧ ∃ baseline forceIncluded,
        register p prevRss rssD majfltD spikes proc = spikes.insert proc.pid
          (SpikeState.new proc.pid proc.name baseline proc.cgroupPath forceIncluded)) := by
  unfold register
  split
  · exact Or.inl rfl
  next hVacant =>
  split
  · exact Or.inl rfl
  dsimp only
  split
  · exact Or.inr ⟨Option.not_isSome_iff_eq_none.mp hVacant, _, _, rfl⟩
  · exact Or.inl rfl

/-- A registered spike is left alone. -/
theorem foldl_register_lookup (procs : List Process) (h : spikes.lookup pid = some s) :
    (procs.foldl (register p prevRss rssD majfltD) spikes).lookup pid = some s := by
  induction procs generalizing spikes with
  | nil => exact h
  | cons proc rest ih =>
      refine ih ?_
      obtain hSame | ⟨hVacant, baseline, forced, hNew⟩ :=
        register_cases p prevRss rssD majfltD spikes proc
      · rw [hSame]
        exact h
      · have hOther : pid ≠ proc.pid := by
          intro hEq
          rw [← hEq, h] at hVacant
          cases hVacant
        rw [hNew, lookup_insert_eq, if_neg hOther]
        exact h

/-- A spike that is registered is not throttled. -/
theorem foldl_register_flagged (procs : List Process)
    (h : (procs.foldl (register p prevRss rssD majfltD) spikes).lookup pid = some s)
    (hFlag : s.cpuThrottled = true) : spikes.lookup pid = some s := by
  induction procs generalizing spikes with
  | nil => exact h
  | cons proc rest ih =>
      have hStep := ih h
      obtain hSame | ⟨-, baseline, forced, hNew⟩ :=
        register_cases p prevRss rssD majfltD spikes proc
      · rw [hSame] at hStep
        exact hStep
      · rw [hNew, lookup_insert_eq] at hStep
        split at hStep
        · cases hStep
          cases hFlag
        · exact hStep

/-- Only the processes of the list are registered. -/
theorem foldl_register_unlisted {procs : List Process} (h : pid ∉ procs.map Process.pid) :
    (procs.foldl (register p prevRss rssD majfltD) spikes).lookup pid = spikes.lookup pid := by
  induction procs generalizing spikes with
  | nil => rfl
  | cons proc rest ih =>
      simp only [List.map_cons, List.mem_cons, not_or] at h
      rw [List.foldl_cons, ih h.2]
      obtain hSame | ⟨-, baseline, forced, hNew⟩ :=
        register_cases p prevRss rssD majfltD spikes proc
      · rw [hSame]
      · rw [hNew, lookup_insert_eq, if_neg h.1]

end RegisterSpec

/-! ## Step 2: tracked states -/

/-- The cast of a float to `u64`: truncation, negative values to zero, saturating. -/
def truncKb (q : ℚ) : Kb := Kb.clamp (q.num.toNat / q.den)

/-- The largest RSS of the window, or the given one when it is empty. -/
def windowMax (samples : List RssSample) (rss : Kb) : Kb :=
  match samples with
  | [] => rss
  | s :: rest => rest.foldl (fun m x => if m.val ≤ x.rss.val then x.rss else m) s.rss

/-- The largest RSS is that of a sample. -/
theorem windowMax_mem (x : RssSample) (rest : List RssSample) (rss : Kb) :
    ∃ y ∈ x :: rest, y.rss = windowMax (x :: rest) rss := by
  have hFold : ∀ (rest : List RssSample) (m : Kb),
      rest.foldl (fun m x => if m.val ≤ x.rss.val then x.rss else m) m = m ∨
        ∃ y ∈ rest, y.rss =
          rest.foldl (fun m x => if m.val ≤ x.rss.val then x.rss else m) m := by
    intro rest
    induction rest with
    | nil => exact fun m => Or.inl rfl
    | cons y rest ih =>
        intro m
        rw [List.foldl_cons]
        cases ih (if m.val ≤ y.rss.val then y.rss else m) with
        | inl hSame =>
            rw [hSame]
            by_cases hLe : m.val ≤ y.rss.val
            · exact Or.inr ⟨y, List.mem_cons_self, (if_pos hLe).symm⟩
            · exact Or.inl (if_neg hLe)
        | inr hLater =>
            obtain ⟨z, hz, hEq⟩ := hLater
            exact Or.inr ⟨z, List.mem_cons_of_mem y hz, hEq⟩
  cases hFold rest x.rss with
  | inl hFirst => exact ⟨x, List.mem_cons_self, hFirst.symm⟩
  | inr hLater =>
      obtain ⟨y, hy, hEq⟩ := hLater
      exact ⟨y, List.mem_cons_of_mem x hy, hEq⟩

/-- No sample of the window exceeds its maximum. -/
theorem le_windowMax {samples : List RssSample} {x : RssSample} (hx : x ∈ samples) (rss : Kb) :
    x.rss.val ≤ (windowMax samples rss).val := by
  have hFold : ∀ (rest : List RssSample) (acc : Kb),
      acc.val ≤ (rest.foldl (fun m y => if m.val ≤ y.rss.val then y.rss else m) acc).val ∧
        ∀ y ∈ rest, y.rss.val ≤
          (rest.foldl (fun m y => if m.val ≤ y.rss.val then y.rss else m) acc).val := by
    intro rest
    induction rest with
    | nil => exact fun acc => ⟨le_rfl, fun y hy => absurd hy List.not_mem_nil⟩
    | cons z rest ih =>
        intro acc
        rw [List.foldl_cons]
        rcases ih (if acc.val ≤ z.rss.val then z.rss else acc) with ⟨hAcc, hRest⟩
        have hBoth : acc.val ≤ (if acc.val ≤ z.rss.val then z.rss else acc).val ∧
            z.rss.val ≤ (if acc.val ≤ z.rss.val then z.rss else acc).val := by
          split
          · next hLe => exact ⟨hLe, le_rfl⟩
          · next hLt => exact ⟨le_rfl, by omega⟩
        refine ⟨hBoth.1.trans hAcc, fun y hy => ?_⟩
        rcases List.mem_cons.mp hy with rfl | hLater
        · exact hBoth.2.trans hAcc
        · exact hRest y hLater
  cases samples with
  | nil => cases hx
  | cons first rest =>
      rcases List.mem_cons.mp hx with rfl | hLater
      · exact (hFold rest x.rss).1
      · exact (hFold rest first.rss).2 x hLater

/-- The maximum of the window is within any bound of its samples. -/
theorem windowMax_le {samples : List RssSample} {rss : Kb} {m : Nat}
    (hSamples : ∀ x ∈ samples, x.rss.val ≤ m) (hRss : rss.val ≤ m) :
    (windowMax samples rss).val ≤ m := by
  have hFold : ∀ (rest : List RssSample) (acc : Kb), acc.val ≤ m →
      (∀ y ∈ rest, y.rss.val ≤ m) →
        (rest.foldl (fun m y => if m.val ≤ y.rss.val then y.rss else m) acc).val ≤ m := by
    intro rest
    induction rest with
    | nil => exact fun acc hAcc _ => hAcc
    | cons z rest ih =>
        intro acc hAcc hRest
        refine ih _ ?_ (fun y hy => hRest y (List.mem_cons_of_mem z hy))
        dsimp only
        split
        · exact hRest z List.mem_cons_self
        · exact hAcc
  cases samples with
  | nil => exact hRss
  | cons first rest =>
      exact hFold rest first.rss (hSamples first List.mem_cons_self)
        (fun y hy => hSamples y (List.mem_cons_of_mem first hy))

/-- Refresh the path, push the sample, drop those outside the window. -/
def sample (p : Params) (now : Instant) (proc : Process) (state : SpikeState) : SpikeState :=
  let taken : RssSample := { rss := proc.rssKb, takenAt := now }
  let samples := (state.samples ++ [taken]).dropWhile
    (fun s => decide (Instant.durationSince now s.takenAt > p.windowSec * nanosPerSec))
  { state with
    cgroupPath := proc.cgroupPath
    samples := samples
    rssMax := windowMax samples proc.rssKb }

/-- The peak and the oscillation flags. -/
def classify (p : Params) (proc : Process) (state : SpikeState) : SpikeState :=
  let hasPeaked := state.hasPeaked ||
    decide (state.rssMax.val > (state.initialRss.saturatingAdd p.growthThreshold).val)
  let valleyFloor := truncKb ((state.rssMax.val : ℚ) * p.oscillationDropFactor)
  let hasOscillated := state.hasOscillated ||
    (hasPeaked && decide (proc.rssKb.val < valleyFloor.val))
  { state with
    hasPeaked := hasPeaked
    hasOscillated := hasOscillated }

/-- The state of a spike that has been idle long enough. -/
def demote (proc : Process) (state : SpikeState) : SpikeState :=
  { state with
    phase := .observing
    hasPeaked := false
    hasOscillated := false
    idleTicks := 0
    samples := []
    initialRss := proc.rssKb
    rssMax := proc.rssKb
    cpuThrottled := false }

/-- A demoted spike that was throttled is restored, when its path is known. -/
def demotionDecisions (state : SpikeState) : List SpikeDecision :=
  if state.cpuThrottled then
    match state.cgroupPath with
    | some cg => [.restoreThrottle state.pid cg]
    | none => []
  else []

/-- What one process does to its tracked state: the state, the decisions, and
whether it was demoted. -/
def track (p : Params) (now : Instant) (rssD : Map Pid Kb) (proc : Process)
    (state : SpikeState) : SpikeState × List SpikeDecision × Bool :=
  let state := classify p proc (sample p now proc state)
  if state.phase = .observing ∧ state.hasPeaked = true ∧ state.hasOscillated = true ∧
      state.samples.length ≥ p.minSamples then
    ({ state with phase := .tracking, idleTicks := 0 }, [], false)
  else if state.phase = .tracking then
    let rssDelta := (rssD.lookup proc.pid).getD (Kb.clamp 0)
    let isIdleTick := decide (proc.cpuPct < p.idleCpuThresholdPct) &&
      decide (rssDelta.val < p.idleRssDelta.val)
    if isIdleTick then
      let state := { state with idleTicks := state.idleTicks + 1 }
      if state.idleTicks ≥ p.idleTicksRequired then
        (demote proc state, demotionDecisions state, true)
      else (state, [], false)
    else ({ state with idleTicks := 0 }, [], false)
  else (state, [], false)

/-- The loop of step 2: states, decisions, and whether any spike was demoted. -/
def trackAll (p : Params) (now : Instant) (rssD : Map Pid Kb) :
    List Process → Map Pid SpikeState → Map Pid SpikeState × List SpikeDecision × Bool
  | [], spikes => (spikes, [], false)
  | proc :: rest, spikes =>
      match spikes.lookup proc.pid with
      | none => trackAll p now rssD rest spikes
      | some state =>
          let here := track p now rssD proc state
          let after := trackAll p now rssD rest (spikes.insert proc.pid here.1)
          (after.1, here.2.1 ++ after.2.1, here.2.2 || after.2.2)

section TrackSpec

variable (p : Params) (now : Instant) (rssD : Map Pid Kb)

theorem demotionDecisions_cases (s : SpikeState) :
    demotionDecisions s = [] ∨ ∃ cg, demotionDecisions s = [.restoreThrottle s.pid cg] ∧
      s.cpuThrottled = true ∧ s.cgroupPath = some cg := by
  unfold demotionDecisions
  split
  · next hFlag =>
      split
      · next cg hPath => exact Or.inr ⟨cg, rfl, hFlag, hPath⟩
      · exact Or.inl rfl
  · exact Or.inl rfl

/-- Tracking takes over the path of the process.  A spike that is not demoted keeps
its flag, stays Tracking if it was, and decides nothing. -/
theorem track_cases (proc : Process) (s : SpikeState) :
    (track p now rssD proc s).1.cgroupPath = proc.cgroupPath ∧
      (((track p now rssD proc s).1.cpuThrottled = s.cpuThrottled ∧
          (s.phase = .tracking → (track p now rssD proc s).1.phase = .tracking) ∧
          (track p now rssD proc s).2 = ([], false)) ∨
        ((track p now rssD proc s).1.cpuThrottled = false ∧
          (track p now rssD proc s).2 =
            (demotionDecisions { s with cgroupPath := proc.cgroupPath }, true))) := by
  unfold track
  dsimp only
  split
  · exact ⟨rfl, Or.inl ⟨rfl, fun _ => rfl, rfl⟩⟩
  split
  · split
    · split
      · exact ⟨rfl, Or.inr ⟨rfl, rfl⟩⟩
      · exact ⟨rfl, Or.inl ⟨rfl, id, rfl⟩⟩
    · exact ⟨rfl, Or.inl ⟨rfl, id, rfl⟩⟩
  · exact ⟨rfl, Or.inl ⟨rfl, id, rfl⟩⟩

/-- Tracking only ever restores, and only a flagged spike whose process has a cgroup. -/
theorem track_decisions (proc : Process) (s : SpikeState) :
    (track p now rssD proc s).2.1 = [] ∨ ∃ cg,
      (track p now rssD proc s).2.1 = [.restoreThrottle s.pid cg] ∧ s.cpuThrottled = true ∧
        proc.cgroupPath = some cg := by
  obtain ⟨-, ⟨-, -, hNothing⟩ | ⟨-, hDemoted⟩⟩ := track_cases p now rssD proc s
  · exact Or.inl (congrArg Prod.fst hNothing)
  · rw [hDemoted]
    exact demotionDecisions_cases _

variable {p now rssD} {pid : Pid} {P : SpikeState → Prop}

/-- What tracking keeps of a spike, the loop keeps. -/
theorem trackAll_keeps {procs : List Process} {spikes : Map Pid SpikeState}
    (hTrack : ∀ proc ∈ procs, proc.pid = pid → ∀ s, P s → P (track p now rssD proc s).1)
    (hBefore : ∀ s, spikes.lookup pid = some s → P s) :
    ∀ s, (trackAll p now rssD procs spikes).1.lookup pid = some s → P s := by
  induction procs generalizing spikes with
  | nil => exact hBefore
  | cons proc rest ih =>
      have hRest : ∀ proc' ∈ rest, proc'.pid = pid → ∀ s, P s →
          P (track p now rssD proc' s).1 :=
        fun proc' hMem => hTrack proc' (List.mem_cons_of_mem proc hMem)
      intro s hs
      unfold trackAll at hs
      cases hState : spikes.lookup proc.pid with
      | none =>
          rw [hState] at hs
          exact ih hRest hBefore s hs
      | some state =>
          rw [hState] at hs
          refine ih hRest (fun s' hs' => ?_) s hs
          rw [lookup_insert_eq] at hs'
          split at hs'
          · next hHere =>
              cases hs'
              rw [hHere] at hBefore
              exact hTrack proc List.mem_cons_self hHere.symm state (hBefore state hState)
          · exact hBefore s' hs'

/-- What tracking makes of any spike, the loop makes of one that is listed. -/
theorem trackAll_makes {procs : List Process} {spikes : Map Pid SpikeState}
    (hListed : pid ∈ procs.map Process.pid)
    (hTrack : ∀ proc ∈ procs, proc.pid = pid → ∀ s, P (track p now rssD proc s).1) :
    ∀ s, (trackAll p now rssD procs spikes).1.lookup pid = some s → P s := by
  induction procs generalizing spikes with
  | nil => cases hListed
  | cons proc rest ih =>
      have hRest : ∀ proc' ∈ rest, proc'.pid = pid → ∀ s, P (track p now rssD proc' s).1 :=
        fun proc' hMem => hTrack proc' (List.mem_cons_of_mem proc hMem)
      by_cases hLater : pid ∈ rest.map Process.pid
      · intro s hs
        unfold trackAll at hs
        split at hs
        · exact ih hLater hRest s hs
        · exact ih hLater hRest s hs
      · have hHere : pid = proc.pid := by
          rw [List.map_cons, List.mem_cons] at hListed
          exact hListed.resolve_right hLater
        intro s hs
        unfold trackAll at hs
        have hKept : ∀ proc' ∈ rest, proc'.pid = pid → ∀ s, P s →
            P (track p now rssD proc' s).1 :=
          fun proc' hMem hPid s _ => hRest proc' hMem hPid s
        cases hState : spikes.lookup proc.pid with
        | none =>
            rw [hState] at hs
            refine trackAll_keeps hKept (fun s' hs' => ?_) s hs
            rw [hHere, hState] at hs'
            cases hs'
        | some state =>
            rw [hState] at hs
            refine trackAll_keeps hKept (fun s' hs' => ?_) s hs
            rw [hHere, AList.lookup_insert] at hs'
            cases hs'
            exact hTrack proc List.mem_cons_self hHere.symm state

variable (p now rssD)

theorem mem_trackAll_decisions (procs : List Process) (spikes : Map Pid SpikeState)
    {d : SpikeDecision} (h : d ∈ (trackAll p now rssD procs spikes).2.1) :
    ∃ pid cg, d = .restoreThrottle pid cg := by
  induction procs generalizing spikes with
  | nil => cases h
  | cons proc rest ih =>
      unfold trackAll at h
      split at h
      · exact ih _ h
      · next state _ =>
          cases List.mem_append.mp h with
          | inl hHere =>
              obtain hNone | ⟨cg, hOne, -⟩ := track_decisions p now rssD proc state
              · rw [hNone] at hHere
                cases hHere
              · rw [hOne] at hHere
                exact ⟨state.pid, cg, List.mem_singleton.mp hHere⟩
          | inr hRest => exact ih _ hRest

end TrackSpec

/-! ## Victims -/

def anyTracking (spikes : Map Pid SpikeState) : Bool :=
  (values spikes).any (fun s => decide (s.phase = .tracking))

namespace SpikeTracker

/-- Victims are held while any spike is Tracking and released together. -/
def drainIfNoneTracking (t : SpikeTracker) : SpikeTracker × List SpikeVictim :=
  if (values t.victims).isEmpty || anyTracking t.spikes then (t, [])
  else ({ t with victims := ∅ }, values t.victims)

def drainOrphanedVictims (t : SpikeTracker) : SpikeTracker × List SpikeVictim :=
  t.drainIfNoneTracking

/-- Remove one victim and start its cooldown. -/
def releaseOne (now : Instant) (acc : SpikeTracker × List SpikeVictim) (pid : Pid) :
    SpikeTracker × List SpikeVictim :=
  match acc.1.victims.lookup pid with
  | none => acc
  | some v =>
      ({ acc.1 with
          victims := acc.1.victims.erase pid
          victimCooldowns := acc.1.victimCooldowns.insert v.pid now },
        acc.2 ++ [v])

/-- Remove the victims of the given PIDs. -/
def releaseRequested (t : SpikeTracker) (now : Instant) (pids : List Pid) :
    SpikeTracker × List SpikeVictim :=
  pids.foldl (releaseOne now) (t, [])

/-- Victims frozen for at least `maxSecs`; zero disables the limit. -/
def drainTimedOutVictims (t : SpikeTracker) (now : Instant) (maxSecs : Nat) :
    SpikeTracker × List SpikeVictim :=
  if maxSecs = 0 then (t, [])
  else
    t.releaseRequested now
      (((values t.victims).filter
        (fun v => decide (Instant.secsSince now v.frozenAt ≥ maxSecs))).map SpikeVictim.pid)

def onSpikeExit (t : SpikeTracker) (spikePid : Pid) : SpikeTracker × List SpikeVictim :=
  { t with
    spikes := t.spikes.erase spikePid
    prevRss := t.prevRss.erase spikePid
    prevMajflt := t.prevMajflt.erase spikePid }.drainIfNoneTracking

def spikePids (t : SpikeTracker) : List Pid := t.spikes.keys

def victimPids (t : SpikeTracker) : List Pid := t.victims.keys

def recordVictimFrozen (t : SpikeTracker) (v : SpikeVictim) : SpikeTracker :=
  { t with victims := t.victims.insert v.pid v }

def isVictimCooldown (t : SpikeTracker) (now : Instant) (pid : Pid) (cooldownSec : Nat) : Bool :=
  match t.victimCooldowns.lookup pid with
  | some at_ => decide (Instant.secsSince now at_ < cooldownSec)
  | none => false

theorem mem_victimPids_iff {t : SpikeTracker} {pid : Pid} :
    pid ∈ t.victimPids ↔ ∃ v, t.victims.lookup pid = some v :=
  mem_keys_iff

theorem mem_victimPids_record {t : SpikeTracker} {v : SpikeVictim} {pid : Pid} :
    pid ∈ (t.recordVictimFrozen v).victimPids ↔ pid = v.pid ∨ pid ∈ t.victimPids := by
  rw [mem_victimPids_iff, mem_victimPids_iff]
  simp only [recordVictimFrozen, lookup_insert_eq]
  by_cases h : pid = v.pid
  · simp [h]
  · simp [h]

/-- Cgroup paths of the spikes currently throttled. -/
def throttledCgroupPaths (t : SpikeTracker) : List String :=
  ((values t.spikes).filter SpikeState.cpuThrottled).filterMap SpikeState.cgroupPath

theorem mem_throttledCgroupPaths_iff (t : SpikeTracker) (cg : String) :
    cg ∈ t.throttledCgroupPaths ↔
      ∃ pid spike, t.spikes.lookup pid = some spike ∧ spike.cpuThrottled = true ∧
        spike.cgroupPath = some cg := by
  simp only [throttledCgroupPaths, List.mem_filterMap, List.mem_filter, mem_values_iff]
  constructor
  · intro h
    obtain ⟨spike, ⟨⟨pid, hLookup⟩, hFlag⟩, hPath⟩ := h
    exact ⟨pid, spike, hLookup, hFlag, hPath⟩
  · intro h
    obtain ⟨pid, spike, hLookup, hFlag, hPath⟩ := h
    exact ⟨spike, ⟨⟨pid, hLookup⟩, hFlag⟩, hPath⟩

end SpikeTracker

/-! ## Step 4: decisions -/

/-- The RAM check: the peaks of the Tracking spikes, times the factor. -/
def headroomDecisions (p : Params) (available : Kb) (spikes : Map Pid SpikeState) :
    List SpikeDecision :=
  let sumRssMax := Kb.sum
    (((values spikes).filter (fun s => decide (s.phase = .tracking))).map SpikeState.rssMax)
  if sumRssMax.val > 0 then
    let required := truncKb ((sumRssMax.val : ℚ) * p.headroomFactor)
    if available.val < required.val then
      [.freezeForHeadroom (required.saturatingSub available)]
    else []
  else []

/-- Headroom is asked for once, or not at all. -/
theorem headroomDecisions_cases (p : Params) (available : Kb) (spikes : Map Pid SpikeState) :
    headroomDecisions p available spikes = [] ∨
      ∃ needed, headroomDecisions p available spikes = [.freezeForHeadroom needed] := by
  unfold headroomDecisions
  dsimp only
  split
  · split
    · exact Or.inr ⟨_, rfl⟩
    · exact Or.inl rfl
  · exact Or.inl rfl

/-- The CPU check of one process. -/
def checkCpu (p : Params) (foregroundPid : Option Pid) (proc : Process)
    (spikes : Map Pid SpikeState) : Map Pid SpikeState × List SpikeDecision :=
  match spikes.lookup proc.pid with
  | none => (spikes, [])
  | some state =>
      if state.phase ≠ .tracking then (spikes, [])
      else if foregroundPid = some proc.pid then (spikes, [])
      else
        match state.cgroupPath with
        | none => (spikes, [])
        | some cg =>
            if proc.cpuPct ≥ p.cpuThresholdPct ∧ state.cpuThrottled = false then
              (spikes.insert proc.pid { state with cpuThrottled := true },
                [.throttleSpike proc.pid cg])
            else if proc.cpuPct < p.cpuThresholdPct ∧ state.cpuThrottled = true then
              (spikes.insert proc.pid { state with cpuThrottled := false },
                [.restoreThrottle proc.pid cg])
            else (spikes, [])

def checkCpuAll (p : Params) (foregroundPid : Option Pid) :
    List Process → Map Pid SpikeState → Map Pid SpikeState × List SpikeDecision
  | [], spikes => (spikes, [])
  | proc :: rest, spikes =>
      let here := checkCpu p foregroundPid proc spikes
      let after := checkCpuAll p foregroundPid rest here.1
      (after.1, here.2 ++ after.2)

/-- A spike without its flag. -/
def SpikeState.unflagged (s : SpikeState) : SpikeState := { s with cpuThrottled := false }

section CpuSpec

variable (p : Params) (foregroundPid : Option Pid)

/-- The CPU check of one process: nothing, or a Tracking spike in the background
changes its flag together with the write to its cgroup. -/
theorem checkCpu_cases (proc : Process) (spikes : Map Pid SpikeState) :
    checkCpu p foregroundPid proc spikes = (spikes, []) ∨
      ∃ s cg, spikes.lookup proc.pid = some s ∧ s.phase = .tracking ∧
        foregroundPid ≠ some proc.pid ∧ s.cgroupPath = some cg ∧
        ((proc.cpuPct ≥ p.cpuThresholdPct ∧ s.cpuThrottled = false ∧
            checkCpu p foregroundPid proc spikes =
              (spikes.insert proc.pid { s with cpuThrottled := true },
                [.throttleSpike proc.pid cg])) ∨
          (proc.cpuPct < p.cpuThresholdPct ∧ s.cpuThrottled = true ∧
            checkCpu p foregroundPid proc spikes =
              (spikes.insert proc.pid { s with cpuThrottled := false },
                [.restoreThrottle proc.pid cg]))) := by
  unfold checkCpu
  split
  · exact Or.inl rfl
  next s hState =>
  split
  · exact Or.inl rfl
  next hPhase =>
  split
  · exact Or.inl rfl
  next hBackground =>
  split
  · exact Or.inl rfl
  next cg hPath =>
  split
  · next hUp =>
      exact Or.inr ⟨s, cg, hState, not_not.mp hPhase, hBackground, hPath,
        Or.inl ⟨hUp.1, hUp.2, rfl⟩⟩
  split
  · next hDown =>
      exact Or.inr ⟨s, cg, hState, not_not.mp hPhase, hBackground, hPath,
        Or.inr ⟨hDown.1, hDown.2, rfl⟩⟩
  · exact Or.inl rfl

/-- The CPU check changes flags only. -/
theorem checkCpuAll_unflagged (procs : List Process) (spikes : Map Pid SpikeState) (pid : Pid) :
    ((checkCpuAll p foregroundPid procs spikes).1.lookup pid).map SpikeState.unflagged =
      (spikes.lookup pid).map SpikeState.unflagged := by
  induction procs generalizing spikes with
  | nil => rfl
  | cons proc rest ih =>
      have hHere : ((checkCpu p foregroundPid proc spikes).1.lookup pid).map
          SpikeState.unflagged = (spikes.lookup pid).map SpikeState.unflagged := by
        obtain hNone | ⟨s, cg, hState, -, -, -, ⟨-, -, hOne⟩ | ⟨-, -, hOne⟩⟩ :=
          checkCpu_cases p foregroundPid proc spikes
        · rw [hNone]
        · rw [hOne, lookup_insert_eq]
          by_cases hPid : pid = proc.pid
          · rw [if_pos hPid, hPid, hState]
            rfl
          · rw [if_neg hPid]
        · rw [hOne, lookup_insert_eq]
          by_cases hPid : pid = proc.pid
          · rw [if_pos hPid, hPid, hState]
            rfl
          · rw [if_neg hPid]
      unfold checkCpuAll
      rw [ih, hHere]

theorem mem_checkCpuAll_decisions (procs : List Process) (spikes : Map Pid SpikeState)
    {d : SpikeDecision} (h : d ∈ (checkCpuAll p foregroundPid procs spikes).2) :
    ∃ pid cg, d = .throttleSpike pid cg ∨ d = .restoreThrottle pid cg := by
  induction procs generalizing spikes with
  | nil => cases h
  | cons proc rest ih =>
      unfold checkCpuAll at h
      cases List.mem_append.mp h with
      | inl hHere =>
          obtain hNone | ⟨s, cg, -, -, -, -, ⟨-, -, hOne⟩ | ⟨-, -, hOne⟩⟩ :=
            checkCpu_cases p foregroundPid proc spikes
          · rw [hNone] at hHere
            cases hHere
          · rw [hOne] at hHere
            exact ⟨proc.pid, cg, Or.inl (List.mem_singleton.mp hHere)⟩
          · rw [hOne] at hHere
            exact ⟨proc.pid, cg, Or.inr (List.mem_singleton.mp hHere)⟩
      | inr hRest => exact ih _ hRest

end CpuSpec

/-! ## The update -/

def SpikeTracker.update (t : SpikeTracker) (procs : List Process) (available : Kb) (p : Params)
    (now : Instant) (foregroundPid : Option Pid) : SpikeTracker × List SpikeDecision :=
  let live := procs.map Process.pid
  let rssD := rssDeltas t.prevRss procs
  let majfltD := majfltDeltas t.prevMajflt procs
  let registered := procs.foldl (register p t.prevRss rssD majfltD) t.spikes
  let tracked := trackAll p now rssD procs registered
  -- the caches advance after the deltas have been used
  let advanced : SpikeTracker :=
    { spikes := tracked.1
      victims := t.victims
      victimCooldowns := retain (fun _ at_ => decide (Instant.secsSince now at_ < 300))
        t.victimCooldowns
      prevRss := retain (fun pid _ => decide (pid ∈ live))
        (procs.foldl (fun m pr => m.insert pr.pid pr.rssKb) t.prevRss)
      prevMajflt := retain (fun pid _ => decide (pid ∈ live))
        (procs.foldl (fun m pr => m.insert pr.pid pr.majflt) t.prevMajflt) }
  let drained := if tracked.2.2 then advanced.drainIfNoneTracking else (advanced, [])
  let releases := if drained.2.isEmpty then [] else [SpikeDecision.releaseVictims drained.2]
  let headroom := headroomDecisions p available drained.1.spikes
  let checked := checkCpuAll p foregroundPid procs drained.1.spikes
  ({ drained.1 with spikes := checked.1 },
    tracked.2.1 ++ releases ++ headroom ++ checked.2)

end Mgd.SpikeMode
