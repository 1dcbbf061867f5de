import Mgd.Engine.Planner
import Mgd.Lib.Run

/-!
# The process leak guard

`leak_guard.rs` counts the members of every process family, a family being the
processes of one command line, and terminates all but the newest of a family
that only ever grows.  `run_leak_guard_cycle` gives it the processes that may be
terminated at all.

The guard runs in a full cycle of the evictor only.  `sameSamples_iff` compares
the loop that waits for the kernel trigger with the loop that polls.
-/

namespace Mgd.LeakGuard

open Mgd.Types Mgd.Monitor Mgd.Config Mgd.Lib.AssocMap Mgd.Lib.Greedy Mgd.Lib.Run
open Mgd.Engine.Planner

/-! ## Tracker -/

/-- `TerminateStale`. -/
structure LeakDecision where
  pid : Pid
  name : String
  group : String
deriving DecidableEq

structure CountSample where
  count : Nat
  takenAt : Instant
deriving DecidableEq

structure GroupState where
  /-- oldest first -/
  samples : List CountSample
  cooldownUntil : Option Instant
  lastDisplay : String
  lastCount : Nat
  lastTotalRss : Kb
  lastLeaking : Bool
deriving DecidableEq

structure LeakTracker where
  groups : Map String GroupState

def LeakTracker.new : LeakTracker := ⟨∅⟩

/-- The `leak_guard_*` fields of the configuration. -/
structure LeakGuardConfig where
  enabled : Bool
  exclude : List Regex
  windowSec : Nat
  minGroupCount : Nat
  minGroupRss : Kb
  growthOverWindow : Nat
  minSamples : Nat
  keepNewest : Nat
  cooldownSec : Nat

/-- The defaults of `[process_leak_guard]`. -/
def LeakGuardConfig.default : LeakGuardConfig where
  enabled := false
  exclude := []
  windowSec := 600
  minGroupCount := 8
  minGroupRss := Kb.clamp 256000
  growthOverWindow := 5
  minSamples := 4
  keepNewest := 1
  cooldownSec := 180

def groupKey (p : Process) : String :=
  if p.cmdline.isEmpty then "noargs:" ++ p.name else p.cmdline

/-- The families, each with its members in the order of the list. -/
def currentGroups (procs : List Process) : Map String (List Process) :=
  procs.foldl (fun groups p =>
    groups.insert (groupKey p) (((groups.lookup (groupKey p)).getD []) ++ [p])) ∅

def isExcluded (p : LeakGuardConfig) (representative : Process) : Bool :=
  p.exclude.any fun re =>
    re.isMatch representative.name || representative.exeBasename.any re.isMatch

def GroupState.new (display : String) : GroupState where
  samples := []
  cooldownUntil := none
  lastDisplay := display
  lastCount := 0
  lastTotalRss := Kb.clamp 0
  lastLeaking := false

/-- Samples older than the window leave at the front. -/
def prune (windowSec : Nat) (now : Instant) (samples : List CountSample) : List CountSample :=
  samples.dropWhile fun s => decide (windowSec * nanosPerSec < Instant.durationSince now s.takenAt)

/-- No sample is below the one before it. -/
def neverShrunk : List CountSample → Bool
  | first :: second :: rest => !(second.count < first.count) && neverShrunk (second :: rest)
  | _ => true

def grownEnough (growthOverWindow : Nat) (samples : List CountSample) : Bool :=
  match samples.head?, samples.getLast? with
  | some first, some last => growthOverWindow ≤ last.count - first.count
  | _, _ => false

/-- Every member but the `keep_newest` highest PIDs. -/
def staleMembers (keepNewest : Nat) (display : String) (members : List Process) :
    List LeakDecision :=
  ((sortDesc (fun p => p.pid.val.toNat) members).drop keepNewest).map fun p =>
    ⟨p.pid, p.name, display⟩

/-- One family at or above the floor, in one cycle. -/
def updateGroup (p : LeakGuardConfig) (now : Instant) (display : String) (members : List Process)
    (state : GroupState) : GroupState × List LeakDecision :=
  let samples := prune p.windowSec now (state.samples ++ [⟨members.length, now⟩])
  let totalRss := Kb.sum (members.map Process.rssKb)
  let leaking := decide (p.minSamples ≤ samples.length) && neverShrunk samples &&
    grownEnough p.growthOverWindow samples && decide (p.minGroupRss.val ≤ totalRss.val)
  let inCooldown := state.cooldownUntil.any fun t => decide (now < t)
  let fires := leaking && !inCooldown
  ({ samples := samples
     cooldownUntil := if fires then some (now + p.cooldownSec * nanosPerSec)
       else state.cooldownUntil
     lastDisplay := display
     lastCount := members.length
     lastTotalRss := totalRss
     lastLeaking := leaking },
    if fires then staleMembers p.keepNewest display members else [])

/-- The body of the loop over the families. -/
def visitGroup (p : LeakGuardConfig) (now : Instant) (t : LeakTracker × List LeakDecision)
    (group : Sigma fun _ : String => List Process) : LeakTracker × List LeakDecision :=
  match group.2 with
  | [] => t
  | representative :: _ =>
      if group.2.length < p.minGroupCount || isExcluded p representative then t
      else
        let display := representative.exeBasename.getD representative.name
        let state := (t.1.groups.lookup group.1).getD (GroupState.new display)
        let updated := updateGroup p now display group.2 state
        (⟨t.1.groups.insert group.1 updated.1⟩, t.2 ++ updated.2)

/-- The hash map gives the families in no particular order; here the order is
that of the map. -/
def LeakTracker.update (t : LeakTracker) (procs : List Process) (p : LeakGuardConfig)
    (now : Instant) : LeakTracker × List LeakDecision :=
  let groups := currentGroups procs
  let kept := retain (fun key _ =>
    decide (p.minGroupCount ≤ ((groups.lookup key).getD []).length)) t.groups
  groups.entries.foldl (visitGroup p now) (⟨kept⟩, [])

/-- What `mgctl` is shown of a family. -/
structure GroupSnapshot where
  display : String
  count : Nat
  totalRss : Kb
  leaking : Bool

def LeakTracker.snapshot (t : LeakTracker) : List GroupSnapshot :=
  (values t.groups).map fun g => ⟨g.lastDisplay, g.lastCount, g.lastTotalRss, g.lastLeaking⟩

/-! ## Cycle -/

/-- The processes the guard may terminate. -/
def candidates (cfg : CompiledConfig) (procs : List Process) : List Process :=
  (procs.filter fun p => decide (19 < getPriority p.name p.exeBasename cfg)).filter fun p =>
    !cfg.isProtected p.name

structure LeakCycle where
  tracker : LeakTracker
  /-- each gets a SIGTERM, a log line and an event -/
  decisions : List LeakDecision
  snapshot : List GroupSnapshot

def runLeakGuardCycle (cfg : CompiledConfig) (p : LeakGuardConfig) (t : LeakTracker)
    (procs : List Process) (now : Instant) : LeakCycle :=
  if p.enabled then
    let updated := t.update (candidates cfg procs) p now
    ⟨updated.1, updated.2, updated.1.snapshot⟩
  else ⟨t, [], t.snapshot⟩

/-! ## What is terminated -/

section Terminated

variable {cfg : CompiledConfig} {p : LeakGuardConfig} {now : Instant}

theorem mem_candidates_iff {procs : List Process} {q : Process} :
    q ∈ candidates cfg procs ↔
      q ∈ procs ∧ 19 < getPriority q.name q.exeBasename cfg ∧ cfg.isProtected q.name = false := by
  simp [candidates, and_comm]

/-- The families are made of the processes given. -/
theorem mem_currentGroups {procs : List Process} {key : String} {members : List Process}
    (h : (currentGroups procs).lookup key = some members) {q : Process} (hq : q ∈ members) :
    q ∈ procs := by
  suffices hFold : ∀ (xs : List Process) (groups : Map String (List Process)),
      (∀ key members, groups.lookup key = some members → ∀ q ∈ members, q ∈ procs) →
      (∀ q ∈ xs, q ∈ procs) → ∀ key members,
        (xs.foldl (fun groups p =>
          groups.insert (groupKey p) (((groups.lookup (groupKey p)).getD []) ++ [p])) groups).lookup
            key = some members → ∀ q ∈ members, q ∈ procs from
    hFold procs ∅ (fun _ _ hNone => by cases hNone) (fun _ hq => hq) key members h q hq
  intro xs
  induction xs with
  | nil => exact fun groups hGroups _ key members hLookup => hGroups key members hLookup
  | cons x xs ih =>
      intro groups hGroups hxs
      refine ih _ (fun key members hLookup q hq => ?_) fun q hq => hxs q (List.mem_cons_of_mem x hq)
      rw [lookup_insert_eq] at hLookup
      split at hLookup
      · cases hLookup
        cases List.mem_append.mp hq with
        | inl hOld =>
            cases hGroup : groups.lookup (groupKey x) with
            | none =>
                rw [hGroup] at hOld
                cases hOld
            | some old =>
                rw [hGroup] at hOld
                exact hGroups _ old hGroup q hOld
        | inr hNew =>
            rw [List.mem_singleton.mp hNew]
            exact hxs x List.mem_cons_self
      · exact hGroups key members hLookup q hq

theorem mem_updateGroup {display : String} {members : List Process} {state : GroupState}
    {d : LeakDecision} (h : d ∈ (updateGroup p now display members state).2) :
    ∃ q ∈ members, d = ⟨q.pid, q.name, display⟩ := by
  simp only [updateGroup] at h
  split at h
  · obtain ⟨q, hq, hDecision⟩ := List.mem_map.mp h
    exact ⟨q, mem_sortDesc.mp (List.mem_of_mem_drop hq), hDecision.symm⟩
  · cases h

/-- A decision of the loop comes from a member of a family. -/
theorem mem_visitGroups {groups : List (Sigma fun _ : String => List Process)}
    {t : LeakTracker × List LeakDecision} {d : LeakDecision}
    (h : d ∈ (groups.foldl (visitGroup p now) t).2) :
    d ∈ t.2 ∨ ∃ group ∈ groups, ∃ q ∈ group.2, d.pid = q.pid ∧ d.name = q.name := by
  induction groups generalizing t with
  | nil => exact Or.inl h
  | cons group rest ih =>
      cases ih h with
      | inr hRest =>
          obtain ⟨g, hg, hq⟩ := hRest
          exact Or.inr ⟨g, List.mem_cons_of_mem group hg, hq⟩
      | inl hVisited =>
          unfold visitGroup at hVisited
          split at hVisited
          · exact Or.inl hVisited
          · split at hVisited
            · exact Or.inl hVisited
            · cases List.mem_append.mp hVisited with
              | inl hOld => exact Or.inl hOld
              | inr hNew =>
                  obtain ⟨q, hq, hDecision⟩ := mem_updateGroup hNew
                  exact Or.inr ⟨group, List.mem_cons_self, q, hq, by rw [hDecision], by
                    rw [hDecision]⟩

/-- The guard terminates only processes of the list that are neither of the
system tiers nor protected. -/
theorem terminated_mem {t : LeakTracker} {procs : List Process} {d : LeakDecision}
    (h : d ∈ (runLeakGuardCycle cfg p t procs now).decisions) :
    ∃ q ∈ procs, d.pid = q.pid ∧ d.name = q.name ∧
      19 < getPriority q.name q.exeBasename cfg ∧ cfg.isProtected q.name = false := by
  unfold runLeakGuardCycle at h
  split at h
  · cases mem_visitGroups h with
    | inl hNone => cases hNone
    | inr hMember =>
        obtain ⟨group, hGroup, q, hq, hPid, hName⟩ := hMember
        have hCandidate := mem_currentGroups (lookup_eq_some_iff.mpr hGroup) hq
        obtain ⟨hProc, hPrio, hFree⟩ := mem_candidates_iff.mp hCandidate
        exact ⟨q, hProc, hPid, hName, hPrio, hFree⟩
  · cases h

end Terminated

/-! ## The two loops -/

/-- Five seconds of the machine, as either loop may find them. -/
structure Tick where
  now : Instant
  /-- the kernel trigger fires during the wait -/
  event : Bool
  /-- the effective level a full cycle finds; `none` when PSI cannot be read -/
  level : Option PressureLevel
  procs : List Process
  cfg : CompiledConfig
  leakGuard : LeakGuardConfig

/-- What the tracker is given in one cycle. -/
structure LeakSample where
  takenAt : Instant
  procs : List Process

structure LeakLoop where
  lastLevel : PressureLevel
  tracker : LeakTracker
  /-- what the tracker was given so far -/
  samples : List LeakSample
  /-- what it decided so far, and when -/
  emitted : List (Instant × LeakDecision)

def LeakLoop.start : LeakLoop where
  lastLevel := .normal
  tracker := .new
  samples := []
  emitted := []

/-- The full cycle, as far as the guard goes; a PSI error ends it at once. -/
def fullCycle (s : LeakLoop) (t : Tick) : LeakLoop :=
  match t.level with
  | none => s
  | some level =>
      let cycle := runLeakGuardCycle t.cfg t.leakGuard s.tracker t.procs t.now
      { lastLevel := level
        tracker := cycle.tracker
        samples :=
          if t.leakGuard.enabled then s.samples ++ [⟨t.now, candidates t.cfg t.procs⟩]
          else s.samples
        emitted := s.emitted ++ cycle.decisions.map fun d => (t.now, d) }

/-- Without a trigger: sleep, then the full cycle. -/
def pollingStep (s : LeakLoop) (t : Tick) : LeakLoop := fullCycle s t

/-- With one: a wait that times out at Normal goes to `idle_timeout_reclaim`,
which does not run the guard. -/
def triggerStep (s : LeakLoop) (t : Tick) : LeakLoop :=
  if s.lastLevel = .normal ∧ t.event = false then s else fullCycle s t

/-- Both loops gave the tracker the same samples and got the same decisions at
the same times. -/
def SameGuard (s s' : LeakLoop) : Prop := s.samples = s'.samples ∧ s.emitted = s'.emitted

/-- No wait times out at Normal while the guard is enabled and PSI can be read. -/
def Sampled (s : LeakLoop) (t : Tick) : Prop :=
  ¬ (s.lastLevel = .normal ∧ t.event = false ∧ t.leakGuard.enabled = true ∧ t.level.isSome = true)

/-! ## Steps -/

section Loops

variable {s s' : LeakLoop} {t : Tick}

/-- Whether a full cycle gives the tracker a sample. -/
def samplesAt (t : Tick) : Nat :=
  if t.leakGuard.enabled = true ∧ t.level.isSome = true then 1 else 0

theorem length_fullCycle (s : LeakLoop) (t : Tick) :
    (fullCycle s t).samples.length = s.samples.length + samplesAt t := by
  unfold fullCycle samplesAt
  cases t.level with
  | none => simp
  | some level =>
      cases t.leakGuard.enabled with
      | true => simp
      | false => simp

theorem length_triggerStep_le (s : LeakLoop) (t : Tick) :
    (triggerStep s t).samples.length ≤ s.samples.length + samplesAt t := by
  unfold triggerStep
  split
  · exact Nat.le_add_right _ _
  · exact (length_fullCycle s t).le

/-- The trigger loop never gains on the polling loop. -/
theorem length_triggered_le (ticks : List Tick) (s s' : LeakLoop) :
    (run triggerStep s ticks).samples.length + s'.samples.length ≤
      (run pollingStep s' ticks).samples.length + s.samples.length := by
  induction ticks generalizing s s' with
  | nil => simp only [run_nil]; omega
  | cons t rest ih =>
      have hStep := length_triggerStep_le s t
      have hPoll : (pollingStep s' t).samples.length = s'.samples.length + samplesAt t :=
        length_fullCycle s' t
      have hRest := ih (triggerStep s t) (pollingStep s' t)
      simp only [run_cons]
      omega

/-- What the guard remembers and has done is the same. -/
structure Agree (s s' : LeakLoop) : Prop where
  tracker : s.tracker = s'.tracker
  same : SameGuard s s'

theorem agree_fullCycle (h : Agree s s') (t : Tick) : Agree (fullCycle s t) (fullCycle s' t) := by
  unfold fullCycle
  cases t.level with
  | none => exact h
  | some level =>
      obtain ⟨hTracker, hSamples, hEmitted⟩ := h
      refine ⟨?_, ?_, ?_⟩
      · simp only [hTracker]
      · simp only [hSamples]
      · simp only [hTracker, hEmitted]

/-- A full cycle that gives the tracker nothing changes nothing for the guard. -/
theorem agree_of_unsampled (h : Agree s s')
    (hSkip : t.leakGuard.enabled = false ∨ t.level = none) : Agree s (fullCycle s' t) := by
  unfold fullCycle runLeakGuardCycle
  cases hLevel : t.level with
  | none => exact h
  | some level =>
      have hOff : t.leakGuard.enabled = false := by
        cases hSkip with
        | inl hOff => exact hOff
        | inr hNone =>
            rw [hLevel] at hNone
            cases hNone
      obtain ⟨hTracker, hSamples, hEmitted⟩ := h
      exact ⟨by simp [hOff, hTracker], by simp [hOff, hSamples], by simp [hOff, hEmitted]⟩

/-- **One tick** that meets the condition keeps the loops together. -/
theorem agree_step (h : Agree s s') (hSampled : Sampled s t) :
    Agree (triggerStep s t) (pollingStep s' t) := by
  unfold triggerStep pollingStep
  split
  · next hTimeout =>
      refine agree_of_unsampled h ?_
      cases hEnabled : t.leakGuard.enabled with
      | false => exact Or.inl rfl
      | true =>
          cases hLevel : t.level with
          | none => exact Or.inr rfl
          | some level =>
              exact absurd ⟨hTimeout.1, hTimeout.2, hEnabled, by rw [hLevel]; rfl⟩ hSampled
  · exact agree_fullCycle h t

/-- One that does not leaves the trigger loop behind for good. -/
theorem length_lt_of_not_sampled (h : Agree s s') (hSkipped : ¬ Sampled s t) (rest : List Tick) :
    (run triggerStep (triggerStep s t) rest).samples.length <
      (run pollingStep (pollingStep s' t) rest).samples.length := by
  obtain ⟨hNormal, hQuiet, hEnabled, hReadable⟩ := not_not.mp hSkipped
  have hStay : triggerStep s t = s := if_pos ⟨hNormal, hQuiet⟩
  have hTaken : (pollingStep s' t).samples.length = s'.samples.length + 1 := by
    have hPoll := length_fullCycle s' t
    have hOne : samplesAt t = 1 := if_pos ⟨hEnabled, hReadable⟩
    rwa [hOne] at hPoll
  have hEqual : s.samples.length = s'.samples.length := congrArg List.length h.same.1
  have hRun := length_triggered_le rest s (pollingStep s' t)
  rw [hStay]
  omega

theorem sameGuard_iff (h : Agree s s') (ticks : List Tick) :
    SameGuard (run triggerStep s ticks) (run pollingStep s' ticks) ↔
      EveryStep triggerStep Sampled s ticks := by
  induction ticks generalizing s s' with
  | nil => exact iff_of_true h.same trivial
  | cons t rest ih =>
      by_cases hSampled : Sampled s t
      · simp only [run_cons, everyStep_cons, hSampled, true_and]
        exact ih (agree_step h hSampled)
      · simp only [run_cons, everyStep_cons, hSampled, false_and, iff_false]
        intro hSame
        have hLess := length_lt_of_not_sampled h hSampled rest
        rw [hSame.1] at hLess
        exact Nat.lt_irrefl _ hLess

end Loops

/--
**Which runs do not depend on the wake-up mechanism.**  The loop with a trigger
gives the guard what the polling loop gives it, and gets the same decisions at
the same times, exactly when no wait times out at Normal while the guard is
enabled.
-/
theorem sameSamples_iff (ticks : List Tick) :
    SameGuard (run triggerStep .start ticks) (run pollingStep .start ticks) ↔
      EveryStep triggerStep Sampled .start ticks :=
  sameGuard_iff ⟨rfl, rfl, rfl⟩ ticks

/-- **A calm stretch** gives the guard nothing, whatever the processes do. -/
theorem calm_unseen {s : LeakLoop} (hNormal : s.lastLevel = .normal) (ticks : List Tick)
    (hCalm : ∀ t ∈ ticks, t.event = false) : run triggerStep s ticks = s := by
  induction ticks with
  | nil => rfl
  | cons t rest ih =>
      have hStay : triggerStep s t = s := if_pos ⟨hNormal, hCalm t List.mem_cons_self⟩
      rw [run_cons, hStay]
      exact ih fun u hu => hCalm u (List.mem_cons_of_mem t hu)

/-! ## A family that grows in a calm -/

def worker (n : Nat) : Process where
  pid := ⟨UInt32.ofNat (1000 + n)⟩
  name := "mcp-server"
  exeBasename := some "mcp-server"
  rssKb := Kb.clamp 40000
  swapKb := Kb.clamp 0
  oomScore := 0
  cgroupPath := none
  cpuPct := 0
  majflt := 0
  cmdline := "mcp-server --stdio"

/-- Five seconds at Normal, the family `count` strong. -/
def calmTick (secs count : Nat) : Tick where
  now := Instant.ofSecs secs
  event := false
  level := some .normal
  procs := (List.range count).map worker
  cfg := CompiledConfig.ofEmpty 15
  leakGuard := { LeakGuardConfig.default with enabled := true }

def growingFamily : List Tick := [calmTick 5 8, calmTick 10 10, calmTick 15 12, calmTick 20 14]

/-- The polling loop reaps the family, the other never sees it. -/
theorem growingFamily_unseen :
    ¬ ∀ ticks : List Tick,
      SameGuard (run triggerStep .start ticks) (run pollingStep .start ticks) := by
  intro hAll
  have hReaped : (run pollingStep .start growingFamily).emitted.length = 13 := by decide +kernel
  have hUnseen : run triggerStep .start growingFamily = .start :=
    calm_unseen rfl growingFamily (by decide +kernel)
  have hSame := congrArg List.length (hAll growingFamily).2
  rw [hUnseen, hReaped] at hSame
  cases hSame

end Mgd.LeakGuard
