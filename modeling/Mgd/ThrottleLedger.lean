import Mgd.Lib.Run
import Mgd.Throttle

/-!
# The throttle ledger against the files

The manager can undo a throttle only for a cgroup it still records.
`LedgerComplete` says that every cgroup it last lowered is recorded.

An active `update` first drops the entries of cgroups that are not in its
process list, without writing anything.  `ledgerComplete_iff` says that this
is the only way to lose one: the ledger is complete after every call exactly
when each active `update` still lists every cgroup whose weight is lowered.
-/

namespace Mgd.ThrottleLedger

open Mgd.Types Mgd.Monitor Mgd.Config Mgd.Lib.AssocMap Mgd.Lib.Run Mgd.Throttle

/-! ## Calls and states -/

/-- The manager and the files it writes. -/
structure Throttling where
  mgr : ThrottleManager
  files : CpuFiles

def Throttling.initial : Throttling where
  mgr := ThrottleManager.new
  files := CpuFiles.untouched

inductive ThrottleCall
  | update (args : UpdateArgs)
  | restoreAll

/-- One call, every write succeeding. -/
def step (s : Throttling) : ThrottleCall → Throttling
  | .update args =>
      let r := s.mgr.update { args with sysfs := .allOk }
      ⟨r.1, s.files.applyAll r.2⟩
  | .restoreAll => ⟨s.mgr, s.files.applyAll (s.mgr.restoreAll .allOk)⟩

/-- Every cgroup whose last weight is the lowered one is recorded as
`WeightOnly` or `Full`. -/
def LedgerComplete (s : Throttling) : Prop :=
  ∀ path, s.files.weight path = some 1 → s.mgr.isLowered path = true

/-- An active `update` gets a process of every cgroup that is lowered. -/
def ListsLowered (s : Throttling) : ThrottleCall → Prop
  | .update args =>
      args.active = true →
        ∀ path, s.files.weight path = some 1 → path ∈ cgroupPaths args.planProcs
  | .restoreAll => True

/-! ## One round of the loop -/

section Round

variable {args : UpdateArgs} {m : ThrottleManager} {files : CpuFiles} {path p : String}

/-- A round touches its own cgroup only. -/
theorem updateCgroup_frame (m : ThrottleManager) (files : CpuFiles)
    (hOk : args.sysfs = .allOk) (hp : p ≠ path) :
    (updateCgroup args m path).1.states.lookup p = m.states.lookup p ∧
      (files.applyAll (updateCgroup args m path).2).weight p = files.weight p ∧
      (files.applyAll (updateCgroup args m path).2).max p = files.max p := by
  rcases updateCgroup_cases args m path with
    ⟨hStates, hWrites⟩ | ⟨hStates, hWrites⟩ | ⟨target, limit, -, hStates, hWrites⟩
  · rw [hStates, hWrites]
    exact ⟨rfl, rfl, rfl⟩
  · rw [hStates, hWrites, hOk, lookup_insert_eq, CpuFiles.applyAll_restore_weight,
      CpuFiles.applyAll_restore_max, if_neg hp, if_neg hp, if_neg hp]
    exact ⟨rfl, rfl, rfl⟩
  · rw [hStates, hWrites, hOk, lookup_insert_eq, CpuFiles.applyAll_lower_weight,
      CpuFiles.applyAll_lower_max, if_neg hp, if_neg hp, if_neg hp]
    exact ⟨rfl, rfl, rfl⟩

/-- The two files of a cgroup and its ledger entry: a lowered file means a
recorded throttle, and a halved CPU means a lowered weight. -/
structure InStep (m : ThrottleManager) (files : CpuFiles) (p : String) : Prop where
  weight : files.weight p = some 1 → m.isLowered p = true
  quota : files.max p = some maxHalf → files.weight p = some 1

theorem inStep_updateCgroup (hOk : args.sysfs = .allOk) (h : InStep m files p) :
    InStep (updateCgroup args m path).1 (files.applyAll (updateCgroup args m path).2) p := by
  by_cases hp : p = path
  · subst hp
    rcases updateCgroup_cases args m p with
      ⟨hStates, hWrites⟩ | ⟨hStates, hWrites⟩ | ⟨target, limit, hTarget, hStates, hWrites⟩
    · rw [hWrites]
      refine ⟨fun hw => ?_, h.quota⟩
      rw [isLowered_eq_of_lookup (congrArg (AList.lookup p) hStates)]
      exact h.weight hw
    · rw [hWrites, hOk]
      refine ⟨fun hw => ?_, fun hq => ?_⟩
      · rw [CpuFiles.applyAll_restore_weight, if_pos rfl] at hw
        cases hw
      · rw [CpuFiles.applyAll_restore_max, if_pos rfl] at hq
        exact absurd hq (by decide)
    · have hEntry : (updateCgroup args m p).1.states.lookup p = some target := by
        rw [hStates, lookup_insert_eq, if_pos rfl]
      rw [hWrites, hOk]
      refine ⟨fun _ => isLowered_of_lookup hTarget hEntry, fun _ => ?_⟩
      rw [CpuFiles.applyAll_lower_weight, if_pos rfl]
  · obtain ⟨hLookup, hWeight, hMax⟩ := updateCgroup_frame m files hOk hp
    refine ⟨fun hw => ?_, fun hq => ?_⟩
    · rw [isLowered_eq_of_lookup hLookup]
      exact h.weight (hWeight ▸ hw)
    · rw [hWeight]
      exact h.quota (hMax ▸ hq)

/-- The loop leaves the cgroups that are not listed alone. -/
theorem updateCgroups_frame (m : ThrottleManager) (files : CpuFiles)
    (hOk : args.sysfs = .allOk) {paths : List String} (hp : p ∉ paths) :
    (updateCgroups args paths m).1.states.lookup p = m.states.lookup p ∧
      (files.applyAll (updateCgroups args paths m).2).weight p = files.weight p ∧
      (files.applyAll (updateCgroups args paths m).2).max p = files.max p := by
  induction paths generalizing m files with
  | nil => exact ⟨rfl, rfl, rfl⟩
  | cons q paths ih =>
      simp only [List.mem_cons, not_or] at hp
      obtain ⟨hLookup, hWeight, hMax⟩ := updateCgroup_frame m files hOk hp.1
      obtain ⟨ihLookup, ihWeight, ihMax⟩ := ih (updateCgroup args m q).1
        (files.applyAll (updateCgroup args m q).2) hp.2
      simp only [updateCgroups, CpuFiles.applyAll_append]
      exact ⟨ihLookup.trans hLookup, ihWeight.trans hWeight, ihMax.trans hMax⟩

theorem inStep_updateCgroups (hOk : args.sysfs = .allOk) (paths : List String)
    (h : InStep m files p) :
    InStep (updateCgroups args paths m).1 (files.applyAll (updateCgroups args paths m).2) p := by
  induction paths generalizing m files with
  | nil => exact h
  | cons q paths ih =>
      simp only [updateCgroups, CpuFiles.applyAll_append]
      exact ih (inStep_updateCgroup hOk h)

end Round

/-! ## One call -/

section Call

variable {args : UpdateArgs} {m : ThrottleManager} {files : CpuFiles} {p : String}

/-- The ledger and the files agree on every cgroup. -/
def AllInStep (m : ThrottleManager) (files : CpuFiles) : Prop := ∀ p, InStep m files p

/-- Undoing every recorded throttle leaves nothing lowered. -/
theorem restoreAll_weight (h : AllInStep m files) (p : String) :
    (files.applyAll (m.restoreAll .allOk)).weight p ≠ some 1 ∧
      (files.applyAll (m.restoreAll .allOk)).max p ≠ some maxHalf := by
  have hUnkept : p ∉ m.states.keys → files.weight p ≠ some 1 := by
    intro hp hw
    have hLow : m.isLowered p = true := (h p).weight hw
    exact hp (mem_keys_of_isLowered hLow)
  unfold ThrottleManager.restoreAll
  rw [(CpuFiles.applyAll_restore_list m.states.keys p).1,
    (CpuFiles.applyAll_restore_list m.states.keys p).2]
  by_cases hp : p ∈ m.states.keys
  · rw [if_pos hp, if_pos hp]
    exact ⟨by decide, by decide⟩
  · rw [if_neg hp, if_neg hp]
    exact ⟨hUnkept hp, fun hq => hUnkept hp ((h p).quota hq)⟩

/-- An inactive `update` undoes everything and forgets it. -/
theorem update_inactive (m : ThrottleManager) (args : UpdateArgs)
    (hOk : args.sysfs = .allOk) (hActive : args.active = false) :
    m.update args = (ThrottleManager.new, m.restoreAll .allOk) := by
  unfold ThrottleManager.update
  rw [hActive, hOk]
  rfl

/-- An active `update` keeps the ledger in step with the files for the cgroups
it lists. -/
theorem inStep_update_listed (args : UpdateArgs) (hOk : args.sysfs = .allOk)
    (hActive : args.active = true) (h : InStep m files p)
    (hp : p ∈ cgroupPaths args.planProcs) :
    InStep (m.update args).1 (files.applyAll (m.update args).2) p := by
  unfold ThrottleManager.update
  rw [if_pos hActive]
  refine inStep_updateCgroups hOk _ ⟨fun hw => ?_, h.quota⟩
  rw [isLowered_eq_of_lookup (m := m)]
  · exact h.weight hw
  · rw [lookup_retain_key, if_pos (by simpa using hp)]

/-- An active `update` forgets the cgroups it does not list and leaves their
files alone. -/
theorem update_unlisted (m : ThrottleManager) (files : CpuFiles) (args : UpdateArgs)
    (hOk : args.sysfs = .allOk) (hActive : args.active = true)
    (hp : p ∉ cgroupPaths args.planProcs) :
    (m.update args).1.isLowered p = false ∧
      (files.applyAll (m.update args).2).weight p = files.weight p ∧
      (files.applyAll (m.update args).2).max p = files.max p := by
  unfold ThrottleManager.update
  rw [if_pos hActive]
  dsimp only
  obtain ⟨hLookup, hWeight, hMax⟩ := updateCgroups_frame
    ⟨retain (fun path _ => decide (path ∈ cgroupPaths args.planProcs)) m.states,
      retain (fun path _ => decide (path ∈ cgroupPaths args.planProcs)) m.tracker⟩ files hOk hp
  refine ⟨?_, hWeight, hMax⟩
  unfold ThrottleManager.isLowered
  rw [hLookup, lookup_retain_key, if_neg (by simpa using hp)]

end Call

/-! ## Runs -/

section Runs

variable {s : Throttling}

/-- A halved CPU always comes with a lowered weight. -/
def QuotaTied (s : Throttling) : Prop :=
  ∀ p, s.files.max p = some maxHalf → s.files.weight p = some 1

theorem allInStep_iff : AllInStep s.mgr s.files ↔ LedgerComplete s ∧ QuotaTied s := by
  constructor
  · intro h
    exact ⟨fun p => (h p).weight, fun p => (h p).quota⟩
  · intro h p
    exact ⟨h.1 p, h.2 p⟩

/-- After a call that meets the condition the ledger and the files agree. -/
theorem allInStep_step (h : AllInStep s.mgr s.files) (c : ThrottleCall)
    (hc : ListsLowered s c) : AllInStep (step s c).mgr (step s c).files := by
  intro p
  cases c with
  | restoreAll =>
      obtain ⟨hWeight, hMax⟩ := restoreAll_weight h p
      exact ⟨fun hw => absurd hw hWeight, fun hq => absurd hq hMax⟩
  | update args =>
      cases hActive : args.active with
      | false =>
          simp only [step, update_inactive s.mgr { args with sysfs := .allOk } rfl hActive]
          obtain ⟨hWeight, hMax⟩ := restoreAll_weight h p
          exact ⟨fun hw => absurd hw hWeight, fun hq => absurd hq hMax⟩
      | true =>
          by_cases hp : p ∈ cgroupPaths args.planProcs
          · exact inStep_update_listed { args with sysfs := .allOk } rfl hActive (h p) hp
          · obtain ⟨-, hWeight, hMax⟩ := update_unlisted s.mgr s.files
              { args with sysfs := .allOk } rfl hActive hp
            refine ⟨fun hw => ?_, fun hq => ?_⟩
            · exact absurd (hc hActive p (hWeight ▸ hw)) hp
            · rw [show (step s (.update args)).files.weight p = _ from hWeight]
              exact (h p).quota (hMax ▸ hq)

/-- A call that breaks the condition loses an entry. -/
theorem listsLowered_of_complete (c : ThrottleCall) (hc : LedgerComplete (step s c)) :
    ListsLowered s c := by
  cases c with
  | restoreAll => trivial
  | update args =>
      intro hActive p hw
      by_contra hp
      obtain ⟨hLost, hWeight, -⟩ := update_unlisted s.mgr s.files
        { args with sysfs := .allOk } rfl hActive hp
      have hKept := hc p (hWeight.trans hw)
      rw [show (step s (.update args)).mgr.isLowered p = false from hLost] at hKept
      cases hKept

theorem allInStep_initial : AllInStep Throttling.initial.mgr Throttling.initial.files := by
  intro p
  refine ⟨fun hw => ?_, fun hq => ?_⟩
  · cases hw
  · cases hq

/--
**When the ledger is complete.**  After every call each lowered cgroup is still
recorded exactly when every active `update` lists all cgroups that are lowered
at that moment.
-/
theorem ledgerComplete_iff (calls : List ThrottleCall) :
    Always step LedgerComplete Throttling.initial calls ↔
      EveryStep step ListsLowered Throttling.initial calls := by
  have hTied : ∀ s c, QuotaTied s → LedgerComplete s → ListsLowered s c →
      QuotaTied (step s c) := by
    intro s c hTied hComplete hc
    have hNext := allInStep_step (allInStep_iff.mpr ⟨hComplete, hTied⟩) c hc
    exact (allInStep_iff.mp hNext).2
  have hExact : ∀ s c, QuotaTied s → LedgerComplete s →
      (LedgerComplete (step s c) ↔ ListsLowered s c) := by
    intro s c hTied hComplete
    constructor
    · exact listsLowered_of_complete c
    · intro hc
      have hNext := allInStep_step (allInStep_iff.mpr ⟨hComplete, hTied⟩) c hc
      exact (allInStep_iff.mp hNext).1
  obtain ⟨hComplete, hQuota⟩ := allInStep_iff.mp allInStep_initial
  exact always_iff_everyStep (fun s c _ => hTied s c) (fun s c _ => hExact s c)
    (everyStep_true _ calls) hQuota hComplete

/-! ## A frozen process -/

/-- An expendable background process, alone in its cgroup. -/
def indexer : Process where
  pid := ⟨2000⟩
  name := "baloo_file"
  exeBasename := none
  rssKb := Kb.clamp 200000
  swapKb := Kb.clamp 0
  oomScore := 200
  cgroupPath := some "/user.slice/app-baloo.service"
  cpuPct := 0
  majflt := 0
  cmdline := ""

def indexerConfig : CompiledConfig :=
  { CompiledConfig.ofEmpty 15 with entries := [⟨Regex.exact "baloo_file", 90, none⟩] }

/-- An active `update` at a PSI of 10%, with the given list and time. -/
def updateAt (secs : Nat) (planProcs : List Process) : ThrottleCall :=
  .update
    { planProcs := planProcs
      activePid := none
      active := true
      psiSomeAvg10 := 10
      cfg := indexerConfig
      clock := ⟨fun _ => Instant.ofSecs secs, fun _ => Instant.ofSecs secs⟩
      sysfs := .allOk }

/-- The process is throttled after 10 s; then the daemon freezes it, and it
drops out of the list. -/
def freezeRun : List ThrottleCall :=
  [updateAt 0 [indexer], updateAt 10 [indexer], updateAt 15 []]

/-- After the freeze the weight is still 1 and the manager has forgotten it. -/
theorem freezeRun_loses_entry : ¬ Always step LedgerComplete Throttling.initial freezeRun := by
  intro hAlways
  have hLow : (run step Throttling.initial freezeRun).files.weight
      "/user.slice/app-baloo.service" = some 1 := by decide +kernel
  have hLost : (run step Throttling.initial freezeRun).mgr.isLowered
      "/user.slice/app-baloo.service" = false := by decide +kernel
  rw [hAlways.last _ hLow] at hLost
  cases hLost

end Runs

end Mgd.ThrottleLedger
