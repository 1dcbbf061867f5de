import Mgd.Lib.Run
import Mgd.ProcessNames

/-!
# Checkpoints of a session

A dump that fails costs I/O at the worst moment, so the daemon remembers until it ends
the binaries whose checkpoint failed, and that checkpoints are disabled: for want of the
helper, or after an error that looks like missing privileges (`executor/checkpoint.rs`).
The planner asks before it decides (`is_checkpoint_eligible`), and the decisions of a
plan are carried out after all of them are made.

`checkpoints_not_repeated` says what this comes to over a session: no binary is dumped
in a plan after one in which its dump failed, and nothing is after a privilege error.
-/

namespace Mgd.Executor.CheckpointSession

open Mgd.Lib.Run Mgd.ProcessNames

/-! ## What is remembered -/

/-- `looks_like_privilege_error` -/
def looksLikePrivilegeError (stderr : List Char) : Bool :=
  let s := stderr.map Char.toLower
  contains s "operation not permitted".toList ||
    contains s "eperm".toList ||
    contains s "cap_sys_ptrace".toList ||
    contains s "cap_checkpoint_restore".toList ||
    contains s "permission denied".toList ||
    (contains s "ptrace".toList && contains s "denied".toList) ||
    contains s "security error".toList ||
    contains s "capability warning".toList

/-- The three statics. -/
structure Session where
  /-- `none` until it is looked for -/
  helperPath : Option (Option String)
  checkpointDisabled : Bool
  failedBinaries : List String

def Session.start : Session := ⟨none, false, []⟩

/-- Which of the two paths can be executed. -/
structure Probe where
  system : Bool
  home : Bool

/-- `~` stands for the home directory. -/
def findHelper (probe : Probe) : Option String :=
  if probe.system then some "/usr/local/bin/mgd-checkpoint"
  else if probe.home then some "~/.local/bin/mgd-checkpoint"
  else none

namespace Session

/-- `helper_path`, which looks once. -/
def helper (s : Session) (probe : Probe) : Session × Option String :=
  let path := s.helperPath.getD (findHelper probe)
  ({ s with
      helperPath := some path
      checkpointDisabled := s.checkpointDisabled || path.isNone }, path)

def isCheckpointSupported (s : Session) (probe : Probe) : Session × Bool :=
  let looked := (s.helper probe).1
  (looked, !looked.checkpointDisabled)

def isCheckpointEligible (s : Session) (probe : Probe) (name : String) : Session × Bool :=
  let (looked, supported) := s.isCheckpointSupported probe
  (looked, supported && !looked.failedBinaries.contains name)

def markBinaryFailed (s : Session) (name : String) : Session :=
  { s with failedBinaries := name :: s.failedBinaries }

end Session

/-! ## A checkpoint -/

/-- How the helper ends. -/
inductive Output
  | notRun
  | exited (code : Option Int) (stderr : List Char)

/-- A decision to checkpoint, with what it meets. -/
structure Dump where
  name : String
  probe : Probe
  /-- the directory is made, and its path is UTF-8 -/
  dirReady : Bool
  output : Output
  /-- the SIGKILL after a dump succeeds, or finds no process -/
  killed : Bool

structure Ended where
  success : Bool
  /-- the error looks like missing privileges -/
  isPrivErr : Bool

def checkpoint (s : Session) (d : Dump) : Session × Ended :=
  if d.dirReady then
    match s.helper d.probe with
    | (looked, none) => (looked, ⟨false, false⟩)
    | (looked, some _) =>
        match d.output with
        | .notRun => (looked, ⟨false, false⟩)
        | .exited code stderr =>
            if code = some 0 then (looked, ⟨d.killed, false⟩)
            else if looksLikePrivilegeError stderr || decide (code = some 2) then
              ({ looked with checkpointDisabled := true }, ⟨false, true⟩)
            else (looked, ⟨false, false⟩)
  else (s, ⟨false, false⟩)

/-- `execute_checkpoint`, as far as it is remembered. -/
def executeCheckpoint (s : Session) (d : Dump) : Session × Ended :=
  let (after, ended) := checkpoint s d
  (if ended.success then after else after.markBinaryFailed d.name, ended)

/-! ## A plan -/

/-- A process that the planner asks about. -/
structure Candidate where
  probe : Probe
  /-- it is checkpointed where it may be -/
  wanted : Bool
  dump : Dump

/-- The planner asks about each of them in turn. -/
def plan (s : Session) : List Candidate → Session × List Dump
  | [] => (s, [])
  | c :: rest =>
      let (asked, eligible) := s.isCheckpointEligible c.probe c.dump.name
      let (planned, dumps) := plan asked rest
      (planned, if eligible && c.wanted then c.dump :: dumps else dumps)

def execute (s : Session) : List Dump → Session × List (Dump × Ended)
  | [] => (s, [])
  | d :: rest =>
      let (after, ended) := executeCheckpoint s d
      let (last, results) := execute after rest
      (last, (d, ended) :: results)

/-- A dump that was decided on in a plan. -/
structure Entry where
  plan : Nat
  dump : Dump
  ended : Ended

/-- The session with all its dumps so far. -/
structure Daemon where
  session : Session
  plans : Nat
  log : List Entry

def Daemon.start : Daemon := ⟨.start, 0, []⟩

inductive Move
  | plan (candidates : List Candidate)
  /-- `restore`, which looks for the helper too -/
  | restore (probe : Probe)

def Daemon.step (d : Daemon) : Move → Daemon
  | .plan candidates =>
      let (planned, dumps) := plan d.session candidates
      let (after, results) := execute planned dumps
      { session := after
        plans := d.plans + 1
        log := d.log ++ results.map fun r => ⟨d.plans, r.1, r.2⟩ }
  | .restore probe => { d with session := (d.session.helper probe).1 }

/-! ## What one step can do -/

/-- What is remembered only becomes more. -/
structure Session.Grows (s t : Session) : Prop where
  disabled : s.checkpointDisabled = true → t.checkpointDisabled = true
  failed : s.failedBinaries ⊆ t.failedBinaries
  helper : ∀ path, s.helperPath = some path → t.helperPath = some path

theorem Session.Grows.refl (s : Session) : s.Grows s :=
  ⟨id, List.Subset.refl _, fun _ => id⟩

theorem Session.Grows.trans {s t u : Session} (h : s.Grows t) (h' : t.Grows u) : s.Grows u :=
  ⟨fun hs => h'.disabled (h.disabled hs), fun _ hx => h'.failed (h.failed hx),
    fun path hs => h'.helper path (h.helper path hs)⟩

theorem grows_helper (s : Session) (probe : Probe) : s.Grows (s.helper probe).1 where
  disabled hs := by
    show (s.checkpointDisabled || _) = true
    rw [hs]
    rfl
  failed := List.Subset.refl _
  helper path hs := by
    show some (s.helperPath.getD _) = _
    rw [hs]
    rfl

theorem grows_checkpoint (s : Session) (d : Dump) : s.Grows (checkpoint s d).1 := by
  have hLooked := grows_helper s d.probe
  unfold checkpoint
  split
  · split
    · next looked hHelper =>
        rw [hHelper] at hLooked
        exact hLooked
    · next looked path hHelper =>
        rw [hHelper] at hLooked
        split
        · exact hLooked
        · split
          · exact hLooked
          split
          · exact ⟨fun _ => rfl, hLooked.failed, hLooked.helper⟩
          · exact hLooked
  · exact Session.Grows.refl s

/-- A privilege error disables checkpoints. -/
theorem disabled_of_isPrivErr (s : Session) (d : Dump) :
    (checkpoint s d).2.isPrivErr = true → (checkpoint s d).1.checkpointDisabled = true := by
  unfold checkpoint
  split
  · split
    · intro h
      cases h
    · split
      · intro h
        cases h
      · split
        · intro h
          cases h
        split
        · exact fun _ => rfl
        · intro h
          cases h
  · intro h
    cases h

/-- What became of the dump is remembered. -/
structure Remembered (d : Dump) (ended : Ended) (s : Session) : Prop where
  failed : ended.success = false → d.name ∈ s.failedBinaries
  disabled : ended.isPrivErr = true → s.checkpointDisabled = true

theorem Remembered.mono {d : Dump} {ended : Ended} {s t : Session} (h : Remembered d ended s)
    (hGrows : s.Grows t) : Remembered d ended t :=
  ⟨fun hEnded => hGrows.failed (h.failed hEnded),
    fun hEnded => hGrows.disabled (h.disabled hEnded)⟩

theorem executeCheckpoint_spec (s : Session) (d : Dump) :
    s.Grows (executeCheckpoint s d).1 ∧
      Remembered d (executeCheckpoint s d).2 (executeCheckpoint s d).1 := by
  have hGrows := grows_checkpoint s d
  have hPrivErr := disabled_of_isPrivErr s d
  show s.Grows (if (checkpoint s d).2.success then _ else _) ∧
    Remembered d (checkpoint s d).2 (if (checkpoint s d).2.success then _ else _)
  split
  · next hSuccess =>
      refine ⟨hGrows, fun hFailed => ?_, hPrivErr⟩
      rw [hSuccess] at hFailed
      cases hFailed
  · exact ⟨hGrows.trans ⟨id, List.subset_cons_self _ _, fun _ => id⟩,
      fun _ => List.mem_cons_self, hPrivErr⟩

theorem execute_spec (dumps : List Dump) (s : Session) :
    s.Grows (execute s dumps).1 ∧
      ∀ r ∈ (execute s dumps).2, r.1 ∈ dumps ∧ Remembered r.1 r.2 (execute s dumps).1 := by
  induction dumps generalizing s with
  | nil => exact ⟨Session.Grows.refl s, fun _ hr => absurd hr List.not_mem_nil⟩
  | cons d rest ih =>
      obtain ⟨hGrows, hHere⟩ := executeCheckpoint_spec s d
      obtain ⟨hMore, hLater⟩ := ih (executeCheckpoint s d).1
      refine ⟨hGrows.trans hMore, fun r hr => ?_⟩
      cases List.mem_cons.mp hr with
      | inl hFirst =>
          rw [hFirst]
          exact ⟨List.mem_cons_self, hHere.mono hMore⟩
      | inr hRest =>
          obtain ⟨hMem, hRemembered⟩ := hLater r hRest
          exact ⟨List.mem_cons_of_mem d hMem, hRemembered⟩

/-- A binary may be dumped. -/
structure Permitted (s : Session) (name : String) : Prop where
  enabled : s.checkpointDisabled = false
  notFailed : name ∉ s.failedBinaries

theorem Permitted.before {s t : Session} {name : String} (h : Permitted t name)
    (hGrows : s.Grows t) : Permitted s name where
  enabled := by
    cases hDisabled : s.checkpointDisabled with
    | false => rfl
    | true =>
        have hLater := hGrows.disabled hDisabled
        rw [h.enabled] at hLater
        cases hLater
  notFailed hMem := h.notFailed (hGrows.failed hMem)

theorem eligible_spec {s : Session} {probe : Probe} {name : String}
    (h : (s.isCheckpointEligible probe name).2 = true) :
    Permitted (s.helper probe).1 name ∧
      ∃ path, (s.helper probe).1.helperPath = some (some path) := by
  have hBoth : (!(s.helper probe).1.checkpointDisabled &&
      !(s.helper probe).1.failedBinaries.contains name) = true := h
  rw [Bool.and_eq_true, Bool.not_eq_true', Bool.not_eq_true'] at hBoth
  obtain ⟨hEnabled, hNotFailed⟩ := hBoth
  refine ⟨⟨hEnabled, by simpa using hNotFailed⟩, ?_⟩
  have hFound : (s.checkpointDisabled ||
      (s.helperPath.getD (findHelper probe)).isNone) = false := hEnabled
  rw [Bool.or_eq_false_iff, Option.isNone_eq_false_iff, Option.isSome_iff_exists] at hFound
  obtain ⟨-, path, hPath⟩ := hFound
  exact ⟨path, congrArg some hPath⟩

theorem plan_spec (candidates : List Candidate) (s : Session) :
    s.Grows (plan s candidates).1 ∧
      ∀ d ∈ (plan s candidates).2, Permitted s d.name ∧
        ∃ path, (plan s candidates).1.helperPath = some (some path) := by
  induction candidates generalizing s with
  | nil => exact ⟨Session.Grows.refl s, fun _ hr => absurd hr List.not_mem_nil⟩
  | cons c rest ih =>
      have hLooked := grows_helper s c.probe
      obtain ⟨hGrows, hLater⟩ := ih (s.helper c.probe).1
      refine ⟨hLooked.trans hGrows, fun d hd => ?_⟩
      have hDumps : d ∈ (if (s.isCheckpointEligible c.probe c.dump.name).2 && c.wanted then
          c.dump :: (plan (s.helper c.probe).1 rest).2
        else (plan (s.helper c.probe).1 rest).2) := hd
      have hRest : d ∈ (plan (s.helper c.probe).1 rest).2 → Permitted s d.name ∧
          ∃ path, (plan (s.helper c.probe).1 rest).1.helperPath = some (some path) := by
        intro hMem
        obtain ⟨hPermitted, hPath⟩ := hLater d hMem
        exact ⟨hPermitted.before hLooked, hPath⟩
      split at hDumps
      · next hChosen =>
          rw [Bool.and_eq_true] at hChosen
          cases List.mem_cons.mp hDumps with
          | inl hHere =>
              obtain ⟨hPermitted, path, hPath⟩ := eligible_spec hChosen.1
              rw [hHere]
              exact ⟨hPermitted.before hLooked, path, hGrows.helper _ hPath⟩
          | inr hMem => exact hRest hMem
      · exact hRest hDumps

/-! ## Sessions -/

/-- The later dump is not one that was known to fail. -/
def NotRepeated (a b : Entry) : Prop :=
  a.plan < b.plan →
    a.ended.isPrivErr = false ∧ (a.dump.name = b.dump.name → a.ended.success = true)

structure Inv (d : Daemon) : Prop where
  remembered : ∀ e ∈ d.log, Remembered e.dump e.ended d.session
  past : ∀ e ∈ d.log, e.plan < d.plans
  notRepeated : d.log.Pairwise NotRepeated
  helper : d.log ≠ [] → ∃ path, d.session.helperPath = some (some path)

theorem inv_start : Inv Daemon.start where
  remembered _ he := absurd he List.not_mem_nil
  past _ he := absurd he List.not_mem_nil
  notRepeated := List.Pairwise.nil
  helper hSome := absurd rfl hSome

theorem inv_restore {d : Daemon} (h : Inv d) (probe : Probe) : Inv (d.step (.restore probe)) where
  remembered e he := (h.remembered e he).mono (grows_helper d.session probe)
  past := h.past
  notRepeated := h.notRepeated
  helper hSome := by
    obtain ⟨path, hPath⟩ := h.helper hSome
    exact ⟨path, (grows_helper d.session probe).helper _ hPath⟩

theorem inv_plan {d : Daemon} (h : Inv d) (candidates : List Candidate) :
    Inv (d.step (.plan candidates)) := by
  obtain ⟨hPlanned, hDumps⟩ := plan_spec candidates d.session
  obtain ⟨hExecuted, hResults⟩ := execute_spec (plan d.session candidates).2
    (plan d.session candidates).1
  have hGrows := hPlanned.trans hExecuted
  have hNew : ∀ e ∈ (execute (plan d.session candidates).1 (plan d.session candidates).2).2.map
      (fun r => (⟨d.plans, r.1, r.2⟩ : Entry)), e.plan = d.plans ∧
        Remembered e.dump e.ended (d.step (.plan candidates)).session ∧
        Permitted d.session e.dump.name ∧
        ∃ path, (d.step (.plan candidates)).session.helperPath = some (some path) := by
    intro e he
    obtain ⟨r, hr, rfl⟩ := List.mem_map.mp he
    obtain ⟨hMem, hRemembered⟩ := hResults r hr
    obtain ⟨hPermitted, path, hPath⟩ := hDumps r.1 hMem
    exact ⟨rfl, hRemembered, hPermitted, path, hExecuted.helper _ hPath⟩
  constructor
  · intro e he
    cases List.mem_append.mp he with
    | inl hOld => exact (h.remembered e hOld).mono hGrows
    | inr hHere => exact (hNew e hHere).2.1
  · intro e he
    cases List.mem_append.mp he with
    | inl hOld => exact Nat.lt_succ_of_lt (h.past e hOld)
    | inr hHere => exact (hNew e hHere).1 ▸ Nat.lt_succ_self d.plans
  · refine List.pairwise_append.mpr ⟨h.notRepeated, ?_, fun a ha b hb _ => ?_⟩
    · -- dumps of one plan
      refine List.pairwise_of_forall_mem_list fun a ha b hb hBefore => ?_
      rw [(hNew a ha).1, (hNew b hb).1] at hBefore
      exact absurd hBefore (Nat.lt_irrefl _)
    · have hPermitted := (hNew b hb).2.2.1
      have hRemembered := h.remembered a ha
      constructor
      · cases hPrivErr : a.ended.isPrivErr with
        | false => rfl
        | true =>
            have hDisabled := hRemembered.disabled hPrivErr
            rw [hPermitted.enabled] at hDisabled
            cases hDisabled
      · intro hSame
        cases hSuccess : a.ended.success with
        | true => rfl
        | false => exact absurd (hSame ▸ hRemembered.failed hSuccess) hPermitted.notFailed
  · intro hSome
    obtain ⟨e, he⟩ := List.exists_mem_of_ne_nil _ hSome
    cases List.mem_append.mp he with
    | inl hOld =>
        obtain ⟨path, hPath⟩ := h.helper (List.ne_nil_of_mem hOld)
        exact ⟨path, hGrows.helper _ hPath⟩
    | inr hHere => exact (hNew e hHere).2.2.2

theorem inv_step {d : Daemon} (h : Inv d) : ∀ m, Inv (d.step m)
  | .plan candidates => inv_plan h candidates
  | .restore probe => inv_restore h probe

/-- **A checkpoint that failed is not tried again.**  In every session of the daemon, whatever the
helper answers, no binary is dumped in a plan after one in which its checkpoint failed, nothing is
dumped in a plan after one with a privilege error, and without a helper nothing is dumped at
all.  (Within a plan all decisions are made before the first dump.) -/
theorem checkpoints_not_repeated (moves : List Move) :
    (run Daemon.step Daemon.start moves).log.Pairwise NotRepeated ∧
      ((run Daemon.step Daemon.start moves).session.helperPath = some none →
        (run Daemon.step Daemon.start moves).log = []) := by
  have hAlways : Always Daemon.step Inv Daemon.start moves :=
    always_of_invariant (fun _ m h _ => inv_step h m) inv_start (everyStep_true _ moves)
  have hInv := hAlways.last
  refine ⟨hInv.notRepeated, fun hNone => ?_⟩
  by_contra hSome
  obtain ⟨path, hPath⟩ := hInv.helper hSome
  rw [hNone] at hPath
  cases hPath

end Mgd.Executor.CheckpointSession
