import Mathlib.Algebra.GroupWithZero.Nat
import Mgd.Lib.Run
import Mgd.Recovery

/-!
# How recovery empties its registries

`unfreeze_pass` goes through the frozen processes in the order of a hash map and
stops after four it has let go.  It lets go of a process when `unfreeze_checked`
answers success, which it does for one that takes SIGCONT and for one whose start
time is not read as recorded: such a process counts toward the four and gets no
signal.

`restore_pass` looks at one entry, a lightest.  Three failed restores are counted
in the entry, and the pass after the third gives it up.  A count of three or more
read from the state file costs one pass as well.

`recovery_drains` puts the three together.
-/

namespace Mgd.RecoveryDrain

open Mgd.Types Mgd.Monitor Mgd.Config Mgd.Lib.AssocMap Mgd.Lib.Run Mgd.Executor.Registry
open Mgd.Recovery

/-! ## Resuming -/

section Unfreezing

variable (tick : RecoveryTick) (b : HealthBaseline) (reg : FrozenRegistry)

def aged (pid : Pid) : Bool := decide (minFreezeAgeSecs ≤ tick.now - reg.frozenAt pid)

/-- Old enough, and `unfreeze_checked` answers success. -/
def letGo (pid : Pid) : Bool :=
  aged tick reg pid &&
    (unfreezeChecked tick.kill tick.startTime pid (reg.startTime pid)).success

/-- SIGCONT is delivered to the recorded process. -/
def signalled (pid : Pid) : Bool :=
  contDelivered tick.kill tick.startTime pid (reg.startTime pid)

def baselineAllows : Prop :=
  b.safeToRestore tick.meminfo.availableKb tick.meminfo.totalKb (Kb.clamp 0) = true

/-- The pass removes four of the entries it may let go of, or all when there are
fewer, changes no other entry, and sends SIGCONT to those removed that are there. -/
def LetsGoOfFour : Prop :=
  baselineAllows tick b →
    ∃ removed : List Pid, removed.Nodup ∧
      removed.length = min 4 (reg.frozenPids.filter (letGo tick reg)).length ∧
      (∀ pid ∈ removed, pid ∈ reg.frozenPids ∧ letGo tick reg pid = true) ∧
      (∀ pid, (unfreezePass tick b reg).1.frozen.lookup pid =
        if pid ∈ removed then none else reg.frozen.lookup pid) ∧
      ∀ pid, pid ∈ (unfreezePass tick b reg).2 ↔ pid ∈ removed ∧ signalled tick reg pid = true

end Unfreezing

section UnfreezingLemmas

variable {tick : RecoveryTick} {b : HealthBaseline} {reg : FrozenRegistry}

/-- Removing one entry leaves the others' records. -/
theorem records_remove {pid other : Pid} (hOther : other ≠ pid) :
    (reg.remove pid).startTime other = reg.startTime other ∧
      (reg.remove pid).frozenAt other = reg.frozenAt other := by
  have hLookup : (reg.remove pid).frozen.lookup other = reg.frozen.lookup other := by
    rw [FrozenRegistry.lookup_remove, if_neg hOther]
  unfold FrozenRegistry.startTime FrozenRegistry.frozenAt
  rw [hLookup]
  exact ⟨rfl, rfl⟩

theorem letGo_remove {pid other : Pid} (hOther : other ≠ pid) :
    letGo tick (reg.remove pid) other = letGo tick reg other := by
  unfold letGo aged
  rw [(records_remove hOther).1, (records_remove hOther).2]

/-- What the loop removes: the first entries it may let go of, up to four. -/
def removedFrom (tick : RecoveryTick) (reg : FrozenRegistry) (pids : List Pid) (count : Nat) :
    List Pid :=
  (pids.filter (letGo tick reg)).take (maxUnfreezePerCycle - count)

theorem removedFrom_remove {pid : Pid} {rest : List Pid} (hFresh : pid ∉ rest) (count : Nat) :
    removedFrom tick (reg.remove pid) rest count = removedFrom tick reg rest count := by
  unfold removedFrom
  have hFilter : rest.filter (letGo tick (reg.remove pid)) = rest.filter (letGo tick reg) :=
    List.filter_congr fun other hOther =>
      letGo_remove (ne_of_mem_of_not_mem hOther hFresh)
  rw [hFilter]

theorem removedFrom_skip {pid : Pid} {rest : List Pid} {count : Nat}
    (hNot : letGo tick reg pid = false) :
    removedFrom tick reg (pid :: rest) count = removedFrom tick reg rest count := by
  unfold removedFrom
  rw [List.filter_cons_of_neg (by simp [hNot])]

theorem removedFrom_take {pid : Pid} {rest : List Pid} {count : Nat}
    (hLetGo : letGo tick reg pid = true) (hRoom : count < maxUnfreezePerCycle) :
    removedFrom tick reg (pid :: rest) count = pid :: removedFrom tick reg rest (count + 1) := by
  unfold removedFrom
  have hOne : maxUnfreezePerCycle - count = (maxUnfreezePerCycle - (count + 1)) + 1 := by
    omega
  rw [List.filter_cons_of_pos hLetGo, hOne, List.take_succ_cons]

theorem removedFrom_full {pids : List Pid} {count : Nat} (hFull : maxUnfreezePerCycle ≤ count) :
    removedFrom tick reg pids count = [] := by
  unfold removedFrom
  rw [Nat.sub_eq_zero_of_le hFull, List.take_zero]

/-- Those of the entries whose process is read as recorded. -/
def readAsRecorded (tick : RecoveryTick) (reg : FrozenRegistry) (pids : List Pid) : List Pid :=
  pids.filter fun pid => decide (tick.startTime pid = some (reg.startTime pid))

theorem readAsRecorded_remove {pid : Pid} {pids : List Pid} (hFresh : pid ∉ pids) :
    readAsRecorded tick (reg.remove pid) pids = readAsRecorded tick reg pids :=
  List.filter_congr fun other hOther => by
    rw [(records_remove (ne_of_mem_of_not_mem hOther hFresh)).1]

theorem readAsRecorded_cons (pid : Pid) (rest : List Pid) :
    readAsRecorded tick reg (pid :: rest) =
      if tick.startTime pid = some (reg.startTime pid) then
        pid :: readAsRecorded tick reg rest
      else readAsRecorded tick reg rest := by
  unfold readAsRecorded
  split
  · next hRead => exact List.filter_cons_of_pos (decide_eq_true hRead)
  · next hRead => exact List.filter_cons_of_neg (by simpa using hRead)

/-- One turn of the loop, while fewer than four are let go. -/
theorem unfreezeLoop_cons (hSafe : baselineAllows tick b) (pid : Pid) (rest : List Pid)
    {count : Nat} (hRoom : count < maxUnfreezePerCycle) :
    unfreezeLoop tick b (pid :: rest) count reg =
      if letGo tick reg pid = true then
        ((unfreezeLoop tick b rest (count + 1) (reg.remove pid)).1,
          if tick.startTime pid = some (reg.startTime pid) then
            pid :: (unfreezeLoop tick b rest (count + 1) (reg.remove pid)).2
          else (unfreezeLoop tick b rest (count + 1) (reg.remove pid)).2)
      else unfreezeLoop tick b rest count reg := by
  unfold baselineAllows at hSafe
  rw [unfreezeLoop, if_neg (Nat.not_le_of_gt hRoom), hSafe,
    if_neg (fun hUnsafe : true = false => Bool.noConfusion hUnsafe)]
  by_cases hYoung : tick.now - reg.frozenAt pid < minFreezeAgeSecs
  · have hNot : letGo tick reg pid = false := by
      simp [letGo, aged, Nat.not_le_of_gt hYoung]
    rw [if_pos hYoung, hNot, if_neg Bool.false_ne_true]
  · have hOld : letGo tick reg pid =
        (unfreezeChecked tick.kill tick.startTime pid (reg.startTime pid)).success := by
      simp [letGo, aged, Nat.le_of_not_lt hYoung]
    rw [if_neg hYoung, hOld]
    dsimp only
    split
    · split <;> rfl
    · rfl

/-- **What the loop does**: it removes the first entries it may let go of, up to
four, and signals those that are read as recorded. -/
theorem unfreezeLoop_spec (hSafe : baselineAllows tick b) {pids : List Pid}
    (hNodup : pids.Nodup) (count : Nat) :
    (∀ pid, (unfreezeLoop tick b pids count reg).1.frozen.lookup pid =
      if pid ∈ removedFrom tick reg pids count then none else reg.frozen.lookup pid) ∧
    (unfreezeLoop tick b pids count reg).2 =
      readAsRecorded tick reg (removedFrom tick reg pids count) := by
  induction pids generalizing reg count with
  | nil => simp [unfreezeLoop, removedFrom, readAsRecorded]
  | cons pid rest ih =>
      obtain ⟨hFresh, hRest⟩ := List.nodup_cons.mp hNodup
      by_cases hFull : maxUnfreezePerCycle ≤ count
      · rw [removedFrom_full hFull, unfreezeLoop, if_pos hFull]
        simp [readAsRecorded]
      have hRoom := Nat.lt_of_not_le hFull
      rw [unfreezeLoop_cons hSafe pid rest hRoom]
      cases hLetGo : letGo tick reg pid with
      | false =>
          rw [removedFrom_skip hLetGo, if_neg Bool.false_ne_true]
          exact ih hRest count
      | true =>
          obtain ⟨hLookups, hSignals⟩ := ih hRest (count + 1)
          rw [removedFrom_remove hFresh] at hLookups hSignals
          have hAbsent : pid ∉ removedFrom tick reg rest (count + 1) := fun hMem =>
            hFresh (List.mem_of_mem_filter (List.mem_of_mem_take hMem))
          rw [readAsRecorded_remove hAbsent] at hSignals
          rw [removedFrom_take hLetGo hRoom, readAsRecorded_cons, if_pos rfl, hSignals]
          refine ⟨fun q => ?_, rfl⟩
          rw [hLookups q, FrozenRegistry.lookup_remove]
          by_cases hSame : q = pid <;> simp [hSame]

theorem letsGoOfFour (tick : RecoveryTick) (b : HealthBaseline) (reg : FrozenRegistry) :
    LetsGoOfFour tick b reg := by
  intro hSafe
  obtain ⟨hLookups, hSignals⟩ :=
    unfreezeLoop_spec hSafe reg.frozen.keys_nodup 0
  have hMem : ∀ pid ∈ removedFrom tick reg reg.frozenPids 0,
      pid ∈ reg.frozenPids ∧ letGo tick reg pid = true := fun pid hPid =>
    List.mem_filter.mp (List.mem_of_mem_take hPid)
  refine ⟨removedFrom tick reg reg.frozenPids 0, ?_, List.length_take, hMem, hLookups, ?_⟩
  · exact (reg.frozen.keys_nodup.filter _).sublist (List.take_sublist _ _)
  · intro pid
    have hPass : (unfreezePass tick b reg).2 = _ := hSignals
    rw [hPass, readAsRecorded, List.mem_filter]
    refine and_congr_right fun hPid => ?_
    have hLetGo := (hMem pid hPid).2
    unfold letGo at hLetGo
    have hSuccess := ((Bool.and_eq_true _ _).mp hLetGo).2
    unfold signalled contDelivered
    rw [hSuccess, Bool.and_true]

end UnfreezingLemmas

/-! ## Restoring -/

/-- What `restore_pass` logs. -/
inductive LogAction
  | restore
  | restoreFail
  | restoreAbandon
deriving DecidableEq

section Restoring

variable (tick : RecoveryTick) (b : HealthBaseline) (reg : CheckpointRegistry)

def safeFor (rss : Kb) : Bool :=
  b.safeToRestore tick.meminfoAtRestore.availableKb tick.meminfoAtRestore.totalKb rss

/-- The log line of a pass. -/
def restoreLog : List (Pid × LogAction) :=
  match reg.entriesLightestFirst with
  | [] => []
  | (pid, entry) :: _ =>
      if entry.attempts ≥ maxRestoreAttempts then [(pid, .restoreAbandon)]
      else if safeFor tick b entry.rss then
        if tick.restore entry.snapshotDir then [(pid, .restore)] else [(pid, .restoreFail)]
      else []

/-- The pass changes nothing but a lightest entry, and when there is no room for
that one there is none for any other. -/
def TouchesLightest : Prop :=
  (∀ pid, reg.checkpointed.lookup pid = none) ∧ (restorePass tick b reg).1 = reg ∨
    ∃ pid e, reg.checkpointed.lookup pid = some e ∧
      (∀ pid' e', reg.checkpointed.lookup pid' = some e' → e.rss.val ≤ e'.rss.val) ∧
      (∀ pid', pid' ≠ pid → (restorePass tick b reg).1.checkpointed.lookup pid' =
        reg.checkpointed.lookup pid') ∧
      (safeFor tick b e.rss = false → (restorePass tick b reg).1 = reg ∨
        maxRestoreAttempts ≤ e.attempts) ∧
      (safeFor tick b e.rss = false →
        ∀ pid' e', reg.checkpointed.lookup pid' = some e' → safeFor tick b e'.rss = false)

end Restoring

/-- A registry under restore passes, and the log. -/
structure Draining where
  registry : CheckpointRegistry
  log : List (Pid × LogAction)

structure RestorePass where
  tick : RecoveryTick
  baseline : HealthBaseline

def Draining.step (s : Draining) (i : RestorePass) : Draining where
  registry := (restorePass i.tick i.baseline s.registry).1
  log := s.log ++ restoreLog i.tick i.baseline s.registry

/-- There is room for the entry the pass would restore. -/
def GatePasses (s : Draining) (i : RestorePass) : Prop :=
  ∀ e ∈ s.registry.entriesLightestFirst.head?, e.2.attempts < maxRestoreAttempts →
    safeFor i.tick i.baseline e.2.rss = true

/-- The passes an entry may take. -/
def passesFor (e : CheckpointEntry) : Nat := max 1 (maxRestoreAttempts + 1 - e.attempts)

def passes (reg : CheckpointRegistry) : Nat := ((values reg.checkpointed).map passesFor).sum

def Draining.times (s : Draining) (pid : Pid) (action : LogAction) : Nat :=
  s.log.count (pid, action)

/-- What the log says of a PID is what became of its entry: it left once, by a
restore or given up after three failures, or is there with its failures counted. -/
structure Accounts (start : CheckpointRegistry) (s : Draining) (pid : Pid) : Prop where
  once : s.times pid .restore + s.times pid .restoreAbandon ≤ 1
  failures : ∀ e, start.checkpointed.lookup pid = some e →
    s.times pid .restoreFail ≤ maxRestoreAttempts - e.attempts
  abandoned : 0 < s.times pid .restoreAbandon → ∃ e, start.checkpointed.lookup pid = some e ∧
    maxRestoreAttempts ≤ e.attempts + s.times pid .restoreFail
  entry : s.registry.checkpointed.lookup pid =
    if s.times pid .restore + s.times pid .restoreAbandon = 0 then
      (start.checkpointed.lookup pid).map fun e =>
        { e with attempts := e.attempts + s.times pid .restoreFail }
    else none
  known : start.checkpointed.lookup pid = none →
    s.times pid .restore + s.times pid .restoreAbandon + s.times pid .restoreFail = 0

/-- Passes that find room empty the registry in time, and no entry is lost. -/
def Drains (reg : CheckpointRegistry) (inputs : List RestorePass) : Prop :=
  EveryStep Draining.step GatePasses ⟨reg, []⟩ inputs →
    (passes reg ≤ inputs.length →
      ∀ pid, (run Draining.step ⟨reg, []⟩ inputs).registry.checkpointed.lookup pid = none) ∧
    ∀ pid, Accounts reg (run Draining.step ⟨reg, []⟩ inputs) pid

section RestoringLemmas

variable {tick : RecoveryTick} {b : HealthBaseline} {reg : CheckpointRegistry}

/-- Room for a process is room for a smaller one. -/
theorem safeFor_anti {small large : Kb} (hLe : small.val ≤ large.val)
    (hSafe : safeFor tick b large = true) : safeFor tick b small = true := by
  have hAfter : (tick.meminfoAtRestore.availableKb.saturatingSub large).val ≤
      (tick.meminfoAtRestore.availableKb.saturatingSub small).val := by
    unfold Kb.saturatingSub Kb.clamp
    dsimp only
    omega
  unfold safeFor HealthBaseline.safeToRestore at hSafe ⊢
  dsimp only at hSafe ⊢
  split at hSafe
  · next hCold =>
      rw [if_pos hCold]
      exact decide_eq_true (lt_of_lt_of_le (of_decide_eq_true hSafe) hAfter)
  · next hWarm =>
      rw [if_neg hWarm]
      have hCast : ((tick.meminfoAtRestore.availableKb.saturatingSub large).val : ℚ) ≤
          (tick.meminfoAtRestore.availableKb.saturatingSub small).val := Nat.cast_le.mpr hAfter
      exact decide_eq_true (lt_of_lt_of_le (of_decide_eq_true hSafe) hCast)

/-- **What a pass can do**: find nothing, give a lightest entry up, restore it,
count a failure, or leave it. -/
theorem restorePass_cases (tick : RecoveryTick) (b : HealthBaseline) (reg : CheckpointRegistry) :
    (reg.entriesLightestFirst = [] ∧ (restorePass tick b reg).1 = reg ∧
        restoreLog tick b reg = []) ∨
      ∃ pid e rest, reg.entriesLightestFirst = (pid, e) :: rest ∧
        ((maxRestoreAttempts ≤ e.attempts ∧ (restorePass tick b reg).1 = reg.remove pid ∧
            restoreLog tick b reg = [(pid, .restoreAbandon)]) ∨
          (safeFor tick b e.rss = true ∧ (restorePass tick b reg).1 = reg.remove pid ∧
            restoreLog tick b reg = [(pid, .restore)]) ∨
          (e.attempts < maxRestoreAttempts ∧ safeFor tick b e.rss = true ∧
            (restorePass tick b reg).1 = reg.incrementAttempts pid ∧
            restoreLog tick b reg = [(pid, .restoreFail)]) ∨
          (e.attempts < maxRestoreAttempts ∧ safeFor tick b e.rss = false ∧
            (restorePass tick b reg).1 = reg ∧ restoreLog tick b reg = [])) := by
  unfold restorePass restoreLog
  cases hEntries : reg.entriesLightestFirst with
  | nil => exact Or.inl ⟨rfl, rfl, rfl⟩
  | cons first rest =>
      obtain ⟨pid, e⟩ := first
      refine Or.inr ⟨pid, e, rest, rfl, ?_⟩
      dsimp only
      by_cases hGivesUp : e.attempts ≥ maxRestoreAttempts
      · rw [if_pos hGivesUp, if_pos hGivesUp]
        exact Or.inl ⟨hGivesUp, rfl, rfl⟩
      · have hFew := Nat.lt_of_not_le hGivesUp
        rw [if_neg hGivesUp, if_neg hGivesUp]
        apply Or.inr
        by_cases hSafe : safeFor tick b e.rss = true
        · have hSame : b.safeToRestore tick.meminfoAtRestore.availableKb
              tick.meminfoAtRestore.totalKb e.rss = true := hSafe
          rw [if_pos hSame, if_pos hSafe]
          by_cases hOk : tick.restore e.snapshotDir = true
          · rw [if_pos hOk, if_pos hOk]
            exact Or.inl ⟨hSafe, rfl, rfl⟩
          · rw [if_neg hOk, if_neg hOk]
            exact Or.inr (Or.inl ⟨hFew, hSafe, rfl, rfl⟩)
        · have hSame : ¬ b.safeToRestore tick.meminfoAtRestore.availableKb
              tick.meminfoAtRestore.totalKb e.rss = true := hSafe
          rw [if_neg hSame, if_neg hSafe]
          exact Or.inr (Or.inr ⟨hFew, Bool.eq_false_of_not_eq_true hSafe, rfl, rfl⟩)

theorem lookup_of_head {pid : Pid} {e : CheckpointEntry} {rest : List (Pid × CheckpointEntry)}
    (h : reg.entriesLightestFirst = (pid, e) :: rest) : reg.checkpointed.lookup pid = some e := by
  apply CheckpointRegistry.mem_entriesLightestFirst_iff.mp
  rw [h]
  exact List.mem_cons_self

theorem lookup_of_entries_nil (h : reg.entriesLightestFirst = []) (pid : Pid) :
    reg.checkpointed.lookup pid = none := by
  rw [Option.eq_none_iff_forall_ne_some]
  intro e hEntry
  have hMem := CheckpointRegistry.mem_entriesLightestFirst_iff.mpr hEntry
  rw [h] at hMem
  cases hMem

theorem touchesLightest (tick : RecoveryTick) (b : HealthBaseline) (reg : CheckpointRegistry) :
    TouchesLightest tick b reg := by
  cases restorePass_cases tick b reg with
  | inl hNone => exact Or.inl ⟨lookup_of_entries_nil hNone.1, hNone.2.1⟩
  | inr hSome =>
      obtain ⟨pid, e, rest, hEntries, hWhat⟩ := hSome
      have hLightest := CheckpointRegistry.lightest_of_cons hEntries
      refine Or.inr ⟨pid, e, lookup_of_head hEntries, hLightest, ?_, ?_, ?_⟩
      · intro pid' hOther
        have hRemove : (reg.remove pid).checkpointed.lookup pid' =
            reg.checkpointed.lookup pid' := by
          rw [CheckpointRegistry.lookup_remove, if_neg hOther]
        rcases hWhat with ⟨-, hReg, -⟩ | ⟨-, hReg, -⟩ | ⟨-, -, hReg, -⟩ |
          ⟨-, -, hReg, -⟩
        · rw [hReg, hRemove]
        · rw [hReg, hRemove]
        · rw [hReg, CheckpointRegistry.lookup_incrementAttempts, if_neg hOther]
        · rw [hReg]
      · intro hUnsafe
        rcases hWhat with ⟨hMany, -⟩ | ⟨hSafe, -⟩ | ⟨-, hSafe, -⟩ | ⟨-, -, hReg, -⟩
        · exact Or.inr hMany
        · rw [hUnsafe] at hSafe
          cases hSafe
        · rw [hUnsafe] at hSafe
          cases hSafe
        · exact Or.inl hReg
      · intro hUnsafe pid' e' hEntry
        by_contra hSafe
        have hRoom := safeFor_anti (hLightest pid' e' hEntry) (Bool.eq_true_of_not_eq_false hSafe)
        rw [hUnsafe] at hRoom
        cases hRoom

/-! ### The measure -/

theorem one_le_passesFor (e : CheckpointEntry) : 1 ≤ passesFor e := Nat.le_max_left _ _

theorem passes_of_lookup {pid : Pid} {e : CheckpointEntry}
    (h : reg.checkpointed.lookup pid = some e) :
    passes reg = passesFor e + ((values (reg.checkpointed.erase pid)).map passesFor).sum :=
  sum_values_erase h passesFor

/-- A pass that finds room takes one from the passes left. -/
theorem passes_step {s : Draining} {i : RestorePass} (hGate : GatePasses s i) :
    passes (s.step i).registry ≤ passes s.registry - 1 := by
  show passes (restorePass i.tick i.baseline s.registry).1 ≤ _
  cases restorePass_cases i.tick i.baseline s.registry with
  | inl hNone =>
      obtain ⟨hEntries, hReg, -⟩ := hNone
      have hNoValues : values s.registry.checkpointed = [] := by
        rw [List.eq_nil_iff_forall_not_mem]
        intro e he
        obtain ⟨pid, hEntry⟩ := mem_values_iff.mp he
        rw [lookup_of_entries_nil hEntries pid] at hEntry
        cases hEntry
      rw [hReg]
      unfold passes
      rw [hNoValues]
      exact Nat.zero_le _
  | inr hSome =>
      obtain ⟨pid, e, rest, hEntries, hWhat⟩ := hSome
      have hBefore := passes_of_lookup (lookup_of_head hEntries)
      have hOne := one_le_passesFor e
      have hRemoved : passes (s.registry.remove pid) =
          ((values (s.registry.checkpointed.erase pid)).map passesFor).sum := rfl
      rcases hWhat with ⟨-, hReg, -⟩ | ⟨-, hReg, -⟩ | ⟨hFew, -, hReg, -⟩ | ⟨hFew, hUnsafe, -⟩
      · rw [hReg]
        omega
      · rw [hReg]
        omega
      · have hCounted : passes (s.registry.incrementAttempts pid) =
            passesFor { e with attempts := e.attempts + 1 } +
              ((values (s.registry.checkpointed.erase pid)).map passesFor).sum :=
          sum_values_adjust (lookup_of_head hEntries) _ passesFor
        have hLess : passesFor { e with attempts := e.attempts + 1 } + 1 = passesFor e := by
          unfold passesFor maxRestoreAttempts
          unfold maxRestoreAttempts at hFew
          dsimp only
          omega
        rw [hReg]
        omega
      · have hSafe := hGate (pid, e) (by rw [hEntries]; rfl) hFew
        rw [hUnsafe] at hSafe
        cases hSafe

theorem passes_run {inputs : List RestorePass} {s : Draining}
    (hGates : EveryStep Draining.step GatePasses s inputs) :
    passes (run Draining.step s inputs).registry ≤ passes s.registry - inputs.length := by
  induction inputs generalizing s with
  | nil => exact Nat.le_refl _
  | cons i rest ih =>
      have hFirst := passes_step hGates.1
      have hRest := ih hGates.2
      rw [run_cons, List.length_cons]
      omega

theorem lookup_of_passes_zero (hZero : passes reg = 0) (pid : Pid) :
    reg.checkpointed.lookup pid = none := by
  rw [Option.eq_none_iff_forall_ne_some]
  intro e hEntry
  have hSum := passes_of_lookup hEntry
  have hOne := one_le_passesFor e
  omega

/-! ### The account of an entry -/

variable {start : CheckpointRegistry} {s : Draining} {pid : Pid}

theorem accounts_start (reg : CheckpointRegistry) (pid : Pid) : Accounts reg ⟨reg, []⟩ pid where
  once := Nat.zero_le 1
  failures _ _ := Nat.zero_le _
  abandoned h := absurd h (Nat.lt_irrefl 0)
  entry := by
    show reg.checkpointed.lookup pid = (reg.checkpointed.lookup pid).map fun e => e
    exact Option.map_id'.symm
  known _ := rfl

/-- A pass that logs something else about the PID and leaves its entry. -/
theorem Accounts.congr {s' : Draining} (h : Accounts start s pid)
    (hLookup : s'.registry.checkpointed.lookup pid = s.registry.checkpointed.lookup pid)
    (hTimes : ∀ action, s'.times pid action = s.times pid action) : Accounts start s' pid := by
  obtain ⟨hOnce, hFailures, hAbandoned, hEntry, hKnown⟩ := h
  refine ⟨?_, ?_, ?_, ?_, ?_⟩ <;> simp only [hTimes]
  · exact hOnce
  · exact hFailures
  · exact hAbandoned
  · rw [hLookup]
    exact hEntry
  · exact hKnown

/-- An entry that is there has its failures counted, and nothing else happened
to it. -/
theorem Accounts.of_lookup {e : CheckpointEntry} (h : Accounts start s pid)
    (hEntry : s.registry.checkpointed.lookup pid = some e) :
    s.times pid .restore = 0 ∧ s.times pid .restoreAbandon = 0 ∧
      ∃ first, start.checkpointed.lookup pid = some first ∧
        e = { first with attempts := first.attempts + s.times pid .restoreFail } := by
  have hAccount := h.entry
  rw [hEntry] at hAccount
  split at hAccount
  · next hThere =>
      obtain ⟨first, hFirst, hSame⟩ := Option.map_eq_some_iff.mp hAccount.symm
      exact ⟨by omega, by omega, first, hFirst, hSame.symm⟩
  · cases hAccount

theorem times_append (log : List (Pid × LogAction)) (reg : CheckpointRegistry) (q pid : Pid)
    (logged action : LogAction) :
    Draining.times ⟨reg, log ++ [(q, logged)]⟩ pid action =
      log.count (pid, action) + if q = pid ∧ logged = action then 1 else 0 := by
  unfold Draining.times
  rw [List.count_append, List.count_singleton]
  simp only [beq_iff_eq, Prod.mk.injEq]

theorem Accounts.restored {e : CheckpointEntry} (h : Accounts start s pid)
    (hEntry : s.registry.checkpointed.lookup pid = some e) :
    Accounts start ⟨s.registry.remove pid, s.log ++ [(pid, .restore)]⟩ pid := by
  obtain ⟨hRestored, hAbandoned, first, hFirst, -⟩ := h.of_lookup hEntry
  have hGone : (s.registry.remove pid).checkpointed.lookup pid = none := by
    rw [CheckpointRegistry.lookup_remove, if_pos rfl]
  unfold Draining.times at hRestored hAbandoned
  refine ⟨?_, ?_, ?_, ?_, ?_⟩ <;> simp only [times_append, hRestored, hAbandoned]
  · decide
  · exact h.failures
  · exact fun hPos => absurd hPos (by simp)
  · rw [hGone]
    rfl
  · intro hNone
    rw [hNone] at hFirst
    cases hFirst

theorem Accounts.givenUp {e : CheckpointEntry} (h : Accounts start s pid)
    (hEntry : s.registry.checkpointed.lookup pid = some e)
    (hMany : maxRestoreAttempts ≤ e.attempts) :
    Accounts start ⟨s.registry.remove pid, s.log ++ [(pid, .restoreAbandon)]⟩ pid := by
  obtain ⟨hRestored, hAbandoned, first, hFirst, hSame⟩ := h.of_lookup hEntry
  have hGone : (s.registry.remove pid).checkpointed.lookup pid = none := by
    rw [CheckpointRegistry.lookup_remove, if_pos rfl]
  unfold Draining.times at hRestored hAbandoned
  refine ⟨?_, ?_, ?_, ?_, ?_⟩ <;> simp only [times_append, hRestored, hAbandoned]
  · decide
  · exact h.failures
  · rw [hSame] at hMany
    exact fun _ => ⟨first, hFirst, hMany⟩
  · rw [hGone]
    rfl
  · intro hNone
    rw [hNone] at hFirst
    cases hFirst

theorem Accounts.failed {e : CheckpointEntry} (h : Accounts start s pid)
    (hEntry : s.registry.checkpointed.lookup pid = some e)
    (hFew : e.attempts < maxRestoreAttempts) :
    Accounts start ⟨s.registry.incrementAttempts pid, s.log ++ [(pid, .restoreFail)]⟩ pid := by
  obtain ⟨hRestored, hAbandoned, first, hFirst, hSame⟩ := h.of_lookup hEntry
  have hCounted : (s.registry.incrementAttempts pid).checkpointed.lookup pid =
      some { e with attempts := e.attempts + 1 } := by
    rw [CheckpointRegistry.lookup_incrementAttempts, if_pos rfl, hEntry]
    rfl
  rw [hSame] at hFew hCounted
  unfold Draining.times at hRestored hAbandoned hFew hCounted
  refine ⟨?_, ?_, ?_, ?_, ?_⟩ <;> simp only [times_append, hRestored, hAbandoned]
  · decide
  · intro e' hE'
    rw [hFirst] at hE'
    cases hE'
    dsimp only at hFew
    rw [if_pos ⟨trivial, trivial⟩]
    omega
  · exact fun hPos => absurd hPos (by simp)
  · rw [hCounted, hFirst]
    simp [Nat.add_assoc]
  · intro hNone
    rw [hNone] at hFirst
    cases hFirst

theorem Accounts.step (h : ∀ pid, Accounts start s pid) (i : RestorePass) (pid : Pid) :
    Accounts start (s.step i) pid := by
  have hSilent : restoreLog i.tick i.baseline s.registry = [] →
      (restorePass i.tick i.baseline s.registry).1 = s.registry → s.step i = s := by
    intro hLog hReg
    unfold Draining.step
    rw [hLog, hReg, List.append_nil]
  cases restorePass_cases i.tick i.baseline s.registry with
  | inl hNone =>
      rw [hSilent hNone.2.2 hNone.2.1]
      exact h pid
  | inr hSome =>
      obtain ⟨q, e, rest, hEntries, hWhat⟩ := hSome
      have hEntry := lookup_of_head hEntries
      unfold Draining.step at hSilent ⊢
      -- a log line about `q` leaves the account of another PID
      have hOthers : q ≠ pid → ∀ (reg' : CheckpointRegistry) (logged : LogAction),
          reg'.checkpointed.lookup pid = s.registry.checkpointed.lookup pid →
          Accounts start ⟨reg', s.log ++ [(q, logged)]⟩ pid := by
        intro hOther reg' logged hLookup
        refine (h pid).congr hLookup fun action => ?_
        rw [times_append, if_neg fun hBoth => hOther hBoth.1]
        rfl
      rcases hWhat with ⟨hMany, hReg, hLog⟩ | ⟨-, hReg, hLog⟩ | ⟨hFew, -, hReg, hLog⟩ |
        ⟨-, -, hReg, hLog⟩
      · rw [hReg, hLog]
        by_cases hSame : q = pid
        · subst hSame
          exact (h q).givenUp hEntry hMany
        · refine hOthers hSame _ _ ?_
          rw [CheckpointRegistry.lookup_remove, if_neg (Ne.symm hSame)]
      · rw [hReg, hLog]
        by_cases hSame : q = pid
        · subst hSame
          exact (h q).restored hEntry
        · refine hOthers hSame _ _ ?_
          rw [CheckpointRegistry.lookup_remove, if_neg (Ne.symm hSame)]
      · rw [hReg, hLog]
        by_cases hSame : q = pid
        · subst hSame
          exact (h q).failed hEntry hFew
        · refine hOthers hSame _ _ ?_
          rw [CheckpointRegistry.lookup_incrementAttempts, if_neg (Ne.symm hSame)]
      · rw [hSilent hLog hReg]
        exact h pid

theorem accounts_run (reg : CheckpointRegistry) (inputs : List RestorePass) :
    ∀ pid, Accounts reg (run Draining.step ⟨reg, []⟩ inputs) pid := by
  have hRun : Always Draining.step (fun s => ∀ pid, Accounts reg s pid) ⟨reg, []⟩ inputs :=
    always_of_invariant (fun s i h _ => Accounts.step h i) (accounts_start reg)
      (everyStep_true _ inputs)
  exact hRun.last

theorem drains (reg : CheckpointRegistry) (inputs : List RestorePass) : Drains reg inputs := by
  intro hGates
  refine ⟨fun hEnough pid => ?_, accounts_run reg inputs⟩
  have hLeft := passes_run hGates
  have hZero : passes (run Draining.step ⟨reg, []⟩ inputs).registry = 0 := by
    dsimp only at hLeft
    omega
  exact lookup_of_passes_zero hZero pid

end RestoringLemmas

/--
**How recovery drains.**  For every registry: a pass the baseline allows lets go
of four of the frozen processes that are old enough and for which
`unfreeze_checked` succeeds, or of all when there are fewer, and changes no other
entry; a restore pass touches only a lightest checkpoint, and no room for that
one is no room for any; and when every restore pass finds room, as many passes
as each entry has attempts left and one more, at least one, empty the registry,
each entry leaving once, restored or given up, after at most three failures.
-/
theorem recovery_drains (tick : RecoveryTick) (b : HealthBaseline) (frozen : FrozenRegistry)
    (reg : CheckpointRegistry) (inputs : List RestorePass) :
    LetsGoOfFour tick b frozen ∧ TouchesLightest tick b reg ∧ Drains reg inputs :=
  ⟨letsGoOfFour tick b frozen, touchesLightest tick b reg, drains reg inputs⟩

/-! ## What does not hold of every registry -/

/-- The pass removes four of the entries whose process takes SIGCONT, or all
when there are fewer. -/
def RemovesSignalled (tick : RecoveryTick) (b : HealthBaseline) (reg : FrozenRegistry) : Prop :=
  baselineAllows tick b →
    (reg.frozenPids.filter fun pid => (unfreezePass tick b reg).1.isFrozen pid = false).length =
      min 4 (reg.frozenPids.filter fun pid =>
        aged tick reg pid && signalled tick reg pid).length

/-- As many passes as the entries have attempts left, and one more each, empty
the registry. -/
def EmptiesInAttempts (reg : CheckpointRegistry) (inputs : List RestorePass) : Prop :=
  EveryStep Draining.step GatePasses ⟨reg, []⟩ inputs →
    ((values reg.checkpointed).map fun e => maxRestoreAttempts + 1 - e.attempts).sum ≤
        inputs.length →
      ∀ pid, (run Draining.step ⟨reg, []⟩ inputs).registry.checkpointed.lookup pid = none

/-- A quiet machine with room, on which PID 1234 is not there. -/
def roomyTick : RecoveryTick where
  pressure := some ⟨0, 0⟩
  cfg := CompiledConfig.ofEmpty 15
  meminfo := ⟨Kb.clamp 8000000, Kb.clamp 16000000, Kb.clamp 0, Kb.clamp 0⟩
  meminfoAtRestore := ⟨Kb.clamp 8000000, Kb.clamp 16000000, Kb.clamp 0, Kb.clamp 0⟩
  now := 1000
  startTime := fun _ => none
  kill := fun _ _ => none
  restore := fun _ => true

/-- The entry of a process that is gone is removed without a signal, and a
checkpoint with four failures in the state file is still there after no pass. -/
theorem gone_and_overcounted :
    ¬ RemovesSignalled roomyTick .new ⟨(∅ : Map Pid FrozenEntry).insert ⟨1234⟩ ⟨"player", 0, 500⟩⟩ ∧
      ¬ EmptiesInAttempts ⟨(∅ : Map Pid CheckpointEntry).insert ⟨1234⟩
        ⟨"player", "/snapshots/1234", Kb.clamp 900000, 4⟩⟩ [] := by
  constructor
  · intro hRemoves
    have hCount := hRemoves (by rfl)
    exact absurd hCount (by decide)
  · intro hEmpties
    have hNone := hEmpties trivial (by decide) ⟨1234⟩
    exact absurd hNone (by decide)

end Mgd.RecoveryDrain
