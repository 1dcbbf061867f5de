import Mgd.Executor.Signals

/-!
# What a successful unfreeze means

`unfreeze_checked` answers success without a signal when the start time differs
or cannot be read, "original is gone".  A start time cannot be read either when
the process is there and its `stat` file cannot be opened or parsed, and its
callers drop the ledger entry on success.

`unfreeze_truthful_iff` : success means a delivered SIGCONT, or a process that is
gone, except on a process that is there and unreadable.
-/

namespace Mgd.Executor.UnfreezeOutcome

open Mgd.Types Mgd.Lib.AssocMap Mgd.Lib.Accesses Mgd.Executor.Signals
open Mgd.Executor.Registry hiding sendSignal freezeChecked unfreezeChecked

/-- A machine as the accesses of a call find it.  PID 0 is never a process. -/
structure Host where
  timeline : Timeline
  noZero : ∀ t, (timeline.kernel t).procs.lookup Pid.none = none

/-! ## Processes and what reaches them -/

section Processes

variable (h : Host)

/-- The incarnation of a PID with that start time is there at the access `t`. -/
def Host.present (t : Nat) (pid : Pid) (startTime : Nat) : Prop :=
  ∃ o, (h.timeline.kernel t).procs.lookup pid = some o ∧ o.startTime = startTime

/-- A signal of the program is delivered to that incarnation. -/
def Host.reached {α : Type} (t : Nat) (p : Syscalls α) (signal : Signal) (pid : Pid)
    (startTime : Nat) : Prop :=
  ∃ d ∈ h.timeline.deliveries t p,
    d.signal = signal ∧ d.pid = pid ∧ d.occupant.startTime = startTime

variable {h} {t : Nat} {pid : Pid}

theorem present_of_readStartTime {st : Nat}
    (hRead : (h.timeline.kernel t).readStartTime pid = some st) : h.present t pid st := by
  unfold Kernel.readStartTime at hRead
  split at hRead
  · obtain ⟨o, hHeld, hStart⟩ := Option.map_eq_some_iff.mp hRead
    exact ⟨o, hHeld, hStart⟩
  · cases hRead

/-- A PID has one incarnation at a time. -/
theorem present_unique {st st' : Nat} (hSt : h.present t pid st) (hSt' : h.present t pid st') :
    st = st' := by
  obtain ⟨o, hHeld, rfl⟩ := hSt
  obtain ⟨o', hHeld', rfl⟩ := hSt'
  rw [hHeld] at hHeld'
  exact congrArg Occupant.startTime (Option.some.inj hHeld')

theorem pid_ne_zero_of_present {st : Nat} (hPresent : h.present t pid st) : pid ≠ Pid.none := by
  rintro rfl
  obtain ⟨o, hHeld, -⟩ := hPresent
  rw [h.noZero t] at hHeld
  cases hHeld

/-- A call of `kill(2)` on one PID reaches its process or none. -/
theorem mem_delivered_pid {signal : Option Signal} (hPid : pid ≠ Pid.none) {p : Pid}
    {o : Occupant} :
    (p, o) ∈ (h.timeline.kernel t).delivered pid.val.toNat signal ↔
      p = pid ∧ (h.timeline.kernel t).takes pid.val.toNat signal pid o := by
  have hPos : (0 : Int) < pid.val.toNat := by
    have hVal : pid.val ≠ 0 := fun hZero => hPid (congrArg Pid.mk hZero)
    have hNat : pid.val.toNat ≠ 0 := fun hZero => hVal (UInt32.toNat_inj.mp hZero)
    omega
  rw [Kernel.mem_delivered_iff]
  constructor
  · intro hTakes
    have hAddressed := hTakes.2.1
    unfold Kernel.addresses at hAddressed
    rw [if_pos hPos] at hAddressed
    have hVal : (p.val.toNat : Int) = pid.val.toNat := of_decide_eq_true hAddressed
    have hEq : p = pid :=
      congrArg Pid.mk (UInt32.toNat_inj.mp (Int.ofNat_inj.mp hVal))
    exact ⟨hEq, hEq ▸ hTakes⟩
  · intro hBoth
    obtain ⟨rfl, hTakes⟩ := hBoth
    exact hTakes

end Processes

/-- A machine on which a process that is gone does not come back: the start
times of the processes that hold a PID one after the other differ. -/
structure History extends Host where
  gone : ∀ {s t u pid st}, s ≤ t → t ≤ u → toHost.present s pid st → toHost.present u pid st →
    toHost.present t pid st

/-! ## The outcome of `unfreeze_checked` -/

section Outcome

variable (h : Host) (t : Nat) (pid : Pid) (expected : Nat)

/-- Success is true: SIGCONT was delivered to the incarnation, or it was not
there any more at the last access of the call. -/
def Truthful : Prop :=
  ((unfreezeChecked pid expected).result h.timeline.answer t).success = true →
    h.reached t (unfreezeChecked pid expected) .cont pid expected ∨
      ¬ h.present ((unfreezeChecked pid expected).finish h.timeline.answer t - 1) pid expected

/-- The pattern of the callers: unfreeze the process of an entry, and drop the
entry on success. -/
def unfreezeEntry (reg : FrozenRegistry) (pid : Pid) : Syscalls FrozenRegistry :=
  (unfreezeChecked pid (reg.startTime pid)).bind fun r =>
    .ret (if r.success then reg.remove pid else reg)

/-- An entry is dropped only for a process that was resumed or is gone. -/
def DropsOnlyReleased : Prop :=
  ∀ reg : FrozenRegistry, ∀ e, reg.frozen.lookup pid = some e → e.startTime = expected →
    ((unfreezeEntry reg pid).result h.timeline.answer t).isFrozen pid = false →
      h.reached t (unfreezeEntry reg pid) .cont pid expected ∨
        ¬ h.present ((unfreezeEntry reg pid).finish h.timeline.answer t - 1) pid expected

/-- The process is there and its `stat` file cannot be read. -/
def Unreadable : Prop :=
  h.present t pid expected ∧ (h.timeline.kernel t).statReadable pid = false

end Outcome

section OutcomeLemmas

variable {h : Host} {t : Nat} {pid : Pid} {expected : Nat}

/-- Without the expected start time the call ends with the reading, and
succeeds. -/
theorem unfreezeChecked_of_ne
    (hRead : (h.timeline.kernel t).readStartTime pid ≠ some expected) :
    ((unfreezeChecked pid expected).result h.timeline.answer t).success = true ∧
      h.timeline.deliveries t (unfreezeChecked pid expected) = [] ∧
      (unfreezeChecked pid expected).finish h.timeline.answer t = t + 1 := by
  have hReturns : ((unfreezeChecked pid expected).result h.timeline.answer t).success = true ∧
      (unfreezeChecked pid expected).finish h.timeline.answer t = t + 1 := by
    unfold unfreezeChecked
    rw [result_readStartTime, finish_readStartTime]
    cases hStart : (h.timeline.kernel t).readStartTime pid with
    | none => exact ⟨rfl, rfl⟩
    | some st =>
        have hDiffers : st ≠ expected := fun hSame => hRead (hStart.trans (congrArg some hSame))
        dsimp only
        rw [if_pos hDiffers]
        exact ⟨rfl, rfl⟩
  refine ⟨hReturns.1, ?_, hReturns.2⟩
  rw [deliveries_unfreezeChecked, if_neg hRead]

/-- With it, the call is `send_signal`. -/
theorem unfreezeChecked_of_eq
    (hRead : (h.timeline.kernel t).readStartTime pid = some expected) :
    (unfreezeChecked pid expected).result h.timeline.answer t =
        (sendSignal pid .cont).result h.timeline.answer (t + 1) ∧
      (unfreezeChecked pid expected).finish h.timeline.answer t =
        (sendSignal pid .cont).finish h.timeline.answer (t + 1) := by
  unfold unfreezeChecked
  rw [result_readStartTime, finish_readStartTime, hRead]
  dsimp only
  rw [if_neg (not_not.mpr rfl)]
  exact ⟨rfl, rfl⟩

/-- An unreadable process is taken for gone. -/
theorem readStartTime_of_unreadable (hHidden : Unreadable h t pid expected) :
    (h.timeline.kernel t).readStartTime pid ≠ some expected := by
  unfold Kernel.readStartTime
  rw [hHidden.2]
  exact Option.some_ne_none _ |>.symm

/-- A readable process that is there is not taken for gone. -/
theorem not_present_of_ne (hSeen : ¬ Unreadable h t pid expected)
    (hRead : (h.timeline.kernel t).readStartTime pid ≠ some expected) :
    ¬ h.present t pid expected := by
  intro hPresent
  have hReadable : (h.timeline.kernel t).statReadable pid = true := by
    by_contra hNot
    exact hSeen ⟨hPresent, by simpa using hNot⟩
  obtain ⟨o, hHeld, hStart⟩ := hPresent
  apply hRead
  unfold Kernel.readStartTime
  rw [if_pos hReadable, hHeld, Option.map_some, hStart]

/-- A SIGCONT that succeeds is delivered to the incarnation, or the PID has
passed to another one. -/
theorem reached_or_gone_of_send
    (hRead : (h.timeline.kernel t).readStartTime pid = some expected)
    (hSent : ((sendSignal pid .cont).result h.timeline.answer (t + 1)).success = true) :
    h.reached t (unfreezeChecked pid expected) .cont pid expected ∨
      ¬ h.present (t + 1) pid expected := by
  obtain ⟨hFits, hTaken⟩ := (success_sendSignal .cont).mp hSent
  obtain ⟨⟨p, o⟩, hMem⟩ := List.exists_mem_of_ne_nil _ hTaken
  obtain ⟨rfl, hTakes⟩ :=
    (mem_delivered_pid (pid_ne_zero_of_present (present_of_readStartTime hRead))).mp hMem
  by_cases hSame : o.startTime = expected
  · refine Or.inl ⟨⟨t + 1, .cont, p, o⟩, ?_, rfl, rfl, hSame⟩
    rw [deliveries_unfreezeChecked, if_pos hRead, deliveries_sendSignal, if_pos hFits]
    exact Timeline.mem_send_iff.mpr ⟨rfl, rfl, hTakes⟩
  · refine Or.inr ?_
    intro hPresent
    exact hSame (present_unique ⟨o, hTakes.1, rfl⟩ hPresent)

/-- **When success is true.** -/
theorem truthful_iff : Truthful h t pid expected ↔ ¬ Unreadable h t pid expected := by
  by_cases hRead : (h.timeline.kernel t).readStartTime pid = some expected
  · refine iff_of_true ?_ (fun hHidden => readStartTime_of_unreadable hHidden hRead)
    intro hSuccess
    obtain ⟨hResult, hFinish⟩ := unfreezeChecked_of_eq hRead
    rw [hResult] at hSuccess
    have hFits := ((success_sendSignal .cont).mp hSuccess).1
    rw [hFinish, finish_sendSignal .cont hFits]
    exact reached_or_gone_of_send hRead hSuccess
  · obtain ⟨hSuccess, hSilent, hFinish⟩ := unfreezeChecked_of_ne hRead
    unfold Truthful Host.reached
    rw [hSilent, hFinish]
    constructor
    · intro hTrue hHidden
      rcases hTrue hSuccess with hReached | hGone
      · obtain ⟨d, hd, -⟩ := hReached
        cases hd
      · exact hGone hHidden.1
    · intro hSeen _
      exact Or.inr (not_present_of_ne hSeen hRead)

/-- The caller makes the accesses of `unfreeze_checked` and drops the entry on
its success. -/
theorem isFrozen_unfreezeEntry {reg : FrozenRegistry} {e : FrozenEntry}
    (hEntry : reg.frozen.lookup pid = some e) :
    ((unfreezeEntry reg pid).result h.timeline.answer t).isFrozen pid = false ↔
      ((unfreezeChecked pid e.startTime).result h.timeline.answer t).success = true := by
  unfold unfreezeEntry
  rw [Program.result_bind, Program.result_ret, FrozenRegistry.startTime_of_lookup hEntry]
  split
  · next hSuccess => exact iff_of_true (reg.isFrozen_remove_self pid) hSuccess
  · next hFailed =>
      refine iff_of_false ?_ hFailed
      rw [(reg.isFrozen_iff pid).mpr ⟨e, hEntry⟩]
      exact Bool.noConfusion

theorem dropsOnlyReleased_iff_truthful :
    DropsOnlyReleased h t pid expected ↔ Truthful h t pid expected := by
  have hRun : ∀ {reg : FrozenRegistry} {e : FrozenEntry}, reg.frozen.lookup pid = some e →
      (h.timeline.deliveries t (unfreezeEntry reg pid) =
          h.timeline.deliveries t (unfreezeChecked pid e.startTime) ∧
        (unfreezeEntry reg pid).finish h.timeline.answer t =
          (unfreezeChecked pid e.startTime).finish h.timeline.answer t) := by
    intro reg e hEntry
    unfold unfreezeEntry
    rw [FrozenRegistry.startTime_of_lookup hEntry, deliveries_bind, deliveries_ret,
      List.append_nil, Program.finish_bind, Program.finish_ret]
    exact ⟨rfl, rfl⟩
  unfold DropsOnlyReleased Truthful Host.reached
  constructor
  · intro hDrops hSuccess
    have hEntry : (⟨(∅ : Map Pid FrozenEntry).insert pid ⟨"", 0, expected⟩⟩ :
        FrozenRegistry).frozen.lookup pid = some ⟨"", 0, expected⟩ := AList.lookup_insert _
    have hReleased := hDrops _ _ hEntry rfl ((isFrozen_unfreezeEntry hEntry).mpr hSuccess)
    rwa [(hRun hEntry).1, (hRun hEntry).2] at hReleased
  · intro hTrue reg e hEntry hStart hDropped
    subst hStart
    rw [(hRun hEntry).1, (hRun hEntry).2]
    exact hTrue ((isFrozen_unfreezeEntry hEntry).mp hDropped)

end OutcomeLemmas

/-- **When an unfreeze can be believed.**  The success of `unfreeze_checked` is
true, and the callers drop no entry of a process still stopped, exactly when the
process is not there with a `stat` file that cannot be read. -/
theorem unfreeze_truthful_iff (h : Host) (t : Nat) (pid : Pid) (expected : Nat) :
    (Truthful h t pid expected ∧ DropsOnlyReleased h t pid expected) ↔
      ¬ Unreadable h t pid expected := by
  rw [dropsOnlyReleased_iff_truthful, and_self, truthful_iff]

/-- A frozen player, PID 1234. -/
def player : Occupant where
  startTime := 500
  processGroup := 1234
  ownedByUser := true
  inUserSlice := true
  row :=
    { pid := ⟨1234⟩
      name := "player"
      exeBasename := some "player"
      rssKb := Kb.clamp 900000
      swapKb := Kb.clamp 0
      oomScore := 0
      cgroupPath := some "/user.slice/app-player.scope"
      cpuPct := 0
      majflt := 0
      cmdline := "player" }

/-- The player is there all the time. -/
def playerRuns : History where
  timeline :=
    { kernel := fun _ =>
        { procs := (∅ : Map Pid Occupant).insert ⟨1234⟩ player
          statReadable := fun _ => true
          permits := fun _ _ => true
          self := ⟨900⟩
          selfGroup := 900 }
      dump := fun _ => none }
  noZero _ := rfl
  gone _ _ hBefore _ := hBefore

/-- The daemon has no file descriptor left to open a `stat` file with. -/
def outOfDescriptors : Host where
  timeline :=
    { kernel := fun _ =>
        { procs := (∅ : Map Pid Occupant).insert ⟨1234⟩ player
          statReadable := fun _ => false
          permits := fun _ _ => true
          self := ⟨900⟩
          selfGroup := 900 }
      dump := fun _ => none }
  noZero _ := rfl

/-- **The player counts as unfrozen and its entry is dropped.** -/
theorem unreadable_player_dropped :
    outOfDescriptors.present 0 ⟨1234⟩ 500 ∧
      ((unfreezeChecked ⟨1234⟩ 500).result outOfDescriptors.timeline.answer 0).success = true ∧
      outOfDescriptors.timeline.deliveries 0 (unfreezeChecked ⟨1234⟩ 500) = [] ∧
      ¬ (Truthful outOfDescriptors 0 ⟨1234⟩ 500 ∧
        DropsOnlyReleased outOfDescriptors 0 ⟨1234⟩ 500) := by
  have hPresent : outOfDescriptors.present 0 ⟨1234⟩ 500 := ⟨player, rfl, rfl⟩
  refine ⟨hPresent, rfl, rfl, ?_⟩
  intro h
  exact truthful_iff.mp h.1 ⟨hPresent, rfl⟩

end Mgd.Executor.UnfreezeOutcome
