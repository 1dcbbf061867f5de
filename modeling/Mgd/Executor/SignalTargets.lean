import Mgd.Executor.Signals

/-!
# The targets of `kill(2)`

`freezer.rs` converts a PID with `i32::try_from` and refuses what does not fit;
`killer.rs` casts it, so that a PID above `i32::MAX` becomes a negative target,
which stands for a process group, and 4294967295 becomes -1, every process of the
user.  Neither refuses 0, the group of the daemon.

PIDs reach the killer from the planner, from the command line and from the
`KillPid` request of a plugin, which is any `u32`.  `reachesOnly_iff` gives for
each primitive the PIDs on which it signals the one process or nothing.
-/

namespace Mgd.Executor.SignalTargets

open Mgd.Types Mgd.Lib.AssocMap Mgd.Lib.Accesses Mgd.Executor.Signals
open Mgd.Executor.Registry hiding sendSignal freezeChecked unfreezeChecked

/-! ## The primitives -/

/-- `freezer::freeze`. -/
def freeze (pid : Pid) : Syscalls OpResult := sendSignal pid .stop

/-- `freezer::unfreeze`. -/
def unfreeze (pid : Pid) : Syscalls OpResult := sendSignal pid .cont

/-- The functions of the two modules that signal a PID. -/
inductive Primitive
  | sigterm
  | sigkill
  | freeze
  | unfreeze
deriving DecidableEq, Repr

def Primitive.call : Primitive → Pid → Syscalls OpResult
  | .sigterm => Signals.sigterm
  | .sigkill => Signals.sigkill
  | .freeze => SignalTargets.freeze
  | .unfreeze => SignalTargets.unfreeze

/-- Whether the conversion to `pid_t` is checked. -/
def Primitive.checksRange : Primitive → Bool
  | .sigterm | .sigkill => false
  | .freeze | .unfreeze => true

/-- What one access passes to `kill(2)`. -/
def target : Access → Option Int
  | .kill target _ => some target
  | .readStartTime _ => none
  | .dump _ => none

/-- The targets of a run, in order. -/
def targets {α : Type} (tl : Timeline) (t : Nat) (p : Syscalls α) : List Int :=
  (p.run tl.answer t).2.filterMap fun e => target e.2

/-- The primitive fails without a call of `kill(2)`, or calls it with the PID
itself; no other process gets a signal. -/
def ReachesOnly (tl : Timeline) (t : Nat) (op : Primitive) (pid : Pid) : Prop :=
  (((op.call pid).result tl.answer t).success = false ∧ targets tl t (op.call pid) = [] ∨
    targets tl t (op.call pid) ≠ [] ∧
      ∀ n ∈ targets tl t (op.call pid), 0 < n ∧ n = pid.val.toNat) ∧
  ∀ d ∈ tl.deliveries t (op.call pid), d.pid = pid

/-! ## The cast -/

/-- The cast keeps a PID up to `i32::MAX`. -/
theorem asPidT_eq_iff (pid : Pid) : asPidT pid = pid.val.toNat ↔ pid.val.toNat ≤ i32Max := by
  unfold asPidT
  split
  · next hFits => exact iff_of_true rfl hFits
  · next hLarge =>
      refine iff_of_false ?_ hLarge
      omega

/-! ## One process or none -/

section Reach

variable {tl : Timeline} {t : Nat} {pid : Pid}

/-- Every access signals `n` or nothing. -/
def SignalsOnly (n : Int) (q : Access) : Prop := ∀ m, target q = some m → m = n

theorem signalsOnly_readStartTime (n : Int) (pid : Pid) : SignalsOnly n (.readStartTime pid) := by
  intro m h
  cases h

theorem signalsOnly_kill (n : Int) (signal : Option Signal) : SignalsOnly n (.kill n signal) := by
  intro m h
  exact (Option.some.inj h).symm

theorem only_sigkill (pid : Pid) : (sigkill pid).Only (SignalsOnly (asPidT pid)) :=
  ⟨signalsOnly_kill _ _, fun _ => trivial⟩

theorem only_killUnlessRecycled (pid : Pid) (originalStart : Option Nat) :
    (killUnlessRecycled pid originalStart).Only (SignalsOnly (asPidT pid)) := by
  unfold killUnlessRecycled
  split
  · refine ⟨signalsOnly_readStartTime _ _, ?_⟩
    intro st
    dsimp only
    split
    · exact trivial
    · exact only_sigkill pid
  · exact only_sigkill pid

theorem only_sigterm (pid : Pid) : (sigterm pid).Only (SignalsOnly (asPidT pid)) := by
  refine ⟨signalsOnly_readStartTime _ _, ?_⟩
  intro originalStart
  refine ⟨signalsOnly_kill _ _, ?_⟩
  intro error
  dsimp only
  split
  · exact trivial
  · refine Program.Only.bind (Program.only_poll (signalsOnly_kill _ _) 10) ?_
    intro stillThere
    split
    · exact only_killUnlessRecycled pid originalStart
    · exact trivial

theorem mem_targets {α : Type} {p : Syscalls α} {n m : Int} (hp : p.Only (SignalsOnly n))
    (hm : m ∈ targets tl t p) : m = n := by
  obtain ⟨e, he, hTarget⟩ := List.mem_filterMap.mp hm
  exact hp.of_mem_run he m hTarget

/-- A delivery comes from a call with one of the targets. -/
theorem target_of_mem_deliveries {α : Type} {p : Syscalls α} {d : Delivery}
    (hd : d ∈ tl.deliveries t p) :
    ∃ n ∈ targets tl t p, ∃ k : Kernel, k.addresses n d.pid d.occupant = true := by
  obtain ⟨e, he, hSent⟩ := List.mem_flatMap.mp hd
  cases hq : e.2 with
  | readStartTime pid => simp [hq, Timeline.effect] at hSent
  | dump pid => simp [hq, Timeline.effect] at hSent
  | kill n signal =>
      cases signal with
      | none => simp [hq, Timeline.effect] at hSent
      | some signal =>
          rw [hq] at hSent
          obtain ⟨-, -, -, hAddressed, -⟩ := Timeline.mem_send_iff.mp hSent
          exact ⟨n, List.mem_filterMap.mpr ⟨e, he, by rw [hq]; rfl⟩, _, hAddressed⟩

/-- A positive target stands for the process with that PID. -/
theorem pid_of_addresses {k : Kernel} {n : Int} {p : Pid} {o : Occupant} (hPos : 0 < n)
    (h : k.addresses n p o = true) : (p.val.toNat : Int) = n := by
  unfold Kernel.addresses at h
  rw [if_pos hPos] at h
  exact of_decide_eq_true h

/-- Calls with the PID itself reach its process only. -/
theorem pid_of_mem_deliveries {α : Type} {p : Syscalls α} {d : Delivery}
    (hTargets : ∀ n ∈ targets tl t p, 0 < n ∧ n = pid.val.toNat)
    (hd : d ∈ tl.deliveries t p) : d.pid = pid := by
  obtain ⟨n, hn, k, hAddressed⟩ := target_of_mem_deliveries hd
  obtain ⟨hPos, hEq⟩ := hTargets n hn
  have hVal : (d.pid.val.toNat : Int) = pid.val.toNat :=
    (pid_of_addresses hPos hAddressed).trans hEq
  have hWord : d.pid.val = pid.val := UInt32.toNat_inj.mp (Int.ofNat_inj.mp hVal)
  cases hd : d.pid
  cases pid
  rw [hd] at hWord
  exact congrArg Pid.mk hWord

/-- A primitive that signals `n` and nothing else. -/
theorem reachesOnly_of_target {op : Primitive} {n : Int}
    (hSome : targets tl t (op.call pid) ≠ [])
    (hAll : ∀ m ∈ targets tl t (op.call pid), m = n) :
    ReachesOnly tl t op pid ↔ 0 < n ∧ n = pid.val.toNat := by
  obtain ⟨m, hm⟩ := List.exists_mem_of_ne_nil _ hSome
  have hmn : m = n := hAll m hm
  constructor
  · intro h
    obtain ⟨hCall, -⟩ := h
    rcases hCall with ⟨-, hNone⟩ | ⟨-, hEach⟩
    · exact absurd hNone hSome
    · exact hmn ▸ hEach m hm
  · intro h
    have hEach : ∀ m ∈ targets tl t (op.call pid), 0 < m ∧ m = pid.val.toNat := by
      intro m hm
      rw [hAll m hm]
      exact h
    exact ⟨Or.inr ⟨hSome, hEach⟩, fun d hd => pid_of_mem_deliveries hEach hd⟩

theorem targets_sigkill_ne_nil : targets tl t (sigkill pid) ≠ [] := by
  simp [targets, sigkill, Program.run, target]

theorem targets_sigterm_ne_nil : targets tl t (sigterm pid) ≠ [] := by
  unfold targets sigterm
  simp only [Program.run, List.filterMap_cons, target]
  exact List.cons_ne_nil _ _

/-- A PID that fits is the target of its own call. -/
theorem targets_sendSignal {signal : Signal} (hFits : pid.val.toNat ≤ i32Max) :
    targets tl t (sendSignal pid signal) = [(pid.val.toNat : Int)] := by
  unfold targets sendSignal
  rw [if_pos hFits]
  rfl

/-- A PID that does not fit is refused. -/
theorem reachesOnly_of_refused {op : Primitive} {signal : Signal}
    (hOp : op.call pid = sendSignal pid signal) (hLarge : ¬ pid.val.toNat ≤ i32Max) :
    ReachesOnly tl t op pid := by
  have hCall : op.call pid = .ret (OpResult.fail "Invalid PID: exceeds i32 limits") := by
    rw [hOp]
    exact if_neg hLarge
  unfold ReachesOnly
  rw [hCall]
  exact ⟨Or.inl ⟨rfl, rfl⟩, fun d hd => absurd hd List.not_mem_nil⟩

theorem reachesOnly_sendSignal_iff {op : Primitive} (signal : Signal)
    (hOp : op.call pid = sendSignal pid signal) :
    ReachesOnly tl t op pid ↔ pid.val ≠ 0 := by
  by_cases hFits : pid.val.toNat ≤ i32Max
  · have hTargets : targets tl t (op.call pid) = [(pid.val.toNat : Int)] := by
      rw [hOp]
      exact targets_sendSignal hFits
    rw [reachesOnly_of_target (n := pid.val.toNat) (by simp [hTargets]) (by simp [hTargets]),
      and_iff_left rfl, Int.natCast_pos, Nat.pos_iff_ne_zero, ← UInt32.toNat_inj.ne]
    rfl
  · refine iff_of_true (reachesOnly_of_refused hOp hFits) ?_
    intro hZero
    rw [hZero] at hFits
    exact hFits (Nat.zero_le i32Max)

/-- The cast of the killer keeps the positive PIDs up to `i32::MAX`. -/
theorem asPidT_pos_iff :
    (0 < asPidT pid ∧ asPidT pid = pid.val.toNat) ↔
      pid.val ≠ 0 ∧ pid.val.toNat ≤ i32Max := by
  rw [asPidT_eq_iff]
  apply and_congr_left
  intro hFits
  have hZero : pid.val.toNat ≠ 0 ↔ pid.val ≠ 0 := (UInt32.toNat_inj (b := 0)).not
  rw [(asPidT_eq_iff pid).mpr hFits, ← hZero]
  omega

end Reach

/-- **Which PIDs are signalled alone.**  Each primitive keeps to the process of
its PID, or fails without a signal, exactly when the PID is not 0 and, in the
killer, fits a `pid_t`. -/
theorem reachesOnly_iff (tl : Timeline) (t : Nat) (op : Primitive) (pid : Pid) :
    ReachesOnly tl t op pid ↔
      pid.val ≠ 0 ∧ (op.checksRange = true ∨ pid.val.toNat ≤ i32Max) := by
  cases op with
  | sigterm =>
      have hTarget : ReachesOnly tl t .sigterm pid ↔
          0 < asPidT pid ∧ asPidT pid = pid.val.toNat :=
        reachesOnly_of_target targets_sigterm_ne_nil
          (fun m hm => mem_targets (only_sigterm pid) hm)
      rw [hTarget, asPidT_pos_iff]
      simp [Primitive.checksRange]
  | sigkill =>
      have hTarget : ReachesOnly tl t .sigkill pid ↔
          0 < asPidT pid ∧ asPidT pid = pid.val.toNat :=
        reachesOnly_of_target targets_sigkill_ne_nil
          (fun m hm => mem_targets (only_sigkill pid) hm)
      rw [hTarget, asPidT_pos_iff]
      simp [Primitive.checksRange]
  | freeze =>
      rw [reachesOnly_sendSignal_iff .stop rfl]
      simp [Primitive.checksRange]
  | unfreeze =>
      rw [reachesOnly_sendSignal_iff .cont rfl]
      simp [Primitive.checksRange]

/-- An editor of the user, PID 1234. -/
def editor : Occupant where
  startTime := 500
  processGroup := 1234
  ownedByUser := true
  inUserSlice := true
  row :=
    { pid := ⟨1234⟩
      name := "kwrite"
      exeBasename := some "kwrite"
      rssKb := Kb.clamp 60000
      swapKb := Kb.clamp 0
      oomScore := 0
      cgroupPath := some "/user.slice/app-kwrite.scope"
      cpuPct := 0
      majflt := 0
      cmdline := "kwrite" }

def editorRunning : Timeline where
  kernel _ :=
    { procs := (∅ : Map Pid Occupant).insert ⟨1234⟩ editor
      statReadable := fun _ => true
      permits := fun _ _ => true
      self := ⟨900⟩
      selfGroup := 900 }
  dump _ := none

/-- **A request to kill PID 4294967295 sends SIGTERM to the editor.** -/
theorem sigterm_reaches_editor :
    ⟨1, .term, ⟨1234⟩, editor⟩ ∈
        editorRunning.deliveries 0 (Primitive.sigterm.call ⟨4294967295⟩) ∧
      ¬ ReachesOnly editorRunning 0 .sigterm ⟨4294967295⟩ := by
  have hSent : ⟨1, .term, ⟨1234⟩, editor⟩ ∈
      editorRunning.deliveries 0 (Primitive.sigterm.call ⟨4294967295⟩) :=
    mem_deliveries_sigterm.mpr (Or.inl (by decide +kernel))
  refine ⟨hSent, ?_⟩
  intro h
  exact absurd (h.2 _ hSent) (by decide)

end Mgd.Executor.SignalTargets
