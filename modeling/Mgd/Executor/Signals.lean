import Mgd.Executor.Registry
import Mgd.Lib.Accesses
import Mgd.Monitor

/-!
# Signals and the processes they reach

The primitives of `executor/freezer.rs` and `executor/killer.rs` as programs:
each reading of a start time and each call of `kill(2)` is one access, and
processes may come and go between two of them.  A PID is a number to the kernel:
`killer.rs` casts it to `pid_t`, so that a large one addresses a process group,
while `freezer.rs` refuses it; 0 addresses the group of the daemon in both.

`deliveries` gives the signals of a run with the process each one reached.  On a
kernel that stays as it is the freezer's programs answer what the functions of
`Mgd.Executor.Registry` say (`result_freezeChecked_still`).
-/

namespace Mgd.Executor.Signals

open Mgd.Types Mgd.Monitor Mgd.Lib.AssocMap Mgd.Lib.Accesses
open Mgd.Executor.Registry hiding sendSignal freezeChecked unfreezeChecked

/-! ## The kernel -/

/-- The process that holds a PID. -/
structure Occupant where
  /-- clock ticks since boot -/
  startTime : Nat
  processGroup : Nat
  /-- the owner is the user the daemon runs as -/
  ownedByUser : Bool
  /-- `is_cgroup_in_user_slice` of its cgroup file -/
  inUserSlice : Bool
  /-- what `read_process` makes of its files -/
  row : Process
deriving DecidableEq

inductive Errno
  | esrch
  | eperm
deriving DecidableEq, Repr

def Errno.text : Errno → String
  | .esrch => "No such process (os error 3)"
  | .eperm => "Operation not permitted (os error 1)"

/-- What one access finds. -/
structure Kernel where
  procs : Map Pid Occupant
  /-- `/proc/PID/stat` can be read -/
  statReadable : Pid → Bool
  /-- the permission check of `kill(2)`; `none` is signal 0 -/
  permits : Option Signal → Pid → Bool
  /-- the daemon -/
  self : Pid
  selfGroup : Nat

/-- `pid.0 as libc::pid_t`. -/
def asPidT (pid : Pid) : Int :=
  if pid.val.toNat ≤ i32Max then pid.val.toNat else pid.val.toNat - 2 ^ 32

namespace Kernel

variable (k : Kernel)

def readStartTime (pid : Pid) : Option Nat :=
  if k.statReadable pid then (k.procs.lookup pid).map Occupant.startTime else none

/-- `read_process`: only the user's own processes, inside the user slice. -/
def readProcess (pid : Pid) (o : Occupant) : Option Process :=
  if o.ownedByUser && o.inUserSlice then some { o.row with pid := pid } else none

def listProcesses : List Process :=
  k.procs.entries.filterMap fun e => if e.1 = k.self then none else readProcess e.1 e.2

/-- The processes a target of `kill(2)` stands for: one, the caller's group, all
but the first process and the caller, or a group. -/
def addresses (target : Int) (pid : Pid) (o : Occupant) : Bool :=
  if target > 0 then decide ((pid.val.toNat : Int) = target)
  else if target = 0 then decide (o.processGroup = k.selfGroup)
  else if target = -1 then decide (pid.val.toNat > 1 ∧ pid ≠ k.self)
  else decide ((o.processGroup : Int) = -target)

/-- The processes there are for a target. -/
def addressed (target : Int) : List (Pid × Occupant) :=
  (k.procs.entries.map fun e => (e.1, e.2)).filter fun e => k.addresses target e.1 e.2

/-- Those of them that the signal is delivered to. -/
def delivered (target : Int) (signal : Option Signal) : List (Pid × Occupant) :=
  (k.addressed target).filter fun e => k.permits signal e.1

/-- `kill(2)` succeeds when one process takes the signal. -/
def kill (target : Int) (signal : Option Signal) : Option Errno :=
  if k.delivered target signal ≠ [] then none
  else if k.addressed target = [] then some .esrch
  else some .eperm

/-- The process of a PID takes the signal sent to a target. -/
def takes (target : Int) (signal : Option Signal) (pid : Pid) (o : Occupant) : Prop :=
  k.procs.lookup pid = some o ∧ k.addresses target pid o = true ∧ k.permits signal pid = true

variable {k} {target : Int} {signal : Option Signal}

theorem mem_delivered_iff {pid : Pid} {o : Occupant} :
    (pid, o) ∈ k.delivered target signal ↔ k.takes target signal pid o := by
  have hEntry : (pid, o) ∈ k.procs.entries.map (fun e => (e.1, e.2)) ↔
      k.procs.lookup pid = some o := by
    rw [lookup_eq_some_iff, List.mem_map]
    constructor
    · intro h
      obtain ⟨e, he, hEq⟩ := h
      obtain ⟨rfl, rfl⟩ := Prod.mk.inj hEq
      exact he
    · intro h
      exact ⟨⟨pid, o⟩, h, rfl⟩
  unfold delivered addressed takes
  rw [List.mem_filter, List.mem_filter, hEntry, and_assoc]

theorem kill_eq_none_iff : k.kill target signal = none ↔ k.delivered target signal ≠ [] := by
  unfold kill
  by_cases hTaken : k.delivered target signal ≠ []
  · rw [if_pos hTaken]
    exact iff_of_true rfl hTaken
  · rw [if_neg hTaken]
    split <;> exact iff_of_false (Option.some_ne_none _) hTaken

end Kernel

/-! ## Accesses -/

inductive Access
  | readStartTime (pid : Pid)
  | kill (target : Int) (signal : Option Signal)
  /-- the `dump` of the checkpoint helper, `none` when it succeeds -/
  | dump (pid : Pid)
deriving DecidableEq

abbrev Access.Answer : Access → Type
  | .readStartTime _ => Option Nat
  | .kill _ _ => Option Errno
  | .dump _ => Option String

abbrev Syscalls := Program Access Access.Answer

/-- The kernels the accesses find, by position, and the answers of the helper. -/
structure Timeline where
  kernel : Nat → Kernel
  dump : Nat → Option String

def Timeline.answer (tl : Timeline) (t : Nat) : (q : Access) → q.Answer
  | .readStartTime pid => (tl.kernel t).readStartTime pid
  | .kill target signal => (tl.kernel t).kill target signal
  | .dump _ => tl.dump t

/-- A signal and the process it reached. -/
structure Delivery where
  time : Nat
  signal : Signal
  pid : Pid
  occupant : Occupant
deriving DecidableEq

/-- The deliveries of `kill(2)` with a signal. -/
def Timeline.send (tl : Timeline) (t : Nat) (target : Int) (signal : Signal) : List Delivery :=
  ((tl.kernel t).delivered target (some signal)).map fun e => ⟨t, signal, e.1, e.2⟩

def Timeline.effect (tl : Timeline) (t : Nat) : Access → List Delivery
  | .kill target (some signal) => tl.send t target signal
  | .kill _ none => []
  | .readStartTime _ => []
  | .dump _ => []

/-- The signals of a program that starts with the access `t`. -/
def Timeline.deliveries {α : Type} (tl : Timeline) (t : Nat) (p : Syscalls α) : List Delivery :=
  p.effects tl.effect tl.answer t

theorem Timeline.mem_send_iff {tl : Timeline} {t : Nat} {target : Int} {signal : Signal}
    {d : Delivery} :
    d ∈ tl.send t target signal ↔
      d.time = t ∧ d.signal = signal ∧
        (tl.kernel t).takes target (some signal) d.pid d.occupant := by
  unfold Timeline.send
  rw [List.mem_map]
  constructor
  · intro h
    obtain ⟨e, he, rfl⟩ := h
    exact ⟨rfl, rfl, Kernel.mem_delivered_iff.mp he⟩
  · intro h
    obtain ⟨rfl, rfl, hTakes⟩ := h
    exact ⟨(d.pid, d.occupant), Kernel.mem_delivered_iff.mpr hTakes, rfl⟩

/-- The outcome of a call of `kill(2)`. -/
def opResult (front : String) : Option Errno → OpResult
  | none => OpResult.ok
  | some e => OpResult.fail (front ++ e.text)

theorem success_opResult (front : String) (error : Option Errno) :
    (opResult front error).success = true ↔ error = none := by
  cases error <;> simp [opResult, OpResult.ok, OpResult.fail]

/-! ## The freezer -/

/-- `send_signal` refuses a PID that is no `i32`. -/
def sendSignal (pid : Pid) (signal : Signal) : Syscalls OpResult :=
  if pid.val.toNat ≤ i32Max then
    .ask (.kill pid.val.toNat (some signal)) fun error => .ret (opResult "" error)
  else .ret (OpResult.fail "Invalid PID: exceeds i32 limits")

def unfreezeChecked (pid : Pid) (expectedStartTime : Nat) : Syscalls OpResult :=
  .ask (.readStartTime pid) fun st =>
    match st with
    | some st => if st ≠ expectedStartTime then .ret OpResult.ok else sendSignal pid .cont
    | none => .ret OpResult.ok

def freezeChecked (pid : Pid) (expectedStartTime : Nat) : Syscalls OpResult :=
  .ask (.readStartTime pid) fun st =>
    match st with
    | some st =>
        if st ≠ expectedStartTime then .ret (OpResult.fail "PID recycled — aborting freeze")
        else sendSignal pid .stop
    | none => .ret (OpResult.fail "process gone")

/-! ## The killer -/

def sigkill (pid : Pid) : Syscalls OpResult :=
  .ask (.kill (asPidT pid) (some .kill)) fun error => .ret (opResult "SIGKILL failed: " error)

/-- Ten checks, half a second apart, whether the PID is still taken. -/
def outlivesGrace (pid : Pid) : Syscalls Bool :=
  Program.poll (.kill (asPidT pid) none) (fun error => decide (error = none)) 10

/-- SIGKILL unless the PID was reused by another process; without a first start
time there is nothing to compare. -/
def killUnlessRecycled (pid : Pid) (originalStart : Option Nat) : Syscalls OpResult :=
  if originalStart.isSome then
    .ask (.readStartTime pid) fun st =>
      if st ≠ originalStart then .ret OpResult.ok else sigkill pid
  else sigkill pid

/-- SIGTERM, a wait of 5 s, SIGKILL. -/
def sigterm (pid : Pid) : Syscalls OpResult :=
  .ask (.readStartTime pid) fun originalStart =>
    .ask (.kill (asPidT pid) (some .term)) fun error =>
      if error ≠ none then .ret (opResult "SIGTERM failed: " error)
      else
        (outlivesGrace pid).bind fun stillThere =>
          if stillThere then killUnlessRecycled pid originalStart else .ret OpResult.ok

/-! ## What the programs deliver -/

section Deliveries

variable {tl : Timeline} {t : Nat} {pid : Pid}

@[simp] theorem deliveries_ret {α : Type} (a : α) :
    tl.deliveries t (.ret a : Syscalls α) = [] := rfl

@[simp] theorem deliveries_ask {α : Type} (q : Access) (next : q.Answer → Syscalls α) :
    tl.deliveries t (.ask q next) =
      tl.effect t q ++ tl.deliveries (t + 1) (next (tl.answer t q)) :=
  Program.effects_ask q next

@[simp] theorem deliveries_bind {α β : Type} (p : Syscalls α) (f : α → Syscalls β) :
    tl.deliveries t (p.bind f) =
      tl.deliveries t p ++
        tl.deliveries (p.finish tl.answer t) (f (p.result tl.answer t)) :=
  Program.effects_bind p f

/-- A reading delivers nothing. -/
theorem deliveries_readStartTime {α : Type} (next : Option Nat → Syscalls α) :
    tl.deliveries t (.ask (.readStartTime pid) next) =
      tl.deliveries (t + 1) (next ((tl.kernel t).readStartTime pid)) :=
  deliveries_ask (.readStartTime pid) next

theorem deliveries_kill {α : Type} (target : Int) (signal : Signal)
    (next : Option Errno → Syscalls α) :
    tl.deliveries t (.ask (.kill target (some signal)) next) =
      tl.send t target signal ++
        tl.deliveries (t + 1) (next ((tl.kernel t).kill target (some signal))) :=
  deliveries_ask (.kill target (some signal)) next

theorem deliveries_dump {α : Type} (next : Option String → Syscalls α) :
    tl.deliveries t (.ask (.dump pid) next) = tl.deliveries (t + 1) (next (tl.dump t)) :=
  deliveries_ask (.dump pid) next

theorem result_readStartTime {α : Type} (next : Option Nat → Syscalls α) :
    (Program.ask (.readStartTime pid) next : Syscalls α).result tl.answer t =
      (next ((tl.kernel t).readStartTime pid)).result tl.answer (t + 1) := rfl

theorem finish_readStartTime {α : Type} (next : Option Nat → Syscalls α) :
    (Program.ask (.readStartTime pid) next : Syscalls α).finish tl.answer t =
      (next ((tl.kernel t).readStartTime pid)).finish tl.answer (t + 1) :=
  @Program.finish_ask Access Access.Answer α _ _ (.readStartTime pid) next

theorem deliveries_sendSignal (signal : Signal) :
    tl.deliveries t (sendSignal pid signal) =
      if pid.val.toNat ≤ i32Max then tl.send t pid.val.toNat signal else [] := by
  unfold sendSignal
  split
  · rw [deliveries_kill, deliveries_ret, List.append_nil]
  · rfl

/-- `send_signal` succeeds when a process takes the signal. -/
theorem success_sendSignal (signal : Signal) :
    ((sendSignal pid signal).result tl.answer t).success = true ↔
      pid.val.toNat ≤ i32Max ∧ (tl.kernel t).delivered pid.val.toNat (some signal) ≠ [] := by
  unfold sendSignal
  split
  · next hFits =>
      rw [Program.result_ask, Program.result_ret, success_opResult, ← Kernel.kill_eq_none_iff]
      exact (and_iff_right hFits).symm
  · next hLarge =>
      exact iff_of_false (by simp [OpResult.fail]) (fun h => hLarge h.1)

theorem finish_sendSignal (signal : Signal) (hFits : pid.val.toNat ≤ i32Max) :
    (sendSignal pid signal).finish tl.answer t = t + 1 := by
  unfold sendSignal
  rw [if_pos hFits]
  rfl

/-- SIGCONT goes out when the start time is the expected one. -/
theorem deliveries_unfreezeChecked (expected : Nat) :
    tl.deliveries t (unfreezeChecked pid expected) =
      if (tl.kernel t).readStartTime pid = some expected then
        tl.deliveries (t + 1) (sendSignal pid .cont)
      else [] := by
  unfold unfreezeChecked
  rw [deliveries_readStartTime]
  cases (tl.kernel t).readStartTime pid with
  | none => rfl
  | some st => by_cases hSame : st = expected <;> simp [hSame]

/-- SIGSTOP goes out when the start time is the expected one. -/
theorem deliveries_freezeChecked (expected : Nat) :
    tl.deliveries t (freezeChecked pid expected) =
      if (tl.kernel t).readStartTime pid = some expected then
        tl.deliveries (t + 1) (sendSignal pid .stop)
      else [] := by
  unfold freezeChecked
  rw [deliveries_readStartTime]
  cases (tl.kernel t).readStartTime pid with
  | none => rfl
  | some st => by_cases hSame : st = expected <;> simp [hSame]

theorem success_freezeChecked (expected : Nat) :
    ((freezeChecked pid expected).result tl.answer t).success = true ↔
      (tl.kernel t).readStartTime pid = some expected ∧
        ((sendSignal pid .stop).result tl.answer (t + 1)).success = true := by
  unfold freezeChecked
  rw [result_readStartTime]
  cases (tl.kernel t).readStartTime pid with
  | none => simp [OpResult.fail]
  | some st =>
      by_cases hSame : st = expected
      · simp [hSame]
      · simp [hSame, OpResult.fail]

/-- A freeze that succeeds has made two accesses. -/
theorem finish_freezeChecked {expected : Nat}
    (h : ((freezeChecked pid expected).result tl.answer t).success = true) :
    (freezeChecked pid expected).finish tl.answer t = t + 2 := by
  obtain ⟨hSame, hSent⟩ := (success_freezeChecked expected).mp h
  have hFits : pid.val.toNat ≤ i32Max := ((success_sendSignal .stop).mp hSent).1
  unfold freezeChecked
  rw [finish_readStartTime, hSame]
  dsimp only
  rw [if_neg (not_not.mpr rfl), finish_sendSignal .stop hFits]

theorem deliveries_sigkill :
    tl.deliveries t (sigkill pid) = tl.send t (asPidT pid) .kill := by
  unfold sigkill
  rw [deliveries_kill, deliveries_ret, List.append_nil]

/-- The PID answers to signal 0 at every check after a SIGTERM at `t`. -/
def Timeline.answersGrace (tl : Timeline) (pid : Pid) (t : Nat) : Prop :=
  ∀ i < 10, (tl.kernel (t + 1 + i)).delivered (asPidT pid) none ≠ []

/-- `sigterm`, started at `t`, gets to its SIGKILL: SIGTERM is delivered, the
PID stays taken, and its start time is the first one or there was no first one. -/
def Timeline.reachesKill (tl : Timeline) (pid : Pid) (t : Nat) : Prop :=
  (tl.kernel (t + 1)).delivered (asPidT pid) (some .term) ≠ [] ∧
    tl.answersGrace pid (t + 1) ∧
    ((tl.kernel t).readStartTime pid = none ∨
      (tl.kernel (t + 12)).readStartTime pid = (tl.kernel t).readStartTime pid)

/-- When that SIGKILL goes out: one access later with a start time to compare. -/
def Timeline.killTime (tl : Timeline) (pid : Pid) (t : Nat) : Nat :=
  if (tl.kernel t).readStartTime pid = none then t + 12 else t + 13

theorem result_outlivesGrace :
    (outlivesGrace pid).result tl.answer (t + 1) = true ↔ tl.answersGrace pid t := by
  unfold outlivesGrace Timeline.answersGrace
  rw [Program.result_poll_iff]
  simp only [decide_eq_true_eq, Timeline.answer, Kernel.kill_eq_none_iff]

instance : Decidable (tl.answersGrace pid t) :=
  inferInstanceAs (Decidable (∀ i < 10, (tl.kernel (t + 1 + i)).delivered (asPidT pid) none ≠ []))

section Effects

variable {ε : Type} {effect : Nat → Access → List ε}

/-- Without a first start time there is no second reading. -/
theorem effects_killUnlessRecycled_none :
    (killUnlessRecycled pid none).effects effect tl.answer t =
      effect t (.kill (asPidT pid) (some .kill)) := by
  unfold killUnlessRecycled sigkill
  rw [Option.isSome_none, if_neg Bool.false_ne_true, Program.effects_ask, Program.effects_ret,
    List.append_nil]

/-- With one there is, and SIGKILL goes out when it finds the same start time. -/
theorem effects_killUnlessRecycled_some (original : Nat) :
    (killUnlessRecycled pid (some original)).effects effect tl.answer t =
      effect t (.readStartTime pid) ++
        if (tl.kernel t).readStartTime pid = some original then
          effect (t + 1) (.kill (asPidT pid) (some .kill))
        else [] := by
  unfold killUnlessRecycled sigkill
  rw [Option.isSome_some, if_pos rfl, Program.effects_ask]
  apply congrArg (effect t (.readStartTime pid) ++ ·)
  show Program.effects effect tl.answer (t + 1)
    (if (tl.kernel t).readStartTime pid ≠ some original then .ret OpResult.ok else _) = _
  by_cases hSame : (tl.kernel t).readStartTime pid = some original
  · rw [if_neg (not_not.mpr hSame), if_pos hSame, Program.effects_ask, Program.effects_ret,
      List.append_nil]
  · rw [if_pos hSame, if_neg hSame, Program.effects_ret]

/-- **The accesses of `sigterm`**, by their effects: a reading, SIGTERM, and
after a grace period that the PID outlives what `kill_unless_recycled` does. -/
theorem effects_sigterm (hPolls : ∀ t, effect t (.kill (asPidT pid) none) = []) :
    (sigterm pid).effects effect tl.answer t =
      effect t (.readStartTime pid) ++ (effect (t + 1) (.kill (asPidT pid) (some .term)) ++
        if (tl.kernel (t + 1)).delivered (asPidT pid) (some .term) ≠ [] ∧
            tl.answersGrace pid (t + 1) then
          (killUnlessRecycled pid ((tl.kernel t).readStartTime pid)).effects effect tl.answer
            (t + 12)
        else []) := by
  unfold sigterm
  rw [Program.effects_ask, Program.effects_ask]
  apply congrArg (effect t (.readStartTime pid) ++ ·)
  apply congrArg (effect (t + 1) (.kill (asPidT pid) (some .term)) ++ ·)
  show Program.effects effect tl.answer (t + 2)
    (if (tl.kernel (t + 1)).kill (asPidT pid) (some .term) ≠ none then _ else _) = _
  by_cases hSent : (tl.kernel (t + 1)).delivered (asPidT pid) (some .term) ≠ []
  · have hOk : ¬ (tl.kernel (t + 1)).kill (asPidT pid) (some .term) ≠ none :=
      not_not.mpr (Kernel.kill_eq_none_iff.mpr hSent)
    have hSilent : (outlivesGrace pid).effects effect tl.answer (t + 2) = [] :=
      Program.effects_poll hPolls 10
    rw [if_neg hOk, Program.effects_bind, hSilent, List.nil_append]
    by_cases hStill : tl.answersGrace pid (t + 1)
    · have hResult := result_outlivesGrace.mpr hStill
      have hFinish : (outlivesGrace pid).finish tl.answer (t + 2) = t + 12 :=
        Program.finish_poll hResult
      rw [hResult, if_pos rfl, hFinish, if_pos ⟨hSent, hStill⟩]
      rfl
    · have hResult : ¬ (outlivesGrace pid).result tl.answer (t + 2) = true :=
        fun h => hStill (result_outlivesGrace.mp h)
      rw [if_neg hResult, if_neg fun hBoth => hStill hBoth.2, Program.effects_ret]
  · have hFailed : (tl.kernel (t + 1)).kill (asPidT pid) (some .term) ≠ none :=
      fun h => hSent (Kernel.kill_eq_none_iff.mp h)
    rw [if_pos hFailed, if_neg fun hBoth => hSent hBoth.1, Program.effects_ret]

end Effects

/-- **The signals of `sigterm`**: SIGTERM to whoever holds the PID after the
first reading, and SIGKILL to whoever holds it after the last one. -/
theorem mem_deliveries_sigterm {d : Delivery} :
    d ∈ tl.deliveries t (sigterm pid) ↔
      d ∈ tl.send (t + 1) (asPidT pid) .term ∨
        tl.reachesKill pid t ∧ d ∈ tl.send (tl.killTime pid t) (asPidT pid) .kill := by
  unfold Timeline.deliveries
  rw [effects_sigterm fun _ => rfl]
  unfold Timeline.reachesKill Timeline.killTime
  cases hStart : (tl.kernel t).readStartTime pid with
  | none =>
      rw [effects_killUnlessRecycled_none]
      simp [Timeline.effect]
  | some original =>
      rw [effects_killUnlessRecycled_some]
      by_cases hSame : (tl.kernel (t + 12)).readStartTime pid = some original
      · simp [Timeline.effect, hSame]
      · simp [Timeline.effect, hSame]

/-! ## A kernel that stays as it is -/

/-- `kill(2)` on one process, with the text of its error. -/
def Kernel.killSyscall (k : Kernel) : KillSyscall :=
  fun pid signal => (k.kill pid.val.toNat (some signal)).map Errno.text

/-- On a kernel that stays as it is, the freezer's program answers what
`Registry.freezeChecked` says. -/
theorem result_freezeChecked_still {k : Kernel} (hStill : ∀ i, tl.kernel i = k) (expected : Nat) :
    (freezeChecked pid expected).result tl.answer t =
      Registry.freezeChecked k.killSyscall k.readStartTime pid expected := by
  have hSend : ∀ t, (sendSignal pid .stop).result tl.answer t =
      Registry.sendSignal k.killSyscall pid .stop := by
    intro t
    unfold sendSignal Registry.sendSignal
    split
    · rw [Program.result_ask, Program.result_ret]
      simp only [Timeline.answer, hStill, Kernel.killSyscall]
      cases k.kill pid.val.toNat (some .stop) with
      | none => rfl
      | some e => simp [opResult]
    · rfl
  unfold freezeChecked Registry.freezeChecked
  rw [Program.result_ask]
  simp only [Timeline.answer, hStill]
  cases k.readStartTime pid with
  | none => rfl
  | some st =>
      dsimp only
      split
      · rfl
      · exact hSend (t + 1)

end Deliveries

end Mgd.Executor.Signals
