import Mgd.Executor.UnfreezeOutcome
import Mgd.PidRecycle

/-!
# Freezing and recording

A process is frozen on four paths: by a decision of the plan, by the idle freeze,
for the headroom of a spike, and by `mgctl freeze`.  Each sends SIGSTOP and
records the process with its start time.  `FrozenRegistry::add` reads the start
time itself and returns false when it cannot, "caller should unfreeze".

Each path is a program that returns the start time it recorded.
`allOrNothing_iff` gives for each the accesses on which it leaves a stopped
process without a record: the first two take SIGSTOP back, the third has read the
start time before, and the command drops the answer of `add`.
-/

namespace Mgd.Executor.FreezeAttempts

open Mgd.Types Mgd.Lib.AssocMap Mgd.Lib.Accesses Mgd.Executor.Signals
open Mgd.Executor.UnfreezeOutcome
open Mgd.Executor.Registry hiding sendSignal freezeChecked unfreezeChecked

/-! ## The four paths -/

/-- `FrozenRegistry::add`: the start time it records, if it can read one. -/
def add (pid : Pid) : Syscalls (Option Nat) := .ask (.readStartTime pid) fun st => .ret st

/-- Record a stopped process, or resume it. -/
def addOrUnfreeze (pid : Pid) : Syscalls (Option Nat) :=
  (add pid).bind fun st =>
    match st with
    | some st => .ret (some st)
    | none => (sendSignal pid .cont).bind fun _ => .ret none

/-- `freeze_process` of `execute.rs`, on the real sink. -/
def freezeProcess (pid : Pid) : Syscalls (Option Nat) :=
  (PidRecycle.freeze pid).bind fun r => if r.success then addOrUnfreeze pid else .ret none

/-- A start time, `freeze_checked` with it, and what follows its success. -/
def readAndFreeze (pid : Pid) (next : Nat → Syscalls (Option Nat)) : Syscalls (Option Nat) :=
  .ask (.readStartTime pid) fun st =>
    match st with
    | some st => (freezeChecked pid st).bind fun r => if r.success then next st else .ret none
    | none => .ret none

/-- The idle freeze of `check_idle_process_reclaim`. -/
def idleFreeze (pid : Pid) : Syscalls (Option Nat) := readAndFreeze pid fun _ => addOrUnfreeze pid

/-- The freeze for headroom: the victim is recorded with the start time read
before. -/
def freezeForHeadroom (pid : Pid) : Syscalls (Option Nat) :=
  readAndFreeze pid fun st => .ret (some st)

/-- `cmd_freeze`: SIGSTOP, and `add` with its answer dropped. -/
def cmdFreeze (pid : Pid) : Syscalls (Option Nat) :=
  (sendSignal pid .stop).bind fun r => if r.success then add pid else .ret none

inductive FreezePath
  | plan
  | idle
  | headroom
  | command
deriving DecidableEq, Repr

def FreezePath.attempt : FreezePath → Pid → Syscalls (Option Nat)
  | .plan => freezeProcess
  | .idle => idleFreeze
  | .headroom => freezeForHeadroom
  | .command => cmdFreeze

/-! ## What an attempt leaves behind -/

/-- A call of `kill(2)` with a signal, whatever becomes of it. -/
structure Call where
  time : Nat
  target : Int
  signal : Signal
deriving DecidableEq

def callsOf (t : Nat) : Access → List Call
  | .kill target (some signal) => [⟨t, target, signal⟩]
  | .kill _ none => []
  | .readStartTime _ => []
  | .dump _ => []

/-- The signals a program sends, in order. -/
def calls {α : Type} (h : Host) (t : Nat) (p : Syscalls α) : List Call :=
  p.effects callsOf h.timeline.answer t

/-- A call resumes a process. -/
def Call.resumes (c : Call) (pid : Pid) : Prop := c.target = pid.val.toNat ∧ c.signal = .cont

/-- SIGSTOP reached the incarnation, and no SIGCONT was sent to its PID after
it. -/
def LeftStopped (h : Host) (t : Nat) (p : Syscalls (Option Nat)) (pid : Pid) (startTime : Nat) :
    Prop :=
  ∃ d ∈ h.timeline.deliveries t p,
    (d.signal = .stop ∧ d.pid = pid ∧ d.occupant.startTime = startTime) ∧
      ∀ c ∈ calls h t p, d.time < c.time → ¬ c.resumes pid

/-- Each incarnation of the PID is left stopped and recorded with its start time,
or neither. -/
def AllOrNothing (h : Host) (t : Nat) (path : FreezePath) (pid : Pid) : Prop :=
  ∀ startTime, (path.attempt pid).result h.timeline.answer t = some startTime ↔
    LeftStopped h t (path.attempt pid) pid startTime

/-! ## The accesses that count -/

/-- SIGSTOP goes out, and the process `o` takes it. -/
def FreezePath.stops (path : FreezePath) (h : Host) (t : Nat) (pid : Pid) (o : Occupant) : Prop :=
  match path with
  | .plan | .idle | .headroom =>
      ((h.timeline.kernel t).readStartTime pid ≠ none ∧
          (h.timeline.kernel (t + 1)).readStartTime pid =
            (h.timeline.kernel t).readStartTime pid) ∧
        pid.val.toNat ≤ i32Max ∧
        (h.timeline.kernel (t + 2)).takes pid.val.toNat (some .stop) pid o
  | .command =>
      pid.val.toNat ≤ i32Max ∧ (h.timeline.kernel t).takes pid.val.toNat (some .stop) pid o

/-- The reading whose start time goes to the ledger. -/
def FreezePath.ledgerReading (path : FreezePath) (h : Host) (t : Nat) (pid : Pid) : Option Nat :=
  match path with
  | .plan | .idle => (h.timeline.kernel (t + 3)).readStartTime pid
  | .headroom => (h.timeline.kernel t).readStartTime pid
  | .command => (h.timeline.kernel (t + 1)).readStartTime pid

/-- Without that reading the path resumes the process. -/
def FreezePath.takesBack : FreezePath → Bool
  | .plan | .idle => true
  | .headroom | .command => false

/-! ## Running an attempt -/

section Running

variable {h : Host} {t : Nat} {pid : Pid}

@[simp] theorem calls_ret {α : Type} (a : α) : calls h t (.ret a : Syscalls α) = [] := rfl

theorem calls_ask {α : Type} (q : Access) (next : q.Answer → Syscalls α) :
    calls h t (.ask q next) =
      callsOf t q ++ calls h (t + 1) (next (h.timeline.answer t q)) :=
  Program.effects_ask q next

theorem calls_readStartTime {α : Type} (next : Option Nat → Syscalls α) :
    calls h t (.ask (.readStartTime pid) next) =
      calls h (t + 1) (next ((h.timeline.kernel t).readStartTime pid)) :=
  calls_ask (.readStartTime pid) next

theorem calls_bind {α β : Type} (p : Syscalls α) (f : α → Syscalls β) :
    calls h t (p.bind f) =
      calls h t p ++
        calls h (p.finish h.timeline.answer t) (f (p.result h.timeline.answer t)) :=
  Program.effects_bind p f

theorem calls_sendSignal (signal : Signal) (hFits : pid.val.toNat ≤ i32Max) :
    calls h t (sendSignal pid signal) = [⟨t, pid.val.toNat, signal⟩] := by
  unfold sendSignal
  rw [if_pos hFits]
  rfl

/-- A process that takes a signal sent to its PID. -/
theorem delivered_ne_nil_iff {signal : Signal} (hPid : pid ≠ Pid.none) :
    (h.timeline.kernel t).delivered pid.val.toNat (some signal) ≠ [] ↔
      ∃ o, (h.timeline.kernel t).takes pid.val.toNat (some signal) pid o := by
  constructor
  · intro hTaken
    obtain ⟨⟨p, o⟩, hMem⟩ := List.exists_mem_of_ne_nil _ hTaken
    exact ⟨o, ((mem_delivered_pid hPid).mp hMem).2⟩
  · intro hTakes
    obtain ⟨o, ho⟩ := hTakes
    exact List.ne_nil_of_mem (Kernel.mem_delivered_iff.mpr ho)

/-- One process takes it. -/
theorem takes_unique {target : Int} {signal : Option Signal} {o o' : Occupant}
    (ho : (h.timeline.kernel t).takes target signal pid o)
    (ho' : (h.timeline.kernel t).takes target signal pid o') : o = o' := by
  have hSame := ho.1.symm.trans ho'.1
  exact Option.some.inj hSame

/-- After one SIGSTOP, who is left stopped depends on what is sent later. -/
theorem leftStopped_iff {p : Syscalls (Option Nat)} {s startTime : Nat} {rest : List Delivery}
    {later : List Call}
    (hDeliveries : h.timeline.deliveries t p = h.timeline.send s pid.val.toNat .stop ++ rest)
    (hRest : ∀ d ∈ rest, d.signal ≠ .stop)
    (hCalls : calls h t p = ⟨s, pid.val.toNat, .stop⟩ :: later)
    (hLater : ∀ c ∈ later, s < c.time) :
    LeftStopped h t p pid startTime ↔
      (∃ o, (h.timeline.kernel s).takes pid.val.toNat (some .stop) pid o ∧
        o.startTime = startTime) ∧ ∀ c ∈ later, ¬ c.resumes pid := by
  unfold LeftStopped
  rw [hDeliveries, hCalls]
  constructor
  · intro hStopped
    obtain ⟨d, hd, ⟨hStop, hPid, hStart⟩, hNoCont⟩ := hStopped
    have hSent : d ∈ h.timeline.send s pid.val.toNat .stop := by
      rcases List.mem_append.mp hd with hHere | hBehind
      · exact hHere
      · exact absurd hStop (hRest d hBehind)
    obtain ⟨hTime, -, hTakes⟩ := Timeline.mem_send_iff.mp hSent
    refine ⟨⟨d.occupant, hPid ▸ hTakes, hStart⟩, ?_⟩
    intro c hc
    exact hNoCont c (List.mem_cons_of_mem _ hc) (hTime ▸ hLater c hc)
  · intro hStopped
    obtain ⟨⟨o, hTakes, hStart⟩, hNoCont⟩ := hStopped
    refine ⟨⟨s, .stop, pid, o⟩, ?_, ⟨rfl, rfl, hStart⟩, ?_⟩
    · exact List.mem_append_left _ (Timeline.mem_send_iff.mpr ⟨rfl, rfl, hTakes⟩)
    · intro c hc hAfter
      rcases List.mem_cons.mp hc with rfl | hc
      · exact absurd hAfter (lt_irrefl _)
      · exact hNoCont c hc

/-- One SIGSTOP and nothing after it. -/
theorem leftStopped_iff_alone {p : Syscalls (Option Nat)} {s startTime : Nat}
    (hDeliveries : h.timeline.deliveries t p = h.timeline.send s pid.val.toNat .stop)
    (hCalls : calls h t p = [⟨s, pid.val.toNat, .stop⟩]) :
    LeftStopped h t p pid startTime ↔
      ∃ o, (h.timeline.kernel s).takes pid.val.toNat (some .stop) pid o ∧
        o.startTime = startTime := by
  have hFirst : h.timeline.deliveries t p = h.timeline.send s pid.val.toNat .stop ++ [] := by
    rw [hDeliveries, List.append_nil]
  rw [leftStopped_iff hFirst (fun d hd => absurd hd List.not_mem_nil) hCalls
    (fun c hc => absurd hc List.not_mem_nil)]
  exact and_iff_left fun c hc => absurd hc List.not_mem_nil

/-- Nobody is left stopped by a program without signals. -/
theorem not_leftStopped_of_silent {p : Syscalls (Option Nat)} {startTime : Nat}
    (hSilent : h.timeline.deliveries t p = []) : ¬ LeftStopped h t p pid startTime := by
  intro hStopped
  obtain ⟨d, hd, -⟩ := hStopped
  rw [hSilent] at hd
  cases hd

/-! ### Two readings, then SIGSTOP -/

/-- The readings and the SIGSTOP of `readAndFreeze` succeed. -/
def StopSent (h : Host) (t : Nat) (pid : Pid) (st : Nat) : Prop :=
  (h.timeline.kernel t).readStartTime pid = some st ∧
    (h.timeline.kernel (t + 1)).readStartTime pid = some st ∧
    pid.val.toNat ≤ i32Max ∧
    (h.timeline.kernel (t + 2)).delivered pid.val.toNat (some .stop) ≠ []

theorem success_of_stopSent {st : Nat} (hSent : StopSent h t pid st) :
    ((freezeChecked pid st).result h.timeline.answer (t + 1)).success = true :=
  (success_freezeChecked st).mpr
    ⟨hSent.2.1, (success_sendSignal .stop).mpr ⟨hSent.2.2.1, hSent.2.2.2⟩⟩

theorem calls_freezeChecked {st : Nat}
    (hRead : (h.timeline.kernel t).readStartTime pid = some st)
    (hFits : pid.val.toNat ≤ i32Max) :
    calls h t (freezeChecked pid st) = [⟨t + 1, pid.val.toNat, .stop⟩] := by
  unfold freezeChecked
  rw [calls_readStartTime, hRead]
  dsimp only
  rw [if_neg (not_not.mpr rfl), calls_sendSignal .stop hFits]

/-- When SIGSTOP is taken, `readAndFreeze` goes on from there. -/
theorem readAndFreeze_of_sent {st : Nat} (hSent : StopSent h t pid st)
    (next : Nat → Syscalls (Option Nat)) :
    (readAndFreeze pid next).result h.timeline.answer t =
        (next st).result h.timeline.answer (t + 3) ∧
      h.timeline.deliveries t (readAndFreeze pid next) =
        h.timeline.send (t + 2) pid.val.toNat .stop ++
          h.timeline.deliveries (t + 3) (next st) ∧
      calls h t (readAndFreeze pid next) =
        ⟨t + 2, pid.val.toNat, .stop⟩ :: calls h (t + 3) (next st) := by
  have hSuccess := success_of_stopSent hSent
  have hFinish := finish_freezeChecked hSuccess
  obtain ⟨hFirst, hSecond, hFits, -⟩ := hSent
  unfold readAndFreeze
  rw [result_readStartTime, deliveries_readStartTime, calls_readStartTime, hFirst]
  dsimp only
  rw [Program.result_bind, deliveries_bind, calls_bind, hFinish, if_pos hSuccess,
    deliveries_freezeChecked, if_pos hSecond, deliveries_sendSignal, if_pos hFits,
    calls_freezeChecked hSecond hFits]
  exact ⟨rfl, rfl, rfl⟩

/-- Otherwise it records nothing and stops nobody. -/
theorem readAndFreeze_of_not_sent (hNot : ∀ st, ¬ StopSent h t pid st)
    (next : Nat → Syscalls (Option Nat)) :
    (readAndFreeze pid next).result h.timeline.answer t = none ∧
      h.timeline.deliveries t (readAndFreeze pid next) = [] := by
  unfold readAndFreeze
  rw [result_readStartTime, deliveries_readStartTime]
  cases hFirst : (h.timeline.kernel t).readStartTime pid with
  | none => exact ⟨rfl, rfl⟩
  | some st =>
      dsimp only
      have hFailed :
          ¬ ((freezeChecked pid st).result h.timeline.answer (t + 1)).success = true := by
        intro hSuccess
        obtain ⟨hSecond, hStop⟩ := (success_freezeChecked st).mp hSuccess
        exact hNot st ⟨hFirst, hSecond, (success_sendSignal .stop).mp hStop⟩
      rw [Program.result_bind, deliveries_bind, if_neg hFailed]
      refine ⟨rfl, ?_⟩
      rw [deliveries_ret, List.append_nil, deliveries_freezeChecked]
      split
      · next hSecond =>
          rw [deliveries_sendSignal]
          split
          · next hFits =>
              have hNobody : (h.timeline.kernel (t + 1 + 1)).delivered pid.val.toNat
                  (some .stop) = [] := by
                by_contra hTaken
                exact hNot st ⟨hFirst, hSecond, hFits, hTaken⟩
              unfold Timeline.send
              rw [hNobody, List.map_nil]
          · rfl
      · rfl

theorem freezeProcess_eq_idleFreeze : freezeProcess pid = idleFreeze pid := by
  unfold freezeProcess idleFreeze readAndFreeze PidRecycle.freeze
  simp only [Program.bind]
  congr 1
  funext st
  cases st <;> rfl

/-- Whom the paths with two readings stop. -/
theorem stops_iff_stopSent {o : Occupant} :
    FreezePath.idle.stops h t pid o ↔
      ∃ st, StopSent h t pid st ∧
        (h.timeline.kernel (t + 2)).takes pid.val.toNat (some .stop) pid o := by
  unfold FreezePath.stops StopSent
  dsimp only
  constructor
  · intro hStops
    obtain ⟨⟨hSome, hSame⟩, hFits, hTakes⟩ := hStops
    obtain ⟨st, hFirst⟩ := Option.ne_none_iff_exists'.mp hSome
    have hTaken := List.ne_nil_of_mem (Kernel.mem_delivered_iff.mpr hTakes)
    exact ⟨st, ⟨hFirst, hSame.trans hFirst, hFits, hTaken⟩, hTakes⟩
  · intro hStops
    obtain ⟨st, ⟨hFirst, hSecond, hFits, -⟩, hTakes⟩ := hStops
    refine ⟨⟨?_, hSecond.trans hFirst.symm⟩, hFits, hTakes⟩
    rw [hFirst]
    exact Option.some_ne_none st

/-! ### The record -/

theorem addOrUnfreeze_of_some {st : Nat}
    (hRead : (h.timeline.kernel t).readStartTime pid = some st) :
    (addOrUnfreeze pid).result h.timeline.answer t = some st ∧
      h.timeline.deliveries t (addOrUnfreeze pid) = [] ∧ calls h t (addOrUnfreeze pid) = [] := by
  unfold addOrUnfreeze add
  simp only [Program.bind]
  rw [result_readStartTime, deliveries_readStartTime, calls_readStartTime, hRead]
  exact ⟨rfl, rfl, rfl⟩

theorem addOrUnfreeze_of_none (hRead : (h.timeline.kernel t).readStartTime pid = none)
    (hFits : pid.val.toNat ≤ i32Max) :
    (addOrUnfreeze pid).result h.timeline.answer t = none ∧
      (∀ d ∈ h.timeline.deliveries t (addOrUnfreeze pid), d.signal ≠ .stop) ∧
      calls h t (addOrUnfreeze pid) = [⟨t + 1, pid.val.toNat, .cont⟩] := by
  unfold addOrUnfreeze add
  simp only [Program.bind]
  rw [result_readStartTime, deliveries_readStartTime, calls_readStartTime, hRead]
  dsimp only
  refine ⟨Program.result_bind _ _, ?_, ?_⟩
  · intro d hd
    rw [deliveries_bind, deliveries_ret, List.append_nil, deliveries_sendSignal,
      if_pos hFits] at hd
    rw [(Timeline.mem_send_iff.mp hd).2.1]
    exact Signal.noConfusion
  · rw [calls_bind, calls_sendSignal .cont hFits, calls_ret, List.append_nil]

/-- A process left stopped and a start time in the ledger have to agree. -/
theorem allOrNothing_of_recorded {path : FreezePath} {st : Nat} {o : Occupant}
    (hResult : (path.attempt pid).result h.timeline.answer t = some st)
    (hLeft : ∀ s, LeftStopped h t (path.attempt pid) pid s ↔ o.startTime = s) :
    AllOrNothing h t path pid ↔ st = o.startTime := by
  unfold AllOrNothing
  rw [hResult]
  constructor
  · intro hAll
    exact Option.some.inj ((hAll o.startTime).mpr ((hLeft o.startTime).mpr rfl))
  · intro hSame s
    rw [hLeft s, ← hSame, Option.some_inj]

theorem allOrNothing_of_nothing {path : FreezePath}
    (hResult : (path.attempt pid).result h.timeline.answer t = none)
    (hLeft : ∀ s, ¬ LeftStopped h t (path.attempt pid) pid s) : AllOrNothing h t path pid := by
  intro s
  rw [hResult]
  exact iff_of_false (Option.some_ne_none s).symm (hLeft s)

/-- Only the process that takes SIGSTOP is left stopped. -/
theorem leftStopped_iff_of_takes {p : Syscalls (Option Nat)} {s : Nat} {o : Occupant}
    (hDeliveries : h.timeline.deliveries t p = h.timeline.send s pid.val.toNat .stop)
    (hCalls : calls h t p = [⟨s, pid.val.toNat, .stop⟩])
    (hTakes : (h.timeline.kernel s).takes pid.val.toNat (some .stop) pid o) (startTime : Nat) :
    LeftStopped h t p pid startTime ↔ o.startTime = startTime := by
  rw [leftStopped_iff_alone hDeliveries hCalls]
  constructor
  · intro hLeft
    obtain ⟨o', hTakes', hStart⟩ := hLeft
    rw [takes_unique hTakes hTakes', hStart]
  · intro hStart
    exact ⟨o, hTakes, hStart⟩

end Running

/-! ## The four paths -/

section Paths

variable {h : Host} {t : Nat} {pid : Pid}

/-- The condition on the readings of a path. -/
def Accounted (h : Host) (t : Nat) (path : FreezePath) (pid : Pid) : Prop :=
  ∀ o, path.stops h t pid o →
    path.ledgerReading h t pid = some o.startTime ∨
      path.takesBack = true ∧ path.ledgerReading h t pid = none

/-- One process takes the SIGSTOP of a path with two readings, or none does. -/
theorem stopSent_cases (h : Host) (t : Nat) (pid : Pid) :
    (∃ st o, StopSent h t pid st ∧
        (h.timeline.kernel (t + 2)).takes pid.val.toNat (some .stop) pid o ∧
        ∀ o', FreezePath.idle.stops h t pid o' ↔ o' = o) ∨
      (∀ st, ¬ StopSent h t pid st) ∧ ∀ o, ¬ FreezePath.idle.stops h t pid o := by
  by_cases hSome : ∃ st, StopSent h t pid st
  · obtain ⟨st, hSent⟩ := hSome
    have hPid : pid ≠ Pid.none := pid_ne_zero_of_present (present_of_readStartTime hSent.1)
    obtain ⟨o, hTakes⟩ := (delivered_ne_nil_iff hPid).mp hSent.2.2.2
    refine Or.inl ⟨st, o, hSent, hTakes, ?_⟩
    intro o'
    rw [stops_iff_stopSent]
    constructor
    · intro hStops
      obtain ⟨-, -, hTakes'⟩ := hStops
      exact takes_unique hTakes' hTakes
    · rintro rfl
      exact ⟨st, hSent, hTakes⟩
  · have hNone : ∀ st, ¬ StopSent h t pid st := fun st hSent => hSome ⟨st, hSent⟩
    refine Or.inr ⟨hNone, ?_⟩
    intro o hStops
    obtain ⟨st, hSent, -⟩ := stops_iff_stopSent.mp hStops
    exact hNone st hSent

theorem allOrNothing_idle_iff : AllOrNothing h t .idle pid ↔ Accounted h t .idle pid := by
  unfold Accounted
  rcases stopSent_cases h t pid with ⟨st, o, hSent, hTakes, hStops⟩ | ⟨hNone, hNobody⟩
  · obtain ⟨hResult, hDeliveries, hCalls⟩ :=
      readAndFreeze_of_sent hSent fun _ => addOrUnfreeze pid
    simp only [hStops, forall_eq, FreezePath.takesBack, true_and]
    cases hRead : (h.timeline.kernel (t + 3)).readStartTime pid with
    | some st' =>
        obtain ⟨hAdded, hSilent, hNoCalls⟩ := addOrUnfreeze_of_some hRead
        have hReading : FreezePath.idle.ledgerReading h t pid = some st' := hRead
        rw [hReading, or_iff_left (Option.some_ne_none st'), Option.some_inj]
        refine allOrNothing_of_recorded (hResult.trans hAdded) ?_
        apply leftStopped_iff_of_takes _ _ hTakes
        · exact hDeliveries.trans (by rw [hSilent, List.append_nil])
        · exact hCalls.trans (by rw [hNoCalls])
    | none =>
        obtain ⟨hAdded, hRest, hCont⟩ := addOrUnfreeze_of_none hRead hSent.2.2.1
        refine iff_of_true ?_ (Or.inr hRead)
        refine allOrNothing_of_nothing (hResult.trans hAdded) ?_
        intro s hLeft
        rw [hCont] at hCalls
        have hStopped := (leftStopped_iff hDeliveries hRest hCalls (by simp)).mp hLeft
        exact hStopped.2 _ (List.mem_singleton_self _) ⟨rfl, rfl⟩
  · obtain ⟨hResult, hSilent⟩ := readAndFreeze_of_not_sent hNone fun _ => addOrUnfreeze pid
    refine iff_of_true ?_ (fun o hStops => absurd hStops (hNobody o))
    exact allOrNothing_of_nothing hResult fun s => not_leftStopped_of_silent hSilent

/-- The plan makes the accesses of the idle freeze. -/
theorem allOrNothing_plan_iff : AllOrNothing h t .plan pid ↔ Accounted h t .plan pid := by
  have hSame : FreezePath.plan.attempt pid = FreezePath.idle.attempt pid :=
    freezeProcess_eq_idleFreeze
  unfold AllOrNothing
  rw [hSame]
  exact allOrNothing_idle_iff

theorem allOrNothing_headroom_iff :
    AllOrNothing h t .headroom pid ↔ Accounted h t .headroom pid := by
  unfold Accounted
  have hStop : ∀ o, FreezePath.headroom.stops h t pid o ↔ FreezePath.idle.stops h t pid o :=
    fun o => Iff.rfl
  simp only [hStop]
  rcases stopSent_cases h t pid with ⟨st, o, hSent, hTakes, hStops⟩ | ⟨hNone, hNobody⟩
  · obtain ⟨hResult, hDeliveries, hCalls⟩ :=
      readAndFreeze_of_sent hSent fun st => .ret (some st)
    have hReading : FreezePath.headroom.ledgerReading h t pid = some st := hSent.1
    simp only [hStops, forall_eq, FreezePath.takesBack, Bool.false_eq_true, false_and, or_false,
      hReading, Option.some_inj]
    refine allOrNothing_of_recorded hResult ?_
    apply leftStopped_iff_of_takes _ _ hTakes
    · exact hDeliveries.trans (by rw [deliveries_ret, List.append_nil])
    · exact hCalls.trans (by rw [calls_ret])
  · obtain ⟨hResult, hSilent⟩ := readAndFreeze_of_not_sent hNone fun st => .ret (some st)
    refine iff_of_true ?_ (fun o hStops => absurd hStops (hNobody o))
    exact allOrNothing_of_nothing hResult fun s => not_leftStopped_of_silent hSilent

/-- `cmd_freeze` sends SIGSTOP and, when it is taken, reads a start time. -/
theorem cmdFreeze_of_fits (hFits : pid.val.toNat ≤ i32Max) :
    (cmdFreeze pid).result h.timeline.answer t =
        (if (h.timeline.kernel t).delivered pid.val.toNat (some .stop) ≠ [] then
          (h.timeline.kernel (t + 1)).readStartTime pid
        else none) ∧
      h.timeline.deliveries t (cmdFreeze pid) = h.timeline.send t pid.val.toNat .stop ∧
      calls h t (cmdFreeze pid) = [⟨t, pid.val.toNat, .stop⟩] := by
  have hSuccess : ((sendSignal pid .stop).result h.timeline.answer t).success = true ↔
      (h.timeline.kernel t).delivered pid.val.toNat (some .stop) ≠ [] :=
    (success_sendSignal .stop).trans (and_iff_right hFits)
  unfold cmdFreeze add
  rw [Program.result_bind, deliveries_bind, calls_bind, finish_sendSignal .stop hFits,
    deliveries_sendSignal, if_pos hFits, calls_sendSignal .stop hFits]
  by_cases hTaken : (h.timeline.kernel t).delivered pid.val.toNat (some .stop) ≠ []
  · rw [if_pos (hSuccess.mpr hTaken), if_pos hTaken, deliveries_readStartTime,
      calls_readStartTime, deliveries_ret, calls_ret, List.append_nil, List.append_nil]
    exact ⟨rfl, rfl, rfl⟩
  · rw [if_neg (fun hOk => hTaken (hSuccess.mp hOk)), if_neg hTaken, deliveries_ret, calls_ret,
      List.append_nil, List.append_nil]
    exact ⟨rfl, rfl, rfl⟩

theorem allOrNothing_command_iff :
    AllOrNothing h t .command pid ↔ Accounted h t .command pid := by
  have hStops : ∀ o, FreezePath.command.stops h t pid o ↔
      pid.val.toNat ≤ i32Max ∧
        (h.timeline.kernel t).takes pid.val.toNat (some .stop) pid o := fun o => Iff.rfl
  unfold Accounted
  simp only [hStops, FreezePath.takesBack, Bool.false_eq_true, false_and, or_false]
  by_cases hFits : pid.val.toNat ≤ i32Max
  · obtain ⟨hResult, hDeliveries, hCalls⟩ := cmdFreeze_of_fits (h := h) (t := t) hFits
    by_cases hTaker : ∃ o, (h.timeline.kernel t).takes pid.val.toNat (some .stop) pid o
    · obtain ⟨o, hTakes⟩ := hTaker
      have hTaken := List.ne_nil_of_mem (Kernel.mem_delivered_iff.mpr hTakes)
      have hLeft := leftStopped_iff_of_takes hDeliveries hCalls hTakes
      rw [if_pos hTaken] at hResult
      have hOne : (∀ o', pid.val.toNat ≤ i32Max ∧
            (h.timeline.kernel t).takes pid.val.toNat (some .stop) pid o' →
            FreezePath.command.ledgerReading h t pid = some o'.startTime) ↔
          (h.timeline.kernel (t + 1)).readStartTime pid = some o.startTime := by
        constructor
        · intro hAll
          exact hAll o ⟨hFits, hTakes⟩
        · intro hRead o' ho'
          rw [takes_unique ho'.2 hTakes]
          exact hRead
      rw [hOne]
      cases hRead : (h.timeline.kernel (t + 1)).readStartTime pid with
      | some st =>
          rw [Option.some_inj]
          exact allOrNothing_of_recorded (hResult.trans hRead) hLeft
      | none =>
          refine iff_of_false ?_ (Option.some_ne_none _).symm
          intro hAll
          have hRecorded := (hAll o.startTime).mpr ((hLeft o.startTime).mpr rfl)
          have hNothing := hResult.trans hRead
          rw [show FreezePath.command.attempt pid = cmdFreeze pid from rfl, hNothing] at hRecorded
          exact Option.some_ne_none _ hRecorded.symm
    · refine iff_of_true ?_ (fun o ho => absurd ⟨o, ho.2⟩ hTaker)
      apply allOrNothing_of_nothing
      · refine hResult.trans ?_
        split
        · next hTaken =>
            -- only a group takes it, and nobody holds PID 0
            by_cases hPid : pid = Pid.none
            · unfold Kernel.readStartTime
              rw [hPid, h.noZero]
              exact ite_self none
            · exact absurd ((delivered_ne_nil_iff hPid).mp hTaken) hTaker
        · rfl
      · intro s hLeft
        obtain ⟨o, hTakes, -⟩ := (leftStopped_iff_alone hDeliveries hCalls).mp hLeft
        exact hTaker ⟨o, hTakes⟩
  · refine iff_of_true ?_ (fun o ho => absurd ho.1 hFits)
    have hRefused : FreezePath.command.attempt pid = .ret none := by
      show cmdFreeze pid = _
      unfold cmdFreeze sendSignal
      rw [if_neg hFits]
      rfl
    apply allOrNothing_of_nothing
    · rw [hRefused]
      rfl
    · intro s
      rw [hRefused]
      exact not_leftStopped_of_silent (deliveries_ret none)

end Paths

/-- **When a freeze is all or nothing.**  An attempt leaves each incarnation of
the PID stopped and recorded with its start time, or neither, exactly when the
start time for the ledger is that of the process that took SIGSTOP; the plan and
the idle freeze also stand its absence. -/
theorem allOrNothing_iff (h : Host) (t : Nat) (path : FreezePath) (pid : Pid) :
    AllOrNothing h t path pid ↔ Accounted h t path pid := by
  cases path with
  | plan => exact allOrNothing_plan_iff
  | idle => exact allOrNothing_idle_iff
  | headroom => exact allOrNothing_headroom_iff
  | command => exact allOrNothing_command_iff

/-- **`mgctl freeze` stops the player and records nothing.** -/
theorem command_leaves_player_stopped :
    FreezePath.command.stops outOfDescriptors 0 ⟨1234⟩ player ∧
      (cmdFreeze ⟨1234⟩).result outOfDescriptors.timeline.answer 0 = none ∧
      ¬ AllOrNothing outOfDescriptors 0 .command ⟨1234⟩ := by
  have hStops : FreezePath.command.stops outOfDescriptors 0 ⟨1234⟩ player :=
    ⟨by decide, rfl, by decide +kernel, rfl⟩
  refine ⟨hStops, by decide +kernel, ?_⟩
  intro hAll
  rcases allOrNothing_command_iff.mp hAll player hStops with hRead | hBack
  · exact absurd hRead (by decide +kernel)
  · exact absurd hBack.1 (by decide)

end Mgd.Executor.FreezeAttempts
