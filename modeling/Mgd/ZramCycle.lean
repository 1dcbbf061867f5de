import Mathlib.Data.List.Forall2
import Mgd.ZramReclaim

/-!
# The swap cycle

The loop of `mgd-zram-reclaim` over its devices, against a kernel that answers
every swap call as it likes, with the signal mask and the pauses between two
attempts.  `Orderly` says what a cycle leaves in its trace; one device gives one
`OnePair`, and `reclaimOne_spec` is the step that the loop repeats.
-/

namespace Mgd.ZramCycle

open Mgd.ZramReclaim

/-! ## The process and the kernel -/

/-- A set of signals, by number. -/
abbrev SigSet := Nat → Bool

/-- SIGHUP, SIGINT, SIGQUIT and SIGTERM. -/
def terminating : SigSet := fun signal => [1, 2, 3, 15].contains signal

abbrev Errno := Nat

def EPERM : Errno := 1

inductive Event
  /-- a swap call, its error, and the signals blocked meanwhile -/
  | call (c : Syscall) (error : Option Errno) (mask : SigSet)
  | sleep (ms : Nat) (mask : SigSet)
  /-- the mask is set to this -/
  | setMask (mask : SigSet)

structure World where
  mask : SigSet
  /-- the error of the `n`-th swap call, `none` for success -/
  answer : Nat → Option Errno
  /-- swap calls made -/
  made : Nat
  trace : List Event

namespace World

def call (w : World) (c : Syscall) : Option Errno × World :=
  (w.answer w.made,
    { w with made := w.made + 1, trace := w.trace ++ [.call c (w.answer w.made) w.mask] })

def sleep (w : World) (ms : Nat) : World := { w with trace := w.trace ++ [.sleep ms w.mask] }

def setMask (w : World) (mask : SigSet) : World :=
  { w with mask := mask, trace := w.trace ++ [.setMask mask] }

end World

def blocked (mask : SigSet) : SigSet := fun signal => mask signal || terminating signal

/-- Returns the previous mask. -/
def blockSignals (w : World) : SigSet × World := (w.mask, w.setMask (blocked w.mask))

def restoreSignals (old : SigSet) (w : World) : World := w.setMask old

/-! ## One device -/

/-- The loop over the attempts that are left, after one that failed. -/
def retrySwapon (path : String) (flags : Nat) : Nat → Option Errno → World → Option Errno × World
  | 0, on, w => (on, w)
  | left + 1, _, w =>
      let (on, w) := (w.sleep 100).call (.swapon path flags)
      if on = none then (on, w) else retrySwapon path flags left on w

/-- One attempt, and three more if it fails. -/
def attemptSwapon (path : String) (flags : Nat) (w : World) : Option Errno × World :=
  let (on, w) := w.call (.swapon path flags)
  if on = none then (on, w) else retrySwapon path flags 3 on w

def reclaimOne (dev : ZramSwap) (w : World) : Except ReclaimErr Unit × World :=
  if '\x00' ∈ dev.path.toList then (.error .other, w)
  else
    let (saved, w) := blockSignals w
    let (off, w) := w.call (.swapoff dev.path)
    match off with
    | some errno =>
        -- the device is still on
        (.error (if errno = EPERM then .eperm else .other), restoreSignals saved w)
    | none =>
        let (on, w) := attemptSwapon dev.path (swaponFlags dev.priority) w
        let w := restoreSignals saved w
        match on with
        | none => (.ok (), w)
        | some _ => (.error .other, w)

/-! ## The loop -/

structure Loop where
  transient : Nat
  eperm : Nat
  world : World

/-- The counters are `u32` in the source; no kernel has that many swap areas. -/
def reclaimNext (l : Loop) (dev : ZramSwap) : Loop :=
  match reclaimOne dev l.world with
  | (.ok (), w) => { l with world := w }
  | (.error .eperm, w) => { l with eperm := l.eperm + 1, world := w }
  | (.error .other, w) => { l with transient := l.transient + 1, world := w }

/-- The exit code, and the world at the exit. -/
def cycle (devices : List ZramSwap) (w : World) : Nat × World :=
  let l := devices.foldl reclaimNext ⟨0, 0, w⟩
  (if l.eperm > 0 then 2 else if l.transient > 0 then 1 else 0, l.world)

/-! ## What an orderly cycle is -/

/-- Answers to the attempts at one `swapon`: up to the first success, or four. -/
structure Attempts (answers : List (Option Errno)) : Prop where
  attempted : answers ≠ []
  atMost : answers.length ≤ 4
  failedBefore : ∀ error ∈ answers.dropLast, error ≠ none
  upTo : none ∈ answers ∨ answers.length = 4

def swaponsAgain (dev : ZramSwap) (mask : SigSet) (answers : List (Option Errno)) : List Event :=
  answers.flatMap fun error =>
    [.sleep 100 mask, .call (.swapon dev.path (swaponFlags dev.priority)) error mask]

/-- Attempts one after the other, with a pause before all but the first. -/
def swapons (dev : ZramSwap) (mask : SigSet) : List (Option Errno) → List Event
  | [] => []
  | first :: again =>
      .call (.swapon dev.path (swaponFlags dev.priority)) first mask ::
        swaponsAgain dev mask again

/-- What one device leaves in the trace: the signals are blocked, the device is
switched off, and on again if it went off, and the mask is restored. -/
inductive OnePair (start : SigSet) (dev : ZramSwap) : List Event → Prop
  | refused (errno : Errno) :
      OnePair start dev
        [.setMask (blocked start), .call (.swapoff dev.path) (some errno) (blocked start),
          .setMask start]
  | pair {answers : List (Option Errno)} (attempts : Attempts answers) :
      OnePair start dev
        (.setMask (blocked start) :: .call (.swapoff dev.path) none (blocked start) ::
          swapons dev (blocked start) answers ++ [.setMask start])

/-- The device was switched off, and on. -/
def OffAndOn (dev : ZramSwap) (part : List Event) : Prop :=
  (∃ mask, .call (.swapoff dev.path) none mask ∈ part) ∧
    ∃ flags mask, .call (.swapon dev.path flags) none mask ∈ part

/-- A `swapoff` failed with `EPERM`. -/
def Denied (part : List Event) : Prop :=
  ∃ path mask, .call (.swapoff path) (some EPERM) mask ∈ part

/-- The priority that the kernel gives a device for the flags, `none` if it
chooses one itself. -/
def grantedPriority (flags : Nat) : Option Nat :=
  if flags &&& 0x8000 = 0 then none else some (flags &&& 0x7fff)

structure Orderly (devices : List ZramSwap) (before : World) (exit : Nat × World)
    (parts : List (List Event)) : Prop where
  trace : exit.2.trace = before.trace ++ parts.flatten
  pairs : List.Forall₂ (OnePair before.mask) devices parts
  blocking : ∀ signal, terminating signal = true → blocked before.mask signal = true
  restored : exit.2.mask = before.mask
  priority : ∀ dev ∈ devices, ∀ n ≤ 32767, dev.priority = (n : Nat) →
    grantedPriority (swaponFlags dev.priority) = some n
  ok : exit.1 = 0 ↔ List.Forall₂ OffAndOn devices parts
  denied : exit.1 = 2 ↔ ∃ part ∈ parts, Denied part
  otherwise : exit.1 = 1 ↔
    ¬ List.Forall₂ OffAndOn devices parts ∧ ¬ ∃ part ∈ parts, Denied part

/-! ## The flags -/

theorem grantedPriority_swaponFlags {n : Nat} (h : n ≤ 32767) :
    grantedPriority (swaponFlags n) = some n := by
  have hLow : n < 2 ^ 15 := by omega
  have hMask : n &&& (2 ^ 15 - 1) = n := by
    rw [Nat.and_two_pow_sub_one_eq_mod]
    exact Nat.mod_eq_of_lt hLow
  have hFlags : swaponFlags n = 2 ^ 15 + n := by
    show (if (n : Int) ≥ 0 then 2 ^ 15 ||| ((n : Int).toNat &&& (2 ^ 15 - 1)) else 0) = _
    rw [if_pos (Int.natCast_nonneg n), Int.toNat_natCast, hMask]
    simpa using (Nat.two_pow_add_eq_or_of_lt hLow 1).symm
  have hPrefer : (2 ^ 15 + n) &&& 2 ^ 15 ≠ 0 := by
    intro hZero
    have hBit : ((2 ^ 15 + n) &&& 2 ^ 15).testBit 15 = false := by
      rw [hZero, Nat.zero_testBit]
    rw [Nat.testBit_and, Nat.testBit_two_pow_self, Nat.testBit_two_pow_add_eq,
      Nat.testBit_lt_two_pow hLow] at hBit
    cases hBit
  have hGranted : (2 ^ 15 + n) &&& (2 ^ 15 - 1) = n := by
    rw [Nat.and_two_pow_sub_one_eq_mod]
    omega
  show (if swaponFlags n &&& 2 ^ 15 = 0 then none else some (swaponFlags n &&& (2 ^ 15 - 1))) = _
  rw [hFlags, if_neg hPrefer, hGranted]

/-! ## One device -/

section

variable {dev : ZramSwap} {w : World}

/-- What the retries do with the answers they get. -/
structure Retried (dev : ZramSwap) (w : World) (left : Nat) (after : Option Errno × World)
    (answers : List (Option Errno)) : Prop where
  trace : after.2.trace = w.trace ++ swaponsAgain dev w.mask answers
  mask : after.2.mask = w.mask
  atMost : answers.length ≤ left
  failedBefore : ∀ error ∈ answers.dropLast, error ≠ none
  upTo : none ∈ answers ∨ answers.length = left
  last : after.1 = none ↔ none ∈ answers

theorem mem_dropLast_cons {α : Type} {a x : α} {rest : List α} (h : x ∈ (a :: rest).dropLast) :
    (x = a ∧ rest ≠ []) ∨ x ∈ rest.dropLast := by
  cases rest with
  | nil => simp at h
  | cons b rest =>
      rw [List.dropLast_cons_of_ne_nil (List.cons_ne_nil b rest), List.mem_cons] at h
      exact h.imp_left fun hEq => ⟨hEq, List.cons_ne_nil b rest⟩

/-- One more failure in front. -/
theorem failedBefore_cons {first : Option Errno} {answers : List (Option Errno)}
    (hFirst : first ≠ none) (h : ∀ error ∈ answers.dropLast, error ≠ none) :
    ∀ error ∈ (first :: answers).dropLast, error ≠ none := by
  intro error hError
  cases mem_dropLast_cons hError with
  | inl hHere => exact hHere.1 ▸ hFirst
  | inr hLater => exact h error hLater

theorem none_mem_cons {first : Option Errno} {answers : List (Option Errno)}
    (hFirst : first ≠ none) : none ∈ first :: answers ↔ none ∈ answers := by
  rw [List.mem_cons]
  exact or_iff_right fun hEq => hFirst hEq.symm

/-- The retries stop at the first success. -/
theorem retrySwapon_spec (dev : ZramSwap) (left : Nat) {on : Option Errno} (hOn : on ≠ none)
    (w : World) :
    ∃ answers, Retried dev w left
      (retrySwapon dev.path (swaponFlags dev.priority) left on w) answers := by
  induction left generalizing on w with
  | zero =>
      refine ⟨[], ⟨(List.append_nil _).symm, rfl, Nat.le_refl 0, ?_, .inr rfl, ?_⟩⟩
      · intro error hError
        cases hError
      · exact ⟨fun hNone => absurd hNone hOn, fun hMem => absurd hMem List.not_mem_nil⟩
  | succ left ih =>
      have hStep : retrySwapon dev.path (swaponFlags dev.priority) (left + 1) on w =
          if w.answer w.made = none then
            ((w.sleep 100).call (.swapon dev.path (swaponFlags dev.priority)))
          else retrySwapon dev.path (swaponFlags dev.priority) left (w.answer w.made)
            ((w.sleep 100).call (.swapon dev.path (swaponFlags dev.priority))).2 := rfl
      have hTrace : ((w.sleep 100).call (.swapon dev.path (swaponFlags dev.priority))).2.trace =
          w.trace ++ swaponsAgain dev w.mask [w.answer w.made] := List.append_assoc _ _ _
      rw [hStep]
      by_cases hSuccess : w.answer w.made = none
      · rw [if_pos hSuccess]
        refine ⟨[w.answer w.made], ⟨hTrace, rfl, by simp, by simp, ?_, ?_⟩⟩
        · exact .inl (by rw [hSuccess]; exact List.mem_cons_self)
        · exact ⟨fun _ => by rw [hSuccess]; exact List.mem_cons_self, fun _ => hSuccess⟩
      · rw [if_neg hSuccess]
        obtain ⟨answers, h⟩ := ih hSuccess
          ((w.sleep 100).call (.swapon dev.path (swaponFlags dev.priority))).2
        refine ⟨w.answer w.made :: answers, ⟨?_, h.mask, Nat.succ_le_succ h.atMost,
          failedBefore_cons hSuccess h.failedBefore,
          h.upTo.imp (List.mem_cons_of_mem _) (congrArg (· + 1)), ?_⟩⟩
        · rw [h.trace, hTrace, List.append_assoc]
          rfl
        · rw [h.last, none_mem_cons hSuccess]

/-- All the attempts: the first, and the retries after it failed. -/
theorem attemptSwapon_spec (dev : ZramSwap) (w : World) :
    ∃ answers, Attempts answers ∧
      (attemptSwapon dev.path (swaponFlags dev.priority) w).2.trace =
        w.trace ++ swapons dev w.mask answers ∧
      (attemptSwapon dev.path (swaponFlags dev.priority) w).2.mask = w.mask ∧
      ((attemptSwapon dev.path (swaponFlags dev.priority) w).1 = none ↔ none ∈ answers) := by
  have hUnfold : attemptSwapon dev.path (swaponFlags dev.priority) w =
      if w.answer w.made = none then w.call (.swapon dev.path (swaponFlags dev.priority))
      else retrySwapon dev.path (swaponFlags dev.priority) 3 (w.answer w.made)
        (w.call (.swapon dev.path (swaponFlags dev.priority))).2 := rfl
  rw [hUnfold]
  by_cases hSuccess : w.answer w.made = none
  · rw [if_pos hSuccess]
    have hAttempts : Attempts [w.answer w.made] := by
      refine ⟨List.cons_ne_nil _ _, Nat.le_add_left 1 3, by simp, .inl ?_⟩
      rw [hSuccess]
      exact List.mem_cons_self
    refine ⟨[w.answer w.made], hAttempts, rfl, rfl, fun _ => ?_, fun _ => hSuccess⟩
    rw [hSuccess]
    exact List.mem_cons_self
  · rw [if_neg hSuccess]
    obtain ⟨again, h⟩ := retrySwapon_spec dev 3 hSuccess
      (w.call (.swapon dev.path (swaponFlags dev.priority))).2
    have hAttempts : Attempts (w.answer w.made :: again) :=
      ⟨List.cons_ne_nil _ _, Nat.succ_le_succ h.atMost,
        failedBefore_cons hSuccess h.failedBefore,
        h.upTo.imp (List.mem_cons_of_mem _) (congrArg (· + 1))⟩
    refine ⟨_, hAttempts, ?_, h.mask, ?_⟩
    · rw [h.trace]
      exact List.append_assoc _ _ _
    · rw [h.last, none_mem_cons hSuccess]

theorem call_mem_swapons {mask mask' : SigSet} {answers : List (Option Errno)} {c : Syscall}
    {error : Option Errno} :
    .call c error mask' ∈ swapons dev mask answers ↔
      c = .swapon dev.path (swaponFlags dev.priority) ∧ error ∈ answers ∧ mask' = mask := by
  cases answers with
  | nil => simp [swapons]
  | cons first again =>
      simp only [swapons, swaponsAgain, List.mem_cons, List.mem_flatMap, Event.call.injEq,
        List.not_mem_nil, or_false, reduceCtorEq, false_or]
      constructor
      · rintro (⟨rfl, rfl, rfl⟩ | ⟨x, hx, rfl, rfl, rfl⟩)
        · exact ⟨rfl, .inl rfl, rfl⟩
        · exact ⟨rfl, .inr hx, rfl⟩
      · rintro ⟨rfl, rfl | hx, rfl⟩
        · exact .inl ⟨rfl, rfl, rfl⟩
        · exact .inr ⟨error, hx, rfl, rfl, rfl⟩

/-- What one device does to the world, and what it returns. -/
structure OneDevice (dev : ZramSwap) (w : World) (after : Except ReclaimErr Unit × World)
    (part : List Event) : Prop where
  trace : after.2.trace = w.trace ++ part
  pair : OnePair w.mask dev part
  restored : after.2.mask = w.mask
  ok : after.1 = .ok () ↔ OffAndOn dev part
  denied : after.1 = .error .eperm ↔ Denied part

/-- The world in which the device is switched off: the signals are blocked. -/
def switchOff (dev : ZramSwap) (w : World) : World :=
  ((w.setMask (blocked w.mask)).call (.swapoff dev.path)).2

theorem reclaimOne_of_refused (hNul : '\x00' ∉ dev.path.toList) {errno : Errno}
    (hOff : w.answer w.made = some errno) :
    reclaimOne dev w = (.error (if errno = EPERM then .eperm else .other),
      (switchOff dev w).setMask w.mask) := by
  unfold reclaimOne
  rw [if_neg hNul]
  simp only [blockSignals, restoreSignals, switchOff, World.call, World.setMask, hOff]

theorem reclaimOne_of_off (hNul : '\x00' ∉ dev.path.toList) (hOff : w.answer w.made = none) :
    reclaimOne dev w =
      let after := attemptSwapon dev.path (swaponFlags dev.priority) (switchOff dev w)
      (if after.1 = none then .ok () else .error .other, after.2.setMask w.mask) := by
  unfold reclaimOne
  rw [if_neg hNul]
  simp only [blockSignals, restoreSignals, switchOff, World.call, World.setMask, hOff]
  split <;> next hOn => simp only [hOn, if_true, reduceCtorEq, if_false]

/-- A device that cannot be switched off. -/
theorem refused_spec (hNul : '\x00' ∉ dev.path.toList) {errno : Errno}
    (hOff : w.answer w.made = some errno) : ∃ part, OneDevice dev w (reclaimOne dev w) part := by
  rw [reclaimOne_of_refused hNul hOff]
  refine ⟨_, ⟨?_, .refused errno, rfl, ?_, ?_⟩⟩
  · show w.trace ++ [_] ++ [.call _ (w.answer w.made) _] ++ [_] = _
    rw [hOff, List.append_assoc, List.append_assoc]
    rfl
  · simp [OffAndOn]
  · by_cases hEperm : errno = EPERM
    · simp [Denied, hEperm]
    · simp [Denied, hEperm, eq_comm]

/-- A device that goes off is switched on again. -/
theorem switchedOff_spec (hNul : '\x00' ∉ dev.path.toList) (hOff : w.answer w.made = none) :
    ∃ part, OneDevice dev w (reclaimOne dev w) part := by
  obtain ⟨answers, hAttempts, hTrace, hMask, hLast⟩ := attemptSwapon_spec dev (switchOff dev w)
  rw [reclaimOne_of_off hNul hOff]
  dsimp only
  generalize attemptSwapon dev.path (swaponFlags dev.priority) (switchOff dev w) = after at *
  refine ⟨_, ⟨?_, .pair hAttempts, rfl, ?_, ?_⟩⟩
  · show after.2.trace ++ [_] = _
    rw [hTrace]
    show w.trace ++ [_] ++ [.call _ (w.answer w.made) _] ++ _ ++ [_] = _
    rw [hOff]
    simp only [List.append_assoc]
    rfl
  · have hOn : (∃ flags mask, Event.call (.swapon dev.path flags) none mask ∈
        .setMask (blocked w.mask) :: .call (.swapoff dev.path) none (blocked w.mask) ::
          swapons dev (blocked w.mask) answers ++ [.setMask w.mask]) ↔ none ∈ answers := by
      simp [call_mem_swapons]
    have hWentOff : ∃ mask, Event.call (.swapoff dev.path) none mask ∈
        .setMask (blocked w.mask) :: .call (.swapoff dev.path) none (blocked w.mask) ::
          swapons dev (blocked w.mask) answers ++ [.setMask w.mask] :=
      ⟨blocked w.mask, by simp⟩
    unfold OffAndOn
    rw [hOn, ← hLast, and_iff_right hWentOff]
    by_cases hBack : after.1 = none <;> simp [hBack]
  · have hNotDenied : ¬ Denied (.setMask (blocked w.mask) ::
        .call (.swapoff dev.path) none (blocked w.mask) ::
          swapons dev (blocked w.mask) answers ++ [.setMask w.mask]) := by
      simp [Denied, call_mem_swapons]
    rw [iff_false_right hNotDenied]
    split <;> simp

/-- **One device**: whatever the kernel answers, what it leaves is an orderly pair. -/
theorem reclaimOne_spec (hNul : '\x00' ∉ dev.path.toList) (w : World) :
    ∃ part, OneDevice dev w (reclaimOne dev w) part := by
  cases hOff : w.answer w.made with
  | some errno => exact refused_spec hNul hOff
  | none => exact switchedOff_spec hNul hOff

/-! ## The loop -/

/-- What the loop over some devices does to its counters and the world. -/
structure ManyDevices (devices : List ZramSwap) (l after : Loop) (parts : List (List Event)) :
    Prop where
  trace : after.world.trace = l.world.trace ++ parts.flatten
  pairs : List.Forall₂ (OnePair l.world.mask) devices parts
  restored : after.world.mask = l.world.mask
  denied : 0 < after.eperm ↔ 0 < l.eperm ∨ ∃ part ∈ parts, Denied part
  ok : after.eperm = 0 ∧ after.transient = 0 ↔
    (l.eperm = 0 ∧ l.transient = 0) ∧ List.Forall₂ OffAndOn devices parts

/-- One device counts once, where it belongs. -/
theorem reclaimNext_spec (hNul : '\x00' ∉ dev.path.toList) (l : Loop) :
    ∃ part, ManyDevices [dev] l (reclaimNext l dev) [part] := by
  obtain ⟨part, hTrace, hPair, hRestored, hOk, hDenied⟩ := reclaimOne_spec hNul l.world
  refine ⟨part, ?_⟩
  unfold reclaimNext
  cases hRun : reclaimOne dev l.world with
  | mk result world =>
      rw [hRun] at hTrace hRestored hOk hDenied
      have hFlat : world.trace = l.world.trace ++ [part].flatten := by
        rw [List.flatten_singleton]
        exact hTrace
      cases result with
      | ok done =>
          have hNotDenied : ¬ Denied part := fun h => by cases hDenied.mpr h
          refine ⟨hFlat, .cons hPair .nil, hRestored, ?_, ?_⟩
          · simp [hNotDenied]
          · simp [hOk.mp rfl]
      | error e =>
          have hNotOk : ¬ OffAndOn dev part := fun h => by cases hOk.mpr h
          cases e with
          | eperm =>
              refine ⟨hFlat, .cons hPair .nil, hRestored, ?_, ?_⟩
              · simp [hDenied.mp rfl]
              · simp [hNotOk]
          | other =>
              have hNotDenied : ¬ Denied part := fun h => by cases hDenied.mpr h
              refine ⟨hFlat, .cons hPair .nil, hRestored, ?_, ?_⟩
              · simp [hNotDenied]
              · simp [hNotOk]

theorem foldl_reclaimNext_spec {devices : List ZramSwap}
    (hNul : ∀ dev ∈ devices, '\x00' ∉ dev.path.toList) (l : Loop) :
    ∃ parts, ManyDevices devices l (devices.foldl reclaimNext l) parts := by
  induction devices generalizing l with
  | nil =>
      refine ⟨[], ⟨(List.append_nil _).symm, .nil, rfl, ?_, ?_⟩⟩
      · simp
      · simp
  | cons dev rest ih =>
      rw [List.forall_mem_cons] at hNul
      obtain ⟨part, hHere⟩ := reclaimNext_spec hNul.1 l
      obtain ⟨parts, hRest⟩ := ih hNul.2 (reclaimNext l dev)
      have hRestPairs := hRest.pairs
      rw [hHere.restored] at hRestPairs
      refine ⟨part :: parts, ⟨?_, ?_, ?_, ?_, ?_⟩⟩
      · rw [List.foldl_cons, hRest.trace, hHere.trace, List.flatten_singleton, List.append_assoc,
          List.flatten_cons]
      · exact .cons (List.forall₂_cons.mp hHere.pairs).1 hRestPairs
      · rw [List.foldl_cons, hRest.restored, hHere.restored]
      · rw [List.foldl_cons, hRest.denied, hHere.denied, or_assoc]
        simp
      · rw [List.foldl_cons, hRest.ok, hHere.ok, List.forall₂_cons, List.forall₂_cons, and_assoc]
        simp

end

/-- The exit code, by the counters. -/
theorem exit_iff (eperm transient : Nat) :
    ((if eperm > 0 then 2 else if transient > 0 then 1 else 0) = 0 ↔
      eperm = 0 ∧ transient = 0) ∧
    ((if eperm > 0 then 2 else if transient > 0 then 1 else 0) = 2 ↔ 0 < eperm) ∧
    ((if eperm > 0 then 2 else if transient > 0 then 1 else 0) = 1 ↔
      ¬ (eperm = 0 ∧ transient = 0) ∧ ¬ 0 < eperm) := by
  by_cases hEperm : eperm > 0
  · rw [if_pos hEperm]
    omega
  · rw [if_neg hEperm]
    by_cases hTransient : transient > 0
    · rw [if_pos hTransient]
      omega
    · rw [if_neg hTransient]
      omega

/-- **The cycle is orderly**, whatever the kernel answers. -/
theorem cycle_orderly {devices : List ZramSwap}
    (hZram : ∀ dev ∈ devices, isZramDevicePath dev.path = true) (w : World) :
    ∃ parts, Orderly devices w (cycle devices w) parts := by
  obtain ⟨parts, h⟩ := foldl_reclaimNext_spec (fun dev hDev => nul_not_mem_of_zram (hZram dev hDev))
    ⟨0, 0, w⟩
  have hOk : (devices.foldl reclaimNext ⟨0, 0, w⟩).eperm = 0 ∧
      (devices.foldl reclaimNext ⟨0, 0, w⟩).transient = 0 ↔
        List.Forall₂ OffAndOn devices parts :=
    h.ok.trans (and_iff_right ⟨rfl, rfl⟩)
  have hDenied : 0 < (devices.foldl reclaimNext ⟨0, 0, w⟩).eperm ↔ ∃ part ∈ parts, Denied part :=
    h.denied.trans (or_iff_right (Nat.lt_irrefl 0))
  obtain ⟨hZero, hTwo, hOne⟩ := exit_iff (devices.foldl reclaimNext ⟨0, 0, w⟩).eperm
    (devices.foldl reclaimNext ⟨0, 0, w⟩).transient
  rw [hOk] at hZero hOne
  rw [hDenied] at hTwo hOne
  refine ⟨parts, ⟨h.trace, h.pairs, ?_, h.restored, ?_, hZero, hTwo, hOne⟩⟩
  · intro signal hSignal
    show (w.mask signal || terminating signal) = true
    rw [hSignal, Bool.or_true]
  · rintro dev - n hRange hPriority
    rw [hPriority]
    exact grantedPriority_swaponFlags hRange

/-- Two devices, one of which needs two attempts. -/
theorem cycle_orderly_two :
    ∃ parts, Orderly [⟨"/dev/zram0", 100⟩, ⟨"/dev/zram1", -2⟩]
      ⟨fun _ => false, fun n => if n = 1 then some 16 else none, 0, []⟩
      (cycle [⟨"/dev/zram0", 100⟩, ⟨"/dev/zram1", -2⟩]
        ⟨fun _ => false, fun n => if n = 1 then some 16 else none, 0, []⟩) parts :=
  cycle_orderly (by decide +kernel) _

/-! ## The cycle without its pauses and masks -/

/-- The system call of an event, if it is a swap call. -/
def Event.syscall? : Event → Option Syscall
  | .call c _ _ => some c
  | .sleep _ _ => none
  | .setMask _ => none

def syscalls (w : World) : List Syscall := w.trace.filterMap Event.syscall?

section

variable {k : Kernel} {dev : ZramSwap} {w : World}

@[simp] theorem syscalls_call (w : World) (c : Syscall) :
    syscalls (w.call c).2 = syscalls w ++ [c] := by
  show (w.trace ++ [_]).filterMap Event.syscall? = _
  rw [List.filterMap_append]
  rfl

@[simp] theorem syscalls_sleep (w : World) (ms : Nat) : syscalls (w.sleep ms) = syscalls w := by
  show (w.trace ++ [_]).filterMap Event.syscall? = _
  rw [List.filterMap_append]
  exact List.append_nil _

@[simp] theorem syscalls_setMask (w : World) (mask : SigSet) :
    syscalls (w.setMask mask) = syscalls w := by
  show (w.trace ++ [_]).filterMap Event.syscall? = _
  rw [List.filterMap_append]
  exact List.append_nil _

/-- The kernel by device gives the answers that the world has for one device. -/
structure Agrees (k : Kernel) (dev : ZramSwap) (w : World) : Prop where
  swapoff : k.swapoff dev.path =
    (w.answer w.made).map fun errno => if errno = EPERM then .eperm else .other
  swapon : ∀ i, k.swapon dev.path i = (w.answer (w.made + 1 + i)).isNone

theorem syscalls_retrySwapon (left attempt : Nat) {on : Option Errno} (hOn : on ≠ none) (w : World)
    (h : ∀ i, k.swapon dev.path (attempt + i) = (w.answer (w.made + i)).isNone) (flags : Nat) :
    syscalls (retrySwapon dev.path flags left on w).2 =
        syscalls w ++ (swaponRetry k dev.path flags attempt left).1 ∧
      (if (retrySwapon dev.path flags left on w).1 = none then .ok () else .error .other) =
        (swaponRetry k dev.path flags attempt left).2 := by
  induction left generalizing attempt on w with
  | zero => exact ⟨(List.append_nil _).symm, if_neg hOn⟩
  | succ left ih =>
      have hStep : retrySwapon dev.path flags (left + 1) on w =
          if w.answer w.made = none then (w.sleep 100).call (.swapon dev.path flags)
          else retrySwapon dev.path flags left (w.answer w.made)
            ((w.sleep 100).call (.swapon dev.path flags)).2 := rfl
      have hHere := h 0
      rw [Nat.add_zero, Nat.add_zero] at hHere
      rw [hStep, swaponRetry, hHere]
      by_cases hSuccess : w.answer w.made = none
      · rw [if_pos hSuccess, hSuccess, if_pos Option.isNone_none, syscalls_call, syscalls_sleep]
        exact ⟨rfl, if_pos hSuccess⟩
      · have hLater : ∀ i, k.swapon dev.path (attempt + 1 + i) =
            (w.answer (w.made + 1 + i)).isNone := by
          intro i
          have hNext := h (i + 1)
          rwa [show attempt + (i + 1) = attempt + 1 + i by omega,
            show w.made + (i + 1) = w.made + 1 + i by omega] at hNext
        rw [if_neg hSuccess, if_neg (by simpa using hSuccess)]
        obtain ⟨hCalls, hResult⟩ := ih (attempt + 1) hSuccess
          ((w.sleep 100).call (.swapon dev.path flags)).2 hLater
        rw [hCalls, syscalls_call, syscalls_sleep, List.append_assoc]
        exact ⟨rfl, hResult⟩

@[simp] theorem syscalls_switchOff (dev : ZramSwap) (w : World) :
    syscalls (switchOff dev w) = syscalls w ++ [.swapoff dev.path] := by
  unfold switchOff
  rw [syscalls_call, syscalls_setMask]

theorem syscalls_attemptSwapon (w : World)
    (h : ∀ i, k.swapon dev.path i = (w.answer (w.made + i)).isNone) (flags : Nat) :
    syscalls (attemptSwapon dev.path flags w).2 =
        syscalls w ++ (swaponRetry k dev.path flags 0 4).1 ∧
      (if (attemptSwapon dev.path flags w).1 = none then .ok () else .error .other) =
        (swaponRetry k dev.path flags 0 4).2 := by
  have hUnfold : attemptSwapon dev.path flags w =
      if w.answer w.made = none then w.call (.swapon dev.path flags)
      else retrySwapon dev.path flags 3 (w.answer w.made) (w.call (.swapon dev.path flags)).2 := rfl
  have hHere := h 0
  rw [Nat.add_zero] at hHere
  rw [hUnfold, swaponRetry, hHere]
  by_cases hSuccess : w.answer w.made = none
  · rw [if_pos hSuccess, hSuccess, if_pos Option.isNone_none, syscalls_call]
    exact ⟨rfl, if_pos hSuccess⟩
  · rw [if_neg hSuccess, if_neg (by simpa using hSuccess)]
    have hLater : ∀ i, k.swapon dev.path (0 + 1 + i) = (w.answer (w.made + 1 + i)).isNone := by
      intro i
      rw [h, show w.made + (0 + 1 + i) = w.made + 1 + i by omega]
    obtain ⟨hCalls, hResult⟩ := syscalls_retrySwapon 3 (0 + 1) hSuccess
      (w.call (.swapon dev.path flags)).2 hLater flags
    rw [hCalls, syscalls_call, List.append_assoc]
    exact ⟨rfl, hResult⟩

/-- **The cycle refines the calls**: with the same answers, one device makes the
calls of `ZramReclaim.reclaimOne` and has its result. -/
theorem reclaimOne_refines (h : Agrees k dev w) :
    syscalls (reclaimOne dev w).2 = syscalls w ++ (ZramReclaim.reclaimOne k dev).1 ∧
      (reclaimOne dev w).1 = (ZramReclaim.reclaimOne k dev).2 := by
  by_cases hNul : '\x00' ∈ dev.path.toList
  · unfold reclaimOne ZramReclaim.reclaimOne
    rw [if_pos hNul, if_pos hNul]
    exact ⟨(List.append_nil _).symm, rfl⟩
  · unfold ZramReclaim.reclaimOne
    rw [if_neg hNul, h.swapoff]
    cases hOff : w.answer w.made with
    | some errno =>
        rw [reclaimOne_of_refused hNul hOff, syscalls_setMask, syscalls_switchOff]
        exact ⟨rfl, rfl⟩
    | none =>
        rw [reclaimOne_of_off hNul hOff]
        obtain ⟨hCalls, hResult⟩ := syscalls_attemptSwapon (switchOff dev w) h.swapon
          (swaponFlags dev.priority)
        dsimp only [Option.map_none]
        rw [syscalls_setMask, hCalls, syscalls_switchOff, List.append_assoc]
        exact ⟨rfl, hResult⟩

end

end Mgd.ZramCycle
