import Mgd.Executor.UnfreezeOutcome

/-!
# The SIGKILL after a SIGTERM

`killer::sigterm` reads the start time of its PID, sends SIGTERM, waits for the
PID to come free, and sends SIGKILL when it does not.  The start time is read
once more before SIGKILL, if the first reading gave one: a PID that has passed
on in the meantime is left alone.  A first reading that failed leaves nothing to
compare, and the call then kills whoever holds the PID.

`sigkill_only_own_iff` : with the PID left alone after the second reading,
SIGKILL finds the process that got SIGTERM exactly when the first reading
succeeded or the PID did not pass on during the grace period.
-/

namespace Mgd.Executor.GraceKill

open Mgd.Types Mgd.Lib.AssocMap Mgd.Lib.Accesses Mgd.Executor.Signals
open Mgd.Executor.UnfreezeOutcome

section Calls

variable (h : Host)

/-- The incarnation that holds a PID. -/
def incarnation (t : Nat) (pid : Pid) : Option Nat :=
  ((h.timeline.kernel t).procs.lookup pid).map Occupant.startTime

/-- The PID does not pass on from the access `s` to the access `u`. -/
def Unchanged (pid : Pid) (s u : Nat) : Prop :=
  ∀ r, s ≤ r → r ≤ u → incarnation h r pid = incarnation h s pid

/-- The readings of a start time, in order. -/
def readingAt (t : Nat) : Access → List Nat
  | .readStartTime _ => [t]
  | .kill _ _ => []
  | .dump _ => []

/-- The calls of `kill(2)` with SIGKILL. -/
def sigkillAt (t : Nat) : Access → List Nat
  | .kill _ (some .kill) => [t]
  | .kill _ _ => []
  | .readStartTime _ => []
  | .dump _ => []

def readings {α : Type} (t : Nat) (p : Syscalls α) : List Nat :=
  p.effects readingAt h.timeline.answer t

def sigkills {α : Type} (t : Nat) (p : Syscalls α) : List Nat :=
  p.effects sigkillAt h.timeline.answer t

/-- The PID does not pass on between the reading that follows SIGTERM, where
there is one, and the SIGKILL at `T`. -/
def QuietAtKill (t : Nat) (pid : Pid) (T : Nat) : Prop :=
  ∀ r ∈ readings h t (sigterm pid), t < r → Unchanged h pid r T

end Calls

section Lemmas

variable {h : Host} {t u : Nat} {pid : Pid} {st : Nat}

theorem incarnation_eq_some_iff : incarnation h t pid = some st ↔ h.present t pid st :=
  Option.map_eq_some_iff

theorem Unchanged.present (hSame : Unchanged h pid t u) {r : Nat} (hFrom : t ≤ r) (hTo : r ≤ u)
    (hPresent : h.present r pid st) : h.present u pid st := by
  have hStart := hSame r hFrom hTo
  have hEnd := hSame u (le_trans hFrom hTo) (le_refl u)
  rw [← incarnation_eq_some_iff] at hPresent ⊢
  rw [hEnd, ← hStart, hPresent]

/-- SIGKILL goes out once, at `killTime`. -/
theorem mem_sigkills_iff {T : Nat} :
    T ∈ sigkills h t (sigterm pid) ↔
      h.timeline.reachesKill pid t ∧ T = h.timeline.killTime pid t := by
  unfold sigkills Timeline.reachesKill Timeline.killTime
  rw [effects_sigterm fun _ => rfl]
  cases hStart : (h.timeline.kernel t).readStartTime pid with
  | none =>
      rw [effects_killUnlessRecycled_none]
      simp [sigkillAt]
  | some original =>
      rw [effects_killUnlessRecycled_some]
      by_cases hSame : (h.timeline.kernel (t + 12)).readStartTime pid = some original
      · simp [sigkillAt, hSame]
      · simp [sigkillAt, hSame]

/-- A call that gets to its SIGKILL has read the start time once more before
it, unless the first reading failed. -/
theorem mem_readings_of_reachesKill (hKill : h.timeline.reachesKill pid t)
    (hFirst : (h.timeline.kernel t).readStartTime pid ≠ none) :
    t + 12 ∈ readings h t (sigterm pid) := by
  obtain ⟨original, hStart⟩ := Option.ne_none_iff_exists'.mp hFirst
  unfold readings
  rw [effects_sigterm fun _ => rfl, if_pos ⟨hKill.1, hKill.2.1⟩, hStart,
    effects_killUnlessRecycled_some]
  simp [readingAt]

/-- SIGTERM goes to the process that holds the PID. -/
theorem present_of_sigterm (hTerm : h.reached t (sigterm pid) .term pid st) :
    h.present (t + 1) pid st := by
  obtain ⟨d, hMem, hSignal, hPid, hStart⟩ := hTerm
  cases mem_deliveries_sigterm.mp hMem with
  | inl hSent =>
      have hTakes := (Timeline.mem_send_iff.mp hSent).2.2
      rw [hPid] at hTakes
      exact ⟨d.occupant, hTakes.1, hStart⟩
  | inr hKilled =>
      have hKill := (Timeline.mem_send_iff.mp hKilled.2).2.1
      rw [hSignal] at hKill
      cases hKill

end Lemmas

/-- Between two accesses that find the same incarnation the PID does not pass
on. -/
theorem unchanged_of_present (h : History) {t u : Nat} {pid : Pid} {st : Nat}
    (hBefore : h.present t pid st) (hAfter : h.present u pid st) :
    Unchanged h.toHost pid t u := by
  intro r hFrom hTo
  have hThere := h.gone hFrom hTo hBefore hAfter
  rw [← incarnation_eq_some_iff] at hBefore hThere
  rw [hThere, hBefore]

/--
**Whom the SIGKILL of `sigterm` finds.**  For every history of the processes
that hold a PID and every outcome of the readings: when `sigterm` delivers
SIGTERM to an incarnation of the PID, sends SIGKILL, and the PID does not pass
on between the reading in front of SIGKILL and SIGKILL, that incarnation holds
the PID at SIGKILL exactly when the first reading of the start time succeeded
or the PID did not pass on between the two signals.
-/
theorem sigkill_only_own_iff (h : History) (t : Nat) (pid : Pid) (a T : Nat)
    (hTerm : h.reached t (sigterm pid) .term pid a)
    (hSent : T ∈ sigkills h.toHost t (sigterm pid)) (hSame : QuietAtKill h.toHost t pid T) :
    h.present T pid a ↔
      (h.timeline.kernel t).readStartTime pid ≠ none ∨ Unchanged h.toHost pid (t + 1) T := by
  have hThere := present_of_sigterm hTerm
  obtain ⟨hKill, hT⟩ := mem_sigkills_iff.mp hSent
  constructor
  · intro hPresent
    exact Or.inr (unchanged_of_present h hThere hPresent)
  · intro hCompared
    cases hCompared with
    | inl hFirstRead =>
        have hWindow := hSame (t + 12) (mem_readings_of_reachesKill hKill hFirstRead) (by omega)
        unfold Timeline.killTime at hT
        rw [if_neg hFirstRead] at hT
        obtain ⟨original, hStart⟩ := Option.ne_none_iff_exists'.mp hFirstRead
        have hLastRead := hKill.2.2.resolve_left hFirstRead
        rw [hStart] at hLastRead
        -- the same start time on both sides of SIGTERM: its process held the PID in between
        have hFirst := present_of_readStartTime hStart
        have hLast := present_of_readStartTime hLastRead
        have hBetween : h.present (t + 1) pid original := h.gone (by omega) (by omega) hFirst hLast
        have hOwn : a = original := present_unique hThere hBetween
        rw [hOwn]
        exact hWindow.present (le_refl _) (by omega) hLast
    | inr hKept =>
        unfold Timeline.killTime at hT
        exact hKept.present (le_refl _) (by split at hT <;> omega) hThere

/-- A player that ignores SIGTERM is killed. -/
theorem sigkill_only_own_player :
    playerRuns.reached 0 (sigterm ⟨1234⟩) .term ⟨1234⟩ 500 ∧
      13 ∈ sigkills playerRuns.toHost 0 (sigterm ⟨1234⟩) ∧ playerRuns.present 13 ⟨1234⟩ 500 := by
  have hTerm : playerRuns.reached 0 (sigterm ⟨1234⟩) .term ⟨1234⟩ 500 :=
    ⟨⟨1, .term, ⟨1234⟩, player⟩, mem_deliveries_sigterm.mpr (Or.inl (by decide +kernel)), rfl,
      rfl, rfl⟩
  have hSent : 13 ∈ sigkills playerRuns.toHost 0 (sigterm ⟨1234⟩) := by decide +kernel
  refine ⟨hTerm, hSent, ?_⟩
  refine (sigkill_only_own_iff playerRuns 0 ⟨1234⟩ 500 13 hTerm hSent ?_).mpr (Or.inl (by decide))
  intro r _ _ s _ _
  rfl

/-! ## A first reading that fails -/

/-- The process that takes the PID after the player. -/
def newcomer : Occupant := { player with startTime := 900 }

/-- The first `stat` file cannot be opened; the player goes at SIGTERM and its
PID is taken at once. -/
def playerReplaced : History where
  timeline :=
    { kernel := fun i =>
        { procs := (∅ : Map Pid Occupant).insert ⟨1234⟩ (if i ≤ 1 then player else newcomer)
          statReadable := fun _ => decide (0 < i)
          permits := fun _ _ => true
          self := ⟨900⟩
          selfGroup := 900 }
      dump := fun _ => none }
  noZero _ := rfl
  gone := by
    intro s t u pid st hst htu hBefore hAfter
    obtain ⟨o, hHeld, hStart⟩ := hBefore
    obtain ⟨o', hHeld', hStart'⟩ := hAfter
    by_cases hOld : t ≤ 1
    · refine ⟨o, ?_, hStart⟩
      have hEarlier : s ≤ 1 := le_trans hst hOld
      simpa only [if_pos hOld, if_pos hEarlier] using hHeld
    · refine ⟨o', ?_, hStart'⟩
      have hLater : ¬ u ≤ 1 := fun h => hOld (le_trans htu h)
      simpa only [if_neg hOld, if_neg hLater] using hHeld'

/-- **The newcomer gets the SIGKILL.** -/
theorem newcomer_killed :
    playerReplaced.reached 0 (sigterm ⟨1234⟩) .term ⟨1234⟩ 500 ∧
      12 ∈ sigkills playerReplaced.toHost 0 (sigterm ⟨1234⟩) ∧
      QuietAtKill playerReplaced.toHost 0 ⟨1234⟩ 12 ∧
      ¬ playerReplaced.present 12 ⟨1234⟩ 500 ∧
      playerReplaced.reached 0 (sigterm ⟨1234⟩) .kill ⟨1234⟩ 900 := by
  have hReadings : readings playerReplaced.toHost 0 (sigterm ⟨1234⟩) = [0] := by decide +kernel
  refine ⟨?_, by decide +kernel, ?_, ?_, ?_⟩
  · exact ⟨⟨1, .term, ⟨1234⟩, player⟩, mem_deliveries_sigterm.mpr (Or.inl (by decide +kernel)), rfl,
      rfl, rfl⟩
  · intro r hr hLate
    rw [hReadings, List.mem_singleton] at hr
    omega
  · intro hPresent
    have hNewcomer : playerReplaced.present 12 ⟨1234⟩ 900 := ⟨newcomer, rfl, rfl⟩
    cases present_unique hPresent hNewcomer
  · exact ⟨⟨12, .kill, ⟨1234⟩, newcomer⟩, by decide +kernel, rfl, rfl, rfl⟩

end Mgd.Executor.GraceKill
