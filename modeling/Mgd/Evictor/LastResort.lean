import Mgd.Evictor.Sensing
import Mgd.Lib.Stretch

/-!
# Hibernation as the last resort

`evictor::run` spawns `systemctl hibernate` when Emergency has lasted for the
configured time.  The timer is started by the first cycle at Emergency and dropped
by a cycle below it; iterations that score nothing leave it running.  The flag that
keeps it to once is never reset.

`hibernates_once` reads the command off the levels alone: there is at most one, and
it comes at the first cycle at which all cycles over the configured time were at
Emergency.
-/

namespace Mgd.Evictor.LastResort

open Mgd.Types Mgd.Monitor Mgd.Lib.Run Mgd.Lib.Stretch Mgd.Evictor.Scoring
open Mgd.Evictor.Sensing (Controller plainMeminfo psiSample)

/-! ## The loop -/

/-- One iteration; a full cycle has the `hibernate_after_sec` of the configuration
in force. -/
inductive Iteration
  | waitTimeout
  | psiError
  | cycle (x : Sample) (hibernateAfterSec : Nat)

/-- What a full cycle finds. -/
structure Scored where
  level : PressureLevel
  now : Instant
  hibernateAfterSec : Nat
deriving DecidableEq

/-- The locals of `run` the last resort uses. -/
structure Loop where
  controller : Controller
  sustainedEmergencyStart : Option Instant
  hibernateTriggered : Bool
  /-- the full cycles so far -/
  cycles : List Scored
  /-- those that spawned `systemctl hibernate` -/
  hibernations : List Scored

namespace Loop

def new (pswpin pswpout : Nat) (now : Instant) : Loop where
  controller := Controller.new pswpin pswpout now
  sustainedEmergencyStart := none
  hibernateTriggered := false
  cycles := []
  hibernations := []

def scored (s : Loop) (x : Sample) (hibernateAfterSec : Nat) : Scored where
  level := (s.controller.effective x).1
  now := x.now
  hibernateAfterSec := hibernateAfterSec

/-- The block of `run`, after the level of the cycle is known. -/
def lastResort (s : Loop) (c : Scored) : Loop :=
  let s := { s with cycles := s.cycles ++ [c] }
  if c.level ≥ .emergency then
    let start := s.sustainedEmergencyStart.getD c.now
    let s := { s with sustainedEmergencyStart := some start }
    if !s.hibernateTriggered && decide (c.hibernateAfterSec > 0) &&
        decide (Instant.secsSince c.now start ≥ c.hibernateAfterSec) then
      { s with hibernateTriggered := true, hibernations := s.hibernations ++ [c] }
    else s
  else { s with sustainedEmergencyStart := none }

def step (s : Loop) : Iteration → Loop
  | .waitTimeout => s
  | .psiError => s
  | .cycle x hibernateAfterSec =>
      let s' := s.lastResort (s.scored x hibernateAfterSec)
      { s' with controller := s.controller.sense x }

end Loop

/-! ## When it is due -/

/-- All cycles were at Emergency over the seconds that `c` is configured with, `c`
among them. -/
def Sustained (cycles : List Scored) (c : Scored) : Prop :=
  0 < c.hibernateAfterSec ∧ ∃ pre x rest, cycles = pre ++ x :: rest ∧
    x.now + Instant.ofSecs c.hibernateAfterSec ≤ c.now ∧
      ∀ y ∈ x :: rest ++ [c], .emergency ≤ y.level

/-- The clock readings of the full cycles. -/
def readings (iterations : List Iteration) : List Instant :=
  iterations.filterMap fun
    | .waitTimeout => none
    | .psiError => none
    | .cycle x _ => some x.now

/-! ## The timer -/

/-- Emergency as a stretch of cycles. -/
def emergency : Watch Scored Unit Instant where
  mark c := if .emergency ≤ c.level then some () else none
  continues _ c := decide (.emergency ≤ c.level)
  time c := c.now
  trans _ _ h := h

theorem emergency_mark (c : Scored) : emergency.mark c = some () ↔ .emergency ≤ c.level := by
  unfold emergency
  dsimp only
  split <;> simp [*]

/-- What the loop keeps: its timer is the one of the stretch, its flag says whether
the command has come. -/
structure Inv (s : Loop) : Prop where
  timer : s.sustainedEmergencyStart = (emergency.timer s.cycles).map Prod.snd
  flag : s.hibernateTriggered = true ↔ s.hibernations ≠ []
  first : FirstOf Sustained s.cycles s.hibernations

theorem see_emergency {c : Scored} (h : .emergency ≤ c.level) (t : Option (Unit × Instant)) :
    (emergency.see t c).map Prod.snd = some ((t.map Prod.snd).getD c.now) := by
  unfold Watch.see
  cases t with
  | none => simp [emergency, h]
  | some t => simp [emergency, h]

theorem see_below {c : Scored} (h : ¬ .emergency ≤ c.level) (t : Option (Unit × Instant)) :
    emergency.see t c = none := by
  unfold Watch.see
  cases t with
  | none => simp [emergency, h]
  | some t => simp [emergency, h]

/-- The test of the block, in terms of the cycles. -/
theorem due_iff {s : Loop} (h : Inv s) {c : Scored} (hLevel : .emergency ≤ c.level)
    (hOrder : emergency.Ordered s.cycles) :
    (c.hibernateAfterSec > 0 ∧
      Instant.secsSince c.now (s.sustainedEmergencyStart.getD c.now) ≥ c.hibernateAfterSec) ↔
      Sustained s.cycles c := by
  refine and_congr_right fun hPos => ?_
  rw [ge_iff_le, Instant.le_secsSince_iff hPos, h.timer]
  have hRunning := Watch.running_iff (w := emergency) hOrder c
    (fun t => t + Instant.ofSecs c.hibernateAfterSec ≤ c.now)
    fun hle hLong => (Nat.add_le_add_right hle _).trans hLong
  constructor
  · intro hLong
    cases hTimer : emergency.timer s.cycles with
    | none =>
        -- a timer just started has run for no time
        rw [hTimer] at hLong
        have hSecs : 0 < Instant.ofSecs c.hibernateAfterSec := Nat.mul_pos hPos (by decide)
        exact absurd hLong (not_le.mpr (Nat.lt_add_of_pos_right hSecs))
    | some t =>
        rw [hTimer] at hLong
        obtain ⟨pre, x, rest, hSplit, hSince, m, hMark, hRest⟩ :=
          hRunning.mp ⟨t.1, t.2, hTimer, decide_eq_true hLevel, hLong⟩
        refine ⟨pre, x, rest, hSplit, hSince, ?_⟩
        intro y hy
        cases List.mem_cons.mp hy with
        | inl hFirst => exact hFirst ▸ (emergency_mark x).mp hMark
        | inr hLater => exact of_decide_eq_true (hRest y hLater)
  · rintro ⟨pre, x, rest, hSplit, hSince, hRest⟩
    obtain ⟨m, t, hTimer, -, hOld⟩ := hRunning.mpr ⟨pre, x, rest, hSplit, hSince, (),
      (emergency_mark x).mpr (hRest x (by simp)),
      fun y hy => decide_eq_true (hRest y (List.mem_cons_of_mem x hy))⟩
    rw [hTimer]
    exact hOld

/-! ## Runs -/

theorem Inv.new (pswpin pswpout : Nat) (now : Instant) : Inv (Loop.new pswpin pswpout now) where
  timer := rfl
  flag := by simp [Loop.new]
  first := Or.inl ⟨rfl, fun pre x post h => by simp [Loop.new] at h⟩

theorem Inv.lastResort {s : Loop} (h : Inv s) (c : Scored)
    (hOrder : emergency.Ordered s.cycles) : Inv (s.lastResort c) := by
  have hNext : emergency.timer (s.cycles ++ [c]) = emergency.see (emergency.timer s.cycles) c :=
    Watch.timer_append emergency s.cycles c
  unfold Loop.lastResort
  dsimp only
  by_cases hLevel : .emergency ≤ c.level
  · have hTimer : some (s.sustainedEmergencyStart.getD c.now) =
        (emergency.timer (s.cycles ++ [c])).map Prod.snd := by
      rw [hNext, see_emergency hLevel, h.timer]
    rw [if_pos hLevel]
    by_cases hDone : s.hibernateTriggered = true
    · have hSome : s.hibernations ≠ [] := h.flag.mp hDone
      rw [if_neg (by simp [hDone])]
      exact { timer := hTimer, flag := h.flag, first := h.first.keep hSome c }
    · have hNone : s.hibernations = [] := not_not.mp (mt h.flag.mpr hDone)
      have hDue := due_iff h hLevel hOrder
      have hFirst := h.first
      rw [hNone] at hFirst
      by_cases hSustained : Sustained s.cycles c
      · rw [if_pos (by simpa [hDone] using hDue.mpr hSustained)]
        exact
          { timer := hTimer
            flag := by simp
            first := by
              rw [hNone]
              exact (hFirst.next c).1 hSustained }
      · rw [if_neg (by
          intro hTest
          simp only [Bool.and_eq_true, decide_eq_true_eq] at hTest
          exact hSustained (hDue.mp ⟨hTest.1.2, hTest.2⟩))]
        exact
          { timer := hTimer
            flag := h.flag
            first := by
              dsimp only
              rw [hNone]
              exact (hFirst.next c).2 hSustained }
  · rw [if_neg hLevel]
    have hNot : ¬ Sustained s.cycles c := by
      rintro ⟨-, pre, x, rest, -, -, hRest⟩
      exact hLevel (hRest c (by simp))
    refine { timer := ?_, flag := h.flag, first := ?_ }
    · rw [hNext, see_below hLevel]
      rfl
    · by_cases hDone : s.hibernations = []
      · have hFirst := h.first
        dsimp only
        rw [hDone] at hFirst ⊢
        exact (hFirst.next c).2 hNot
      · exact h.first.keep hDone c

theorem lastResort_cycles (s : Loop) (c : Scored) : (s.lastResort c).cycles = s.cycles ++ [c] := by
  unfold Loop.lastResort
  dsimp only
  split
  · split <;> rfl
  · rfl

theorem run_inv {s : Loop} (h : Inv s) (iterations : List Iteration)
    (hClock : (s.cycles.map Scored.now ++ readings iterations).Pairwise (· ≤ ·)) :
    Inv (run Loop.step s iterations) := by
  induction iterations generalizing s with
  | nil => exact h
  | cons i rest ih =>
      cases i with
      | waitTimeout => exact ih h hClock
      | psiError => exact ih h hClock
      | cycle x after =>
          have hOrder : emergency.Ordered s.cycles :=
            List.pairwise_map.mp (List.pairwise_append.mp hClock).1
          have hStep := h.lastResort (s.scored x after) hOrder
          refine ih ⟨hStep.timer, hStep.flag, hStep.first⟩ ?_
          have hCycles : (s.step (.cycle x after)).cycles = s.cycles ++ [s.scored x after] :=
            lastResort_cycles s _
          rw [hCycles, List.map_append, List.append_assoc]
          exact hClock

/-- **The machine is hibernated at most once in a life of the daemon**, and at the
first cycle that finds Emergency sustained, whatever the samples, the timeouts, the
failed reads and the reloads of the threshold. -/
theorem hibernates_once (pswpin pswpout : Nat) (now : Instant) (iterations : List Iteration)
    (hClock : (readings iterations).Pairwise (· ≤ ·)) :
    FirstOf Sustained (run Loop.step (Loop.new pswpin pswpout now) iterations).cycles
      (run Loop.step (Loop.new pswpin pswpout now) iterations).hibernations :=
  (run_inv (Inv.new pswpin pswpout now) iterations hClock).first

/-- Swap is full for good: Critical, and Emergency after 45 s. -/
def fullSwap (secs : Nat) : Iteration :=
  .cycle
    { psiSample 40 secs with
      meminfo := { plainMeminfo with swapTotalKb := Kb.clamp 1000000 } }
    60

/-- Emergency from the second cycle on, with a failed read in it. -/
def longEmergency : List Iteration :=
  [fullSwap 5, fullSwap 50, fullSwap 80, .psiError, fullSwap 110, fullSwap 200]

theorem longEmergency_hibernates :
    FirstOf Sustained (run Loop.step (Loop.new 0 0 0) longEmergency).cycles
        (run Loop.step (Loop.new 0 0 0) longEmergency).hibernations ∧
      (run Loop.step (Loop.new 0 0 0) longEmergency).hibernations =
        [⟨.emergency, Instant.ofSecs 110, 60⟩] :=
  ⟨hibernates_once 0 0 0 longEmergency (by decide +kernel), by decide +kernel⟩

end Mgd.Evictor.LastResort
