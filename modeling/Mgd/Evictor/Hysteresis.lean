import Mgd.Evictor.Sensing
import Mgd.Lib.Debounce

/-!
# When the state machine moves

`StateMachine::advance` is a debouncer of the states the score calls for: two
ticks up, four to twelve down, and a jump up to Critical or Emergency on a
steep trend.  `advance_exact` characterises every change by the calls since the
last one, and bounds a recovery in the loop from below by the wall clock.

The count belongs to one target, and a call for another one restarts it, in
both directions.  `moves_iff` says when a stretch of calls on one side of the
current state moves it; calls that alternate between two states never do.
-/

namespace Mgd.Evictor.Hysteresis

open Mgd.Types Mgd.Monitor Mgd.Lib.Run Mgd.Lib.Debounce Mgd.Evictor.Scoring
open Mgd.Evictor.Sensing (Controller)

/-- The arguments of one `advance`. -/
structure Call where
  target : ControlState
  trend : ℚ

def call (sm : StateMachine) (c : Call) : StateMachine := (sm.advance c.target c.trend).1

/-- A steep trend to Critical or Emergency. -/
def Jumps (current : ControlState) (c : Call) : Prop :=
  (c.target = .critical ∨ c.target = .emergency) ∧ current < c.target ∧ 8 / 100 < c.trend

instance (current : ControlState) (c : Call) : Decidable (Jumps current c) := by
  unfold Jumps
  infer_instance

/-- Calls in a row a change from `current` to `t` takes. -/
def needed (current t : ControlState) : Nat :=
  if current < t then 2 else StateMachine.requiredTicks t

theorem two_le_needed (current t : ControlState) : 2 ≤ needed current t := by
  unfold needed
  split
  · exact le_refl 2
  · cases t <;> decide

/-! ## The state machine as a debouncer -/

def policy : Policy ControlState Call where
  target := Call.target
  need := needed
  jumps := fun current c => decide (Jumps current c)
  two_le_need := two_le_needed
  target_ne_of_jumps := by
    intro current c hJump
    exact ne_of_gt (of_decide_eq_true hJump).2.1

@[simp] theorem policy_jumps_iff (current : ControlState) (c : Call) :
    policy.jumps current c = true ↔ Jumps current c := decide_eq_true_iff

@[simp] theorem policy_target (c : Call) : policy.target c = c.target := rfl

@[simp] theorem policy_need (current t : ControlState) :
    policy.need current t = needed current t := rfl

def toDebouncer (sm : StateMachine) : Debouncer ControlState where
  current := sm.current
  pending := sm.pending
  ticks := sm.pendingTicks

@[simp] theorem toDebouncer_current (sm : StateMachine) :
    (toDebouncer sm).current = sm.current := rfl

theorem instantEscalate_eq (sm : StateMachine) (c : Call) :
    sm.instantEscalate c.target c.trend = decide (Jumps sm.current c) := by
  rw [Bool.eq_iff_iff, decide_eq_true_iff]
  simp only [StateMachine.instantEscalate, Jumps, Bool.and_eq_true, Bool.or_eq_true,
    decide_eq_true_eq, gt_iff_lt]
  tauto

/-- `advance` returns whether it jumped, and steps the debouncer. -/
theorem advance_eq (sm : StateMachine) (c : Call) :
    toDebouncer (call sm c) = step policy (toDebouncer sm) c ∧
      ((sm.advance c.target c.trend).2 = true ↔ Jumps sm.current c) := by
  have hInstant := instantEscalate_eq sm c
  unfold call StateMachine.advance step policy toDebouncer needed
  dsimp only
  by_cases hJump : Jumps sm.current c
  · have hUp : c.target > sm.current := hJump.2.1
    simp [hInstant, hJump, hUp]
  · rw [decide_eq_false hJump] at hInstant
    simp only [hInstant, hJump, decide_false, Bool.false_eq_true, if_false, iff_false]
    cases lt_trichotomy sm.current c.target with
    | inl hUp =>
        have hNe : c.target ≠ sm.current := ne_of_gt hUp
        simp only [gt_iff_lt, hUp, if_true, hNe, if_false]
        split
        · next hPending =>
            split <;> simp [hPending]
        · simp
    | inr hRest =>
        cases hRest with
        | inl hSame => simp [hSame]
        | inr hDown =>
            have hNe : c.target ≠ sm.current := ne_of_lt hDown
            have hNotUp : ¬ sm.current < c.target := not_lt_of_gt hDown
            simp only [gt_iff_lt, hNotUp, if_false, hDown, if_true, hNe]
            split
            · next hPending =>
                split <;> simp [hPending]
            · simp

/-- What a call leaves in the history. -/
def record (sm : StateMachine) (c : Call) : Entry ControlState where
  target := c.target
  changed := decide ((call sm c).current ≠ sm.current)

theorem record_eq (sm : StateMachine) (c : Call) :
    record sm c = entry policy (toDebouncer sm) c := by
  unfold record entry
  rw [← (advance_eq sm c).1]
  rfl

theorem toDebouncer_run (sm : StateMachine) (calls : List Call) :
    toDebouncer (run call sm calls) = run (step policy) (toDebouncer sm) calls := by
  induction calls generalizing sm with
  | nil => rfl
  | cons c rest ih => rw [run_cons, run_cons, ih, (advance_eq sm c).1]

theorem new_counts : Counts policy (toDebouncer StateMachine.new) :=
  ⟨fun _ => rfl, fun hNe => absurd rfl hNe⟩

/-- The count is the streak of the pending target in the history. -/
theorem tracks_run {s : StateMachine × List (Entry ControlState)}
    (h : Tracks policy (toDebouncer s.1, s.2)) (calls : List Call) :
    Tracks policy (toDebouncer (run (logged call record) s calls).1,
      (run (logged call record) s calls).2) := by
  induction calls generalizing s with
  | nil => exact h
  | cons c rest ih =>
      refine ih ?_
      have hStep := h.step c
      unfold logged at hStep ⊢
      dsimp only at hStep ⊢
      rw [(advance_eq s.1 c).1, record_eq]
      exact hStep

theorem new_tracks : Tracks policy (toDebouncer StateMachine.new, []) where
  counts := new_counts
  streak_eq := by
    intro t ht
    have hPending : t ≠ StateMachine.new.pending := ht
    rw [streak_nil, toDebouncer, if_neg hPending]

/-! ## The loop on a clock -/

/-- One full cycle: its target, the state around its `advance`, and its time. -/
structure Cycle where
  target : ControlState
  before : ControlState
  after : ControlState
  now : Instant

/-- The loop, its clock, and the cycles so far. -/
structure TimedLoop where
  controller : Controller
  clock : Instant
  cycles : List Cycle

/-- One iteration; `delay` is the time it takes beyond its sleeps. -/
inductive TimedInput
  | waitTimeout (delay : Duration)
  | psiError (delay : Duration)
  | sample (delay : Duration) (x : Sample)

namespace TimedLoop

def new (pswpin pswpout : Nat) (now : Instant) : TimedLoop where
  controller := Controller.new pswpin pswpout now
  clock := now
  cycles := []

/-- The sleep above Normal. -/
def pause (l : TimedLoop) : Duration :=
  if l.controller.lastLevel = .normal then 0 else 5 * nanosPerSec

/-- The sample with the time the loop takes it at. -/
def stamp (l : TimedLoop) (delay : Duration) (x : Sample) : Sample :=
  { x with now := l.clock + l.pause + delay }

def cycle (l : TimedLoop) (x : Sample) : Cycle where
  target := l.controller.target x
  before := l.controller.stateMachine.current
  after := (l.controller.sense x).stateMachine.current
  now := x.now

def step (l : TimedLoop) : TimedInput → TimedLoop
  | .waitTimeout delay => { l with clock := l.clock + delay }
  -- an error sleeps once more
  | .psiError delay => { l with clock := l.clock + l.pause + 5 * nanosPerSec + delay }
  | .sample delay x =>
      let x := l.stamp delay x
      { controller := l.controller.sense x
        clock := x.now
        cycles := l.cycles ++ [l.cycle x] }

end TimedLoop

/-- A recovery at the later cycle comes 5 s for each needed tick after an
earlier cycle with another target. -/
def RecoveryPersisted (earlier later : Cycle) : Prop :=
  later.after < later.before → earlier.target ≠ later.after →
    earlier.now + 5 * needed later.before later.after * nanosPerSec ≤ later.now

/-- While a recovery is counted, each of its ticks puts 5 s between the clock
and the cycles with another target. -/
def Counting (d : Debouncer ControlState) (cycles : List Cycle) (clock : Instant) : Prop :=
  d.pending < d.current → ∀ r ∈ cycles, r.target ≠ d.pending →
    r.now + 5 * d.ticks * nanosPerSec ≤ clock

theorem one_more_tick {t clock now k : Nat} (h : t + 5 * k * nanosPerSec ≤ clock)
    (hPause : clock + 5 * nanosPerSec ≤ now) : t + 5 * (k + 1) * nanosPerSec ≤ now := by
  have hSplit : 5 * (k + 1) * nanosPerSec = 5 * k * nanosPerSec + 5 * nanosPerSec := by
    rw [Nat.mul_add, Nat.add_mul]
  omega

section Tick

variable {d d' : Debouncer ControlState} {c : Call} {cycles : List Cycle} {clock now : Instant}

theorem Counting.move (h : Counting d cycles clock) (hPast : ∀ r ∈ cycles, r.now ≤ clock)
    (hPause : ∀ t, t < d.current → clock + 5 * nanosPerSec ≤ now)
    (hMove : Move policy d c d') {last : Cycle} (hLast : last.target = c.target) :
    Counting d' (cycles ++ [last]) now := by
  intro hDown r hr hOther
  cases hMove with
  | jumped hJump => exact absurd hDown (lt_irrefl _)
  | settled hJump hSame => exact absurd hDown (lt_irrefl _)
  | reached hJump hNe hPending hFull => exact absurd hDown (lt_irrefl _)
  | counted hJump hNe hPending hShort =>
      cases List.mem_append.mp hr with
      | inl hOld =>
          have hPrevious := h (hPending ▸ hDown) r hOld (hPending ▸ hOther)
          exact one_more_tick hPrevious (hPause _ hDown)
      | inr hNew => exact absurd (List.mem_singleton.mp hNew ▸ hLast) hOther
  | restarted hJump hNe hPending =>
      cases List.mem_append.mp hr with
      | inl hOld =>
          have hPrevious : r.now + 5 * 0 * nanosPerSec ≤ clock := by
            rw [Nat.mul_zero, Nat.zero_mul]
            exact hPast r hOld
          exact one_more_tick hPrevious (hPause _ hDown)
      | inr hNew => exact absurd (List.mem_singleton.mp hNew ▸ hLast) hOther

theorem Counting.recoveryPersisted (h : Counting d cycles clock)
    (hPause : ∀ t, t < d.current → clock + 5 * nanosPerSec ≤ now)
    (hMove : Move policy d c d') {r : Cycle} (hr : r ∈ cycles) :
    RecoveryPersisted r ⟨c.target, d.current, d'.current, now⟩ := by
  intro hDown hOther
  dsimp only at hDown hOther ⊢
  cases hMove with
  | jumped hJump =>
      have hUp : d.current < c.target := (of_decide_eq_true hJump).2.1
      exact absurd hDown (not_lt_of_gt hUp)
  | settled hJump hSame => exact absurd hDown (lt_irrefl _)
  | reached hJump hNe hPending hFull =>
      have hPrevious := h (hPending ▸ hDown) r hr (hPending ▸ hOther)
      have hTicks := one_more_tick hPrevious (hPause _ hDown)
      refine le_trans (Nat.add_le_add_left ?_ _) hTicks
      exact Nat.mul_le_mul_right _ (Nat.mul_le_mul_left 5 hFull)
  | counted hJump hNe hPending hShort => exact absurd hDown (lt_irrefl _)
  | restarted hJump hNe hPending => exact absurd hDown (lt_irrefl _)

end Tick

/-- The state machine of the loop as a debouncer. -/
def TimedLoop.debouncer (l : TimedLoop) : Debouncer ControlState :=
  toDebouncer l.controller.stateMachine

/-- What every state of the loop on a clock satisfies. -/
structure Paced (l : TimedLoop) : Prop where
  asleep : l.debouncer.current ≠ .calm → l.controller.lastLevel ≠ .normal
  past : ∀ r ∈ l.cycles, r.now ≤ l.clock
  counting : Counting l.debouncer l.cycles l.clock
  persisted : l.cycles.Pairwise RecoveryPersisted

theorem lastLevel_ne_normal (c : Controller) (x : Sample)
    (h : (c.sense x).stateMachine.current ≠ .calm) : (c.sense x).lastLevel ≠ .normal := by
  intro hNormal
  have hLevel := (applySwapOverrides_eq_normal_iff _ _ _ _ _).mp hNormal
  exact h ((ControlState.toPressureLevel_eq_normal_iff _).mp hLevel.1)

theorem Paced.wait {l : TimedLoop} (h : Paced l) {t : Instant} (ht : l.clock ≤ t) :
    Paced { l with clock := t } where
  asleep := h.asleep
  past := fun r hr => le_trans (h.past r hr) ht
  counting := fun hDown r hr hNe => le_trans (h.counting hDown r hr hNe) ht
  persisted := h.persisted

theorem TimedLoop.clock_le_now (l : TimedLoop) (delay : Duration) (x : Sample) :
    l.clock ≤ (l.stamp delay x).now :=
  Nat.le_trans (Nat.le_add_right _ l.pause) (Nat.le_add_right _ delay)

/-- A cycle with the state above another comes at least 5 s after the last. -/
theorem Paced.sleep {l : TimedLoop} (h : Paced l) (delay : Duration) (x : Sample)
    (t : ControlState) (ht : t < l.debouncer.current) :
    l.clock + 5 * nanosPerSec ≤ (l.stamp delay x).now := by
  have hCalm : l.debouncer.current ≠ .calm := by
    intro hEq
    rw [hEq] at ht
    cases t <;> exact absurd ht (by decide)
  have hPause : l.pause = 5 * nanosPerSec := if_neg (h.asleep hCalm)
  show l.clock + 5 * nanosPerSec ≤ l.clock + l.pause + delay
  rw [hPause]
  exact Nat.le_add_right _ delay

theorem Paced.sample {l : TimedLoop} (h : Paced l) (delay : Duration) (x : Sample) :
    Paced (l.step (.sample delay x)) := by
  have hLater := l.clock_le_now delay x
  have hSleep := h.sleep delay x
  unfold TimedLoop.step
  dsimp only
  generalize l.stamp delay x = x at hLater hSleep ⊢
  have hMove : Move policy l.debouncer ⟨l.controller.target x, (l.controller.score x).trend⟩
      (toDebouncer (l.controller.sense x).stateMachine) :=
    (advance_eq l.controller.stateMachine
      ⟨l.controller.target x, (l.controller.score x).trend⟩).1 ▸ step_move policy _ _
  refine
    { asleep := lastLevel_ne_normal l.controller x
      past := ?_
      counting := h.counting.move h.past hSleep hMove rfl
      persisted := ?_ }
  · intro r hr
    cases List.mem_append.mp hr with
    | inl hOld => exact le_trans (h.past r hOld) hLater
    | inr hNew =>
        rw [List.mem_singleton.mp hNew]
        exact le_refl _
  · show (l.cycles ++ [l.cycle x]).Pairwise RecoveryPersisted
    rw [List.pairwise_append]
    refine ⟨h.persisted, List.pairwise_singleton _ _, fun r hr d hd => ?_⟩
    rw [List.mem_singleton.mp hd]
    exact h.counting.recoveryPersisted hSleep hMove hr

theorem Paced.step {l : TimedLoop} (h : Paced l) (i : TimedInput) : Paced (l.step i) := by
  cases i with
  | waitTimeout delay => exact h.wait (Nat.le_add_right _ _)
  | psiError delay =>
      refine h.wait ?_
      rw [Nat.add_assoc, Nat.add_assoc]
      exact Nat.le_add_right _ _
  | sample delay x => exact h.sample delay x

theorem paced_run (pswpin pswpout : Nat) (now : Instant) (inputs : List TimedInput) :
    Paced (run TimedLoop.step (TimedLoop.new pswpin pswpout now) inputs) := by
  have hNew : Paced (TimedLoop.new pswpin pswpout now) :=
    { asleep := fun hCalm => absurd rfl hCalm
      past := fun r hr => absurd hr List.not_mem_nil
      counting := fun _ r hr => absurd hr List.not_mem_nil
      persisted := List.Pairwise.nil }
  generalize TimedLoop.new pswpin pswpout now = l at hNew ⊢
  induction inputs generalizing l with
  | nil => exact hNew
  | cons i rest ih => exact ih _ (hNew.step i)

/--
**The state machine is exact.**  After any calls from the start, the next call
changes the state to `t` exactly when it calls for `t` and either is a steep
call for Critical or Emergency above the current state or brings the streak of
calls for `t`, since the last change, to what `t` needs; `advance` returns
`true` exactly in the first case.  In the loop, a recovery to `t` comes at least
5 s times that need after every earlier cycle with another target.
-/
theorem advance_exact :
    (∀ (calls : List Call) (c : Call),
      let s := run (logged call record) (StateMachine.new, []) calls
      (∀ t, s.1.current ≠ t ∧ (call s.1 c).current = t ↔
        c.target = t ∧ (Jumps s.1.current c ∨
          (t ≠ s.1.current ∧ streak t s.2 + 1 = needed s.1.current t))) ∧
      ((s.1.advance c.target c.trend).2 = true ↔ Jumps s.1.current c)) ∧
    (∀ (pswpin pswpout : Nat) (now : Instant) (inputs : List TimedInput),
      (run TimedLoop.step (TimedLoop.new pswpin pswpout now) inputs).cycles.Pairwise
        RecoveryPersisted) := by
  refine ⟨fun calls c => ⟨fun t => ?_, (advance_eq _ c).2⟩, fun pswpin pswpout now inputs =>
    (paced_run pswpin pswpout now inputs).persisted⟩
  have hTracks := @tracks_run (StateMachine.new, []) new_tracks calls
  generalize run (logged call record) (StateMachine.new, []) calls = s at hTracks ⊢
  have hChanges := changes_iff hTracks c t
  rw [← (advance_eq s.1 c).1] at hChanges
  simpa only [toDebouncer_current, policy_target, policy_need, policy_jumps_iff] using hChanges

/-! ## A stretch of calls on one side -/

/-- Some state has been called for as often in a row as it needs, the pending
ticks included. -/
def InRow (sm : StateMachine) (calls : List Call) : Prop :=
  ∃ t, List.replicate (needed sm.current t) t <:+:
    List.replicate sm.pendingTicks sm.pending ++ calls.map Call.target

theorem inRow_of_same {sm : StateMachine} {calls : List Call} {t : ControlState}
    (hSame : ∀ c ∈ calls, c.target = t) (hLong : needed sm.current t ≤ calls.length) :
    InRow sm calls := by
  refine ⟨t, List.infix_append_of_infix_right ?_⟩
  have hMap : calls.map Call.target = List.replicate calls.length t := by
    rw [List.eq_replicate_iff]
    refine ⟨List.length_map .., fun s hs => ?_⟩
    obtain ⟨c, hc, rfl⟩ := List.mem_map.mp hs
    exact hSame c hc
  obtain ⟨d, hd⟩ : ∃ d, calls.length = needed sm.current t + d := Nat.exists_eq_add_of_le hLong
  rw [hMap, hd, ← List.replicate_append_replicate]
  exact (List.prefix_append _ _).isInfix

/-- While all calls are on one side, they move the state there exactly when one
jumps or a state is called for often enough in a row. -/
theorem moves_side_iff (history calls : List Call) {side : ControlState → Prop}
    (hOut : ¬ side (run call StateMachine.new history).current)
    (hIn : ∀ c ∈ calls, side c.target) :
    side (run call (run call StateMachine.new history) calls).current ↔
      (∃ c ∈ calls, Jumps (run call StateMachine.new history).current c) ∨
        InRow (run call StateMachine.new history) calls := by
  have hCounts : Counts policy (toDebouncer (run call StateMachine.new history)) := by
    rw [toDebouncer_run]
    exact new_counts.run history
  generalize run call StateMachine.new history = sm at hCounts hOut ⊢
  have hLeaves := leaves_iff hCounts hOut hIn
  rw [← toDebouncer_run] at hLeaves
  refine hLeaves.trans (or_congr ?_ Iff.rfl)
  simp only [policy_jumps_iff, toDebouncer_current]

/--
**When a stretch of calls moves the state.**  From every reachable state: calls
that are all above it have raised it by the end exactly when one of them is a
steep call for Critical or Emergency, or two in a row call for one state, the
pending call counted as the first.  Calls that are all below it have lowered it
exactly when one state was called for as often in a row as it needs.  So two
calls for one state above raise it, and twelve for one state below lower it.
-/
theorem moves_iff (history calls : List Call) :
    let sm := run call StateMachine.new history
    ((∀ c ∈ calls, sm.current < c.target) →
      (sm.current < (run call sm calls).current ↔
        (∃ c ∈ calls, Jumps sm.current c) ∨ InRow sm calls) ∧
      (∀ t, (∀ c ∈ calls, c.target = t) → 2 ≤ calls.length →
        sm.current < (run call sm calls).current)) ∧
    ((∀ c ∈ calls, c.target < sm.current) →
      ((run call sm calls).current < sm.current ↔ InRow sm calls) ∧
      (∀ t, (∀ c ∈ calls, c.target = t) → 12 ≤ calls.length →
        (run call sm calls).current < sm.current)) := by
  intro sm
  constructor
  · intro hAbove
    have hIff := moves_side_iff history calls (lt_irrefl sm.current) hAbove
    refine ⟨hIff, fun t hSame hLong => hIff.mpr (Or.inr (inRow_of_same hSame ?_))⟩
    cases calls with
    | nil => exact absurd hLong (by decide)
    | cons c rest =>
        have hUp : sm.current < t := hSame c List.mem_cons_self ▸ hAbove c List.mem_cons_self
        rw [needed, if_pos hUp]
        exact hLong
  · intro hBelow
    have hIff : (run call sm calls).current < sm.current ↔ InRow sm calls := by
      have hSide := @moves_side_iff history calls (· < sm.current) (lt_irrefl sm.current) hBelow
      refine hSide.trans (or_iff_right fun hJump => ?_)
      obtain ⟨c, hc, hJumps⟩ := hJump
      exact absurd (hBelow c hc) (not_lt_of_gt hJumps.2.1)
    refine ⟨hIff, fun t hSame hLong => hIff.mpr (inRow_of_same hSame ?_)⟩
    have hNeeded : needed sm.current t ≤ 12 := by
      unfold needed
      split
      · decide
      · cases t <;> decide
    exact le_trans hNeeded hLong

/-- Two calls for Evicting leave Calm, and twelve for Calm return to it. -/
theorem moves_from_calm_and_back :
    .calm < (run call (run call StateMachine.new []) (List.replicate 2 ⟨.evicting, 0⟩)).current ∧
    (run call (run call StateMachine.new (List.replicate 2 ⟨.evicting, 0⟩))
      (List.replicate 12 ⟨.calm, 0⟩)).current < .evicting :=
  ⟨((moves_iff [] (List.replicate 2 ⟨.evicting, 0⟩)).1 (by decide)).2 .evicting (by decide)
      (by decide),
    ((moves_iff (List.replicate 2 ⟨.evicting, 0⟩) (List.replicate 12 ⟨.calm, 0⟩)).2
      (by decide +kernel)).2 .calm (by decide) (by decide)⟩

/-- Calls for two states in turn, with a flat trend. -/
def alternating (a b : ControlState) : Nat → List Call
  | 0 => []
  | n + 1 => ⟨a, 0⟩ :: alternating b a n

theorem alternating_target {a b : ControlState} {n : Nat} {c : Call}
    (hc : c ∈ alternating a b n) : c.target = a ∨ c.target = b := by
  induction n generalizing a b with
  | zero => exact absurd hc List.not_mem_nil
  | succ n ih =>
      cases List.mem_cons.mp hc with
      | inl hFirst => exact Or.inl (congrArg Call.target hFirst)
      | inr hLater => exact (ih hLater).symm

/-- Each call for one of two states restarts the count of the other. -/
theorem alternating_stays (n : Nat) {a b : ControlState} (hNe : a ≠ b) (ha : .calm < a)
    (hb : .calm < b) (ticks : Nat) :
    (run call ⟨.calm, b, ticks⟩ (alternating a b n)).current = .calm := by
  induction n generalizing a b ticks with
  | zero => rfl
  | succ n ih =>
      have hFlat : StateMachine.instantEscalate ⟨.calm, b, ticks⟩ a 0 = false := by
        rw [instantEscalate_eq ⟨.calm, b, ticks⟩ ⟨a, 0⟩, decide_eq_false_iff_not]
        have hTrend : ¬ (8 / 100 : ℚ) < 0 := by decide +kernel
        exact fun hJump => hTrend hJump.2.2
      have hCall : call ⟨.calm, b, ticks⟩ ⟨a, 0⟩ = ⟨.calm, a, 1⟩ := by
        simp only [call, StateMachine.advance, gt_iff_lt, ha, if_true, hFlat, hNe, if_false,
          Bool.false_eq_true]
      rw [alternating, run_cons, hCall]
      exact ih (Ne.symm hNe) hb ha 1

/-- No number of calls above Calm is enough to leave it: those that alternate
between Warning and Evicting never do. -/
theorem no_bound_on_moving :
    ¬ ∃ k : Nat, ∀ history calls : List Call, calls.length = k →
      (∀ c ∈ calls, (run call StateMachine.new history).current < c.target) →
        (run call StateMachine.new history).current <
          (run call (run call StateMachine.new history) calls).current := by
  intro hBound
  obtain ⟨k, hK⟩ := hBound
  have hLength : ∀ (n : Nat) (a b : ControlState), (alternating a b n).length = n := by
    intro n
    induction n with
    | zero => exact fun _ _ => rfl
    | succ n ih => exact fun a b => congrArg Nat.succ (ih b a)
  -- one call for Evicting before, so that the first for Warning restarts a count
  have hMoved := hK [⟨.evicting, 0⟩] (alternating .warning .evicting k) (hLength k _ _) ?_
  · have hStart : run call StateMachine.new [⟨.evicting, 0⟩] = ⟨.calm, .evicting, 1⟩ := by
      decide +kernel
    rw [hStart, alternating_stays k (by decide) (by decide) (by decide)] at hMoved
    exact absurd hMoved (by decide)
  · intro c hc
    have hStart : (run call StateMachine.new [⟨.evicting, 0⟩]).current = .calm := by
      decide +kernel
    rw [hStart]
    cases alternating_target hc with
    | inl hWarning => rw [hWarning]; decide
    | inr hEvicting => rw [hEvicting]; decide

end Mgd.Evictor.Hysteresis
