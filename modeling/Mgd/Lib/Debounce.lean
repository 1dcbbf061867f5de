import Mathlib.Data.List.DropRight
import Mgd.Lib.Run

/-!
# Debounced changes

A debouncer follows a stream of inputs, each of which calls for a target.  It
changes to a target only when enough inputs in a row have called for it, or
when one input is urgent enough to need no second.  `Policy` holds what the
debouncer is told: the target of an input, how many inputs a change takes, and
which inputs jump.

Two exact statements are proved.  `changes_iff` reads a change off the history:
the count of the target since the last change has just reached the need.
`leaves_iff` reads it off the inputs to come: while all of them call for targets
on one side, the debouncer moves to that side exactly when one of them jumps or
some target fills its need in a row.
-/

namespace Mgd.Lib.Debounce

open Mgd.Lib.Run

universe u v

/-- What moves a debouncer.  A first input is only counted, so no change but a
jump takes fewer than two. -/
structure Policy (α : Type u) (ι : Type v) where
  target : ι → α
  need : α → α → Nat
  jumps : α → ι → Bool
  two_le_need : ∀ current t, 2 ≤ need current t
  target_ne_of_jumps : ∀ current i, jumps current i = true → target i ≠ current

/-- The current value, the target being counted, and its count. -/
structure Debouncer (α : Type u) where
  current : α
  pending : α
  ticks : Nat
deriving DecidableEq

variable {α : Type u} {ι : Type v} [DecidableEq α] (p : Policy α ι)

def step (s : Debouncer α) (i : ι) : Debouncer α :=
  if p.jumps s.current i = true then ⟨p.target i, p.target i, 0⟩
  else if p.target i = s.current then ⟨s.current, s.current, 0⟩
  else if p.target i = s.pending then
    if p.need s.current (p.target i) ≤ s.ticks + 1 then ⟨p.target i, p.target i, 0⟩
    else ⟨s.current, p.target i, s.ticks + 1⟩
  else ⟨s.current, p.target i, 1⟩

/-- The five ways of a step. -/
inductive Move (s : Debouncer α) (i : ι) : Debouncer α → Prop
  | jumped (hJump : p.jumps s.current i = true) : Move s i ⟨p.target i, p.target i, 0⟩
  | settled (hJump : p.jumps s.current i = false) (hSame : p.target i = s.current) :
      Move s i ⟨s.current, s.current, 0⟩
  | reached (hJump : p.jumps s.current i = false) (hNe : p.target i ≠ s.current)
      (hPending : p.target i = s.pending)
      (hFull : p.need s.current (p.target i) ≤ s.ticks + 1) :
      Move s i ⟨p.target i, p.target i, 0⟩
  | counted (hJump : p.jumps s.current i = false) (hNe : p.target i ≠ s.current)
      (hPending : p.target i = s.pending)
      (hShort : s.ticks + 1 < p.need s.current (p.target i)) :
      Move s i ⟨s.current, p.target i, s.ticks + 1⟩
  | restarted (hJump : p.jumps s.current i = false) (hNe : p.target i ≠ s.current)
      (hPending : p.target i ≠ s.pending) :
      Move s i ⟨s.current, p.target i, 1⟩

theorem step_move (s : Debouncer α) (i : ι) : Move p s i (step p s i) := by
  unfold step
  split
  · next hJump => exact .jumped hJump
  · next hJump =>
      rw [Bool.not_eq_true] at hJump
      split
      · next hSame => exact .settled hJump hSame
      · next hNe =>
          split
          · next hPending =>
              split
              · next hFull => exact .reached hJump hNe hPending hFull
              · next hShort => exact .counted hJump hNe hPending (by omega)
          · next hPending => exact .restarted hJump hNe hPending

/-- A step keeps the current value or changes to the target of its input. -/
theorem step_current (s : Debouncer α) (i : ι) :
    (step p s i).current = s.current ∨ (step p s i).current = p.target i := by
  have hMove := step_move p s i
  generalize step p s i = s' at hMove ⊢
  cases hMove with
  | jumped hJump => exact Or.inr rfl
  | settled hJump hSame => exact Or.inl rfl
  | reached hJump hNe hPending hFull => exact Or.inr rfl
  | counted hJump hNe hPending hShort => exact Or.inl rfl
  | restarted hJump hNe hPending => exact Or.inl rfl

/-- The count belongs to a target other than the current value, and is below
what a change takes. -/
structure Counts (s : Debouncer α) : Prop where
  settled : s.pending = s.current → s.ticks = 0
  short : s.pending ≠ s.current → s.ticks < p.need s.current s.pending

theorem counts_step (s : Debouncer α) (i : ι) : Counts p (step p s i) := by
  have hMove := step_move p s i
  generalize step p s i = s' at hMove ⊢
  cases hMove with
  | jumped hJump => exact ⟨fun _ => rfl, fun hNe => absurd rfl hNe⟩
  | settled hJump hSame => exact ⟨fun _ => rfl, fun hNe => absurd rfl hNe⟩
  | reached hJump hNe hPending hFull => exact ⟨fun _ => rfl, fun hNe => absurd rfl hNe⟩
  | counted hJump hNe hPending hShort => exact ⟨fun hEq => absurd hEq hNe, fun _ => hShort⟩
  | restarted hJump hNe hPending =>
      have hNeed := p.two_le_need s.current (p.target i)
      exact ⟨fun hEq => absurd hEq hNe, fun _ => by dsimp only; omega⟩

variable {p}

theorem Counts.run {s : Debouncer α} (h : Counts p s) (is : List ι) :
    Counts p (run (step p) s is) := by
  induction is generalizing s with
  | nil => exact h
  | cons i rest ih => exact ih (counts_step p s i)

/-! ## A change and the history -/

/-- What one input leaves in the history. -/
structure Entry (α : Type u) where
  target : α
  changed : Bool
deriving DecidableEq

variable (p) in
def entry (s : Debouncer α) (i : ι) : Entry α where
  target := p.target i
  changed := decide ((step p s i).current ≠ s.current)

/-- How many inputs in a row, since the last change, called for `t`. -/
def streak (t : α) (history : List (Entry α)) : Nat :=
  (history.rtakeWhile fun e => decide (e.target = t) && !e.changed).length

@[simp] theorem streak_nil (t : α) : streak t [] = 0 := by
  simp [streak]

theorem streak_concat (t : α) (history : List (Entry α)) (e : Entry α) :
    streak t (history ++ [e]) =
      if e.target = t ∧ e.changed = false then streak t history + 1 else 0 := by
  unfold streak
  rw [List.rtakeWhile_concat]
  by_cases hEntry : e.target = t ∧ e.changed = false
  · rw [if_pos hEntry, if_pos (by simp [hEntry]), List.length_append, List.length_singleton]
  · rw [if_neg hEntry, if_neg (by simpa using hEntry), List.length_nil]

variable (p) in
/-- The count is the streak of the pending target; every other streak is over. -/
structure Tracks (s : Debouncer α × List (Entry α)) : Prop where
  counts : Counts p s.1
  streak_eq : ∀ t, t ≠ s.1.current →
    streak t s.2 = if t = s.1.pending then s.1.ticks else 0

theorem Tracks.step {s : Debouncer α × List (Entry α)} (h : Tracks p s) (i : ι) :
    Tracks p (logged (step p) (entry p) s i) := by
  refine ⟨counts_step p s.1 i, fun t ht => ?_⟩
  rw [logged_snd, streak_concat]
  rw [logged_fst] at ht ⊢
  have hMove := step_move p s.1 i
  unfold entry
  generalize Debounce.step p s.1 i = s' at hMove ht ⊢
  cases hMove with
  | jumped hJump =>
      have hNe := p.target_ne_of_jumps s.1.current i hJump
      simp [hNe, ht]
  | settled hJump hSame =>
      rw [hSame]
      simp [Ne.symm ht, ht]
  | reached hJump hNe hPending hFull => simp [hNe, ht]
  | counted hJump hNe hPending hShort =>
      have hOld := h.streak_eq t ht
      by_cases hTarget : p.target i = t
      · have hEq : t = s.1.pending := hTarget.symm.trans hPending
        rw [if_pos hEq] at hOld
        simp [hTarget, hOld]
      · simp [hTarget, Ne.symm hTarget]
  | restarted hJump hNe hPending =>
      have hOld := h.streak_eq t ht
      by_cases hTarget : p.target i = t
      · rw [if_neg (hTarget ▸ hPending)] at hOld
        simp [hTarget, hOld]
      · simp [hTarget, Ne.symm hTarget]

theorem Tracks.run {s : Debouncer α × List (Entry α)} (h : Tracks p s) (is : List ι) :
    Tracks p (run (logged (Debounce.step p) (entry p)) s is) := by
  induction is generalizing s with
  | nil => exact h
  | cons i rest ih => exact ih (h.step i)

/-- **A change, read off the history.**  The current value changes to `t`
exactly when the input calls for `t` and either jumps or brings the streak of
`t` to its need. -/
theorem changes_iff {s : Debouncer α × List (Entry α)} (h : Tracks p s) (i : ι) (t : α) :
    s.1.current ≠ t ∧ (step p s.1 i).current = t ↔
      p.target i = t ∧ (p.jumps s.1.current i = true ∨
        (t ≠ s.1.current ∧ streak t s.2 + 1 = p.need s.1.current t)) := by
  have hMove := step_move p s.1 i
  have hNeed := p.two_le_need s.1.current t
  generalize step p s.1 i = s' at hMove ⊢
  cases hMove with
  | jumped hJump =>
      have hNe := p.target_ne_of_jumps s.1.current i hJump
      constructor
      · exact fun hChange => ⟨hChange.2, Or.inl hJump⟩
      · intro hCall
        exact ⟨fun hEq => hNe (hCall.1.trans hEq.symm), hCall.1⟩
  | settled hJump hSame =>
      constructor
      · exact fun hChange => absurd hChange.2 hChange.1
      · intro hCall
        cases hCall.2 with
        | inl hJumps => rw [hJumps] at hJump; cases hJump
        | inr hStreak => exact absurd (hCall.1.symm.trans hSame) hStreak.1
  | reached hJump hNe hPending hFull =>
      constructor
      · intro hChange
        have hEq : p.target i = t := hChange.2
        have hShort := h.counts.short (hPending ▸ hNe)
        have hStreak := h.streak_eq t (Ne.symm hChange.1)
        rw [if_pos (hEq.symm.trans hPending)] at hStreak
        rw [← hPending, hEq] at hShort
        rw [hEq] at hFull
        exact ⟨hEq, Or.inr ⟨Ne.symm hChange.1, by omega⟩⟩
      · intro hCall
        exact ⟨fun hEq => hNe (hCall.1.trans hEq.symm), hCall.1⟩
  | counted hJump hNe hPending hShort =>
      constructor
      · exact fun hChange => absurd hChange.2 hChange.1
      · intro hCall
        cases hCall.2 with
        | inl hJumps => rw [hJumps] at hJump; cases hJump
        | inr hReach =>
            have hStreak := h.streak_eq t hReach.1
            rw [if_pos (hCall.1.symm.trans hPending)] at hStreak
            rw [hCall.1] at hShort
            omega
  | restarted hJump hNe hPending =>
      constructor
      · exact fun hChange => absurd hChange.2 hChange.1
      · intro hCall
        cases hCall.2 with
        | inl hJumps => rw [hJumps] at hJump; cases hJump
        | inr hReach =>
            have hStreak := h.streak_eq t hReach.1
            rw [if_neg (hCall.1 ▸ hPending)] at hStreak
            omega

/-! ## Changes over a whole stretch of inputs -/

variable (p) in
/-- Some target fills its need in a row, the pending count included. -/
def Fills (s : Debouncer α) (is : List ι) : Prop :=
  ∃ t, List.replicate (p.need s.current t) t <:+:
    List.replicate s.ticks s.pending ++ is.map p.target

theorem Counts.not_fills_nil {s : Debouncer α} (h : Counts p s) : ¬ Fills p s [] := by
  intro hFills
  obtain ⟨t, hInfix⟩ := hFills
  rw [List.map_nil, List.append_nil] at hInfix
  have hNeed := p.two_le_need s.current t
  have hLength := hInfix.length_le
  rw [List.length_replicate, List.length_replicate] at hLength
  have hMem : t ∈ List.replicate s.ticks s.pending :=
    hInfix.subset (List.mem_replicate.mpr ⟨by omega, rfl⟩)
  have hEq : t = s.pending := List.eq_of_mem_replicate hMem
  by_cases hSettled : s.pending = s.current
  · have hTicks := h.settled hSettled
    omega
  · have hShort := h.short hSettled
    rw [← hEq] at hShort
    omega

omit [DecidableEq α] in
/-- A block that is too short and ends in another value starts no longer block
of one value. -/
theorem replicate_infix_of_short {k m : Nat} {a b c : α} {l : List α} (hk : 0 < k)
    (hNe : c ≠ b) (hShort : a = b → m < k) :
    List.replicate k a <:+: List.replicate m b ++ c :: l ↔ List.replicate k a <:+: c :: l := by
  refine ⟨fun hInfix => ?_, List.infix_append_of_infix_right⟩
  induction m with
  | zero => exact hInfix
  | succ m ih =>
      rw [List.replicate_succ, List.cons_append, List.infix_cons_iff] at hInfix
      cases hInfix with
      | inl hStart =>
          obtain ⟨k, rfl⟩ : ∃ k', k = k' + 1 := ⟨k - 1, by omega⟩
          rw [List.replicate_succ, List.cons_prefix_cons] at hStart
          obtain ⟨rfl, hTail⟩ := hStart
          have hLonger : m < k := by
            have hLt := hShort rfl
            omega
          -- the block of `a` runs over the place of `c`
          obtain ⟨d, rfl⟩ : ∃ d, k = m + (d + 1) := ⟨k - m - 1, by omega⟩
          rw [← List.replicate_append_replicate, List.prefix_append_right_inj,
            List.replicate_succ, List.cons_prefix_cons] at hTail
          exact absurd hTail.1.symm hNe
      | inr hLater => exact ih (fun hEq => by have hLt := hShort hEq; omega) hLater

variable {side : α → Prop}

/-- On a side all the inputs call for, the debouncer stays. -/
theorem side_run {s : Debouncer α} {is : List ι} (hSide : side s.current)
    (hIn : ∀ i ∈ is, side (p.target i)) : side (run (step p) s is).current := by
  induction is generalizing s with
  | nil => exact hSide
  | cons i rest ih =>
      refine ih ?_ fun j hj => hIn j (List.mem_cons_of_mem i hj)
      cases step_current p s i with
      | inl hStay => rw [hStay]; exact hSide
      | inr hTarget => rw [hTarget]; exact hIn i List.mem_cons_self

/-- **A change, read off the inputs to come.**  While every input calls for a
target on one side of the current value, the debouncer ends on that side exactly
when an input jumps or a target fills its need in a row. -/
theorem leaves_iff {s : Debouncer α} (hCounts : Counts p s) (hOut : ¬ side s.current)
    {is : List ι} (hIn : ∀ i ∈ is, side (p.target i)) :
    side (run (step p) s is).current ↔
      (∃ i ∈ is, p.jumps s.current i = true) ∨ Fills p s is := by
  induction is generalizing s with
  | nil =>
      constructor
      · exact fun hSide => absurd hSide hOut
      · intro hMoves
        cases hMoves with
        | inl hJump =>
            obtain ⟨i, hi, -⟩ := hJump
            exact absurd hi List.not_mem_nil
        | inr hFills => exact absurd hFills hCounts.not_fills_nil
  | cons i rest ih =>
      have hTarget := hIn i List.mem_cons_self
      have hRest : ∀ j ∈ rest, side (p.target j) := fun j hj =>
        hIn j (List.mem_cons_of_mem i hj)
      have hNext := counts_step p s i
      have hMove := step_move p s i
      rw [run_cons]
      generalize step p s i = s' at hMove hNext ⊢
      cases hMove with
      | jumped hJump =>
          exact iff_of_true (side_run hTarget hRest)
            (Or.inl ⟨i, List.mem_cons_self, hJump⟩)
      | settled hJump hSame => exact absurd (hSame ▸ hTarget) hOut
      | reached hJump hNe hPending hFull =>
          refine iff_of_true (side_run hTarget hRest) (Or.inr ⟨p.target i, ?_⟩)
          obtain ⟨d, hd⟩ : ∃ d, s.ticks + 1 = d + p.need s.current (p.target i) :=
            ⟨s.ticks + 1 - p.need s.current (p.target i), by omega⟩
          refine ⟨List.replicate d (p.target i), rest.map p.target, ?_⟩
          rw [List.replicate_append_replicate, ← hd, List.replicate_succ', hPending, List.map_cons,
            hPending, List.append_assoc, List.singleton_append]
      | counted hJump hNe hPending hShort =>
          rw [ih hNext hOut hRest]
          have hList : List.replicate (s.ticks + 1) (p.target i) ++ rest.map p.target =
              List.replicate s.ticks s.pending ++ (i :: rest).map p.target := by
            rw [List.replicate_succ', List.append_assoc, List.singleton_append, List.map_cons,
              hPending]
          simp only [Fills, hList, List.mem_cons, exists_eq_or_imp, hJump, Bool.false_eq_true,
            false_or]
      | restarted hJump hNe hPending =>
          rw [ih hNext hOut hRest]
          have hInfix : ∀ t, List.replicate (p.need s.current t) t <:+:
              List.replicate s.ticks s.pending ++ (i :: rest).map p.target ↔
                List.replicate (p.need s.current t) t <:+:
                  List.replicate 1 (p.target i) ++ rest.map p.target := by
            intro t
            have hNeed := p.two_le_need s.current t
            refine replicate_infix_of_short (by omega) hPending fun hEq => ?_
            rw [hEq]
            by_cases hSettled : s.pending = s.current
            · have hZero := hCounts.settled hSettled
              rw [hEq] at hNeed
              omega
            · exact hCounts.short hSettled
          simp only [Fills, hInfix, List.mem_cons, exists_eq_or_imp, hJump, Bool.false_eq_true,
            false_or]

end Mgd.Lib.Debounce
