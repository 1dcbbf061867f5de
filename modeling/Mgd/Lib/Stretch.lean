import Mathlib.Data.List.Induction
import Mathlib.Order.Lattice

/-!
# Timers over a stretch of observations

A watcher remembers the observation a stretch began with, as a mark, and when it
began.  An observation that does not continue the stretch begins a new one, if it
can begin any.

Marks are ordered by what continues them: an observation that continues a mark and
leaves a mark of its own leaves a weaker one (`Watch.trans`).  So the timer is as old
as that exactly when some observation as old is continued by all that follow it
(`running_iff`), whichever observation the timer was started by.

What is done once is done at the first observation that calls for it
(`FirstOf.next`).
-/

namespace Mgd.Lib.Stretch

universe u v w

/-- What begins a stretch and what continues it. -/
structure Watch (α : Type u) (μ : Type v) (τ : Type w) where
  mark : α → Option μ
  continues : μ → α → Bool
  time : α → τ
  trans : ∀ {m m' : μ} {x y : α}, continues m x = true → mark x = some m' →
    continues m' y = true → continues m y = true

variable {α : Type u} {μ : Type v} {τ : Type w} (w : Watch α μ τ)

/-- The timer after one more observation. -/
def Watch.see (s : Option (μ × τ)) (x : α) : Option (μ × τ) :=
  match s with
  | some (m, t) => if w.continues m x then some (m, t) else (w.mark x).map fun m' => (m', w.time x)
  | none => (w.mark x).map fun m' => (m', w.time x)

/-- The timer over a history. -/
def Watch.timer (history : List α) : Option (μ × τ) := history.foldl w.see none

theorem Watch.timer_append (history : List α) (x : α) :
    w.timer (history ++ [x]) = w.see (w.timer history) x := by
  unfold Watch.timer
  rw [List.foldl_append]
  rfl

variable {w}

theorem Watch.see_cases {s : Option (μ × τ)} {x : α} {m : μ} {t : τ}
    (h : w.see s x = some (m, t)) :
    (s = some (m, t) ∧ w.continues m x = true) ∨ (w.mark x = some m ∧ w.time x = t) := by
  have hMark : (w.mark x).map (fun m' => (m', w.time x)) = some (m, t) →
      w.mark x = some m ∧ w.time x = t := by
    intro hMap
    obtain ⟨m', hm', hPair⟩ := Option.map_eq_some_iff.mp hMap
    cases hPair
    exact ⟨hm', rfl⟩
  unfold Watch.see at h
  split at h
  · next m₀ t₀ =>
      by_cases hGoes : w.continues m₀ x = true
      · rw [if_pos hGoes] at h
        cases h
        exact Or.inl ⟨rfl, hGoes⟩
      · rw [if_neg hGoes] at h
        exact Or.inr (hMark h)
  · exact Or.inr (hMark h)

/-- A running timer was started by an observation that all later ones continue. -/
theorem Watch.timer_began {history : List α} {m : μ} {t : τ} (h : w.timer history = some (m, t)) :
    ∃ pre x rest, history = pre ++ x :: rest ∧ w.mark x = some m ∧ w.time x = t ∧
      ∀ y ∈ rest, w.continues m y = true := by
  induction history using List.reverseRecOn with
  | nil => cases h
  | append_singleton history y ih =>
      rw [Watch.timer_append] at h
      cases Watch.see_cases h with
      | inl hKept =>
          obtain ⟨pre, x, rest, hSplit, hMark, hTime, hRest⟩ := ih hKept.1
          refine ⟨pre, x, rest ++ [y], by simp [hSplit], hMark, hTime, ?_⟩
          intro z hz
          cases List.mem_append.mp hz with
          | inl hOld => exact hRest z hOld
          | inr hNew => exact (List.mem_singleton.mp hNew) ▸ hKept.2
      | inr hBegan => exact ⟨history, y, [], rfl, hBegan.1, hBegan.2, fun z hz => nomatch hz⟩

section Order

variable [LinearOrder τ]

/-- The clock of a history does not go back. -/
def Watch.Ordered (w : Watch α μ τ) (history : List α) : Prop :=
  history.Pairwise fun x y => w.time x ≤ w.time y

/-- An observation that all later ones continue leaves a timer at least as old and
a mark at least as strong. -/
theorem Watch.timer_of_continued {pre rest : List α} {x : α} {m : μ}
    (hOrder : w.Ordered (pre ++ x :: rest)) (hMark : w.mark x = some m)
    (hRest : ∀ y ∈ rest, w.continues m y = true) :
    ∃ m₀ t₀, w.timer (pre ++ x :: rest) = some (m₀, t₀) ∧ t₀ ≤ w.time x ∧
      ∀ y, w.continues m y = true → w.continues m₀ y = true := by
  induction rest using List.reverseRecOn with
  | nil =>
      rw [Watch.timer_append]
      cases hTimer : w.timer pre with
      | none =>
          refine ⟨m, w.time x, ?_, le_refl _, fun _ hy => hy⟩
          rw [Watch.see, hMark]
          rfl
      | some s =>
          by_cases hGoes : w.continues s.1 x = true
          · obtain ⟨before, z, after, hSplit, -, hTime, -⟩ := Watch.timer_began hTimer
            have hEarlier : w.time z ≤ w.time x :=
              (List.pairwise_append.mp hOrder).2.2 z (by simp [hSplit]) x (by simp)
            refine ⟨s.1, s.2, ?_, hTime ▸ hEarlier, fun y hy => w.trans hGoes hMark hy⟩
            rw [Watch.see, if_pos hGoes]
          · refine ⟨m, w.time x, ?_, le_refl _, fun _ hy => hy⟩
            rw [Watch.see, if_neg hGoes, hMark]
            rfl
  | append_singleton rest y ih =>
      have hSplit : pre ++ x :: (rest ++ [y]) = (pre ++ x :: rest) ++ [y] := by simp
      rw [hSplit] at hOrder ⊢
      obtain ⟨m₀, t₀, hTimer, hOlder, hStronger⟩ :=
        ih (List.pairwise_append.mp hOrder).1 fun z hz => hRest z (by simp [hz])
      refine ⟨m₀, t₀, ?_, hOlder, hStronger⟩
      rw [Watch.timer_append, hTimer, Watch.see, if_pos (hStronger y (hRest y (by simp)))]

/-- **The timer is old enough, and goes on, exactly when some observation that old
is continued by all since and by the one at hand.** -/
theorem Watch.running_iff {history : List α} (hOrder : w.Ordered history) (now : α)
    (old : τ → Prop) (hOld : ∀ {s t : τ}, s ≤ t → old t → old s) :
    (∃ m t, w.timer history = some (m, t) ∧ w.continues m now = true ∧ old t) ↔
      ∃ pre x rest, history = pre ++ x :: rest ∧ old (w.time x) ∧
        ∃ m, w.mark x = some m ∧ ∀ y ∈ rest ++ [now], w.continues m y = true := by
  constructor
  · rintro ⟨m, t, hTimer, hGoes, hAge⟩
    obtain ⟨pre, x, rest, hSplit, hMark, hTime, hRest⟩ := Watch.timer_began hTimer
    refine ⟨pre, x, rest, hSplit, hTime ▸ hAge, m, hMark, ?_⟩
    intro y hy
    cases List.mem_append.mp hy with
    | inl hEarlier => exact hRest y hEarlier
    | inr hNew => exact (List.mem_singleton.mp hNew) ▸ hGoes
  · rintro ⟨pre, x, rest, rfl, hAge, m, hMark, hRest⟩
    obtain ⟨m₀, t₀, hTimer, hOlder, hStronger⟩ :=
      Watch.timer_of_continued hOrder hMark fun y hy => hRest y (by simp [hy])
    exact ⟨m₀, t₀, hTimer, hStronger now (hRest now (by simp)), hOld hOlder hAge⟩

end Order

/-! ## Once -/

/-- What was done over a history is the first thing that was due, if any was. -/
def FirstOf (due : List α → α → Prop) (history done : List α) : Prop :=
  (done = [] ∧ ∀ pre x post, history = pre ++ x :: post → ¬ due pre x) ∨
    ∃ pre x post, history = pre ++ x :: post ∧ done = [x] ∧ due pre x ∧
      ∀ pre' y post', pre = pre' ++ y :: post' → ¬ due pre' y

variable {due : List α → α → Prop} {history done : List α}

/-- Something was done already: the history may go on. -/
theorem FirstOf.keep (h : FirstOf due history done) (hDone : done ≠ []) (x : α) :
    FirstOf due (history ++ [x]) done := by
  cases h with
  | inl hNone => exact absurd hNone.1 hDone
  | inr hOne =>
      obtain ⟨pre, y, post, hSplit, hOne, hDue, hFirst⟩ := hOne
      exact Or.inr ⟨pre, y, post ++ [x], by simp [hSplit], hOne, hDue, hFirst⟩

theorem eq_append_singleton {pre post : List α} {x y : α}
    (h : history ++ [x] = pre ++ y :: post) :
    (∃ post', post = post' ++ [x] ∧ history = pre ++ y :: post') ∨
      (post = [] ∧ history = pre ∧ x = y) := by
  cases List.eq_nil_or_concat post with
  | inl hNil =>
      subst hNil
      obtain ⟨hPre, hLast⟩ := List.append_inj' h rfl
      cases hLast
      exact Or.inr ⟨rfl, hPre, rfl⟩
  | inr hSome =>
      obtain ⟨before, z, rfl⟩ := hSome
      have hSplit : history ++ [x] = (pre ++ y :: before) ++ [z] := by simp [h]
      obtain ⟨hPre, hLast⟩ := List.append_inj' hSplit rfl
      cases hLast
      exact Or.inl ⟨before, by simp, hPre⟩

/-- Nothing was done yet: it is done now if it is due. -/
theorem FirstOf.next (h : FirstOf due history []) (x : α) :
    (due history x → FirstOf due (history ++ [x]) [x]) ∧
      (¬ due history x → FirstOf due (history ++ [x]) []) := by
  have hNone : ∀ pre y post, history = pre ++ y :: post → ¬ due pre y := by
    cases h with
    | inl hNone => exact hNone.2
    | inr hOne =>
        obtain ⟨_, _, _, _, hDone, _, _⟩ := hOne
        cases hDone
  constructor
  · intro hDue
    exact Or.inr ⟨history, x, [], rfl, rfl, hDue, hNone⟩
  · intro hNot
    refine Or.inl ⟨rfl, fun pre y post hSplit => ?_⟩
    cases eq_append_singleton hSplit with
    | inl hOld =>
        obtain ⟨post', -, hBefore⟩ := hOld
        exact hNone pre y post' hBefore
    | inr hNew =>
        obtain ⟨-, rfl, rfl⟩ := hNew
        exact hNot

end Mgd.Lib.Stretch
