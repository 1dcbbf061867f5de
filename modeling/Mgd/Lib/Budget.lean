import Mathlib.Data.List.Basic

/-!
# Loops with a budget

A loop that breaks once its budget is spent, where only some of the items cost
anything.  `reached` is how far it gets, and `length_reached_le_iff` says when
it has not gone through more items than the budget allows.
-/

namespace Mgd.Lib.Budget

universe u v w

/-! ## The loop -/

section Loop

variable {α : Type u} {β : Type v} {σ : Type w} (spent : σ → Bool)

/-- A loop that breaks as soon as the state is spent. -/
def loop (body : α → σ → σ) : List α → σ → σ
  | [], s => s
  | x :: xs, s => if spent s then s else loop body xs (body x s)

theorem loop_of_spent (body : α → σ → σ) (xs : List α) {s : σ} (h : spent s = true) :
    loop spent body xs s = s := by
  cases xs with
  | nil => rfl
  | cons x xs => rw [loop, if_pos h]

theorem loop_append (body : α → σ → σ) (xs ys : List α) (s : σ) :
    loop spent body (xs ++ ys) s = loop spent body ys (loop spent body xs s) := by
  induction xs generalizing s with
  | nil => rfl
  | cons x xs ih =>
      rw [List.cons_append, loop, loop]
      by_cases hSpent : spent s = true
      · rw [if_pos hSpent, if_pos hSpent, loop_of_spent spent body ys hSpent]
      · rw [if_neg hSpent, if_neg hSpent, ih]

/-- **A loop of loops is one loop** over what the inner ones go through. -/
theorem loop_flatMap (body : β → σ → σ) (f : α → List β) (xs : List α) (s : σ) :
    loop spent (fun x => loop spent body (f x)) xs s = loop spent body (xs.flatMap f) s := by
  induction xs generalizing s with
  | nil => rfl
  | cons x xs ih =>
      rw [loop, List.flatMap_cons, loop_append]
      by_cases hSpent : spent s = true
      · rw [if_pos hSpent, loop_of_spent spent body (f x) hSpent,
          loop_of_spent spent body _ hSpent]
      · rw [if_neg hSpent, ih]

/-- What the body keeps, the loop keeps. -/
theorem loop_invariant {p : σ → Prop} {body : α → σ → σ} (hBody : ∀ x s, p s → p (body x s))
    (xs : List α) {s : σ} (h : p s) : p (loop spent body xs s) := by
  induction xs generalizing s with
  | nil => exact h
  | cons x xs ih =>
      rw [loop]
      split
      · exact h
      · exact ih (hBody x s h)

end Loop

/-! ## What it reaches -/

section Reached

variable {α : Type u} {β : Type v} {σ : Type w} (pays : α → Bool)

/-- The items a loop goes through before its budget is spent. -/
def reached : Nat → List α → List α
  | _, [] => []
  | 0, _ :: _ => []
  | budget + 1, x :: xs => x :: reached (if pays x then budget else budget + 1) xs

/-- What is left of the budget then. -/
def left (budget : Nat) (xs : List α) : Nat := budget - (reached pays budget xs).countP pays

theorem reached_zero (xs : List α) : reached pays 0 xs = [] := by
  cases xs <;> rfl

theorem left_cons (budget : Nat) (x : α) (xs : List α) :
    left pays (budget + 1) (x :: xs) = left pays (if pays x then budget else budget + 1) xs := by
  unfold left
  rw [reached, List.countP_cons]
  split
  · omega
  · rfl

theorem reached_append (budget : Nat) (xs ys : List α) :
    reached pays budget (xs ++ ys) =
      reached pays budget xs ++ reached pays (left pays budget xs) ys := by
  induction xs generalizing budget with
  | nil => rfl
  | cons x xs ih =>
      cases budget with
      | zero =>
          have hLeft : left pays 0 (x :: xs) = 0 := Nat.zero_sub _
          rw [hLeft, reached_zero, reached_zero, reached_zero]
          rfl
      | succ budget =>
          rw [List.cons_append, reached, reached, left_cons, ih]
          rfl

theorem reached_map (f : β → α) (budget : Nat) (xs : List β) :
    reached pays budget (xs.map f) = (reached (fun x => pays (f x)) budget xs).map f := by
  induction xs generalizing budget with
  | nil => rfl
  | cons x xs ih =>
      cases budget with
      | zero => rfl
      | succ budget =>
          rw [List.map_cons, reached, ih]
          rfl

theorem left_map (f : β → α) (budget : Nat) (xs : List β) :
    left pays budget (xs.map f) = left (fun x => pays (f x)) budget xs := by
  unfold left
  rw [reached_map, List.countP_map]
  rfl

theorem mem_of_mem_reached {budget : Nat} {xs : List α} {x : α} (h : x ∈ reached pays budget xs) :
    x ∈ xs := by
  induction xs generalizing budget with
  | nil => exact absurd h List.not_mem_nil
  | cons y xs ih =>
      cases budget with
      | zero => exact absurd h List.not_mem_nil
      | succ budget =>
          rw [reached, List.mem_cons] at h
          cases h with
          | inl hHere => exact hHere ▸ List.mem_cons_self
          | inr hRest => exact List.mem_cons_of_mem y (ih hRest)

theorem countP_reached_le (budget : Nat) (xs : List α) :
    (reached pays budget xs).countP pays ≤ budget := by
  induction xs generalizing budget with
  | nil => exact Nat.zero_le _
  | cons x xs ih =>
      cases budget with
      | zero => exact Nat.le_refl _
      | succ budget =>
          have hRest := ih (if pays x then budget else budget + 1)
          rw [reached, List.countP_cons]
          split at hRest
          · next hPays =>
              rw [if_pos hPays, if_pos hPays]
              omega
          · next hPays =>
              rw [if_neg hPays, if_neg hPays]
              exact hRest

/-- A loop whose body notes the item and pays for it goes through `reached`. -/
theorem loop_reached {budget : σ → Nat} {log : σ → List α} {body : α → σ → σ}
    (hLog : ∀ x s, log (body x s) = log s ++ [x])
    (hBudget : ∀ x s, budget (body x s) = if pays x then budget s - 1 else budget s)
    (xs : List α) (s : σ) :
    log (loop (fun s => budget s == 0) body xs s) = log s ++ reached pays (budget s) xs ∧
      budget (loop (fun s => budget s == 0) body xs s) = left pays (budget s) xs := by
  induction xs generalizing s with
  | nil => exact ⟨(List.append_nil _).symm, rfl⟩
  | cons x xs ih =>
      rw [loop]
      cases hLeft : budget s with
      | zero =>
          rw [if_pos (beq_self_eq_true 0), reached_zero, List.append_nil]
          exact ⟨rfl, hLeft.trans (Nat.zero_sub _).symm⟩
      | succ b =>
          have hNext : budget (body x s) = if pays x then b else b + 1 := by
            rw [hBudget, hLeft]
            rfl
          obtain ⟨ihLog, ihBudget⟩ := ih (body x s)
          rw [if_neg (by simp), ihLog, ihBudget, hLog, hNext, left_cons, reached,
            List.append_assoc]
          exact ⟨rfl, rfl⟩

theorem min_le_length_reached (budget : Nat) (xs : List α) :
    min budget xs.length ≤ (reached pays budget xs).length := by
  induction xs generalizing budget with
  | nil => exact Nat.min_le_right _ _
  | cons x xs ih =>
      cases budget with
      | zero => exact Nat.min_le_left _ _
      | succ budget =>
          have hRest := ih (if pays x then budget else budget + 1)
          have hKept : budget ≤ if pays x then budget else budget + 1 := by split <;> omega
          rw [reached, List.length_cons, List.length_cons]
          omega

theorem reached_of_length_le {budget : Nat} {xs : List α} (h : xs.length ≤ budget) :
    reached pays budget xs = xs := by
  induction xs generalizing budget with
  | nil => rfl
  | cons x xs ih =>
      rw [List.length_cons] at h
      obtain ⟨b, rfl⟩ : ∃ b, budget = b + 1 := ⟨budget - 1, by omega⟩
      rw [reached, ih]
      split <;> omega

theorem reached_of_all {budget : Nat} {xs : List α} (h : ∀ x ∈ xs.take budget, pays x = true) :
    reached pays budget xs = xs.take budget := by
  induction xs generalizing budget with
  | nil => rw [List.take_nil, reached]
  | cons x xs ih =>
      cases budget with
      | zero => rfl
      | succ budget =>
          rw [List.take_succ_cons, List.forall_mem_cons] at h
          rw [reached, if_pos h.1, List.take_succ_cons, ih h.2]

/-- An item that pays nothing is one more than the budget allows for. -/
theorem all_of_length_reached_le {budget : Nat} {xs : List α} (hMore : budget < xs.length)
    (h : (reached pays budget xs).length ≤ budget) : ∀ x ∈ xs.take budget, pays x = true := by
  induction xs generalizing budget with
  | nil => exact absurd hMore (Nat.not_lt_zero _)
  | cons x xs ih =>
      cases budget with
      | zero => exact fun y hy => absurd hy List.not_mem_nil
      | succ budget =>
          rw [List.length_cons] at hMore
          rw [reached, List.length_cons] at h
          rw [List.take_succ_cons, List.forall_mem_cons]
          by_cases hPays : pays x = true
          · rw [if_pos hPays] at h
            exact ⟨hPays, ih (by omega) (by omega)⟩
          · rw [if_neg hPays] at h
            have hMin := min_le_length_reached pays (budget + 1) xs
            omega

/-- **The loop stays within its budget** exactly when there are no more items, or
each of the first ones pays. -/
theorem length_reached_le_iff {budget : Nat} {xs : List α} :
    (reached pays budget xs).length ≤ budget ↔
      xs.length ≤ budget ∨ ∀ x ∈ xs.take budget, pays x = true := by
  constructor
  · intro h
    by_cases hAll : xs.length ≤ budget
    · exact Or.inl hAll
    · exact Or.inr (all_of_length_reached_le pays (by omega) h)
  · rintro (hLength | hAll)
    · rw [reached_of_length_le pays hLength]
      exact hLength
    · rw [reached_of_all pays hAll]
      exact List.length_take_le _ _

/-- It has gone through the first items then. -/
theorem reached_eq_take {budget : Nat} {xs : List α}
    (h : xs.length ≤ budget ∨ ∀ x ∈ xs.take budget, pays x = true) :
    reached pays budget xs = xs.take budget := by
  cases h with
  | inl hLength => rw [reached_of_length_le pays hLength, List.take_of_length_le hLength]
  | inr hAll => exact reached_of_all pays hAll

end Reached

end Mgd.Lib.Budget
