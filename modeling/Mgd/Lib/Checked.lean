import Mathlib.Algebra.BigOperators.Group.List.Basic
import Mathlib.Algebra.Order.Ring.Nat

/-!
# Arithmetic that may not fit

The operations of a machine type on the numbers they stand for: the result when
the type has it, and `none` when a checked build panics and an unchecked one
wraps.  The type is given by its bounds.

`choose` is a `filter_map` with such operations in it.
-/

namespace Mgd.Lib.Checked

universe u v

variable {α : Type u} {β : Type v}

/-! ## Operations -/

def add (max a b : Nat) : Option Nat := if a + b ≤ max then some (a + b) else none

def mul (max a b : Nat) : Option Nat := if a * b ≤ max then some (a * b) else none

def sub (min max a b : Int) : Option Int :=
  if min ≤ a - b ∧ a - b ≤ max then some (a - b) else none

/-- The sum of an iterator, from zero. -/
def sum (max : Nat) (xs : List Nat) : Option Nat := xs.foldlM (add max) 0

/-- Every partial sum is below the last. -/
theorem foldlM_add (max : Nat) (xs : List Nat) (acc : Nat) (hAcc : acc ≤ max) :
    xs.foldlM (add max) acc = if acc + xs.sum ≤ max then some (acc + xs.sum) else none := by
  induction xs generalizing acc with
  | nil => simp [hAcc]
  | cons x xs ih =>
      rw [List.foldlM_cons, List.sum_cons, ← Nat.add_assoc]
      unfold add
      by_cases hHere : acc + x ≤ max
      · rw [if_pos hHere]
        exact ih (acc + x) hHere
      · rw [if_neg hHere, if_neg (by omega)]
        rfl

theorem sum_eq (max : Nat) (xs : List Nat) :
    sum max xs = if xs.sum ≤ max then some xs.sum else none := by
  unfold sum
  rw [foldlM_add max xs 0 (Nat.zero_le max), Nat.zero_add]

/-! ## Selection -/

/-- The values that `f` gives, if it gives an answer for every element. -/
def choose (f : α → Option (Option β)) : List α → Option (List β)
  | [] => some []
  | x :: xs =>
      match f x, choose f xs with
      | some none, some ys => some ys
      | some (some y), some ys => some (y :: ys)
      | _, _ => none

theorem choose_eq {f : α → Option (Option β)} {g : α → Option β} {xs : List α}
    (h : ∀ x ∈ xs, f x = some (g x)) : choose f xs = some (xs.filterMap g) := by
  induction xs with
  | nil => rfl
  | cons x xs ih =>
      rw [List.forall_mem_cons] at h
      rw [choose, h.1, ih h.2]
      cases hValue : g x with
      | none => rw [List.filterMap_cons_none hValue]
      | some y => rw [List.filterMap_cons_some hValue]

/-- There is an answer when there is one for every element. -/
theorem choose_isSome_iff {f : α → Option (Option β)} {xs : List α} :
    (choose f xs).isSome = true ↔ ∀ x ∈ xs, (f x).isSome = true := by
  induction xs with
  | nil => simp [choose]
  | cons x xs ih =>
      rw [List.forall_mem_cons, ← ih, choose]
      cases f x with
      | none => simp
      | some value =>
          cases choose f xs with
          | none => cases value <;> simp
          | some ys => cases value <;> simp

end Mgd.Lib.Checked
