import Mathlib.Data.Char
import Mathlib.Data.List.DropRight
import Mathlib.Data.List.Lex
import Mathlib.Data.Nat.Basic
import Mgd.Lib.Greedy

/-!
# Keeping the newest of things that sort by age

A collection of items in a linear order is trimmed to its `keep` greatest: sort from
the greatest down and drop what comes after the first `keep`.  In ascending order that
is the end of the list (`ascending_filter_expired`), and an item greater than all
others is its last (`ascending_concat`), so trimming and adding over and over keeps a
window over the whole history.

Names sort by age when they are built from numbers padded to a fixed width:
`padded_lt_iff` compares two of these, and `append_lt_append_iff` what follows them.
-/

namespace Mgd.Lib.Retention

open Mgd.Lib.Greedy

universe u

/-! ## The end of a list -/

section Ends

variable {α : Type u}

theorem rtake_of_length_le {xs : List α} {n : Nat} (h : xs.length ≤ n) : xs.rtake n = xs := by
  unfold List.rtake
  rw [Nat.sub_eq_zero_of_le h, List.drop_zero]

theorem rtake_rtake (xs : List α) (m n : Nat) : (xs.rtake m).rtake n = xs.rtake (min m n) := by
  have hCount : xs.length - m + (xs.length - (xs.length - m) - n) = xs.length - min m n := by omega
  unfold List.rtake
  rw [List.drop_drop, List.length_drop, hCount]

/-- What is added to the end of a list that was cut before. -/
theorem rtake_rtake_append (xs ys : List α) (n : Nat) :
    (xs.rtake n ++ ys).rtake n = (xs ++ ys).rtake n := by
  have hDrop : xs.rtake n ++ ys = (xs ++ ys).drop (xs.length - n) :=
    (List.drop_append_of_le_length (Nat.sub_le _ _)).symm
  have hCount : xs.length - n + (xs.length + ys.length - (xs.length - n) - n) =
      xs.length + ys.length - n := by omega
  rw [hDrop]
  unfold List.rtake
  rw [List.drop_drop, List.length_drop, List.length_append, hCount]

end Ends

/-! ## The greatest items -/

section Greatest

variable {α : Type u} [LinearOrder α]

def ascending (xs : List α) : List α := (sortDesc id xs).reverse

/-- All but the `keep` greatest. -/
def expired (keep : Nat) (xs : List α) : List α := (sortDesc id xs).drop keep

theorem ascending_perm (xs : List α) : (ascending xs).Perm xs :=
  (List.reverse_perm _).trans (sortDesc_perm id xs)

theorem mem_ascending {x : α} {xs : List α} : x ∈ ascending xs ↔ x ∈ xs :=
  (ascending_perm xs).mem_iff

/-- A list in ascending order is the sorted one. -/
theorem ascending_eq {xs ys : List α} (hPerm : xs.Perm ys) (hSorted : ys.Pairwise (· < ·)) :
    ascending xs = ys := by
  have hAscending : (ascending xs).Pairwise (· ≤ ·) :=
    List.pairwise_reverse.mpr (sortDesc_pairwise id xs)
  refine ((ascending_perm xs).trans hPerm).eq_of_pairwise ?_ hAscending
    (hSorted.imp fun hLess => le_of_lt hLess)
  exact fun a b _ _ hab hba => le_antisymm hab hba

theorem ascending_pairwise {xs : List α} (h : xs.Nodup) : (ascending xs).Pairwise (· < ·) := by
  have hOrder : (ascending xs).Pairwise (· ≤ ·) :=
    List.pairwise_reverse.mpr (sortDesc_pairwise id xs)
  have hNodup : (ascending xs).Nodup := (ascending_perm xs).nodup_iff.mpr h
  exact (hOrder.and hNodup).imp fun hBoth => lt_of_le_of_ne hBoth.1 hBoth.2

/-- Trimming keeps the end. -/
theorem ascending_filter_expired {xs : List α} (h : xs.Nodup) {keep : Nat} {kept : α → Bool}
    (hExpired : ∀ x, kept x = true ↔ x ∉ expired keep xs) :
    ascending (xs.filter kept) = (ascending xs).rtake keep := by
  have hSplit : sortDesc id xs = (sortDesc id xs).take keep ++ expired keep xs :=
    (List.take_append_drop keep _).symm
  have hNodup : ((sortDesc id xs).take keep ++ expired keep xs).Nodup := by
    rw [← hSplit]
    exact (sortDesc_perm id xs).nodup_iff.mpr h
  have hKept : (sortDesc id xs).filter kept = (sortDesc id xs).take keep := by
    conv_lhs => rw [hSplit]
    rw [List.filter_append, List.filter_eq_self.mpr, List.filter_eq_nil_iff.mpr, List.append_nil]
    · exact fun x hx hStays => (hExpired x).mp hStays hx
    · exact fun x hx => (hExpired x).mpr fun hGone =>
        (List.nodup_append.mp hNodup).2.2 x hx x hGone rfl
  have hEnd : (ascending xs).rtake keep = ((sortDesc id xs).take keep).reverse := by
    rw [List.rtake_eq_reverse_take_reverse, ascending, List.reverse_reverse]
  have hSorted : (((sortDesc id xs).take keep).reverse).Pairwise (· < ·) := by
    have hWhole := ascending_pairwise h
    unfold ascending at hWhole
    rw [List.pairwise_reverse] at hWhole ⊢
    exact hWhole.sublist (List.take_sublist _ _)
  rw [hEnd]
  refine ascending_eq ?_ hSorted
  have hPerm := ((sortDesc_perm id xs).filter kept).symm
  rw [hKept] at hPerm
  exact hPerm.trans (List.reverse_perm _).symm

/-- A new greatest item is the last. -/
theorem ascending_concat {xs : List α} (h : xs.Nodup) {x : α} (hGreatest : ∀ y ∈ xs, y < x) :
    ascending (xs ++ [x]) = ascending xs ++ [x] := by
  refine ascending_eq ((ascending_perm xs).symm.append_right [x]) ?_
  rw [List.pairwise_append]
  refine ⟨ascending_pairwise h, List.pairwise_singleton _ _, ?_⟩
  intro y hy z hz
  rw [List.mem_singleton.mp hz]
  exact hGreatest y (mem_ascending.mp hy)

end Greatest

/-! ## Padded numbers -/

/-- The decimal digits, with zeros up to a width before them. -/
def padded (width n : Nat) : List Char := (Nat.toDigits 10 n).leftpad width '0'

/-- The last digit of a padded number. -/
theorem padded_succ (width n : Nat) :
    padded (width + 2) n = padded (width + 1) (n / 10) ++ [(n % 10).digitChar] := by
  unfold padded
  by_cases hSmall : n < 10
  · rw [Nat.toDigits_of_lt_base hSmall, Nat.div_eq_of_lt hSmall, Nat.mod_eq_of_lt hSmall,
      Nat.toDigits_zero]
    show List.replicate (width + 1) '0' ++ _ = (List.replicate width '0' ++ ['0']) ++ _
    rw [List.replicate_succ']
  · rw [Nat.toDigits_of_base_le (by decide) (Nat.not_lt.mp hSmall)]
    show List.replicate _ '0' ++ (_ ++ _) = (List.replicate _ '0' ++ _) ++ _
    rw [List.append_assoc, List.length_append, List.length_singleton]
    congr 2
    omega

theorem padded_one {n : Nat} (h : n < 10) : padded 1 n = [n.digitChar] := by
  unfold padded
  rw [Nat.toDigits_of_lt_base h]
  rfl

theorem length_padded {width n : Nat} (h : n < 10 ^ (width + 1)) :
    (padded (width + 1) n).length = width + 1 := by
  induction width generalizing n with
  | zero => rw [padded_one h]; rfl
  | succ width ih =>
      have hFront : n / 10 < 10 ^ (width + 1) := by
        rw [Nat.div_lt_iff_lt_mul (by decide), ← Nat.pow_succ]
        exact h
      rw [padded_succ, List.length_append, ih hFront]
      rfl

section Order

variable {α : Type u} [LinearOrder α]

/-- After parts of one length, what follows decides between equal ones. -/
theorem append_lt_append_iff {x y s t : List α} (h : x.length = y.length) :
    x ++ s < y ++ t ↔ x < y ∨ x = y ∧ s < t := by
  induction x generalizing y with
  | nil =>
      cases y with
      | nil => simp
      | cons b y => cases h
  | cons a x ih =>
      cases y with
      | nil => cases h
      | cons b y =>
          have hRest := ih (Nat.succ.inj h)
          rw [List.cons_append, List.cons_append, List.cons_lt_cons_iff, List.cons_lt_cons_iff,
            hRest, List.cons.injEq]
          tauto

end Order

theorem digitChar_lt_iff {a b : Nat} (ha : a < 10) (hb : b < 10) :
    [a.digitChar] < [b.digitChar] ↔ a < b := by
  have hAll : ∀ a : Fin 10, ∀ b : Fin 10, [a.val.digitChar] < [b.val.digitChar] ↔ a.val < b.val := by
    decide
  exact hAll ⟨a, ha⟩ ⟨b, hb⟩

/-- Numbers in the order of their texts have different texts. -/
theorem inj_of_lt_iff {a b : Nat} {x y : List Char} (hLess : x < y ↔ a < b) (hMore : y < x ↔ b < a) :
    x = y ↔ a = b := by
  constructor
  · intro hEq
    rw [hEq] at hLess hMore
    have hNot := mt hLess.mpr (lt_irrefl _)
    have hNot' := mt hMore.mpr (lt_irrefl _)
    omega
  · intro hEq
    rw [hEq] at hLess hMore
    exact le_antisymm (not_lt.mp (mt hMore.mp (Nat.lt_irrefl b)))
      (not_lt.mp (mt hLess.mp (Nat.lt_irrefl b)))

/-- Of one width, padded numbers are in the order of the numbers. -/
theorem padded_lt_iff {width a b : Nat} (ha : a < 10 ^ (width + 1)) (hb : b < 10 ^ (width + 1)) :
    padded (width + 1) a < padded (width + 1) b ↔ a < b := by
  induction width generalizing a b with
  | zero => rw [padded_one ha, padded_one hb, digitChar_lt_iff ha hb]
  | succ width ih =>
      have hFront : ∀ {n : Nat}, n < 10 ^ (width + 1 + 1) → n / 10 < 10 ^ (width + 1) := by
        intro n hn
        rw [Nat.div_lt_iff_lt_mul (by decide), ← Nat.pow_succ]
        exact hn
      have hSame := inj_of_lt_iff (ih (hFront ha) (hFront hb)) (ih (hFront hb) (hFront ha))
      have hLength : (padded (width + 1) (a / 10)).length = (padded (width + 1) (b / 10)).length := by
        rw [length_padded (hFront ha), length_padded (hFront hb)]
      rw [padded_succ, padded_succ, append_lt_append_iff hLength, ih (hFront ha) (hFront hb), hSame,
        digitChar_lt_iff (Nat.mod_lt a (by decide)) (Nat.mod_lt b (by decide))]
      omega

theorem padded_inj {width a b : Nat} (ha : a < 10 ^ (width + 1)) (hb : b < 10 ^ (width + 1)) :
    padded (width + 1) a = padded (width + 1) b ↔ a = b :=
  inj_of_lt_iff (padded_lt_iff ha hb) (padded_lt_iff hb ha)

/-- A padded number and a separator before the rest. -/
theorem padded_append_lt_iff {width a b : Nat} (ha : a < 10 ^ (width + 1))
    (hb : b < 10 ^ (width + 1)) (sep : Char) (s t : List Char) :
    padded (width + 1) a ++ sep :: s < padded (width + 1) b ++ sep :: t ↔
      a < b ∨ a = b ∧ s < t := by
  have hLength : (padded (width + 1) a).length = (padded (width + 1) b).length := by
    rw [length_padded ha, length_padded hb]
  have hSame : padded (width + 1) a = padded (width + 1) b ↔ a = b := padded_inj ha hb
  rw [append_lt_append_iff hLength, padded_lt_iff ha hb, hSame, List.cons_lt_cons_iff]
  simp

end Mgd.Lib.Retention
