import Mathlib.Algebra.BigOperators.Group.List.Basic
import Mathlib.Algebra.Order.BigOperators.Group.List
import Mathlib.Algebra.Order.Ring.Nat
import Mathlib.Data.Finset.Max
import Mathlib.Order.Monotone.Basic

/-!
# Nearest ranks of weighted values

The value of rank `target` in a list of values with weights: the values below it
weigh less, those up to it at least `target`.  There is one whenever the list
weighs enough (`exists_rank`), and a monotone map takes it to that of the images
(`rank_map`).  A histogram is such a map, from values
to bins, so a rank read off a histogram is the bin of the exact one
(`rank_tally`).
-/

namespace Mgd.Lib.Rank

universe u v

variable {α : Type u} {β : Type v}

/-- What the values with a property weigh. -/
def weight (l : List (α × Nat)) (p : α → Prop) [DecidablePred p] : Nat :=
  ((l.filter fun x => decide (p x.1)).map Prod.snd).sum

theorem weight_cons (x : α × Nat) (l : List (α × Nat)) (p : α → Prop) [DecidablePred p] :
    weight (x :: l) p = (if p x.1 then x.2 else 0) + weight l p := by
  unfold weight
  rw [List.filter_cons]
  by_cases hp : p x.1
  · simp [hp]
  · simp [hp]

theorem weight_append (l l' : List (α × Nat)) (p : α → Prop) [DecidablePred p] :
    weight (l ++ l') p = weight l p + weight l' p := by
  unfold weight
  rw [List.filter_append, List.map_append, List.sum_append]

theorem weight_mono {l : List (α × Nat)} {p q : α → Prop} [DecidablePred p] [DecidablePred q]
    (h : ∀ x ∈ l, p x.1 → q x.1) : weight l p ≤ weight l q := by
  induction l with
  | nil => exact Nat.le_refl _
  | cons x l ih =>
      rw [List.forall_mem_cons] at h
      have hRest := ih h.2
      rw [weight_cons, weight_cons]
      by_cases hp : p x.1
      · rw [if_pos hp, if_pos (h.1 hp)]
        omega
      · rw [if_neg hp]
        omega

theorem weight_congr {l : List (α × Nat)} {p q : α → Prop} [DecidablePred p] [DecidablePred q]
    (h : ∀ x ∈ l, p x.1 ↔ q x.1) : weight l p = weight l q :=
  Nat.le_antisymm (weight_mono fun x hx => (h x hx).mp) (weight_mono fun x hx => (h x hx).mpr)

theorem weight_map (f : α → β) (l : List (α × Nat)) (p : β → Prop) [DecidablePred p] :
    weight (l.map (Prod.map f id)) p = weight l fun a => p (f a) := by
  induction l with
  | nil => rfl
  | cons x l ih =>
      rw [List.map_cons, weight_cons, weight_cons, ih]
      rfl

theorem weight_true (l : List (α × Nat)) : weight l (fun _ => True) = (l.map Prod.snd).sum := by
  simp [weight]

theorem exists_of_weight_pos {l : List (α × Nat)} {p : α → Prop} [DecidablePred p]
    (h : 0 < weight l p) : ∃ x ∈ l, p x.1 := by
  by_contra hNone
  have hZero : weight l p = weight l fun _ => False :=
    weight_congr fun x hx => ⟨fun hp => hNone ⟨x, hx, hp⟩, False.elim⟩
  rw [hZero, weight] at h
  simp at h

section Rank

variable [LinearOrder α] {l : List (α × Nat)} {target : Nat}

/-- The value of a rank. -/
def IsRank (l : List (α × Nat)) (target : Nat) (a : α) : Prop :=
  weight l (· < a) < target ∧ target ≤ weight l (· ≤ a)

/-- Among the values of a list that meet a condition there is a least one. -/
theorem exists_least {p : α → Prop} [DecidablePred p] (h : ∃ x ∈ l, p x.1) :
    ∃ x ∈ l, p x.1 ∧ ∀ y ∈ l, p y.1 → x.1 ≤ y.1 := by
  have hSome : ((l.filter fun x => decide (p x.1)).map Prod.fst).toFinset.Nonempty := by
    obtain ⟨x, hx, hp⟩ := h
    exact ⟨x.1, List.mem_toFinset.mpr
      (List.mem_map_of_mem (List.mem_filter.mpr ⟨hx, decide_eq_true hp⟩))⟩
  obtain ⟨a, ha, hLeast⟩ := Finset.exists_min_image _ id hSome
  simp only [List.mem_toFinset, List.mem_map, List.mem_filter, decide_eq_true_eq, id] at ha hLeast
  obtain ⟨x, ⟨hx, hp⟩, rfl⟩ := ha
  exact ⟨x, hx, hp, fun y hy hpy => hLeast y.1 ⟨y, ⟨hy, hpy⟩, rfl⟩⟩

theorem exists_greatest {p : α → Prop} [DecidablePred p] (h : ∃ x ∈ l, p x.1) :
    ∃ x ∈ l, p x.1 ∧ ∀ y ∈ l, p y.1 → y.1 ≤ x.1 := by
  have hSome : ((l.filter fun x => decide (p x.1)).map Prod.fst).toFinset.Nonempty := by
    obtain ⟨x, hx, hp⟩ := h
    exact ⟨x.1, List.mem_toFinset.mpr
      (List.mem_map_of_mem (List.mem_filter.mpr ⟨hx, decide_eq_true hp⟩))⟩
  obtain ⟨a, ha, hGreatest⟩ := Finset.exists_max_image _ id hSome
  simp only [List.mem_toFinset, List.mem_map, List.mem_filter, decide_eq_true_eq, id] at ha hGreatest
  obtain ⟨x, ⟨hx, hp⟩, rfl⟩ := ha
  exact ⟨x, hx, hp, fun y hy hpy => hGreatest y.1 ⟨y, ⟨hy, hpy⟩, rfl⟩⟩

/-- Some value of the list has the rank, if the list weighs that much. -/
theorem exists_rank (hPos : 0 < target) (hTotal : target ≤ (l.map Prod.snd).sum) :
    ∃ x ∈ l, IsRank l target x.1 := by
  have hEnough : ∃ x ∈ l, target ≤ weight l (· ≤ x.1) := by
    rw [← weight_true] at hTotal
    have hMax : ∃ x ∈ l, True ∧ ∀ y ∈ l, True → y.1 ≤ x.1 :=
      exists_greatest (exists_of_weight_pos (lt_of_lt_of_le hPos hTotal))
    obtain ⟨x, hx, -, hMax⟩ := hMax
    exact ⟨x, hx, hTotal.trans (weight_mono fun y hy _ => hMax y hy trivial)⟩
  obtain ⟨x, hx, hRank, hLeast⟩ := exists_least (p := fun a => target ≤ weight l (· ≤ a)) hEnough
  refine ⟨x, hx, ?_, hRank⟩
  by_contra hMany
  -- the greatest value below would have come before
  obtain ⟨y, hy, hBelow, hMax⟩ := exists_greatest (p := (· < x.1))
    (exists_of_weight_pos (lt_of_lt_of_le hPos (not_lt.mp hMany)))
  have hUpTo : weight l (· < x.1) ≤ weight l (· ≤ y.1) := weight_mono fun z hz hLt => hMax z hz hLt
  exact absurd (hLeast y hy ((not_lt.mp hMany).trans hUpTo)) (not_le.mpr hBelow)

/-- **Ranks commute with monotone maps.** -/
theorem rank_map [LinearOrder β] {f : α → β} (hf : Monotone f) {a : α} (h : IsRank l target a) :
    IsRank (l.map (Prod.map f id)) target (f a) := by
  constructor
  · rw [weight_map]
    have hBelow : weight l (fun b => f b < f a) ≤ weight l (· < a) :=
      weight_mono fun _ _ hx => hf.reflect_lt hx
    exact lt_of_le_of_lt hBelow h.1
  · rw [weight_map]
    have hUpTo : weight l (· ≤ a) ≤ weight l (fun b => f b ≤ f a) :=
      weight_mono fun _ _ hx => hf hx
    exact h.2.trans hUpTo

end Rank

/-! ## Histograms -/

/-- Each bin holds the weight of its values. -/
def Tallies (hist : List Nat) (l : List (Nat × Nat)) : Prop :=
  ∀ i, hist.getD i 0 = weight l (· = i)

theorem weight_lt_succ (l : List (Nat × Nat)) (i : Nat) :
    weight l (· < i + 1) = weight l (· < i) + weight l (· = i) := by
  induction l with
  | nil => rfl
  | cons x l ih =>
      rw [weight_cons, weight_cons, weight_cons, ih]
      rcases Nat.lt_trichotomy x.1 i with hLt | hEq | hGt
      · rw [if_pos (by omega), if_pos hLt, if_neg (by omega)]
        omega
      · rw [if_pos (by omega), if_neg (by omega), if_pos hEq]
        omega
      · rw [if_neg (by omega), if_neg (by omega), if_neg (by omega)]
        omega

theorem sum_take_succ (hist : List Nat) (i : Nat) :
    (hist.take (i + 1)).sum = (hist.take i).sum + hist.getD i 0 := by
  by_cases hLt : i < hist.length
  · rw [List.take_succ_eq_append_getElem hLt, List.sum_append, List.sum_singleton,
      List.getD_eq_getElem?_getD, List.getElem?_eq_getElem hLt, Option.getD_some]
  · rw [List.take_of_length_le (by omega), List.take_of_length_le (by omega),
      List.getD_eq_getElem?_getD, List.getElem?_eq_none (by omega)]
    rfl

theorem Tallies.sum_take {hist : List Nat} {l : List (Nat × Nat)} (h : Tallies hist l) (i : Nat) :
    (hist.take i).sum = weight l (· < i) := by
  induction i with
  | zero =>
      have hNone : weight l (· < 0) = weight l fun _ => False :=
        weight_congr fun x _ => ⟨fun hx => absurd hx (Nat.not_lt_zero _), False.elim⟩
      rw [hNone]
      simp [weight]
  | succ i ih => rw [sum_take_succ, ih, h i, weight_lt_succ]

/-- The rank of the bins, read off the running sums of the histogram. -/
theorem rank_tally {hist : List Nat} {l : List (Nat × Nat)} (h : Tallies hist l) (target i : Nat) :
    IsRank l target i ↔ (hist.take i).sum < target ∧ target ≤ (hist.take (i + 1)).sum := by
  have hUpTo : weight l (· ≤ i) = weight l (· < i + 1) :=
    weight_congr fun _ _ => Nat.lt_succ_iff.symm
  rw [IsRank, hUpTo, h.sum_take, h.sum_take]

end Mgd.Lib.Rank
