import Mathlib.Algebra.GroupWithZero.Nat
import Mathlib.Data.List.Sort
import Mathlib.Algebra.BigOperators.Group.List.Basic
import Mathlib.Algebra.Order.BigOperators.Group.List

/-!
# Greedy selection by rank

Two list algorithms and the readings a client needs.

`sortDesc key` sorts by descending key and keeps the order of items with equal
keys, as a stable library sort does.  `sortDesc_split` says what stands before
an item of the sorted list: the items before it in the input whose key is no
smaller, and the items after it whose key is larger.  `sortDesc_before` is the
half of it that forgets the input order, and `mem_take_sortDesc_iff` counts them
to say which items are among the first.

`walk` goes through a list with a budget.  Each item has a `gain`: `none` for
an item that is passed over, `some g` for one that is served and lowers the
budget by `g`.  The walk stops as soon as the budget is spent.  `mem_walk_iff`
says that an item is served exactly when the gains before it leave a positive
budget.  `walk_shortestCover` says it of the whole output: the items served are
the shortest prefix of those with a gain that covers the budget.
-/

namespace Mgd.Lib.Greedy

universe u v w

/-! ## The first items of a list -/

theorem mem_take_iff_split {α : Type u} {x : α} {xs : List α} {n : Nat} :
    x ∈ xs.take n ↔ ∃ P Q, xs = P ++ x :: Q ∧ P.length < n := by
  constructor
  · intro h
    obtain ⟨P, Q, hTake⟩ := List.append_of_mem h
    have hLength : (P ++ x :: Q).length ≤ n := hTake ▸ List.length_take_le n xs
    refine ⟨P, Q ++ xs.drop n, ?_, ?_⟩
    · rw [← List.cons_append, ← List.append_assoc, ← hTake, List.take_append_drop]
    · simp only [List.length_append, List.length_cons] at hLength
      omega
  · intro h
    obtain ⟨P, Q, rfl, hFew⟩ := h
    have hFront : P ++ [x] <+: (P ++ x :: Q).take n := by
      rw [List.prefix_take_iff, List.length_append, List.length_singleton]
      exact ⟨⟨Q, by simp⟩, hFew⟩
    exact hFront.subset (by simp)

/-- An item of a list with its place: the head, or an item of the tail. -/
theorem exists_split_cons {α : Type u} {P : List α → α → List α → Prop} {x : α} {xs : List α} :
    (∃ pre y post, x :: xs = pre ++ y :: post ∧ P pre y post) ↔
      P [] x xs ∨ ∃ pre y post, xs = pre ++ y :: post ∧ P (x :: pre) y post := by
  constructor
  · intro h
    obtain ⟨pre, y, post, hEq, hP⟩ := h
    cases pre with
    | nil =>
        obtain ⟨rfl, rfl⟩ := List.cons.inj hEq
        exact Or.inl hP
    | cons z pre =>
        obtain ⟨rfl, hTail⟩ := List.cons.inj hEq
        exact Or.inr ⟨pre, y, post, hTail, hP⟩
  · intro h
    rcases h with hHead | ⟨pre, y, post, rfl, hP⟩
    · exact ⟨[], x, xs, rfl, hHead⟩
    · exact ⟨x :: pre, y, post, rfl, hP⟩

/-! ## Stable sorting by a descending key -/

section Sorting

variable {α : Type u} {κ : Type v} [LinearOrder κ]

/-- Stable sort, largest key first. -/
def sortDesc (key : α → κ) (xs : List α) : List α :=
  xs.insertionSort (fun a b => key b ≤ key a)

variable {key : α → κ}

theorem sortDesc_perm (key : α → κ) (xs : List α) : (sortDesc key xs).Perm xs :=
  List.perm_insertionSort _ xs

@[simp] theorem mem_sortDesc {x : α} {xs : List α} : x ∈ sortDesc key xs ↔ x ∈ xs :=
  (sortDesc_perm key xs).mem_iff

theorem sortDesc_pairwise (key : α → κ) (xs : List α) :
    (sortDesc key xs).Pairwise (fun a b => key b ≤ key a) := by
  have hTotal : Std.Total (fun a b : α => key b ≤ key a) := ⟨fun a b => le_total _ _⟩
  have hTrans : IsTrans α (fun a b => key b ≤ key a) := ⟨fun _ _ _ hab hbc => hbc.trans hab⟩
  exact List.pairwise_insertionSort _ xs

/-- With distinct keys the order of the input does not matter. -/
theorem sortDesc_eq_of_perm {xs ys : List α} (h : xs.Perm ys) (hKeys : (xs.map key).Nodup) :
    sortDesc key xs = sortDesc key ys := by
  have hPerm : (sortDesc key xs).Perm (sortDesc key ys) :=
    ((sortDesc_perm key xs).trans h).trans (sortDesc_perm key ys).symm
  refine hPerm.eq_of_pairwise ?_ (sortDesc_pairwise key xs) (sortDesc_pairwise key ys)
  intro a b ha hb hab hba
  have hMemB : b ∈ xs := h.mem_iff.mpr (mem_sortDesc.mp hb)
  exact List.inj_on_of_nodup_map hKeys (mem_sortDesc.mp ha) hMemB (le_antisymm hba hab)

/-- An element with a larger key stands before one with a smaller key. -/
theorem sortDesc_before {x y : α} {xs P Q : List α} (hy : y ∈ xs)
    (hSorted : sortDesc key xs = P ++ x :: Q) (hLess : key x < key y) :
    ∃ A B, P = A ++ y :: B := by
  have hMem : y ∈ P ++ x :: Q := hSorted ▸ mem_sortDesc.mpr hy
  have hPairwise : (P ++ x :: Q).Pairwise (fun a b => key b ≤ key a) :=
    hSorted ▸ sortDesc_pairwise key xs
  have hTail : ∀ z ∈ Q, key z ≤ key x :=
    (List.pairwise_cons.mp (List.pairwise_append.mp hPairwise).2.1).1
  rw [List.mem_append, List.mem_cons] at hMem
  rcases hMem with hFront | hSame | hBack
  · exact List.append_of_mem hFront
  · have hEqual : key y = key x := congrArg key hSame
    exact absurd hEqual hLess.ne'
  · have hSmaller : key y ≤ key x := hTail y hBack
    exact absurd hSmaller (not_le.mpr hLess)

theorem sortDesc_cons (x : α) (xs : List α) :
    sortDesc key (x :: xs) =
      (sortDesc key xs).orderedInsert (fun a b => key b ≤ key a) x := rfl

/-- In a list sorted by descending key, the items larger than `x` come first. -/
theorem takeWhile_eq_filter {x : α} {ys : List α}
    (hSorted : ys.Pairwise (fun a b => key b ≤ key a)) :
    ys.takeWhile (fun b => decide (¬ key b ≤ key x)) =
        ys.filter (fun b => decide (key x < key b)) ∧
      ys.dropWhile (fun b => decide (¬ key b ≤ key x)) =
        ys.filter (fun b => decide (key b ≤ key x)) := by
  induction ys with
  | nil => exact ⟨rfl, rfl⟩
  | cons y ys ih =>
      obtain ⟨hHead, hTail⟩ := List.pairwise_cons.mp hSorted
      obtain ⟨ihTake, ihDrop⟩ := ih hTail
      by_cases hy : key y ≤ key x
      · have hNone : ∀ b ∈ ys, ¬ key x < key b := by
          intro b hb hlt
          have hxy : key x < key y := hlt.trans_le (hHead b hb)
          exact absurd hxy (not_lt.mpr hy)
        have hAll : ∀ b ∈ ys, key b ≤ key x := fun b hb => not_lt.mp (hNone b hb)
        constructor
        · rw [List.takeWhile_cons_of_neg (by simpa using hy),
            List.filter_cons_of_neg (by simpa using hy)]
          exact (List.filter_eq_nil_iff.mpr (by simpa using hAll)).symm
        · rw [List.dropWhile_cons_of_neg (by simpa using hy),
            List.filter_cons_of_pos (by simpa using hy)]
          exact congrArg (y :: ·) (List.filter_eq_self.mpr (by simpa using hAll)).symm
      · have hlt : key x < key y := not_le.mp hy
        constructor
        · rw [List.takeWhile_cons_of_pos (by simpa using hlt),
            List.filter_cons_of_pos (by simpa using hlt), ihTake]
        · rw [List.dropWhile_cons_of_pos (by simpa using hlt),
            List.filter_cons_of_neg (by simpa using hlt), ihDrop]

/-- Inserting an item no smaller than `x` leaves `x` and what follows alone. -/
theorem orderedInsert_before {x y : α} (hxy : key x ≤ key y) (A B : List α) :
    (A ++ x :: B).orderedInsert (fun a b => key b ≤ key a) y =
      A.orderedInsert (fun a b => key b ≤ key a) y ++ x :: B := by
  induction A with
  | nil => simp [List.orderedInsert_cons, hxy]
  | cons a A ih =>
      by_cases h : key a ≤ key y
      · simp [List.orderedInsert_cons, h]
      · simpa [List.orderedInsert_cons, h] using ih

/-- Inserting an item smaller than `x` leaves what precedes `x` alone, when all
of that is no smaller than `x`. -/
theorem orderedInsert_after {x y : α} (hxy : key y < key x) {A : List α}
    (hA : ∀ a ∈ A, key x ≤ key a) (B : List α) :
    (A ++ x :: B).orderedInsert (fun a b => key b ≤ key a) y =
      A ++ x :: B.orderedInsert (fun a b => key b ≤ key a) y := by
  induction A with
  | nil => simp [List.orderedInsert_cons, not_le.mpr hxy]
  | cons a A ih =>
      have ha : ¬ key a ≤ key y := not_le.mpr (hxy.trans_le (hA a (by simp)))
      have ihA := ih fun b hb => hA b (by simp [hb])
      simpa [List.orderedInsert_cons, ha] using ihA

/-- **What stands before an item of the sorted list**: the items before it in
the input with a key at least as large, and the items after it with a larger
one. -/
theorem sortDesc_split (key : α → κ) (pre : List α) (x : α) (post : List α) :
    ∃ A B, sortDesc key (pre ++ x :: post) = A ++ x :: B ∧
      A.Perm (pre.filter (fun a => decide (key x ≤ key a)) ++
        post.filter (fun a => decide (key x < key a))) := by
  induction pre with
  | nil =>
      refine ⟨_, _, List.orderedInsert_eq_take_drop _ x (sortDesc key post), ?_⟩
      rw [(takeWhile_eq_filter (sortDesc_pairwise key post)).1]
      simpa using (sortDesc_perm key post).filter _
  | cons y pre ih =>
      obtain ⟨A, B, hEq, hPerm⟩ := ih
      by_cases hxy : key x ≤ key y
      · refine ⟨A.orderedInsert (fun a b => key b ≤ key a) y, B, ?_, ?_⟩
        · rw [List.cons_append, sortDesc_cons, hEq, orderedInsert_before hxy]
        · rw [List.filter_cons_of_pos (by simpa using hxy), List.cons_append]
          exact (List.perm_orderedInsert _ y A).trans (hPerm.cons y)
      · have hA : ∀ a ∈ A, key x ≤ key a := by
          intro a ha
          rcases List.mem_append.mp (hPerm.mem_iff.mp ha) with h | h
          · simpa using (List.mem_filter.mp h).2
          · exact le_of_lt (by simpa using (List.mem_filter.mp h).2)
        refine ⟨A, B.orderedInsert (fun a b => key b ≤ key a) y, ?_, ?_⟩
        · rw [List.cons_append, sortDesc_cons, hEq,
            orderedInsert_after (not_le.mp hxy) hA]
        · rw [List.filter_cons_of_neg (by simpa using hxy)]
          exact hPerm

/-- What stands before any occurrence of an item of the sorted list includes
what stands before its first occurrence. -/
theorem sortDesc_first {x : α} {xs P Q : List α} (hx : x ∈ xs)
    (hSplit : sortDesc key xs = P ++ x :: Q) :
    ∃ pre post A, xs = pre ++ x :: post ∧ A <+: P ∧
      A.Perm (pre.filter (fun a => decide (key x ≤ key a)) ++
        post.filter (fun a => decide (key x < key a))) := by
  obtain ⟨pre, post, rfl, hFirst⟩ := List.eq_append_cons_of_mem hx
  obtain ⟨A, B, hEq, hPerm⟩ := sortDesc_split key pre x post
  have hxA : x ∉ A := by
    intro hMem
    rcases List.mem_append.mp (hPerm.mem_iff.mp hMem) with h | h
    · exact hFirst (List.mem_filter.mp h).1
    · simp at h
  refine ⟨pre, post, A, rfl, ?_, hPerm⟩
  rw [hEq, List.append_eq_append_iff] at hSplit
  rcases hSplit with ⟨C, rfl, -⟩ | ⟨C, rfl, hC⟩
  · exact List.prefix_append A C
  · cases C with
    | nil => simp
    | cons y C =>
        obtain ⟨rfl, -⟩ := List.cons.inj hC
        exact absurd (by simp) hxA

/-- **Who is among the first**: an item of the sorted list stands among its
first `n` exactly when some occurrence of it in the input has fewer than `n`
items ahead of it. -/
theorem mem_take_sortDesc_iff {x : α} {xs : List α} {n : Nat} :
    x ∈ (sortDesc key xs).take n ↔
      ∃ pre post, xs = pre ++ x :: post ∧
        (pre.filter (fun a => decide (key x ≤ key a))).length +
          (post.filter (fun a => decide (key x < key a))).length < n := by
  rw [mem_take_iff_split]
  constructor
  · intro h
    obtain ⟨P, Q, hSplit, hFew⟩ := h
    have hMem : x ∈ xs := by
      rw [← @mem_sortDesc α κ _ key, hSplit]
      simp
    obtain ⟨pre, post, A, hEq, hAhead, hPerm⟩ := sortDesc_first hMem hSplit
    refine ⟨pre, post, hEq, ?_⟩
    have hCount := hPerm.length_eq
    have hLe := hAhead.length_le
    rw [List.length_append] at hCount
    omega
  · intro h
    obtain ⟨pre, post, rfl, hFew⟩ := h
    obtain ⟨A, B, hEq, hPerm⟩ := sortDesc_split key pre x post
    have hCount := hPerm.length_eq
    rw [List.length_append] at hCount
    refine ⟨A, B, hEq, ?_⟩
    omega

end Sorting

/-! ## The first of a selection -/

/-- A selected item stands among the first `n` exactly when it comes from an
item with fewer than `n` selected ones before it. -/
theorem mem_take_filterMap_iff {α : Type u} {β : Type w} {f : α → Option β} {y : β}
    {xs : List α} {n : Nat} :
    y ∈ (xs.filterMap f).take n ↔
      ∃ pre x post, xs = pre ++ x :: post ∧ f x = some y ∧ (pre.filterMap f).length < n := by
  rw [mem_take_iff_split]
  constructor
  · intro h
    obtain ⟨P, Q, hSplit, hFew⟩ := h
    obtain ⟨pre, rest, rfl, hPre, hRest⟩ := List.filterMap_eq_append_iff.mp hSplit
    obtain ⟨skipped, x, post, rfl, hSkipped, hx, -⟩ := List.filterMap_eq_cons_iff.mp hRest
    refine ⟨pre ++ skipped, x, post, by simp, hx, ?_⟩
    have hNone : skipped.filterMap f = [] := List.filterMap_eq_nil_iff.mpr hSkipped
    rw [List.filterMap_append, hPre, hNone, List.append_nil]
    exact hFew
  · intro h
    obtain ⟨pre, x, post, rfl, hx, hFew⟩ := h
    refine ⟨pre.filterMap f, post.filterMap f, ?_, hFew⟩
    rw [List.filterMap_append, List.filterMap_cons_some hx]

/-! ## Serving a list from a budget -/

section Serving

variable {α : Type u} {β : Type w}

/-- Serve the items in order while the budget is positive.  `emit` builds the
output for a served item from the budget it was served at. -/
def walk (gain : α → Option Nat) (emit : Int → α → β) : Int → List α → List β
  | _, [] => []
  | d, x :: xs =>
      if d ≤ 0 then []
      else
        match gain x with
        | none => walk gain emit d xs
        | some g => emit d x :: walk gain emit (d - g) xs

/-- The budget the items of a list use up when all are served or passed over. -/
def spent (gain : α → Option Nat) (xs : List α) : Nat :=
  (xs.map (fun x => (gain x).getD 0)).sum

variable {gain : α → Option Nat} {emit : Int → α → β}

@[simp] theorem spent_nil : spent gain [] = 0 := rfl

@[simp] theorem spent_cons (x : α) (xs : List α) :
    spent gain (x :: xs) = (gain x).getD 0 + spent gain xs := by
  simp [spent]

theorem spent_append (xs ys : List α) :
    spent gain (xs ++ ys) = spent gain xs + spent gain ys := by
  simp [spent]

theorem spent_perm {xs ys : List α} (h : xs.Perm ys) : spent gain xs = spent gain ys :=
  (h.map _).sum_eq

/-- A spent budget serves nothing. -/
theorem walk_of_nonpos {d : Int} (hd : d ≤ 0) (xs : List α) :
    walk gain emit d xs = [] := by
  cases xs with
  | nil => rfl
  | cons x xs => simp [walk, hd]

theorem walk_cons_none {d : Int} {x : α} (hd : 0 < d) (hg : gain x = none) (xs : List α) :
    walk gain emit d (x :: xs) = walk gain emit d xs := by
  have hPos : ¬ d ≤ 0 := by omega
  simp [walk, hPos, hg]

theorem walk_cons_some {d : Int} {x : α} {g : Nat} (hd : 0 < d) (hg : gain x = some g)
    (xs : List α) :
    walk gain emit d (x :: xs) = emit d x :: walk gain emit (d - g) xs := by
  have hPos : ¬ d ≤ 0 := by omega
  simp [walk, hPos, hg]

/-- **Who is served**: an output belongs to an item with a gain that is reached
while the budget is still positive. -/
theorem mem_walk_iff (b : β) (d : Int) (xs : List α) :
    b ∈ walk gain emit d xs ↔
      ∃ pre x post, xs = pre ++ x :: post ∧ 0 < d - spent gain pre ∧
        (gain x).isSome ∧ b = emit (d - spent gain pre) x := by
  induction xs generalizing d with
  | nil => simp [walk]
  | cons y ys ih =>
      by_cases hd : d ≤ 0
      · rw [walk_of_nonpos hd]
        constructor
        · intro h
          exact absurd h (List.not_mem_nil)
        · intro h
          obtain ⟨pre, x, post, -, hpos, -⟩ := h
          omega
      · have hStep : ∀ g, (gain y).getD 0 = g → ∀ pre : List α,
            d - (spent gain (y :: pre) : Nat) = d - g - (spent gain pre : Nat) := by
          intro g hg pre
          rw [spent_cons, hg]
          omega
        -- an item behind `y` is served by the walk of the tail, and conversely
        have hTail : ∀ g, (gain y).getD 0 = g →
            (b ∈ walk gain emit (d - g) ys ↔
              ∃ pre x post, y :: ys = y :: (pre ++ x :: post) ∧
                0 < d - spent gain (y :: pre) ∧ (gain x).isSome ∧
                b = emit (d - spent gain (y :: pre)) x) := by
          intro g hg
          rw [ih (d - g)]
          constructor
          · intro h
            obtain ⟨pre, x, post, hEq, hpos, hx, hb⟩ := h
            rw [← hStep g hg] at hpos hb
            exact ⟨pre, x, post, congrArg (y :: ·) hEq, hpos, hx, hb⟩
          · intro h
            obtain ⟨pre, x, post, hEq, hpos, hx, hb⟩ := h
            rw [hStep g hg] at hpos hb
            exact ⟨pre, x, post, (List.cons.inj hEq).2, hpos, hx, hb⟩
        cases hg : gain y with
        | none =>
            have hWalk : walk gain emit d (y :: ys) = walk gain emit d ys :=
              walk_cons_none (by omega) hg ys
            have hZero : d - ((0 : Nat) : Int) = d := by omega
            have hTail0 := hTail 0 (by simp [hg])
            rw [hZero] at hTail0
            rw [hWalk, hTail0]
            constructor
            · intro h
              obtain ⟨pre, x, post, hEq, hRest⟩ := h
              exact ⟨y :: pre, x, post, hEq, hRest⟩
            · intro h
              obtain ⟨pre, x, post, hEq, hpos, hx, hb⟩ := h
              cases pre with
              | nil =>
                  obtain ⟨rfl, -⟩ := List.cons.inj hEq
                  simp [hg] at hx
              | cons z pre =>
                  obtain ⟨rfl, -⟩ := List.cons.inj hEq
                  exact ⟨pre, x, post, hEq, hpos, hx, hb⟩
        | some g =>
            have hWalk : walk gain emit d (y :: ys) =
                emit d y :: walk gain emit (d - g) ys := walk_cons_some (by omega) hg ys
            rw [hWalk, List.mem_cons, hTail g (by simp [hg])]
            constructor
            · intro h
              cases h with
              | inl hHere =>
                  have hpos : 0 < d - (spent gain ([] : List α) : Nat) := by
                    rw [spent_nil]
                    omega
                  exact ⟨[], y, ys, rfl, hpos, by simp [hg], by simpa using hHere⟩
              | inr hBehind =>
                  obtain ⟨pre, x, post, hEq, hRest⟩ := hBehind
                  exact ⟨y :: pre, x, post, hEq, hRest⟩
            · intro h
              obtain ⟨pre, x, post, hEq, hpos, hx, hb⟩ := h
              cases pre with
              | nil =>
                  obtain ⟨rfl, -⟩ := List.cons.inj hEq
                  exact Or.inl (by simpa using hb)
              | cons z pre =>
                  obtain ⟨rfl, -⟩ := List.cons.inj hEq
                  exact Or.inr ⟨pre, x, post, hEq, hpos, hx, hb⟩

/-- A walk that comes to the end of a list with budget left has served every
item of it with a gain. -/
theorem walk_append {d : Int} {xs : List α} (hLeft : 0 < d - (spent gain xs : Nat))
    (ys : List α) :
    walk gain (fun _ x => x) d (xs ++ ys) =
      xs.filter (fun x => (gain x).isSome) ++
        walk gain (fun _ x => x) (d - (spent gain xs : Nat)) ys := by
  induction xs generalizing d with
  | nil => simp
  | cons x xs ih =>
      have hd : 0 < d := by omega
      have hStep : d - (spent gain (x :: xs) : Nat) =
          d - ((gain x).getD 0 : Nat) - (spent gain xs : Nat) := by
        rw [spent_cons]
        omega
      rw [hStep] at hLeft ⊢
      rw [List.cons_append]
      cases hg : gain x with
      | none =>
          have hZero : d - ((none : Option Nat).getD 0 : Nat) = d := by simp
          rw [hg, hZero] at hLeft
          rw [hZero, walk_cons_none hd hg, List.filter_cons_of_neg (by simp [hg])]
          exact ih hLeft
      | some g =>
          rw [hg] at hLeft
          rw [walk_cons_some hd hg, List.filter_cons_of_pos (by simp [hg]), List.cons_append]
          exact congrArg (x :: ·) (ih hLeft)

/-- **What is served before an item**: every item with a gain that stands before
it, the budget lasting that far. -/
theorem walk_split_iff (d : Int) (xs A : List α) (x : α) :
    (∃ B, walk gain (fun _ x => x) d xs = A ++ x :: B) ↔
      ∃ pre post, xs = pre ++ x :: post ∧ A = pre.filter (fun x => (gain x).isSome) ∧
        0 < d - (spent gain pre : Nat) ∧ (gain x).isSome := by
  constructor
  · intro h
    obtain ⟨B, hSplit⟩ := h
    induction xs generalizing d A with
    | nil => simp [walk] at hSplit
    | cons y ys ih =>
        by_cases hd : d ≤ 0
        · rw [walk_of_nonpos hd] at hSplit
          simp at hSplit
        have hPos : 0 < d := by omega
        cases hg : gain y with
        | none =>
            rw [walk_cons_none hPos hg] at hSplit
            obtain ⟨pre, post, rfl, rfl, hLeft, hGain⟩ := ih d A hSplit
            refine ⟨y :: pre, post, rfl, ?_, ?_, hGain⟩
            · rw [List.filter_cons_of_neg (by simp [hg])]
            · rw [spent_cons, hg]
              simpa using hLeft
        | some g =>
            rw [walk_cons_some hPos hg] at hSplit
            cases A with
            | nil =>
                obtain ⟨rfl, -⟩ := List.cons.inj hSplit
                exact ⟨[], ys, rfl, rfl, by simpa using hPos, by simp [hg]⟩
            | cons a A =>
                obtain ⟨rfl, hTail⟩ := List.cons.inj hSplit
                obtain ⟨pre, post, rfl, rfl, hLeft, hGain⟩ := ih (d - g) A hTail
                refine ⟨y :: pre, post, rfl, ?_, ?_, hGain⟩
                · rw [List.filter_cons_of_pos (by simp [hg])]
                · rw [spent_cons, hg, Option.getD_some]
                  omega
  · intro h
    obtain ⟨pre, post, rfl, rfl, hLeft, hGain⟩ := h
    rw [walk_append hLeft]
    obtain ⟨g, hg⟩ := Option.isSome_iff_exists.mp hGain
    rw [walk_cons_some hLeft hg]
    exact ⟨_, rfl⟩

/-- **Who is served in descending order**: an item with a gain that some
occurrence in the input has too little ahead of it to use the budget up. -/
theorem mem_walk_sortDesc_iff {κ : Type v} [LinearOrder κ] {key : α → κ} {x : α} {d : Int}
    {xs : List α} :
    x ∈ walk gain (fun _ x => x) d (sortDesc key xs) ↔
      ∃ pre post, xs = pre ++ x :: post ∧
        0 < d - (spent gain (pre.filter (fun a => decide (key x ≤ key a)) ++
          post.filter (fun a => decide (key x < key a))) : Nat) ∧ (gain x).isSome := by
  rw [mem_walk_iff]
  constructor
  · intro h
    obtain ⟨P, y, Q, hSplit, hLeft, hGain, rfl⟩ := h
    have hMem : x ∈ xs := by
      rw [← @mem_sortDesc α κ _ key, hSplit]
      simp
    obtain ⟨pre, post, A, hEq, hAhead, hPerm⟩ := sortDesc_first hMem hSplit
    obtain ⟨C, hP⟩ := hAhead
    refine ⟨pre, post, hEq, ?_, hGain⟩
    have hSpent : spent gain P = spent gain A + spent gain C := by
      rw [← hP]
      exact spent_append A C
    rw [← spent_perm hPerm]
    omega
  · intro h
    obtain ⟨pre, post, rfl, hLeft, hGain⟩ := h
    obtain ⟨A, B, hEq, hPerm⟩ := sortDesc_split key pre x post
    rw [← spent_perm hPerm] at hLeft
    exact ⟨A, x, B, hEq, hLeft, hGain, rfl⟩

/-! ### The shortest prefix that covers a budget -/

/-- The shortest prefix of a list whose costs cover a goal; the whole list when
no prefix covers it. -/
structure ShortestCover (cost : α → Nat) (goal : Int) (xs cover : List α) : Prop where
  isPrefix : cover <+: xs
  covers : cover = xs ∨ goal ≤ ((cover.map cost).sum : Nat)
  shortest : ∀ ys, ys <+: xs → goal ≤ ((ys.map cost).sum : Nat) → cover.length ≤ ys.length

/-- Nothing covers a goal that is not positive. -/
theorem shortestCover_nil {cost : α → Nat} {goal : Int} (hGoal : goal ≤ 0) (xs : List α) :
    ShortestCover cost goal xs [] where
  isPrefix := List.nil_prefix
  covers := Or.inr (by simpa using hGoal)
  shortest ys _ _ := Nat.zero_le ys.length

/-- Before a goal still to be covered, the first item belongs to the cover. -/
theorem ShortestCover.cons {cost : α → Nat} {goal : Int} {x : α} {xs cover : List α}
    (hGoal : 0 < goal) (h : ShortestCover cost (goal - cost x) xs cover) :
    ShortestCover cost goal (x :: xs) (x :: cover) where
  isPrefix := List.cons_prefix_cons.mpr ⟨rfl, h.isPrefix⟩
  covers := by
    rcases h.covers with hAll | hCovers
    · exact Or.inl (congrArg (x :: ·) hAll)
    · refine Or.inr ?_
      rw [List.map_cons, List.sum_cons]
      omega
  shortest := by
    intro ys hPrefix hCovers
    cases ys with
    | nil => simp at hCovers; omega
    | cons y ys =>
        obtain ⟨rfl, hTail⟩ := List.cons_prefix_cons.mp hPrefix
        rw [List.map_cons, List.sum_cons] at hCovers
        have hLength := h.shortest ys hTail (by omega)
        simp only [List.length_cons]
        omega

/-- Only the costs of the items of the list matter. -/
theorem ShortestCover.congr {cost cost' : α → Nat} {goal : Int} {xs cover : List α}
    (h : ShortestCover cost goal xs cover) (hCost : ∀ x ∈ xs, cost x = cost' x) :
    ShortestCover cost' goal xs cover := by
  have hSum : ∀ ys, ys <+: xs → ys.map cost' = ys.map cost := by
    intro ys hPrefix
    exact List.map_congr_left fun x hx => (hCost x (hPrefix.subset hx)).symm
  constructor
  · exact h.isPrefix
  · rw [hSum cover h.isPrefix]
    exact h.covers
  · intro ys hPrefix hCovers
    rw [hSum ys hPrefix] at hCovers
    exact h.shortest ys hPrefix hCovers

/-- **What the walk serves**: the shortest prefix of the items with a gain whose
gains cover the budget, each item once and in order. -/
theorem walk_shortestCover (gain : α → Option Nat) (emit : Int → α → β) (d : Int)
    (xs : List α) :
    ∃ cover, ShortestCover (fun x => (gain x).getD 0) d
        (xs.filter fun x => (gain x).isSome) cover ∧
      List.Forall₂ (fun b x => ∃ left, b = emit left x) (walk gain emit d xs) cover := by
  induction xs generalizing d with
  | nil =>
      refine ⟨[], ⟨List.prefix_rfl, Or.inl rfl, fun ys _ _ => Nat.zero_le ys.length⟩, ?_⟩
      exact List.Forall₂.nil
  | cons x xs ih =>
      by_cases hd : d ≤ 0
      · rw [walk_of_nonpos hd]
        exact ⟨[], shortestCover_nil hd _, List.Forall₂.nil⟩
      · cases hg : gain x with
        | none =>
            obtain ⟨cover, hCover, hOut⟩ := ih d
            have hWalk : walk gain emit d (x :: xs) = walk gain emit d xs :=
              walk_cons_none (by omega) hg xs
            rw [hWalk, List.filter_cons_of_neg (by simp [hg])]
            exact ⟨cover, hCover, hOut⟩
        | some g =>
            obtain ⟨cover, hCover, hOut⟩ := ih (d - g)
            have hWalk : walk gain emit d (x :: xs) =
                emit d x :: walk gain emit (d - g) xs := walk_cons_some (by omega) hg xs
            have hCost : (gain x).getD 0 = g := by rw [hg, Option.getD_some]
            rw [hWalk, List.filter_cons_of_pos (by simp [hg])]
            refine ⟨x :: cover, ShortestCover.cons (by omega) ?_, ?_⟩
            · simpa only [hCost] using hCover
            · exact List.Forall₂.cons ⟨d, rfl⟩ hOut

end Serving

end Mgd.Lib.Greedy
