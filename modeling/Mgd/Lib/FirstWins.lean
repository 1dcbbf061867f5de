import Mathlib.Data.List.Perm.Basic
import Mgd.Lib.AssocMap

/-!
# The first one wins

A map filled from a list, an entry that exists being left alone, and what such a
map owes to the order of the list: `lookup_insertFirsts` looks for the first
element with the key, and `findSome?_perm` and `exists_perm_findSome?` say when
that does not depend on the order.
-/

namespace Mgd.Lib.FirstWins

open Mgd.Lib.AssocMap

universe u v w

variable {α : Type u} {β : Type v} {γ : Type w}

/-! ## Orders -/

section Orders

variable {f : γ → Option β} {xs ys : List γ}

/-- Elements that give the same are found in any order. -/
theorem findSome?_perm (hPerm : ys.Perm xs)
    (hAgree : ∀ x ∈ xs, ∀ y ∈ xs, ∀ p q, f x = some p → f y = some q → p = q) :
    ys.findSome? f = xs.findSome? f := by
  cases hFound : xs.findSome? f with
  | none =>
      rw [List.findSome?_eq_none_iff] at hFound ⊢
      exact fun y hy => hFound y (hPerm.mem_iff.mp hy)
  | some p =>
      obtain ⟨x, hx, hp⟩ := List.exists_of_findSome?_eq_some hFound
      cases hOther : ys.findSome? f with
      | none =>
          rw [List.findSome?_eq_none_iff] at hOther
          rw [hOther x (hPerm.mem_iff.mpr hx)] at hp
          cases hp
      | some q =>
          obtain ⟨y, hy, hq⟩ := List.exists_of_findSome?_eq_some hOther
          rw [hAgree x hx y (hPerm.mem_iff.mp hy) p q hp hq]

/-- In some order any of them comes first. -/
theorem exists_perm_findSome? {x : γ} (hx : x ∈ xs) {p : β} (h : f x = some p) :
    ∃ ys : List γ, ys.Perm xs ∧ ys.findSome? f = some p := by
  obtain ⟨before, after, rfl⟩ := List.append_of_mem hx
  refine ⟨x :: (before ++ after), List.perm_middle.symm, ?_⟩
  rw [List.findSome?_cons, h]

end Orders

/-! ## Maps -/

section Maps

variable [DecidableEq α] {make : γ → Option (α × β)}

/-- The entry that an element makes, unless its key has one. -/
def insertFirst (make : γ → Option (α × β)) (m : Map α β) (x : γ) : Map α β :=
  match make x with
  | none => m
  | some (a, b) => if (m.lookup a).isSome then m else m.insert a b

def insertFirsts (make : γ → Option (α × β)) (m : Map α β) (xs : List γ) : Map α β :=
  xs.foldl (insertFirst make) m

/-- The value of the entry, if it is for the key. -/
def valueFor (make : γ → Option (α × β)) (a : α) (x : γ) : Option β :=
  (make x).bind fun entry => if entry.1 = a then some entry.2 else none

theorem valueFor_eq_some_iff {a : α} {x : γ} {b : β} :
    valueFor make a x = some b ↔ make x = some (a, b) := by
  unfold valueFor
  constructor
  · intro h
    obtain ⟨⟨a', b'⟩, hMake, hValue⟩ := Option.bind_eq_some_iff.mp h
    dsimp only at hValue
    split at hValue
    · next hKey =>
        cases hValue
        rw [hMake, hKey]
    · cases hValue
  · intro h
    rw [h, Option.bind_some, if_pos rfl]

theorem lookup_insertFirst (m : Map α β) (x : γ) (a : α) :
    (insertFirst make m x).lookup a = (m.lookup a).or (valueFor make a x) := by
  unfold insertFirst valueFor
  cases hMake : make x with
  | none => rw [Option.bind_none, Option.or_none]
  | some entry =>
      obtain ⟨a', b⟩ := entry
      rw [Option.bind_some]
      dsimp only
      by_cases hKey : a' = a
      · rw [hKey, if_pos rfl]
        cases hBefore : m.lookup a with
        | some b' =>
            rw [if_pos Option.isSome_some, hBefore]
            rfl
        | none =>
            rw [if_neg (by rw [Option.isSome_none]; exact Bool.false_ne_true), AList.lookup_insert]
            rfl
      · rw [if_neg hKey, Option.or_none]
        split
        · rfl
        · rw [lookup_insert_eq, if_neg (Ne.symm hKey)]

/-- **The first one wins**: the entry that was there, or else that of the first
element with the key. -/
theorem lookup_insertFirsts (m : Map α β) (xs : List γ) (a : α) :
    (insertFirsts make m xs).lookup a = (m.lookup a).or (xs.findSome? (valueFor make a)) := by
  unfold insertFirsts
  induction xs generalizing m with
  | nil => exact (Option.or_none).symm
  | cons x xs ih =>
      rw [List.foldl_cons, ih, lookup_insertFirst, List.findSome?_cons, Option.or_assoc]
      cases valueFor make a x with
      | none => rfl
      | some b => rfl

end Maps

end Mgd.Lib.FirstWins
