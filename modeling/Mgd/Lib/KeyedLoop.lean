import Mathlib.Data.List.Nodup

/-!
# Loops over the keys of a map

A loop goes through a list of keys without repetitions, and each of its rounds
touches what belongs to its own key only.  What belongs to a key (`view`) is
then, after the loop, what the round of that key made of it, and it is
untouched when the loop has no such round.
-/

namespace Mgd.Lib.KeyedLoop

universe u v w

variable {σ : Type u} {κ : Type v} {V : Type w}

/-- A round leaves what belongs to the other keys alone. -/
def KeepsOthers (round : σ → κ → σ) (view : σ → κ → V) : Prop :=
  ∀ s k k', k' ≠ k → view (round s k) k' = view s k'

variable {round : σ → κ → σ} {view : σ → κ → V}

theorem foldl_other (h : KeepsOthers round view) {keys : List κ} {k : κ} (hk : k ∉ keys) (s : σ) :
    view (keys.foldl round s) k = view s k := by
  induction keys generalizing s with
  | nil => rfl
  | cons key rest ih =>
      simp only [List.mem_cons, not_or] at hk
      rw [List.foldl_cons, ih hk.2, h s key k hk.1]

/-- After the loop a key of it has what its round made of it. -/
theorem foldl_own (h : KeepsOthers round view) {keys : List κ} (hNodup : keys.Nodup) {k : κ}
    (hk : k ∈ keys) (s : σ) :
    ∃ s', view s' k = view s k ∧ view (keys.foldl round s) k = view (round s' k) k := by
  obtain ⟨before, after, rfl⟩ := List.append_of_mem hk
  obtain ⟨-, hAfter, hApart⟩ := List.nodup_append.mp hNodup
  have hBefore : k ∉ before := fun hMem => hApart k hMem k List.mem_cons_self rfl
  refine ⟨before.foldl round s, foldl_other h hBefore s, ?_⟩
  rw [List.foldl_append, List.foldl_cons, foldl_other h (List.nodup_cons.mp hAfter).1]

end Mgd.Lib.KeyedLoop
