import Mathlib.Data.List.Basic

/-!
# A mailbox that is emptied

Any number of senders append to a queue, and one receiver from time to time
takes all there is.  A `Box` keeps beside its queue what has been sent and
what has been taken, so that it can be said that nothing is lost or taken twice
(`Exact.once`) and that each take gives what was sent since the one before it
(`Exact.first`).
-/

namespace Mgd.Lib.Mailbox

universe u

variable {α : Type u}

/-- What one take found, and how many items had been sent by then. -/
structure Take (α : Type u) where
  items : List α
  seen : Nat

structure Box (α : Type u) where
  queue : List α
  /-- every item sent so far -/
  sent : List α
  /-- every take so far -/
  takes : List (Take α)

namespace Box

def empty : Box α := ⟨[], [], []⟩

def send (b : Box α) (xs : List α) : Box α := ⟨b.queue ++ xs, b.sent ++ xs, b.takes⟩

def take (b : Box α) : Box α := ⟨[], b.sent, b.takes ++ [⟨b.queue, b.sent.length⟩]⟩

end Box

/-- How many items had been sent at the last of these takes. -/
def seenBy (takes : List (Take α)) : Nat := (takes.getLast?.map Take.seen).getD 0

@[simp] theorem seenBy_nil : seenBy ([] : List (Take α)) = 0 := rfl

@[simp] theorem seenBy_append (takes : List (Take α)) (t : Take α) :
    seenBy (takes ++ [t]) = t.seen := by
  simp [seenBy]

/-- Nothing is lost, nothing is taken twice, and nothing waits longer than until
the next take. -/
structure Exact (b : Box α) : Prop where
  taken : b.takes.flatMap Take.items = b.sent.take (seenBy b.takes)
  waiting : b.queue = b.sent.drop (seenBy b.takes)
  seen : ∀ t ∈ b.takes, t.seen ≤ b.sent.length
  first : ∀ earlier t later, b.takes = earlier ++ t :: later →
    t.items = (b.sent.take t.seen).drop (seenBy earlier)

variable {b : Box α}

theorem exact_empty : Exact (Box.empty : Box α) where
  taken := rfl
  waiting := rfl
  seen := fun t ht => by cases ht
  first := fun earlier t later h => by
    have hLength := congrArg List.length h
    simp [Box.empty] at hLength

/-- The takes and the queue are the items sent, in order. -/
theorem Exact.once (h : Exact b) : b.takes.flatMap Take.items ++ b.queue = b.sent := by
  rw [h.taken, h.waiting]
  exact List.take_append_drop _ _

theorem Exact.seenBy_le (h : Exact b) : seenBy b.takes ≤ b.sent.length := by
  unfold seenBy
  cases hLast : b.takes.getLast? with
  | none => exact Nat.zero_le _
  | some t => exact h.seen t (List.mem_of_getLast? hLast)

theorem Exact.send (h : Exact b) (xs : List α) : Exact (b.send xs) where
  taken := by
    rw [Box.send, List.take_append_of_le_length h.seenBy_le]
    exact h.taken
  waiting := by
    rw [Box.send, List.drop_append_of_le_length h.seenBy_le, ← h.waiting]
  seen := fun t ht => by
    have hBefore := h.seen t ht
    simp only [Box.send, List.length_append]
    omega
  first := fun earlier t later hTakes => by
    have hMem : t ∈ b.takes := by
      have hSame : b.takes = earlier ++ t :: later := hTakes
      rw [hSame]
      exact List.mem_append_right earlier List.mem_cons_self
    rw [Box.send, List.take_append_of_le_length (h.seen t hMem)]
    exact h.first earlier t later hTakes

theorem Exact.take (h : Exact b) : Exact b.take where
  taken := by
    simp only [Box.take, List.flatMap_append, seenBy_append, List.take_length]
    simpa using h.once
  waiting := by simp [Box.take]
  seen := fun t ht => by
    have hMem : t ∈ b.takes ++ [⟨b.queue, b.sent.length⟩] := ht
    cases List.mem_append.mp hMem with
    | inl hOld => exact h.seen t hOld
    | inr hNew =>
        rw [List.mem_singleton.mp hNew]
        exact Nat.le_refl _
  first := fun earlier t later hTakes => by
    cases List.eq_nil_or_concat later with
    | inl hNil =>
        subst hNil
        obtain ⟨hEarlier, hLast⟩ := List.append_singleton_inj.mp hTakes
        rw [← hLast, ← hEarlier, Box.take, List.take_length]
        exact h.waiting
    | inr hConcat =>
        obtain ⟨rest, last, hLater⟩ := hConcat
        rw [hLater, List.concat_eq_append] at hTakes
        have hSplit : b.takes ++ [⟨b.queue, b.sent.length⟩] = (earlier ++ t :: rest) ++ [last] := by
          rw [List.append_assoc]
          exact hTakes
        exact h.first earlier t rest (List.append_singleton_inj.mp hSplit).1

end Mgd.Lib.Mailbox
