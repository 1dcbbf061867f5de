import Mathlib.Logic.Function.Basic
import Mathlib.Logic.Relation
import Mgd.Lib.Run

/-!
# Threads that take locks

`Code` is what a piece of code does with locks: a guard lives as long as its
scope, and whatever decides a branch or ends a loop is left open.  A thread is a
stack of what it still has to do, a `System` any number of threads and, for each
lock, the thread that has it.  A step that wants a lock some thread has does
nothing.

An `Order` says which lock may be taken under which: one of a higher level, or
another one of the same level under the gate of that level.  Two locks may so be
taken in either order as long as both orders have the gate around them.

* `waits_end`: along every run of threads that keep to the order, a thread that
  waits does so for one that moves, or for one that waits for one that moves, and
  so on, finitely often.
-/

namespace Mgd.Lib.Locks

open Mgd.Lib.Run

universe u v

/-- What a piece of code does with locks. -/
inductive Code (ℓ : Type u) where
  /-- nothing -/
  | work
  /-- a guard, and what is done while it lives -/
  | hold (l : ℓ) (body : Code ℓ)
  | seq (first second : Code ℓ)
  | either (left right : Code ℓ)
  | loop (body : Code ℓ)

variable {ℓ : Type u} {ι : Type v}

/-- One after the other. -/
def Code.block : List (Code ℓ) → Code ℓ
  | [] => .work
  | [c] => c
  | c :: rest => .seq c (block rest)

/-- One of them. -/
def Code.oneOf : List (Code ℓ) → Code ℓ
  | [] => .work
  | [c] => c
  | c :: rest => .either c (oneOf rest)

def Code.maybe (c : Code ℓ) : Code ℓ := .either c .work

/-- A guard that lives for one statement. -/
def Code.brief (l : ℓ) : Code ℓ := .hold l .work

/-! ## One thread -/

inductive Frame (ℓ : Type u) where
  | run (c : Code ℓ)
  /-- the end of the scope of a guard -/
  | release (l : ℓ)

/-- What a thread still has to do, the next thing first. -/
abbrev Stack (ℓ : Type u) := List (Frame ℓ)

/-- The locks whose guards live. -/
def held : Stack ℓ → List ℓ
  | [] => []
  | .run _ :: rest => held rest
  | .release l :: rest => l :: held rest

/-- The lock the next step takes. -/
def wants : Stack ℓ → Option ℓ
  | .run (.hold l _) :: _ => some l
  | _ => none

/-- The lock the next step releases. -/
def drops : Stack ℓ → Option ℓ
  | .release l :: _ => some l
  | _ => none

/-- What is left after a step, where `choice` decides a branch or a loop. -/
def advance (choice : Bool) : Stack ℓ → Stack ℓ
  | [] => []
  | .release _ :: rest => rest
  | .run .work :: rest => rest
  | .run (.hold l body) :: rest => .run body :: .release l :: rest
  | .run (.seq first second) :: rest => .run first :: .run second :: rest
  | .run (.either left right) :: rest => .run (if choice then left else right) :: rest
  | .run (.loop body) :: rest => if choice then .run body :: .run (.loop body) :: rest else rest

theorem held_of_wants {stack : Stack ℓ} {l : ℓ} (h : wants stack = some l) (choice : Bool) :
    held (advance choice stack) = l :: held stack := by
  unfold wants at h
  split at h
  · cases h
    rfl
  · cases h

theorem held_of_drops {stack : Stack ℓ} {l : ℓ} (h : drops stack = some l) (choice : Bool) :
    held stack = l :: held (advance choice stack) := by
  unfold drops at h
  split at h
  · cases h
    rfl
  · cases h

theorem held_of_neither {stack : Stack ℓ} (hWants : wants stack = none)
    (hDrops : drops stack = none) (choice : Bool) : held (advance choice stack) = held stack := by
  cases stack with
  | nil => rfl
  | cons frame rest =>
      cases frame with
      | release l => cases hDrops
      | run c =>
          cases c with
          | hold l body => cases hWants
          | work => rfl
          | seq first second => rfl
          | either left right => rfl
          | loop body => cases choice <;> rfl

/-! ## The order of the locks -/

/-- Which locks may be taken while which are held. -/
structure Order (ℓ : Type u) where
  level : ℓ → Nat
  top : Nat
  level_le : ∀ l, level l ≤ top
  /-- the lock around every two of the level -/
  gate : Nat → Option ℓ

/-- The lock may be taken by a thread that holds `locks`. -/
def Order.Admits (o : Order ℓ) (locks : List ℓ) (l : ℓ) : Prop :=
  ∀ l' ∈ locks, o.level l' < o.level l ∨
    (o.level l' = o.level l ∧ l' ≠ l ∧ ∃ g ∈ locks, o.gate (o.level l) = some g)

/-- The code keeps to the order when it runs under `locks`. -/
def Code.Ordered (o : Order ℓ) : List ℓ → Code ℓ → Prop
  | _, .work => True
  | locks, .hold l body => o.Admits locks l ∧ body.Ordered o (l :: locks)
  | locks, .seq first second => first.Ordered o locks ∧ second.Ordered o locks
  | locks, .either left right => left.Ordered o locks ∧ right.Ordered o locks
  | locks, .loop body => body.Ordered o locks

section Decide

variable [DecidableEq ℓ]

instance (o : Order ℓ) (locks : List ℓ) (l : ℓ) : Decidable (o.Admits locks l) :=
  inferInstanceAs (Decidable (∀ l' ∈ locks, o.level l' < o.level l ∨
    (o.level l' = o.level l ∧ l' ≠ l ∧ ∃ g ∈ locks, o.gate (o.level l) = some g)))

instance decidableOrdered (o : Order ℓ) : ∀ (locks : List ℓ) (c : Code ℓ),
    Decidable (c.Ordered o locks)
  | _, .work => inferInstanceAs (Decidable True)
  | locks, .hold l body =>
      have := decidableOrdered o (l :: locks) body
      inferInstanceAs (Decidable (_ ∧ _))
  | locks, .seq first second =>
      have := decidableOrdered o locks first
      have := decidableOrdered o locks second
      inferInstanceAs (Decidable (_ ∧ _))
  | locks, .either left right =>
      have := decidableOrdered o locks left
      have := decidableOrdered o locks right
      inferInstanceAs (Decidable (_ ∧ _))
  | locks, .loop body => decidableOrdered o locks body

end Decide

/-- What is left keeps to the order, and so did every guard that lives. -/
def OrderedStack (o : Order ℓ) : Stack ℓ → Prop
  | [] => True
  | .run c :: rest => c.Ordered o (held rest) ∧ OrderedStack o rest
  | .release l :: rest => o.Admits (held rest) l ∧ OrderedStack o rest

variable {o : Order ℓ}

theorem Order.Admits.not_mem {locks : List ℓ} {l : ℓ} (h : o.Admits locks l) : l ∉ locks := by
  intro hMem
  rcases h l hMem with hLess | ⟨-, hOther, -⟩
  · omega
  · exact hOther rfl

theorem OrderedStack.advance {stack : Stack ℓ} (h : OrderedStack o stack) (choice : Bool) :
    OrderedStack o (advance choice stack) := by
  cases stack with
  | nil => exact h
  | cons frame rest =>
      cases frame with
      | release l => exact h.2
      | run c =>
          obtain ⟨hCode, hRest⟩ := h
          cases c with
          | work => exact hRest
          | hold l body => exact ⟨hCode.2, hCode.1, hRest⟩
          | seq first second => exact ⟨hCode.1, hCode.2, hRest⟩
          | either left right =>
              cases choice with
              | true => exact ⟨hCode.1, hRest⟩
              | false => exact ⟨hCode.2, hRest⟩
          | loop body =>
              cases choice with
              | true => exact ⟨hCode, hCode, hRest⟩
              | false => exact hRest

theorem OrderedStack.admits {stack : Stack ℓ} (h : OrderedStack o stack) {l : ℓ}
    (hWants : wants stack = some l) : o.Admits (held stack) l := by
  unfold wants at hWants
  split at hWants
  · cases hWants
    exact h.1.1
  · cases hWants

theorem OrderedStack.not_mem {stack : Stack ℓ} (h : OrderedStack o stack) {l : ℓ}
    (hDrops : drops stack = some l) (choice : Bool) : l ∉ held (Locks.advance choice stack) := by
  unfold drops at hDrops
  split at hDrops
  · cases hDrops
    exact h.1.not_mem
  · cases hDrops

theorem OrderedStack.nodup {stack : Stack ℓ} (h : OrderedStack o stack) : (held stack).Nodup := by
  induction stack with
  | nil => exact List.nodup_nil
  | cons frame rest ih =>
      cases frame with
      | run c => exact ih h.2
      | release l => exact List.nodup_cons.mpr ⟨h.1.not_mem, ih h.2⟩

/-! ## The threads together -/

structure System (ι : Type v) (ℓ : Type u) where
  stack : ι → Stack ℓ
  /-- the thread that has the lock -/
  owner : ℓ → Option ι

/-- A thread goes on, if it can. -/
structure Move (ι : Type v) where
  thread : ι
  choice : Bool

/-- No thread has run yet. -/
def start (code : ι → Code ℓ) : System ι ℓ := ⟨fun i => [.run (code i)], fun _ => none⟩

/-- The thread needs a lock that the other one has. -/
def WaitsFor (s : System ι ℓ) (i j : ι) : Prop :=
  ∃ l, wants (s.stack i) = some l ∧ s.owner l = some j

/-- What holds of threads that keep to an order. -/
structure Inv (o : Order ℓ) (s : System ι ℓ) : Prop where
  ordered : ∀ i, OrderedStack o (s.stack i)
  owns : ∀ i l, s.owner l = some i ↔ l ∈ held (s.stack i)

/-- No two threads have a lock, and none has one twice. -/
def Exclusive (s : System ι ℓ) : Prop :=
  (∀ i j l, l ∈ held (s.stack i) → l ∈ held (s.stack j) → i = j) ∧
    ∀ i, (held (s.stack i)).Nodup

theorem inv_start {code : ι → Code ℓ} (h : ∀ i, (code i).Ordered o []) :
    Inv o (start code) where
  ordered := fun i => ⟨h i, trivial⟩
  owns := fun _ _ => iff_of_false nofun nofun

theorem Inv.exclusive {s : System ι ℓ} (h : Inv o s) : Exclusive s := by
  refine ⟨fun i j l hi hj => ?_, fun i => (h.ordered i).nodup⟩
  have hOwner := (h.owns i l).mpr hi
  rw [(h.owns j l).mpr hj] at hOwner
  exact (Option.some.inj hOwner).symm

theorem Inv.stack_ne_nil {s : System ι ℓ} (h : Inv o s) {j : ι} {l : ℓ}
    (hOwner : s.owner l = some j) : s.stack j ≠ [] := by
  intro hNil
  have hMem := (h.owns j l).mp hOwner
  rw [hNil] at hMem
  cases hMem

/-- The thread a thread waits for wants a lock of a higher level, or it has the gate of
the level. -/
theorem Inv.level_of_waits {s : System ι ℓ} (h : Inv o s) {j : ι} {l l' : ℓ}
    (hOwner : s.owner l = some j) (hWants : wants (s.stack j) = some l') :
    o.level l < o.level l' ∨
      (o.level l = o.level l' ∧ ∃ g, o.gate (o.level l') = some g ∧ s.owner g = some j) := by
  rcases (h.ordered j).admits hWants l ((h.owns j l).mp hOwner) with hLess | ⟨hSame, -, g, hg, hGate⟩
  · exact Or.inl hLess
  · exact Or.inr ⟨hSame, g, hGate, (h.owns j g).mpr hg⟩

section Steps

variable [DecidableEq ι] [DecidableEq ℓ]

def step (s : System ι ℓ) (m : Move ι) : System ι ℓ :=
  let stack := Function.update s.stack m.thread (advance m.choice (s.stack m.thread))
  match wants (s.stack m.thread), drops (s.stack m.thread) with
  | some l, _ =>
      if (s.owner l).isSome then s
      else ⟨stack, Function.update s.owner l (some m.thread)⟩
  | none, some l => ⟨stack, Function.update s.owner l none⟩
  | none, none => ⟨stack, s.owner⟩

/-- The thread has something to do, and does it. -/
def Moves (s : System ι ℓ) (i : ι) : Prop :=
  s.stack i ≠ [] ∧
    ∀ choice, (step s ⟨i, choice⟩).stack i = advance choice (s.stack i)

/-- The three kinds of steps: one that takes a lock, one that releases one, another. -/
theorem step_cases (s : System ι ℓ) (m : Move ι) :
    (∃ l, wants (s.stack m.thread) = some l ∧
      ((∃ j, s.owner l = some j) ∧ step s m = s ∨
        s.owner l = none ∧
          step s m = ⟨Function.update s.stack m.thread (advance m.choice (s.stack m.thread)),
            Function.update s.owner l (some m.thread)⟩)) ∨
    wants (s.stack m.thread) = none ∧
      ((∃ l, drops (s.stack m.thread) = some l ∧
        step s m = ⟨Function.update s.stack m.thread (advance m.choice (s.stack m.thread)),
          Function.update s.owner l none⟩) ∨
      drops (s.stack m.thread) = none ∧
        step s m = ⟨Function.update s.stack m.thread (advance m.choice (s.stack m.thread)),
          s.owner⟩) := by
  unfold step
  cases hWants : wants (s.stack m.thread) with
  | some l =>
      refine Or.inl ⟨l, rfl, ?_⟩
      cases hOwner : s.owner l with
      | some j => exact Or.inl ⟨⟨j, rfl⟩, by simp [hOwner]⟩
      | none => exact Or.inr ⟨rfl, by simp [hOwner]⟩
  | none =>
      cases hDrops : drops (s.stack m.thread) with
      | some l => exact Or.inr ⟨rfl, Or.inl ⟨l, rfl, rfl⟩⟩
      | none => exact Or.inr ⟨rfl, Or.inr ⟨rfl, rfl⟩⟩

theorem inv_step {s : System ι ℓ} (h : Inv o s) (m : Move ι) : Inv o (step s m) := by
  have hOrdered : ∀ i, OrderedStack o
      (Function.update s.stack m.thread (advance m.choice (s.stack m.thread)) i) := by
    intro i
    by_cases hi : i = m.thread
    · subst hi
      rw [Function.update_self]
      exact (h.ordered m.thread).advance m.choice
    · rw [Function.update_of_ne hi]
      exact h.ordered i
  rcases step_cases s m with ⟨l, hWants, ⟨-, hStep⟩ | ⟨hFree, hStep⟩⟩ |
    ⟨hWants, ⟨l, hDrops, hStep⟩ | ⟨hDrops, hStep⟩⟩
  · rw [hStep]
    exact h
  · rw [hStep]
    refine ⟨hOrdered, fun i l' => ?_⟩
    have hOwns := h.owns i l'
    by_cases hl : l' = l <;> by_cases hi : i = m.thread
    · subst hl hi
      simp [held_of_wants hWants]
    · subst hl
      rw [hFree] at hOwns
      simpa [hi, Ne.symm hi] using hOwns
    · subst hi
      simpa [hl, held_of_wants hWants] using hOwns
    · simpa [hl, hi] using hOwns
  · rw [hStep]
    refine ⟨hOrdered, fun i l' => ?_⟩
    have hOwns := h.owns i l'
    have hHeld := held_of_drops hDrops m.choice
    by_cases hl : l' = l <;> by_cases hi : i = m.thread
    · subst hl hi
      simpa using (h.ordered m.thread).not_mem hDrops m.choice
    · subst hl
      have hOwner : s.owner l' = some m.thread := (h.owns m.thread l').mpr (by simp [hHeld])
      rw [hOwner] at hOwns
      simpa [hi, Ne.symm hi] using hOwns
    · subst hi
      rw [hHeld] at hOwns
      simpa [hl] using hOwns
    · simpa [hl, hi] using hOwns
  · rw [hStep]
    refine ⟨hOrdered, fun i l' => ?_⟩
    have hOwns := h.owns i l'
    by_cases hi : i = m.thread
    · subst hi
      simpa [held_of_neither hWants hDrops] using hOwns
    · simpa [hi] using hOwns

/-! ## Who waits for whom -/

theorem moves_of_free {s : System ι ℓ} {i : ι} (hSome : s.stack i ≠ [])
    (hFree : ∀ j, ¬ WaitsFor s i j) : Moves s i := by
  refine ⟨hSome, fun choice => ?_⟩
  rcases step_cases s ⟨i, choice⟩ with ⟨l, hWants, ⟨⟨j, hOwner⟩, -⟩ | ⟨-, hStep⟩⟩ |
    ⟨-, ⟨l, -, hStep⟩ | ⟨-, hStep⟩⟩
  · exact absurd ⟨l, hWants, hOwner⟩ (hFree j)
  all_goals
    rw [hStep]
    exact Function.update_self ..

/-- Where the waiting of a thread ends that wants a lock, by how far the level of the lock
is from the top. -/
theorem Inv.waits_end_of_wants {s : System ι ℓ} (h : Inv o s) {i : ι} {l : ℓ}
    (hWants : wants (s.stack i) = some l) :
    ∃ j, Relation.ReflTransGen (WaitsFor s) i j ∧ Moves s j := by
  induction hDist : o.top - o.level l using Nat.strongRecOn generalizing i l with
  | _ d ih =>
      have hSome : s.stack i ≠ [] := by
        intro hNil
        rw [hNil] at hWants
        cases hWants
      by_cases hFree : ∀ j, ¬ WaitsFor s i j
      · exact ⟨i, .refl, moves_of_free hSome hFree⟩
      push Not at hFree
      obtain ⟨j, hij⟩ := hFree
      obtain ⟨l₀, hWants₀, hOwner⟩ := hij
      have hSame₀ : l₀ = l := Option.some.inj (hWants₀.symm.trans hWants)
      subst hSame₀
      have hij : WaitsFor s i j := ⟨l₀, hWants, hOwner⟩
      by_cases hFree' : ∀ k, ¬ WaitsFor s j k
      · exact ⟨j, .single hij, moves_of_free (h.stack_ne_nil hOwner) hFree'⟩
      push Not at hFree'
      obtain ⟨k, l', hWants', hOwner'⟩ := hFree'
      have hTop' := o.level_le l'
      rcases h.level_of_waits hOwner hWants' with hLess | ⟨hSame, g, hGate, hHasGate⟩
      · obtain ⟨m, hjm, hMoves⟩ := ih _ (by omega) hWants' rfl
        exact ⟨m, .head hij hjm, hMoves⟩
      -- both locks are of one level, so `j` has its gate and `k` does not
      have hjk : WaitsFor s j k := ⟨l', hWants', hOwner'⟩
      by_cases hFree'' : ∀ m, ¬ WaitsFor s k m
      · exact ⟨k, (Relation.ReflTransGen.single hij).tail hjk,
          moves_of_free (h.stack_ne_nil hOwner') hFree''⟩
      push Not at hFree''
      obtain ⟨_, l'', hWants'', -⟩ := hFree''
      have hTop'' := o.level_le l''
      rcases h.level_of_waits hOwner' hWants'' with hLess | ⟨hSame', g', hGate', hHasGate'⟩
      · obtain ⟨m, hkm, hMoves⟩ := ih _ (by omega) hWants'' rfl
        exact ⟨m, .head hij (.head hjk hkm), hMoves⟩
      · exfalso
        rw [hSame'] at hGate
        have hGates : g' = g := Option.some.inj (hGate'.symm.trans hGate)
        subst hGates
        have hThreads : j = k := Option.some.inj (hHasGate.symm.trans hHasGate')
        subst hThreads
        exact ((h.ordered j).admits hWants').not_mem ((h.owns j l').mp hOwner')

/-- A thread with something to do waits for one that moves, through others or not at all. -/
def Live (s : System ι ℓ) : Prop :=
  ∀ i, s.stack i ≠ [] → ∃ j, Relation.ReflTransGen (WaitsFor s) i j ∧ Moves s j

theorem Inv.live {s : System ι ℓ} (h : Inv o s) : Live s := by
  intro i hSome
  cases hWants : wants (s.stack i) with
  | some l => exact h.waits_end_of_wants hWants
  | none =>
      refine ⟨i, .refl, moves_of_free hSome ?_⟩
      rintro j ⟨l, hSomeLock, -⟩
      rw [hWants] at hSomeLock
      cases hSomeLock

/-- **Threads that keep to an order do not lock each other out**, in any interleaving. -/
theorem waits_end {code : ι → Code ℓ} (h : ∀ i, (code i).Ordered o []) (moves : List (Move ι)) :
    Always step (fun s => Exclusive s ∧ Live s) (start code) moves := by
  have hInv : Always step (Inv o) (start code) moves :=
    always_of_invariant (fun _ m hs _ => inv_step hs m) (inv_start h) (everyStep_true _ moves)
  exact hInv.imp fun s hs => ⟨hs.exclusive, hs.live⟩

end Steps

end Mgd.Lib.Locks
