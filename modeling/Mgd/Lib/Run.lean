import Mathlib.Data.List.Basic

/-!
# Runs of an input-driven machine

A machine is a total step function `step : σ → ι → σ`: the environment (the
scheduler, the kernel, the clock) supplies one input per step, and an input
the machine cannot serve leaves its state alone.  A run consumes a finite
list of inputs from left to right.

Two kinds of statement are made about runs.  `Always` speaks about every
state a run visits, `EveryStep` about every step it takes, the state before
the step and the input it consumes.  The rules below reduce both to one step:

* `everyStep_of_invariant`, `always_of_invariant`: an invariant that holds
  initially and is preserved by the steps a condition admits holds along
  every run whose steps all meet the condition;
* `always_iff_everyStep`: when, under an invariant, an admitted step keeps a
  property exactly if it meets a condition, a run of admitted steps keeps the
  property throughout exactly if each of its steps meets the condition.

`logged` pairs a machine with the outputs of the steps it has taken, so that
a step may be related to the history before it.
-/

namespace Mgd.Lib.Run

universe u v w

variable {σ : Type u} {ι : Type v}

/-- The state reached from `s` by consuming the inputs in order. -/
def run (step : σ → ι → σ) (s : σ) : List ι → σ
  | [] => s
  | i :: rest => run step (step s i) rest

/-- Every step taken from `s` meets `ok`, read at the state before the step
and the input it consumes. -/
def EveryStep (step : σ → ι → σ) (ok : σ → ι → Prop) (s : σ) : List ι → Prop
  | [] => True
  | i :: rest => ok s i ∧ EveryStep step ok (step s i) rest

/-- Every state visited from `s` satisfies `P`, `s` itself included. -/
def Always (step : σ → ι → σ) (P : σ → Prop) (s : σ) : List ι → Prop
  | [] => P s
  | i :: rest => P s ∧ Always step P (step s i) rest

variable {step : σ → ι → σ} {ok : σ → ι → Prop} {P Inv : σ → Prop}

instance decidableEveryStep [∀ s i, Decidable (ok s i)] (s : σ) (is : List ι) :
    Decidable (EveryStep step ok s is) :=
  match is with
  | [] => inferInstanceAs (Decidable True)
  | i :: rest =>
      have := decidableEveryStep (step s i) rest
      inferInstanceAs (Decidable (_ ∧ _))

@[simp] theorem run_nil (s : σ) : run step s [] = s := rfl

@[simp] theorem run_cons (s : σ) (i : ι) (rest : List ι) :
    run step s (i :: rest) = run step (step s i) rest := rfl

theorem run_append (s : σ) (xs ys : List ι) :
    run step s (xs ++ ys) = run step (run step s xs) ys := by
  induction xs generalizing s with
  | nil => rfl
  | cons x xs ih => exact ih (step s x)

@[simp] theorem everyStep_nil (s : σ) : EveryStep step ok s [] := trivial

@[simp] theorem everyStep_cons (s : σ) (i : ι) (rest : List ι) :
    EveryStep step ok s (i :: rest) ↔
      ok s i ∧ EveryStep step ok (step s i) rest := Iff.rfl

theorem everyStep_append (s : σ) (xs ys : List ι) :
    EveryStep step ok s (xs ++ ys) ↔
      EveryStep step ok s xs ∧ EveryStep step ok (run step s xs) ys := by
  induction xs generalizing s with
  | nil => simp
  | cons x xs ih => simp [ih, and_assoc]

/-- A property of every step, read at a step in the middle of the run. -/
theorem EveryStep.at_split {s : σ} {pre post : List ι} {i : ι}
    (h : EveryStep step ok s (pre ++ i :: post)) : ok (run step s pre) i :=
  ((everyStep_append s pre (i :: post)).mp h).2.1

/-- Weakening the condition on the steps. -/
theorem EveryStep.imp {ok' : σ → ι → Prop} (hok : ∀ s i, ok s i → ok' s i)
    {s : σ} {is : List ι} (h : EveryStep step ok s is) :
    EveryStep step ok' s is := by
  induction is generalizing s with
  | nil => trivial
  | cons i rest ih => exact ⟨hok s i h.1, ih h.2⟩

/-- Two properties of every step. -/
theorem EveryStep.and {ok' : σ → ι → Prop} {s : σ} {is : List ι} (h : EveryStep step ok s is)
    (h' : EveryStep step ok' s is) : EveryStep step (fun s i => ok s i ∧ ok' s i) s is := by
  induction is generalizing s with
  | nil => trivial
  | cons i rest ih => exact ⟨⟨h.1, h'.1⟩, ih h.2 h'.2⟩

theorem Always.head {s : σ} {is : List ι} (h : Always step P s is) : P s := by
  cases is with
  | nil => exact h
  | cons i rest => exact h.1

/-- A property of every visited state, read at the last one. -/
theorem Always.last {s : σ} {is : List ι} (h : Always step P s is) : P (run step s is) := by
  induction is generalizing s with
  | nil => exact h
  | cons i rest ih => exact ih h.2

/-- **The invariant rule for states.**  An invariant preserved by every step
the condition admits holds in every state of a run whose steps meet it. -/
theorem always_of_invariant
    (hstep : ∀ s i, Inv s → ok s i → Inv (step s i))
    {s : σ} {is : List ι} (h0 : Inv s) (hok : EveryStep step ok s is) :
    Always step Inv s is := by
  induction is generalizing s with
  | nil => exact h0
  | cons i rest ih => exact ⟨h0, ih (hstep s i h0 hok.1) hok.2⟩

/-- **The invariant rule for steps.**  What an invariant and the condition
give at one step, they give at every step of the run. -/
theorem everyStep_of_invariant {Q : σ → ι → Prop}
    (hstep : ∀ s i, Inv s → ok s i → Inv (step s i))
    (hQ : ∀ s i, Inv s → ok s i → Q s i)
    {s : σ} {is : List ι} (h0 : Inv s) (hok : EveryStep step ok s is) :
    EveryStep step Q s is := by
  induction is generalizing s with
  | nil => trivial
  | cons i rest ih => exact ⟨hQ s i h0 hok.1, ih (hstep s i h0 hok.1) hok.2⟩

/-- **The counting rule.**  What the number of steps taken so far says about the
state holds after the whole run. -/
theorem run_of_counted {Inv : Nat → σ → Prop}
    (hstep : ∀ n s i, Inv n s → ok s i → Inv (n + 1) (step s i))
    {n : Nat} {s : σ} {is : List ι} (h0 : Inv n s) (hok : EveryStep step ok s is) :
    Inv (n + is.length) (run step s is) := by
  induction is generalizing n s with
  | nil => exact h0
  | cons i rest ih =>
      have hRest := ih (hstep n s i h0 hok.1) hok.2
      rwa [Nat.add_assoc, Nat.add_comm 1] at hRest

/-- **The exact rule for steps.**  Where an invariant of all steps makes two
conditions equivalent, a run meets one at every step exactly when it meets the
other. -/
theorem everyStep_iff_of_invariant {ok ok' : σ → ι → Prop}
    (hstep : ∀ s i, Inv s → Inv (step s i))
    (hiff : ∀ s i, Inv s → (ok s i ↔ ok' s i))
    {s : σ} (is : List ι) (h0 : Inv s) :
    EveryStep step ok s is ↔ EveryStep step ok' s is := by
  induction is generalizing s with
  | nil => exact Iff.rfl
  | cons i rest ih => exact and_congr (hiff s i h0) (ih (hstep s i h0))

theorem everyStep_true (s : σ) (is : List ι) :
    EveryStep step (fun _ _ => True) s is := by
  induction is generalizing s with
  | nil => trivial
  | cons i rest ih => exact ⟨trivial, ih (step s i)⟩

/-- A condition on the inputs alone. -/
theorem everyStep_of_forall_mem {ok : ι → Prop} {is : List ι} (h : ∀ i ∈ is, ok i) (s : σ) :
    EveryStep step (fun _ i => ok i) s is := by
  induction is generalizing s with
  | nil => trivial
  | cons i rest ih =>
      exact ⟨h i List.mem_cons_self, ih (fun j hj => h j (List.mem_cons_of_mem i hj)) (step s i)⟩

theorem Always.imp {P' : σ → Prop} (hP : ∀ s, P s → P' s) {s : σ} {is : List ι}
    (h : Always step P s is) : Always step P' s is := by
  induction is generalizing s with
  | nil => exact hP s h
  | cons i rest ih => exact ⟨hP s h.1, ih h.2⟩

/-- **The exact rule.**  Among the runs whose steps are all admitted, if under
the invariant an admitted step keeps `P` exactly when it meets the condition, a
run keeps `P` throughout exactly when each of its steps meets the condition. -/
theorem always_iff_everyStep {adm : σ → ι → Prop}
    (hstep : ∀ s i, adm s i → Inv s → P s → ok s i → Inv (step s i))
    (hexact : ∀ s i, adm s i → Inv s → P s → (P (step s i) ↔ ok s i))
    {s : σ} {is : List ι} (hadm : EveryStep step adm s is) (h0 : Inv s) (hP : P s) :
    Always step P s is ↔ EveryStep step ok s is := by
  induction is generalizing s with
  | nil => exact ⟨fun _ => trivial, fun _ => hP⟩
  | cons i rest ih =>
      constructor
      · intro h
        have hok : ok s i := (hexact s i hadm.1 h0 hP).mp h.2.head
        exact ⟨hok, (ih hadm.2 (hstep s i hadm.1 h0 hP hok) h.2.head).mp h.2⟩
      · intro h
        have hP' : P (step s i) := (hexact s i hadm.1 h0 hP).mpr h.1
        exact ⟨hP, (ih hadm.2 (hstep s i hadm.1 h0 hP h.1) hP').mpr h.2⟩

/-! ## Machines with a history -/

section Logged

variable {o : Type w}

/-- The machine together with the outputs of the steps taken so far, oldest
first. -/
def logged (step : σ → ι → σ) (out : σ → ι → o) (s : σ × List o) (i : ι) :
    σ × List o :=
  (step s.1 i, s.2 ++ [out s.1 i])

variable {out : σ → ι → o}

@[simp] theorem logged_fst (s : σ × List o) (i : ι) :
    (logged step out s i).1 = step s.1 i := rfl

@[simp] theorem logged_snd (s : σ × List o) (i : ι) :
    (logged step out s i).2 = s.2 ++ [out s.1 i] := rfl

end Logged

end Mgd.Lib.Run
