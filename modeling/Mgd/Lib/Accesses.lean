import Mathlib.Data.List.Basic

/-!
# Programs that ask a changing environment

A program makes atomic accesses one after the other, and anything may happen to
the environment between two of them.  `Program Q A α` is the tree of the
accesses of type `Q`, `A q` being the answers to `q`.  It is run against an
`env` that answers an access by its position, so two accesses of the same kind
may be answered differently.

`run` gives the result and the accesses made, each with its position.  An access
may have effects; `effects` collects those of a run.  The equations of both
follow the program, and `poll` is the loop that asks the same thing until the
answer is the wrong one.  `Only` bounds the accesses of a program whatever the
environment answers.
-/

namespace Mgd.Lib.Accesses

universe u v w x

inductive Program (Q : Type u) (A : Q → Type v) (α : Type w)
  | ret (a : α)
  | ask (q : Q) (next : A q → Program Q A α)

namespace Program

variable {Q : Type u} {A : Q → Type v} {α β : Type w}

def bind : Program Q A α → (α → Program Q A β) → Program Q A β
  | ret a, f => f a
  | ask q next, f => ask q fun a => (next a).bind f

/-- The result of a run from a position on, and its accesses. -/
def run (env : Nat → (q : Q) → A q) : Nat → Program Q A α → α × List (Nat × Q)
  | _, ret a => (a, [])
  | t, ask q next =>
      let rest := run env (t + 1) (next (env t q))
      (rest.1, (t, q) :: rest.2)

section Running

variable {env : Nat → (q : Q) → A q} {t : Nat}

def result (env : Nat → (q : Q) → A q) (t : Nat) (p : Program Q A α) : α := (p.run env t).1

/-- The position after the last access. -/
def finish (env : Nat → (q : Q) → A q) (t : Nat) (p : Program Q A α) : Nat :=
  t + (p.run env t).2.length

@[simp] theorem result_ret (a : α) : (ret a : Program Q A α).result env t = a := rfl

@[simp] theorem result_ask (q : Q) (next : A q → Program Q A α) :
    (ask q next).result env t = (next (env t q)).result env (t + 1) := rfl

@[simp] theorem finish_ret (a : α) : (ret a : Program Q A α).finish env t = t := rfl

@[simp] theorem finish_ask (q : Q) (next : A q → Program Q A α) :
    (ask q next).finish env t = (next (env t q)).finish env (t + 1) := by
  simp only [finish, run, List.length_cons]
  omega

/-- A sequence runs its second part from where the first part finished. -/
theorem run_bind (p : Program Q A α) (f : α → Program Q A β) :
    (p.bind f).run env t =
      let second := (f (p.result env t)).run env (p.finish env t)
      (second.1, (p.run env t).2 ++ second.2) := by
  induction p generalizing t with
  | ret a => rfl
  | ask q next ih =>
      simp only [bind, run, ih, result_ask, finish_ask, List.cons_append]

@[simp] theorem result_bind (p : Program Q A α) (f : α → Program Q A β) :
    (p.bind f).result env t = (f (p.result env t)).result env (p.finish env t) := by
  simp only [result, run_bind]

@[simp] theorem finish_bind (p : Program Q A α) (f : α → Program Q A β) :
    (p.bind f).finish env t = (f (p.result env t)).finish env (p.finish env t) := by
  show t + ((p.bind f).run env t).2.length = _
  rw [run_bind]
  simp only [List.length_append, finish]
  omega

/-! ## Effects -/

variable {ε : Type x} {effect : Nat → Q → List ε}

/-- The effects of the accesses of a run, in order. -/
def effects (effect : Nat → Q → List ε) (env : Nat → (q : Q) → A q) (t : Nat)
    (p : Program Q A α) : List ε :=
  (p.run env t).2.flatMap fun e => effect e.1 e.2

@[simp] theorem effects_ret (a : α) :
    (ret a : Program Q A α).effects effect env t = [] := rfl

@[simp] theorem effects_ask (q : Q) (next : A q → Program Q A α) :
    (ask q next).effects effect env t =
      effect t q ++ (next (env t q)).effects effect env (t + 1) := by
  simp only [effects, run, List.flatMap_cons]

@[simp] theorem effects_bind (p : Program Q A α) (f : α → Program Q A β) :
    (p.bind f).effects effect env t =
      p.effects effect env t ++
        (f (p.result env t)).effects effect env (p.finish env t) := by
  simp only [effects, run_bind, List.flatMap_append]

end Running

/-! ## Polling -/

section Polling

variable {env : Nat → (q : Q) → A q} {t : Nat} {q : Q} {go : A q → Bool}

/-- Ask up to `n` times, as long as the answer says to go on; whether all said so. -/
def poll (q : Q) (go : A q → Bool) : Nat → Program Q A Bool
  | 0 => ret true
  | n + 1 => ask q fun a => if go a then poll q go n else ret false

/-- The poll gets through exactly when every answer says to go on. -/
theorem result_poll_iff (n : Nat) :
    (poll q go n).result env t = true ↔ ∀ i < n, go (env (t + i) q) = true := by
  induction n generalizing t with
  | zero => simp [poll]
  | succ n ih =>
      simp only [poll, result_ask]
      rw [Nat.forall_lt_succ_left]
      cases hGo : go (env t q) with
      | false => simp
      | true =>
          have hShift : ∀ i, t + 1 + i = t + (i + 1) := by
            intro i
            omega
          simp only [if_true, ih, hShift, true_and]

/-- A poll that gets through has asked every time. -/
theorem finish_poll {n : Nat} (h : (poll q go n).result env t = true) :
    (poll q go n).finish env t = t + n := by
  induction n generalizing t with
  | zero => rfl
  | succ n ih =>
      simp only [poll, result_ask, finish_ask] at h ⊢
      cases hGo : go (env t q) with
      | false => simp [hGo] at h
      | true =>
          simp only [hGo, if_true] at h ⊢
          rw [ih h]
          omega

/-- Asking something without effects has none. -/
theorem effects_poll {ε : Type x} {effect : Nat → Q → List ε} (hSilent : ∀ t, effect t q = [])
    (n : Nat) : (poll q go n).effects effect env t = [] := by
  induction n generalizing t with
  | zero => rfl
  | succ n ih =>
      simp only [poll, effects_ask, hSilent, List.nil_append]
      split
      · exact ih
      · rfl

end Polling

/-! ## The accesses a program may make -/

/-- Every access the program may make satisfies `P`, whatever the answers. -/
def Only (P : Q → Prop) : Program Q A α → Prop
  | ret _ => True
  | ask q next => P q ∧ ∀ a, (next a).Only P

section Only

variable {P : Q → Prop}

theorem Only.bind {p : Program Q A α} {f : α → Program Q A β} (hp : p.Only P)
    (hf : ∀ a, (f a).Only P) : (p.bind f).Only P := by
  induction p with
  | ret a => exact hf a
  | ask q next ih => exact ⟨hp.1, fun a => ih a (hp.2 a)⟩

theorem only_poll {q : Q} {go : A q → Bool} (hq : P q) (n : Nat) :
    (poll q go n : Program Q A Bool).Only P := by
  induction n with
  | zero => exact trivial
  | succ n ih =>
      refine ⟨hq, ?_⟩
      intro a
      dsimp only
      split
      · exact ih
      · exact trivial

/-- The accesses of a run are among those the program may make. -/
theorem Only.of_mem_run {p : Program Q A α} (hp : p.Only P) {env : Nat → (q : Q) → A q} {t : Nat}
    {e : Nat × Q} (he : e ∈ (p.run env t).2) : P e.2 := by
  induction p generalizing t with
  | ret a => simp [run] at he
  | ask q next ih =>
      simp only [run, List.mem_cons] at he
      rcases he with rfl | he
      · exact hp.1
      · exact ih _ (hp.2 _) he

end Only

end Program

end Mgd.Lib.Accesses
