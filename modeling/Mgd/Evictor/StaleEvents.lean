import Mathlib.Algebra.Order.Group.Nat
import Mgd.Lib.Run

/-!
# Stale pressure events

The evictor waits for pressure events at Normal and sleeps above it.  Two
sources serve the wait: `PsiTrigger` polls the kernel trigger, which holds one
event until a poll takes it; `PsiSubprocess` reads a pipe, into which
`mgd-psi-trigger` has written a byte for every event and from which a wait takes
one byte.

While the loop sleeps nobody reads the pipe.  `staleWaits_agree_iff` says when
the two sources still agree on the events from before a return to Normal.
-/

namespace Mgd.Evictor.StaleEvents

open Mgd.Lib.Run

universe u

/-! ## The wait sources -/

/-- What the kernel tells a wait about the events, which are numbered. -/
structure Source (σ : Type u) where
  armed : σ
  fire : σ → Nat → σ
  /-- what is left, and the event the wait returns for; `none` is a timeout -/
  wait : σ → σ × Option Nat

/-- The kernel trigger: at most one pending event, the first since the last poll. -/
def psiTrigger : Source (Option Nat) where
  armed := none
  fire := fun pending event => pending.or (some event)
  wait := fun pending => (none, pending)

/-- The pipe of the helper: a byte for each event, one byte read a wait. -/
def psiSubprocess : Source (List Nat) where
  armed := []
  fire := fun pipe event => pipe ++ [event]
  wait := fun pipe => (pipe.tail, pipe.head?)

/-! ## The loop -/

/-- An event, one iteration of the loop, or a change of its level. -/
inductive Op
  | fire
  | iterate
  | rise
  | fall
deriving DecidableEq

/-- The loop: whether the level is above Normal, the source, and the number of
the next event. -/
structure Feed (σ : Type u) where
  elevated : Bool
  source : σ
  fired : Nat
deriving DecidableEq

variable {σ : Type u} (src : Source σ)

def Feed.new : Feed σ where
  elevated := false
  source := src.armed
  fired := 0

/-- At Normal an iteration waits; above it sleeps 5 s and does not wait. -/
def step (f : Feed σ) : Op → Feed σ
  | .fire => { f with source := src.fire f.source f.fired, fired := f.fired + 1 }
  | .iterate => if f.elevated then f else { f with source := (src.wait f.source).1 }
  | .rise => { f with elevated := true }
  | .fall => { f with elevated := false }

/-- The event a step returns from its wait for. -/
def returned (f : Feed σ) : Op → Option Nat
  | .iterate => if f.elevated then none else (src.wait f.source).2
  | _ => none

/-- The state at a return to Normal. -/
def atReturn (before : List Op) : Feed σ := run (step src) (Feed.new src) (before ++ [.fall])

/-- A wait returned for an event before the given number. -/
def isStale (bound : Nat) (event : Option Nat) : Bool := event.any fun n => decide (n < bound)

/-- Waits of a stretch that return for an event before the given number. -/
def staleFrom (bound : Nat) (f : Feed σ) : List Op → Nat
  | [] => 0
  | op :: rest =>
      (isStale bound (returned src f op)).toNat + staleFrom bound (step src f op) rest

/-- Waits after a return to Normal that return for an event from before it. -/
def staleWaits (before after : List Op) : Nat :=
  staleFrom src (atReturn src before).fired (atReturn src before) after

/-- The iterations of a stretch that wait. -/
def waitsFrom (elevated : Bool) : List Op → Nat
  | [] => 0
  | .fire :: rest => waitsFrom elevated rest
  | .iterate :: rest => (!elevated).toNat + waitsFrom elevated rest
  | .rise :: rest => waitsFrom true rest
  | .fall :: rest => waitsFrom false rest

def waitsAfter (after : List Op) : Nat := waitsFrom false after

/-! ## Draining what is held -/

/-- How a source holds the events before a bound: new events leave the number
alone, and a wait returns for one of them while there are any. -/
structure Drains (bound : Nat) (Holds : Nat → σ → Prop) : Prop where
  fire : ∀ k s event, bound ≤ event → Holds k s → Holds k (src.fire s event)
  empty : ∀ s, Holds 0 s → Holds 0 (src.wait s).1 ∧ isStale bound (src.wait s).2 = false
  next : ∀ k s, Holds (k + 1) s → Holds k (src.wait s).1 ∧ isStale bound (src.wait s).2 = true

variable {src}

/-- Each wait takes one of the events held, as long as there are any. -/
theorem Drains.staleFrom_eq {bound : Nat} {Holds : Nat → σ → Prop}
    (h : Drains src bound Holds) {k : Nat} {f : Feed σ} (hHolds : Holds k f.source)
    (hFired : bound ≤ f.fired) (ops : List Op) :
    staleFrom src bound f ops = min k (waitsFrom f.elevated ops) := by
  induction ops generalizing k f with
  | nil => exact (Nat.min_zero k).symm
  | cons op rest ih =>
      cases op with
      | fire =>
          have hNext := h.fire k f.source f.fired hFired hHolds
          have hRest := @ih k (step src f .fire) hNext (Nat.le_succ_of_le hFired)
          show 0 + staleFrom src bound (step src f .fire) rest = _
          rw [hRest, Nat.zero_add]
          rfl
      | iterate =>
          cases hLevel : f.elevated with
          | true =>
              have hStep : step src f .iterate = f := if_pos hLevel
              have hNone : returned src f .iterate = none := if_pos hLevel
              rw [staleFrom, hStep, hNone, ih hHolds hFired, hLevel]
              simp [isStale, waitsFrom]
          | false =>
              have hNormal : ¬ f.elevated = true := by rw [hLevel]; decide
              have hStep : step src f .iterate = { f with source := (src.wait f.source).1 } :=
                if_neg hNormal
              have hEvent : returned src f .iterate = (src.wait f.source).2 := if_neg hNormal
              rw [staleFrom, hStep, hEvent]
              cases k with
              | zero =>
                  obtain ⟨hNext, hFresh⟩ := h.empty f.source hHolds
                  rw [hFresh, @ih 0 { f with source := _ } hNext hFired]
                  simp
              | succ k =>
                  obtain ⟨hNext, hStale⟩ := h.next k f.source hHolds
                  rw [hStale, @ih k { f with source := _ } hNext hFired]
                  simp only [waitsFrom, hLevel, Bool.not_false, Bool.toNat_true]
                  omega
      | rise =>
          show 0 + staleFrom src bound (step src f .rise) rest = _
          rw [@ih k (step src f .rise) hHolds hFired, Nat.zero_add]
          rfl
      | fall =>
          show 0 + staleFrom src bound (step src f .fall) rest = _
          rw [@ih k (step src f .fall) hHolds hFired, Nat.zero_add]
          rfl

/-- The trigger holds its pending event. -/
theorem psiTrigger_drains (bound : Nat) :
    Drains psiTrigger bound fun k pending =>
      (k = 0 ∧ isStale bound pending = false) ∨ (k = 1 ∧ isStale bound pending = true) where
  fire := by
    intro k pending event hNew h
    cases pending with
    | none =>
        have hFresh : ¬ event < bound := Nat.not_lt_of_le hNew
        simpa [psiTrigger, isStale, hFresh] using h
    | some old => exact h
  empty := by
    intro pending h
    cases h with
    | inl hNone => exact ⟨Or.inl ⟨rfl, rfl⟩, hNone.2⟩
    | inr hOne => exact absurd hOne.1 (by decide)
  next := by
    intro k pending h
    cases h with
    | inl hNone => exact absurd hNone.1 (Nat.succ_ne_zero k)
    | inr hOne => exact ⟨Or.inl ⟨Nat.succ.inj hOne.1, rfl⟩, hOne.2⟩

/-- The pipe holds the bytes at its head. -/
theorem psiSubprocess_drains (bound : Nat) :
    Drains psiSubprocess bound fun k pipe =>
      ∃ old new, pipe = old ++ new ∧ old.length = k ∧ (∀ n ∈ old, n < bound) ∧
        ∀ n ∈ new, bound ≤ n where
  fire := by
    intro k pipe event hNew h
    obtain ⟨old, new, rfl, hLength, hOld, hFresh⟩ := h
    refine ⟨old, new ++ [event], List.append_assoc old new [event], hLength, hOld, ?_⟩
    intro n hn
    cases List.mem_append.mp hn with
    | inl hBefore => exact hFresh n hBefore
    | inr hLast =>
        rw [List.mem_singleton.mp hLast]
        exact hNew
  empty := by
    intro pipe h
    obtain ⟨old, new, rfl, hLength, hOld, hFresh⟩ := h
    rw [List.length_eq_zero_iff.mp hLength, List.nil_append]
    refine ⟨⟨[], new.tail, rfl, rfl, fun n hn => absurd hn List.not_mem_nil,
      fun n hn => hFresh n (List.mem_of_mem_tail hn)⟩, ?_⟩
    cases new with
    | nil => rfl
    | cons n rest =>
        have hNotStale : ¬ n < bound := Nat.not_lt_of_le (hFresh n List.mem_cons_self)
        simp [psiSubprocess, isStale, hNotStale]
  next := by
    intro k pipe h
    obtain ⟨old, new, rfl, hLength, hOld, hFresh⟩ := h
    cases old with
    | nil => exact absurd hLength (Nat.succ_ne_zero k).symm
    | cons n rest =>
        refine ⟨⟨rest, new, rfl, Nat.succ.inj hLength,
          fun m hm => hOld m (List.mem_cons_of_mem n hm), hFresh⟩, ?_⟩
        simp [psiSubprocess, isStale, hOld n List.mem_cons_self]

/-! ## The two sources side by side -/

/-- Both sources have served the same loop. -/
structure Paired (t : Feed (Option Nat)) (p : Feed (List Nat)) : Prop where
  elevated : t.elevated = p.elevated
  fired : t.fired = p.fired
  pendingFired : ∀ n, t.source = some n → n < t.fired
  unreadFired : ∀ n ∈ p.source, n < p.fired
  unread : t.source.isSome = true → p.source ≠ []

theorem Paired.step {t : Feed (Option Nat)} {p : Feed (List Nat)} (h : Paired t p) (op : Op) :
    Paired (step psiTrigger t op) (step psiSubprocess p op) := by
  cases op with
  | fire =>
      refine ⟨h.elevated, congrArg (· + 1) h.fired, fun n hn => ?_, fun n hn => ?_, fun _ => ?_⟩
      · cases hPending : t.source with
        | none =>
            have hEvent : t.fired = n := by
              simpa [StaleEvents.step, psiTrigger, hPending] using hn
            exact hEvent ▸ Nat.lt_succ_self n
        | some old =>
            have hOld : old = n := by
              simpa [StaleEvents.step, psiTrigger, hPending] using hn
            exact Nat.lt_succ_of_lt (h.pendingFired n (hOld ▸ hPending))
      · cases List.mem_append.mp hn with
        | inl hBefore => exact Nat.lt_succ_of_lt (h.unreadFired n hBefore)
        | inr hLast =>
            rw [List.mem_singleton.mp hLast]
            exact Nat.lt_succ_self p.fired
      · exact List.append_ne_nil_of_right_ne_nil _ (List.cons_ne_nil _ _)
  | iterate =>
      cases hLevel : t.elevated with
      | true =>
          have hTrigger : StaleEvents.step psiTrigger t .iterate = t := if_pos hLevel
          have hPipe : StaleEvents.step psiSubprocess p .iterate = p :=
            if_pos (h.elevated ▸ hLevel)
          rw [hTrigger, hPipe]
          exact h
      | false =>
          have hTrigger : StaleEvents.step psiTrigger t .iterate = { t with source := none } :=
            if_neg (Bool.eq_false_iff.mp hLevel)
          have hPipe : StaleEvents.step psiSubprocess p .iterate =
              { p with source := p.source.tail } :=
            if_neg (Bool.eq_false_iff.mp (h.elevated ▸ hLevel))
          rw [hTrigger, hPipe]
          exact ⟨h.elevated, h.fired, fun n hn => (by cases hn),
            fun n hn => h.unreadFired n (List.mem_of_mem_tail hn), fun hn => Bool.noConfusion hn⟩
  | rise => exact ⟨rfl, h.fired, h.pendingFired, h.unreadFired, h.unread⟩
  | fall => exact ⟨rfl, h.fired, h.pendingFired, h.unreadFired, h.unread⟩

theorem Paired.run {t : Feed (Option Nat)} {p : Feed (List Nat)} (h : Paired t p)
    (ops : List Op) :
    Paired (run (StaleEvents.step psiTrigger) t ops)
      (run (StaleEvents.step psiSubprocess) p ops) := by
  induction ops generalizing t p with
  | nil => exact h
  | cons op rest ih => exact ih (h.step op)

theorem paired_new : Paired (Feed.new psiTrigger) (Feed.new psiSubprocess) where
  elevated := rfl
  fired := rfl
  pendingFired := fun _ hn => (by cases hn)
  unreadFired := fun _ hn => absurd hn List.not_mem_nil
  unread := fun hn => Bool.noConfusion hn

/-- Events pending at the trigger at a return to Normal. -/
def pendingAt (before : List Op) : Nat := (atReturn psiTrigger before).source.isSome.toNat

/-- Bytes unread in the pipe at a return to Normal. -/
def unreadAt (before : List Op) : Nat := (atReturn psiSubprocess before).source.length

theorem atReturn_elevated (src : Source σ) (before : List Op) :
    (atReturn src before).elevated = false := by
  have hRun : ∀ (ops : List Op) (f : Feed σ),
      (run (step src) f (ops ++ [.fall])).elevated = false := by
    intro ops
    induction ops with
    | nil => exact fun _ => rfl
    | cons op rest ih => exact fun f => ih (step src f op)
  exact hRun before (Feed.new src)

theorem staleWaits_psiTrigger (before after : List Op) :
    staleWaits psiTrigger before after = min (pendingAt before) (waitsAfter after) := by
  have hPaired := paired_new.run (before ++ [.fall])
  have hHolds : (pendingAt before = 0 ∧
        isStale (atReturn psiTrigger before).fired (atReturn psiTrigger before).source = false) ∨
      (pendingAt before = 1 ∧
        isStale (atReturn psiTrigger before).fired (atReturn psiTrigger before).source = true) := by
    unfold pendingAt
    cases hPending : (atReturn psiTrigger before).source with
    | none => exact Or.inl ⟨rfl, rfl⟩
    | some n =>
        have hFired : n < (atReturn psiTrigger before).fired := hPaired.pendingFired n hPending
        exact Or.inr ⟨rfl, by simp [isStale, hFired]⟩
  have hStale := (psiTrigger_drains _).staleFrom_eq hHolds (Nat.le_refl _) after
  rw [atReturn_elevated] at hStale
  exact hStale

theorem staleWaits_psiSubprocess (before after : List Op) :
    staleWaits psiSubprocess before after = min (unreadAt before) (waitsAfter after) := by
  have hPaired := paired_new.run (before ++ [.fall])
  have hStale := (psiSubprocess_drains (atReturn psiSubprocess before).fired).staleFrom_eq
    ⟨(atReturn psiSubprocess before).source, [], (List.append_nil _).symm, rfl,
      hPaired.unreadFired, fun n hn => absurd hn List.not_mem_nil⟩ (Nat.le_refl _) after
  rw [atReturn_elevated] at hStale
  exact hStale

/--
**When the two sources agree on stale events.**  After a return to Normal the
same number of waits return for events from before it, and at most one does,
exactly when the pipe holds no more unread bytes than the trigger has pending
events, or no more waits than that follow.
-/
theorem staleWaits_agree_iff (before after : List Op) :
    (staleWaits psiSubprocess before after = staleWaits psiTrigger before after ∧
        staleWaits psiSubprocess before after ≤ 1) ↔
      unreadAt before ≤ pendingAt before ∨ waitsAfter after ≤ pendingAt before := by
  have hUnread : 0 < pendingAt before → 0 < unreadAt before := by
    intro hPending
    have hPaired := paired_new.run (before ++ [.fall])
    refine List.length_pos_iff.mpr (hPaired.unread ?_)
    exact Bool.toNat_eq_one.mp (Nat.le_antisymm (Bool.toNat_le _) hPending)
  have hOne : pendingAt before ≤ 1 := Bool.toNat_le _
  rw [staleWaits_psiTrigger, staleWaits_psiSubprocess]
  omega

/-! ## Events that are read in time -/

/-- An event finds the pipe read out. -/
def FindsEmpty (p : Feed (List Nat)) (op : Op) : Prop := op = .fire → p.source = []

/-- With every event read before the next, the two sources agree at every
return. -/
theorem unreadAt_le_pendingAt {before : List Op}
    (h : EveryStep (step psiSubprocess) FindsEmpty (Feed.new psiSubprocess) before) :
    unreadAt before ≤ pendingAt before := by
  have hRun : ∀ (ops : List Op) (t : Feed (Option Nat)) (p : Feed (List Nat)),
      t.elevated = p.elevated → p.source.length ≤ t.source.isSome.toNat →
      EveryStep (step psiSubprocess) FindsEmpty p ops →
      (run (step psiSubprocess) p (ops ++ [.fall])).source.length ≤
        (run (step psiTrigger) t (ops ++ [.fall])).source.isSome.toNat := by
    intro ops
    induction ops with
    | nil => exact fun _ _ _ hHeld _ => hHeld
    | cons op rest ih =>
        intro t p hLevel hHeld hEvery
        refine ih _ _ ?_ ?_ hEvery.2
        · cases op with
          | fire => exact hLevel
          | iterate =>
              unfold step
              rw [hLevel]
              dsimp only
              split
              · exact hLevel
              · rfl
          | rise => rfl
          | fall => rfl
        · cases op with
          | fire =>
              have hEmpty : p.source = [] := hEvery.1 rfl
              cases hPending : t.source <;>
                simp [step, psiTrigger, psiSubprocess, hEmpty, hPending]
          | iterate =>
              unfold step
              rw [hLevel]
              dsimp only
              split
              · exact hHeld
              · have hOne : t.source.isSome.toNat ≤ 1 := Bool.toNat_le _
                have hTail := @List.length_tail _ p.source
                show p.source.tail.length ≤ 0
                omega
          | rise => exact hHeld
          | fall => exact hHeld
  exact hRun before _ _ rfl (Nat.le_refl 0) h

/-! ## Two events while the loop sleeps -/

/-- The pipe wakes two waits after the return, the trigger one. -/
theorem staleWaits_disagree :
    ¬ ∀ before after : List Op,
      staleWaits psiSubprocess before after = staleWaits psiTrigger before after ∧
        staleWaits psiSubprocess before after ≤ 1 := by
  intro hAll
  have hStale := (hAll [.rise, .fire, .fire] [.iterate, .iterate]).2
  exact absurd hStale (by decide)

end Mgd.Evictor.StaleEvents
