import Mathlib.Data.List.Basic
import Mgd.Lib.AssocMap

/-!
# Maps whose entries expire

A map of records that are updated field by field.  A read ignores an entry that was
not touched for `ttl`; a write drops all such entries, whatever their key, starts
from the default where its own entry is gone, and stamps the entry anew.

`fetch_foldl` shows that the keys do not see each other: a read of a key is the read
of a cell that only the writes of that key went to.  `Cell.read_recent` gives the
value of a cell whose last writes are all recent.
-/

namespace Mgd.Lib.Expiry

open Mgd.Lib.AssocMap

universe u v

variable {κ : Type u} {ν : Type v}

/-- One write: the key, what it does to the record, and when. -/
structure Write (κ : Type u) (ν : Type v) where
  key : κ
  update : ν → ν
  time : Nat

/-- A record and when it was written last. -/
abbrev Cell (ν : Type v) := Option (ν × Nat)

section Map

variable [DecidableEq κ] (ttl : Nat) (default : ν)

/-- The entries that have not expired. -/
def fresh (now : Nat) (m : Map κ (ν × Nat)) : Map κ (ν × Nat) :=
  retain (fun _ e => decide (now - e.2 < ttl)) m

def fetch (m : Map κ (ν × Nat)) (now : Nat) (k : κ) : ν :=
  match (fresh ttl now m).lookup k with
  | some e => e.1
  | none => default

def put (m : Map κ (ν × Nat)) (w : Write κ ν) : Map κ (ν × Nat) :=
  (fresh ttl w.time m).insert w.key (w.update (fetch ttl default m w.time w.key), w.time)

end Map

section Cell

variable (ttl : Nat) (default : ν)

def Cell.read (c : Cell ν) (now : Nat) : ν :=
  match c with
  | some e => if now - e.2 < ttl then e.1 else default
  | none => default

def Cell.write (c : Cell ν) (w : Write κ ν) : Cell ν :=
  some (w.update (Cell.read ttl default c w.time), w.time)

end Cell

variable {ttl : Nat} {default : ν}

/-- A cell written just now. -/
theorem Cell.read_write (c : Cell ν) (w : Write κ ν) {now : Nat} (h : now - w.time < ttl) :
    Cell.read ttl default (Cell.write ttl default c w) now =
      w.update (Cell.read ttl default c w.time) := by
  show (if now - w.time < ttl then _ else _) = _
  rw [if_pos h]

/-- While nothing expires, the writes of a cell add up. -/
theorem Cell.read_recent {writes : List (Write κ ν)} (c : Cell ν) {first : Write κ ν} {now : Nat}
    (hClock : ((first :: writes).map Write.time).Pairwise (· ≤ ·))
    (hRecent : ∀ w ∈ first :: writes, now - w.time < ttl)
    (hNow : ∀ w ∈ first :: writes, w.time ≤ now) :
    Cell.read ttl default ((first :: writes).foldl (Cell.write ttl default) c) now =
      (first :: writes).foldl (fun v w => w.update v) (Cell.read ttl default c first.time) := by
  induction writes generalizing c first with
  | nil => exact Cell.read_write c first (hRecent first (by simp))
  | cons w writes ih =>
      obtain ⟨hFirst, hRest⟩ := List.pairwise_cons.mp hClock
      have hLater : first.time ≤ w.time := hFirst w.time (by simp)
      have hNext : w.time - first.time < ttl := by
        have hOld := hRecent first (by simp)
        have hSoon := hNow w (by simp)
        omega
      rw [List.foldl_cons, ih (Cell.write ttl default c first) hRest
        (fun w' hw' => hRecent w' (List.mem_cons_of_mem first hw'))
        (fun w' hw' => hNow w' (List.mem_cons_of_mem first hw')), Cell.read_write c first hNext]
      rfl

variable [DecidableEq κ]

theorem fetch_eq_cell (m : Map κ (ν × Nat)) (now : Nat) (k : κ) :
    fetch ttl default m now k = Cell.read ttl default (m.lookup k) now := by
  unfold fetch fresh Cell.read
  rw [lookup_retain]
  cases m.lookup k with
  | none => rfl
  | some e =>
      by_cases hFresh : now - e.2 < ttl
      · simp [Option.filter, hFresh]
      · simp [Option.filter, hFresh]

/-- Dropping what has expired by now changes no later read. -/
theorem read_fresh {now later : Nat} (h : now ≤ later) (m : Map κ (ν × Nat)) (k : κ) :
    Cell.read ttl default ((fresh ttl now m).lookup k) later =
      Cell.read ttl default (m.lookup k) later := by
  unfold fresh Cell.read
  rw [lookup_retain]
  cases m.lookup k with
  | none => rfl
  | some e =>
      by_cases hFresh : now - e.2 < ttl
      · simp [Option.filter, hFresh]
      · have hLater : ¬ later - e.2 < ttl := by omega
        simp [Option.filter, hFresh, hLater]

/-- A write, as another key and its own see it. -/
theorem read_put {w : Write κ ν} {now : Nat} (h : w.time ≤ now) (m : Map κ (ν × Nat)) (k : κ)
    (c : Cell ν) (hSame : ∀ t, w.time ≤ t →
      Cell.read ttl default (m.lookup k) t = Cell.read ttl default c t) :
    Cell.read ttl default ((put ttl default m w).lookup k) now =
      Cell.read ttl default (if w.key = k then Cell.write ttl default c w else c) now := by
  unfold put
  rw [lookup_insert_eq]
  by_cases hKey : k = w.key
  · rw [if_pos hKey, if_pos hKey.symm, fetch_eq_cell, ← hKey, hSame w.time (Nat.le_refl _)]
    rfl
  · rw [if_neg hKey, if_neg (Ne.symm hKey), read_fresh h, hSame now h]

/-- **A key is a cell of its own**, for any writes of all keys in the order of the
clock. -/
theorem fetch_foldl (writes : List (Write κ ν)) (k : κ) {now : Nat}
    (hClock : (writes.map Write.time).Pairwise (· ≤ ·)) (hNow : ∀ w ∈ writes, w.time ≤ now) :
    fetch ttl default (writes.foldl (put ttl default) (∅ : Map κ (ν × Nat))) now k =
      Cell.read ttl default
        ((writes.filter fun w => decide (w.key = k)).foldl (Cell.write ttl default) none) now := by
  rw [fetch_eq_cell]
  suffices hRun : ∀ (writes : List (Write κ ν)) (m : Map κ (ν × Nat)) (c : Cell ν) (start : Nat),
      (start :: writes.map Write.time).Pairwise (· ≤ ·) →
      (∀ t, start ≤ t → Cell.read ttl default (m.lookup k) t = Cell.read ttl default c t) →
      ∀ now, start ≤ now → (∀ w ∈ writes, w.time ≤ now) →
      Cell.read ttl default ((writes.foldl (put ttl default) m).lookup k) now =
        Cell.read ttl default
          ((writes.filter fun w => decide (w.key = k)).foldl (Cell.write ttl default) c) now from
    hRun writes ∅ none 0 (List.pairwise_cons.mpr ⟨fun t _ => Nat.zero_le t, hClock⟩)
      (fun _ _ => rfl) now (Nat.zero_le now) hNow
  intro writes
  induction writes with
  | nil => exact fun m c start _ hSame now hStart _ => hSame now hStart
  | cons w writes ih =>
      intro m c start hClock hSame now hStart hNow
      obtain ⟨hFirst, hRest⟩ := List.pairwise_cons.mp hClock
      have hBegan : start ≤ w.time := hFirst w.time (by simp)
      have hWritten : ∀ t, w.time ≤ t →
          Cell.read ttl default ((put ttl default m w).lookup k) t =
            Cell.read ttl default (if w.key = k then Cell.write ttl default c w else c) t :=
        fun t ht => read_put ht m k c fun t' ht' => hSame t' (Nat.le_trans hBegan ht')
      rw [List.foldl_cons, ih (put ttl default m w) _ w.time hRest hWritten now
        (hNow w (by simp)) fun w' hw' => hNow w' (List.mem_cons_of_mem w hw')]
      by_cases hKey : w.key = k
      · rw [if_pos hKey, List.filter_cons_of_pos (by simpa using hKey)]
        rfl
      · rw [if_neg hKey, List.filter_cons_of_neg (by simpa using hKey)]

end Mgd.Lib.Expiry
