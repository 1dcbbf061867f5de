import Mathlib.Algebra.GroupWithZero.Nat
import Mathlib.Data.Nat.Basic

/-!
# Unit types

The newtypes shared by the whole daemon (`mgd_common::types`) and the clock
they are timed with.

* `Pid` wraps the `u32` of the source.  It is an identity, not a number: no
  arithmetic is defined on it.
* `Kb` wraps a `u64` count of kibibytes.  The bound is a field, so every value
  that can be built is one the daemon can hold, and every operation saturates
  as in the source: there is no wrapping addition and no subtraction operator.
* `Instant` is the monotonic clock in nanoseconds.  `Instant.durationSince`
  saturates at zero, as the standard library documents, and `Duration.asSecs`
  truncates.
-/

namespace Mgd.Types

/-- Process identity. -/
structure Pid where
  val : UInt32
deriving DecidableEq, Repr, Inhabited

/-- Entries with no associated process; PID 0 is never a target. -/
def Pid.none : Pid := ⟨0⟩

/-- The largest `u64`. -/
def u64Max : Nat := 2 ^ 64 - 1

/-- Memory size in kibibytes, the only stored unit. -/
structure Kb where
  val : Nat
  le_max : val ≤ u64Max
deriving DecidableEq

namespace Kb

/-- The `u64` nearest to `n`: the value a saturating operation stores. -/
def clamp (n : Nat) : Kb := ⟨min n u64Max, Nat.min_le_right n u64Max⟩

instance : Inhabited Kb := ⟨clamp 0⟩

def saturatingAdd (a b : Kb) : Kb := clamp (a.val + b.val)

def saturatingSub (a b : Kb) : Kb := clamp (a.val - b.val)

/-- `u64::saturating_mul` by 1024: the only conversion to bytes. -/
def bytes (a : Kb) : Nat := min (a.val * 1024) u64Max

/-- `pct` percent, truncated; the product saturates before the division. -/
def percentOf (a : Kb) (pct : Nat) : Kb := clamp (min (a.val * pct) u64Max / 100)

/-- `Sum for Kb`: a saturating fold. -/
def sum (xs : List Kb) : Kb := xs.foldl saturatingAdd (clamp 0)

/-- A saturating sum is the sum, up to the largest value. -/
theorem sum_val (xs : List Kb) : (sum xs).val = min (xs.map Kb.val).sum u64Max := by
  have hFold : ∀ acc : Kb,
      (xs.foldl saturatingAdd acc).val = min (acc.val + (xs.map Kb.val).sum) u64Max := by
    induction xs with
    | nil =>
        intro acc
        have hMax := acc.le_max
        simp [hMax]
    | cons x rest ih =>
        intro acc
        rw [List.foldl_cons, ih]
        simp only [List.map_cons, List.sum_cons, saturatingAdd, clamp]
        omega
  unfold sum
  rw [hFold]
  simp [clamp]

end Kb

/-- A reading of the monotonic clock, in nanoseconds. -/
abbrev Instant := Nat

/-- A span of time, in nanoseconds. -/
abbrev Duration := Nat

def nanosPerSec : Nat := 1000000000

/-- Whole seconds of a duration. -/
def Duration.asSecs (d : Duration) : Nat := d / nanosPerSec

/-- Time elapsed since an earlier reading, zero when it is not earlier. -/
def Instant.durationSince (now earlier : Instant) : Duration := now - earlier

/-- `now.duration_since(earlier).as_secs()`. -/
def Instant.secsSince (now earlier : Instant) : Nat :=
  (Instant.durationSince now earlier).asSecs

/-- A later reading is no longer ago. -/
theorem Instant.secsSince_anti {now a b : Instant} (h : a ≤ b) :
    Instant.secsSince now b ≤ Instant.secsSince now a :=
  Nat.div_le_div_right (Nat.sub_le_sub_left h now)

theorem Instant.secsSince_mono {now now' a : Instant} (h : now ≤ now') :
    Instant.secsSince now a ≤ Instant.secsSince now' a :=
  Nat.div_le_div_right (Nat.sub_le_sub_right h a)

/-- The instant `n` seconds after the start of the clock. -/
def Instant.ofSecs (n : Nat) : Instant := n * nanosPerSec

/-- `n` whole seconds have passed. -/
theorem Instant.le_secsSince_iff {now earlier : Instant} {n : Nat} (hn : 0 < n) :
    n ≤ Instant.secsSince now earlier ↔ earlier + Instant.ofSecs n ≤ now := by
  have hPos : 0 < n * nanosPerSec := Nat.mul_pos hn (by decide)
  have hDiv : n ≤ (now - earlier) / nanosPerSec ↔ n * nanosPerSec ≤ now - earlier :=
    Nat.le_div_iff_mul_le (by decide)
  have hSub : ∀ a b k : Nat, 0 < k → (k ≤ a - b ↔ b + k ≤ a) := by
    intro a b k hk
    omega
  exact hDiv.trans (hSub now earlier (n * nanosPerSec) hPos)

theorem Instant.le_secsSince {now earlier : Instant} {n : Nat}
    (h : earlier + Instant.ofSecs n ≤ now) : n ≤ Instant.secsSince now earlier := by
  cases n with
  | zero => exact Nat.zero_le _
  | succ n => exact (Instant.le_secsSince_iff n.succ_pos).mpr h

end Mgd.Types
