import Mgd.Lib.Decimal
import Mgd.Lib.Json

/-!
# Whole numbers as floating-point numbers

`wholeNumbers` writes a whole number with a point and a zero behind it, which is how
a floating-point number without a fraction is written below 10^16, and reads every
decimal number exactly.
-/

namespace Mgd.Lib.JsonNumbers

open Mgd.Lib.Text Mgd.Lib.TomlBasic Mgd.Lib.Decimal Mgd.Lib.Json


/-- A whole number with a point, as it is written below 10^16. -/
def wholeText (n : Nat) : List Char := (toString n).toList ++ ['.', '0']

theorem takeWhile_wholeText (n : Nat) :
    (wholeText n).takeWhile isAsciiDigit = (toString n).toList := by
  rw [wholeText, List.takeWhile_append_of_pos fun c hc => isAsciiDigit_of_mem hc,
    List.takeWhile_cons, if_neg (by decide), List.append_nil]

theorem dropWhile_wholeText (n : Nat) : (wholeText n).dropWhile isAsciiDigit = ['.', '0'] := by
  rw [wholeText, List.dropWhile_append_of_pos fun c hc => isAsciiDigit_of_mem hc,
    List.dropWhile_cons, if_neg (by decide)]

theorem head_wholeText (n : Nat) : (wholeText n).head? ≠ some '-' := by
  have hDigits : (toString n).toList.head? ≠ some '-' :=
    head_ne_minus fun c hc => isAsciiDigit_of_mem hc
  rw [wholeText, List.head?_append]
  cases hText : (toString n).toList with
  | nil => exact absurd hText (toString_ne_nil n)
  | cons c rest =>
      rw [hText] at hDigits
      exact hDigits

theorem isLiteral_wholeText (n : Nat) : isLiteral (wholeText n) = true := by
  unfold isLiteral
  split
  · next rest h => exact absurd (by rw [h]; rfl) (head_wholeText n)
  · rw [isUnsigned, takeWhile_wholeText, dropWhile_wholeText, natural_toString]
    rfl

theorem integer_wholeText (n : Nat) : integer (F := ℚ) (wholeText n) = none := by
  have hDigits : digits (wholeText n) = none := by
    rw [← Option.not_isSome_iff_eq_none]
    intro h
    have hPoint := digits_isSome h '.' (List.mem_append_right _ (by decide))
    revert hPoint
    decide
  rw [integer_of_head (head_wholeText n), natural, hDigits, ite_self]
  rfl

theorem number_wholeText (n : Nat) : number (wholeText n) = some (n : ℚ) := by
  have hDigits : digits ((toString n).toList ++ ['0']) = some (n * 10) := by
    have hAll : ∀ c ∈ (toString n).toList ++ ['0'], isAsciiDigit c = true := by
      rw [List.forall_mem_append]
      exact ⟨fun c hc => isAsciiDigit_of_mem hc, List.forall_mem_singleton.mpr rfl⟩
    rw [digits, if_neg (by simp), digitsFrom_eq hAll, Nat.ofDigitChars_append,
      toList_toString, Nat.ofDigitChars_ten_toDigits]
    exact congrArg some (Nat.mul_comm 10 n)
  unfold number
  rw [takeWhile_wholeText, dropWhile_wholeText]
  simp only [fraction, List.takeWhile_cons, show isAsciiDigit '0' = true from rfl, if_true,
    List.takeWhile_nil, List.dropWhile_cons, List.dropWhile_nil, hDigits, exponent]
  simp

/-- The whole numbers from 0 on that have a literal without an exponent. -/
def wholeNumbers : Floats ℚ where
  print x := if x.den = 1 ∧ 0 ≤ x.num ∧ x.num < 10 ^ 16 then some (wholeText x.num.toNat) else none
  read := number
  isLiteral_print := by
    intro x text h
    split at h
    · cases h
      exact isLiteral_wholeText _
    · cases h
  integer_print := by
    intro x text h
    split at h
    · cases h
      exact integer_wholeText _
    · cases h
  read_print := by
    intro x text h
    split at h
    · next hWhole =>
        cases h
        rw [number_wholeText]
        have hNum : (x.num : ℚ) = x := (Rat.den_eq_one_iff x).mp hWhole.1
        rw [← Int.cast_natCast, Int.toNat_of_nonneg hWhole.2.1, hNum]
    · cases h

end Mgd.Lib.JsonNumbers
