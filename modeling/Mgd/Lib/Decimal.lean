import Mathlib.Algebra.Order.Field.Rat
import Mgd.Lib.Text

/-!
# Decimal numbers in text

The value of a decimal number as programs write it: digits, a point among them
or after them, an exponent.  The value is exact.
-/

namespace Mgd.Lib.Decimal

open Mgd.Lib.Text

/-- The exponent after its letter. -/
def exponentDigits : List Char → Option Int
  | '-' :: rest => (digits rest).map fun n => -(n : Int)
  | '+' :: rest => (digits rest).map fun n => (n : Int)
  | text => (digits text).map fun n => (n : Int)

def exponent : List Char → Option Int
  | [] => some 0
  | c :: rest => if c = 'e' ∨ c = 'E' then exponentDigits rest else none

/-- The digits after a point, and what follows them. -/
def fraction : List Char → List Char × List Char
  | '.' :: rest => (rest.takeWhile isAsciiDigit, rest.dropWhile isAsciiDigit)
  | rest => ([], rest)

/-- A decimal number without a sign, with at least one digit. -/
def number (text : List Char) : Option ℚ :=
  let whole := text.takeWhile isAsciiDigit
  let (frac, rest) := fraction (text.dropWhile isAsciiDigit)
  match digits (whole ++ frac), exponent rest with
  | some n, some e => some ((n : ℚ) * 10 ^ (e - frac.length))
  | _, _ => none

example : number "12.50".toList = some (25 / 2) := by decide +kernel

example : number "5e-1".toList = number ".5".toList := by decide +kernel

example : number ".".toList = none := by decide +kernel

end Mgd.Lib.Decimal
