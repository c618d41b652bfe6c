import Mathlib.Data.List.DropRight
import Mathlib.Data.Nat.Log
import Mathlib.Algebra.Order.Ring.Nat

/-! # Decimal numbers that are not negative

Arithmetic rounds its results to 28 significant digits, half to even, and to the
smallest exponent. Whether a result passes the largest exponent, which takes a
million digits, is asked apart. The text of a number without an exponent depends
on its value alone.
-/
namespace OpenJobSpec

structure Decimal where
  coefficient : ℕ
  exponent : ℤ
deriving DecidableEq

namespace Decimal

/-- A coefficient without its last digits, rounded half to even. -/
def dropDigits (n digits : ℕ) : ℕ :=
  let quotient := n / 10 ^ digits
  let rest := n % 10 ^ digits
  if 2 * rest < 10 ^ digits ∨ 2 * rest = 10 ^ digits ∧ quotient % 2 = 0 then quotient
  else quotient + 1

def precision : ℕ := 28

/-- `Etiny`. -/
def smallestExponent : ℤ := -1000026

/-- How many of its last digits a number loses. -/
def excess (d : Decimal) : ℕ :=
  max (Nat.log 10 d.coefficient + 1 - precision) (smallestExponent - d.exponent).toNat

def rounded (d : Decimal) : Decimal :=
  let excess := d.excess
  ⟨dropDigits d.coefficient excess, d.exponent + excess⟩

def add (a b : Decimal) : Decimal :=
  let exponent := min a.exponent b.exponent
  rounded ⟨a.coefficient * 10 ^ (a.exponent - exponent).toNat +
    b.coefficient * 10 ^ (b.exponent - exponent).toNat, exponent⟩

def mul (a b : Decimal) : Decimal :=
  rounded ⟨a.coefficient * b.coefficient, a.exponent + b.exponent⟩

/-- `Emax`, and one. -/
def digitLimit : ℕ := 1000000

/-- A number of more digits before the point than arithmetic allows. -/
def Overflows (d : Decimal) : Prop :=
  d.coefficient ≠ 0 ∧ (digitLimit : ℤ) ≤ Nat.log 10 d.coefficient + d.exponent

instance (d : Decimal) : Decidable d.Overflows :=
  inferInstanceAs (Decidable (d.coefficient ≠ 0 ∧ _))

/-- `int(number)`. -/
def toInt (d : Decimal) : ℕ := d.coefficient * 10 ^ d.exponent.toNat / 10 ^ (-d.exponent).toNat

/-- `number == number.to_integral()`. -/
def IsIntegral (d : Decimal) : Prop :=
  10 ^ (-d.exponent).toNat ∣ d.coefficient * 10 ^ d.exponent.toNat

instance (d : Decimal) : Decidable d.IsIntegral :=
  decidable_of_iff (10 ^ (-d.exponent).toNat ∣ d.coefficient * 10 ^ d.exponent.toNat) Iff.rfl

/-- The last digits of a number, leading zeros included. -/
def lastDigits : (places n : ℕ) → List ℕ
  | 0, _ => []
  | places + 1, n => lastDigits places (n / 10) ++ [n % 10]

/-- `format(number.normalize(), "f")`. -/
def fixed (d : Decimal) : String :=
  let places := (-d.exponent).toNat
  let n := d.coefficient * 10 ^ d.exponent.toNat
  let fraction := (lastDigits places n).rdropWhile (· = 0)
  toString (n / 10 ^ places) ++
    if fraction = [] then "" else "." ++ String.ofList (fraction.map Nat.digitChar)

end Decimal

end OpenJobSpec
