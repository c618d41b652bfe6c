import OpenJobSpec.Errors.Hierarchy
import Mathlib.Algebra.Order.Ring.Rat
import Mathlib.Algebra.Order.Group.Unbundled.Abs
import Mathlib.Tactic.Positivity

/-! # Numbers that are an int or a finite float

Arithmetic is exact, but an integer of at least 2^1024 cannot be made a float, and a
float cannot be raised to a power that is that large.
-/
namespace OpenJobSpec

inductive Number
  | int (n : ℤ)
  | float (q : ℚ)

namespace Number

def value : Number → ℚ
  | int n => n
  | float q => q

theorem nonneg_of_not_neg {n : Number} (h : ¬ n.value < 0) : 0 ≤ n.value := not_lt.mp h

/-- The first power of two that is out of range. -/
def floatLimit : ℕ := 2 ^ 1024

theorem floatLimit_pos : 0 < floatLimit := by
  rw [floatLimit]
  positivity

def tooLarge : Exn := .builtin .overflowError "int too large to convert to float"

/-- `float(number)`. -/
def toFloat : Number → Except Exn ℚ
  | int n => if floatLimit ≤ n.natAbs then .error tooLarge else .ok n
  | float q => .ok q

/-- `number * (2**exponent)`. -/
def scaled (exponent : ℕ) : Number → Except Exn Number
  | int n => .ok (int (n * 2 ^ exponent))
  | float q => if 1024 ≤ exponent then .error tooLarge else .ok (float (q * 2 ^ exponent))

/-- `min(a, b)`. -/
def smaller (a b : Number) : Number := if b.value < a.value then b else a

theorem value_smaller (a b : Number) : (a.smaller b).value = min a.value b.value := by
  unfold smaller
  by_cases h : b.value < a.value
  · rw [if_pos h, min_eq_right h.le]
  · rw [if_neg h, min_eq_left (not_lt.mp h)]

/-- A float raised to a power, both already converted. -/
def floatPow (q : ℚ) (exponent : ℤ) : Except Exn ℚ :=
  if q = 0 ∧ exponent < 0 then
    .error (.other "ZeroDivisionError" "0.0 cannot be raised to a negative power")
  else if floatLimit ≤ |q ^ exponent| then
    .error (.builtin .overflowError "(34, 'Numerical result out of range')")
  else .ok (q ^ exponent)

/-- `number ** exponent`: an int is raised as one, unless the exponent is negative. -/
def pow (base : Number) (exponent : ℤ) : Except Exn Number :=
  match base with
  | int n =>
    if 0 ≤ exponent then .ok (int (n ^ exponent.toNat))
    else do
      let q ← toFloat (int n)
      let _ ← toFloat (int exponent)
      float <$> floatPow q exponent
  | float q => do
    let _ ← toFloat (int exponent)
    float <$> floatPow q exponent

end Number

/-- `n / unit`, halves rounded to even. -/
def roundedQuotient (n unit : ℕ) : ℕ :=
  let quotient := n / unit
  let rest := n % unit
  if 2 * rest < unit ∨ 2 * rest = unit ∧ quotient % 2 = 0 then quotient else quotient + 1

/-- Half a unit past the largest float, from where an integer rounds out of range. -/
def floatOverflow : ℕ := 2 ^ 1024 - 2 ^ 970

/-- `float(n)`: the nearest number with a significand of 53 bits. -/
def PyFloat.ofInt (n : ℤ) : Except Exn PyFloat :=
  if floatOverflow ≤ n.natAbs then
    .error (.builtin .overflowError "int too large to convert to float")
  else
    let unit := 2 ^ (Nat.log2 n.natAbs + 1 - 53)
    .ok (.finite (n.sign * (roundedQuotient n.natAbs unit * unit : ℕ)))

example : PyFloat.ofInt (2 ^ 53 + 1) = .ok (.finite (2 ^ 53)) := by decide +kernel

end OpenJobSpec
