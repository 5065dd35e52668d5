import Mathlib.Data.Nat.Log
import Mathlib.Tactic.Linarith

/-!
# Single precision

Natural numbers that fit the significand of a `float`. The product of two positive single-precision
numbers is the product of their significands, rounded to 24 bits, and a power of two; the sizes here
are far from the limits of the exponent, so that only the significand is kept.
-/

namespace MiniRtc

/-- The bits of a number that do not fit a significand. -/
def excessBits (n : Nat) : Nat :=
  Nat.log2 n + 1 - 24

/-- Rounding to 24 significant bits, to the nearest and ties to even. -/
def roundToSingle (n : Nat) : Nat :=
  let unit := 2 ^ excessBits n
  let quotient := n / unit
  let rest := n % unit
  if unit < 2 * rest ∨ unit = 2 * rest ∧ quotient % 2 = 1 then (quotient + 1) * unit
  else quotient * unit

/-- `std::llround` of a number with so many binary places, half away from zero. -/
def llround (significand places : Nat) : Nat :=
  (2 * significand + 2 ^ places) / 2 ^ (places + 1)

/-- A number has 24 bits in front of its excess. -/
theorem excess_le (n : Nat) (h : excessBits n ≠ 0) : 2 ^ 23 * 2 ^ excessBits n ≤ n := by
  have hlog : Nat.log2 n = 23 + excessBits n := by
    unfold excessBits at h ⊢
    omega
  have hpos : n ≠ 0 := by
    intro hzero
    rw [hzero, Nat.log2_zero] at hlog
    omega
  rw [← Nat.pow_add, ← hlog]
  exact Nat.log2_self_le hpos

/-- Rounding moves a number by half a unit of its last place at most. -/
theorem round_to_single_near (n : Nat) :
    2 ^ 24 * roundToSingle n ≤ (2 ^ 24 + 1) * n ∧ (2 ^ 24 - 1) * n ≤ 2 ^ 24 * roundToSingle n := by
  have hdivision := Nat.div_add_mod n (2 ^ excessBits n)
  have hrest := Nat.mod_lt n (Nat.two_pow_pos (excessBits n))
  by_cases hexcess : excessBits n = 0
  · have hexact : roundToSingle n = n := by
      unfold roundToSingle
      simp [hexcess, Nat.mod_one]
    rw [hexact]
    omega
  · have hbits := excess_le n hexcess
    unfold roundToSingle
    simp only
    split_ifs with hup
    · rw [Nat.add_mul, Nat.one_mul, Nat.mul_comm (n / _)]
      omega
    · rw [Nat.mul_comm (n / _)]
      omega

/-- So does rounding to an integer. -/
theorem llround_near (significand places : Nat) :
    2 * (2 ^ places * llround significand places) ≤ 2 * significand + 2 ^ places ∧
      2 * significand < 2 * (2 ^ places * llround significand places) + 2 ^ places := by
  have hdivision := Nat.div_add_mod (2 * significand + 2 ^ places) (2 ^ (places + 1))
  have hrest := Nat.mod_lt (2 * significand + 2 ^ places) (Nat.two_pow_pos (places + 1))
  have hunit : 2 ^ (places + 1) * llround significand places =
      2 * (2 ^ places * llround significand places) := by
    rw [Nat.pow_succ, Nat.mul_comm (2 ^ places), Nat.mul_assoc]
  rw [← hunit, Nat.pow_succ] at *
  unfold llround
  rw [Nat.pow_succ] at *
  omega

end MiniRtc
