import Mathlib.Data.Nat.Bitwise

/-!
# Rounding with bit operations

`MM_FAST_ROUND_UP` rounds a length up to a multiple of a power of two, with a bitwise or between two
corrections by one. On 32 bits it is the mathematical rounding up to the last multiple below
2 ^ 32, and zero from there on (`toNat_mmFastRoundUp`).
-/

namespace HalowBridge.Mmutils

/-- `MM_FAST_ROUND_UP` -/
def mmFastRoundUp (x m : UInt32) : UInt32 := ((x - 1) ||| (m - 1)) + 1

/-- The next multiple of four, on 32 bits. -/
def roundUp4 (n : ℕ) : ℕ := (n + 3) / 4 * 4 % 4294967296

theorem le_roundUp4_iff (n : ℕ) : n ≤ roundUp4 (n % 4294967296) ↔ n ≤ 4294967292 := by
  rw [roundUp4]
  omega

/-- An or with ones at the end sets them. -/
theorem or_two_pow_sub_one (n k : ℕ) : n ||| (2 ^ k - 1) = n / 2 ^ k * 2 ^ k + (2 ^ k - 1) := by
  have ones : 2 ^ k - 1 < 2 ^ k := Nat.sub_one_lt (Nat.two_pow_pos k).ne'
  rw [Nat.mul_comm, Nat.two_pow_add_eq_or_of_lt ones]
  apply Nat.eq_of_testBit_eq
  intro i
  rw [Nat.testBit_or, Nat.testBit_or, Nat.testBit_two_pow_sub_one, Nat.testBit_two_pow_mul,
    Nat.testBit_div_two_pow]
  by_cases low : i < k
  · simp [low]
  · simp [low, Nat.not_lt.mp low]

/-- An and with a shifted mask takes the shifted bits. -/
theorem and_shiftLeft (n mask k : ℕ) : n &&& (mask <<< k) = ((n >>> k) &&& mask) <<< k := by
  apply Nat.eq_of_testBit_eq
  intro i
  rw [Nat.testBit_and, Nat.testBit_shiftLeft, Nat.testBit_shiftLeft, Nat.testBit_and,
    Nat.testBit_shiftRight]
  by_cases low : k ≤ i
  · simp [low]
  · simp [low]

theorem toNat_mmFastRoundUp (x : UInt32) : (mmFastRoundUp x 4).toNat = roundUp4 x.toNat := by
  have set := or_two_pow_sub_one (x - 1).toNat 2
  have bound := x.toNat_lt
  rw [mmFastRoundUp, UInt32.toNat_add, UInt32.toNat_or]
  show (((x - 1).toNat ||| (2 ^ 2 - 1)) + 1) % _ = _
  rw [set, UInt32.toNat_sub, roundUp4]
  simp only [UInt32.toNat_one]
  omega

/-- `x & ~0x03ul` -/
theorem toNat_and_not_three (x : UInt32) : (x &&& ~~~3).toNat = x.toNat / 4 * 4 := by
  have bound := x.toNat_lt
  have mask := and_shiftLeft x.toNat (2 ^ 30 - 1) 2
  rw [Nat.and_two_pow_sub_one_eq_mod, Nat.shiftRight_eq_div_pow, Nat.shiftLeft_eq] at mask
  rw [UInt32.toNat_and]
  exact mask.trans (by omega)

end HalowBridge.Mmutils
