import Mathlib.Tactic.NormNum

set_option autoImplicit false

namespace Lssvc.Foundation

def packBinary64 (sign exponent fraction : Nat) : Nat :=
  sign * 9223372036854775808 + exponent * 4503599627370496 + fraction

-- The double of an integer of at most 53 significant bits.
def binary64OfInt (v : Int) : Nat :=
  if v = 0 then 0
  else
    packBinary64 (if v < 0 then 1 else 0) (v.natAbs.log2 + 1023)
      (v.natAbs * 4503599627370496 / 2 ^ v.natAbs.log2 - 4503599627370496)

def truncatedMagnitude (exponent fraction : Nat) : Nat :=
  if exponent = 0 then 0
  else if exponent < 1075 then (4503599627370496 + fraction) / 2 ^ (1075 - exponent)
  else (4503599627370496 + fraction) * 2 ^ (exponent - 1075)

def truncateBinary64 (bits : Nat) : Option Int :=
  let exponent := bits / 4503599627370496 % 2048
  let magnitude := truncatedMagnitude exponent (bits % 4503599627370496)
  if exponent = 2047 then none
  else some (if bits / 9223372036854775808 % 2 = 1 then -(magnitude : Int) else magnitude)

-- The conversion to an unsigned type of 64 bits, which has no meaning for what
-- that type cannot hold.
def binary64ToUint64 (bits : Nat) : Option Nat :=
  (truncateBinary64 bits).bind fun v => if 0 ≤ v ∧ v < 18446744073709551616 then some v.toNat else none

theorem log2_le (n : Nat) (exact : n ≤ 9007199254740992) : n.log2 ≤ 53 := by
  by_contra more
  by_cases zero : n = 0
  · subst zero
    exact more (by decide)
  · have low := Nat.log2_self_le zero
    have high : 2 ^ 54 ≤ 2 ^ n.log2 := Nat.pow_le_pow_right (by decide) (by omega)
    omega

theorem significand_range (n : Nat) (some' : n ≠ 0) :
    4503599627370496 ≤ n * 4503599627370496 / 2 ^ n.log2 ∧
      n * 4503599627370496 / 2 ^ n.log2 < 9007199254740992 := by
  have low := Nat.log2_self_le some'
  have high : n < 2 ^ (n.log2 + 1) := Nat.lt_log2_self
  have positive : 0 < 2 ^ n.log2 := Nat.two_pow_pos _
  rw [Nat.pow_succ] at high
  constructor
  · rw [Nat.le_div_iff_mul_le positive]
    exact Nat.mul_comm _ _ ▸ Nat.mul_le_mul_right _ low
  · rw [Nat.div_lt_iff_lt_mul positive]
    omega

theorem significand_exact (n : Nat) (small : n.log2 ≤ 53) (some' : n ≠ 0) (exact : n ≤ 9007199254740992) :
    n * 4503599627370496 / 2 ^ n.log2 * 2 ^ n.log2 = n * 4503599627370496 := by
  refine Nat.div_mul_cancel ?_
  by_cases below : n.log2 ≤ 52
  · exact Dvd.dvd.mul_left (pow_dvd_pow 2 below : 2 ^ n.log2 ∣ 2 ^ 52) n
  · have last : n.log2 = 53 := by omega
    have low := Nat.log2_self_le some'
    rw [last] at low ⊢
    have whole : n = 2 ^ 53 := by omega
    rw [whole]
    exact Nat.dvd_mul_right _ _

theorem truncated_exact (n : Nat) (some' : n ≠ 0) (exact : n ≤ 9007199254740992) :
    truncatedMagnitude (n.log2 + 1023) (n * 4503599627370496 / 2 ^ n.log2 - 4503599627370496) = n := by
  have small := log2_le n exact
  have scaled := significand_exact n small some' exact
  obtain ⟨leading, _⟩ := significand_range n some'
  rw [truncatedMagnitude, if_neg (by omega), Nat.add_sub_cancel' leading]
  generalize n * 4503599627370496 / 2 ^ n.log2 = significand at scaled
  by_cases fraction : n.log2 + 1023 < 1075
  · have split : 4503599627370496 = 2 ^ (1075 - (n.log2 + 1023)) * 2 ^ n.log2 := by
      rw [← Nat.pow_add, show 1075 - (n.log2 + 1023) + n.log2 = 52 by omega]
    rw [split, ← Nat.mul_assoc] at scaled
    rw [if_pos fraction, Nat.eq_of_mul_eq_mul_right (Nat.two_pow_pos _) scaled, Nat.mul_div_cancel _ (Nat.two_pow_pos _)]
  · have split : 2 ^ n.log2 = 2 ^ (n.log2 + 1023 - 1075) * 4503599627370496 := by
      rw [show 4503599627370496 = 2 ^ 52 by decide, ← Nat.pow_add,
        show n.log2 + 1023 - 1075 + 52 = n.log2 by omega]
    rw [split, ← Nat.mul_assoc] at scaled
    rw [if_neg fraction]
    exact Nat.eq_of_mul_eq_mul_right (by decide) scaled

theorem pack_fields (sign exponent fraction : Nat) (one : sign < 2) (eleven : exponent < 2048)
    (fits : fraction < 4503599627370496) :
    packBinary64 sign exponent fraction / 4503599627370496 % 2048 = exponent ∧
      packBinary64 sign exponent fraction % 4503599627370496 = fraction ∧
      packBinary64 sign exponent fraction / 9223372036854775808 % 2 = sign := by
  rw [packBinary64]
  omega

theorem truncate_binary64_int (v : Int) (exact : v.natAbs ≤ 9007199254740992) :
    truncateBinary64 (binary64OfInt v) = some v := by
  by_cases zero : v = 0
  · simp [zero, binary64OfInt, truncateBinary64, truncatedMagnitude]
  · have some' : v.natAbs ≠ 0 := by omega
    have small := log2_le v.natAbs exact
    obtain ⟨leading, below⟩ := significand_range v.natAbs some'
    obtain ⟨exponent, fraction, sign⟩ := pack_fields (if v < 0 then 1 else 0) (v.natAbs.log2 + 1023)
      (v.natAbs * 4503599627370496 / 2 ^ v.natAbs.log2 - 4503599627370496) (by split <;> decide) (by omega) (by omega)
    rw [binary64OfInt, if_neg zero, truncateBinary64,
      exponent, fraction, sign, truncated_exact v.natAbs some' exact, if_neg (by omega)]
    by_cases negative : v < 0
    · rw [if_pos (if_pos negative)]
      exact congrArg some (by omega)
    · rw [if_neg (by rw [if_neg negative]; decide)]
      exact congrArg some (by omega)

theorem binary64_to_uint64_int (v : Int) (exact : v.natAbs ≤ 9007199254740992) :
    binary64ToUint64 (binary64OfInt v) = if 0 ≤ v then some v.toNat else none := by
  rw [binary64ToUint64, truncate_binary64_int v exact]
  change (if 0 ≤ v ∧ v < 18446744073709551616 then some v.toNat else none) = _
  by_cases natural : 0 ≤ v
  · rw [if_pos natural, if_pos ⟨natural, by omega⟩]
  · rw [if_neg natural, if_neg fun both => natural both.1]

theorem binary64_int_lt (v : Int) (exact : v.natAbs ≤ 9007199254740992) :
    binary64OfInt v < 18446744073709551616 := by
  rw [binary64OfInt]
  by_cases zero : v = 0
  · rw [if_pos zero]
    decide
  · have small := log2_le v.natAbs exact
    obtain ⟨leading, below⟩ := significand_range v.natAbs (by omega)
    rw [if_neg zero, packBinary64]
    split <;> omega

theorem binary64_int_high (v : Int) :
    binary64OfInt v = 0 ∨ 4607182418800017408 ≤ binary64OfInt v := by
  rw [binary64OfInt]
  by_cases zero : v = 0
  · exact .inl (if_pos zero)
  · rw [if_neg zero, packBinary64]
    refine .inr ?_
    omega

theorem binary64_to_uint64_tiny (bits : Nat) (tiny : bits < 72057594037927936) : binary64ToUint64 bits = some 0 := by
  have low : bits / 4503599627370496 % 2048 < 16 := by omega
  have none : truncatedMagnitude (bits / 4503599627370496 % 2048) (bits % 4503599627370496) = 0 := by
    rw [truncatedMagnitude]
    by_cases zero : bits / 4503599627370496 % 2048 = 0
    · exact if_pos zero
    · have large : 2 ^ 53 ≤ 2 ^ (1075 - bits / 4503599627370496 % 2048) :=
        Nat.pow_le_pow_right (by decide) (by omega)
      rw [if_neg zero, if_pos (by omega)]
      exact Nat.div_eq_of_lt (by omega)
  have positive : bits / 9223372036854775808 % 2 ≠ 1 := by omega
  rw [binary64ToUint64, truncateBinary64, none, if_neg (by omega), if_neg positive]
  rfl

end Lssvc.Foundation
