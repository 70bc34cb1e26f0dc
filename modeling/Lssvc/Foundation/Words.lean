set_option autoImplicit false

namespace Lssvc.Foundation

-- What a 32-bit signed register holds after the assignment of an arbitrary
-- integer, and what an unsigned one holds. Both are two's complement wraps.
def toInt32 (x : Int) : Int := (x + 2147483648) % 4294967296 - 2147483648

def toUint32 (x : Int) : Nat := (x % 4294967296).toNat

def toUint64 (x : Int) : Nat := (x % 18446744073709551616).toNat

def toInt64 (x : Int) : Int := (x + 9223372036854775808) % 18446744073709551616 - 9223372036854775808

def InInt32 (x : Int) : Prop := -2147483648 ≤ x ∧ x < 2147483648

theorem in_int32_zero : InInt32 0 := ⟨by decide, by decide⟩

theorem to_int32_exact (x : Int) (range : InInt32 x) : toInt32 x = x := by
  obtain ⟨low, high⟩ := range
  rw [toInt32]
  omega

theorem to_int32_range (x : Int) : InInt32 (toInt32 x) := by
  constructor <;> unfold toInt32 <;> omega

theorem to_uint32_exact (x : Int) (low : 0 ≤ x) (high : x < 4294967296) : (toUint32 x : Int) = x := by
  rw [toUint32]
  omega

theorem to_uint32_nat (x : Nat) (high : x < 4294967296) : toUint32 x = x := by
  rw [toUint32]
  omega

-- The unsigned image of a negative int is at least 2^31: an unsigned comparison
-- against it fails for every length that fits in an int.
theorem to_uint32_negative (x : Int) (range : InInt32 x) (negative : x < 0) : 2147483648 ≤ toUint32 x := by
  obtain ⟨low, _⟩ := range
  rw [toUint32]
  omega

theorem to_uint32_sub (a b : Nat) (le : b ≤ a) (high : a < 4294967296) :
    toUint32 ((a : Int) - (b : Int)) = a - b := by
  rw [toUint32]
  omega

theorem to_uint64_nat (x : Nat) (high : x < 18446744073709551616) : toUint64 x = x := by
  rw [toUint64]
  omega

theorem to_uint64_sub (a b : Nat) (le : b ≤ a) (high : a < 18446744073709551616) :
    toUint64 ((a : Int) - (b : Int)) = a - b := by
  rw [toUint64]
  omega

end Lssvc.Foundation
