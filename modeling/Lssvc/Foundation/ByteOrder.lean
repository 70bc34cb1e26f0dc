import Mathlib.Tactic.Ring

set_option autoImplicit false

namespace Lssvc.Foundation

-- A variable of so many bytes as a little-endian host keeps it in memory, and
-- what it makes of bytes it finds there.
def hostBytes : Nat → Nat → List UInt8
  | 0, _ => []
  | width + 1, n => UInt8.ofNat n :: hostBytes width (n / 256)

def hostValue : List UInt8 → Nat
  | [] => 0
  | c :: bytes => c.toNat + 256 * hostValue bytes

def swapped (width n : Nat) : Nat := hostValue (hostBytes width n).reverse

@[simp] theorem host_bytes_length (width n : Nat) : (hostBytes width n).length = width := by
  induction width generalizing n with
  | zero => rfl
  | succ width ih => rw [hostBytes, List.length_cons, ih]

theorem host_value_lt (bytes : List UInt8) : hostValue bytes < 256 ^ bytes.length := by
  induction bytes with
  | nil => decide
  | cons c bytes ih =>
      have first := c.toNat_lt
      rw [hostValue, List.length_cons, Nat.pow_succ]
      omega

theorem host_value_append (front rest : List UInt8) :
    hostValue (front ++ rest) = hostValue front + 256 ^ front.length * hostValue rest := by
  induction front with
  | nil => rw [List.nil_append, hostValue, List.length_nil, Nat.pow_zero, Nat.one_mul, Nat.zero_add]
  | cons c front ih =>
      rw [List.cons_append, hostValue, ih, hostValue, List.length_cons]
      ring

theorem host_value_bytes (width n : Nat) (small : n < 256 ^ width) : hostValue (hostBytes width n) = n := by
  induction width generalizing n with
  | zero =>
      rw [hostBytes, hostValue]
      omega
  | succ width ih =>
      rw [Nat.pow_succ] at small
      rw [hostBytes, hostValue, ih (n / 256) (by omega), UInt8.toNat_ofNat']
      omega

theorem host_bytes_value (bytes : List UInt8) : hostBytes bytes.length (hostValue bytes) = bytes := by
  induction bytes with
  | nil => rfl
  | cons c bytes ih =>
      have first := c.toNat_lt
      have later : (c.toNat + 256 * hostValue bytes) / 256 = hostValue bytes := by omega
      have here : UInt8.ofNat (c.toNat + 256 * hostValue bytes) = c := by
        apply UInt8.toNat_inj.mp
        rw [UInt8.toNat_ofNat']
        omega
      rw [List.length_cons, hostBytes, hostValue, later, here, ih]

theorem host_bytes_add (low high n : Nat) :
    hostBytes (low + high) n = hostBytes low n ++ hostBytes high (n / 256 ^ low) := by
  induction low generalizing n with
  | zero => rw [Nat.zero_add, Nat.pow_zero, Nat.div_one, hostBytes, List.nil_append]
  | succ low ih =>
      rw [Nat.succ_add, hostBytes, hostBytes, ih, List.cons_append, Nat.div_div_eq_div_mul, Nat.pow_succ,
        Nat.mul_comm 256]

theorem host_bytes_zero (width : Nat) : hostBytes width 0 = List.replicate width 0 := by
  induction width with
  | zero => rfl
  | succ width ih => rw [hostBytes, Nat.zero_div, ih, List.replicate_succ]; rfl

theorem host_value_zero (width : Nat) : hostValue (List.replicate width 0) = 0 := by
  rw [← host_bytes_zero]
  exact host_value_bytes width 0 (Nat.pow_pos (by decide))

theorem host_bytes_swapped (width n : Nat) : hostBytes width (swapped width n) = (hostBytes width n).reverse := by
  have bytes := host_bytes_value (hostBytes width n).reverse
  rw [List.length_reverse, host_bytes_length] at bytes
  exact bytes

theorem swapped_lt (width n : Nat) : swapped width n < 256 ^ width := by
  have small := host_value_lt (hostBytes width n).reverse
  rw [List.length_reverse, host_bytes_length] at small
  exact small

theorem swapped_swapped (width n : Nat) (small : n < 256 ^ width) : swapped width (swapped width n) = n := by
  rw [swapped, host_bytes_swapped, List.reverse_reverse, host_value_bytes width n small]

theorem swapped_narrow (low high n : Nat) (small : n < 256 ^ low) :
    swapped (low + high) n = 256 ^ high * swapped low n := by
  rw [swapped, host_bytes_add, Nat.div_eq_of_lt small, host_bytes_zero, List.reverse_append, List.reverse_replicate,
    host_value_append, host_value_zero, List.length_replicate, Nat.zero_add, swapped]

end Lssvc.Foundation
