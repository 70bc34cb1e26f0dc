import Mathlib.Data.Int.ModEq
import Mathlib.Logic.Function.Basic

set_option autoImplicit false

namespace Lssvc.Foundation

variable {Item : Type}

-- A ring of `capacity` slots that has seen the items at positions 0 .. last and
-- keeps the newest of them, each in the slot of its position.
structure Window (capacity : Nat) (position : Item → Int) (slots : Nat → Option Item) (last : Int) : Prop where
  filled : ∀ index, 0 ≤ index → index ≤ last → last < index + capacity →
    ∃ item, slots (index % capacity).toNat = some item ∧ position item = index
  held : ∀ slot item, slots slot = some item →
    0 ≤ position item ∧ position item ≤ last ∧ last < position item + capacity ∧
      (position item % capacity).toNat = slot

theorem window_empty (capacity : Nat) (position : Item → Int) : Window capacity position (fun _ => none) (-1) where
  filled := fun index low high _ => by omega
  held := fun slot item impossible => by cases impossible

theorem same_slot (capacity : Nat) (left right : Int) (positive : 0 < capacity)
    (same : (left % capacity).toNat = (right % capacity).toNat) (above : left < right + capacity)
    (below : right < left + capacity) : left = right := by
  have nonzero : (capacity : Int) ≠ 0 := Int.natCast_ne_zero.mpr (Nat.ne_of_gt positive)
  have residues : left % capacity = right % capacity := by
    have leftLow := Int.emod_nonneg left nonzero
    have rightLow := Int.emod_nonneg right nonzero
    omega
  have divides : (capacity : Int) ∣ right - left := (Int.ModEq.dvd residues)
  have small : |right - left| < capacity := abs_lt.mpr ⟨by omega, by omega⟩
  have zero := Int.eq_zero_of_abs_lt_dvd divides small
  omega

theorem window_push {capacity : Nat} {position : Item → Int} {slots : Nat → Option Item} {last : Int}
    (positive : 0 < capacity) (begun : -1 ≤ last) (window : Window capacity position slots last) (item : Item)
    (next : position item = last + 1) :
    Window capacity position (Function.update slots ((last + 1) % capacity).toNat (some item)) (last + 1) := by
  refine ⟨?_, ?_⟩
  · intro index low high recent
    by_cases newest : index = last + 1
    · subst newest
      exact ⟨item, Function.update_self _ _ _, next⟩
    · have different : (index % capacity).toNat ≠ ((last + 1) % capacity).toNat := fun same =>
        newest (same_slot capacity index (last + 1) positive same (by omega) (by omega))
      rw [Function.update_of_ne different]
      exact window.filled index low (by omega) (by omega)
  · intro slot kept found
    by_cases newest : slot = ((last + 1) % capacity).toNat
    · subst newest
      rw [Function.update_self] at found
      cases found
      exact ⟨by omega, by omega, by omega, by rw [next]⟩
    · rw [Function.update_of_ne newest] at found
      obtain ⟨low, high, recent, place⟩ := window.held slot kept found
      refine ⟨low, by omega, ?_, place⟩
      by_cases turned : last + 1 < position kept + capacity
      · exact turned
      · -- it would be one turn behind the new item, in the slot just overwritten
        have behind : position kept + capacity = last + 1 := by omega
        rw [← behind, Int.add_emod_right, place] at newest
        exact absurd rfl newest

theorem window_read {capacity : Nat} {position : Item → Int} {slots : Nat → Option Item} {last : Int}
    (positive : 0 < capacity) (window : Window capacity position slots last) (index : Int) (low : 0 ≤ index)
    (high : index ≤ last) :
    ∃ item, slots (index % capacity).toNat = some item ∧ (last < index + capacity → position item = index) ∧
      (index + capacity ≤ last → index < position item) := by
  by_cases recent : last < index + capacity
  · obtain ⟨item, found, place⟩ := window.filled index low high recent
    exact ⟨item, found, fun _ => place, fun old => absurd recent (Int.not_lt.mpr old)⟩
  · have bound : (0 : Int) < capacity := Int.natCast_pos.mpr positive
    have part := Int.emod_nonneg (last - index) (Int.ne_of_gt bound)
    have small := Int.emod_lt_of_pos (last - index) bound
    obtain ⟨item, found, place⟩ := window.filled (last - (last - index) % capacity) (by omega) (by omega) (by omega)
    have same : (last - (last - index) % capacity) % capacity = index % capacity := by
      rw [Int.sub_emod, Int.emod_emod, ← Int.sub_emod, Int.sub_sub_self]
    rw [same] at found
    exact ⟨item, found, fun young => absurd young recent, fun old => by omega⟩

end Lssvc.Foundation
