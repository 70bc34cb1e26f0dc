import Mathlib.Data.List.GetD
import Mathlib.Data.List.Perm.Basic

set_option autoImplicit false

namespace Lssvc.Foundation

variable {Item Value : Type}

-- A queue of slots: items are put into a slot by its index, the front slot is
-- taken out and an empty one joins at the back.
def putSlot (slots : List (List Item)) (index : Nat) (item : Item) : List (List Item) :=
  slots.modify index (item :: ·)

def turnSlots (slots : List (List Item)) : List (List Item) := slots.tail ++ [[]]

def spread (value : Nat → Item → List Value) : Nat → List (List Item) → List Value
  | _, [] => []
  | index, slot :: slots => slot.flatMap (value index) ++ spread value (index + 1) slots

def AllItems (holds : Item → Prop) (slots : List (List Item)) : Prop := ∀ slot ∈ slots, ∀ item ∈ slot, holds item

@[simp] theorem put_slot_length (slots : List (List Item)) (index : Nat) (item : Item) :
    (putSlot slots index item).length = slots.length := List.length_modify ..

theorem turn_slots_length (slots : List (List Item)) (some' : slots ≠ []) :
    (turnSlots slots).length = slots.length := by
  cases slots with
  | nil => exact absurd rfl some'
  | cons slot slots => simp [turnSlots]

theorem put_slot_perm (value : Nat → Item → List Value) (slots : List (List Item)) (start index : Nat)
    (inside : index < slots.length) (item : Item) :
    (spread value start (putSlot slots index item)).Perm (value (start + index) item ++ spread value start slots) := by
  induction slots generalizing start index with
  | nil => exact absurd inside (Nat.not_lt_zero index)
  | cons slot slots ih =>
      cases index with
      | zero => simp [putSlot, spread]
      | succ index =>
          have later := ih (start + 1) index (Nat.lt_of_succ_lt_succ inside)
          rw [Nat.add_right_comm, Nat.add_assoc] at later
          refine (List.Perm.append_left (slot.flatMap (value start)) later).trans ?_
          exact List.perm_append_comm_assoc _ _ _

theorem spread_shift (before after : Nat → Item → List Value)
    (same : ∀ index item, before (index + 1) item = after index item) (start : Nat) (slots : List (List Item)) :
    spread before (start + 1) slots = spread after start slots := by
  induction slots generalizing start with
  | nil => rfl
  | cons slot slots ih =>
      have here : before (start + 1) = after start := funext (same start)
      rw [spread, spread, here, ih]

theorem spread_empty_back (value : Nat → Item → List Value) (start : Nat) (slots : List (List Item)) :
    spread value start (slots ++ [[]]) = spread value start slots := by
  induction slots generalizing start with
  | nil => rfl
  | cons slot slots ih => exact congrArg (slot.flatMap (value start) ++ ·) (ih (start + 1))

theorem spread_turn (before after : Nat → Item → List Value)
    (same : ∀ index item, before (index + 1) item = after index item) (slots : List (List Item)) :
    spread before 0 slots = (slots.headD []).flatMap (before 0) ++ spread after 0 (turnSlots slots) := by
  cases slots with
  | nil => rfl
  | cons slot slots =>
      rw [turnSlots, spread_empty_back, spread, spread_shift before after same 0]
      rfl

theorem mem_spread_at {value : Nat → Item → List Value} {slots : List (List Item)} {start : Nat} {one : Value}
    (inside : one ∈ spread value start slots) :
    ∃ index, ∃ item ∈ slots.getD index [], one ∈ value (start + index) item := by
  induction slots generalizing start with
  | nil => cases inside
  | cons slot slots ih =>
      rcases List.mem_append.mp inside with here | later
      · obtain ⟨item, inSlot, found⟩ := List.mem_flatMap.mp here
        exact ⟨0, item, inSlot, found⟩
      · obtain ⟨index, item, inSlot, found⟩ := ih later
        exact ⟨index + 1, item, inSlot, by rwa [Nat.add_right_comm] at found⟩

theorem mem_spread {value : Nat → Item → List Value} {slots : List (List Item)} {start : Nat} {one : Value}
    (inside : one ∈ spread value start slots) :
    ∃ index item, one ∈ value (start + index) item ∧ ∃ slot ∈ slots, item ∈ slot := by
  obtain ⟨index, item, inSlot, found⟩ := mem_spread_at inside
  refine ⟨index, item, found, slots.getD index [], ?_, inSlot⟩
  by_cases within : index < slots.length
  · rw [List.getD_eq_getElem _ _ within]
    exact List.getElem_mem within
  · rw [List.getD_eq_default _ _ (Nat.le_of_not_lt within)] at inSlot
    cases inSlot

theorem spread_mem (value : Nat → Item → List Value) {slots : List (List Item)} (start : Nat) {slot : List Item}
    {item : Item} (listed : slot ∈ slots) (inSlot : item ∈ slot) :
    ∃ index, ∀ one ∈ value (start + index) item, one ∈ spread value start slots := by
  induction slots generalizing start with
  | nil => cases listed
  | cons front slots ih =>
      rcases List.mem_cons.mp listed with rfl | behind
      · exact ⟨0, fun one found => List.mem_append_left _ (List.mem_flatMap.mpr ⟨item, inSlot, found⟩)⟩
      · obtain ⟨index, all⟩ := ih (start + 1) behind
        refine ⟨index + 1, fun one found => List.mem_append_right _ (all one ?_)⟩
        rwa [Nat.add_right_comm]

theorem all_items_put {holds : Item → Prop} {slots : List (List Item)} (all : AllItems holds slots) (index : Nat)
    {item : Item} (new : holds item) : AllItems holds (putSlot slots index item) := by
  induction slots generalizing index with
  | nil => cases index <;> exact all
  | cons slot slots ih =>
      obtain ⟨here, later⟩ := List.forall_mem_cons.mp all
      cases index with
      | zero => exact List.forall_mem_cons.mpr ⟨List.forall_mem_cons.mpr ⟨new, here⟩, later⟩
      | succ index => exact List.forall_mem_cons.mpr ⟨here, ih later index⟩

theorem all_items_turn {holds : Item → Prop} {slots : List (List Item)} (all : AllItems holds slots) :
    AllItems holds (turnSlots slots) ∧ ∀ item ∈ slots.headD [], holds item := by
  cases slots with
  | nil => simp [AllItems, turnSlots]
  | cons slot slots =>
      obtain ⟨here, later⟩ := List.forall_mem_cons.mp all
      refine ⟨List.forall_mem_append.mpr ⟨later, ?_⟩, here⟩
      simp

end Lssvc.Foundation
