import Mathlib.Data.List.Infix
import Mathlib.Data.List.TakeWhile

set_option autoImplicit false

namespace Lssvc.Utils

abbrev Str := List Char

-- std::string::find, counted from the front of what is searched.
def find (delim : Str) : Str → Option Nat
  | [] => if delim = [] then some 0 else none
  | c :: s => if delim <+: c :: s then some 0 else (find delim s).map (· + 1)

theorem find_inside (delim s : Str) (next : Nat) (found : find delim s = some next) :
    next + delim.length ≤ s.length := by
  induction s generalizing next with
  | nil =>
      by_cases empty : delim = []
      · rw [find, if_pos empty] at found
        cases found
        rw [empty, List.length_nil]
      · rw [find, if_neg empty] at found
        cases found
  | cons c s ih =>
      by_cases front : delim <+: c :: s
      · rw [find, if_pos front] at found
        cases found
        have length := front.length_le
        omega
      · rw [find, if_neg front] at found
        obtain ⟨later, inside, rfl⟩ := Option.map_eq_some_iff.mp found
        have length := ih later inside
        rw [List.length_cons]
        omega

-- The loop of LSSString::split. Both of its branches push the piece in front of
-- the match, an empty one as "".
def splitFrom (delim : Str) (nonempty : delim ≠ []) (acceptEmpty : Bool) (s : Str) : List Str :=
  match _found : find delim s with
  | some next => s.take next :: splitFrom delim nonempty acceptEmpty (s.drop (next + delim.length))
  | none => if s ≠ [] ∨ acceptEmpty = true then [s] else []
termination_by s.length
decreasing_by
  have inside := find_inside delim s next _found
  have positive := List.length_pos_iff.mpr nonempty
  rw [List.length_drop]
  omega

def split (s delim : Str) (acceptEmpty : Bool) : List Str :=
  if nonempty : delim ≠ [] then splitFrom delim nonempty acceptEmpty s else []

def findFirstOf (set s : Str) (pos : Nat) : Option Nat :=
  ((s.drop pos).findIdx? fun c => decide (c ∈ set)).map (· + pos)

-- The digits in front, however many there are: more than fit an int have no
-- meaning in the source.
def digitsValue (s : Str) : Nat := (s.takeWhile Char.isDigit).foldl (fun value c => 10 * value + (c.toNat - 48)) 0

def atoi (s : Str) : Int :=
  match s.dropWhile fun c => c == ' ' || decide (9 ≤ c.toNat ∧ c.toNat ≤ 13) with
  | '-' :: s => -digitsValue s
  | '+' :: s => digitsValue s
  | s => digitsValue s

theorem find_char (c : Char) (front rest : Str) (free : c ∉ front) : find [c] (front ++ c :: rest) = some front.length := by
  induction front with
  | nil =>
      rw [List.nil_append, find, if_pos (List.cons_prefix_cons.mpr ⟨rfl, List.nil_prefix⟩)]
      rfl
  | cons first front ih =>
      obtain ⟨different, later⟩ := List.ne_and_not_mem_of_not_mem_cons free
      rw [List.cons_append, find, if_neg fun front => different (List.cons_prefix_cons.mp front).1, ih later]
      rfl

theorem find_char_none (c : Char) (s : Str) (free : c ∉ s) : find [c] s = none := by
  induction s with
  | nil => rfl
  | cons first s ih =>
      obtain ⟨different, later⟩ := List.ne_and_not_mem_of_not_mem_cons free
      rw [find, if_neg fun front => different (List.cons_prefix_cons.mp front).1, ih later]
      rfl

theorem split_first (c : Char) (front rest : Str) (free : c ∉ front) :
    split (front ++ c :: rest) [c] false = front :: split rest [c] false := by
  have found := find_char c front rest free
  rw [split, dif_pos (List.cons_ne_nil c []), split, dif_pos (List.cons_ne_nil c []), splitFrom]
  split
  · rename_i next same
    cases found.symm.trans same
    rw [List.take_left, ← List.drop_drop, List.drop_left]
    rfl
  · rename_i same
    cases found.symm.trans same

theorem split_last (c : Char) (s : Str) (free : c ∉ s) (some' : s ≠ []) : split s [c] false = [s] := by
  have missing := find_char_none c s free
  rw [split, dif_pos (List.cons_ne_nil c []), splitFrom]
  split
  · rename_i next same
    cases missing.symm.trans same
  · exact if_pos (.inl some')

theorem find_first_of_here (set before front rest : Str) (c : Char) (inside : c ∈ set) (free : ∀ x ∈ front, x ∉ set) :
    findFirstOf set (before ++ (front ++ c :: rest)) before.length = some (front.length + before.length) := by
  have outside : front.findIdx? (fun c => decide (c ∈ set)) = none :=
    List.findIdx?_eq_none_iff.mpr fun x there => decide_eq_false (free x there)
  rw [findFirstOf, List.drop_left, List.findIdx?_append, outside, List.findIdx?_cons, if_pos (decide_eq_true inside)]
  simp

theorem find_first_of_char (c : Char) (front rest : Str) (free : c ∉ front) :
    findFirstOf [c] (front ++ c :: rest) 0 = some front.length :=
  find_first_of_here [c] [] front rest c (List.mem_singleton_self c) fun _ there listed =>
    free (List.mem_singleton.mp listed ▸ there)

theorem find_first_of_none (c : Char) (s : Str) (free : c ∉ s) : findFirstOf [c] s 0 = none := by
  have outside : s.findIdx? (fun x => decide (x ∈ [c])) = none :=
    List.findIdx?_eq_none_iff.mpr fun x there => decide_eq_false fun listed => free (List.mem_singleton.mp listed ▸ there)
  rw [findFirstOf, List.drop_zero, outside]
  rfl

theorem digits_value_stop (digits rest : Str) (c : Char) (all : ∀ d ∈ digits, d.isDigit = true) (stop : c.isDigit = false) :
    digitsValue (digits ++ c :: rest) = digitsValue digits := by
  rw [digitsValue, digitsValue, List.takeWhile_append_of_pos all, List.takeWhile_cons_of_neg (by rw [stop]; decide),
    List.append_nil, List.takeWhile_eq_self_iff.mpr all]

theorem digit_range (c : Char) (digit : c.isDigit = true) : 48 ≤ c.toNat ∧ c.toNat ≤ 57 := by
  rw [Char.isDigit, Bool.and_eq_true, decide_eq_true_eq, decide_eq_true_eq] at digit
  exact ⟨UInt32.le_iff_toNat_le.mp digit.1, UInt32.le_iff_toNat_le.mp digit.2⟩

theorem atoi_digits (digits rest : Str) (c : Char) (some' : digits ≠ []) (all : ∀ d ∈ digits, d.isDigit = true)
    (stop : c.isDigit = false) : atoi (digits ++ c :: rest) = digitsValue digits := by
  obtain ⟨first, digits, rfl⟩ := List.exists_cons_of_ne_nil some'
  have digit : first.isDigit = true := all first List.mem_cons_self
  have range := digit_range first digit
  have visible : (first == ' ' || decide (9 ≤ first.toNat ∧ first.toNat ≤ 13)) = false := by
    rw [Bool.or_eq_false_iff, beq_eq_false_iff_ne, decide_eq_false_iff_not]
    refine ⟨?_, by omega⟩
    rintro rfl
    exact absurd digit (by decide)
  have value := digits_value_stop (first :: digits) rest c all stop
  rw [List.cons_append] at value
  rw [atoi, List.cons_append, List.dropWhile_cons_of_neg (by rw [visible]; decide)]
  split
  · rename_i same
    cases same
    exact absurd digit (by decide)
  · rename_i same
    cases same
    exact absurd digit (by decide)
  · rw [value]

end Lssvc.Utils
