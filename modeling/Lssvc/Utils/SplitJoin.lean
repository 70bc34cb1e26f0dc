import Lssvc.Utils.Strings

set_option autoImplicit false

namespace Lssvc.Utils

-- The loop as it stands in the source: last is an offset into the whole string
-- and v the pieces pushed so far. None is a loop that has not come to its end.
def splitLoop (s delim : Str) (acceptEmpty : Bool) : Nat → Nat → List Str → Option (List Str)
  | 0, _, _ => none
  | fuel + 1, last, v =>
      match find delim (s.drop last) with
      | some next =>
          splitLoop s delim acceptEmpty fuel (last + (next + delim.length))
            (v ++ [if 0 < next ∨ acceptEmpty = true then (s.drop last).take next else []])
      | none => some (if last < s.length ∨ acceptEmpty = true then v ++ [s.drop last] else v)

inductive Matched (delim : Str) : Str → Nat → Prop where
  | first (s : Str) (next : Nat) (found : find delim s = some next) : Matched delim s next
  | later (s : Str) (next after : Nat) (found : find delim s = some next)
      (rest : Matched delim (s.drop (next + delim.length)) after) : Matched delim s (next + delim.length + after)

theorem find_none (delim s : Str) (missing : find delim s = none) : ¬ delim <:+: s := by
  induction s with
  | nil =>
      intro inside
      rw [find, if_pos (List.infix_nil.mp inside)] at missing
      cases missing
  | cons c s ih =>
      by_cases front : delim <+: c :: s
      · rw [find, if_pos front] at missing
        cases missing
      · rw [find, if_neg front] at missing
        intro inside
        rcases List.infix_cons_iff.mp inside with here | later
        · exact front here
        · exact ih (Option.map_eq_none_iff.mp missing) later

theorem find_parts (delim s : Str) (next : Nat) (found : find delim s = some next) :
    s.take next ++ (delim ++ s.drop (next + delim.length)) = s := by
  induction s generalizing next with
  | nil =>
      by_cases empty : delim = []
      · rw [empty, List.take_nil, List.drop_nil]
        rfl
      · rw [find, if_neg empty] at found
        cases found
  | cons c s ih =>
      by_cases front : delim <+: c :: s
      · rw [find, if_pos front] at found
        cases found
        rw [List.take_zero, List.nil_append, Nat.zero_add]
        exact (List.prefix_append_drop front).symm
      · rw [find, if_neg front] at found
        obtain ⟨later, inside, rfl⟩ := Option.map_eq_some_iff.mp found
        rw [List.take_succ_cons, List.cons_append, Nat.add_right_comm, List.drop_succ_cons, ih later inside]

theorem find_leftmost (delim s : Str) (next : Nat) (nonempty : delim ≠ []) (found : find delim s = some next) :
    ¬ delim <:+: s.take next := by
  induction s generalizing next with
  | nil => rw [List.take_nil, List.infix_nil]; exact nonempty
  | cons c s ih =>
      by_cases front : delim <+: c :: s
      · rw [find, if_pos front] at found
        cases found
        rw [List.take_zero, List.infix_nil]
        exact nonempty
      · rw [find, if_neg front] at found
        obtain ⟨later, inside, rfl⟩ := Option.map_eq_some_iff.mp found
        rw [List.take_succ_cons]
        intro there
        rcases List.infix_cons_iff.mp there with here | behind
        · have whole : c :: s.take later <+: c :: s := List.cons_prefix_cons.mpr ⟨rfl, List.take_prefix later s⟩
          exact front (here.trans whole)
        · exact ih later inside behind

theorem cut_induction (delim : Str) (nonempty : delim ≠ []) {motive : Str → Prop}
    (last : ∀ s, find delim s = none → motive s)
    (cut : ∀ s next, find delim s = some next → motive (s.drop (next + delim.length)) → motive s) (s : Str) : motive s := by
  induction length : s.length using Nat.strong_induction_on generalizing s with
  | _ n ih =>
      cases found : find delim s with
      | none => exact last s found
      | some next =>
          have inside := find_inside delim s next found
          have positive := List.length_pos_iff.mpr nonempty
          refine cut s next found (ih (s.drop (next + delim.length)).length ?_ _ rfl)
          rw [List.length_drop]
          omega

section

variable (delim : Str) (nonempty : delim ≠ []) (acceptEmpty : Bool)

theorem split_from_cut (s : Str) (next : Nat) (found : find delim s = some next) :
    splitFrom delim nonempty acceptEmpty s =
      s.take next :: splitFrom delim nonempty acceptEmpty (s.drop (next + delim.length)) := by
  rw [splitFrom]
  split
  · rename_i other same
    cases found.symm.trans same
    rfl
  · rename_i same
    cases found.symm.trans same

theorem split_from_end (s : Str) (missing : find delim s = none) :
    splitFrom delim nonempty acceptEmpty s = if s ≠ [] ∨ acceptEmpty = true then [s] else [] := by
  rw [splitFrom]
  split
  · rename_i next same
    cases missing.symm.trans same
  · rfl

theorem split_from_end_kept (s : Str) (missing : find delim s = none) : splitFrom delim nonempty true s = [s] := by
  rw [split_from_end delim nonempty true s missing, if_pos (.inr rfl)]

theorem split_from_nonempty (s : Str) : splitFrom delim nonempty true s ≠ [] := by
  cases found : find delim s with
  | none =>
      rw [split_from_end_kept delim nonempty s found]
      exact List.cons_ne_nil _ _
  | some next =>
      rw [split_from_cut delim nonempty true s next found]
      exact List.cons_ne_nil _ _

theorem split_from_join (s : Str) : delim.intercalate (splitFrom delim nonempty true s) = s := by
  induction s using cut_induction delim nonempty with
  | last s missing =>
      rw [split_from_end_kept delim nonempty s missing]
      simp [List.intercalate]
  | cut s next found ih =>
      rw [split_from_cut delim nonempty true s next found]
      obtain ⟨piece, pieces, rest⟩ := List.exists_cons_of_ne_nil
        (split_from_nonempty delim nonempty (s.drop (next + delim.length)))
      rw [rest] at ih ⊢
      have joined : delim.intercalate (s.take next :: piece :: pieces) =
          s.take next ++ (delim ++ delim.intercalate (piece :: pieces)) := by simp [List.intercalate]
      rw [joined, ih]
      exact find_parts delim s next found

theorem split_from_free (s piece : Str) (member : piece ∈ splitFrom delim nonempty acceptEmpty s) :
    ¬ delim <:+: piece := by
  induction s using cut_induction delim nonempty with
  | last s missing =>
      rw [split_from_end delim nonempty acceptEmpty s missing] at member
      by_cases pushed : s ≠ [] ∨ acceptEmpty = true
      · rw [if_pos pushed] at member
        rw [List.mem_singleton.mp member]
        exact find_none delim s missing
      · rw [if_neg pushed] at member
        cases member
  | cut s next found ih =>
      rw [split_from_cut delim nonempty acceptEmpty s next found] at member
      rcases List.mem_cons.mp member with rfl | later
      · exact find_leftmost delim s next nonempty found
      · exact ih later

theorem split_from_rejecting (s : Str) :
    splitFrom delim nonempty false s =
      if (splitFrom delim nonempty true s).getLast? = some [] then (splitFrom delim nonempty true s).dropLast
      else splitFrom delim nonempty true s := by
  induction s using cut_induction delim nonempty with
  | last s missing =>
      rw [split_from_end_kept delim nonempty s missing, split_from_end delim nonempty false s missing,
        List.getLast?_singleton, List.dropLast_singleton]
      by_cases empty : s = []
      · rw [empty, if_pos rfl]
        exact if_neg (by decide)
      · rw [if_pos (.inl empty), if_neg fun same => empty (Option.some.inj same)]
  | cut s next found ih =>
      have later := split_from_nonempty delim nonempty (s.drop (next + delim.length))
      rw [split_from_cut delim nonempty true s next found, split_from_cut delim nonempty false s next found, ih,
        List.getLast?_cons_of_ne_nil later, List.dropLast_cons_of_ne_nil later]
      split <;> rfl

theorem split_from_last_empty (s : Str) :
    (splitFrom delim nonempty true s).getLast? = some [] ↔
      s = [] ∨ ∃ next, Matched delim s next ∧ next + delim.length = s.length := by
  induction s using cut_induction delim nonempty with
  | last s missing =>
      rw [split_from_end_kept delim nonempty s missing, List.getLast?_singleton, Option.some.injEq]
      constructor
      · exact .inl
      · rintro (empty | ⟨next, matched, -⟩)
        · exact empty
        · cases matched with
          | first _ next found => cases missing.symm.trans found
          | later _ next after found rest => cases missing.symm.trans found
  | cut s next found ih =>
      have inside := find_inside delim s next found
      have length : (s.drop (next + delim.length)).length = s.length - (next + delim.length) := List.length_drop
      rw [split_from_cut delim nonempty true s next found,
        List.getLast?_cons_of_ne_nil (split_from_nonempty delim nonempty _), ih]
      constructor
      · rintro (finished | ⟨after, matched, reaches⟩)
        · rw [finished, List.length_nil] at length
          exact .inr ⟨next, .first s next found, by omega⟩
        · exact .inr ⟨next + delim.length + after, .later s next after found matched, by omega⟩
      · rintro (rfl | ⟨place, matched, reaches⟩)
        · have positive := List.length_pos_iff.mpr nonempty
          rw [List.length_nil] at inside
          omega
        · cases matched with
          | first _ _ same =>
              cases found.symm.trans same
              exact .inl (List.length_eq_zero_iff.mp (by omega))
          | later _ _ after same rest =>
              cases found.symm.trans same
              exact .inr ⟨after, rest, by omega⟩

-- Every turn of the loop drops a whole delimiter, so the length bounds the turns.
theorem split_loop_returns (s : Str) (fuel last : Nat) (v : List Str) (enough : (s.drop last).length < fuel) :
    splitLoop s delim acceptEmpty fuel last v = some (v ++ splitFrom delim nonempty acceptEmpty (s.drop last)) := by
  induction fuel generalizing last v with
  | zero => exact absurd enough (Nat.not_lt_zero _)
  | succ fuel ih =>
      cases found : find delim (s.drop last) with
      | none =>
          rw [splitLoop, found, split_from_end delim nonempty acceptEmpty _ found]
          have more : s.drop last ≠ [] ↔ last < s.length := by
            rw [Ne, List.drop_eq_nil_iff, Nat.not_le]
          change some (if last < s.length ∨ acceptEmpty = true then v ++ [s.drop last] else v) = _
          by_cases pushed : last < s.length ∨ acceptEmpty = true
          · rw [if_pos pushed, if_pos (pushed.imp more.mpr id)]
          · rw [if_neg pushed, if_neg fun kept => pushed (kept.imp more.mp id), List.append_nil]
      | some next =>
          have inside := find_inside delim _ next found
          have positive := List.length_pos_iff.mpr nonempty
          have piece : (if 0 < next ∨ acceptEmpty = true then (s.drop last).take next else []) = (s.drop last).take next := by
            by_cases kept : 0 < next ∨ acceptEmpty = true
            · exact if_pos kept
            · have front : next = 0 := by omega
              rw [if_neg kept, front, List.take_zero]
          have shorter : (s.drop (last + (next + delim.length))).length < fuel := by
            rw [List.length_drop] at enough inside ⊢
            omega
          rw [splitLoop, found, split_from_cut delim nonempty acceptEmpty _ next found]
          change splitLoop s delim acceptEmpty fuel (last + (next + delim.length)) _ = _
          rw [ih _ _ shorter, piece, List.drop_drop, List.append_assoc]
          rfl

end

theorem split_nonempty (s delim : Str) (acceptEmpty : Bool) (nonempty : delim ≠ []) :
    split s delim acceptEmpty = splitFrom delim nonempty acceptEmpty s := by
  rw [split, dif_pos nonempty]

theorem split_and_join (s delim : Str) (nonempty : delim ≠ []) :
    delim.intercalate (split s delim true) = s ∧ (∀ piece ∈ split s delim true, ¬ delim <:+: piece) ∧
      (split s delim false =
        if (split s delim true).getLast? = some [] then (split s delim true).dropLast else split s delim true) ∧
      ((split s delim true).getLast? = some [] ↔
        s = [] ∨ ∃ next, Matched delim s next ∧ next + delim.length = s.length) ∧
      ∀ acceptEmpty fuel, s.length < fuel →
        splitLoop s delim acceptEmpty fuel 0 [] = some (split s delim acceptEmpty) := by
  rw [split_nonempty s delim true nonempty, split_nonempty s delim false nonempty]
  refine ⟨split_from_join delim nonempty s, split_from_free delim nonempty true s, split_from_rejecting delim nonempty s,
    split_from_last_empty delim nonempty s, ?_⟩
  intro acceptEmpty fuel enough
  rw [split_nonempty s delim acceptEmpty nonempty]
  exact split_loop_returns delim nonempty acceptEmpty s fuel 0 [] enough

theorem split_and_join_overlap :
    ['a', 'a'].intercalate (split ['x', 'a', 'a', 'a'] ['a', 'a'] true) = ['x', 'a', 'a', 'a'] ∧
      ∃ fuel, splitLoop ['x', 'a', 'a', 'a'] ['a', 'a'] true fuel 0 [] = some [['x'], ['a']] := by
  obtain ⟨joined, -, -, -, returns⟩ := split_and_join ['x', 'a', 'a', 'a'] ['a', 'a'] (by decide)
  exact ⟨joined, 5, by decide⟩

end Lssvc.Utils
