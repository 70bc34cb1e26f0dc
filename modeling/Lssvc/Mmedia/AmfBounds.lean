import Lssvc.Mmedia.AmfLayout

set_option autoImplicit false

namespace Lssvc.Mmedia

def DecodesInBounds (has : Bool) (data : Bytes) : Prop :=
  ∃ decoded, decode has data = .ok decoded ∧ ∀ call ∈ decoded.calls ++ [decoded.call data.length], call.Bounded

theorem some_fuel {part : Part} {data : Bytes} {fuel : Nat} (enough : fuelFor part data ≤ fuel) :
    ∃ rest, fuel = rest + 1 := by
  cases fuel with
  | zero => cases part <;> exact absurd enough (Nat.not_succ_le_zero _)
  | succ rest => exact ⟨rest, rfl⟩

theorem takes_decodes {part : Part} {data : Bytes} {len : Nat} (takes : Takes part data len) (fuel : Nat)
    (enough : fuelFor part data ≤ fuel) :
    ∃ decoded, decodePart fuel part data = .ok decoded ∧ decoded.returned = some len := by
  induction takes generalizing fuel with
  | @scalar type name data len plain whole =>
      obtain ⟨fuel, rfl⟩ := some_fuel enough
      exact ⟨_, decode_value_scalar fuel plain name data, whole⟩
  | @object name data len inside ih =>
      obtain ⟨fuel, rfl⟩ := some_fuel enough
      obtain ⟨decoded, result, returned⟩ := ih fuel (Nat.le_of_succ_le_succ enough)
      rw [decodePart] at result
      refine ⟨(decoded.log data.length).wrap name, ?_, returned⟩
      rw [decodePart, decodeValue, result]
      rfl
  | @ecmaArray name data len counted inside ih =>
      obtain ⟨fuel, rfl⟩ := some_fuel enough
      obtain ⟨decoded, result, returned⟩ := ih fuel (fuel_behind _ _ (by omega) (by omega) enough)
      rw [decodePart] at result
      refine ⟨((decoded.log (data.drop 4).length).wrap name).skip 4, ?_, congrArg (Option.map (4 + ·)) returned⟩
      rw [decodePart, decodeValue, if_pos counted, result]
      rfl
  | @strictArray name data len counted inside ih =>
      obtain ⟨fuel, rfl⟩ := some_fuel enough
      obtain ⟨decoded, result, returned⟩ := ih fuel (fuel_behind _ _ (by omega) (by omega) enough)
      rw [decodePart] at result
      refine ⟨(decoded.wrap name).skip 4, ?_, congrArg (Option.map (4 + ·)) returned⟩
      rw [decodePart, decodeValue, if_pos counted, result]
      rfl
  | @element has data len header value ih =>
      obtain ⟨fuel, rfl⟩ := some_fuel enough
      have fits := header.2
      obtain ⟨decoded, result, returned⟩ := ih fuel (fuel_behind _ _ (by omega) (by omega) enough)
      rw [decodePart] at result
      refine ⟨decoded.skip (nameSize has data + 1), ?_, congrArg (Option.map (nameSize has data + 1 + ·)) returned⟩
      rw [decodePart, decodeOnceFuel, if_pos header, result]
      rfl
  | noElement =>
      obtain ⟨fuel, rfl⟩ := some_fuel enough
      exact ⟨_, rfl, rfl⟩
  | @moreElements count first rest data here later ihHere ihLater =>
      obtain ⟨fuel, rfl⟩ := some_fuel enough
      have some' := element_takes_some here
      obtain ⟨decoded, result, returned⟩ := ihHere fuel (Nat.le_of_succ_le_succ enough)
      obtain ⟨next, followed, more⟩ := ihLater fuel (fuel_behind _ _ some'.1 some'.2 enough)
      rw [decodePart] at result
      rw [decodePart] at followed
      refine ⟨(decoded.log data.length).andThen first next, ?_, congrArg (Option.map (first + ·)) more⟩
      rw [decodePart, decodeElements, result]
      dsimp only
      rw [returned]
      dsimp only
      rw [followed]
      rfl
  | @short has data few =>
      obtain ⟨fuel, rfl⟩ := some_fuel enough
      exact ⟨_, by rw [decodePart, decodeFuel, if_pos few], rfl⟩
  | @marker has data three marked =>
      obtain ⟨fuel, rfl⟩ := some_fuel enough
      exact ⟨_, by rw [decodePart, decodeFuel, if_neg (Nat.not_lt_of_le three), if_pos marked], rfl⟩
  | @objectEnd has data len three unmarked here last ih =>
      obtain ⟨fuel, rfl⟩ := some_fuel enough
      obtain ⟨decoded, result, returned⟩ := ih fuel (Nat.le_of_succ_le_succ enough)
      rw [decodePart] at result
      refine ⟨decoded, ?_, returned⟩
      rw [decodePart, decodeFuel, if_neg (Nat.not_lt_of_le three), if_neg unmarked, result]
      dsimp only
      rw [returned]
      exact if_pos last
  | @moreItems has data first rest three unmarked here more later ihHere ihLater =>
      obtain ⟨fuel, rfl⟩ := some_fuel enough
      have some' := element_takes_some here
      obtain ⟨decoded, result, returned⟩ := ihHere fuel (Nat.le_of_succ_le_succ enough)
      obtain ⟨next, followed, rest'⟩ := ihLater fuel (fuel_behind _ _ some'.1 some'.2 enough)
      rw [decodePart] at result
      rw [decodePart] at followed
      refine ⟨decoded.andThen first next, ?_, congrArg (Option.map (first + ·)) rest'⟩
      rw [decodePart, decodeFuel, if_neg (Nat.not_lt_of_le three), if_neg unmarked, result]
      dsimp only
      rw [returned]
      dsimp only
      rw [if_neg more, followed]
      rfl

theorem overruns_fault {part : Part} {data : Bytes} (overruns : Overruns part data) (fuel : Nat)
    (enough : fuelFor part data ≤ fuel) : decodePart fuel part data = .error .outOfBounds := by
  induction overruns generalizing fuel with
  | @count type name data counts few =>
      obtain ⟨fuel, rfl⟩ := some_fuel enough
      rcases counts with rfl | rfl
      · rw [decodePart, decodeValue, if_neg (Nat.not_le_of_gt few)]
      · rw [decodePart, decodeValue, if_neg (Nat.not_le_of_gt few)]
  | @object name data inside ih =>
      obtain ⟨fuel, rfl⟩ := some_fuel enough
      have fault := ih fuel (Nat.le_of_succ_le_succ enough)
      rw [decodePart] at fault
      rw [decodePart, decodeValue, fault]
      rfl
  | @ecmaArray name data inside ih =>
      obtain ⟨fuel, rfl⟩ := some_fuel enough
      rw [decodePart, decodeValue]
      by_cases counted : 4 ≤ data.length
      · have fault := ih fuel (fuel_behind _ _ (by omega) (by omega) enough)
        rw [decodePart] at fault
        rw [if_pos counted, fault]
        rfl
      · exact if_neg counted
  | @strictArray name data counted inside ih =>
      obtain ⟨fuel, rfl⟩ := some_fuel enough
      have fault := ih fuel (fuel_behind _ _ (by omega) (by omega) enough)
      rw [decodePart] at fault
      rw [decodePart, decodeValue, if_pos counted, fault]
      rfl
  | @header has data outside =>
      obtain ⟨fuel, rfl⟩ := some_fuel enough
      rw [decodePart, decodeOnceFuel, if_neg outside]
  | @value has data header inside ih =>
      obtain ⟨fuel, rfl⟩ := some_fuel enough
      have fits := header.2
      have fault := ih fuel (fuel_behind _ _ (by omega) (by omega) enough)
      rw [decodePart] at fault
      rw [decodePart, decodeOnceFuel, if_pos header, fault]
      rfl
  | @thisElement count data here ih =>
      obtain ⟨fuel, rfl⟩ := some_fuel enough
      have fault := ih fuel (Nat.le_of_succ_le_succ enough)
      rw [decodePart] at fault
      rw [decodePart, decodeElements, fault]
  | @laterElement count len data here later ih =>
      obtain ⟨fuel, rfl⟩ := some_fuel enough
      have some' := element_takes_some here
      obtain ⟨decoded, result, returned⟩ := takes_decodes here fuel (Nat.le_of_succ_le_succ enough)
      have fault := ih fuel (fuel_behind _ _ some'.1 some'.2 enough)
      rw [decodePart] at result
      rw [decodePart] at fault
      rw [decodePart, decodeElements, result]
      dsimp only
      rw [returned]
      dsimp only
      rw [fault]
      rfl
  | @thisItem has data three unmarked here ih =>
      obtain ⟨fuel, rfl⟩ := some_fuel enough
      have fault := ih fuel (Nat.le_of_succ_le_succ enough)
      rw [decodePart] at fault
      rw [decodePart, decodeFuel, if_neg (Nat.not_lt_of_le three), if_neg unmarked, fault]
  | @laterItem has data len three unmarked here more later ih =>
      obtain ⟨fuel, rfl⟩ := some_fuel enough
      have some' := element_takes_some here
      obtain ⟨decoded, result, returned⟩ := takes_decodes here fuel (Nat.le_of_succ_le_succ enough)
      have fault := ih fuel (fuel_behind _ _ some'.1 some'.2 enough)
      rw [decodePart] at result
      rw [decodePart] at fault
      rw [decodePart, decodeFuel, if_neg (Nat.not_lt_of_le three), if_neg unmarked, result]
      dsimp only
      rw [returned]
      dsimp only
      rw [if_neg more, fault]
      rfl

theorem decodes_in_bounds_iff (has : Bool) (data : Bytes) (_size : data.length < 2147483645) :
    DecodesInBounds has data ↔ ¬ Overruns (.items has) data := by
  have expected : Expected (.items has) data (decode has data) := decode_layout _ (.items has) data (Nat.le_refl _)
  constructor
  · rintro ⟨decoded, result, _⟩ overruns
    cases result.symm.trans (overruns_fault overruns _ (Nat.le_refl _))
  · intro fits
    cases result : decode has data with
    | error fault =>
        rw [result] at expected
        cases fault with
        | outOfBounds => exact absurd expected fits
        | outOfFuel => exact expected.elim
    | ok decoded =>
        rw [result] at expected
        exact ⟨decoded, result, logged expected (Nat.le_refl _)⟩

theorem decodes_in_bounds_named : ¬ DecodesInBounds false [5, 3, 0, 255, 97, 5] := fun bounds =>
  (decodes_in_bounds_iff false [5, 3, 0, 255, 97, 5] (by decide)).mp bounds
    (.laterItem (by decide) (by decide)
      (.element (by decide) (.scalar (by simp [HoldsObjects, itemType, nameSize, AMFDataType.ofByte]) rfl)) (by decide)
      (.thisItem (by decide) (by decide) (.value (by decide) (.object
        (.thisItem (by decide) (by decide) (.header (by decide)))))))

-- The count of an ECMA array is read behind three bytes.
theorem array_count_outside : ¬ DecodesInBounds false [8, 0, 0] := by
  rintro ⟨decoded, result, _⟩
  have overruns : Overruns (.items false) [8, 0, 0] :=
    .thisItem (by decide) (by decide) (.value (by decide) (.count (.inl rfl) (by decide)))
  cases result.symm.trans (overruns_fault overruns _ (Nat.le_refl _))

end Lssvc.Mmedia
