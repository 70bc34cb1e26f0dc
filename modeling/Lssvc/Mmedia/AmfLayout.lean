import Lssvc.Mmedia.Amf

set_option autoImplicit false

namespace Lssvc.Mmedia

-- What the decoder is at: the value behind a header, one element of a strict
-- array, several of them, or the items of an object.
inductive Part where
  | value (type : AMFDataType) (name : Bytes)
  | element (has : Bool)
  | elements (count : Nat)
  | items (has : Bool)

def decodePart (fuel : Nat) : Part → Bytes → Except AmfFault Decoded
  | .value type name, data => decodeValue fuel type name data
  | .element has, data => decodeOnceFuel fuel has data
  | .elements count, data => decodeElements fuel count data
  | .items has, data => decodeFuel fuel has data

def HoldsObjects (type : AMFDataType) : Prop := type = .kAMFObject ∨ type = .kAMFEcmaArray ∨ type = .kAMStrictArray

def Counted (type : AMFDataType) : Prop := type = .kAMFEcmaArray ∨ type = .kAMStrictArray

inductive Takes : Part → Bytes → Nat → Prop where
  | scalar {type : AMFDataType} {name data : Bytes} {len : Nat} (plain : ¬ HoldsObjects type)
      (whole : (decodeScalar type name data).returned = some len) : Takes (.value type name) data len
  | object {name data : Bytes} {len : Nat} (inside : Takes (.items true) data len) :
      Takes (.value .kAMFObject name) data len
  | ecmaArray {name data : Bytes} {len : Nat} (counted : 4 ≤ data.length)
      (inside : Takes (.items true) (data.drop 4) len) : Takes (.value .kAMFEcmaArray name) data (4 + len)
  | strictArray {name data : Bytes} {len : Nat} (counted : 4 ≤ data.length)
      (inside : Takes (.elements (elementCount data)) (data.drop 4) len) :
      Takes (.value .kAMStrictArray name) data (4 + len)
  | element {has : Bool} {data : Bytes} {len : Nat} (header : HeaderFits has data)
      (value : Takes (.value (itemType has data) (itemName has data)) (data.drop (nameSize has data + 1)) len) :
      Takes (.element has) data (nameSize has data + 1 + len)
  | noElement {data : Bytes} : Takes (.elements 0) data 0
  | moreElements {count first rest : Nat} {data : Bytes} (here : Takes (.element true) data first)
      (later : Takes (.elements count) (data.drop first) rest) : Takes (.elements (count + 1)) data (first + rest)
  | short {has : Bool} {data : Bytes} (few : data.length < 3) : Takes (.items has) data 0
  | marker {has : Bool} {data : Bytes} (enough : 3 ≤ data.length) (marked : readUint24T data = 9) :
      Takes (.items has) data 3
  | objectEnd {has : Bool} {data : Bytes} {len : Nat} (enough : 3 ≤ data.length) (unmarked : readUint24T data ≠ 9)
      (here : Takes (.element has) data len) (last : itemType has data = .kAMFObjectEnd) : Takes (.items has) data len
  | moreItems {has : Bool} {data : Bytes} {first rest : Nat} (enough : 3 ≤ data.length)
      (unmarked : readUint24T data ≠ 9) (here : Takes (.element has) data first)
      (more : itemType has data ≠ .kAMFObjectEnd) (later : Takes (.items has) (data.drop first) rest) :
      Takes (.items has) data (first + rest)

inductive Overruns : Part → Bytes → Prop where
  | count {type : AMFDataType} {name data : Bytes} (counts : Counted type) (few : data.length < 4) :
      Overruns (.value type name) data
  | object {name data : Bytes} (inside : Overruns (.items true) data) : Overruns (.value .kAMFObject name) data
  | ecmaArray {name data : Bytes} (inside : Overruns (.items true) (data.drop 4)) :
      Overruns (.value .kAMFEcmaArray name) data
  | strictArray {name data : Bytes} (counted : 4 ≤ data.length)
      (inside : Overruns (.elements (elementCount data)) (data.drop 4)) : Overruns (.value .kAMStrictArray name) data
  | header {has : Bool} {data : Bytes} (outside : ¬ HeaderFits has data) : Overruns (.element has) data
  | value {has : Bool} {data : Bytes} (header : HeaderFits has data)
      (inside : Overruns (.value (itemType has data) (itemName has data)) (data.drop (nameSize has data + 1))) :
      Overruns (.element has) data
  | thisElement {count : Nat} {data : Bytes} (here : Overruns (.element true) data) :
      Overruns (.elements (count + 1)) data
  | laterElement {count len : Nat} {data : Bytes} (here : Takes (.element true) data len)
      (later : Overruns (.elements count) (data.drop len)) : Overruns (.elements (count + 1)) data
  | thisItem {has : Bool} {data : Bytes} (enough : 3 ≤ data.length) (unmarked : readUint24T data ≠ 9)
      (here : Overruns (.element has) data) : Overruns (.items has) data
  | laterItem {has : Bool} {data : Bytes} {len : Nat} (enough : 3 ≤ data.length) (unmarked : readUint24T data ≠ 9)
      (here : Takes (.element has) data len) (more : itemType has data ≠ .kAMFObjectEnd)
      (later : Overruns (.items has) (data.drop len)) : Overruns (.items has) data

def fuelFor : Part → Bytes → Nat
  | .value _ _, data => 3 * data.length + 4
  | .element _, data => 3 * data.length + 2
  | .elements _, data => 3 * data.length + 3
  | .items _, data => 3 * data.length + 3

theorem fuel_behind (part inner : Part) {data : Bytes} {fuel taken : Nat} (some' : 1 ≤ taken)
    (nonempty : 1 ≤ data.length) (enough : fuelFor part data ≤ fuel + 1) : fuelFor inner (data.drop taken) ≤ fuel := by
  have behind : fuelFor inner (data.drop taken) ≤ 3 * (data.length - taken) + 4 := by
    rw [← List.length_drop]
    cases inner <;> rw [fuelFor] <;> omega
  have here : 3 * data.length + 2 ≤ fuelFor part data := by
    cases part <;> rw [fuelFor] <;> omega
  omega

def roomFor : Part → Bytes → Nat
  | .value _ _, _ => 1
  | .element _, data => min 1 data.length
  | .elements _, data => data.length
  | .items _, data => data.length

def AmfCall.Bounded (call : AmfCall) : Prop := (∀ len, call.returned = some len → len ≤ call.size) ∧ call.added ≤ call.size

structure SoundPart (part : Part) (data : Bytes) (decoded : Decoded) : Prop where
  takes : ∀ len, decoded.returned = some len → Takes part data len
  inside : ∀ len, decoded.returned = some len → len ≤ data.length
  few : decoded.properties.length ≤ roomFor part data
  calls : ∀ call ∈ decoded.calls, call.Bounded

def Expected (part : Part) (data : Bytes) : Except AmfFault Decoded → Prop
  | .error .outOfBounds => Overruns part data
  | .error .outOfFuel => False
  | .ok decoded => SoundPart part data decoded

theorem decode_value_scalar (fuel : Nat) {type : AMFDataType} (plain : ¬ HoldsObjects type) (name data : Bytes) :
    decodeValue (fuel + 1) type name data = .ok (decodeScalar type name data) := by
  cases type <;> first | rfl | exact absurd (by simp [HoldsObjects]) plain

theorem element_takes_some {has : Bool} {data : Bytes} {len : Nat} (takes : Takes (.element has) data len) :
    1 ≤ len ∧ 1 ≤ data.length := by
  cases takes with
  | element header value => exact ⟨by omega, Nat.lt_of_le_of_lt (Nat.zero_le _) header.2⟩

theorem sized_scalar (make : Bytes → AMFAny) (data : Bytes) :
    (∀ len, (decodeSized make data).returned = some len → len ≤ data.length) ∧
      (decodeSized make data).properties.length ≤ 1 ∧ (decodeSized make data).calls = [] := by
  rw [decodeSized]
  by_cases short : data.length < 2
  · simp [short, Decoded.failed]
  · by_cases cut : data.length < readUint16T data + 2
    · simp [short, cut, Decoded.failed]
    · rw [if_neg short, if_neg cut]
      refine ⟨?_, Nat.le_refl 1, rfl⟩
      intro len whole
      cases whole
      exact Nat.le_of_not_lt cut

theorem scalar_sound (type : AMFDataType) (name data : Bytes) :
    (∀ len, (decodeScalar type name data).returned = some len → len ≤ data.length) ∧
      (decodeScalar type name data).properties.length ≤ 1 ∧ (decodeScalar type name data).calls = [] := by
  cases type with
  | kAMFNumber =>
      rw [decodeScalar, decodeNumber]
      by_cases enough : 8 ≤ data.length
      · simp [enough]
      · simp [enough, Decoded.failed]
  | kAMFBoolean =>
      rw [decodeScalar, decodeBoolean]
      by_cases enough : 1 ≤ data.length
      · simp [enough]
      · simp [enough, Decoded.failed]
  | kAMFString => exact sized_scalar (.string name) data
  | kAMFLongString => exact sized_scalar (.longString name) data
  | kAMFDate =>
      rw [decodeScalar, decodeDate]
      by_cases short : data.length < 10
      · simp [short, Decoded.failed]
      · rw [if_neg short]
        refine ⟨?_, Nat.le_refl 1, rfl⟩
        intro len whole
        cases whole
        exact Nat.le_of_not_lt short
  | _ => simp [decodeScalar]

theorem expected_map {part other : Part} {data inner : Bytes} {result : Except AmfFault Decoded}
    (change : Decoded → Decoded) (expected : Expected part data result)
    (sound : ∀ decoded, SoundPart part data decoded → SoundPart other inner (change decoded))
    (overruns : Overruns part data → Overruns other inner) : Expected other inner (result.map change) := by
  cases result with
  | error fault =>
      cases fault with
      | outOfBounds => exact overruns expected
      | outOfFuel => exact expected
  | ok decoded => exact sound decoded expected

theorem logged {part : Part} {data : Bytes} {decoded : Decoded} (sound : SoundPart part data decoded)
    (room : roomFor part data ≤ data.length) : ∀ call ∈ (decoded.log data.length).calls, call.Bounded := by
  refine List.forall_mem_append.mpr ⟨sound.calls, List.forall_mem_singleton.mpr ⟨sound.inside, ?_⟩⟩
  exact Nat.le_trans sound.few room

theorem wrap_few (decoded : Decoded) (name : Bytes) : (decoded.wrap name).properties.length ≤ 1 := by
  rw [Decoded.wrap]
  cases decoded.returned <;> simp

theorem skip_returned {decoded : Decoded} {size len : Nat} (skipped : (decoded.skip size).returned = some len) :
    ∃ rest, decoded.returned = some rest ∧ len = size + rest := by
  obtain ⟨rest, returned, same⟩ := Option.map_eq_some_iff.mp skipped
  exact ⟨rest, returned, same.symm⟩

theorem value_expected (fuel : Nat) (type : AMFDataType) (name data : Bytes) (enough : 3 * data.length + 3 ≤ fuel)
    (ih : ∀ part inner, fuelFor part inner ≤ fuel → Expected part inner (decodePart fuel part inner)) :
    Expected (.value type name) data (decodeValue (fuel + 1) type name data) := by
  by_cases holds : HoldsObjects type
  · rcases holds with rfl | rfl | rfl
    · refine expected_map _ (ih (.items true) data enough) ?_ .object
      intro decoded sound
      exact ⟨fun len whole => .object (sound.takes len whole), sound.inside, wrap_few _ name,
        logged sound (Nat.le_refl _)⟩
    · rw [decodeValue]
      by_cases counted : 4 ≤ data.length
      · rw [if_pos counted]
        have length : (data.drop 4).length = data.length - 4 := List.length_drop
        have less : fuelFor (.items true) (data.drop 4) ≤ fuel :=
          fuel_behind (.value .kAMFEcmaArray name) (.items true) (by omega) (by omega) (Nat.succ_le_succ enough)
        refine expected_map _ (ih (.items true) (data.drop 4) less) (fun decoded sound => ?_) .ecmaArray
        refine ⟨?_, ?_, wrap_few _ name, logged sound (Nat.le_refl _)⟩
        · intro len whole
          obtain ⟨rest, returned, rfl⟩ := skip_returned whole
          exact .ecmaArray counted (sound.takes rest returned)
        · intro len whole
          obtain ⟨rest, returned, rfl⟩ := skip_returned whole
          have inside := sound.inside rest returned
          omega
      · rw [if_neg counted]
        exact .count (.inl rfl) (Nat.lt_of_not_le counted)
    · rw [decodeValue]
      by_cases counted : 4 ≤ data.length
      · rw [if_pos counted]
        have length : (data.drop 4).length = data.length - 4 := List.length_drop
        have less : fuelFor (.elements (elementCount data)) (data.drop 4) ≤ fuel :=
          fuel_behind (.value .kAMStrictArray name) _ (by omega) (by omega) (Nat.succ_le_succ enough)
        refine expected_map _ (ih _ (data.drop 4) less) (fun decoded sound => ?_) (.strictArray counted)
        refine ⟨?_, ?_, wrap_few _ name, sound.calls⟩
        · intro len whole
          obtain ⟨rest, returned, rfl⟩ := skip_returned whole
          exact .strictArray counted (sound.takes rest returned)
        · intro len whole
          obtain ⟨rest, returned, rfl⟩ := skip_returned whole
          have inside := sound.inside rest returned
          omega
      · rw [if_neg counted]
        exact .count (.inr rfl) (Nat.lt_of_not_le counted)
  · obtain ⟨inside, few, calls⟩ := scalar_sound type name data
    rw [decode_value_scalar fuel holds]
    refine ⟨fun len whole => .scalar holds whole, inside, few, ?_⟩
    rw [calls]
    exact List.forall_mem_nil _

theorem element_expected (fuel : Nat) (has : Bool) (data : Bytes) (enough : 3 * data.length + 1 ≤ fuel)
    (ih : ∀ part inner, fuelFor part inner ≤ fuel → Expected part inner (decodePart fuel part inner)) :
    Expected (.element has) data (decodeOnceFuel (fuel + 1) has data) := by
  rw [decodeOnceFuel]
  by_cases header : HeaderFits has data
  · rw [if_pos header]
    have fits := header.2
    have length : (data.drop (nameSize has data + 1)).length = data.length - (nameSize has data + 1) := List.length_drop
    have less : fuelFor (.value (itemType has data) (itemName has data)) (data.drop (nameSize has data + 1)) ≤ fuel :=
      fuel_behind (.element has) _ (by omega) (by omega) (Nat.succ_le_succ enough)
    refine expected_map _ (ih _ _ less) (fun decoded sound => ?_) (.value header)
    refine ⟨?_, ?_, ?_, sound.calls⟩
    · intro len whole
      obtain ⟨rest, returned, rfl⟩ := skip_returned whole
      exact .element header (sound.takes rest returned)
    · intro len whole
      obtain ⟨rest, returned, rfl⟩ := skip_returned whole
      have inside := sound.inside rest returned
      omega
    · have one : decoded.properties.length ≤ 1 := sound.few
      exact Nat.le_min.mpr ⟨one, Nat.le_trans one (by omega)⟩
  · rw [if_neg header]
    exact .header header

theorem elements_expected (fuel count : Nat) (data : Bytes) (enough : 3 * data.length + 2 ≤ fuel)
    (ih : ∀ part inner, fuelFor part inner ≤ fuel → Expected part inner (decodePart fuel part inner)) :
    Expected (.elements count) data (decodeElements (fuel + 1) count data) := by
  cases count with
  | zero =>
      refine ⟨?_, ?_, Nat.zero_le _, List.forall_mem_nil _⟩
      · intro len whole
        cases whole
        exact .noElement
      · intro len whole
        cases whole
        exact Nat.zero_le _
  | succ count =>
      rw [decodeElements]
      have here := ih (.element true) data enough
      rw [decodePart] at here
      cases result : decodeOnceFuel fuel true data with
      | error fault =>
          rw [result] at here
          cases fault with
          | outOfBounds => exact .thisElement here
          | outOfFuel => exact here
      | ok first =>
          rw [result] at here
          have one : first.properties.length ≤ min 1 data.length := here.few
          have firstCalls := logged here (Nat.min_le_right 1 data.length)
          dsimp only
          cases returned : first.returned with
          | none =>
              refine ⟨?_, ?_, Nat.le_trans one (Nat.min_le_right _ _), firstCalls⟩
              · intro len whole
                cases returned.symm.trans whole
              · intro len whole
                cases returned.symm.trans whole
          | some len =>
              have takes := here.takes len returned
              have some' := element_takes_some takes
              have fits := here.inside len returned
              have length : (data.drop len).length = data.length - len := List.length_drop
              have less : fuelFor (.elements count) (data.drop len) ≤ fuel :=
                fuel_behind (.elements (count + 1)) _ some'.1 some'.2 (Nat.succ_le_succ enough)
              refine expected_map _ (ih _ _ less) ?_ (.laterElement takes)
              intro next sound
              have rest : next.properties.length ≤ (data.drop len).length := sound.few
              refine ⟨?_, ?_, ?_, List.forall_mem_append.mpr ⟨firstCalls, sound.calls⟩⟩
              · intro total whole
                obtain ⟨more, followed, rfl⟩ := Option.map_eq_some_iff.mp whole
                exact .moreElements takes (sound.takes more followed)
              · intro total whole
                obtain ⟨more, followed, rfl⟩ := Option.map_eq_some_iff.mp whole
                have inside := sound.inside more followed
                omega
              · have both : ((first.log data.length).andThen len next).properties.length =
                    first.properties.length + next.properties.length := List.length_append
                rw [both]
                change _ ≤ data.length
                omega

theorem items_expected (fuel : Nat) (has : Bool) (data : Bytes) (enough : 3 * data.length + 2 ≤ fuel)
    (ih : ∀ part inner, fuelFor part inner ≤ fuel → Expected part inner (decodePart fuel part inner)) :
    Expected (.items has) data (decodeFuel (fuel + 1) has data) := by
  rw [decodeFuel]
  by_cases few : data.length < 3
  · rw [if_pos few]
    refine ⟨?_, ?_, Nat.zero_le _, List.forall_mem_nil _⟩
    · intro len whole
      cases whole
      exact .short few
    · intro len whole
      cases whole
      exact Nat.zero_le _
  · have three := Nat.le_of_not_lt few
    rw [if_neg few]
    by_cases marked : readUint24T data = 0x000009
    · rw [if_pos marked]
      refine ⟨?_, ?_, Nat.zero_le _, List.forall_mem_nil _⟩
      · intro len whole
        cases whole
        exact .marker three marked
      · intro len whole
        cases whole
        exact three
    · rw [if_neg marked]
      have here := ih (.element has) data enough
      rw [decodePart] at here
      cases result : decodeOnceFuel fuel has data with
      | error fault =>
          rw [result] at here
          cases fault with
          | outOfBounds => exact .thisItem three marked here
          | outOfFuel => exact here
      | ok first =>
          rw [result] at here
          have one : first.properties.length ≤ min 1 data.length := here.few
          dsimp only
          cases returned : first.returned with
          | none =>
              refine ⟨?_, ?_, Nat.le_trans one (Nat.min_le_right _ _), here.calls⟩
              · intro len whole
                cases returned.symm.trans whole
              · intro len whole
                cases returned.symm.trans whole
          | some len =>
              have takes := here.takes len returned
              have some' := element_takes_some takes
              have fits := here.inside len returned
              dsimp only
              by_cases last : itemType has data = .kAMFObjectEnd
              · rw [if_pos last]
                refine ⟨?_, here.inside, Nat.le_trans one (Nat.min_le_right _ _), here.calls⟩
                intro total whole
                exact .objectEnd three marked (here.takes total whole) last
              · rw [if_neg last]
                have length : (data.drop len).length = data.length - len := List.length_drop
                have less : fuelFor (.items has) (data.drop len) ≤ fuel :=
                  fuel_behind (.items has) _ some'.1 some'.2 (Nat.succ_le_succ enough)
                refine expected_map _ (ih _ _ less) ?_ (.laterItem three marked takes last)
                intro next sound
                have rest : next.properties.length ≤ (data.drop len).length := sound.few
                refine ⟨?_, ?_, ?_, List.forall_mem_append.mpr ⟨here.calls, sound.calls⟩⟩
                · intro total whole
                  obtain ⟨more, followed, rfl⟩ := Option.map_eq_some_iff.mp whole
                  exact .moreItems three marked takes last (sound.takes more followed)
                · intro total whole
                  obtain ⟨more, followed, rfl⟩ := Option.map_eq_some_iff.mp whole
                  have inside := sound.inside more followed
                  omega
                · have both : (first.andThen len next).properties.length =
                      first.properties.length + next.properties.length := List.length_append
                  rw [both]
                  change _ ≤ data.length
                  omega

theorem decode_layout (fuel : Nat) (part : Part) (data : Bytes) (enough : fuelFor part data ≤ fuel) :
    Expected part data (decodePart fuel part data) := by
  induction fuel generalizing part data with
  | zero => cases part <;> exact absurd enough (Nat.not_succ_le_zero _)
  | succ fuel ih =>
      cases part with
      | value type name => exact value_expected fuel type name data (Nat.le_of_succ_le_succ enough) ih
      | element has => exact element_expected fuel has data (Nat.le_of_succ_le_succ enough) ih
      | elements count => exact elements_expected fuel count data (Nat.le_of_succ_le_succ enough) ih
      | items has => exact items_expected fuel has data (Nat.le_of_succ_le_succ enough) ih

end Lssvc.Mmedia
