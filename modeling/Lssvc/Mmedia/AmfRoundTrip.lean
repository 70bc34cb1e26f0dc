import Mathlib.Data.List.Basic
import Lssvc.Mmedia.AmfTrees
import Lssvc.Mmedia.NullProperties

set_option autoImplicit false

namespace Lssvc.Mmedia

def encodeAll (values : List AmfValue) : Bytes := values.flatMap AmfValue.encode

def AmfValue.Scalar : AmfValue → Prop
  | .number val => val.natAbs ≤ 9007199254740992
  | .string str => str.length ≤ 65535
  | .boolean _ => True
  | _ => False

def AmfMembers.Flat : AmfMembers → Prop
  | .nil => True
  | .cons name value rest => name ≠ [] ∧ value.Scalar ∧ rest.Flat

def AmfValue.Written : AmfValue → Prop
  | .null => True
  | .object members => members.Flat
  | value => value.Scalar

mutual
def AmfValue.ShortNames : AmfValue → Prop
  | .object members => members.ShortNames
  | .ecmaArray _ members => members.ShortNames
  | _ => True

def AmfMembers.ShortNames : AmfMembers → Prop
  | .nil => True
  | .cons name value rest => name.length ≤ 65535 ∧ value.ShortNames ∧ rest.ShortNames
end

def AmfValue.Tiny (value : AmfValue) : Prop := value.type = .kAMFNull ∨ value.type = .kAMFBoolean

def RoundTrips (values : List AmfValue) : Prop :=
  ∃ decoded, decode false (encodeAll values) = .ok decoded ∧
    decoded.returned = some (encodeAll values).length ∧ decoded.properties.map AMFAny.tree = values.map some

theorem flat_fits (members : AmfMembers) (flat : members.Flat) (short : members.ShortNames) : members.Fits := by
  cases members with
  | nil => trivial
  | cons name value rest =>
      obtain ⟨some', scalar, restFlat⟩ := flat
      obtain ⟨length, _, restShort⟩ := short
      refine ⟨some', Nat.lt_succ_of_le length, ?_, ?_, flat_fits rest restFlat restShort⟩
      · cases value with
        | null => exact scalar.elim
        | _ => exact AMFDataType.noConfusion
      · cases value with
        | number val => exact scalar
        | string str => exact Nat.lt_succ_of_le scalar
        | boolean b => trivial
        | _ => exact scalar.elim

theorem flat_objects (members : AmfMembers) (flat : members.Flat) : members.asObjects = members := by
  cases members with
  | nil => rfl
  | cons name value rest =>
      obtain ⟨_, scalar, restFlat⟩ := flat
      have same : value.asObject = value := by
        cases value with
        | object members => exact scalar.elim
        | ecmaArray count members => exact scalar.elim
        | _ => rfl
      rw [AmfMembers.asObjects, same, flat_objects rest restFlat]

theorem written_fits (value : AmfValue) (written : value.Written) (short : value.ShortNames) : value.Fits := by
  cases value with
  | number val => exact written
  | string str => exact Nat.lt_succ_of_le written
  | object members => exact flat_fits members written short
  | ecmaArray count members => exact written.elim
  | _ => trivial

theorem written_object (value : AmfValue) (written : value.Written) : value.asObject = value := by
  cases value with
  | object members => exact congrArg AmfValue.object (flat_objects members written)
  | ecmaArray count members => exact written.elim
  | _ => rfl

theorem object_length (members : AmfMembers) : 3 ≤ members.encode.length := by
  cases members with
  | nil => decide
  | cons name value rest =>
      simp only [AmfMembers.encode, List.length_append, encode_name_length, List.length_cons]
      omega

theorem encode_length (value : AmfValue) (large : ¬ value.Tiny) : 3 ≤ value.encode.length := by
  rw [AmfValue.encode, List.length_cons]
  cases value with
  | number val =>
      rw [AmfValue.body, write_number_length]
      decide
  | string str =>
      rw [AmfValue.body, List.length_append, write_uint16_length]
      omega
  | boolean b => exact absurd (.inr rfl) large
  | null => exact absurd (.inl rfl) large
  | object members => exact Nat.le_succ_of_le (object_length members)
  | ecmaArray count members =>
      have length := object_length members
      rw [AmfValue.body, List.length_append]
      omega

theorem tiny_length (value : AmfValue) (tiny : value.Tiny) : 1 ≤ value.encode.length ∧ value.encode.length ≤ 2 := by
  rcases tiny with same | same
  all_goals
    cases value with
    | boolean b => exact ⟨by simp [AmfValue.encode], by simp [AmfValue.encode, AmfValue.body]⟩
    | null => exact ⟨by simp [AmfValue.encode], by simp [AmfValue.encode, AmfValue.body]⟩
    | _ => cases same

theorem marked_first (c : UInt8) (data : Bytes) (marked : readUint24T (c :: data) = 9) : c = 0 := by
  match data with
  | [] => cases marked
  | [_] => cases marked
  | c1 :: c2 :: _ =>
      change c.toNat * 65536 + c1.toNat * 256 + c2.toNat = 9 at marked
      exact UInt8.toNat_inj.mp (show c.toNat = 0 by omega)

theorem value_unmarked (value : AmfValue) (fits : value.Fits) (rest : Bytes) :
    readUint24T (value.encode ++ rest) ≠ 9 := by
  intro marked
  have zero := marked_first value.type.toByte (value.body ++ rest) marked
  cases value with
  | number val => exact number_unmarked val fits rest marked
  | _ => cases zero

theorem value_item (value : AmfValue) (fits : value.Fits) (rest : Bytes) (fuel : Nat) :
    Yields (decodeOnceFuel fuel false (value.encode ++ rest)) value.encode.length [value.decoded []] := by
  have length : value.encode.length = 0 + 1 + value.body.length := by
    rw [AmfValue.encode, List.length_cons]
    omega
  rw [length]
  refine element_yields fuel ⟨Bool.noConfusion, ?_⟩ ⟨rfl, rfl⟩ (type_byte_head value _) rfl
    fun fuel => value_yields value fits [] rest fuel
  exact Nat.succ_pos _

theorem all_length (values : List AmfValue) (some' : values ≠ []) (large : ∀ value ∈ values.getLast?, ¬ value.Tiny) :
    3 ≤ (encodeAll values).length := by
  obtain ⟨front, last, rfl⟩ := (List.eq_nil_or_concat values).resolve_left some'
  rw [List.concat_eq_append] at large ⊢
  rw [List.getLast?_concat] at large
  have length := encode_length last (large last rfl)
  rw [encodeAll, List.flatMap_append, List.length_append, List.flatMap_singleton]
  omega

theorem few_yield (has : Bool) (data : Bytes) (few : data.length < 3) (fuel : Nat) :
    Yields (decodeFuel fuel has data) 0 [] := by
  cases fuel with
  | zero => exact .inl rfl
  | succ fuel =>
      rw [decodeFuel, if_pos few]
      exact .inr ⟨[], rfl⟩

theorem value_yields_first (value : AmfValue) (fits : value.Fits) (rest : Bytes)
    (enough : 3 ≤ (value.encode ++ rest).length) {len : Nat} {later : AMFObject} (fuel : Nat)
    (next : ∀ fuel, Yields (decodeFuel fuel false rest) len later) :
    Yields (decodeFuel fuel false (value.encode ++ rest)) (value.encode.length + len) (value.decoded [] :: later) := by
  refine item_yields fuel enough (value_unmarked value fits rest) ?_ List.drop_left (value_item value fits rest) next
  rw [itemType, nameSize, if_neg Bool.false_ne_true, List.drop_zero, AmfValue.encode, List.cons_append, type_byte_head]
  exact type_not_end value

theorem all_yield (values : List AmfValue) (fits : ∀ value ∈ values, value.Fits)
    (large : ∀ value ∈ values.getLast?, ¬ value.Tiny) (fuel : Nat) :
    Yields (decodeFuel fuel false (encodeAll values)) (encodeAll values).length (values.map (AmfValue.decoded [])) := by
  induction values generalizing fuel with
  | nil => exact few_yield false [] (by decide) fuel
  | cons value values ih =>
      obtain ⟨here, later⟩ := List.forall_mem_cons.mp fits
      have enough := all_length (value :: values) (List.cons_ne_nil _ _) large
      have next : ∀ last ∈ values.getLast?, ¬ last.Tiny := by
        intro last final
        refine large last ?_
        rw [List.getLast?_cons, Option.mem_def.mp final]
        rfl
      rw [encodeAll, List.flatMap_cons] at enough ⊢
      rw [List.length_append]
      exact value_yields_first value here _ enough fuel (ih later next)

theorem all_cut (values : List AmfValue) (fits : ∀ value ∈ values, value.Fits) (last : AmfValue)
    (final : last ∈ values.getLast?) (tiny : last.Tiny) :
    ∃ len later, len < (encodeAll values).length ∧
      ∀ fuel, Yields (decodeFuel fuel false (encodeAll values)) len later := by
  induction values with
  | nil => cases final
  | cons value values ih =>
      obtain ⟨here, later⟩ := List.forall_mem_cons.mp fits
      have first : 1 ≤ value.encode.length := Nat.succ_pos _
      rw [encodeAll, List.flatMap_cons, List.length_append]
      by_cases few : (value.encode ++ values.flatMap AmfValue.encode).length < 3
      · exact ⟨0, [], by omega, few_yield false _ few⟩
      · have more : values ≠ [] := by
          rintro rfl
          cases final
          have length := (tiny_length value tiny).2
          rw [List.flatMap_nil, List.append_nil] at few
          omega
        have final' : last ∈ values.getLast? := by
          rw [List.getLast?_cons_of_ne_nil more] at final
          exact final
        obtain ⟨len, rest, short, yields⟩ := ih later final'
        rw [encodeAll] at short yields
        exact ⟨value.encode.length + len, _, by omega,
          fun fuel => value_yields_first value here _ (Nat.le_of_not_lt few) fuel yields⟩

def ShortAll (obj : AMFObject) : Prop := ∀ p ∈ everywhere obj, p.name.length ≤ 65535

theorem short_nil : ShortAll [] := fun _ impossible => absurd impossible List.not_mem_nil

theorem short_append {left right : AMFObject} (leftShort : ShortAll left) (rightShort : ShortAll right) :
    ShortAll (left ++ right) := by
  induction left with
  | nil => exact rightShort
  | cons p left ih =>
      intro found inside
      rw [List.cons_append, everywhere, List.mem_cons, List.mem_append] at inside
      have listed : ∀ q ∈ p :: (within p ++ everywhere left), q.name.length ≤ 65535 := leftShort
      obtain ⟨here, rest⟩ := List.forall_mem_cons.mp listed
      obtain ⟨deep, later⟩ := List.forall_mem_append.mp rest
      rcases inside with rfl | inside | inside
      · exact here
      · exact deep found inside
      · exact ih later found inside

theorem short_singleton (p : AMFAny) (here : p.name.length ≤ 65535) (deep : ∀ q ∈ within p, q.name.length ≤ 65535) :
    ShortAll [p] := by
  rw [ShortAll, everywhere, everywhere, List.append_nil]
  exact List.forall_mem_cons.mpr ⟨here, deep⟩

theorem short_wrap {decoded : Decoded} {name : Bytes} (short : name.length ≤ 65535) (inside : ShortAll decoded.properties) :
    ShortAll (decoded.wrap name).properties := by
  rw [Decoded.wrap]
  dsimp only
  split
  · exact short_singleton _ short inside
  · exact short_nil

theorem short_scalar (type : AMFDataType) (name data : Bytes) (short : name.length ≤ 65535) :
    ShortAll (decodeScalar type name data).properties := by
  have single : ∀ p : AMFAny, p.name = name ∨ p.name = [] → within p = [] → ShortAll [p] := by
    intro p named plain
    refine short_singleton p ?_ (by rw [plain]; exact fun _ impossible => absurd impossible List.not_mem_nil)
    rcases named with named | named
    · rw [named]
      exact short
    · rw [named]
      exact Nat.zero_le _
  have sized : ∀ make : Bytes → AMFAny, (∀ str, (make str).name = name ∧ within (make str) = []) →
      ShortAll (decodeSized make data).properties := by
    intro make made
    rw [decodeSized]
    split
    · exact short_nil
    · split
      · exact short_nil
      · exact single _ (.inl (made _).1) (made _).2
  cases type with
  | kAMFNumber =>
      rw [decodeScalar, decodeNumber]
      split
      · exact single _ (.inl rfl) (by simp [within])
      · exact short_nil
  | kAMFBoolean =>
      rw [decodeScalar, decodeBoolean]
      split
      · exact single _ (.inl rfl) (by simp [within])
      · exact short_nil
  | kAMFString => exact sized (.string name) fun str => ⟨rfl, by simp [within]⟩
  | kAMFLongString => exact sized (.longString name) fun str => ⟨rfl, by simp [within]⟩
  | kAMFDate =>
      rw [decodeScalar, decodeDate]
      split
      · exact short_nil
      · exact single _ (.inl rfl) (by simp [within])
  | kAMFNull => exact single _ (.inr rfl) (by simp [within])
  | _ => exact short_nil

theorem map_done {result : Except AmfFault Decoded} {change : Decoded → Decoded} {decoded : Decoded}
    (done : result.map change = .ok decoded) : ∃ inner, result = .ok inner ∧ change inner = decoded := by
  cases result with
  | error fault => cases done
  | ok inner => exact ⟨inner, rfl, Except.ok.inj done⟩

theorem item_name_short (has : Bool) (data : Bytes) : (itemName has data).length ≤ 65535 := by
  rw [itemName]
  split
  · rw [decodeString, List.length_take]
    have length := read_uint16_lt data
    omega
  · exact Nat.zero_le _

def Part.ShortName : Part → Prop
  | .value _ name => name.length ≤ 65535
  | _ => True

theorem part_names_short (fuel : Nat) (part : Part) (data : Bytes) (decoded : Decoded) (short : part.ShortName)
    (done : decodePart fuel part data = .ok decoded) : ShortAll decoded.properties := by
  induction fuel generalizing part data decoded with
  | zero => cases part <;> cases done
  | succ fuel ih =>
      cases part with
      | value type name =>
          by_cases holds : HoldsObjects type
          · rcases holds with rfl | rfl | rfl
            · obtain ⟨inner, inside, rfl⟩ := map_done done
              exact short_wrap short (ih (.items true) data inner trivial inside)
            · rw [decodePart, decodeValue] at done
              split at done
              · obtain ⟨inner, inside, rfl⟩ := map_done done
                exact short_wrap short (ih (.items true) (data.drop 4) inner trivial inside)
              · cases done
            · rw [decodePart, decodeValue] at done
              split at done
              · obtain ⟨inner, inside, rfl⟩ := map_done done
                exact short_wrap short (ih (.elements _) (data.drop 4) inner trivial inside)
              · cases done
          · rw [decodePart, decode_value_scalar fuel holds] at done
            cases done
            exact short_scalar type name data short
      | element has =>
          rw [decodePart, decodeOnceFuel] at done
          split at done
          · obtain ⟨inner, inside, rfl⟩ := map_done done
            exact ih (.value _ _) _ inner (item_name_short has data) inside
          · cases done
      | elements count =>
          cases count with
          | zero =>
              cases done
              exact short_nil
          | succ count =>
              rw [decodePart, decodeElements] at done
              cases here : decodeOnceFuel fuel true data with
              | error fault =>
                  rw [here] at done
                  cases done
              | ok first =>
                  have firstShort := ih (.element true) data first trivial here
                  rw [here] at done
                  dsimp only at done
                  split at done
                  · cases done
                    exact firstShort
                  · obtain ⟨next, later, rfl⟩ := map_done done
                    exact short_append firstShort (ih (.elements count) _ next trivial later)
      | items has =>
          rw [decodePart, decodeFuel] at done
          split at done
          · cases done
            exact short_nil
          · split at done
            · cases done
              exact short_nil
            · cases here : decodeOnceFuel fuel has data with
              | error fault =>
                  rw [here] at done
                  cases done
              | ok first =>
                  have firstShort := ih (.element has) data first trivial here
                  rw [here] at done
                  dsimp only at done
                  split at done
                  · cases done
                    exact firstShort
                  · split at done
                    · cases done
                      exact firstShort
                    · obtain ⟨next, later, rfl⟩ := map_done done
                      exact short_append firstShort (ih (.items has) _ next trivial later)

mutual
theorem tree_kept (p : AMFAny) (value : AmfValue) (read : p.tree = some value)
    (short : ∀ q ∈ within p, q.name.length ≤ 65535) : value.Natural ∧ value.ShortNames := by
  cases p with
  | number name bytes =>
      rw [AMFAny.tree] at read
      obtain ⟨n, _, rfl⟩ := Option.map_eq_some_iff.mp read
      exact ⟨Int.natCast_nonneg n, trivial⟩
  | object name properties =>
      rw [AMFAny.tree] at read
      obtain ⟨members, inside, rfl⟩ := Option.map_eq_some_iff.mp read
      exact object_tree_kept properties members inside short
  | longString name str => cases read
  | date name utc utcOffset => cases read
  | _ =>
      cases read
      exact ⟨trivial, trivial⟩

theorem object_tree_kept (properties : AMFObject) (members : AmfMembers) (read : objectTree properties = some members)
    (short : ShortAll properties) : members.Natural ∧ members.ShortNames := by
  cases properties with
  | nil =>
      cases read
      exact ⟨trivial, trivial⟩
  | cons p properties =>
      rw [objectTree] at read
      obtain ⟨value, here, rest⟩ := Option.bind_eq_some_iff.mp read
      obtain ⟨later, behind, rfl⟩ := Option.map_eq_some_iff.mp rest
      have listed : ∀ q ∈ p :: (within p ++ everywhere properties), q.name.length ≤ 65535 := short
      obtain ⟨name, both⟩ := List.forall_mem_cons.mp listed
      obtain ⟨deep, after⟩ := List.forall_mem_append.mp both
      obtain ⟨valueNatural, valueShort⟩ := tree_kept p value here deep
      obtain ⟨restNatural, restShort⟩ := object_tree_kept properties later behind after
      exact ⟨⟨valueNatural, restNatural⟩, name, valueShort, restShort⟩
end

theorem within_everywhere {p : AMFAny} {obj : AMFObject} (listed : p ∈ obj) : ∀ q ∈ within p, q ∈ everywhere obj := by
  induction obj with
  | nil => cases listed
  | cons first rest ih =>
      intro q inside
      rw [everywhere, List.mem_cons, List.mem_append]
      rcases List.mem_cons.mp listed with rfl | later
      · exact .inr (.inl inside)
      · exact .inr (.inr (ih later q inside))

def Carried (values : List AmfValue) : Prop :=
  (∀ value ∈ values, value.Natural ∧ value.ShortNames) ∧ ∀ last ∈ values.getLast?, ¬ last.Tiny

theorem carried_trips (values : List AmfValue) (written : ∀ value ∈ values, value.Written) (carried : Carried values) :
    RoundTrips values := by
  obtain ⟨kept, large⟩ := carried
  have fits : ∀ value ∈ values, value.Fits := fun value inside =>
    written_fits value (written value inside) (kept value inside).2
  obtain ⟨calls, done⟩ := yields_decode (all_yield values fits large)
  refine ⟨_, done, rfl, ?_⟩
  rw [List.map_map]
  refine List.map_congr_left fun value inside => ?_
  rw [Function.comp, decoded_tree value (fits value inside) (kept value inside).1,
    written_object value (written value inside)]

theorem trips_kept (values : List AmfValue) (trips : RoundTrips values) :
    ∀ value ∈ values, value.Natural ∧ value.ShortNames := by
  obtain ⟨decoded, done, _, same⟩ := trips
  have short := part_names_short _ (.items false) _ decoded trivial done
  intro value inside
  have listed : some value ∈ decoded.properties.map AMFAny.tree := by
    rw [same]
    exact List.mem_map_of_mem inside
  obtain ⟨p, there, read⟩ := List.mem_map.mp listed
  exact tree_kept p value read fun q deep => short q (within_everywhere there q deep)

theorem tiny_lost (values : List AmfValue) (fits : ∀ value ∈ values, value.Fits) (last : AmfValue)
    (final : last ∈ values.getLast?) (tiny : last.Tiny) : ¬ RoundTrips values := by
  rintro ⟨decoded, done, whole, _⟩
  obtain ⟨len, later, short, yields⟩ := all_cut values fits last final tiny
  obtain ⟨calls, cut⟩ := yields_decode yields
  cases done.symm.trans cut
  exact Nat.ne_of_lt short (Option.some.inj whole)

theorem command_trips_iff (values : List AmfValue) (written : ∀ value ∈ values, value.Written)
    (_size : (encodeAll values).length < 2147483645) : RoundTrips values ↔ Carried values := by
  refine ⟨fun trips => ?_, carried_trips values written⟩
  have kept := trips_kept values trips
  refine ⟨kept, fun last final tiny => ?_⟩
  exact tiny_lost values (fun value inside => written_fits value (written value inside) (kept value inside).2)
    last final tiny trips

theorem publish_trips :
    RoundTrips [.string (text "publish"), .number 5, .null, .string (text "test"), .string (text "live")] := by
  refine (command_trips_iff _ ?_ (by decide)).mpr ⟨?_, ?_⟩
  · simp [AmfValue.Written, AmfValue.Scalar, text]
  · simp [AmfValue.Natural, AmfValue.ShortNames]
  · simp [AmfValue.Tiny, AmfValue.type]

theorem create_stream_lost :
    (∀ value ∈ [AmfValue.string (text "createStream"), .number 4, .null], value.Written) ∧
      ¬ RoundTrips [.string (text "createStream"), .number 4, .null] := by
  refine ⟨?_, tiny_lost _ ?_ .null rfl (.inl rfl)⟩
  · simp [AmfValue.Written, AmfValue.Scalar, text]
  · simp [AmfValue.Fits, text]

end Lssvc.Mmedia
