import Lssvc.Mmedia.AmfEncode
import Lssvc.Mmedia.AmfLayout
import Lssvc.Mmedia.Commands

set_option autoImplicit false

namespace Lssvc.Mmedia

open Lssvc.Foundation

-- What a sender encodes. The number in front of an ECMA array may be any.
mutual
inductive AmfValue where
  | number (val : Int)
  | string (str : Bytes)
  | boolean (b : Bool)
  | null
  | object (members : AmfMembers)
  | ecmaArray (count : Nat) (members : AmfMembers)

inductive AmfMembers where
  | nil
  | cons (name : Bytes) (value : AmfValue) (rest : AmfMembers)
end

def AmfValue.type : AmfValue → AMFDataType
  | .number _ => .kAMFNumber
  | .string _ => .kAMFString
  | .boolean _ => .kAMFBoolean
  | .null => .kAMFNull
  | .object _ => .kAMFObject
  | .ecmaArray _ _ => .kAMFEcmaArray

mutual
def AmfValue.body : AmfValue → Bytes
  | .number val => writeNumber val
  | .string str => writeUint16T str.length ++ str
  | .boolean b => [if b then 0x01 else 0x00]
  | .null => []
  | .object members => members.encode
  | .ecmaArray count members => writeUint32T count ++ members.encode

def AmfMembers.encode : AmfMembers → Bytes
  | .nil => objectEndMarker
  | .cons name value rest => encodeName name ++ (value.type.toByte :: value.body) ++ rest.encode
end

def AmfValue.encode (value : AmfValue) : Bytes := value.type.toByte :: value.body

mutual
-- What the layout has room for: lengths of 16 bits, integers a double holds, and
-- no null under a name.
def AmfValue.Fits : AmfValue → Prop
  | .number val => val.natAbs ≤ 9007199254740992
  | .string str => str.length < 65536
  | .object members => members.Fits
  | .ecmaArray _ members => members.Fits
  | _ => True

def AmfMembers.Fits : AmfMembers → Prop
  | .nil => True
  | .cons name value rest => name ≠ [] ∧ name.length < 65536 ∧ value.type ≠ .kAMFNull ∧ value.Fits ∧ rest.Fits
end

mutual
-- What the decoder makes of it. An ECMA array becomes an object.
def AmfValue.decoded (name : Bytes) : AmfValue → AMFAny
  | .number val => .number name (writeNumber val)
  | .string str => .string name str
  | .boolean b => .boolean name b
  | .null => .null
  | .object members => .object name members.decoded
  | .ecmaArray _ members => .object name members.decoded

def AmfMembers.decoded : AmfMembers → AMFObject
  | .nil => []
  | .cons name value rest => value.decoded name :: rest.decoded
end

def Yields (result : Except AmfFault Decoded) (len : Nat) (properties : List AMFAny) : Prop :=
  result = .error .outOfFuel ∨ ∃ calls, result = .ok ⟨some len, properties, calls⟩

theorem yields_map {result : Except AmfFault Decoded} {len len' : Nat} {properties properties' : List AMFAny}
    (change : Decoded → Decoded) (yields : Yields result len properties)
    (changed : ∀ calls, ∃ calls', change ⟨some len, properties, calls⟩ = ⟨some len', properties', calls'⟩) :
    Yields (result.map change) len' properties' := by
  rcases yields with spent | ⟨calls, done⟩
  · rw [spent]
    exact .inl rfl
  · obtain ⟨calls', same⟩ := changed calls
    rw [done]
    exact .inr ⟨calls', congrArg Except.ok same⟩

theorem type_byte_head (value : AmfValue) (rest : Bytes) :
    AMFDataType.ofByte ((value.type.toByte :: rest).headD 0) = value.type := of_to_byte value.type

theorem named_header (name : Bytes) (some' : name ≠ []) (short : name.length < 65536) (value : AmfValue) (rest : Bytes) :
    let data := encodeName name ++ value.encode ++ rest
    HeaderFits true data ∧ nameSize true data = name.length + 2 ∧ itemName true data = name ∧
      itemType true data = value.type ∧ data.drop (name.length + 3) = value.body ++ rest := by
  have length : readUint16T (encodeName name ++ value.encode ++ rest) = name.length := by
    rw [encodeName, List.append_assoc, List.append_assoc, read_write_uint16 _ short]
  have positive := List.length_pos_iff.mpr some'
  have size : nameSize true (encodeName name ++ value.encode ++ rest) = name.length + 2 := by
    rw [nameSize, if_pos rfl, length, if_neg (by omega)]
  have front : (encodeName name).length = name.length + 2 := encode_name_length name
  have whole : (encodeName name ++ value.encode ++ rest).length = name.length + 3 + (value.body ++ rest).length := by
    simp only [List.length_append, front, AmfValue.encode, List.length_cons]
    omega
  have behind : (encodeName name ++ value.encode ++ rest).drop (name.length + 2) = value.encode ++ rest := by
    rw [List.append_assoc, ← front, List.drop_left]
  dsimp only
  refine ⟨⟨fun _ => ?_, ?_⟩, size, ?_, ?_, ?_⟩
  · omega
  · omega
  · rw [itemName, if_pos rfl, decodeString, length, encodeName, List.append_assoc, List.append_assoc,
      List.drop_left' (write_uint16_length _), List.take_left]
  · rw [itemType, size, behind]
    exact type_byte_head value _
  · rw [show name.length + 3 = name.length + 2 + 1 from rfl, ← List.drop_drop, behind]
    rfl

theorem element_yields {has : Bool} {data name rest : Bytes} {value : AmfValue} {size : Nat} (fuel : Nat)
    (header : HeaderFits has data) (named : nameSize has data = size ∧ itemName has data = name)
    (typed : itemType has data = value.type) (behind : data.drop (size + 1) = value.body ++ rest)
    (inner : ∀ fuel, Yields (decodeValue fuel value.type name (value.body ++ rest)) value.body.length [value.decoded name]) :
    Yields (decodeOnceFuel fuel has data) (size + 1 + value.body.length) [value.decoded name] := by
  cases fuel with
  | zero => exact .inl rfl
  | succ fuel =>
      rw [decodeOnceFuel, if_pos header, typed, named.1, named.2, behind]
      exact yields_map _ (inner fuel) fun calls => ⟨calls, rfl⟩

theorem item_yields {has : Bool} {data rest : Bytes} {first : AMFAny} {len more : Nat} {later : AMFObject} (fuel : Nat)
    (enough : 3 ≤ data.length) (unmarked : readUint24T data ≠ 9) (open' : itemType has data ≠ .kAMFObjectEnd)
    (behind : data.drop len = rest) (here : ∀ fuel, Yields (decodeOnceFuel fuel has data) len [first])
    (next : ∀ fuel, Yields (decodeFuel fuel has rest) more later) :
    Yields (decodeFuel fuel has data) (len + more) (first :: later) := by
  cases fuel with
  | zero => exact .inl rfl
  | succ fuel =>
      rw [decodeFuel, if_neg (by omega), if_neg unmarked]
      rcases here fuel with spent | ⟨calls, done⟩
      · rw [spent]
        exact .inl rfl
      · rw [done]
        dsimp only
        rw [if_neg open', behind]
        exact yields_map _ (next fuel) fun calls' => ⟨calls ++ calls', rfl⟩

theorem type_not_end (value : AmfValue) : value.type ≠ .kAMFObjectEnd := by
  cases value <;> exact AMFDataType.noConfusion

-- The length of a name is not 0, so its two bytes never start an end marker.
theorem name_unmarked (name : Bytes) (some' : name ≠ []) (short : name.length < 65536) (rest : Bytes) :
    3 ≤ (encodeName name ++ rest).length ∧ readUint24T (encodeName name ++ rest) ≠ 9 := by
  cases name with
  | nil => exact absurd rfl some'
  | cons c name =>
      rw [List.length_cons] at short
      simp only [encodeName, writeUint16T, readUint24T, List.cons_append, List.nil_append, List.length_cons,
        UInt8.toNat_ofNat']
      omega

mutual
theorem value_yields (value : AmfValue) (fits : value.Fits) (name rest : Bytes) (fuel : Nat) :
    Yields (decodeValue fuel value.type name (value.body ++ rest)) value.body.length [value.decoded name] := by
  cases fuel with
  | zero => exact .inl rfl
  | succ fuel =>
      cases value with
      | number val =>
          have taken : (writeNumber val ++ rest).take 8 = writeNumber val := List.take_left' (write_number_length val)
          have enough : 8 ≤ (writeNumber val ++ rest).length := by
            rw [List.length_append, write_number_length]
            exact Nat.le_add_right 8 _
          refine .inr ⟨[], ?_⟩
          change Except.ok (decodeNumber name (writeNumber val ++ rest)) = _
          rw [decodeNumber, if_pos enough, taken]
          rfl
      | string str =>
          have length : readUint16T (writeUint16T str.length ++ (str ++ rest)) = str.length := read_write_uint16 _ fits _
          have taken : (writeUint16T str.length ++ str).length = str.length + 2 := by
            rw [List.length_append, write_uint16_length, Nat.add_comm]
          have whole : (writeUint16T str.length ++ (str ++ rest)).length = str.length + 2 + rest.length := by
            simp only [List.length_append, write_uint16_length]
            omega
          refine .inr ⟨[], ?_⟩
          change Except.ok (decodeSized _ ((writeUint16T str.length ++ str) ++ rest)) = _
          rw [List.append_assoc, decodeSized, length, whole, if_neg (by omega), if_neg (by omega),
            List.drop_left' (write_uint16_length _), List.take_left]
          change _ = Except.ok (Decoded.mk (some (writeUint16T str.length ++ str).length) _ _)
          rw [taken]
          rfl
      | boolean b =>
          refine .inr ⟨[], ?_⟩
          cases b <;> rfl
      | null =>
          refine .inr ⟨[], ?_⟩
          rfl
      | object members =>
          exact yields_map _ (members_yield members fits rest fuel) fun calls => ⟨_, rfl⟩
      | ecmaArray count members =>
          have enough : 4 ≤ (writeUint32T count ++ members.encode ++ rest).length := by
            rw [List.append_assoc, List.length_append]
            exact Nat.le_add_right 4 _
          have behind : (writeUint32T count ++ members.encode ++ rest).drop 4 = members.encode ++ rest := by
            rw [List.append_assoc]
            rfl
          have length : (writeUint32T count ++ members.encode).length = 4 + members.encode.length := List.length_append
          change Yields (decodeValue (fuel + 1) .kAMFEcmaArray name (writeUint32T count ++ members.encode ++ rest))
            (writeUint32T count ++ members.encode).length _
          rw [decodeValue, if_pos enough, behind, length]
          exact yields_map _ (members_yield members fits rest fuel) fun calls => ⟨_, rfl⟩

theorem members_yield (members : AmfMembers) (fits : members.Fits) (rest : Bytes) (fuel : Nat) :
    Yields (decodeFuel fuel true (members.encode ++ rest)) members.encode.length members.decoded := by
  cases members with
  | nil =>
      cases fuel with
      | zero => exact .inl rfl
      | succ fuel =>
          refine .inr ⟨[], ?_⟩
          change decodeFuel (fuel + 1) true (0 :: 0 :: 9 :: rest) = _
          rw [decodeFuel, if_neg (by simp), if_pos (by simp [readUint24T])]
          rfl
  | cons name value later =>
      obtain ⟨some', short, _, valueFits, laterFits⟩ := fits
      have order : (AmfMembers.cons name value later).encode ++ rest =
          encodeName name ++ value.encode ++ (later.encode ++ rest) := by
        rw [AmfMembers.encode, AmfValue.encode, List.append_assoc]
      obtain ⟨header, size, named, typed, behind⟩ := named_header name some' short value (later.encode ++ rest)
      obtain ⟨enough, unmarked⟩ := name_unmarked name some' short (value.encode ++ (later.encode ++ rest))
      rw [← List.append_assoc] at enough unmarked
      have length : (AmfMembers.cons name value later).encode.length =
          name.length + 2 + 1 + value.body.length + later.encode.length := by
        simp only [AmfMembers.encode, List.length_append, encode_name_length, List.length_cons]
        omega
      rw [order, length]
      refine item_yields fuel enough unmarked (by rw [typed]; exact type_not_end value) ?_
        (fun fuel => element_yields fuel header ⟨size, named⟩ typed behind fun fuel =>
          value_yields value valueFits name (later.encode ++ rest) fuel)
        fun fuel => members_yield later laterFits rest fuel
      rw [← List.drop_drop, behind, List.drop_left]
end

theorem yields_decode {has : Bool} {data : Bytes} {len : Nat} {properties : AMFObject}
    (yields : ∀ fuel, Yields (decodeFuel fuel has data) len properties) :
    ∃ calls, decode has data = .ok ⟨some len, properties, calls⟩ := by
  have expected := decode_layout (3 * data.length + 3) (.items has) data (Nat.le_refl _)
  rcases yields (3 * data.length + 3) with spent | done
  · rw [decodePart, spent] at expected
    exact expected.elim
  · exact done

mutual
def AMFAny.tree : AMFAny → Option AmfValue
  | .number _ bytes => (readUint64T bytes).map fun n : Nat => .number n
  | .boolean _ b => some (.boolean b)
  | .string _ str => some (.string str)
  | .object _ properties => (objectTree properties).map .object
  | .null => some .null
  | _ => none

def objectTree : AMFObject → Option AmfMembers
  | [] => some .nil
  | p :: properties => (p.tree).bind fun value => (objectTree properties).map (.cons p.name value)
end

mutual
def AmfValue.asObject : AmfValue → AmfValue
  | .object members => .object members.asObjects
  | .ecmaArray _ members => .object members.asObjects
  | value => value

def AmfMembers.asObjects : AmfMembers → AmfMembers
  | .nil => .nil
  | .cons name value rest => .cons name value.asObject rest.asObjects
end

mutual
-- readUint64T has no meaning for a negative number.
def AmfValue.Natural : AmfValue → Prop
  | .number val => 0 ≤ val
  | .object members => members.Natural
  | .ecmaArray _ members => members.Natural
  | _ => True

def AmfMembers.Natural : AmfMembers → Prop
  | .nil => True
  | .cons _ value rest => value.Natural ∧ rest.Natural
end

theorem decoded_name (value : AmfValue) (named : value.type ≠ .kAMFNull) (name : Bytes) :
    (value.decoded name).name = name := by
  cases value with
  | null => exact absurd rfl named
  | _ => rfl

mutual
theorem decoded_tree (value : AmfValue) (fits : value.Fits) (natural : value.Natural) (name : Bytes) :
    (value.decoded name).tree = some value.asObject := by
  cases value with
  | number val =>
      have positive : 0 ≤ val := natural
      rw [AmfValue.decoded, AMFAny.tree, read_write_number val fits, if_pos positive, Option.map_some,
        Int.toNat_of_nonneg positive]
      rfl
  | object members => exact congrArg (Option.map _) (decoded_object_tree members fits natural)
  | ecmaArray count members => exact congrArg (Option.map _) (decoded_object_tree members fits natural)
  | _ => rfl

theorem decoded_object_tree (members : AmfMembers) (fits : members.Fits) (natural : members.Natural) :
    objectTree members.decoded = some members.asObjects := by
  cases members with
  | nil => rfl
  | cons name value rest =>
      obtain ⟨_, _, named, valueFits, restFits⟩ := fits
      rw [AmfMembers.decoded, objectTree, decoded_tree value valueFits natural.1 name,
        decoded_object_tree rest restFits natural.2, decoded_name value named]
      rfl
end

mutual
def AmfValue.Nested : AmfValue → Prop
  | .number val => 0 ≤ val ∧ val < 9007199254740992
  | .string str => str.length ≤ 65535
  | .boolean _ => True
  | .null => False
  | .object members => members.Nested
  | .ecmaArray _ members => members.Nested

def AmfMembers.Nested : AmfMembers → Prop
  | .nil => True
  | .cons name value rest => name ≠ [] ∧ name.length ≤ 65535 ∧ value.Nested ∧ rest.Nested
end

mutual
theorem nested_value (value : AmfValue) (nested : value.Nested) :
    value.type ≠ .kAMFNull ∧ value.Fits ∧ value.Natural := by
  cases value with
  | number val =>
      obtain ⟨low, high⟩ := nested
      refine ⟨AMFDataType.noConfusion, ?_, low⟩
      rw [AmfValue.Fits]
      omega
  | string str => exact ⟨AMFDataType.noConfusion, Nat.lt_succ_of_le nested, trivial⟩
  | boolean b => exact ⟨AMFDataType.noConfusion, trivial, trivial⟩
  | null => exact nested.elim
  | object members => exact ⟨AMFDataType.noConfusion, nested_members members nested⟩
  | ecmaArray count members => exact ⟨AMFDataType.noConfusion, nested_members members nested⟩

theorem nested_members (members : AmfMembers) (nested : members.Nested) : members.Fits ∧ members.Natural := by
  cases members with
  | nil => exact ⟨trivial, trivial⟩
  | cons name value rest =>
      obtain ⟨some', short, valueNested, restNested⟩ := nested
      obtain ⟨named, valueFits, valueNatural⟩ := nested_value value valueNested
      obtain ⟨restFits, restNatural⟩ := nested_members rest restNested
      exact ⟨⟨some', Nat.lt_succ_of_le short, named, valueFits, restFits⟩, valueNatural, restNatural⟩
end

theorem nested_decoded (members : AmfMembers) (nested : members.Nested) (rest : Bytes) :
    ∃ calls, decode true (members.encode ++ rest) = .ok ⟨some members.encode.length, members.decoded, calls⟩ :=
  yields_decode (members_yield members (nested_members members nested).1 rest)

theorem nested_objects_rebuilt (members : AmfMembers) (nested : members.Nested) (rest : Bytes)
    (_size : (members.encode ++ rest).length < 2147483648) : ∃ decoded, decode true (members.encode ++ rest) = .ok decoded ∧
      decoded.returned = some members.encode.length ∧ objectTree decoded.properties = some members.asObjects := by
  obtain ⟨calls, done⟩ := nested_decoded members nested rest
  obtain ⟨fits, natural⟩ := nested_members members nested
  exact ⟨_, done, rfl, decoded_object_tree members fits natural⟩

theorem nested_array_rebuilt :
    ∃ decoded, decode true ((AmfMembers.cons [97] (.ecmaArray 1 (.cons [98] (.number 3) .nil)) .nil).encode ++ [1]) =
        .ok decoded ∧ decoded.returned = some 26 ∧
      objectTree decoded.properties = some (.cons [97] (.object (.cons [98] (.number 3) .nil)) .nil) :=
  nested_objects_rebuilt (.cons [97] (.ecmaArray 1 (.cons [98] (.number 3) .nil)) .nil)
    ⟨by decide, by decide, ⟨by decide, by decide, by constructor <;> decide, trivial⟩, trivial⟩ [1] (by decide)

theorem ecma_array_kind_lost :
    ¬ ∃ tree : AMFObject → AmfMembers, ∀ members : AmfMembers, members.Nested → members.encode.length < 2147483648 →
      ∃ decoded, decode true members.encode = .ok decoded ∧ decoded.returned = some members.encode.length ∧
        tree decoded.properties = members := by
  rintro ⟨tree, rebuilt⟩
  have same : ∀ value : AmfValue, value.Nested → (AmfMembers.cons [97] value .nil).encode.length < 2147483648 →
      tree [value.decoded [97]] = .cons [97] value .nil := by
    intro value nested size
    have whole : (AmfMembers.cons [97] value .nil).Nested := ⟨by decide, by decide, nested, trivial⟩
    obtain ⟨decoded, done, _, read⟩ := rebuilt _ whole size
    obtain ⟨calls, done'⟩ := nested_decoded _ whole []
    rw [List.append_nil] at done'
    cases done.symm.trans done'
    exact read
  have object := same (.object .nil) trivial (by decide)
  have array := same (.ecmaArray 0 .nil) trivial (by decide)
  cases object.symm.trans array

end Lssvc.Mmedia
