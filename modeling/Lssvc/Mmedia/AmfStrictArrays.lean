import Lssvc.Mmedia.AmfRoundTrip

set_option autoImplicit false

namespace Lssvc.Mmedia

open Lssvc.Foundation

inductive ArrayValue where
  | number (val : Nat)
  | string (str : Bytes)
  | boolean (b : Bool)
  | longString (str : Bytes)
  | strictArray (elements : List ArrayValue)

def ArrayValue.type : ArrayValue → AMFDataType
  | .number _ => .kAMFNumber
  | .string _ => .kAMFString
  | .boolean _ => .kAMFBoolean
  | .longString _ => .kAMFLongString
  | .strictArray _ => .kAMStrictArray

mutual
-- The AMF0 layout behind the type byte. Elements have no names.
def ArrayValue.body : ArrayValue → Bytes
  | .number val => writeNumber val
  | .string str => writeUint16T str.length ++ str
  | .boolean b => [if b then 0x01 else 0x00]
  | .longString str => writeUint32T str.length ++ str
  | .strictArray elements => writeUint32T elements.length ++ encodeValues elements

def encodeValues : List ArrayValue → Bytes
  | [] => []
  | value :: values => value.type.toByte :: (value.body ++ encodeValues values)
end

mutual
def ArrayValue.Fits : ArrayValue → Prop
  | .number val => val < 9007199254740992
  | .string str => str.length ≤ 65535
  | .boolean _ => True
  | .longString str => str.length < 4294967296
  | .strictArray elements => elements.length < 4294967296 ∧ AllFit elements

def AllFit : List ArrayValue → Prop
  | [] => True
  | value :: values => value.Fits ∧ AllFit values
end

mutual
def AMFAny.plain : AMFAny → Option ArrayValue
  | .number [] bytes => (readUint64T bytes).map .number
  | .boolean [] b => some (.boolean b)
  | .string [] str => some (.string str)
  | .longString [] str => some (.longString str)
  | .object [] properties => (plainAll properties).map .strictArray
  | _ => none

def plainAll : List AMFAny → Option (List ArrayValue)
  | [] => some []
  | p :: properties => p.plain.bind fun value => (plainAll properties).map (value :: ·)
end

def DecodesTo (data : Bytes) (values : List ArrayValue) : Prop :=
  ∃ decoded, decode false data = .ok decoded ∧ decoded.returned ≠ none ∧
    decoded.properties.map AMFAny.plain = values.map some

def Zeros (values : List ArrayValue) : Prop := ∀ value ∈ values, value = .number 0

-- What the code reads as it is written: arrays of nothing but zeros, and a long
-- string only if it is empty and zeros alone are behind it. A boolean at the end
-- is too short to be looked at.
def Decodable : List ArrayValue → Prop
  | [] => True
  | .number _ :: rest => Decodable rest
  | .string _ :: rest => Decodable rest
  | .boolean _ :: rest => rest ≠ [] ∧ Decodable rest
  | .longString str :: rest => str = [] ∧ Zeros rest
  | .strictArray elements :: rest => Zeros elements ∧ Decodable rest

theorem plain_all_iff (properties : List AMFAny) (values : List ArrayValue) :
    plainAll properties = some values ↔ properties.map AMFAny.plain = values.map some := by
  induction properties generalizing values with
  | nil =>
      rw [plainAll]
      cases values with
      | nil => exact ⟨fun _ => rfl, fun _ => rfl⟩
      | cons value values => exact ⟨fun impossible => (nomatch impossible), fun impossible => (nomatch impossible)⟩
  | cons p properties ih =>
      rw [plainAll, List.map_cons]
      constructor
      · intro read
        obtain ⟨value, here, later⟩ := Option.bind_eq_some_iff.mp read
        obtain ⟨rest, there, rfl⟩ := Option.map_eq_some_iff.mp later
        rw [here, (ih rest).mp there]
        rfl
      · cases values with
        | nil => exact fun impossible => (nomatch impossible)
        | cons value values =>
            intro read
            obtain ⟨here, later⟩ := List.cons.inj read
            rw [here, (ih values).mpr later]
            rfl

theorem plain_named (p : AMFAny) (value : ArrayValue) (read : p.plain = some value) : p ≠ .null ∧ p.name = [] := by
  cases p with
  | null => cases read
  | date name utc utcOffset => cases read
  | number name bytes => cases name with
      | nil => exact ⟨AMFAny.noConfusion, rfl⟩
      | cons c name => cases read
  | boolean name b => cases name with
      | nil => exact ⟨AMFAny.noConfusion, rfl⟩
      | cons c name => cases read
  | string name str => cases name with
      | nil => exact ⟨AMFAny.noConfusion, rfl⟩
      | cons c name => cases read
  | longString name str => cases name with
      | nil => exact ⟨AMFAny.noConfusion, rfl⟩
      | cons c name => cases read
  | object name properties => cases name with
      | nil => exact ⟨AMFAny.noConfusion, rfl⟩
      | cons c name => cases read

def OneNamed (name : Bytes) (properties : List AMFAny) : Prop :=
  properties = [] ∨ ∃ p, properties = [p] ∧ (p = .null ∨ p.name = name)

theorem wrap_one (decoded : Decoded) (name : Bytes) : OneNamed name (decoded.wrap name).properties := by
  rw [Decoded.wrap]
  cases decoded.returned with
  | none => exact .inl rfl
  | some len => exact .inr ⟨_, rfl, .inr rfl⟩

theorem sized_one (make : Bytes → AMFAny) (name data : Bytes) (named : ∀ str, (make str).name = name) :
    OneNamed name (decodeSized make data).properties := by
  rw [decodeSized]
  split
  · exact .inl rfl
  · split
    · exact .inl rfl
    · exact .inr ⟨_, rfl, .inr (named _)⟩

theorem scalar_one (type : AMFDataType) (name data : Bytes) : OneNamed name (decodeScalar type name data).properties := by
  cases type with
  | kAMFNumber =>
      rw [decodeScalar, decodeNumber]
      split
      · exact .inr ⟨_, rfl, .inr rfl⟩
      · exact .inl rfl
  | kAMFBoolean =>
      rw [decodeScalar, decodeBoolean]
      split
      · exact .inr ⟨_, rfl, .inr rfl⟩
      · exact .inl rfl
  | kAMFString => exact sized_one (.string name) name data fun _ => rfl
  | kAMFLongString => exact sized_one (.longString name) name data fun _ => rfl
  | kAMFDate =>
      rw [decodeScalar, decodeDate]
      split
      · exact .inl rfl
      · exact .inr ⟨_, rfl, .inr rfl⟩
  | kAMFNull => exact .inr ⟨.null, rfl, .inl rfl⟩
  | _ => exact .inl rfl

theorem value_one (fuel : Nat) (type : AMFDataType) (name data : Bytes) (decoded : Decoded)
    (done : decodeValue fuel type name data = .ok decoded) : OneNamed name decoded.properties := by
  cases fuel with
  | zero => cases done
  | succ fuel =>
      by_cases holds : HoldsObjects type
      · rcases holds with rfl | rfl | rfl
        · obtain ⟨inner, _, rfl⟩ := map_done done
          exact wrap_one _ name
        · rw [decodeValue] at done
          split at done
          · obtain ⟨inner, _, rfl⟩ := map_done done
            exact wrap_one _ name
          · cases done
        · rw [decodeValue] at done
          split at done
          · obtain ⟨inner, _, rfl⟩ := map_done done
            exact wrap_one _ name
          · cases done
      · rw [decode_value_scalar fuel holds] at done
        cases done
        exact scalar_one type name data

theorem element_one (fuel : Nat) (has : Bool) (data : Bytes) (decoded : Decoded)
    (done : decodeOnceFuel fuel has data = .ok decoded) :
    HeaderFits has data ∧ OneNamed (itemName has data) decoded.properties := by
  cases fuel with
  | zero => cases done
  | succ fuel =>
      rw [decodeOnceFuel] at done
      by_cases header : HeaderFits has data
      · rw [if_pos header] at done
        obtain ⟨inner, within, rfl⟩ := map_done done
        exact ⟨header, value_one fuel _ _ _ inner within⟩
      · rw [if_neg header] at done
        cases done

def ArrayValue.encode (value : ArrayValue) : Bytes := value.type.toByte :: value.body

theorem encode_values_cons (value : ArrayValue) (values : List ArrayValue) (rest : Bytes) :
    encodeValues (value :: values) ++ rest = value.encode ++ (encodeValues values ++ rest) := by
  rw [encodeValues, ArrayValue.encode, List.cons_append, List.append_assoc]
  rfl

-- The second byte of a number is the high byte of its double, which only 0 has
-- empty, and no other type byte is 0.
theorem name_length (value : ArrayValue) (fits : value.Fits) (other : value ≠ .number 0) (rest : Bytes) :
    readUint16T (value.encode ++ rest) ≠ 0 := by
  cases value with
  | number val =>
      have small : val < 9007199254740992 := fits
      have high : 4607182418800017408 ≤ binary64OfInt val := by
        rcases binary64_int_high val with zero | high
        · have same := binary64_to_uint64_int val (by omega)
          rw [zero, if_pos (Int.natCast_nonneg val)] at same
          have none : val = 0 := (Option.some.inj same).symm
          exact absurd (congrArg ArrayValue.number none) other
        · exact high
      have below := binary64_int_lt val (by omega)
      simp only [ArrayValue.encode, ArrayValue.body, ArrayValue.type, writeNumber, swappedUint64, readUint16T,
        AMFDataType.toByte, List.cons_append, UInt8.toNat_ofNat', UInt8.toNat_zero]
      omega
  | string str =>
      simp only [ArrayValue.encode, ArrayValue.body, ArrayValue.type, writeUint16T, readUint16T, AMFDataType.toByte,
        List.cons_append, show (2 : UInt8).toNat = 2 from rfl]
      omega
  | boolean b =>
      simp only [ArrayValue.encode, ArrayValue.body, ArrayValue.type, readUint16T, AMFDataType.toByte,
        List.cons_append, show (1 : UInt8).toNat = 1 from rfl]
      omega
  | longString str =>
      simp only [ArrayValue.encode, ArrayValue.body, ArrayValue.type, writeUint32T, readUint16T, AMFDataType.toByte,
        List.cons_append, show (12 : UInt8).toNat = 12 from rfl]
      omega
  | strictArray elements =>
      simp only [ArrayValue.encode, ArrayValue.body, ArrayValue.type, writeUint32T, readUint16T, AMFDataType.toByte,
        List.cons_append, show (10 : UInt8).toNat = 10 from rfl]
      omega

theorem element_named (value : ArrayValue) (fits : value.Fits) (other : value ≠ .number 0) (rest : Bytes)
    (header : HeaderFits true (value.encode ++ rest)) : itemName true (value.encode ++ rest) ≠ [] := by
  have some' := name_length value fits other rest
  have inside := header.2
  rw [nameSize, if_pos rfl, if_neg some'] at inside
  rw [itemName, if_pos rfl, decodeString]
  intro empty
  have length := congrArg List.length empty
  rw [List.length_take, List.length_drop, List.length_nil] at length
  omega

theorem zero_encode : (ArrayValue.number 0).encode = List.replicate 9 0 := by
  decide

theorem zero_plain : (AMFAny.number [] (writeNumber 0)).plain = some (.number 0) := by
  have read := read_write_number 0 (by decide)
  rw [AMFAny.plain, read]
  rfl

theorem zero_element (rest : Bytes) (fuel : Nat) :
    Yields (decodeOnceFuel fuel true ((ArrayValue.number 0).encode ++ rest)) 9 [.number [] (writeNumber 0)] := by
  have length : readUint16T ((ArrayValue.number 0).encode ++ rest) = 0 := by
    rw [zero_encode]
    rfl
  have size : nameSize true ((ArrayValue.number 0).encode ++ rest) = 0 := by
    rw [nameSize, if_pos rfl, length, if_pos rfl]
  have name : itemName true ((ArrayValue.number 0).encode ++ rest) = [] := by
    rw [itemName, if_pos rfl, decodeString, length, List.take_zero]
  have typed : itemType true ((ArrayValue.number 0).encode ++ rest) = (AmfValue.number 0).type := by
    rw [itemType, size, zero_encode]
    rfl
  have whole : ((ArrayValue.number 0).encode ++ rest).length = 9 + rest.length := by
    rw [zero_encode, List.length_append, List.length_replicate]
  exact element_yields fuel ⟨fun _ => by omega, by omega⟩ ⟨size, name⟩ typed rfl
    fun fuel => value_yields (.number 0) (Nat.zero_le _) [] rest fuel

theorem zeros_yield (elements : List ArrayValue) (zeros : Zeros elements) (rest : Bytes) (fuel : Nat) :
    Yields (decodeElements fuel elements.length (encodeValues elements ++ rest)) (encodeValues elements).length
      (elements.map fun _ => .number [] (writeNumber 0)) := by
  induction elements generalizing fuel with
  | nil =>
      cases fuel with
      | zero => exact .inl rfl
      | succ fuel => exact .inr ⟨[], rfl⟩
  | cons value elements ih =>
      obtain ⟨rfl, later⟩ := List.forall_mem_cons.mp zeros
      cases fuel with
      | zero => exact .inl rfl
      | succ fuel =>
          have length : (encodeValues (.number 0 :: elements)).length = 9 + (encodeValues elements).length := by
            have whole := congrArg List.length (encode_values_cons (.number 0) elements [])
            rw [List.append_nil, List.append_nil, List.length_append] at whole
            exact whole
          have behind : ((ArrayValue.number 0).encode ++ (encodeValues elements ++ rest)).drop 9 =
              encodeValues elements ++ rest :=
            List.drop_left' (by rw [zero_encode, List.length_replicate])
          rw [encode_values_cons, List.length_cons, decodeElements, length]
          rcases zero_element (encodeValues elements ++ rest) fuel with spent | ⟨calls, done⟩
          · rw [spent]
            exact .inl rfl
          · rw [done]
            dsimp only
            rw [behind]
            exact yields_map _ (ih later fuel) fun calls' => ⟨_, rfl⟩

theorem elements_few (count fuel : Nat) (data : Bytes) (decoded : Decoded)
    (done : decodeElements fuel count data = .ok decoded) : decoded.properties.length ≤ count := by
  induction count generalizing fuel data decoded with
  | zero =>
      cases fuel with
      | zero => cases done
      | succ fuel =>
          cases done
          exact Nat.le_refl 0
  | succ count ih =>
      cases fuel with
      | zero => cases done
      | succ fuel =>
          rw [decodeElements] at done
          cases once : decodeOnceFuel fuel true data with
          | error fault =>
              rw [once] at done
              cases done
          | ok first =>
              obtain ⟨_, one⟩ := element_one fuel true data first once
              have few : first.properties.length ≤ 1 := by
                rcases one with none | ⟨p, only, _⟩
                · rw [none]
                  exact Nat.zero_le 1
                · rw [only]
                  exact Nat.le_refl 1
              rw [once] at done
              dsimp only at done
              cases returned : first.returned with
              | none =>
                  rw [returned] at done
                  cases done
                  exact Nat.le_trans few (Nat.le_add_left 1 count)
              | some len =>
                  rw [returned] at done
                  obtain ⟨next, later, rfl⟩ := map_done done
                  have more := ih fuel _ next later
                  have both : ((first.log data.length).andThen len next).properties.length =
                      first.properties.length + next.properties.length := List.length_append
                  omega

theorem elements_need (elements : List ArrayValue) (fits : AllFit elements) (rest : Bytes) (fuel : Nat)
    (decoded : Decoded) (done : decodeElements fuel elements.length (encodeValues elements ++ rest) = .ok decoded)
    (returned : decoded.returned ≠ none) (read : decoded.properties.map AMFAny.plain = elements.map some) :
    Zeros elements := by
  induction elements generalizing fuel decoded with
  | nil => exact List.forall_mem_nil _
  | cons value elements ih =>
      obtain ⟨here, later⟩ := fits
      cases fuel with
      | zero => cases done
      | succ fuel =>
          rw [encode_values_cons, List.length_cons, decodeElements] at done
          cases once : decodeOnceFuel fuel true (value.encode ++ (encodeValues elements ++ rest)) with
          | error fault =>
              rw [once] at done
              cases done
          | ok first =>
              obtain ⟨header, one⟩ := element_one fuel true _ first once
              rw [once] at done
              dsimp only at done
              cases taken : first.returned with
              | none =>
                  rw [taken] at done
                  cases done
                  exact absurd taken returned
              | some len =>
                  rw [taken] at done
                  obtain ⟨next, behind, rfl⟩ := map_done done
                  have both : ((first.log (value.encode ++ (encodeValues elements ++ rest)).length).andThen len
                      next).properties = first.properties ++ next.properties := rfl
                  have few := elements_few _ _ _ next behind
                  rw [both] at read
                  rcases one with none | ⟨p, only, named⟩
                  · have length := congrArg List.length read
                    rw [none, List.nil_append, List.length_map, List.length_map, List.length_cons] at length
                    omega
                  · rw [only] at read
                    obtain ⟨first', others⟩ := List.cons.inj read
                    obtain ⟨some', nameless⟩ := plain_named p value first'
                    have zero : value = .number 0 := by
                      by_contra other
                      rcases named with null | name
                      · exact some' null
                      · exact element_named value here other _ header (name.symm.trans nameless)
                    subst zero
                    refine List.forall_mem_cons.mpr ⟨rfl, ih later fuel next ?_ ?_ others⟩
                    · have nine : len = 9 := by
                        rcases zero_element (encodeValues elements ++ rest) fuel with spent | ⟨calls, exact⟩
                        · cases once.symm.trans spent
                        · cases once.symm.trans exact
                          exact (Option.some.inj taken).symm
                      rw [nine, List.drop_left' (by rw [zero_encode, List.length_replicate])] at behind
                      exact behind
                    · intro failed
                      have whole : ((first.log (((ArrayValue.number 0).encode ++ (encodeValues elements ++ rest)).length)).andThen
                        len next).returned = next.returned.map (len + ·) := rfl
                      rw [whole, failed] at returned
                      exact returned rfl

theorem yields_ok {result : Except AmfFault Decoded} {len : Nat} {properties : List AMFAny} {decoded : Decoded}
    (yields : Yields result len properties) (done : result = .ok decoded) :
    decoded.returned = some len ∧ decoded.properties = properties := by
  rcases yields with spent | ⟨calls, exact⟩
  · cases done.symm.trans spent
  · cases done.symm.trans exact
    exact ⟨rfl, rfl⟩

theorem loop_step {fuel : Nat} {has : Bool} {data : Bytes} {decoded : Decoded} (enough : 3 ≤ data.length)
    (unmarked : readUint24T data ≠ 9) (open' : itemType has data ≠ .kAMFObjectEnd)
    (done : decodeFuel fuel has data = .ok decoded) (returned : decoded.returned ≠ none) :
    ∃ fuel' first len next, decodeOnceFuel fuel' has data = .ok first ∧ first.returned = some len ∧
      decodeFuel fuel' has (data.drop len) = .ok next ∧ next.returned ≠ none ∧
      decoded.properties = first.properties ++ next.properties := by
  cases fuel with
  | zero => cases done
  | succ fuel =>
      rw [decodeFuel, if_neg (by omega), if_neg unmarked] at done
      cases once : decodeOnceFuel fuel has data with
      | error fault =>
          rw [once] at done
          cases done
      | ok first =>
          rw [once] at done
          dsimp only at done
          cases taken : first.returned with
          | none =>
              rw [taken] at done
              cases done
              exact absurd taken returned
          | some len =>
              rw [taken] at done
              dsimp only at done
              rw [if_neg open'] at done
              obtain ⟨next, behind, rfl⟩ := map_done done
              refine ⟨fuel, first, len, next, once, taken, behind, ?_, rfl⟩
              intro failed
              have whole : (first.andThen len next).returned = next.returned.map (len + ·) := rfl
              rw [whole, failed] at returned
              exact returned rfl

theorem loop_short {fuel : Nat} {has : Bool} {data : Bytes} {decoded : Decoded} (few : data.length < 3)
    (done : decodeFuel fuel has data = .ok decoded) : decoded.properties = [] :=
  (yields_ok (few_yield has data few fuel) done).2

theorem encode_values_length (values : List ArrayValue) (some' : values ≠ []) : 2 ≤ (encodeValues values).length := by
  obtain ⟨value, rest, rfl⟩ := List.exists_cons_of_ne_nil some'
  have body : 1 ≤ value.body.length := by
    cases value <;> simp [ArrayValue.body, writeNumber, swappedUint64, writeUint16T, writeUint32T]
  rw [encodeValues, List.length_cons, List.length_append]
  omega

theorem tiny_plain (bytes : Bytes) (value : ArrayValue)
    (read : (AMFAny.number [] ((0 :: bytes).take 8)).plain = some value) : value = .number 0 := by
  rw [AMFAny.plain] at read
  obtain ⟨val, number, rfl⟩ := Option.map_eq_some_iff.mp read
  rw [readUint64T.eq_def] at number
  split at number
  · rename_i c0 c1 c2 c3 c4 c5 c6 c7 _ same
    obtain ⟨rfl, _⟩ := List.cons.inj same
    have h1 := c1.toNat_lt
    have h2 := c2.toNat_lt
    have h3 := c3.toNat_lt
    have h4 := c4.toNat_lt
    have h5 := c5.toNat_lt
    have h6 := c6.toNat_lt
    have h7 := c7.toNat_lt
    rw [binary64_to_uint64_tiny _ (by rw [UInt8.toNat_zero]; omega)] at number
    rw [Option.some.inj number]
  · cases number

theorem number_once {fuel len : Nat} {data : Bytes} {decoded : Decoded}
    (done : decodeOnceFuel fuel false (0 :: data) = .ok decoded) (returned : decoded.returned = some len) :
    len = 9 ∧ decoded.properties = [.number [] (data.take 8)] := by
  cases fuel with
  | zero => cases done
  | succ fuel =>
      rw [decodeOnceFuel] at done
      split at done
      · obtain ⟨inner, within, rfl⟩ := map_done done
        cases fuel with
        | zero => cases within
        | succ fuel =>
            change Except.ok (decodeNumber [] data) = Except.ok inner at within
            cases within
            rw [decodeNumber] at returned ⊢
            by_cases enough : 8 ≤ data.length
            · rw [if_pos enough] at returned ⊢
              exact ⟨(Option.some.inj returned).symm, rfl⟩
            · rw [if_neg enough] at returned
              cases returned
      · cases done

section

variable (values : List ArrayValue)

-- Behind an empty long string the two bytes that its length has left over are
-- taken for a type and the first byte of a number.
theorem shifted_need (fuel : Nat) (decoded : Decoded)
    (done : decodeFuel fuel false (0 :: 0 :: encodeValues values) = .ok decoded)
    (returned : decoded.returned ≠ none) (read : decoded.properties.map AMFAny.plain = values.map some) :
    Zeros values := by
  induction values generalizing fuel decoded with
  | nil => exact List.forall_mem_nil _
  | cons value values ih =>
      have unmarked : readUint24T (0 :: 0 :: encodeValues (value :: values)) ≠ 9 := by
        rw [encodeValues]
        change 0 * 65536 + 0 * 256 + value.type.toByte.toNat ≠ 9
        cases value <;> simp [ArrayValue.type, AMFDataType.toByte]
      have open' : itemType false (0 :: 0 :: encodeValues (value :: values)) ≠ .kAMFObjectEnd :=
        show AMFDataType.kAMFNumber ≠ .kAMFObjectEnd from AMFDataType.noConfusion
      obtain ⟨fuel', first, len, next, once, taken, behind, more, both⟩ :=
        loop_step (Nat.le_add_left 3 _) unmarked open' done returned
      obtain ⟨rfl, only⟩ := number_once once taken
      rw [both, only] at read
      obtain ⟨here, others⟩ := List.cons.inj read
      have zero := tiny_plain _ value here
      subst zero
      have rest : (0 :: 0 :: encodeValues (.number 0 :: values)).drop 9 = 0 :: 0 :: encodeValues values := by
        have order := encode_values_cons (.number 0) values []
        rw [List.append_nil, List.append_nil, zero_encode] at order
        rw [order]
        rfl
      rw [rest] at behind
      exact List.forall_mem_cons.mpr ⟨rfl, ih fuel' next behind more others⟩

theorem shifted_yield (zeros : Zeros values) (fuel : Nat) :
    Yields (decodeFuel fuel false (0 :: 0 :: encodeValues values)) (encodeValues values).length
      (values.map fun _ => .number [] (writeNumber 0)) := by
  induction values generalizing fuel with
  | nil => exact few_yield false [0, 0] (by decide) fuel
  | cons value values ih =>
      obtain ⟨rfl, later⟩ := List.forall_mem_cons.mp zeros
      have order := encode_values_cons (.number 0) values []
      rw [List.append_nil, List.append_nil, zero_encode] at order
      have turned : 0 :: 0 :: encodeValues (.number 0 :: values) =
          (AmfValue.number 0).encode ++ (0 :: 0 :: encodeValues values) := by
        have nine : (AmfValue.number 0).encode = List.replicate 9 0 := zero_encode
        rw [order, nine]
        rfl
      have length : (encodeValues (.number 0 :: values)).length =
          (AmfValue.number 0).encode.length + (encodeValues values).length := by
        rw [order, List.length_append]
        rfl
      rw [turned, length]
      refine value_yields_first (.number 0) (Nat.zero_le _) _ ?_ fuel fun fuel => ih later fuel
      rw [List.length_append]
      exact Nat.le_add_right_of_le (by decide)

end

theorem type_head (value : ArrayValue) (rest : Bytes) : itemType false (value.encode ++ rest) = value.type := by
  rw [itemType, nameSize, if_neg Bool.false_ne_true, List.drop_zero]
  exact of_to_byte value.type

theorem type_open (value : ArrayValue) : value.type ≠ .kAMFObjectEnd := by
  cases value <;> exact AMFDataType.noConfusion

theorem array_value_unmarked (value : ArrayValue) (fits : value.Fits) (rest : Bytes) :
    readUint24T (value.encode ++ rest) ≠ 9 := by
  intro marked
  have zero := marked_first value.type.toByte (value.body ++ rest) marked
  cases value with
  | number val =>
      have small : val < 9007199254740992 := fits
      exact number_unmarked val (by omega) rest marked
  | _ => cases zero

theorem once_value {fuel len : Nat} {value : ArrayValue} {rest : Bytes} {first : Decoded}
    (done : decodeOnceFuel fuel false (value.encode ++ rest) = .ok first) (returned : first.returned = some len) :
    ∃ fuel' inner len', decodeValue fuel' value.type [] (value.body ++ rest) = .ok inner ∧
      inner.returned = some len' ∧ len = 1 + len' ∧ first.properties = inner.properties := by
  cases fuel with
  | zero => cases done
  | succ fuel =>
      rw [decodeOnceFuel, type_head] at done
      split at done
      · obtain ⟨inner, within, rfl⟩ := map_done done
        obtain ⟨len', taken, rfl⟩ := skip_returned returned
        exact ⟨fuel, inner, len', within, taken, rfl, rfl⟩
      · cases done

theorem element_count (count : Nat) (small : count < 2147483648) (rest : Bytes) :
    elementCount (writeUint32T count ++ rest) = count := by
  rw [elementCount, read_write_uint32 count (by omega), to_int32_exact _ ⟨by omega, by omega⟩, Int.toNat_natCast]

theorem array_body (elements : List ArrayValue) (rest : Bytes) :
    (ArrayValue.strictArray elements).body ++ rest = writeUint32T elements.length ++ (encodeValues elements ++ rest) := by
  rw [ArrayValue.body, List.append_assoc]

theorem array_once {fuel : Nat} {elements : List ArrayValue} {rest : Bytes} {inner : Decoded} {len : Nat}
    (small : elements.length < 2147483648)
    (done : decodeValue fuel .kAMStrictArray [] ((ArrayValue.strictArray elements).body ++ rest) = .ok inner)
    (returned : inner.returned = some len) :
    ∃ fuel' decoded len', decodeElements fuel' elements.length (encodeValues elements ++ rest) = .ok decoded ∧
      decoded.returned = some len' ∧ len = 4 + len' ∧ inner.properties = [.object [] decoded.properties] := by
  cases fuel with
  | zero => cases done
  | succ fuel =>
      rw [decodeValue, array_body, element_count _ small] at done
      split at done
      · obtain ⟨decoded, within, rfl⟩ := map_done done
        obtain ⟨len', taken, rfl⟩ := skip_returned returned
        have whole : decoded.returned = some len' := taken
        have wrapped : (decoded.wrap []).properties = [.object [] decoded.properties] := by
          rw [Decoded.wrap, whole]
          rfl
        exact ⟨fuel, decoded, len', within, whole, rfl, wrapped⟩
      · cases done

theorem long_once {fuel len : Nat} {str rest : Bytes} {inner : Decoded} (small : str.length < 4294967296)
    (done : decodeValue fuel .kAMFLongString [] ((ArrayValue.longString str).body ++ rest) = .ok inner)
    (returned : inner.returned = some len) :
    len = str.length / 65536 + 2 ∧ ∃ read : Bytes, read.length ≤ str.length / 65536 ∧
      inner.properties = [.longString [] read] := by
  cases fuel with
  | zero => cases done
  | succ fuel =>
      have half : readUint16T ((ArrayValue.longString str).body ++ rest) = str.length / 65536 := by
        simp only [ArrayValue.body, writeUint32T, readUint16T, List.cons_append, UInt8.toNat_ofNat']
        omega
      have plain : ¬ HoldsObjects .kAMFLongString := by
        rintro (impossible | impossible | impossible) <;> cases impossible
      rw [decode_value_scalar fuel plain, decodeScalar, decodeLongString] at done
      cases done
      rw [decodeSized, half] at returned ⊢
      split at returned
      · cases returned
      · split at returned
        · cases returned
        · rename_i first second
          rw [if_neg first, if_neg second]
          refine ⟨(Option.some.inj returned).symm, _, ?_, rfl⟩
          rw [List.length_take]
          exact Nat.min_le_left _ _

theorem values_few (values : List ArrayValue) : values.length ≤ (encodeValues values).length := by
  induction values with
  | nil => exact Nat.le_refl 0
  | cons value values ih =>
      rw [encodeValues, List.length_cons, List.length_cons, List.length_append]
      omega

theorem array_length (elements : List ArrayValue) :
    (ArrayValue.strictArray elements).encode.length = 5 + (encodeValues elements).length := by
  simp only [ArrayValue.encode, ArrayValue.body, writeUint32T, List.length_cons, List.length_append, List.length_nil]
  omega

theorem scalar_need {value : AmfValue} (fits : value.Fits) {rest : Bytes} (enough : 3 ≤ (value.encode ++ rest).length)
    {fuel : Nat} {decoded : Decoded} (done : decodeFuel fuel false (value.encode ++ rest) = .ok decoded)
    (returned : decoded.returned ≠ none) :
    ∃ fuel' next, decodeFuel fuel' false rest = .ok next ∧ next.returned ≠ none ∧
      decoded.properties = value.decoded [] :: next.properties := by
  have open' : itemType false (value.encode ++ rest) ≠ .kAMFObjectEnd := by
    rw [itemType, nameSize, if_neg Bool.false_ne_true, List.drop_zero, AmfValue.encode, List.cons_append, type_byte_head]
    exact type_not_end value
  obtain ⟨fuel', first, len, next, once, taken, behind, more, both⟩ :=
    loop_step enough (value_unmarked value fits rest) open' done returned
  obtain ⟨whole, only⟩ := yields_ok (value_item value fits rest fuel') once
  rw [whole] at taken
  cases taken
  rw [List.drop_left] at behind
  exact ⟨fuel', next, behind, more, by rw [both, only]; rfl⟩

theorem reading_need (values : List ArrayValue) (fits : AllFit values) (size : (encodeValues values).length < 2147483645)
    (fuel : Nat) (decoded : Decoded) (done : decodeFuel fuel false (encodeValues values) = .ok decoded)
    (returned : decoded.returned ≠ none) (read : decoded.properties.map AMFAny.plain = values.map some) :
    Decodable values := by
  induction values generalizing fuel decoded with
  | nil => trivial
  | cons value values ih =>
      obtain ⟨here, later⟩ := fits
      have order := encode_values_cons value values []
      rw [List.append_nil, List.append_nil] at order
      rw [order] at done size
      rw [List.length_append] at size
      have enough : 3 ≤ (value.encode ++ encodeValues values).length := by
        by_contra few
        rw [loop_short (Nat.lt_of_not_le few) done] at read
        cases read
      have scalar : ∀ known : AmfValue, known.Fits → known.encode = value.encode → Decodable values := by
        intro known knownFits same
        rw [← same] at done enough
        obtain ⟨fuel', next, behind, more, both⟩ := scalar_need knownFits enough done returned
        rw [both] at read
        exact ih later (by omega) fuel' next behind more (List.cons.inj read).2
      have unmarked := array_value_unmarked value here (encodeValues values)
      have open' : itemType false (value.encode ++ encodeValues values) ≠ .kAMFObjectEnd := by
        rw [type_head]
        exact type_open value
      cases value with
      | number val =>
          have small : val < 9007199254740992 := here
          exact scalar (.number val) (show (val : Int).natAbs ≤ 9007199254740992 by omega) rfl
      | string str => exact scalar (.string str) (Nat.lt_succ_of_le here) rfl
      | boolean b =>
          refine ⟨?_, scalar (.boolean b) trivial rfl⟩
          rintro rfl
          exact absurd enough (by cases b <;> decide)
      | longString str =>
          obtain ⟨fuel', first, len, next, once, taken, behind, more, both⟩ :=
            loop_step enough unmarked open' done returned
          obtain ⟨fuel'', inner, len', within, whole, rfl, same⟩ := once_value once taken
          obtain ⟨rfl, string, short, only⟩ := long_once here within whole
          rw [both, same, only] at read
          obtain ⟨first', others⟩ := List.cons.inj read
          rw [AMFAny.plain, Option.some.injEq, ArrayValue.longString.injEq] at first'
          subst first'
          have empty : string = [] := List.length_eq_zero_iff.mp (by omega)
          subst empty
          exact ⟨rfl, shifted_need values fuel' next behind more others⟩
      | strictArray elements =>
          have few := values_few elements
          have length := array_length elements
          have small : elements.length < 2147483648 := by omega
          obtain ⟨fuel', first, len, next, once, taken, behind, more, both⟩ :=
            loop_step enough unmarked open' done returned
          obtain ⟨fuel'', inner, len', within, whole, rfl, same⟩ := once_value once taken
          obtain ⟨restFuel, array, len'', elementsDone, arrayTaken, rfl, only⟩ := array_once small within whole
          rw [both, same, only] at read
          obtain ⟨first', others⟩ := List.cons.inj read
          rw [AMFAny.plain] at first'
          obtain ⟨readElements, there, equal⟩ := Option.map_eq_some_iff.mp first'
          cases equal
          have zeros := elements_need elements here.2 _ restFuel array elementsDone
            (by rw [arrayTaken]; exact Option.some_ne_none _) ((plain_all_iff _ _).mp there)
          have taken' := (yields_ok (zeros_yield elements zeros (encodeValues values) restFuel) elementsDone).1
          rw [arrayTaken] at taken'
          cases taken'
          rw [List.drop_left' (by omega)] at behind
          exact ⟨zeros, ih later (by omega) fuel' next behind more others⟩

theorem zeros_plain (values : List ArrayValue) (zeros : Zeros values) :
    (values.map fun _ => AMFAny.number [] (writeNumber 0)).map AMFAny.plain = values.map some := by
  rw [List.map_map]
  refine List.map_congr_left fun value listed => ?_
  rw [Function.comp_apply, zeros value listed, zero_plain]

theorem array_value_item (elements : List ArrayValue) (zeros : Zeros elements) (small : elements.length < 2147483648)
    (rest : Bytes) (fuel : Nat) :
    Yields (decodeOnceFuel fuel false ((ArrayValue.strictArray elements).encode ++ rest))
      (ArrayValue.strictArray elements).encode.length [.object [] (elements.map fun _ => .number [] (writeNumber 0))] := by
  cases fuel with
  | zero => exact .inl rfl
  | succ fuel =>
      have size : nameSize false ((ArrayValue.strictArray elements).encode ++ rest) = 0 := if_neg Bool.false_ne_true
      have header : HeaderFits false ((ArrayValue.strictArray elements).encode ++ rest) :=
        ⟨Bool.noConfusion, Nat.succ_pos _⟩
      rw [decodeOnceFuel, if_pos header, type_head, array_length, size]
      cases fuel with
      | zero => exact .inl rfl
      | succ fuel =>
          have enough : 4 ≤ ((ArrayValue.strictArray elements).body ++ rest).length := by
            rw [array_body, List.length_append]
            exact Nat.le_add_right 4 _
          change Yields ((decodeValue (fuel + 1) .kAMStrictArray [] ((ArrayValue.strictArray elements).body ++ rest)).map
            fun decoded => decoded.skip 1) _ _
          rw [decodeValue, if_pos enough, array_body, element_count _ small]
          have array : Yields ((decodeElements fuel elements.length (encodeValues elements ++ rest)).map
              fun decoded => (decoded.wrap []).skip 4) (4 + (encodeValues elements).length)
              [.object [] (elements.map fun _ => .number [] (writeNumber 0))] :=
            yields_map _ (zeros_yield elements zeros rest fuel) fun calls => ⟨calls, rfl⟩
          rw [show 5 + (encodeValues elements).length = 1 + (4 + (encodeValues elements).length) by omega]
          exact yields_map _ array fun calls => ⟨calls, rfl⟩

theorem empty_long_item (rest : Bytes) (fuel : Nat) :
    Yields (decodeOnceFuel fuel false ((ArrayValue.longString []).encode ++ rest)) 3 [.longString [] []] := by
  cases fuel with
  | zero => exact .inl rfl
  | succ fuel =>
      have header : HeaderFits false ((ArrayValue.longString []).encode ++ rest) := ⟨Bool.noConfusion, Nat.succ_pos _⟩
      rw [decodeOnceFuel, if_pos header, type_head]
      cases fuel with
      | zero => exact .inl rfl
      | succ fuel =>
          refine .inr ⟨[], ?_⟩
          change Except.ok ((decodeSized (.longString []) (0 :: 0 :: 0 :: 0 :: rest)).skip 1) = _
          have none : readUint16T (0 :: 0 :: 0 :: 0 :: rest) = 0 := rfl
          rw [decodeSized, none, if_neg (by simp), if_neg (by simp)]
          rfl

theorem reading_more {value : ArrayValue} (fits : value.Fits) {rest : Bytes} {first : AMFAny} {len : Nat}
    (enough : 3 ≤ (value.encode ++ rest).length)
    (here : ∀ fuel, Yields (decodeOnceFuel fuel false (value.encode ++ rest)) value.encode.length [first])
    {properties : List AMFAny} (later : ∀ fuel, Yields (decodeFuel fuel false rest) len properties) (fuel : Nat) :
    Yields (decodeFuel fuel false (value.encode ++ rest)) (value.encode.length + len) (first :: properties) := by
  refine item_yields fuel enough (array_value_unmarked value fits rest) ?_ List.drop_left here later
  rw [type_head]
  exact type_open value

theorem reading_yield (values : List ArrayValue) (fits : AllFit values)
    (size : (encodeValues values).length < 2147483645) (decodable : Decodable values) :
    ∃ len properties, properties.map AMFAny.plain = values.map some ∧
      ∀ fuel, Yields (decodeFuel fuel false (encodeValues values)) len properties := by
  induction values with
  | nil => exact ⟨0, [], rfl, few_yield false [] (by decide)⟩
  | cons value values ih =>
      obtain ⟨here, later⟩ := fits
      have order := encode_values_cons value values []
      rw [List.append_nil, List.append_nil] at order
      rw [order] at size ⊢
      have both : (value.encode ++ encodeValues values).length = value.encode.length + (encodeValues values).length :=
        List.length_append
      rw [both] at size
      -- a value that the decoder makes one property of
      have more : ∀ first : AMFAny, first.plain = some value → 3 ≤ value.encode.length + (encodeValues values).length →
          (∀ fuel, Yields (decodeOnceFuel fuel false (value.encode ++ encodeValues values)) value.encode.length [first]) →
          Decodable values → ∃ len properties, properties.map AMFAny.plain = (value :: values).map some ∧
            ∀ fuel, Yields (decodeFuel fuel false (value.encode ++ encodeValues values)) len properties := by
        intro first plain enough once rest
        obtain ⟨len, properties, read, yields⟩ := ih later (by omega) rest
        refine ⟨_, first :: properties, ?_, reading_more here (by omega) once yields⟩
        rw [List.map_cons, List.map_cons, plain, read]
      cases value with
      | number val =>
          have small : val < 9007199254740992 := here
          refine more (.number [] (writeNumber val)) ?_ (Nat.le_add_right_of_le (by simp [ArrayValue.encode, ArrayValue.body]))
            (value_item (.number val) (show (val : Int).natAbs ≤ 9007199254740992 by omega) _) decodable
          rw [AMFAny.plain, read_write_number val (by omega), if_pos (Int.natCast_nonneg val)]
          rfl
      | string str =>
          refine more (.string [] str) (by rw [AMFAny.plain]) (Nat.le_add_right_of_le ?_)
            (value_item (.string str) (Nat.lt_succ_of_le here) _) decodable
          simp only [ArrayValue.encode, ArrayValue.body, List.length_cons, List.length_append, write_uint16_length]
          omega
      | boolean b =>
          have last := encode_values_length values decodable.1
          refine more (.boolean [] b) (by rw [AMFAny.plain]) ?_ (value_item (.boolean b) trivial _) decodable.2
          exact Nat.le_trans (by omega) (Nat.add_le_add (Nat.succ_pos _) last)
      | longString str =>
          obtain ⟨rfl, zeros⟩ := decodable
          refine ⟨3 + (encodeValues values).length, .longString [] [] :: values.map fun _ => .number [] (writeNumber 0), ?_,
            fun fuel => ?_⟩
          · rw [List.map_cons, List.map_cons, zeros_plain values zeros, AMFAny.plain]
          · have enough : 3 ≤ ((ArrayValue.longString []).encode ++ encodeValues values).length := by
              rw [both]
              exact Nat.le_add_right_of_le (by decide)
            refine item_yields fuel enough (array_value_unmarked _ here _) ?_ rfl (empty_long_item _)
              (shifted_yield values zeros)
            rw [type_head]
            exact AMFDataType.noConfusion
      | strictArray elements =>
          obtain ⟨zeros, rest⟩ := decodable
          have few := values_few elements
          have length := array_length elements
          refine more _ ?_ (by omega) (array_value_item elements zeros (by omega) _) rest
          rw [AMFAny.plain, (plain_all_iff _ _).mpr (zeros_plain elements zeros)]
          rfl

theorem decodes_iff (values : List ArrayValue) (fits : AllFit values) (size : (encodeValues values).length < 2147483645) :
    DecodesTo (encodeValues values) values ↔ Decodable values := by
  constructor
  · rintro ⟨decoded, done, returned, read⟩
    exact reading_need values fits size _ decoded done returned read
  · intro decodable
    obtain ⟨len, properties, read, yields⟩ := reading_yield values fits size decodable
    obtain ⟨calls, done⟩ := yields_decode yields
    exact ⟨_, done, Option.some_ne_none len, read⟩

theorem strict_array_decodes_iff (elements following : List ArrayValue)
    (fits : (ArrayValue.strictArray elements).Fits ∧ AllFit following)
    (size : (encodeValues (.strictArray elements :: following)).length < 2147483645) :
    DecodesTo (encodeValues (.strictArray elements :: following)) (.strictArray elements :: following) ↔
      Zeros elements ∧ Decodable following :=
  decodes_iff (.strictArray elements :: following) fits size

theorem zero_array_decodes :
    DecodesTo (encodeValues [.strictArray [.number 0, .number 0], .string [97], .number 7])
        [.strictArray [.number 0, .number 0], .string [97], .number 7] ↔
      Zeros [.number 0, .number 0] ∧ Decodable [.string [97], .number 7] :=
  strict_array_decodes_iff [.number 0, .number 0] [.string [97], .number 7]
    ⟨⟨by decide, show 0 < 9007199254740992 by decide, show 0 < 9007199254740992 by decide, trivial⟩,
      show 1 ≤ 65535 by decide, show 7 < 9007199254740992 by decide, trivial⟩ (by decide)

-- The element 1 is taken for a name of 63 bytes. The length 1 of the long string
-- is taken for 0, and what is left of it for the beginning of a number.
theorem strict_array_lost :
    encodeValues [.strictArray [.number 1]] = [10, 0, 0, 0, 1, 0, 63, 240, 0, 0, 0, 0, 0, 0] ∧
      ¬ DecodesTo (encodeValues [.strictArray [.number 1]]) [.strictArray [.number 1]] ∧
      encodeValues [.strictArray [], .longString [65]] = [10, 0, 0, 0, 0, 12, 0, 0, 0, 1, 65] ∧
      ¬ DecodesTo (encodeValues [.strictArray [], .longString [65]]) [.strictArray [], .longString [65]] := by
  refine ⟨by decide, ?_, by decide, ?_⟩
  · intro decodes
    have fits : AllFit [.strictArray [.number 1]] := ⟨⟨by decide, show 1 < 9007199254740992 by decide, trivial⟩, trivial⟩
    obtain ⟨zeros, _⟩ := (decodes_iff _ fits (by decide)).mp decodes
    cases zeros (.number 1) List.mem_cons_self
  · intro decodes
    have fits : AllFit [.strictArray [], .longString [65]] := ⟨⟨by decide, trivial⟩, show 1 < 4294967296 by decide, trivial⟩
    obtain ⟨_, empty, _⟩ := (decodes_iff _ fits (by decide)).mp decodes
    cases empty

end Lssvc.Mmedia
