import Lssvc.Foundation.Words
import Lssvc.Mmedia.Bytes

set_option autoImplicit false

namespace Lssvc.Mmedia

open Lssvc.Foundation

inductive AMFDataType where
  | kAMFNumber
  | kAMFBoolean
  | kAMFString
  | kAMFObject
  | kAMFMovieClip
  | kAMFNull
  | kAMFUndefined
  | kAMFReference
  | kAMFEcmaArray
  | kAMFObjectEnd
  | kAMStrictArray
  | kAMFDate
  | kAMFLongString
  | kAMFUnsupported
  | kAMFRecordset
  | kAMFXMLDoc
  | kAMFTypedObject
  | kAMFAvmplus
  | kAMFInvalid
deriving DecidableEq, Repr

-- Every byte from 18 on falls out of the switch, as the types that are not
-- supported do.
def AMFDataType.ofByte (type : UInt8) : AMFDataType :=
  match type.toNat with
  | 0 => kAMFNumber
  | 1 => kAMFBoolean
  | 2 => kAMFString
  | 3 => kAMFObject
  | 4 => kAMFMovieClip
  | 5 => kAMFNull
  | 6 => kAMFUndefined
  | 7 => kAMFReference
  | 8 => kAMFEcmaArray
  | 9 => kAMFObjectEnd
  | 10 => kAMStrictArray
  | 11 => kAMFDate
  | 12 => kAMFLongString
  | 13 => kAMFUnsupported
  | 14 => kAMFRecordset
  | 15 => kAMFXMLDoc
  | 16 => kAMFTypedObject
  | 17 => kAMFAvmplus
  | _ => kAMFInvalid

-- A number and a date keep the eight bytes they are read from.
inductive AMFAny where
  | number (name : Bytes) (bytes : Bytes)
  | boolean (name : Bytes) (b : Bool)
  | string (name : Bytes) (str : Bytes)
  | longString (name : Bytes) (str : Bytes)
  | object (name : Bytes) (properties : List AMFAny)
  | date (name : Bytes) (utc : Bytes) (utcOffset : Bytes)
  | null
deriving Repr

inductive AmfFault where
  | outOfBounds
  | outOfFuel
deriving DecidableEq, Repr

structure AmfCall where
  size : Nat
  returned : Option Nat
  added : Nat
deriving DecidableEq, Repr

-- What is returned (none is -1), the properties added on the way there, and the
-- calls made.
structure Decoded where
  returned : Option Nat
  properties : List AMFAny := []
  calls : List AmfCall := []
deriving Repr

def Decoded.failed : Decoded := { returned := none }

def Decoded.skip (size : Nat) (decoded : Decoded) : Decoded :=
  { decoded with returned := decoded.returned.map (size + ·) }

def Decoded.call (decoded : Decoded) (size : Nat) : AmfCall :=
  { size := size, returned := decoded.returned, added := decoded.properties.length }

def Decoded.andThen (first : Decoded) (size : Nat) (next : Decoded) : Decoded :=
  { returned := next.returned.map (size + ·)
    properties := first.properties ++ next.properties
    calls := first.calls ++ next.calls }

def Decoded.wrap (decoded : Decoded) (name : Bytes) : Decoded :=
  { decoded with properties := if decoded.returned.isSome then [.object name decoded.properties] else [] }

def Decoded.log (decoded : Decoded) (size : Nat) : Decoded :=
  { decoded with calls := decoded.calls ++ [decoded.call size] }

def decodeNumber (name data : Bytes) : Decoded :=
  if 8 ≤ data.length then { returned := some 8, properties := [.number name (data.take 8)] } else .failed

def decodeBoolean (name data : Bytes) : Decoded :=
  if 1 ≤ data.length then { returned := some 1, properties := [.boolean name (data.headD 0 != 0)] } else .failed

-- AMFLongString reads a 16-bit length too.
def decodeSized (make : Bytes → AMFAny) (data : Bytes) : Decoded :=
  if data.length < 2 then .failed
  else if data.length < readUint16T data + 2 then .failed
  else { returned := some (readUint16T data + 2), properties := [make ((data.drop 2).take (readUint16T data))] }

def decodeAMFString (name data : Bytes) : Decoded := decodeSized (.string name) data

def decodeLongString (name data : Bytes) : Decoded := decodeSized (.longString name) data

def decodeDate (name data : Bytes) : Decoded :=
  if data.length < 10 then .failed
  else { returned := some 10, properties := [.date name (data.take 8) ((data.drop 8).take 2)] }

-- The branches of the switch that decode no other object. Where nothing is
-- supported nothing is taken.
def decodeScalar (type : AMFDataType) (name data : Bytes) : Decoded :=
  match type with
  | .kAMFNumber => decodeNumber name data
  | .kAMFBoolean => decodeBoolean name data
  | .kAMFString => decodeAMFString name data
  | .kAMFLongString => decodeLongString name data
  | .kAMFDate => decodeDate name data
  | .kAMFNull => { returned := some 0, properties := [.null] }
  | _ => { returned := some 0 }

-- decodeString takes no size. An empty name is not skipped: what comes next is
-- its length again.
def nameSize (has : Bool) (data : Bytes) : Nat :=
  if has then (if readUint16T data = 0 then 0 else readUint16T data + 2) else 0

def decodeString (data : Bytes) : Bytes := (data.drop 2).take (readUint16T data)

def HeaderFits (has : Bool) (data : Bytes) : Prop := (has = true → 2 ≤ data.length) ∧ nameSize has data < data.length

instance (has : Bool) (data : Bytes) : Decidable (HeaderFits has data) := instDecidableAnd

def itemName (has : Bool) (data : Bytes) : Bytes := if has then decodeString data else []

def itemType (has : Bool) (data : Bytes) : AMFDataType := .ofByte ((data.drop (nameSize has data)).headD 0)

-- `int count`
def elementCount (data : Bytes) : Nat := (toInt32 (readUint32T data)).toNat

mutual
-- The switch over the type, which decode and decodeOnce both have.
def decodeValue : Nat → AMFDataType → Bytes → Bytes → Except AmfFault Decoded
  | 0, _, _, _ => .error .outOfFuel
  | fuel + 1, type, name, data =>
      match type with
      | .kAMFObject => (decodeFuel fuel true data).map fun decoded => (decoded.log data.length).wrap name
      | .kAMFEcmaArray =>
          if 4 ≤ data.length then
            (decodeFuel fuel true (data.drop 4)).map fun decoded =>
              ((decoded.log (data.drop 4).length).wrap name).skip 4
          else .error .outOfBounds
      | .kAMStrictArray =>
          if 4 ≤ data.length then
            (decodeElements fuel (elementCount data) (data.drop 4)).map fun decoded => (decoded.wrap name).skip 4
          else .error .outOfBounds
      | type => .ok (decodeScalar type name data)

def decodeOnceFuel : Nat → Bool → Bytes → Except AmfFault Decoded
  | 0, _, _ => .error .outOfFuel
  | fuel + 1, has, data =>
      if HeaderFits has data then
        (decodeValue fuel (itemType has data) (itemName has data) (data.drop (nameSize has data + 1))).map fun decoded =>
          decoded.skip (nameSize has data + 1)
      else .error .outOfBounds

def decodeElements : Nat → Nat → Bytes → Except AmfFault Decoded
  | 0, _, _ => .error .outOfFuel
  | _ + 1, 0, _ => .ok { returned := some 0 }
  | fuel + 1, count + 1, data =>
      match decodeOnceFuel fuel true data with
      | .error fault => .error fault
      | .ok first =>
          match first.returned with
          | none => .ok (first.log data.length)
          | some len => (decodeElements fuel count (data.drop len)).map fun next => (first.log data.length).andThen len next

-- The loop of decode does what decodeOnce does, but leaves at the end of an
-- object. `parsed + 3` fits an int as long as size is below 2^31 - 3.
def decodeFuel : Nat → Bool → Bytes → Except AmfFault Decoded
  | 0, _, _ => .error .outOfFuel
  | fuel + 1, has, data =>
      if data.length < 3 then .ok { returned := some 0 }
      else if readUint24T data = 0x000009 then .ok { returned := some 3 }
      else
        match decodeOnceFuel fuel has data with
        | .error fault => .error fault
        | .ok first =>
            match first.returned with
            | none => .ok first
            | some len =>
                if itemType has data = .kAMFObjectEnd then .ok first
                else (decodeFuel fuel has (data.drop len)).map fun next => first.andThen len next
end

-- The fuel suffices: see decode_layout.
def decode (has : Bool) (data : Bytes) : Except AmfFault Decoded := decodeFuel (3 * data.length + 3) has data

end Lssvc.Mmedia
