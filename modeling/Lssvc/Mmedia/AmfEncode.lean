import Lssvc.Foundation.Binary64
import Lssvc.Mmedia.Amf

set_option autoImplicit false

namespace Lssvc.Mmedia

open Lssvc.Foundation

def AMFDataType.toByte : AMFDataType → UInt8
  | kAMFNumber => 0
  | kAMFBoolean => 1
  | kAMFString => 2
  | kAMFObject => 3
  | kAMFMovieClip => 4
  | kAMFNull => 5
  | kAMFUndefined => 6
  | kAMFReference => 7
  | kAMFEcmaArray => 8
  | kAMFObjectEnd => 9
  | kAMStrictArray => 10
  | kAMFDate => 11
  | kAMFLongString => 12
  | kAMFUnsupported => 13
  | kAMFRecordset => 14
  | kAMFXMLDoc => 15
  | kAMFTypedObject => 16
  | kAMFAvmplus => 17
  | kAMFInvalid => 255

def writeUint16T (val : Nat) : Bytes := [UInt8.ofNat (val / 256), UInt8.ofNat val]

def swappedUint64 (val : Nat) : Bytes :=
  [UInt8.ofNat (val / 72057594037927936), UInt8.ofNat (val / 281474976710656), UInt8.ofNat (val / 1099511627776),
    UInt8.ofNat (val / 4294967296), UInt8.ofNat (val / 16777216), UInt8.ofNat (val / 65536), UInt8.ofNat (val / 256),
    UInt8.ofNat val]

-- Only numbers that are integers of at most 53 bits are ever encoded.
def writeNumber (val : Int) : Bytes := swappedUint64 (binary64OfInt val)

def encodeNumber (val : Int) : Bytes := AMFDataType.kAMFNumber.toByte :: writeNumber val

def encodeString (str : Bytes) : Bytes := AMFDataType.kAMFString.toByte :: (writeUint16T str.length ++ str)

def encodeBoolean (b : Bool) : Bytes := [AMFDataType.kAMFBoolean.toByte, if b then 0x01 else 0x00]

def encodeName (name : Bytes) : Bytes := writeUint16T name.length ++ name

def encodeNamedNumber (name : Bytes) (val : Int) : Bytes := encodeName name ++ encodeNumber val

def encodeNamedString (name val : Bytes) : Bytes := encodeName name ++ encodeString val

def encodeNamedBoolean (name : Bytes) (val : Bool) : Bytes := encodeName name ++ encodeBoolean val

-- What the senders put behind the members of an object.
def objectEndMarker : Bytes := [0x00, 0x00, 0x09]

-- BytesReader::readUint64T makes a uint64_t of the double it has read. The way
-- back in AMFNumber::decode is exact: no more bits are significant than before.
def readUint64T : Bytes → Option Nat
  | c0 :: c1 :: c2 :: c3 :: c4 :: c5 :: c6 :: c7 :: _ =>
      binary64ToUint64 (c0.toNat * 72057594037927936 + c1.toNat * 281474976710656 + c2.toNat * 1099511627776 +
        c3.toNat * 4294967296 + c4.toNat * 16777216 + c5.toNat * 65536 + c6.toNat * 256 + c7.toNat)
  | _ => none

@[simp] theorem write_number_length (val : Int) : (writeNumber val).length = 8 := rfl

@[simp] theorem write_uint16_length (val : Nat) : (writeUint16T val).length = 2 := rfl

@[simp] theorem encode_name_length (name : Bytes) : (encodeName name).length = name.length + 2 := by
  rw [encodeName, List.length_append, write_uint16_length, Nat.add_comm]

theorem of_to_byte (type : AMFDataType) : AMFDataType.ofByte type.toByte = type := by
  cases type <;> rfl

theorem read_uint16_lt (data : Bytes) : readUint16T data < 65536 := by
  unfold readUint16T
  split
  · rename_i c0 c1 _
    have h0 := c0.toNat_lt
    have h1 := c1.toNat_lt
    omega
  · decide

theorem read_write_uint16 (val : Nat) (small : val < 65536) (rest : Bytes) :
    readUint16T (writeUint16T val ++ rest) = val := by
  simp only [readUint16T, writeUint16T, List.cons_append, UInt8.toNat_ofNat']
  omega

theorem read_write_number (val : Int) (exact : val.natAbs ≤ 9007199254740992) :
    readUint64T (writeNumber val) = if 0 ≤ val then some val.toNat else none := by
  have fits := binary64_int_lt val exact
  rw [← binary64_to_uint64_int val exact, writeNumber, swappedUint64, readUint64T]
  simp only [UInt8.toNat_ofNat']
  congr 1
  omega

theorem number_unmarked (val : Int) (exact : val.natAbs ≤ 9007199254740992) (rest : Bytes) :
    readUint24T (encodeNumber val ++ rest) ≠ 9 := by
  have fits := binary64_int_lt val exact
  have high := binary64_int_high val
  simp only [encodeNumber, writeNumber, swappedUint64, readUint24T, AMFDataType.toByte, List.cons_append,
    UInt8.toNat_ofNat', UInt8.toNat_zero]
  omega

end Lssvc.Mmedia
