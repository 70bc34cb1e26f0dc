set_option autoImplicit false

namespace Lssvc.Mmedia

abbrev Bytes := List UInt8

-- BytesReader: network byte order. Every caller hands over exactly the bytes it
-- has checked to be there, so a short list has no meaning in the source.
def readUint32T : Bytes → Nat
  | c0 :: c1 :: c2 :: c3 :: _ => c0.toNat * 16777216 + c1.toNat * 65536 + c2.toNat * 256 + c3.toNat
  | _ => 0

def readUint24T : Bytes → Nat
  | c0 :: c1 :: c2 :: _ => c0.toNat * 65536 + c1.toNat * 256 + c2.toNat
  | _ => 0

def readUint16T : Bytes → Nat
  | c0 :: c1 :: _ => c0.toNat * 256 + c1.toNat
  | _ => 0

def readUint8T : Bytes → UInt8
  | c0 :: _ => c0
  | _ => 0

-- memcpy out of a 32-bit variable and into one, on a little-endian host.
def loadUint32 : Bytes → Nat
  | c0 :: c1 :: c2 :: c3 :: _ => c0.toNat + c1.toNat * 256 + c2.toNat * 65536 + c3.toNat * 16777216
  | _ => 0

def storeUint32 (val : Nat) : Bytes :=
  [UInt8.ofNat val, UInt8.ofNat (val / 256), UInt8.ofNat (val / 65536), UInt8.ofNat (val / 16777216)]

-- BytesWriter.
def writeUint32T (val : Nat) : Bytes :=
  [UInt8.ofNat (val / 16777216), UInt8.ofNat (val / 65536), UInt8.ofNat (val / 256), UInt8.ofNat val]

def writeUint24T (val : Nat) : Bytes :=
  [UInt8.ofNat (val / 65536), UInt8.ofNat (val / 256), UInt8.ofNat val]

def writeUint8T (val : UInt8) : Bytes := [val]

@[simp] theorem write_uint24_length (val : Nat) : (writeUint24T val).length = 3 := rfl

@[simp] theorem store_uint32_length (val : Nat) : (storeUint32 val).length = 4 := rfl

theorem read_uint24_lt (data : Bytes) : readUint24T data < 16777216 := by
  unfold readUint24T
  split
  · rename_i c0 c1 c2 _
    have h0 := c0.toNat_lt
    have h1 := c1.toNat_lt
    have h2 := c2.toNat_lt
    omega
  · decide

theorem read_write_uint24 (val : Nat) (rest : Bytes) : readUint24T (writeUint24T val ++ rest) = val % 16777216 := by
  simp only [readUint24T, writeUint24T, List.cons_append, UInt8.toNat_ofNat']
  omega

theorem read_write_uint32 (val : Nat) (small : val < 4294967296) (rest : Bytes) :
    readUint32T (writeUint32T val ++ rest) = val := by
  simp only [readUint32T, writeUint32T, List.cons_append, UInt8.toNat_ofNat']
  omega

theorem load_store_uint32 (val : Nat) (small : val < 4294967296) : loadUint32 (storeUint32 val) = val := by
  simp only [loadUint32, storeUint32, UInt8.toNat_ofNat']
  omega

end Lssvc.Mmedia
