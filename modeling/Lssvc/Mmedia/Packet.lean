import Lssvc.Foundation.Words
import Lssvc.Mmedia.Bytes

set_option autoImplicit false

namespace Lssvc.Mmedia

open Lssvc.Foundation

def kPacketTypeVideo : Nat := 1
def kPacketTypeAudio : Nat := 2
def kPacketTypeMeta : Nat := 4
def kPacketTypeMeta3 : Nat := 8
def kFrameTypeKeyFrame : Nat := 16
def kPacketTypeUnknown : Nat := 255

def kRtmpMsgTypeChunkSize : UInt8 := 1

structure RtmpMsgHeader where
  csId : Nat := 0
  timestamp : UInt32 := 0
  msgLen : Nat := 0
  msgType : UInt8 := 0
  msgSid : UInt32 := 0
deriving DecidableEq, Repr

-- The bytes are the first size_ bytes behind the packet, so size_ is their
-- count; what newPacket zeroed behind them is read by nobody.
structure Packet where
  type : Nat := kPacketTypeUnknown
  index : Int := -1
  timestamp : Nat := 0
  capacity : Int
  body : Bytes := []
  ext : Option RtmpMsgHeader := none
deriving DecidableEq, Repr

def newPacket (size : Nat) : Packet := { capacity := toInt32 size }

def Packet.getPacketSize (packet : Packet) : Nat := packet.body.length

-- timestamp_ is unsigned, its getter is not.
def Packet.getTimestamp (packet : Packet) : Int := toInt64 packet.timestamp

def Packet.isVideo (packet : Packet) : Bool := packet.type &&& kPacketTypeVideo == kPacketTypeVideo

def Packet.isAudio (packet : Packet) : Bool := packet.type == kPacketTypeAudio

def Packet.isMeta (packet : Packet) : Bool := packet.type == kPacketTypeMeta

def Packet.isKeyFrame (packet : Packet) : Bool :=
  packet.type &&& kFrameTypeKeyFrame == kFrameTypeKeyFrame && packet.type &&& kPacketTypeVideo == kPacketTypeVideo

-- A packet of in_packets_ gets its header by setExt when it is created and
-- keeps it until it is complete, so here the header is not optional.
structure InPacket where
  capacity : Int
  body : Bytes := []
  header : RtmpMsgHeader
deriving DecidableEq, Repr

def InPacket.getSpace (packet : InPacket) : Int := toInt32 (packet.capacity - packet.body.length)

-- memcpy behind the bytes already there, and updatePacketSize.
def InPacket.append (packet : InPacket) (body : Bytes) : InPacket := { packet with body := packet.body ++ body }

@[simp] theorem append_capacity (packet : InPacket) (body : Bytes) :
    (packet.append body).capacity = packet.capacity := rfl

@[simp] theorem append_body (packet : InPacket) (body : Bytes) :
    (packet.append body).body = packet.body ++ body := rfl

@[simp] theorem append_header (packet : InPacket) (body : Bytes) :
    (packet.append body).header = packet.header := rfl

theorem append_space (packet : InPacket) (body : Bytes) (range : InInt32 packet.capacity)
    (room : packet.body.length + body.length ≤ packet.capacity) :
    (packet.append body).getSpace = packet.capacity - (packet.body.length + body.length) := by
  obtain ⟨low, high⟩ := range
  rw [InPacket.getSpace, append_capacity, append_body, List.length_append, to_int32_exact _ ⟨by omega, by omega⟩]
  omega

def InPacket.complete (packet : InPacket) : Packet :=
  { type := packet.header.msgType.toNat
    timestamp := packet.header.timestamp.toNat
    capacity := packet.capacity
    body := packet.body
    ext := some packet.header }

end Lssvc.Mmedia
