import Lssvc.Mmedia.AmfEncode
import Lssvc.Mmedia.ChunkParser
import Lssvc.Mmedia.HandShakeDigest

set_option autoImplicit false

namespace Lssvc.Mmedia

open Lssvc.Foundation

def kRtmpCSIDCommand : Nat := 2

def kRtmpMsgTypeBytesRead : UInt8 := 3
def kRtmpMsgTypeUserControl : UInt8 := 4
def kRtmpMsgTypeWindowACKSize : UInt8 := 5

inductive RtmpEventType where
  | kRtmpEventTypeStreamBegin
  | kRtmpEventTypeStreamEOF
  | kRtmpEventTypeStreamDry
  | kRtmpEventTypeSetBufferLength
  | kRtmpEventTypeStreamsRecorded
  | kRtmpEventTypePingRequest
  | kRtmpEventTypePingResponse
deriving DecidableEq, Repr

def RtmpEventType.value : RtmpEventType → Nat
  | kRtmpEventTypeStreamBegin => 0
  | kRtmpEventTypeStreamEOF => 1
  | kRtmpEventTypeStreamDry => 2
  | kRtmpEventTypeSetBufferLength => 3
  | kRtmpEventTypeStreamsRecorded => 4
  | kRtmpEventTypePingRequest => 5
  | kRtmpEventTypePingResponse => 6

-- newPacket(64): newPacket fills with zeros.
def controlData : Bytes := List.replicate 64 0

def controlPacket (msgType : UInt8) (data : Bytes) (size : Nat) : Packet :=
  { newPacket 64 with
    body := data.take size
    ext := some { csId := kRtmpCSIDCommand, msgLen := size, msgType := msgType } }

def sendSetChunkSize (outChunkSize : Int) : Packet :=
  controlPacket kRtmpMsgTypeChunkSize (overwrite controlData 0 (writeUint32T (toUint32 outChunkSize))) 4

def sendAckWindowSize (ackSize : Int) : Packet :=
  controlPacket kRtmpMsgTypeWindowACKSize (overwrite controlData 0 (writeUint32T (toUint32 ackSize))) 4

-- p counts what has been written; every field is written to body.
def sendUserCtrlMessage (nType value1 value2 : Nat) : Packet :=
  let body := overwrite controlData 0 (writeUint16T nType)
  let body := overwrite body 0 (writeUint32T value1)
  if nType = RtmpEventType.kRtmpEventTypeSetBufferLength.value then
    controlPacket kRtmpMsgTypeUserControl (overwrite body 0 (writeUint32T value2)) 10
  else controlPacket kRtmpMsgTypeUserControl body 6

def handleAckWindowSize (pkt : Packet) (ackSize : Int) : Int :=
  if 4 ≤ pkt.getPacketSize then toInt32 (readUint32T pkt.body) else ackSize

structure UserMessage where
  type : Nat
  value : Nat
  reply : Option Packet := none
deriving DecidableEq, Repr

def handleUserMessage (pkt : Packet) : Option UserMessage :=
  if pkt.getPacketSize < 6 then none
  else
    let type := readUint16T pkt.body
    let value := readUint32T (pkt.body.drop 2)
    if type = RtmpEventType.kRtmpEventTypeSetBufferLength.value then
      if pkt.getPacketSize < 10 then none else some { type := type, value := value }
    else if type = RtmpEventType.kRtmpEventTypePingRequest.value then
      some
        { type := type
          value := value
          reply := some (sendUserCtrlMessage RtmpEventType.kRtmpEventTypePingResponse.value value 0) }
    else some { type := type, value := value }

theorem int_read_back (size : Int) (low : 0 ≤ size) (high : size < 2147483648) :
    toInt32 (readUint32T (writeUint32T (toUint32 size))) = size := by
  have word := to_uint32_exact size low (by omega)
  rw [← List.append_nil (writeUint32T _), read_write_uint32 _ (by omega), word, to_int32_exact _ ⟨by omega, high⟩]

theorem chunk_size_stored (size : Int) (low : 1 ≤ size) (high : size < 2147483648) (pkt : Packet) (st : RtmpIn)
    (received : pkt.body = (sendSetChunkSize size).body) : (handleChunkSize pkt st).inChunkSize = size := by
  have payload : pkt.body = writeUint32T (toUint32 size) := received
  have long : 4 ≤ pkt.getPacketSize := Nat.le_of_eq (congrArg List.length payload).symm
  rw [handleChunkSize, if_pos long, payload]
  exact int_read_back size (by omega) high

theorem ack_window_size_stored (size : Int) (low : 1 ≤ size) (high : size < 2147483648) (pkt : Packet) (ackSize : Int)
    (received : pkt.body = (sendAckWindowSize size).body) : handleAckWindowSize pkt ackSize = size := by
  have payload : pkt.body = writeUint32T (toUint32 size) := received
  have long : 4 ≤ pkt.getPacketSize := Nat.le_of_eq (congrArg List.length payload).symm
  rw [handleAckWindowSize, if_pos long, payload]
  exact int_read_back size (by omega) high

-- The last value written lies over the type, with the zeros of newPacket behind it.
theorem user_ctrl_payload (nType value1 value2 : Nat) :
    (sendUserCtrlMessage nType value1 value2).body =
      if nType = RtmpEventType.kRtmpEventTypeSetBufferLength.value then writeUint32T value2 ++ [0, 0, 0, 0, 0, 0]
      else writeUint32T value1 ++ [0, 0] := by
  rw [sendUserCtrlMessage]
  split <;> rfl

theorem overlaid_type (val : Nat) (small : val < 4294967296) (rest : Bytes) :
    readUint16T (writeUint32T val ++ rest) = val / 65536 := by
  simp only [readUint16T, writeUint32T, List.cons_append, UInt8.toNat_ofNat']
  omega

theorem overlaid_value (val : Nat) (rest : Bytes) :
    readUint32T ((writeUint32T val ++ 0 :: 0 :: rest).drop 2) = val % 65536 * 65536 := by
  simp only [readUint32T, writeUint32T, List.cons_append, List.nil_append, List.drop_succ_cons, List.drop_zero,
    UInt8.toNat_ofNat', UInt8.toNat_zero]
  omega

theorem user_message_fields (pkt : Packet) (message : UserMessage) (handled : handleUserMessage pkt = some message) :
    message.type = readUint16T pkt.body ∧ message.value = readUint32T (pkt.body.drop 2) := by
  rw [handleUserMessage] at handled
  dsimp only at handled
  repeat' split at handled
  all_goals cases handled
  all_goals exact ⟨rfl, rfl⟩

theorem user_message_handled (pkt : Packet) (long : 6 ≤ pkt.getPacketSize)
    (longer : readUint16T pkt.body = RtmpEventType.kRtmpEventTypeSetBufferLength.value → 10 ≤ pkt.getPacketSize) :
    ∃ message, handleUserMessage pkt = some message := by
  rw [handleUserMessage, if_neg (by omega)]
  dsimp only
  by_cases buffered : readUint16T pkt.body = RtmpEventType.kRtmpEventTypeSetBufferLength.value
  · have enough := longer buffered
    rw [if_pos buffered, if_neg (by omega)]
    exact ⟨_, rfl⟩
  · rw [if_neg buffered]
    split <;> exact ⟨_, rfl⟩

structure Carries (nType value1 value2 : Nat) (pkt : Packet) : Prop where
  size : pkt.getPacketSize = if nType = RtmpEventType.kRtmpEventTypeSetBufferLength.value then 10 else 6
  read : ∃ message, handleUserMessage pkt = some message ∧ message.type = nType ∧ message.value = value1
  last : nType = RtmpEventType.kRtmpEventTypeSetBufferLength.value → readUint32T (pkt.body.drop 6) = value2

theorem set_buffer_length_lost (value1 value2 : Nat) (small2 : value2 < 4294967296) (pkt : Packet)
    (received : pkt.body = (sendUserCtrlMessage RtmpEventType.kRtmpEventTypeSetBufferLength.value value1 value2).body) :
    ¬ Carries RtmpEventType.kRtmpEventTypeSetBufferLength.value value1 value2 pkt := by
  intro carried
  rw [user_ctrl_payload, if_pos rfl] at received
  obtain ⟨message, handled, type, _⟩ := carried.read
  have typeRead := (user_message_fields pkt message handled).1
  rw [received, overlaid_type _ small2] at typeRead
  have last := carried.last rfl
  rw [received] at last
  have nothing : readUint32T ((writeUint32T value2 ++ [0, 0, 0, 0, 0, 0]).drop 6) = 0 := rfl
  have three : RtmpEventType.kRtmpEventTypeSetBufferLength.value = 3 := rfl
  omega

theorem carries_iff (nType value1 value2 : Nat) (small1 : value1 < 4294967296) (small2 : value2 < 4294967296)
    (pkt : Packet) (received : pkt.body = (sendUserCtrlMessage nType value1 value2).body) :
    Carries nType value1 value2 pkt ↔ nType = RtmpEventType.kRtmpEventTypeStreamBegin.value ∧ value1 = 0 := by
  by_cases buffered : nType = RtmpEventType.kRtmpEventTypeSetBufferLength.value
  · subst buffered
    constructor
    · exact fun carried => absurd carried (set_buffer_length_lost value1 value2 small2 pkt received)
    · exact fun begin => absurd begin.1 (by decide)
  · rw [user_ctrl_payload, if_neg buffered] at received
    constructor
    · intro carried
      obtain ⟨message, handled, type, value⟩ := carried.read
      obtain ⟨typeRead, valueRead⟩ := user_message_fields pkt message handled
      rw [received, overlaid_type _ small1] at typeRead
      rw [received, overlaid_value] at valueRead
      have zero : RtmpEventType.kRtmpEventTypeStreamBegin.value = 0 := rfl
      omega
    · rintro ⟨begin, rfl⟩
      have untyped : readUint16T pkt.body = 0 := by
        rw [received, overlaid_type _ small1]
      have size : pkt.getPacketSize = 6 := congrArg List.length received
      obtain ⟨message, handled⟩ := user_message_handled pkt (Nat.le_of_eq size.symm)
        fun buffer => absurd (untyped.symm.trans buffer) (by decide)
      obtain ⟨typeRead, valueRead⟩ := user_message_fields pkt message handled
      rw [received, overlaid_value] at valueRead
      refine ⟨size.trans (if_neg buffered).symm, ⟨message, handled, ?_, valueRead⟩, ?_⟩
      · rw [typeRead, untyped, begin]
        rfl
      · exact fun buffer => absurd buffer buffered

theorem read_uint32_lt (data : Bytes) : readUint32T data < 4294967296 := by
  unfold readUint32T
  split
  · rename_i c0 c1 c2 c3 _
    have h0 := c0.toNat_lt
    have h1 := c1.toNat_lt
    have h2 := c2.toNat_lt
    have h3 := c3.toNat_lt
    omega
  · decide

theorem ping_request_answered (request : Packet) (message : UserMessage)
    (handled : handleUserMessage request = some message)
    (ping : message.type = RtmpEventType.kRtmpEventTypePingRequest.value) :
    message.reply =
      some (sendUserCtrlMessage RtmpEventType.kRtmpEventTypePingResponse.value message.value 0) := by
  have type := (user_message_fields request message handled).1
  have pinged : readUint16T request.body = RtmpEventType.kRtmpEventTypePingRequest.value := type.symm.trans ping
  rw [handleUserMessage] at handled
  dsimp only at handled
  rw [if_neg (fun buffer => absurd (pinged.symm.trans buffer) (by decide)), if_pos pinged] at handled
  split at handled
  · cases handled
  · cases handled
    rfl

theorem ping_response_lost (request : Packet) (message : UserMessage)
    (handled : handleUserMessage request = some message)
    (ping : message.type = RtmpEventType.kRtmpEventTypePingRequest.value) :
    ∃ reply, message.reply = some reply ∧
      ∀ pkt, pkt.body = reply.body →
        ¬ Carries RtmpEventType.kRtmpEventTypePingResponse.value message.value 0 pkt := by
  refine ⟨_, ping_request_answered request message handled ping, fun pkt received carried => ?_⟩
  have word : message.value < 4294967296 := by
    rw [(user_message_fields request message handled).2]
    exact read_uint32_lt _
  have begin := (carries_iff _ _ 0 word (by decide) pkt received).mp carried
  exact absurd begin.1 (by decide)

theorem control_messages_iff (size : Int) (low : 1 ≤ size) (high : size < 2147483648) (nType value1 value2 : Nat)
    (word1 : value1 < 4294967296) (word2 : value2 < 4294967296) :
    (∀ pkt st, pkt.body = (sendSetChunkSize size).body → (handleChunkSize pkt st).inChunkSize = size) ∧
      (∀ pkt ackSize, pkt.body = (sendAckWindowSize size).body → handleAckWindowSize pkt ackSize = size) ∧
      (∀ pkt, pkt.body = (sendUserCtrlMessage nType value1 value2).body →
        (Carries nType value1 value2 pkt ↔
          nType = RtmpEventType.kRtmpEventTypeStreamBegin.value ∧ value1 = 0)) ∧
      ∀ request message, handleUserMessage request = some message →
        message.type = RtmpEventType.kRtmpEventTypePingRequest.value →
        ∃ reply, message.reply = some reply ∧
          ∀ pkt, pkt.body = reply.body →
            ¬ Carries RtmpEventType.kRtmpEventTypePingResponse.value message.value 0 pkt :=
  ⟨chunk_size_stored size low high, ack_window_size_stored size low high,
    carries_iff nType value1 value2 word1 word2, ping_response_lost⟩

theorem control_messages_begin :
    (handleChunkSize (sendSetChunkSize 4096) .fresh).inChunkSize = 4096 ∧
      Carries 0 0 0 (sendUserCtrlMessage 0 0 0) := by
  obtain ⟨chunk, _, carried, _⟩ := control_messages_iff 4096 (by decide) (by decide) 0 0 0 (by decide) (by decide)
  exact ⟨chunk _ _ rfl, (carried _ rfl).mpr ⟨rfl, rfl⟩⟩

theorem ping_response_shifted :
    handleUserMessage (sendUserCtrlMessage RtmpEventType.kRtmpEventTypePingResponse.value 7 0) =
        some { type := 0, value := 458752 } ∧
      ¬ ∀ nType value1 value2 : Nat, nType < 32768 → value1 < 4294967296 → value2 < 4294967296 →
          Carries nType value1 value2 (sendUserCtrlMessage nType value1 value2) := by
  refine ⟨by decide, fun all => ?_⟩
  obtain ⟨message, handled, type, _⟩ := (all 6 7 0 (by decide) (by decide) (by decide)).read
  have shifted : handleUserMessage (sendUserCtrlMessage 6 7 0) = some { type := 0, value := 458752 } := by decide
  rw [handled] at shifted
  cases shifted
  exact absurd type (by decide)

end Lssvc.Mmedia
