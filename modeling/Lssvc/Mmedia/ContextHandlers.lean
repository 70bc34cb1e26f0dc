import Lssvc.Mmedia.ChunkBuilder
import Lssvc.Mmedia.ClientNaming
import Lssvc.Mmedia.ControlMessages

set_option autoImplicit false

namespace Lssvc.Mmedia

open Lssvc.Foundation Lssvc.Utils

def kRtmpCSIDAMFIni : Nat := 3

def kRtmpMsgTypeSetPeerBW : UInt8 := 6
def kRtmpMsgTypeAudio : UInt8 := 8
def kRtmpMsgTypeVideo : UInt8 := 9
def kRtmpMsgTypeAMF3Meta : UInt8 := 15
def kRtmpMsgTypeAMF3Message : UInt8 := 17
def kRtmpMsgTypeAMFMeta : UInt8 := 18
def kRtmpMsgTypeAMFMessage : UInt8 := 20

-- The calls of rtmp_handler_ made for a message; onActive, which checkAndSend calls, is
-- not among them. The handler leaves the connection open.
inductive HandlerCall where
  | onPlay (sessionName param : Str)
  | onPublish (sessionName param : Str)
  | onPublishPrepare
  | onRecv (pkt : Packet)
deriving DecidableEq, Repr

inductive ContextFault where
  | command (fault : CommandFault)
  | conversion
  | packetFull
deriving DecidableEq, Repr

-- What of RtmpContext the handlers of its messages read and write. The calls of
-- its own handler and of forceClose are recorded.
structure RtmpContext where
  naming : RtmpNaming := {}
  ackSize : Int := 2048000
  outChunkSize : Int := kRtmpBufferSize
  calls : List HandlerCall := []
  forceClosed : Bool := false
deriving DecidableEq, Repr

def RtmpContext.call (ctx : RtmpContext) (made : HandlerCall) : RtmpContext := { ctx with calls := ctx.calls ++ [made] }

def setPacketType (pkt : Packet) : Packet :=
  if pkt.type = kRtmpMsgTypeAudio.toNat then { pkt with type := kPacketTypeAudio }
  else if pkt.type = kRtmpMsgTypeVideo.toNat then { pkt with type := kPacketTypeVideo }
  else if pkt.type = kRtmpMsgTypeAMFMeta.toNat then { pkt with type := kPacketTypeMeta }
  else if pkt.type = kRtmpMsgTypeAMF3Meta.toNat then { pkt with type := kPacketTypeMeta3 }
  else pkt

-- A packet of DEFAULT_PACKET_SIZE, and the body written into it if that fits.
def amfPacket (msgSid : UInt32) (body : Option Bytes) : Except ContextFault Packet :=
  match body with
  | none => .error .packetFull
  | some body =>
      .ok
        { newPacket DEFAULT_PACKET_SIZE with
          body := body
          ext := some
            { csId := kRtmpCSIDAMFIni
              msgLen := body.length
              msgType := kRtmpMsgTypeAMFMessage
              msgSid := msgSid } }

def sendSetPeerBandwidth (ackSize : Int) : Packet :=
  controlPacket kRtmpMsgTypeSetPeerBW
    (overwrite (overwrite controlData 0 (writeUint32T (toUint32 ackSize))) 4 [0x02]) 5

def createStreamBody : Bytes := encodeString (text "createStream") ++ encodeNumber 4 ++ [AMFDataType.kAMFNull.toByte]

def statusBody (level code desc : Bytes) : Bytes :=
  encodeString (text "onStatus") ++ encodeNumber 0 ++ [AMFDataType.kAMFNull.toByte] ++ [AMFDataType.kAMFObject.toByte] ++
    encodeNamedString (text "level") level ++ encodeNamedString (text "code") code ++
    encodeNamedString (text "description") desc ++ objectEndMarker

def connectResultBody (amf3 : Bool) : Bytes :=
  encodeString (text "_result") ++ encodeNumber 1 ++ [AMFDataType.kAMFObject.toByte] ++
    encodeNamedString (text "fmsVer") (text "FMS/3,0,1,123") ++ encodeNamedNumber (text "capabilities") 31 ++
    objectEndMarker ++ [AMFDataType.kAMFObject.toByte] ++ encodeNamedString (text "level") (text "status") ++
    encodeNamedString (text "code") (text "NetConnection.Connect.Success") ++
    encodeNamedString (text "description") (text "Connection succeeded") ++
    encodeNamedNumber (text "objectEncoding") (if amf3 then 3 else 0) ++ objectEndMarker

def createStreamResultBody (tranId : Nat) : Bytes :=
  encodeString (text "_result") ++ encodeNumber tranId ++ [AMFDataType.kAMFNull.toByte] ++ encodeNumber 1

def sendStatus (level code desc : Bytes) : Except ContextFault Packet :=
  amfPacket 1 (packetBody (statusBody level code desc))

def RtmpContext.sendConnect (ctx : RtmpContext) : Except ContextFault (List Packet) := do
  let connect ← amfPacket 0 (Mmedia.sendConnect ctx.naming)
  .ok [sendSetChunkSize ctx.outChunkSize, connect]

-- number() of a value, which decode has put through a uint64_t.
def numberValue (bytes : Bytes) : Except ContextFault Nat :=
  match readUint64T bytes with
  | some value => .ok value
  | none => .error .conversion

def RtmpContext.carryOut (ctx : RtmpContext) (command : Command) : Except ContextFault (RtmpContext × List Packet) :=
  let handled := { ctx with naming := ctx.naming.handle command }
  match command with
  | .connect _ _ objectEncoding => do
      let encoding ← (objectEncoding.map numberValue).getD (.ok 0)
      let result ← amfPacket 0 (packetBody (connectResultBody (encoding == 3)))
      .ok (handled,
        [sendAckWindowSize ctx.ackSize, sendSetPeerBandwidth ctx.ackSize, sendSetChunkSize ctx.outChunkSize, result])
  | .createStream tranId => do
      let tranId ← numberValue tranId
      let result ← amfPacket 0 (packetBody (createStreamResultBody tranId))
      .ok (handled, [result])
  | .play _ _ => do
      let status ← sendStatus (text "status") (text "NetStream.Play.Start") (text "Start playing")
      .ok (handled.call (.onPlay handled.naming.sessionName handled.naming.param),
        [sendUserCtrlMessage RtmpEventType.kRtmpEventTypeStreamBegin.value 1 0, status])
  | .publish _ _ => do
      let status ← sendStatus (text "status") (text "NetStream.Publish.Start") (text "Start publish")
      .ok (handled.call (.onPublish handled.naming.sessionName handled.naming.param), [status])
  | .result id => do
      let id ← numberValue id
      if id = 1 then
        let createStream ← amfPacket 0 (packetBody createStreamBody)
        .ok (handled, [createStream])
      else if id = 4 then
        let name ← amfPacket 1 (sendName ctx.naming)
        .ok (handled, [name])
      else if id = 5 then .ok (handled.call .onPublishPrepare, [])
      else .ok (handled, [])
  | .error _ => .ok ({ handled with forceClosed := true }, [])
  | .notSupported _ => .ok (handled, [])
  | .decodeFailed => .ok (handled, [])

def RtmpContext.handleAmfCommand (ctx : RtmpContext) (amf3 : Bool) (pkt : Packet) :
    Except ContextFault (RtmpContext × List Packet) :=
  match Mmedia.handleAmfCommand amf3 pkt.body with
  | .error fault => .error (.command fault)
  | .ok command => ctx.carryOut command

-- The chunk size is the parser's.
def RtmpContext.messageComplete (ctx : RtmpContext) (data : Packet) : Except ContextFault (RtmpContext × List Packet) :=
  if data.type = kRtmpMsgTypeChunkSize.toNat then .ok (ctx, [])
  else if data.type = kRtmpMsgTypeBytesRead.toNat then .ok (ctx, [])
  else if data.type = kRtmpMsgTypeUserControl.toNat then
    .ok (ctx, ((handleUserMessage data).bind UserMessage.reply).toList)
  else if data.type = kRtmpMsgTypeWindowACKSize.toNat then
    .ok ({ ctx with ackSize := handleAckWindowSize data ctx.ackSize }, [])
  else if data.type = kRtmpMsgTypeAMF3Message.toNat then ctx.handleAmfCommand true data
  else if data.type = kRtmpMsgTypeAMFMessage.toNat then ctx.handleAmfCommand false data
  else if data.type = kRtmpMsgTypeAMFMeta.toNat ∨ data.type = kRtmpMsgTypeAMF3Meta.toNat ∨
      data.type = kRtmpMsgTypeAudio.toNat ∨ data.type = kRtmpMsgTypeVideo.toNat then
    .ok (ctx.call (.onRecv (setPacketType data)), [])
  else .ok (ctx, [])

structure RtmpContext.Grows (ctx after : RtmpContext) : Prop where
  calls : ctx.calls <+: after.calls
  closed : ctx.forceClosed = true → after.forceClosed = true

theorem grows_refl (ctx : RtmpContext) : ctx.Grows ctx := ⟨List.prefix_refl _, id⟩

theorem grows_trans {ctx between after : RtmpContext} (first : ctx.Grows between) (second : between.Grows after) :
    ctx.Grows after :=
  ⟨first.calls.trans second.calls, fun closed => second.closed (first.closed closed)⟩

theorem call_grows (ctx : RtmpContext) (naming : RtmpNaming) (made : HandlerCall) :
    ctx.Grows ({ ctx with naming := naming }.call made) :=
  ⟨List.prefix_append _ _, id⟩

theorem bind_ok {α β : Type} {source : Except ContextFault α} {next : α → Except ContextFault β} {result : β}
    (done : source >>= next = .ok result) : ∃ value, source = .ok value ∧ next value = .ok result := by
  cases source with
  | error fault => cases done
  | ok value => exact ⟨value, rfl, done⟩

theorem naming_grows (ctx : RtmpContext) (naming : RtmpNaming) : ctx.Grows { ctx with naming := naming } :=
  ⟨List.prefix_refl _, id⟩

theorem result_grows (ctx after : RtmpContext) (id : Bytes) (sent : List Packet)
    (handled : ctx.carryOut (.result id) = .ok (after, sent)) : ctx.Grows after := by
  obtain ⟨id, _, next⟩ := bind_ok handled
  split_ifs at next
  · obtain ⟨packet, _, done⟩ := bind_ok next
    cases done
    exact naming_grows ctx _
  · obtain ⟨packet, _, done⟩ := bind_ok next
    cases done
    exact naming_grows ctx _
  · cases next
    exact call_grows ctx _ _
  · cases next
    exact naming_grows ctx _

theorem carry_out_grows (ctx after : RtmpContext) (command : Command) (sent : List Packet)
    (handled : ctx.carryOut command = .ok (after, sent)) : ctx.Grows after := by
  cases command with
  | connect tcUrl app objectEncoding =>
      obtain ⟨encoding, _, next⟩ := bind_ok handled
      obtain ⟨result, _, done⟩ := bind_ok next
      cases done
      exact naming_grows ctx _
  | createStream tranId =>
      obtain ⟨tranId, _, next⟩ := bind_ok handled
      obtain ⟨result, _, done⟩ := bind_ok next
      cases done
      exact naming_grows ctx _
  | play tranId name =>
      obtain ⟨status, _, done⟩ := bind_ok handled
      cases done
      exact call_grows ctx _ _
  | publish tranId name =>
      obtain ⟨status, _, done⟩ := bind_ok handled
      cases done
      exact call_grows ctx _ _
  | result id => exact result_grows ctx after id sent handled
  | error description =>
      cases handled
      exact ⟨List.prefix_refl _, fun _ => rfl⟩
  | notSupported method =>
      cases handled
      exact naming_grows ctx _
  | decodeFailed =>
      cases handled
      exact naming_grows ctx _

theorem amf_command_grows (ctx after : RtmpContext) (amf3 : Bool) (pkt : Packet) (sent : List Packet)
    (handled : ctx.handleAmfCommand amf3 pkt = .ok (after, sent)) : ctx.Grows after := by
  rw [RtmpContext.handleAmfCommand] at handled
  split at handled
  · cases handled
  · exact carry_out_grows ctx after _ sent handled

theorem message_complete_grows (ctx after : RtmpContext) (data : Packet) (sent : List Packet)
    (handled : ctx.messageComplete data = .ok (after, sent)) : ctx.Grows after := by
  rw [RtmpContext.messageComplete] at handled
  split_ifs at handled with chunkSize bytesRead user window amf3 amf media
  · cases handled
    exact grows_refl _
  · cases handled
    exact grows_refl _
  · cases handled
    exact grows_refl _
  · cases handled
    exact ⟨List.prefix_refl _, id⟩
  · exact amf_command_grows ctx after true data sent handled
  · exact amf_command_grows ctx after false data sent handled
  · cases handled
    exact call_grows ctx ctx.naming _
  · cases handled
    exact grows_refl _

end Lssvc.Mmedia
