import Mathlib.Logic.Function.Basic
import Lssvc.Mmedia.ChunkParser

set_option autoImplicit false

namespace Lssvc.Mmedia

open Lssvc.Foundation

def kRtmpBufferSize : Nat := 4096

def RtmpFmt.bits : RtmpFmt → Nat
  | .fmt0 => 0
  | .fmt1 => 1
  | .fmt2 => 2
  | .fmt3 => 3

-- out_message_headers_ and out_deltas_ of one chunk stream id.
structure OutStream where
  prev : Option RtmpMsgHeader := none
  delta : UInt32 := 0
deriving DecidableEq, Repr

-- outCurrent is the offset of out_current_ in out_buffer_. The source does not
-- check it before it writes a message's first header, so it may pass the end.
structure RtmpOut where
  streams : Nat → OutStream
  outChunkSize : Nat
  outCurrent : Nat
  sendingBuffers : List Bytes
  outSendingPackets : List Packet
  errors : List String

def RtmpOut.fresh (outChunkSize : Nat) : RtmpOut := ⟨fun _ => {}, outChunkSize, 0, [], [], []⟩

def RtmpOut.put (out : RtmpOut) (csid : Nat) (stream : OutStream) : RtmpOut :=
  { out with streams := Function.update out.streams csid stream }

def RtmpOut.putHeader (out : RtmpOut) (header : Bytes) : RtmpOut :=
  { out with
    outCurrent := out.outCurrent + header.length
    sendingBuffers := out.sendingBuffers ++ [header] }

def RtmpOut.putBody (out : RtmpOut) (body : Bytes) : RtmpOut :=
  { out with sendingBuffers := out.sendingBuffers ++ [body] }

def basicHeader (fmt : RtmpFmt) (csid : Nat) : Bytes :=
  if csid < 64 then [UInt8.ofNat ((fmt.bits <<< 6) ||| csid)]
  else if csid < 64 + 256 then [UInt8.ofNat ((fmt.bits <<< 6) ||| 0), UInt8.ofNat (csid - 64)]
  else [UInt8.ofNat ((fmt.bits <<< 6) ||| 1), UInt8.ofNat (csid - 64), UInt8.ofNat ((csid - 64) / 256)]

def timestampField (timestamp : UInt32) : UInt32 := if timestamp > 0xFFFFFF then 0xFFFFFF else timestamp

def fieldBytes (fmt : RtmpFmt) (ts : UInt32) (header : RtmpMsgHeader) : Bytes :=
  match fmt with
  | .fmt0 =>
      writeUint24T ts.toNat ++ writeUint24T header.msgLen ++ writeUint8T header.msgType ++
        storeUint32 header.msgSid.toNat
  | .fmt1 => writeUint24T ts.toNat ++ writeUint24T header.msgLen ++ writeUint8T header.msgType
  | .fmt2 => writeUint24T ts.toNat
  | .fmt3 => []

-- memcpy(p, &timestamp, 4): the host's byte order.
def extendedTimestamp (timestamp : UInt32) : Bytes :=
  if timestampField timestamp = 0xFFFFFF then storeUint32 timestamp.toNat else []

def chunkFormat (s : OutStream) (header : RtmpMsgHeader) (timestamp : UInt32) (fmt0 : Bool) : RtmpFmt × UInt32 :=
  match s.prev with
  | none => (.fmt0, timestamp)
  | some prev =>
      if fmt0 = false ∧ prev.timestamp ≤ timestamp ∧ header.msgSid = prev.msgSid then
        let delta := timestamp - prev.timestamp
        if header.msgType = prev.msgType ∧ header.msgLen = prev.msgLen then
          if delta = s.delta then (.fmt3, delta) else (.fmt2, delta)
        else (.fmt1, delta)
      else (.fmt0, timestamp)

def rememberSent (s : OutStream) (header : RtmpMsgHeader) (fmt : RtmpFmt) (timestamp : UInt32) : OutStream :=
  { prev := some { header with
      timestamp := if fmt = .fmt0 then timestamp else (s.prev.getD {}).timestamp + timestamp }
    delta :=
      match fmt with
      | .fmt0 => 0
      | .fmt1 | .fmt2 => timestamp
      | .fmt3 => s.delta }

-- The body loop. Lengths are ints in the source and far below 2^31. What lies
-- behind size_ in the packet is not modelled: no caller sets a msg_len above it.
def buildBody (out : RtmpOut) (csid msgLen : Nat) (timestamp : UInt32) (body : Bytes) (bytesParsed : Nat) :
    RtmpOut :=
  let size := min (msgLen - bytesParsed) out.outChunkSize
  let sent := out.putBody ((body.drop bytesParsed).take size)
  if bytesParsed + size < msgLen then
    if kRtmpBufferSize ≤ out.outCurrent then { sent with errors := out.errors ++ ["RTMP buffer out of range"] }
    else
      buildBody (sent.putHeader (basicHeader .fmt3 csid ++ extendedTimestamp timestamp)) csid msgLen timestamp
        body (bytesParsed + size)
  else sent
termination_by kRtmpBufferSize - out.outCurrent
decreasing_by
  have longer : 0 < (basicHeader .fmt3 csid).length := by
    rw [basicHeader]
    split
    · exact Nat.zero_lt_one
    · split <;> exact Nat.succ_pos _
  simp only [RtmpOut.putHeader, RtmpOut.putBody, List.length_append]
  omega

-- Everything before the body loop: the first header and the remembered one.
def beginMessage (out : RtmpOut) (packet : Packet) (header : RtmpMsgHeader) (fmt : RtmpFmt) (carried : UInt32) :
    RtmpOut :=
  let first := basicHeader fmt header.csId ++ fieldBytes fmt (timestampField carried) header ++
    extendedTimestamp carried
  ({ out with outSendingPackets := out.outSendingPackets ++ [packet] }.putHeader first).put header.csId
    (rememberSent (out.streams header.csId) header fmt carried)

def buildChunk (out : RtmpOut) (packet : Packet) (timestamp : UInt32) (fmt0 : Bool) : RtmpOut × Bool :=
  match packet.ext with
  | none => (out, false)
  | some header =>
      let (fmt, carried) := chunkFormat (out.streams header.csId) header timestamp fmt0
      (buildBody (beginMessage out packet header fmt carried) header.csId header.msgLen carried packet.body 0, true)

structure OutMessage where
  packet : Packet
  timestamp : UInt32
  fmt0 : Bool

def buildAll (out : RtmpOut) (messages : List OutMessage) : RtmpOut :=
  messages.foldl (fun out message => (buildChunk out message.packet message.timestamp message.fmt0).1) out

def HeadersFit (out : RtmpOut) : Prop := out.errors = [] ∧ out.outCurrent ≤ kRtmpBufferSize

instance (out : RtmpOut) : Decidable (HeadersFit out) := inferInstanceAs (Decidable (_ ∧ _))

def bodyStream (between : Bytes) (size : Nat) (payload : Bytes) : Bytes :=
  if payload.length ≤ size ∨ size = 0 then payload
  else payload.take size ++ (between ++ bodyStream between size (payload.drop size))
termination_by payload.length
decreasing_by
  rw [List.length_drop]
  omega

theorem body_stream_last (between : Bytes) (size : Nat) (payload : Bytes) (fits : payload.length ≤ size) :
    bodyStream between size payload = payload := by
  rw [bodyStream, if_pos (.inl fits)]

theorem body_stream_more (between : Bytes) (size : Nat) (payload : Bytes) (positive : 0 < size)
    (longer : size < payload.length) :
    bodyStream between size payload =
      payload.take size ++ (between ++ bodyStream between size (payload.drop size)) := by
  rw [bodyStream, if_neg (by omega)]

def continuations (size msgLen : Nat) : Nat := (msgLen - 1) / size

theorem continuations_last (size n : Nat) (positive : 0 < size) (lastOne : n ≤ size) : (n - 1) / size = 0 :=
  Nat.div_eq_of_lt (by omega)

theorem continuations_more (size n : Nat) (positive : 0 < size) (more : size < n) :
    (n - 1) / size = (n - size - 1) / size + 1 := by
  rw [show n - 1 = n - size - 1 + size by omega, Nat.add_div_right _ positive]

theorem build_body_errors (out : RtmpOut) (csid msgLen : Nat) (timestamp : UInt32) (body : Bytes)
    (bytesParsed : Nat) : out.errors <+: (buildBody out csid msgLen timestamp body bytesParsed).errors := by
  fun_induction buildBody out csid msgLen timestamp body bytesParsed with
  | case1 out bytesParsed size sent more full => exact List.prefix_append _ _
  | case2 out bytesParsed size sent more room ih => exact ih
  | case3 out bytesParsed size sent done => exact List.prefix_refl _

theorem build_body_stream (out : RtmpOut) (csid msgLen : Nat) (timestamp : UInt32) (body : Bytes)
    (bytesParsed : Nat) (positive : 0 < out.outChunkSize) (whole : body.length = msgLen)
    (fits : (buildBody out csid msgLen timestamp body bytesParsed).errors = []) :
    (buildBody out csid msgLen timestamp body bytesParsed).sendingBuffers.flatten =
      out.sendingBuffers.flatten ++
        bodyStream (basicHeader .fmt3 csid ++ extendedTimestamp timestamp) out.outChunkSize
          (body.drop bytesParsed) := by
  fun_induction buildBody out csid msgLen timestamp body bytesParsed with
  | case1 out bytesParsed size sent more full => simp at fits
  | case2 out bytesParsed size sent more room ih =>
      have cut : size = out.outChunkSize := by omega
      have later := ih positive fits
      rw [later, body_stream_more _ _ (body.drop bytesParsed) positive (by rw [List.length_drop]; omega),
        List.drop_drop, ← cut]
      simp [sent, RtmpOut.putHeader, RtmpOut.putBody, cut]
  | case3 out bytesParsed size sent done =>
      rw [body_stream_last _ _ (body.drop bytesParsed) (by rw [List.length_drop]; omega)]
      have all : (body.drop bytesParsed).take size = body.drop bytesParsed := by
        rw [List.take_of_length_le]
        rw [List.length_drop]
        omega
      simp [sent, RtmpOut.putBody, all]

theorem build_body_kept (out : RtmpOut) (csid msgLen : Nat) (timestamp : UInt32) (body : Bytes)
    (bytesParsed : Nat) :
    (buildBody out csid msgLen timestamp body bytesParsed).streams = out.streams ∧
      (buildBody out csid msgLen timestamp body bytesParsed).outChunkSize = out.outChunkSize := by
  fun_induction buildBody out csid msgLen timestamp body bytesParsed with
  | case1 => exact ⟨rfl, rfl⟩
  | case2 out bytesParsed size sent more room ih => exact ih
  | case3 => exact ⟨rfl, rfl⟩

def messageBytes (size : Nat) (s : OutStream) (header : RtmpMsgHeader) (message : OutMessage) : Bytes :=
  let (fmt, carried) := chunkFormat s header message.timestamp message.fmt0
  basicHeader fmt header.csId ++ (fieldBytes fmt (timestampField carried) header ++
    (extendedTimestamp carried ++
      bodyStream (basicHeader .fmt3 header.csId ++ extendedTimestamp carried) size message.packet.body))

def sentStream (s : OutStream) (header : RtmpMsgHeader) (message : OutMessage) : OutStream :=
  rememberSent s header (chunkFormat s header message.timestamp message.fmt0).1
    (chunkFormat s header message.timestamp message.fmt0).2

theorem build_chunk_errors (out : RtmpOut) (packet : Packet) (timestamp : UInt32) (fmt0 : Bool) :
    out.errors <+: (buildChunk out packet timestamp fmt0).1.errors := by
  rw [buildChunk]
  split
  · exact List.prefix_refl _
  · rename_i header _
    exact build_body_errors (beginMessage out packet header _ _) _ _ _ _ _

theorem build_chunk_sent (out : RtmpOut) (message : OutMessage) (header : RtmpMsgHeader)
    (ext : message.packet.ext = some header) :
    (buildChunk out message.packet message.timestamp message.fmt0).1.streams =
        Function.update out.streams header.csId (sentStream (out.streams header.csId) header message) ∧
      (buildChunk out message.packet message.timestamp message.fmt0).1.outChunkSize = out.outChunkSize := by
  rw [buildChunk]
  rw [ext]
  exact build_body_kept (beginMessage out message.packet header _ _) _ _ _ _ _

theorem build_chunk_stream (out : RtmpOut) (message : OutMessage) (header : RtmpMsgHeader)
    (ext : message.packet.ext = some header) (positive : 0 < out.outChunkSize)
    (whole : message.packet.body.length = header.msgLen)
    (fits : (buildChunk out message.packet message.timestamp message.fmt0).1.errors = []) :
    (buildChunk out message.packet message.timestamp message.fmt0).1.sendingBuffers.flatten =
      out.sendingBuffers.flatten ++
        messageBytes out.outChunkSize (out.streams header.csId) header message := by
  rw [buildChunk] at fits ⊢
  rw [ext] at fits ⊢
  have sent := build_body_stream (beginMessage out message.packet header
    (chunkFormat (out.streams header.csId) header message.timestamp message.fmt0).1
    (chunkFormat (out.streams header.csId) header message.timestamp message.fmt0).2) _ _ _ _ _ positive whole fits
  refine sent.trans ?_
  simp [beginMessage, messageBytes, RtmpOut.put, RtmpOut.putHeader]

theorem build_all_errors (out : RtmpOut) (messages : List OutMessage) :
    out.errors <+: (buildAll out messages).errors := by
  induction messages generalizing out with
  | nil => exact List.prefix_refl _
  | cons message messages ih =>
      exact (build_chunk_errors out message.packet message.timestamp message.fmt0).trans (ih _)

end Lssvc.Mmedia
