import Mathlib.Logic.Function.Basic
import Lssvc.Mmedia.Packet

set_option autoImplicit false

namespace Lssvc.Mmedia

open Lssvc.Foundation

inductive RtmpFmt where
  | fmt0
  | fmt1
  | fmt2
  | fmt3
deriving DecidableEq, Repr

def RtmpFmt.ofBits : Nat → RtmpFmt
  | 0 => .fmt0
  | 1 => .fmt1
  | 2 => .fmt2
  | _ => .fmt3

-- Why a read gives nothing: the bytes lie outside the readable range, or the
-- source checked their number beforehand and returned.
inductive ReadStop where
  | outOfRange
  | short
deriving DecidableEq, Repr

def readAt (buf : Bytes) (pos n : Nat) : Except ReadStop Bytes :=
  if pos + n ≤ buf.length then .ok ((buf.drop pos).take n) else .error .outOfRange

structure BasicHeader where
  fmt : RtmpFmt
  csid : Nat
  parsed : Nat
deriving DecidableEq, Repr

def readBasicHeader (total : Nat) (buf : Bytes) : Except ReadStop BasicHeader :=
  match readAt buf 0 1 with
  | .error stop => .error stop
  | .ok first =>
      let fmt := RtmpFmt.ofBits (((readUint8T first).toNat >>> 6) &&& 0x03)
      let csid := (readUint8T first).toNat &&& 0x3F
      if csid = 0 then
        if total < 2 then .error .short
        else
          match readAt buf 1 1 with
          | .error stop => .error stop
          | .ok low => .ok ⟨fmt, 64 + (readUint8T low).toNat, 2⟩
      else if csid = 1 then
        if total < 3 then .error .short
        else
          match readAt buf 1 1, readAt buf 2 1 with
          | .ok low, .ok high => .ok ⟨fmt, 64 + (readUint8T low).toNat + (readUint8T high).toNat * 256, 3⟩
          | _, _ => .error .outOfRange
      else .ok ⟨fmt, csid, 1⟩

-- The fields a message header of its format carries; the others stay zero.
structure ChunkHeader where
  fmt : RtmpFmt
  csid : Nat
  ts : UInt32 := 0
  msgLen : Nat := 0
  msgType : UInt8 := 0
  msgSid : UInt32 := 0
  parsed : Nat
deriving DecidableEq, Repr

def messageHeaderSize : RtmpFmt → Nat
  | .fmt0 => 11
  | .fmt1 => 7
  | .fmt2 => 3
  | .fmt3 => 0

def messageHeader (basic : BasicHeader) (fields : Bytes) : ChunkHeader :=
  let header : ChunkHeader :=
    { fmt := basic.fmt, csid := basic.csid, parsed := basic.parsed + messageHeaderSize basic.fmt }
  match basic.fmt with
  | .fmt0 =>
      { header with
        ts := UInt32.ofNat (readUint24T fields)
        msgLen := readUint24T (fields.drop 3)
        msgType := readUint8T (fields.drop 6)
        msgSid := UInt32.ofNat (loadUint32 (fields.drop 7)) }
  | .fmt1 =>
      { header with
        ts := UInt32.ofNat (readUint24T fields)
        msgLen := readUint24T (fields.drop 3)
        msgType := readUint8T (fields.drop 6) }
  | .fmt2 => { header with ts := UInt32.ofNat (readUint24T fields) }
  | .fmt3 => header

def readChunkHeader (total : Nat) (buf : Bytes) : Except ReadStop ChunkHeader :=
  match readBasicHeader total buf with
  | .error stop => .error stop
  | .ok basic =>
      let size := toInt32 ((total : Int) - basic.parsed)
      if size = 0 ∨ (basic.fmt = .fmt0 ∧ size < 11) ∨ (basic.fmt = .fmt1 ∧ size < 7) ∨
          (basic.fmt = .fmt2 ∧ size < 3) then .error .short
      else
        match readAt buf basic.parsed (messageHeaderSize basic.fmt) with
        | .error stop => .error stop
        | .ok fields => .ok (messageHeader basic fields)

-- in_message_headers_, in_packets_, in_deltas_ and in_ext_ are all keyed by the
-- chunk stream id: one record per id holds the four values, and a missing key
-- is the value operator[] would create.
structure InStream where
  prev : Option RtmpMsgHeader := none
  packet : Option InPacket := none
  delta : UInt32 := 0
  ext : Bool := false
deriving DecidableEq, Repr

structure RtmpIn where
  streams : Nat → InStream
  inChunkSize : Int

def RtmpIn.fresh : RtmpIn := ⟨fun _ => {}, 128⟩

def RtmpIn.put (st : RtmpIn) (csid : Nat) (stream : InStream) : RtmpIn :=
  { st with streams := Function.update st.streams csid stream }

-- The four entries while a loop pass holds references to them: prev and packet
-- have been created by then.
structure OpenStream where
  prev : RtmpMsgHeader
  packet : InPacket
  delta : UInt32
  ext : Bool
deriving DecidableEq, Repr

def OpenStream.close (s : OpenStream) : InStream := ⟨some s.prev, some s.packet, s.delta, s.ext⟩

def firstLength (inChunkSize : Int) (h : ChunkHeader) (prev : RtmpMsgHeader) : Nat :=
  if h.fmt = .fmt0 ∨ h.fmt = .fmt1 then h.msgLen
  else if prev.msgLen = 0 then toUint32 inChunkSize
  else prev.msgLen

def createPacket (csid msgLen : Nat) : InPacket :=
  { capacity := toInt32 msgLen, header := { csId := csid, msgLen := msgLen } }

def updateHeader (h : ChunkHeader) (prev header : RtmpMsgHeader) (delta : UInt32) : RtmpMsgHeader :=
  match h.fmt with
  | .fmt0 => { header with timestamp := h.ts, msgLen := h.msgLen, msgType := h.msgType, msgSid := h.msgSid }
  | .fmt1 =>
      { header with
        timestamp := h.ts + prev.timestamp, msgLen := h.msgLen, msgType := h.msgType, msgSid := prev.msgSid }
  | .fmt2 =>
      { header with
        timestamp := h.ts + prev.timestamp, msgLen := prev.msgLen, msgType := prev.msgType, msgSid := prev.msgSid }
  | .fmt3 =>
      { header with
        timestamp := if header.timestamp = 0 then delta + prev.timestamp else header.timestamp
        msgLen := prev.msgLen, msgType := prev.msgType, msgSid := prev.msgSid }

def updateDelta (h : ChunkHeader) (delta : UInt32) : UInt32 :=
  match h.fmt with
  | .fmt0 => 0
  | .fmt1 | .fmt2 => h.ts
  | .fmt3 => delta

def startChunk (inChunkSize : Int) (h : ChunkHeader) (s : InStream) : OpenStream :=
  let prev := s.prev.getD {}
  let packet := s.packet.getD (createPacket h.csid (firstLength inChunkSize h prev))
  { prev := prev
    packet := { packet with header := updateHeader h prev packet.header s.delta }
    delta := updateDelta h s.delta
    ext := if h.fmt = .fmt3 then s.ext else h.ts == 0xFFFFFF }

def applyExtended (fmt : RtmpFmt) (ts : UInt32) (s : OpenStream) : OpenStream :=
  if fmt = .fmt0 then s
  else
    { s with
      packet := { s.packet with header := { s.packet.header with timestamp := ts + s.prev.timestamp } }
      delta := ts }

def readExtended (total : Nat) (buf : Bytes) (h : ChunkHeader) (s : OpenStream) :
    Except ReadStop (OpenStream × Nat) :=
  if s.ext then
    if toUint32 ((total : Int) - h.parsed) < 4 then .error .short
    else
      match readAt buf h.parsed 4 with
      | .error stop => .error stop
      | .ok field => .ok (applyExtended h.fmt (UInt32.ofNat (readUint32T field)) s, h.parsed + 4)
  else .ok (s, h.parsed)

-- What one consumed chunk was: its header, whether four extended bytes were
-- read, the packet's size and capacity before the copy, the bytes copied and
-- consumed, and the packet if the chunk completed it.
structure Chunk where
  header : ChunkHeader
  ext : Bool
  size : Nat
  capacity : Int
  bytes : Int
  parsed : Nat
  delivered : Option Packet
deriving DecidableEq, Repr

inductive ChunkStep where
  | fault
  | wait (next : RtmpIn)
  | take (next : RtmpIn) (chunk : Chunk)

def handleChunkSize (pkt : Packet) (st : RtmpIn) : RtmpIn :=
  if 4 ≤ pkt.getPacketSize then { st with inChunkSize := toInt32 (readUint32T pkt.body) } else st

-- Of all handlers only this one changes what the parser reads.
def messageComplete (pkt : Packet) (st : RtmpIn) : RtmpIn :=
  if pkt.type = kRtmpMsgTypeChunkSize.toNat then handleChunkSize pkt st else st

def finishChunk (st : RtmpIn) (buf : Bytes) (h : ChunkHeader) (s : OpenStream) (parsed : Nat) (bytes : Int) :
    ChunkStep :=
  match readAt buf parsed bytes.toNat with
  | .error _ => .fault
  | .ok body =>
      let packet := s.packet.append body
      let chunk : Chunk := ⟨h, s.ext, s.packet.body.length, s.packet.capacity, bytes, parsed + bytes.toNat, none⟩
      if packet.getSpace = 0 then
        .take (messageComplete packet.complete (st.put h.csid ⟨some packet.header, none, s.delta, s.ext⟩))
          { chunk with delivered := some packet.complete }
      else .take (st.put h.csid ⟨some packet.header, some packet, s.delta, s.ext⟩) chunk

def copyBody (st : RtmpIn) (total : Nat) (buf : Bytes) (h : ChunkHeader) (s : OpenStream) (parsed : Nat) :
    ChunkStep :=
  let bytes := min s.packet.getSpace st.inChunkSize
  if toUint32 ((total : Int) - parsed) < toUint32 bytes then .wait (st.put h.csid s.close)
  -- memcpy takes bytes as a size_t and does not look at the capacity.
  else if bytes < 0 ∨ s.packet.capacity < s.packet.body.length + bytes then .fault
  else finishChunk st buf h s parsed bytes

-- One pass of the loop. An early return leaves the entries it has changed.
def parseChunk (st : RtmpIn) (total : Nat) (buf : Bytes) : ChunkStep :=
  match readChunkHeader total buf with
  | .error .outOfRange => .fault
  | .error .short => .wait st
  | .ok h =>
      let s := startChunk st.inChunkSize h (st.streams h.csid)
      match readExtended total buf h s with
      | .error .outOfRange => .fault
      | .error .short => .wait (st.put h.csid s.close)
      | .ok (s, parsed) => copyBody st total buf h s parsed

theorem read_at_ok (buf : Bytes) (pos n : Nat) (bytes : Bytes) (read : readAt buf pos n = .ok bytes) :
    pos + n ≤ buf.length ∧ bytes = (buf.drop pos).take n := by
  rw [readAt] at read
  split at read
  · rename_i fits
    cases read
    exact ⟨fits, rfl⟩
  · cases read

theorem basic_header_parsed (total : Nat) (buf : Bytes) (basic : BasicHeader)
    (read : readBasicHeader total buf = .ok basic) : 1 ≤ basic.parsed ∧ basic.parsed ≤ 3 := by
  rw [readBasicHeader] at read
  dsimp only at read
  repeat' split at read
  all_goals cases read
  all_goals
    dsimp only
    omega

theorem message_header_parsed (basic : BasicHeader) (fields : Bytes) :
    (messageHeader basic fields).parsed = basic.parsed + messageHeaderSize basic.fmt := by
  rw [messageHeader]
  split <;> rfl

theorem chunk_header_parsed (total : Nat) (buf : Bytes) (h : ChunkHeader)
    (read : readChunkHeader total buf = .ok h) : 1 ≤ h.parsed ∧ h.parsed ≤ buf.length := by
  rw [readChunkHeader] at read
  split at read
  · cases read
  · rename_i basic basicRead
    have positive := (basic_header_parsed total buf basic basicRead).1
    dsimp only at read
    split at read
    · cases read
    · split at read
      · cases read
      · rename_i fields fieldsRead
        have within := (read_at_ok buf _ _ fields fieldsRead).1
        cases read
        rw [message_header_parsed]
        exact ⟨by omega, within⟩

theorem extended_parsed (total : Nat) (buf : Bytes) (h : ChunkHeader) (s next : OpenStream) (parsed : Nat)
    (read : readExtended total buf h s = .ok (next, parsed)) : h.parsed ≤ parsed := by
  rw [readExtended] at read
  repeat' split at read
  all_goals cases read
  · exact Nat.le_add_right _ _
  · exact Nat.le_refl _

theorem finish_chunk_parsed (st next : RtmpIn) (buf : Bytes) (h : ChunkHeader) (s : OpenStream) (parsed : Nat)
    (bytes : Int) (chunk : Chunk) (taken : finishChunk st buf h s parsed bytes = .take next chunk) :
    chunk.parsed = parsed + bytes.toNat ∧ chunk.parsed ≤ buf.length := by
  rw [finishChunk] at taken
  split at taken
  · cases taken
  · rename_i body read
    have fits := (read_at_ok buf parsed bytes.toNat body read).1
    dsimp only at taken
    split at taken <;> cases taken <;> exact ⟨rfl, fits⟩

theorem finish_chunk_cases (st next : RtmpIn) (buf : Bytes) (h : ChunkHeader) (s : OpenStream) (parsed : Nat)
    (bytes : Int) (chunk : Chunk) (taken : finishChunk st buf h s parsed bytes = .take next chunk) :
    ∃ body, body.length = bytes.toNat ∧
      (((s.packet.append body).getSpace = 0 ∧ chunk.delivered = some (s.packet.append body).complete ∧
          next = messageComplete (s.packet.append body).complete
            (st.put h.csid ⟨some s.packet.header, none, s.delta, s.ext⟩)) ∨
        ((s.packet.append body).getSpace ≠ 0 ∧ chunk.delivered = none ∧
          next = st.put h.csid ⟨some s.packet.header, some (s.packet.append body), s.delta, s.ext⟩)) := by
  rw [finishChunk] at taken
  split at taken
  · cases taken
  · rename_i body read
    obtain ⟨within, copied⟩ := read_at_ok buf parsed bytes.toNat body read
    refine ⟨body, ?_, ?_⟩
    · rw [copied, List.length_take, List.length_drop]
      omega
    · dsimp only at taken
      split at taken
      · rename_i full
        cases taken
        exact .inl ⟨full, rfl, rfl⟩
      · rename_i more
        cases taken
        exact .inr ⟨more, rfl, rfl⟩

theorem copy_body_taken (st next : RtmpIn) (total : Nat) (buf : Bytes) (h : ChunkHeader) (s : OpenStream)
    (parsed : Nat) (chunk : Chunk) (taken : copyBody st total buf h s parsed = .take next chunk) :
    0 ≤ min s.packet.getSpace st.inChunkSize ∧
      s.packet.body.length + min s.packet.getSpace st.inChunkSize ≤ s.packet.capacity ∧
      finishChunk st buf h s parsed (min s.packet.getSpace st.inChunkSize) = .take next chunk := by
  unfold copyBody at taken
  dsimp only at taken
  split at taken
  · cases taken
  · split at taken
    · cases taken
    · exact ⟨by omega, by omega, taken⟩

theorem parse_chunk_taken (st next : RtmpIn) (total : Nat) (buf : Bytes) (chunk : Chunk)
    (taken : parseChunk st total buf = .take next chunk) :
    ∃ h s parsed, readChunkHeader total buf = .ok h ∧
      readExtended total buf h (startChunk st.inChunkSize h (st.streams h.csid)) = .ok (s, parsed) ∧
      copyBody st total buf h s parsed = .take next chunk := by
  rw [parseChunk] at taken
  split at taken
  · cases taken
  · cases taken
  · rename_i h headerRead
    dsimp only at taken
    split at taken
    · cases taken
    · cases taken
    · rename_i s parsed extendedRead
      exact ⟨h, s, parsed, headerRead, extendedRead, taken⟩

theorem parse_chunk_bounds (st next : RtmpIn) (total : Nat) (buf : Bytes) (chunk : Chunk)
    (taken : parseChunk st total buf = .take next chunk) : 0 < chunk.parsed ∧ chunk.parsed ≤ buf.length := by
  obtain ⟨h, s, parsed, headerRead, extendedRead, copied⟩ := parse_chunk_taken st next total buf chunk taken
  have positive := (chunk_header_parsed total buf h headerRead).1
  have behind := extended_parsed total buf h _ s parsed extendedRead
  obtain ⟨_, _, finished⟩ := copy_body_taken st next total buf h s parsed chunk copied
  obtain ⟨consumed, within⟩ := finish_chunk_parsed st next buf h s parsed _ chunk finished
  exact ⟨by omega, within⟩

structure LoopPass where
  before : RtmpIn
  total : Nat
  buf : Bytes
  chunk : Chunk

inductive ParseEnd where
  | returned
  | faulted
deriving DecidableEq, Repr

structure ParseOutcome where
  ending : ParseEnd
  state : RtmpIn
  buf : Bytes
  passes : List LoopPass

def ParseOutcome.idle (st : RtmpIn) : ParseOutcome := ⟨.returned, st, [], []⟩

def ParseOutcome.messages (outcome : ParseOutcome) : List Packet :=
  outcome.passes.filterMap (fun pass => pass.chunk.delivered)

-- buf.retrieve(parsed) drops the bytes from the front; total_bytes is a variable
-- of its own and only counted down.
def parseLoop (st : RtmpIn) (total : Nat) (buf : Bytes) : ParseOutcome :=
  if 1 < total then
    match _pass : parseChunk st total buf with
    | .fault => ⟨.faulted, st, buf, []⟩
    | .wait next => ⟨.returned, next, buf, []⟩
    | .take next chunk =>
        let later := parseLoop next (toUint32 ((total : Int) - chunk.parsed)) (buf.drop chunk.parsed)
        { later with passes := ⟨st, total, buf, chunk⟩ :: later.passes }
  else ⟨.returned, st, buf, []⟩
termination_by buf.length
decreasing_by
  have progress := parse_chunk_bounds st next total buf chunk _pass
  rw [List.length_drop]
  omega

theorem parse_loop_ends (st : RtmpIn) (total : Nat) (buf : Bytes) (short : total ≤ 1) :
    parseLoop st total buf = ⟨.returned, st, buf, []⟩ := by
  rw [parseLoop]
  exact if_neg (Nat.not_lt.mpr short)

theorem parse_loop_wait (st next : RtmpIn) (total : Nat) (buf : Bytes) (more : 1 < total)
    (waited : parseChunk st total buf = .wait next) : parseLoop st total buf = ⟨.returned, next, buf, []⟩ := by
  rw [parseLoop, if_pos more]
  split <;> simp_all

theorem parse_loop_take (st next : RtmpIn) (total : Nat) (buf : Bytes) (chunk : Chunk) (more : 1 < total)
    (taken : parseChunk st total buf = .take next chunk) :
    parseLoop st total buf =
      { parseLoop next (toUint32 ((total : Int) - chunk.parsed)) (buf.drop chunk.parsed) with
        passes := ⟨st, total, buf, chunk⟩ ::
          (parseLoop next (toUint32 ((total : Int) - chunk.parsed)) (buf.drop chunk.parsed)).passes } := by
  rw [parseLoop, if_pos more]
  split <;> simp_all

theorem parse_loop_invariant (Inv : RtmpIn → Prop)
    (waits : ∀ st next total buf, Inv st → parseChunk st total buf = .wait next → Inv next)
    (takes : ∀ st next total buf chunk, Inv st → parseChunk st total buf = .take next chunk → Inv next)
    (st : RtmpIn) (total : Nat) (buf : Bytes) (holds : Inv st) : Inv (parseLoop st total buf).state := by
  fun_induction parseLoop st total buf with
  | case1 => exact holds
  | case2 st total buf _ next waited => exact waits st next total buf holds waited
  | case3 st total buf _ next chunk taken _ ih => exact ih (takes st next total buf chunk holds taken)
  | case4 => exact holds

def parseMessage (st : RtmpIn) (buf : Bytes) : ParseOutcome := parseLoop st (toUint32 buf.length) buf

def arrive (outcome : ParseOutcome) (piece : Bytes) : ParseOutcome :=
  match outcome.ending with
  | .faulted => outcome
  | .returned =>
      let next := parseMessage outcome.state (outcome.buf ++ piece)
      { next with passes := outcome.passes ++ next.passes }

def receive (outcome : ParseOutcome) (pieces : List Bytes) : ParseOutcome := pieces.foldl arrive outcome

-- No call sees 2^31 readable bytes or more: `size` is an int.
def CallsSmall : ParseOutcome → List Bytes → Prop
  | _, [] => True
  | outcome, piece :: pieces =>
      (outcome.buf ++ piece).length < 2147483648 ∧ CallsSmall (arrive outcome piece) pieces

end Lssvc.Mmedia
