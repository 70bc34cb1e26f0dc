import Mathlib.Logic.Function.Iterate
import Lssvc.Mmedia.ChunkBuilder
import Lssvc.Mmedia.ParserFragments

set_option autoImplicit false

namespace Lssvc.Mmedia

open Lssvc.Foundation

def Chunk.kind (chunk : Chunk) : RtmpFmt × Bool := (chunk.header.fmt, chunk.ext)

theorem basic_header_length (fmt : RtmpFmt) (csid : Nat) :
    1 ≤ (basicHeader fmt csid).length ∧ (basicHeader fmt csid).length ≤ 3 := by
  rw [basicHeader]
  split
  · exact ⟨by simp, by simp⟩
  · split <;> exact ⟨by simp, by simp⟩

theorem short_basic_header_read (fmt : RtmpFmt) (csid : Nat) (low : 2 ≤ csid) (high : csid < 64) :
    readBasicHeader 1 [UInt8.ofNat ((fmt.bits <<< 6) ||| csid)] = .ok ⟨fmt, csid, 1⟩ := by
  have all : ∀ csid : Fin 64, 2 ≤ csid.val →
      readBasicHeader 1 [UInt8.ofNat ((fmt.bits <<< 6) ||| csid.val)] = .ok ⟨fmt, csid.val, 1⟩ := by
    cases fmt <;> decide
  exact all ⟨csid, high⟩ low

theorem basic_header_read (fmt : RtmpFmt) (csid : Nat) (rest : Bytes) (low : 2 ≤ csid) (high : csid < 65600) :
    readBasicHeader (basicHeader fmt csid ++ rest).length (basicHeader fmt csid ++ rest) =
      .ok ⟨fmt, csid, (basicHeader fmt csid).length⟩ := by
  apply basic_header_extends
  rw [basicHeader]
  split
  · exact short_basic_header_read fmt csid low (by assumption)
  · split
    · have id : 64 + (csid - 64) % 256 = csid := by omega
      cases fmt <;> simp [readBasicHeader, readAt, readUint8T, RtmpFmt.bits, RtmpFmt.ofBits, id]
    · have id : 64 + (csid - 64) % 256 + (csid - 64) / 256 % 256 * 256 = csid := by omega
      cases fmt <;> simp [readBasicHeader, readAt, readUint8T, RtmpFmt.bits, RtmpFmt.ofBits, id]

def wireHeader (fmt : RtmpFmt) (csid : Nat) (ts : UInt32) (header : RtmpMsgHeader) : ChunkHeader :=
  let empty : ChunkHeader :=
    { fmt := fmt, csid := csid, parsed := (basicHeader fmt csid).length + messageHeaderSize fmt }
  match fmt with
  | .fmt0 =>
      { empty with
        ts := ts, msgLen := header.msgLen % 16777216, msgType := header.msgType, msgSid := header.msgSid }
  | .fmt1 => { empty with ts := ts, msgLen := header.msgLen % 16777216, msgType := header.msgType }
  | .fmt2 => { empty with ts := ts }
  | .fmt3 => empty

theorem wire_header_id (fmt : RtmpFmt) (csid : Nat) (ts : UInt32) (header : RtmpMsgHeader) :
    (wireHeader fmt csid ts header).fmt = fmt ∧ (wireHeader fmt csid ts header).csid = csid ∧
      (wireHeader fmt csid ts header).parsed = (basicHeader fmt csid).length + messageHeaderSize fmt := by
  cases fmt <;> exact ⟨rfl, rfl, rfl⟩

theorem field_bytes_length (fmt : RtmpFmt) (ts : UInt32) (header : RtmpMsgHeader) :
    (fieldBytes fmt ts header).length = messageHeaderSize fmt := by
  cases fmt <;> rfl

theorem message_header_read (fmt : RtmpFmt) (csid : Nat) (ts : UInt32) (header : RtmpMsgHeader)
    (small : ts.toNat < 16777216) :
    messageHeader ⟨fmt, csid, (basicHeader fmt csid).length⟩ (fieldBytes fmt ts header) =
      wireHeader fmt csid ts header := by
  have tsRead (rest : Bytes) : UInt32.ofNat (readUint24T (writeUint24T ts.toNat ++ rest)) = ts := by
    rw [read_write_uint24, Nat.mod_eq_of_lt small, UInt32.ofNat_toNat]
  have sidRead : UInt32.ofNat (loadUint32 (storeUint32 header.msgSid.toNat)) = header.msgSid := by
    rw [load_store_uint32 _ header.msgSid.toNat_lt, UInt32.ofNat_toNat]
  cases fmt with
  | fmt0 =>
      have lenDrop : (fieldBytes .fmt0 ts header).drop 3 =
          writeUint24T header.msgLen ++ (writeUint8T header.msgType ++ storeUint32 header.msgSid.toNat) := rfl
      have typeDrop : (fieldBytes .fmt0 ts header).drop 6 =
          writeUint8T header.msgType ++ storeUint32 header.msgSid.toNat := rfl
      have sidDrop : (fieldBytes .fmt0 ts header).drop 7 = storeUint32 header.msgSid.toNat := rfl
      simp only [messageHeader, wireHeader, lenDrop, typeDrop, sidDrop, sidRead, read_write_uint24]
      simp only [fieldBytes, List.append_assoc, tsRead]
      rfl
  | fmt1 =>
      have lenDrop : (fieldBytes .fmt1 ts header).drop 3 =
          writeUint24T header.msgLen ++ writeUint8T header.msgType := rfl
      have typeDrop : (fieldBytes .fmt1 ts header).drop 6 = writeUint8T header.msgType := rfl
      simp only [messageHeader, wireHeader, lenDrop, typeDrop, read_write_uint24]
      simp only [fieldBytes, List.append_assoc, tsRead]
      rfl
  | fmt2 =>
      have whole := tsRead []
      rw [List.append_nil] at whole
      simp only [messageHeader, wireHeader, fieldBytes, whole]
  | fmt3 => rfl

theorem chunk_header_read (fmt : RtmpFmt) (csid : Nat) (ts : UInt32) (header : RtmpMsgHeader) (rest : Bytes)
    (low : 2 ≤ csid) (high : csid < 65600) (small : ts.toNat < 16777216) (behind : fmt = .fmt3 → rest ≠ [])
    (short : (basicHeader fmt csid ++ (fieldBytes fmt ts header ++ rest)).length < 2147483648) :
    readChunkHeader (basicHeader fmt csid ++ (fieldBytes fmt ts header ++ rest)).length
      (basicHeader fmt csid ++ (fieldBytes fmt ts header ++ rest)) = .ok (wireHeader fmt csid ts header) := by
  rw [readChunkHeader, basic_header_read fmt csid _ low high]
  have size : (basicHeader fmt csid ++ (fieldBytes fmt ts header ++ rest)).length =
      (basicHeader fmt csid).length + messageHeaderSize fmt + rest.length := by
    rw [List.length_append, List.length_append, field_bytes_length, Nat.add_assoc]
  dsimp only
  rw [to_int32_exact _ ⟨by omega, by omega⟩, if_neg, read_at_in_range _ _ _ (by omega)]
  · rw [List.drop_left, ← field_bytes_length fmt ts header, List.take_left]
    exact congrArg _ (message_header_read fmt csid ts header small)
  · rw [size]
    cases fmt with
    | fmt3 =>
        have nonempty : 0 < rest.length := List.length_pos_iff.mpr (behind rfl)
        simp only [reduceCtorEq, false_and, or_false]
        omega
    | _ =>
        simp only [reduceCtorEq, messageHeaderSize, false_and, true_and, or_false, false_or]
        omega

-- The bytes at the front of a buffer are one chunk for the receiver: header,
-- extended field as expected, and as much payload as it will copy.
structure WholeChunk (st : RtmpIn) (h : ChunkHeader) (s : OpenStream) (buf piece : Bytes) : Prop where
  more : 1 < buf.length
  header : readChunkHeader buf.length buf = .ok h
  extended : readExtended buf.length buf h (startChunk st.inChunkSize h (st.streams h.csid)) =
    .ok (s, buf.length - piece.length)
  suffix : buf.drop (buf.length - piece.length) = piece
  capacity : InInt32 s.packet.capacity
  room : s.packet.body.length + piece.length ≤ s.packet.capacity
  copied : (piece.length : Int) = min (s.packet.capacity - s.packet.body.length) st.inChunkSize

theorem whole_chunk_finishes (st : RtmpIn) (h : ChunkHeader) (s : OpenStream) (buf piece : Bytes)
    (whole : WholeChunk st h s buf piece) (short : buf.length < 2147483648) :
    parseChunk st buf.length buf = finishChunk st buf h s (buf.length - piece.length) piece.length ∧
      readAt buf (buf.length - piece.length) piece.length = .ok piece := by
  obtain ⟨more, header, extended, suffix, ⟨low, high⟩, room, copied⟩ := whole
  have inBuf : piece.length ≤ buf.length := by
    rw [← suffix, List.length_drop]
    omega
  have space : s.packet.getSpace = s.packet.capacity - s.packet.body.length :=
    to_int32_exact _ ⟨by omega, by omega⟩
  constructor
  · rw [parseChunk, header]
    dsimp only
    rw [extended]
    dsimp only
    rw [copyBody, space, ← copied]
    rw [to_uint32_sub _ _ (by omega) (by omega), to_uint32_nat _ (by omega), if_neg (by omega), if_neg (by omega)]
  · rw [read_at_in_range _ _ _ (by omega), suffix, List.take_length]

theorem finish_chunk_whole (st : RtmpIn) (h : ChunkHeader) (s : OpenStream) (buf piece : Bytes)
    (whole : WholeChunk st h s buf piece) (short : buf.length < 2147483648)
    (last : s.packet.body.length + piece.length = s.packet.capacity) :
    ∃ chunk, chunkScanner.step st buf =
        .take (messageComplete (s.packet.append piece).complete
          (st.put h.csid ⟨some s.packet.header, none, s.delta, s.ext⟩)) buf.length chunk ∧
      chunk.kind = (h.fmt, s.ext) ∧
      chunk.delivered = some (s.packet.append piece).complete := by
  obtain ⟨finishes, read⟩ := whole_chunk_finishes st h s buf piece whole short
  have within : piece.length ≤ buf.length := by
    rw [← whole.suffix, List.length_drop]
    omega
  have full : (s.packet.append piece).getSpace = 0 := by
    rw [append_space s.packet piece whole.capacity whole.room]
    omega
  refine ⟨⟨h, s.ext, s.packet.body.length, s.packet.capacity, piece.length, buf.length,
    some (s.packet.append piece).complete⟩, ?_, rfl, rfl⟩
  refine chunk_step_of_take st _ buf ⟨_, _, _, _, _, _, _⟩ whole.more ?_
  rw [finishes, finishChunk, Int.toNat_natCast, read]
  dsimp only
  rw [if_pos full, Nat.sub_add_cancel within, append_header]

theorem finish_chunk_partly (st : RtmpIn) (h : ChunkHeader) (s : OpenStream) (buf piece : Bytes)
    (whole : WholeChunk st h s buf piece) (short : buf.length < 2147483648)
    (more : s.packet.body.length + piece.length < s.packet.capacity) :
    ∃ chunk, chunkScanner.step st buf =
        .take (st.put h.csid
          ⟨some s.packet.header, some (s.packet.append piece), s.delta, s.ext⟩)
          buf.length chunk ∧
      chunk.kind = (h.fmt, s.ext) ∧ chunk.delivered = none := by
  obtain ⟨finishes, read⟩ := whole_chunk_finishes st h s buf piece whole short
  have within : piece.length ≤ buf.length := by
    rw [← whole.suffix, List.length_drop]
    omega
  have space : (s.packet.append piece).getSpace ≠ 0 := by
    rw [append_space s.packet piece whole.capacity whole.room]
    omega
  refine ⟨⟨h, s.ext, s.packet.body.length, s.packet.capacity, piece.length, buf.length, none⟩, ?_, rfl, rfl⟩
  refine chunk_step_of_take st _ buf ⟨_, _, _, _, _, _, _⟩ whole.more ?_
  rw [finishes, finishChunk, Int.toNat_natCast, read]
  dsimp only
  rw [if_neg space, Nat.sub_add_cancel within, append_header]

theorem extended_read (total : Nat) (head field piece : Bytes) (h : ChunkHeader) (s : OpenStream)
    (parsed : h.parsed = head.length) (expected : field.length = if s.ext then 4 else 0)
    (size : total = (head ++ (field ++ piece)).length) (short : total < 2147483648) :
    readExtended total (head ++ (field ++ piece)) h s =
      .ok (extendWith h.fmt field s, total - piece.length) := by
  rw [List.length_append, List.length_append] at size
  rw [readExtended, extendWith, parsed]
  cases ext : s.ext with
  | false =>
      have none : field.length = 0 := by simpa [ext] using expected
      simp only [Bool.false_eq_true, if_false]
      congr 2
      omega
  | true =>
      have four : field.length = 4 := by simpa [ext] using expected
      simp only [if_true]
      rw [to_uint32_sub _ _ (by omega) (by omega), if_neg (by omega),
        read_at_in_range _ _ _ (by simp only [List.length_append]; omega), List.drop_left, ← four, List.take_left]
      dsimp only
      congr 2
      omega

def midMessage (packet : InPacket) (delta : UInt32) (ext : Bool) : InStream :=
  ⟨some packet.header, some packet, delta, ext⟩

def advance (ext : Bool) (ts : UInt32) (header : RtmpMsgHeader) : RtmpMsgHeader :=
  if ext then { header with timestamp := ts + header.timestamp } else header

def InPacket.advance (packet : InPacket) (ext : Bool) (ts : UInt32) : InPacket :=
  { packet with header := Mmedia.advance ext ts packet.header }

-- A fmt3 header leaves the header of a message under way alone: a timestamp of
-- zero is set again, from a delta that is then zero as well.
theorem resume_header (h : ChunkHeader) (fmt : h.fmt = .fmt3) (header : RtmpMsgHeader) (delta : UInt32)
    (settled : header.timestamp = 0 → delta = 0) : updateHeader h header header delta = header := by
  have same : (if header.timestamp = 0 then delta + header.timestamp else header.timestamp) = header.timestamp := by
    split
    · rename_i unset
      rw [settled unset, UInt32.zero_add]
    · rfl
  simp only [updateHeader, fmt, same]

theorem resume_stream (inChunkSize : Int) (h : ChunkHeader) (fmt : h.fmt = .fmt3) (packet : InPacket)
    (delta : UInt32) (ext : Bool) (field : Bytes)
    (settled : ext = false → packet.header.timestamp = 0 → delta = 0) :
    extendWith h.fmt field (startChunk inChunkSize h (midMessage packet delta ext)) =
      ⟨packet.header, packet.advance ext (UInt32.ofNat (readUint32T field)),
        if ext then UInt32.ofNat (readUint32T field) else delta, ext⟩ := by
  cases ext with
  | false =>
      simp only [extendWith, startChunk, midMessage, fmt, if_true, Bool.false_eq_true, if_false, updateDelta,
        Option.getD_some, resume_header h fmt packet.header delta (settled rfl)]
      rfl
  | true =>
      simp only [extendWith, startChunk, midMessage, fmt, if_true, applyExtended, Option.getD_some, updateHeader]
      rfl

@[simp] theorem advance_capacity (packet : InPacket) (ext : Bool) (ts : UInt32) :
    (packet.advance ext ts).capacity = packet.capacity := rfl

@[simp] theorem advance_body (packet : InPacket) (ext : Bool) (ts : UInt32) :
    (packet.advance ext ts).body = packet.body := rfl

theorem continuation_whole (base : RtmpIn) (csid : Nat) (low : 2 ≤ csid) (high : csid < 65600) (packet : InPacket)
    (delta : UInt32) (ext : Bool) (field piece : Bytes) (expected : field.length = if ext then 4 else 0)
    (settled : ext = false → packet.header.timestamp = 0 → delta = 0) (nonempty : 0 < piece.length)
    (range : InInt32 packet.capacity) (room : packet.body.length + piece.length ≤ packet.capacity)
    (copied : (piece.length : Int) = min (packet.capacity - packet.body.length) base.inChunkSize)
    (short : (basicHeader .fmt3 csid ++ (field ++ piece)).length < 2147483648) :
    WholeChunk (base.put csid (midMessage packet delta ext)) (wireHeader .fmt3 csid 0 {})
      ⟨packet.header, packet.advance ext (UInt32.ofNat (readUint32T field)),
        if ext then UInt32.ofNat (readUint32T field) else delta, ext⟩
      (basicHeader .fmt3 csid ++ (field ++ piece)) piece := by
  have headerLength := basic_header_length .fmt3 csid
  have behind : field ++ piece ≠ [] := by
    intro empty
    rw [List.append_eq_nil_iff] at empty
    rw [empty.2] at nonempty
    exact absurd nonempty (Nat.lt_irrefl 0)
  have opened := resume_stream base.inChunkSize (wireHeader .fmt3 csid 0 {}) rfl packet delta ext field settled
  have size : (basicHeader .fmt3 csid ++ (field ++ piece)).length - piece.length =
      (basicHeader .fmt3 csid).length + field.length := by
    simp only [List.length_append]
    omega
  refine ⟨?_, ?_, ?_, ?_, range, room, copied⟩
  · simp only [List.length_append]
    omega
  · exact chunk_header_read .fmt3 csid 0 {} (field ++ piece) low high (by decide) (fun _ => behind) short
  · rw [← opened]
    have streams : (base.put csid (midMessage packet delta ext)).streams csid = midMessage packet delta ext :=
      put_same base csid _
    change readExtended _ _ _ (startChunk base.inChunkSize (wireHeader .fmt3 csid 0 {})
      ((base.put csid (midMessage packet delta ext)).streams csid)) = _
    rw [streams]
    refine extended_read _ _ field piece (wireHeader .fmt3 csid 0 {}) _ rfl ?_ rfl short
    rw [expected]
    rfl
  · rw [size, ← List.append_assoc, ← List.length_append, List.drop_left]

theorem iterate_advance (ext : Bool) (ts : UInt32) (header : RtmpMsgHeader) (k : Nat) :
    (advance ext ts)^[k] header =
      { header with timestamp := if ext then UInt32.ofNat k * ts + header.timestamp else header.timestamp } := by
  induction k generalizing header with
  | zero => simp
  | succ k ih =>
      rw [Function.iterate_succ_apply, ih]
      cases ext with
      | false => rfl
      | true =>
          have one : UInt32.ofNat 1 * ts = ts := UInt32.one_mul ts
          simp only [advance, if_true, UInt32.ofNat_add, UInt32.add_mul, UInt32.add_assoc, one]

theorem body_stream_front (between : Bytes) (size : Nat) (payload : Bytes) (n : Nat) (positive : 0 < size)
    (small : n ≤ size) :
    ∃ tail, payload.take n ++ tail = bodyStream between size payload ∧ (n = payload.length → tail = []) := by
  by_cases fits : payload.length ≤ size
  · refine ⟨payload.drop n, ?_, ?_⟩
    · rw [body_stream_last between size payload fits, List.take_append_drop]
    · rintro rfl
      exact List.drop_length
  · have isFront : payload.take n <+: bodyStream between size payload := by
      rw [body_stream_more between size payload positive (by omega)]
      exact (List.take_prefix_take_left small).trans (List.prefix_append _ _)
    obtain ⟨tail, cut⟩ := isFront
    exact ⟨tail, cut, fun whole => by omega⟩

theorem take_more (payload : Bytes) (size n : Nat) (more : size < n) :
    payload.take n = payload.take size ++ (payload.drop size).take (n - size) := by
  rw [← List.take_add, Nat.add_sub_cancel' (Nat.le_of_lt more)]

def InPacket.received (packet : InPacket) (ext : Bool) (ts : UInt32) (payload : Bytes) (k : Nat) : InPacket :=
  { packet with body := packet.body ++ payload, header := (Mmedia.advance ext ts)^[k] packet.header }

theorem received_last (packet : InPacket) (ext : Bool) (ts : UInt32) (payload : Bytes) :
    (packet.advance ext ts).append payload = packet.received ext ts payload 1 := rfl

theorem received_more (packet : InPacket) (ext : Bool) (ts : UInt32) (front rest : Bytes) (k : Nat) :
    ((packet.advance ext ts).append front).received ext ts rest k = packet.received ext ts (front ++ rest) (k + 1) := by
  simp only [InPacket.received, InPacket.append, InPacket.advance, List.append_assoc, Function.iterate_succ_apply]

-- The receiver takes the rest of a message of which n bytes are missing, chunk
-- by chunk as the sender cut it. Where the sender has more than n bytes, it
-- stops inside one of its chunks.
theorem body_chain (base : RtmpIn) (csid : Nat) (low : 2 ≤ csid) (high : csid < 65600) (size : Nat)
    (positive : 0 < size) (sameSize : base.inChunkSize = size) (ext : Bool) (field more : Bytes)
    (expected : field.length = if ext then 4 else 0) (payload : Bytes) (n : Nat) (some' : 0 < n)
    (enough : n ≤ payload.length) (packet : InPacket) (delta : UInt32)
    (settled : ext = false → packet.header.timestamp = 0 → delta = 0)
    (missing : packet.capacity = packet.body.length + n) (small : packet.capacity < 16777216) :
    ∃ rest last outputs,
      Chain chunkScanner 2147483648 (base.put csid (midMessage packet delta ext))
        (basicHeader .fmt3 csid ++
          (field ++ (bodyStream (basicHeader .fmt3 csid ++ field) size payload ++ more)))
        (messageComplete
          (packet.received ext (UInt32.ofNat (readUint32T field)) (payload.take n) ((n - 1) / size + 1)).complete
          (base.put csid ⟨some (packet.received ext (UInt32.ofNat (readUint32T field)) (payload.take n)
            ((n - 1) / size + 1)).header, none, last, ext⟩)) rest outputs ∧
      (ext = false → last = delta) ∧
      outputs.map Chunk.kind = List.replicate ((n - 1) / size + 1) (.fmt3, ext) ∧
      outputs.filterMap Chunk.delivered =
        [(packet.received ext (UInt32.ofNat (readUint32T field)) (payload.take n) ((n - 1) / size + 1)).complete] ∧
      (n = payload.length → rest = more) := by
  induction length : payload.length using Nat.strongRecOn generalizing payload n packet delta with
  | ind total ih =>
      subst length
      have headerLength := basic_header_length .fmt3 csid
      have fieldLength : field.length ≤ 4 := by
        rw [expected]
        split <;> omega
      by_cases lastOne : n ≤ size
      · have pieceLength : (payload.take n).length = n := by rw [List.length_take]; omega
        have short : (basicHeader .fmt3 csid ++ (field ++ payload.take n)).length < 2147483648 := by
          simp only [List.length_append]
          omega
        have whole := continuation_whole base csid low high packet delta ext field (payload.take n) expected settled
          (by omega) ⟨by omega, by omega⟩ (by omega) (by omega) short
        obtain ⟨chunk, taken, kind, delivered⟩ := finish_chunk_whole _ _ _ _ _ whole short
          (by simp only [advance_body, advance_capacity]; omega)
        obtain ⟨tail, cut, noTail⟩ :=
          body_stream_front (basicHeader .fmt3 csid ++ field) size payload n positive lastOne
        rw [continuations_last size n positive lastOne]
        refine ⟨tail ++ more, if ext then UInt32.ofNat (readUint32T field) else delta, [chunk], ?_, ?_, ?_, ?_, ?_⟩
        · have step := chain_front chunkScanner 2147483648 short taken (tail ++ more)
          rw [received_last, (wire_header_id .fmt3 csid 0 {}).2.1, put_put] at step
          rw [← cut]
          simp only [List.append_assoc] at step ⊢
          exact step
        · intro plain
          rw [plain]
          rfl
        · rw [List.map_singleton, kind]
          rfl
        · rw [List.filterMap_cons_some delivered, received_last]
          rfl
        · intro whole
          rw [noTail whole, List.nil_append]
      · have pieceLength : (payload.take size).length = size := by rw [List.length_take]; omega
        have short : (basicHeader .fmt3 csid ++ (field ++ payload.take size)).length < 2147483648 := by
          simp only [List.length_append]
          omega
        have whole := continuation_whole base csid low high packet delta ext field (payload.take size) expected settled
          (by omega) ⟨by omega, by omega⟩ (by omega) (by omega) short
        obtain ⟨chunk, taken, kind, undelivered⟩ := finish_chunk_partly _ _ _ _ _ whole short
          (by simp only [advance_body, advance_capacity]; omega)
        have count := continuations_more size n positive (by omega)
        have cut := take_more payload size n (by omega)
        obtain ⟨rest, last, outputs, later, sameDelta, kinds, delivered, all⟩ :=
          ih _ (by rw [List.length_drop]; omega) (payload.drop size) (n - size) (by omega)
            (by rw [List.length_drop]; omega)
            ((packet.advance ext (UInt32.ofNat (readUint32T field))).append (payload.take size))
            (if ext then UInt32.ofNat (readUint32T field) else delta) (by
              intro plain
              rw [plain]
              exact settled plain)
            (by simp only [append_capacity, append_body, advance_capacity, advance_body, List.length_append]; omega)
            small rfl
        rw [received_more, ← cut, ← count] at later delivered
        refine ⟨rest, last, chunk :: outputs, ?_, ?_, ?_, ?_, ?_⟩
        · have step := chain_front chunkScanner 2147483648 short taken
            (basicHeader .fmt3 csid ++ (field ++
              (bodyStream (basicHeader .fmt3 csid ++ field) size (payload.drop size) ++ more)))
          rw [(wire_header_id .fmt3 csid 0 {}).2.1, put_put] at step
          have joined := chain_trans chunkScanner 2147483648 step later
          rw [body_stream_more _ _ payload positive (by omega)]
          simp only [List.append_assoc, List.singleton_append] at joined ⊢
          exact joined
        · intro plain
          rw [sameDelta plain, plain]
          rfl
        · rw [List.map_cons, kinds, kind, count]
          rfl
        · rw [List.filterMap_cons_none undelivered, delivered]
        · intro whole
          exact all (by rw [List.length_drop]; omega)

theorem extend_with_ext (fmt : RtmpFmt) (field : Bytes) (s : OpenStream) : (extendWith fmt field s).ext = s.ext := by
  rw [extendWith]
  split
  · exact apply_extended_ext fmt _ s
  · rfl

theorem first_whole (st : RtmpIn) (csid : Nat) (low : 2 ≤ csid) (high : csid < 65600) (fmt : RtmpFmt) (ts : UInt32)
    (small : ts.toNat < 16777216) (header : RtmpMsgHeader) (field piece : Bytes) (s : OpenStream)
    (opened : extendWith fmt field
      (startChunk st.inChunkSize (wireHeader fmt csid ts header) (st.streams csid)) = s)
    (expected : field.length = if s.ext then 4 else 0) (behind : fmt = .fmt3 → 0 < piece.length)
    (range : InInt32 s.packet.capacity) (room : s.packet.body.length + piece.length ≤ s.packet.capacity)
    (copied : (piece.length : Int) = min (s.packet.capacity - s.packet.body.length) st.inChunkSize)
    (short : (basicHeader fmt csid ++ (fieldBytes fmt ts header ++ (field ++ piece))).length < 2147483648) :
    WholeChunk st (wireHeader fmt csid ts header) s
      (basicHeader fmt csid ++ (fieldBytes fmt ts header ++ (field ++ piece))) piece := by
  obtain ⟨sameFmt, sameId, sameParsed⟩ := wire_header_id fmt csid ts header
  have headerLength := basic_header_length fmt csid
  have fieldsLength := field_bytes_length fmt ts header
  have nonempty : fmt = .fmt3 → field ++ piece ≠ [] := by
    intro fmt3 empty
    have some' := behind fmt3
    rw [(List.append_eq_nil_iff.mp empty).2] at some'
    exact absurd some' (Nat.lt_irrefl 0)
  have size : (basicHeader fmt csid ++ (fieldBytes fmt ts header ++ (field ++ piece))).length - piece.length =
      (basicHeader fmt csid ++ fieldBytes fmt ts header ++ field).length := by
    simp only [List.length_append]
    omega
  refine ⟨?_, ?_, ?_, ?_, range, room, copied⟩
  · simp only [List.length_append]
    cases fmt with
    | fmt3 =>
        have some' := behind rfl
        omega
    | _ =>
        simp only [messageHeaderSize] at fieldsLength
        omega
  · exact chunk_header_read fmt csid ts header (field ++ piece) low high small nonempty short
  · rw [sameId]
    have ext : (startChunk st.inChunkSize (wireHeader fmt csid ts header) (st.streams csid)).ext = s.ext := by
      rw [← opened, extend_with_ext]
    rw [← opened]
    have read := extended_read (basicHeader fmt csid ++ (fieldBytes fmt ts header ++ (field ++ piece))).length
      (basicHeader fmt csid ++ fieldBytes fmt ts header) field piece (wireHeader fmt csid ts header)
      (startChunk st.inChunkSize (wireHeader fmt csid ts header) (st.streams csid))
      (by rw [sameParsed, List.length_append, fieldsLength]) (by rw [ext, expected])
      (by rw [List.append_assoc]) short
    rw [sameFmt, List.append_assoc] at read
    exact read
  · rw [size, ← List.append_assoc, ← List.append_assoc, List.drop_left]

theorem message_chain (st : RtmpIn) (csid : Nat) (low : 2 ≤ csid) (high : csid < 65600) (size : Nat)
    (positive : 0 < size) (sameSize : st.inChunkSize = size) (fmt : RtmpFmt) (ts : UInt32)
    (small : ts.toNat < 16777216) (header : RtmpMsgHeader) (field more payload : Bytes) (s : OpenStream)
    (opened : extendWith fmt field
      (startChunk st.inChunkSize (wireHeader fmt csid ts header) (st.streams csid)) = s)
    (expected : field.length = if s.ext then 4 else 0) (empty : s.packet.body = []) (n : Nat)
    (capacity : s.packet.capacity = n) (enough : n ≤ payload.length) (few : n < 16777216)
    (some' : fmt = .fmt3 → 0 < n)
    (settled : s.ext = false → s.packet.header.timestamp = 0 → s.delta = 0) :
    ∃ rest last outputs,
      Chain chunkScanner 2147483648 st
        (basicHeader fmt csid ++ (fieldBytes fmt ts header ++
          (field ++ (bodyStream (basicHeader .fmt3 csid ++ field) size payload ++ more))))
        (messageComplete
          (s.packet.received s.ext (UInt32.ofNat (readUint32T field)) (payload.take n) ((n - 1) / size)).complete
          (st.put csid ⟨some (s.packet.received s.ext (UInt32.ofNat (readUint32T field)) (payload.take n)
            ((n - 1) / size)).header, none, last, s.ext⟩)) rest outputs ∧
      (s.ext = false → last = s.delta) ∧
      outputs.map Chunk.kind = (fmt, s.ext) :: List.replicate ((n - 1) / size) (.fmt3, s.ext) ∧
      outputs.filterMap Chunk.delivered =
        [(s.packet.received s.ext (UInt32.ofNat (readUint32T field)) (payload.take n) ((n - 1) / size)).complete] ∧
      (n = payload.length → rest = more) := by
  obtain ⟨sameFmt, sameId, _⟩ := wire_header_id fmt csid ts header
  have headerLength := basic_header_length fmt csid
  have fieldsLength : (fieldBytes fmt ts header).length ≤ 11 := by
    rw [field_bytes_length]
    cases fmt <;> decide
  have fieldLength : field.length ≤ 4 := by
    rw [expected]
    split <;> omega
  have nothing : s.packet.body.length = 0 := by rw [empty, List.length_nil]
  by_cases lastOne : n ≤ size
  · have pieceLength : (payload.take n).length = n := by rw [List.length_take]; omega
    have short : (basicHeader fmt csid ++ (fieldBytes fmt ts header ++ (field ++ payload.take n))).length <
        2147483648 := by
      simp only [List.length_append]
      omega
    have whole := first_whole st csid low high fmt ts small header field (payload.take n) s opened expected
      (fun fmt3 => by have nonempty := some' fmt3; omega) ⟨by omega, by omega⟩ (by omega) (by omega) short
    obtain ⟨chunk, taken, kind, delivered⟩ := finish_chunk_whole _ _ _ _ _ whole short (by omega)
    obtain ⟨tail, cut, noTail⟩ := body_stream_front (basicHeader .fmt3 csid ++ field) size payload n positive lastOne
    rw [continuations_last size n positive lastOne]
    refine ⟨tail ++ more, s.delta, [chunk], ?_, fun _ => rfl, ?_, ?_, ?_⟩
    · have step := chain_front chunkScanner 2147483648 short taken (tail ++ more)
      rw [sameId] at step
      rw [← cut]
      simp only [List.append_assoc] at step ⊢
      exact step
    · rw [List.map_singleton, kind, sameFmt]
      rfl
    · rw [List.filterMap_cons_some delivered]
      rfl
    · intro whole
      rw [noTail whole, List.nil_append]
  · have pieceLength : (payload.take size).length = size := by rw [List.length_take]; omega
    have short : (basicHeader fmt csid ++ (fieldBytes fmt ts header ++ (field ++ payload.take size))).length <
        2147483648 := by
      simp only [List.length_append]
      omega
    have whole := first_whole st csid low high fmt ts small header field (payload.take size) s opened expected
      (fun _ => by omega) ⟨by omega, by omega⟩ (by omega) (by omega) short
    obtain ⟨chunk, taken, kind, undelivered⟩ := finish_chunk_partly _ _ _ _ _ whole short (by omega)
    have count := continuations_more size n positive (by omega)
    have cut := take_more payload size n (by omega)
    obtain ⟨rest, last, outputs, later, sameDelta, kinds, delivered, all⟩ :=
      body_chain st csid low high size positive sameSize s.ext field more expected (payload.drop size) (n - size)
        (by omega) (by rw [List.length_drop]; omega) (s.packet.append (payload.take size)) s.delta settled
        (by simp only [append_capacity, append_body, List.length_append]; omega)
        (by simp only [append_capacity]; omega)
    have joinedPacket : (s.packet.append (payload.take size)).received s.ext (UInt32.ofNat (readUint32T field))
        ((payload.drop size).take (n - size)) ((n - size - 1) / size + 1) =
          s.packet.received s.ext (UInt32.ofNat (readUint32T field)) (payload.take n) ((n - 1) / size) := by
      rw [count, cut]
      simp only [InPacket.received, InPacket.append, List.append_assoc]
    rw [joinedPacket] at later delivered
    refine ⟨rest, last, chunk :: outputs, ?_, sameDelta, ?_, ?_, ?_⟩
    · have step := chain_front chunkScanner 2147483648 short taken
        (basicHeader .fmt3 csid ++ (field ++
          (bodyStream (basicHeader .fmt3 csid ++ field) size (payload.drop size) ++ more)))
      rw [sameId] at step
      have joined := chain_trans chunkScanner 2147483648 step later
      rw [body_stream_more _ _ payload positive (by omega)]
      simp only [List.append_assoc, List.singleton_append] at joined ⊢
      exact joined
    · rw [List.map_cons, kinds, kind, count, sameFmt]
    · rw [List.filterMap_cons_none undelivered, delivered]
    · intro whole
      exact all (by rw [List.length_drop]; omega)

end Lssvc.Mmedia
