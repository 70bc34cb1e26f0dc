import Lssvc.Mmedia.ChunkParser

set_option autoImplicit false

namespace Lssvc.Mmedia

open Lssvc.Foundation

def InPacket.Roomy (packet : InPacket) : Prop :=
  InInt32 packet.capacity ∧ packet.body.length ≤ packet.capacity

-- A first chunk of format 2 or 3 under a negative chunk size creates a packet of
-- negative capacity. Nothing can be copied into it.
def InPacket.Stuck (packet : InPacket) : Prop :=
  InInt32 packet.capacity ∧ packet.body = [] ∧ packet.capacity < 0

def PacketSound (inChunkSize : Int) (packet : InPacket) : Prop :=
  packet.Roomy ∨ (packet.Stuck ∧ inChunkSize < 0)

structure StreamSound (inChunkSize : Int) (s : InStream) : Prop where
  remembered : ∀ prev, s.prev = some prev → prev.msgLen < 16777216
  pending : ∀ packet, s.packet = some packet → PacketSound inChunkSize packet

structure OpenSound (inChunkSize : Int) (s : OpenStream) : Prop where
  remembered : s.prev.msgLen < 16777216
  announced : s.packet.header.msgLen < 16777216
  pending : PacketSound inChunkSize s.packet

structure Sound (st : RtmpIn) : Prop where
  chunkSize : InInt32 st.inChunkSize
  streams : ∀ csid, StreamSound st.inChunkSize (st.streams csid)

inductive Reachable : RtmpIn → Prop where
  | fresh : Reachable .fresh
  | parse (st : RtmpIn) (buf : Bytes) (earlier : Reachable st)
      (alive : (parseMessage st buf).ending = .returned) : Reachable (parseMessage st buf).state

theorem fresh_sound : Sound .fresh := by
  refine ⟨⟨by decide, by decide⟩, fun csid => ⟨?_, ?_⟩⟩ <;> intro _ impossible <;> cases impossible

theorem put_sound (st : RtmpIn) (csid : Nat) (stream : InStream) (sound : Sound st)
    (streamSound : StreamSound st.inChunkSize stream) : Sound (st.put csid stream) := by
  refine ⟨sound.chunkSize, fun other => ?_⟩
  by_cases same : other = csid
  · subst other
    simpa [RtmpIn.put] using streamSound
  · simpa [RtmpIn.put, same] using sound.streams other

theorem close_sound (inChunkSize : Int) (s : OpenStream) (sound : OpenSound inChunkSize s) :
    StreamSound inChunkSize s.close := by
  constructor
  · rintro prev ⟨rfl⟩
    exact sound.remembered
  · rintro packet ⟨rfl⟩
    exact sound.pending

theorem chunk_header_length (total : Nat) (buf : Bytes) (h : ChunkHeader)
    (read : readChunkHeader total buf = .ok h) : h.msgLen < 16777216 := by
  rw [readChunkHeader] at read
  split at read
  · cases read
  · dsimp only at read
    split at read
    · cases read
    · split at read
      · cases read
      · cases read
        rw [messageHeader]
        split
        · exact read_uint24_lt _
        · exact read_uint24_lt _
        · exact Nat.zero_lt_of_lt (read_uint24_lt [])
        · exact Nat.zero_lt_of_lt (read_uint24_lt [])

theorem create_packet_sound (inChunkSize : Int) (h : ChunkHeader) (prev : RtmpMsgHeader)
    (range : InInt32 inChunkSize) (wire : h.msgLen < 16777216) (remembered : prev.msgLen < 16777216) :
    PacketSound inChunkSize (createPacket h.csid (firstLength inChunkSize h prev)) := by
  obtain ⟨low, high⟩ := range
  rw [firstLength]
  split
  · left
    refine ⟨to_int32_range _, ?_⟩
    simp only [createPacket, toInt32, List.length_nil]
    omega
  · split
    · by_cases negative : inChunkSize < 0
      · right
        refine ⟨⟨to_int32_range _, rfl, ?_⟩, negative⟩
        simp only [createPacket, toInt32, toUint32]
        omega
      · left
        refine ⟨to_int32_range _, ?_⟩
        simp only [createPacket, toInt32, toUint32, List.length_nil]
        omega
    · left
      refine ⟨to_int32_range _, ?_⟩
      simp only [createPacket, toInt32, List.length_nil]
      omega

theorem update_header_length (h : ChunkHeader) (prev header : RtmpMsgHeader) (delta : UInt32) :
    (updateHeader h prev header delta).msgLen =
      if h.fmt = .fmt0 ∨ h.fmt = .fmt1 then h.msgLen else prev.msgLen := by
  rw [updateHeader]
  cases h.fmt <;> rfl

theorem start_chunk_sound (inChunkSize : Int) (h : ChunkHeader) (s : InStream) (range : InInt32 inChunkSize)
    (wire : h.msgLen < 16777216) (sound : StreamSound inChunkSize s) :
    OpenSound inChunkSize (startChunk inChunkSize h s) := by
  have remembered : (s.prev.getD {}).msgLen < 16777216 := by
    cases previous : s.prev with
    | none => decide
    | some prev => exact sound.remembered prev previous
  refine ⟨remembered, ?_, ?_⟩
  · simp only [startChunk, update_header_length]
    split
    · exact wire
    · exact remembered
  · cases pending : s.packet with
    | none =>
        simp only [startChunk, pending, Option.getD_none]
        exact create_packet_sound inChunkSize h _ range wire remembered
    | some packet =>
        simp only [startChunk, pending, Option.getD_some]
        exact sound.pending packet pending

theorem apply_extended_sound (inChunkSize : Int) (fmt : RtmpFmt) (ts : UInt32) (s : OpenStream)
    (sound : OpenSound inChunkSize s) : OpenSound inChunkSize (applyExtended fmt ts s) := by
  rw [applyExtended]
  split
  · exact sound
  · exact ⟨sound.remembered, sound.announced, sound.pending⟩

theorem read_extended_sound (inChunkSize : Int) (total : Nat) (buf : Bytes) (h : ChunkHeader)
    (s next : OpenStream) (parsed : Nat) (sound : OpenSound inChunkSize s)
    (read : readExtended total buf h s = .ok (next, parsed)) : OpenSound inChunkSize next := by
  rw [readExtended] at read
  repeat' split at read
  all_goals cases read
  · exact apply_extended_sound inChunkSize h.fmt _ s sound
  · exact sound

theorem message_complete_sound (pkt : Packet) (st : RtmpIn) (range : InInt32 st.inChunkSize)
    (streams : ∀ inChunkSize csid, StreamSound inChunkSize (st.streams csid)) : Sound (messageComplete pkt st) := by
  rw [messageComplete, handleChunkSize]
  split
  · split
    · exact ⟨to_int32_range _, streams _⟩
    · exact ⟨range, streams _⟩
  · exact ⟨range, streams _⟩

theorem sound_nonnegative (st : RtmpIn) (sound : Sound st) (positive : 0 ≤ st.inChunkSize)
    (inChunkSize : Int) (csid : Nat) : StreamSound inChunkSize (st.streams csid) := by
  refine ⟨(sound.streams csid).remembered, fun packet pending => ?_⟩
  rcases (sound.streams csid).pending packet pending with roomy | ⟨_, negative⟩
  · exact .inl roomy
  · omega

theorem finish_chunk_sound (st next : RtmpIn) (buf : Bytes) (h : ChunkHeader) (s : OpenStream) (parsed : Nat)
    (bytes : Int) (chunk : Chunk) (sound : Sound st) (openSound : OpenSound st.inChunkSize s)
    (positive : 0 ≤ st.inChunkSize) (copies : 0 ≤ bytes) (fits : s.packet.body.length + bytes ≤ s.packet.capacity)
    (taken : finishChunk st buf h s parsed bytes = .take next chunk) : Sound next := by
  have range : InInt32 s.packet.capacity := by
    rcases openSound.pending with ⟨range, _⟩ | ⟨⟨range, _⟩, _⟩ <;> exact range
  obtain ⟨body, copied, ⟨_, _, rfl⟩ | ⟨_, _, rfl⟩⟩ := finish_chunk_cases st next buf h s parsed bytes chunk taken
  · refine message_complete_sound _ _ sound.chunkSize fun inChunkSize csid => ?_
    by_cases same : csid = h.csid
    · subst csid
      simp only [RtmpIn.put, Function.update_self]
      constructor
      · rintro prev ⟨rfl⟩
        exact openSound.announced
      · rintro packet ⟨⟩
    · simpa [RtmpIn.put, same] using sound_nonnegative st sound positive inChunkSize csid
  · refine put_sound st h.csid _ sound ⟨?_, ?_⟩
    · rintro prev ⟨rfl⟩
      exact openSound.announced
    · rintro packet ⟨rfl⟩
      refine .inl ⟨range, ?_⟩
      rw [append_body, List.length_append, append_capacity]
      omega

theorem parse_chunk_take_sound (st next : RtmpIn) (total : Nat) (buf : Bytes) (chunk : Chunk) (sound : Sound st)
    (taken : parseChunk st total buf = .take next chunk) : Sound next := by
  obtain ⟨h, s, parsed, headerRead, extendedRead, copied⟩ := parse_chunk_taken st next total buf chunk taken
  have started := start_chunk_sound st.inChunkSize h _ sound.chunkSize
    (chunk_header_length total buf h headerRead) (sound.streams h.csid)
  have extended := read_extended_sound _ total buf h _ s parsed started extendedRead
  obtain ⟨copies, fits, finished⟩ := copy_body_taken st next total buf h s parsed chunk copied
  exact finish_chunk_sound st next buf h s parsed _ chunk sound extended (by omega) copies fits finished

theorem parse_chunk_wait_sound (st next : RtmpIn) (total : Nat) (buf : Bytes) (sound : Sound st)
    (waited : parseChunk st total buf = .wait next) : Sound next := by
  rw [parseChunk] at waited
  split at waited
  · cases waited
  · cases waited
    exact sound
  · rename_i h headerRead
    have started := start_chunk_sound st.inChunkSize h _ sound.chunkSize
      (chunk_header_length total buf h headerRead) (sound.streams h.csid)
    dsimp only at waited
    split at waited
    · cases waited
    · cases waited
      exact put_sound st h.csid _ sound (close_sound _ _ started)
    · rename_i s parsed extendedRead
      have extended := read_extended_sound _ total buf h _ s parsed started extendedRead
      rw [copyBody, finishChunk] at waited
      dsimp only at waited
      repeat' split at waited
      all_goals cases waited
      exact put_sound st h.csid _ sound (close_sound _ _ extended)

theorem parse_loop_sound (st : RtmpIn) (total : Nat) (buf : Bytes) (sound : Sound st) :
    Sound (parseLoop st total buf).state :=
  parse_loop_invariant Sound (fun st next total buf sound => parse_chunk_wait_sound st next total buf sound)
    (fun st next total buf chunk sound => parse_chunk_take_sound st next total buf chunk sound) st total buf sound

theorem reachable_sound (st : RtmpIn) (reachable : Reachable st) : Sound st := by
  induction reachable with
  | fresh => exact fresh_sound
  | parse st buf _ _ ih => exact parse_loop_sound st _ buf ih

theorem read_at_in_range (buf : Bytes) (pos n : Nat) (fits : pos + n ≤ buf.length) :
    readAt buf pos n = .ok ((buf.drop pos).take n) := by
  rw [readAt, if_pos fits]

theorem basic_header_in_range (buf : Bytes) (nonempty : 0 < buf.length) :
    readBasicHeader buf.length buf = .error .short ∨
      ∃ basic, readBasicHeader buf.length buf = .ok basic ∧ basic.parsed ≤ buf.length := by
  rw [readBasicHeader]
  rw [read_at_in_range buf 0 1 nonempty]
  dsimp only
  split
  · split
    · exact .inl rfl
    · rename_i enough
      rw [read_at_in_range buf 1 1 (by omega)]
      exact .inr ⟨_, rfl, by dsimp only; omega⟩
  · split
    · split
      · exact .inl rfl
      · rename_i enough
        rw [read_at_in_range buf 1 1 (by omega), read_at_in_range buf 2 1 (by omega)]
        exact .inr ⟨_, rfl, by dsimp only; omega⟩
    · exact .inr ⟨_, rfl, nonempty⟩

theorem chunk_header_in_range (buf : Bytes) (nonempty : 0 < buf.length) (small : buf.length < 2147483648) :
    readChunkHeader buf.length buf = .error .short ∨
      ∃ h, readChunkHeader buf.length buf = .ok h ∧ h.parsed ≤ buf.length := by
  rw [readChunkHeader]
  rcases basic_header_in_range buf nonempty with short | ⟨basic, read, fits⟩
  · exact .inl (by rw [short])
  · rw [read]
    dsimp only
    rw [to_int32_exact _ ⟨by omega, by omega⟩]
    split
    · exact .inl rfl
    · rename_i enough
      have field : basic.parsed + messageHeaderSize basic.fmt ≤ buf.length := by
        cases fmt : basic.fmt <;> simp only [fmt, messageHeaderSize] at enough ⊢ <;> simp at enough <;> omega
      rw [read_at_in_range buf _ _ field]
      exact .inr ⟨_, rfl, by rw [message_header_parsed]; exact field⟩

theorem extended_in_range (buf : Bytes) (h : ChunkHeader) (s : OpenStream) (fits : h.parsed ≤ buf.length)
    (small : buf.length < 2147483648) :
    readExtended buf.length buf h s = .error .short ∨
      ∃ next parsed, readExtended buf.length buf h s = .ok (next, parsed) ∧ parsed ≤ buf.length := by
  rw [readExtended]
  rw [to_uint32_sub _ _ fits (by omega)]
  split
  · split
    · exact .inl rfl
    · rw [read_at_in_range buf _ _ (by omega)]
      exact .inr ⟨_, _, rfl, by omega⟩
  · exact .inr ⟨_, _, rfl, fits⟩

theorem get_space_roomy (packet : InPacket) (roomy : packet.Roomy) :
    packet.getSpace = packet.capacity - packet.body.length := by
  obtain ⟨⟨low, high⟩, fits⟩ := roomy
  exact to_int32_exact _ ⟨by omega, by omega⟩

theorem get_space_stuck (packet : InPacket) (stuck : packet.Stuck) : packet.getSpace < 0 := by
  obtain ⟨⟨low, high⟩, empty, negative⟩ := stuck
  rw [InPacket.getSpace]
  rw [empty, List.length_nil, to_int32_exact _ ⟨by omega, by omega⟩]
  omega

-- A negative number of bytes is a huge unsigned one, which no buffer below 2^31
-- bytes holds: the pass returns before the copy.
theorem copy_body_in_range (st : RtmpIn) (buf : Bytes) (h : ChunkHeader) (s : OpenStream) (parsed : Nat)
    (range : InInt32 st.inChunkSize) (openSound : OpenSound st.inChunkSize s) (fits : parsed ≤ buf.length)
    (small : buf.length < 2147483648) : copyBody st buf.length buf h s parsed ≠ .fault := by
  unfold copyBody
  dsimp only
  rw [to_uint32_sub _ _ fits (by omega)]
  have space : InInt32 s.packet.getSpace := to_int32_range _
  generalize copies : min s.packet.getSpace st.inChunkSize = bytes
  have bytesRange : InInt32 bytes := by
    rw [InInt32] at *
    omega
  split
  · simp
  · rename_i enough
    have nonnegative : 0 ≤ bytes := by
      by_contra negative
      have huge := to_uint32_negative bytes bytesRange (by omega)
      omega
    have exact_bytes : toUint32 bytes = bytes.toNat := by
      have exact := to_uint32_exact bytes nonnegative (by unfold InInt32 at bytesRange; omega)
      omega
    have room : s.packet.body.length + bytes ≤ s.packet.capacity := by
      rcases openSound.pending with roomy | ⟨stuck, _⟩
      · have exact := get_space_roomy s.packet roomy
        omega
      · have negative := get_space_stuck s.packet stuck
        omega
    split
    · omega
    · rw [finishChunk]
      rw [read_at_in_range buf _ _ (by omega)]
      dsimp only
      split <;> simp

theorem parse_chunk_in_range (st : RtmpIn) (buf : Bytes) (sound : Sound st) (nonempty : 0 < buf.length)
    (small : buf.length < 2147483648) : parseChunk st buf.length buf ≠ .fault := by
  rw [parseChunk]
  rcases chunk_header_in_range buf nonempty small with short | ⟨h, read, fits⟩
  · simp [short]
  · have started := start_chunk_sound st.inChunkSize h _ sound.chunkSize
      (chunk_header_length buf.length buf h read) (sound.streams h.csid)
    rw [read]
    dsimp only
    rcases extended_in_range buf h (startChunk st.inChunkSize h (st.streams h.csid)) fits small with
      short | ⟨next, parsed, extended, within⟩
    · simp [short]
    · rw [extended]
      exact copy_body_in_range st buf h next parsed sound.chunkSize
        (read_extended_sound _ _ buf h _ next parsed started extended) within small

structure PassBounded (pass : LoopPass) : Prop where
  progress : 0 < pass.chunk.parsed
  total : pass.total = pass.buf.length
  totalAfter : toUint32 ((pass.total : Int) - pass.chunk.parsed) = (pass.buf.drop pass.chunk.parsed).length
  copied : 0 ≤ pass.chunk.bytes
  room : pass.chunk.bytes ≤ pass.chunk.capacity - pass.chunk.size

theorem finish_chunk_record (st next : RtmpIn) (buf : Bytes) (h : ChunkHeader) (s : OpenStream) (parsed : Nat)
    (bytes : Int) (chunk : Chunk) (taken : finishChunk st buf h s parsed bytes = .take next chunk) :
    chunk.header = h ∧ chunk.ext = s.ext ∧ chunk.size = s.packet.body.length ∧
      chunk.capacity = s.packet.capacity ∧ chunk.bytes = bytes := by
  rw [finishChunk] at taken
  split at taken
  · cases taken
  · dsimp only at taken
    split at taken <;> cases taken <;> exact ⟨rfl, rfl, rfl, rfl, rfl⟩

theorem pass_bounded (st next : RtmpIn) (buf : Bytes) (chunk : Chunk) (small : buf.length < 2147483648)
    (taken : parseChunk st buf.length buf = .take next chunk) : PassBounded ⟨st, buf.length, buf, chunk⟩ := by
  obtain ⟨progress, within⟩ := parse_chunk_bounds st next buf.length buf chunk taken
  obtain ⟨h, s, parsed, _, _, copied⟩ := parse_chunk_taken st next buf.length buf chunk taken
  obtain ⟨copies, fits, finished⟩ := copy_body_taken st next buf.length buf h s parsed chunk copied
  obtain ⟨_, _, size, capacity, bytes⟩ := finish_chunk_record st next buf h s parsed _ chunk finished
  refine ⟨progress, rfl, ?_, ?_, ?_⟩
  · rw [to_uint32_sub _ _ within (by omega), List.length_drop]
  · dsimp only
    omega
  · dsimp only
    omega

theorem parse_loop_bounded (st : RtmpIn) (buf : Bytes) (sound : Sound st) (small : buf.length < 2147483648) :
    (parseLoop st buf.length buf).ending = .returned ∧
      ∀ pass ∈ (parseLoop st buf.length buf).passes, PassBounded pass := by
  induction size : buf.length using Nat.strongRecOn generalizing st buf with
  | ind n ih =>
      subst size
      rw [parseLoop]
      split
      · rename_i more
        split
        · rename_i fault
          exact absurd fault (parse_chunk_in_range st buf sound (by omega) small)
        · exact ⟨rfl, by simp⟩
        · rename_i next chunk taken
          have bounded := pass_bounded st next buf chunk small taken
          obtain ⟨progress, within⟩ := parse_chunk_bounds st next buf.length buf chunk taken
          have shorter : (buf.drop chunk.parsed).length < buf.length := by
            rw [List.length_drop]
            omega
          obtain ⟨returned, passes⟩ := ih _ shorter next (buf.drop chunk.parsed)
            (parse_chunk_take_sound st next _ buf chunk sound taken) (by omega) rfl
          rw [show toUint32 ((buf.length : Int) - chunk.parsed) = (buf.drop chunk.parsed).length from
            bounded.totalAfter]
          exact ⟨returned, List.forall_mem_cons.mpr ⟨bounded, passes⟩⟩
      · exact ⟨rfl, by simp⟩

-- Every read of the model is checked against the readable bytes and every copy
-- against the packet, and the loop ends in `faulted` when a check fails: from a
-- reachable state it never does, and the recursion itself is the termination.
theorem parse_message_bounded (st : RtmpIn) (reachable : Reachable st) (buf : Bytes)
    (small : buf.length < 2147483648) :
    (parseMessage st buf).ending = .returned ∧ ∀ pass ∈ (parseMessage st buf).passes, PassBounded pass := by
  rw [parseMessage]
  rw [to_uint32_nat _ (by omega)]
  exact parse_loop_bounded st buf (reachable_sound st reachable) small

theorem parse_message_bounded_chunk_size :
    (parseMessage .fresh [2, 0, 0, 0, 0, 0, 4, 1, 0, 0, 0, 0, 0, 0, 16, 0]).ending = .returned ∧
      ∀ pass ∈ (parseMessage .fresh [2, 0, 0, 0, 0, 0, 4, 1, 0, 0, 0, 0, 0, 0, 16, 0]).passes, PassBounded pass :=
  parse_message_bounded .fresh .fresh _ (by decide)

end Lssvc.Mmedia
