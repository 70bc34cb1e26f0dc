import Lssvc.Mmedia.ParserBounds

set_option autoImplicit false

namespace Lssvc.Mmedia

open Lssvc.Foundation

def RtmpIn.prevHeader (st : RtmpIn) (csid : Nat) : RtmpMsgHeader := (st.streams csid).prev.getD {}

def RtmpIn.received (st : RtmpIn) (csid : Nat) : Nat :=
  match (st.streams csid).packet with
  | some packet => packet.body.length
  | none => 0

def announcedLength (st : RtmpIn) (h : ChunkHeader) : Nat :=
  if h.fmt = .fmt0 ∨ h.fmt = .fmt1 then h.msgLen else (st.prevHeader h.csid).msgLen

-- The length the packet has room for: fixed by the first chunk of its message.
def fixedLength (st : RtmpIn) (h : ChunkHeader) : Int :=
  match (st.streams h.csid).packet with
  | some packet => packet.capacity
  | none => toInt32 (firstLength st.inChunkSize h (st.prevHeader h.csid))

def LastChunk (st : RtmpIn) (h : ChunkHeader) : Prop :=
  fixedLength st h - st.received h.csid ≤ st.inChunkSize

def LengthKept (pass : LoopPass) : Prop :=
  ∀ h, readChunkHeader pass.total pass.buf = .ok h → LastChunk pass.before h →
    (announcedLength pass.before h : Int) = fixedLength pass.before h

def LengthsMatch (outcome : ParseOutcome) : Prop :=
  ∀ pkt ∈ outcome.messages, ∀ header, pkt.ext = some header → pkt.getPacketSize = header.msgLen

theorem start_chunk_packet (st : RtmpIn) (h : ChunkHeader) :
    (startChunk st.inChunkSize h (st.streams h.csid)).packet.capacity = fixedLength st h ∧
      (startChunk st.inChunkSize h (st.streams h.csid)).packet.body.length = st.received h.csid ∧
      (startChunk st.inChunkSize h (st.streams h.csid)).packet.header.msgLen = announcedLength st h := by
  simp only [startChunk, update_header_length, fixedLength, announcedLength, RtmpIn.received, RtmpIn.prevHeader]
  cases (st.streams h.csid).packet <;> exact ⟨rfl, rfl, trivial⟩

theorem apply_extended_packet (fmt : RtmpFmt) (ts : UInt32) (s : OpenStream) :
    (applyExtended fmt ts s).packet.capacity = s.packet.capacity ∧
      (applyExtended fmt ts s).packet.body = s.packet.body ∧
      (applyExtended fmt ts s).packet.header.msgLen = s.packet.header.msgLen := by
  rw [applyExtended]
  split <;> exact ⟨rfl, rfl, rfl⟩

theorem read_extended_packet (total : Nat) (buf : Bytes) (h : ChunkHeader) (s next : OpenStream) (parsed : Nat)
    (read : readExtended total buf h s = .ok (next, parsed)) :
    next.packet.capacity = s.packet.capacity ∧ next.packet.body = s.packet.body ∧
      next.packet.header.msgLen = s.packet.header.msgLen := by
  rw [readExtended] at read
  repeat' split at read
  all_goals cases read
  · exact apply_extended_packet h.fmt _ s
  · exact ⟨rfl, rfl, rfl⟩

-- A finished packet is one whose space is used up, so its size is its capacity.
theorem finish_chunk_delivered (st next : RtmpIn) (buf : Bytes) (h : ChunkHeader) (s : OpenStream) (parsed : Nat)
    (bytes : Int) (chunk : Chunk) (range : InInt32 s.packet.capacity) (copies : 0 ≤ bytes)
    (fits : s.packet.body.length + bytes ≤ s.packet.capacity)
    (taken : finishChunk st buf h s parsed bytes = .take next chunk) :
    (s.packet.capacity = s.packet.body.length + bytes ∧
      ∃ pkt, chunk.delivered = some pkt ∧ pkt.ext = some s.packet.header ∧
        (pkt.getPacketSize : Int) = s.packet.capacity) ∨
    (s.packet.body.length + bytes < s.packet.capacity ∧ chunk.delivered = none) := by
  obtain ⟨body, copied, result⟩ := finish_chunk_cases st next buf h s parsed bytes chunk taken
  have space := append_space s.packet body range (by omega)
  rw [space, copied] at result
  rcases result with ⟨full, delivered, _⟩ | ⟨more, delivered, _⟩
  · refine .inl ⟨by omega, _, delivered, rfl, ?_⟩
    simp only [Packet.getPacketSize, InPacket.complete, append_body, List.length_append, copied]
    omega
  · exact .inr ⟨by omega, delivered⟩

theorem parse_chunk_delivered (st next : RtmpIn) (total : Nat) (buf : Bytes) (chunk : Chunk) (sound : Sound st)
    (taken : parseChunk st total buf = .take next chunk) :
    ∃ h, readChunkHeader total buf = .ok h ∧
      ((LastChunk st h ∧ ∃ pkt header, chunk.delivered = some pkt ∧ pkt.ext = some header ∧
          header.msgLen = announcedLength st h ∧ (pkt.getPacketSize : Int) = fixedLength st h) ∨
        (¬ LastChunk st h ∧ chunk.delivered = none)) := by
  obtain ⟨h, s, parsed, headerRead, extendedRead, copied⟩ := parse_chunk_taken st next total buf chunk taken
  refine ⟨h, headerRead, ?_⟩
  have started := start_chunk_sound st.inChunkSize h _ sound.chunkSize
    (chunk_header_length total buf h headerRead) (sound.streams h.csid)
  have openSound := read_extended_sound _ total buf h _ s parsed started extendedRead
  obtain ⟨capacity, received, announced⟩ := start_chunk_packet st h
  obtain ⟨sameCapacity, sameBody, sameLength⟩ := read_extended_packet total buf h _ s parsed extendedRead
  rw [capacity] at sameCapacity
  rw [announced] at sameLength
  rw [← sameBody] at received
  obtain ⟨copies, fits, finished⟩ := copy_body_taken st next total buf h s parsed chunk copied
  have roomy : s.packet.Roomy := by
    rcases openSound.pending with roomy | ⟨_, negative⟩
    · exact roomy
    · omega
  have space := get_space_roomy s.packet roomy
  have delivered := finish_chunk_delivered st next buf h s parsed _ chunk roomy.1 copies fits finished
  rw [LastChunk]
  rcases delivered with ⟨full, pkt, out, ext, size⟩ | ⟨partly, none⟩
  · exact .inl ⟨by omega, pkt, _, out, ext, sameLength, by omega⟩
  · exact .inr ⟨by omega, none⟩

theorem parse_loop_passes (st : RtmpIn) (total : Nat) (buf : Bytes) (sound : Sound st) :
    ∀ pass ∈ (parseLoop st total buf).passes,
      Sound pass.before ∧ ∃ next, parseChunk pass.before pass.total pass.buf = .take next pass.chunk := by
  fun_induction parseLoop st total buf with
  | case1 => simp
  | case2 => simp
  | case3 st total buf more next chunk taken later ih =>
      rw [List.forall_mem_cons]
      exact ⟨⟨sound, next, taken⟩, ih (parse_chunk_take_sound st next total buf chunk sound taken)⟩
  | case4 => simp

theorem receive_passes (pieces : List Bytes) (outcome : ParseOutcome) (sound : Sound outcome.state)
    (earlier : ∀ pass ∈ outcome.passes,
      Sound pass.before ∧ ∃ next, parseChunk pass.before pass.total pass.buf = .take next pass.chunk) :
    ∀ pass ∈ (receive outcome pieces).passes,
      Sound pass.before ∧ ∃ next, parseChunk pass.before pass.total pass.buf = .take next pass.chunk := by
  induction pieces generalizing outcome with
  | nil => exact earlier
  | cons piece pieces ih =>
      refine ih (arrive outcome piece) ?_ ?_
      · rw [arrive]
        split
        · exact sound
        · exact parse_loop_sound _ _ _ sound
      · rw [arrive]
        split
        · exact earlier
        · simp only [List.mem_append]
          rintro pass (old | new)
          · exact earlier pass old
          · exact parse_loop_passes _ _ _ sound pass new

theorem pass_length_kept (pass : LoopPass) (next : RtmpIn) (sound : Sound pass.before)
    (taken : parseChunk pass.before pass.total pass.buf = .take next pass.chunk) :
    (∀ pkt, pass.chunk.delivered = some pkt → ∀ header, pkt.ext = some header →
      pkt.getPacketSize = header.msgLen) ↔ LengthKept pass := by
  obtain ⟨h, read, delivered⟩ := parse_chunk_delivered _ next _ _ _ sound taken
  rw [LengthKept]
  rw [read]
  rcases delivered with ⟨last, pkt, header, out, ext, announced, fixed⟩ | ⟨notLast, none⟩
  · constructor
    · rintro equal other ⟨rfl⟩ _
      have size := equal pkt out header ext
      omega
    · intro kept other sameOut otherHeader otherExt
      have agree := kept h rfl last
      cases out.symm.trans sameOut
      cases ext.symm.trans otherExt
      omega
  · constructor
    · rintro _ other ⟨rfl⟩ last
      exact absurd last notLast
    · intro _ pkt out
      rw [none] at out
      cases out

theorem message_lengths_match_iff (pieces : List Bytes) :
    LengthsMatch (receive (.idle .fresh) pieces) ↔
      ∀ pass ∈ (receive (.idle .fresh) pieces).passes, LengthKept pass := by
  have parsed := receive_passes pieces (.idle .fresh) fresh_sound (by simp [ParseOutcome.idle])
  constructor
  · intro lengths pass inRun
    obtain ⟨sound, next, taken⟩ := parsed pass inRun
    refine (pass_length_kept pass next sound taken).mp fun pkt out => lengths pkt ?_
    exact List.mem_filterMap.mpr ⟨pass, inRun, out⟩
  · intro kept pkt inMessages
    obtain ⟨pass, inRun, out⟩ := List.mem_filterMap.mp inMessages
    obtain ⟨sound, next, taken⟩ := parsed pass inRun
    exact (pass_length_kept pass next sound taken).mpr (kept pass inRun) pkt out

-- The chunk size is set to 1, a message of two bytes is begun, and the format 0
-- header of its second chunk announces five.
theorem message_length_rewritten :
    ¬ ∀ pieces : List Bytes, LengthsMatch (receive (.idle .fresh) pieces) := by
  intro claimed
  have sizes := claimed [[2, 0, 0, 0, 0, 0, 4, 1, 0, 0, 0, 0, 0, 0, 0, 1],
    [3, 0, 0, 0, 0, 0, 2, 8, 0, 0, 0, 0, 170], [3, 0, 0, 0, 0, 0, 5, 8, 0, 0, 0, 0, 187]]
    ⟨8, -1, 0, 2, [170, 187], some ⟨3, 0, 5, 8, 0⟩⟩ (by decide +kernel) ⟨3, 0, 5, 8, 0⟩ rfl
  exact absurd sizes (by decide)

end Lssvc.Mmedia
