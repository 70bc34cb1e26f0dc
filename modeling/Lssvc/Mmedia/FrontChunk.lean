import Lssvc.Mmedia.ParserBounds

set_option autoImplicit false

namespace Lssvc.Mmedia

open Lssvc.Foundation

theorem read_at_front (buf other : Bytes) (size pos n : Nat) (bytes : Bytes)
    (same : other.take size = buf.take size) (inside : pos + n ≤ size) (read : readAt buf pos n = .ok bytes) :
    readAt other pos n = .ok bytes := by
  obtain ⟨fits, rfl⟩ := read_at_ok buf pos n bytes read
  have lengths := congrArg List.length same
  rw [List.length_take, List.length_take] at lengths
  have window (from' : Bytes) : (from'.drop pos).take n = ((from'.take size).drop pos).take n := by
    rw [List.drop_take, List.take_take, Nat.min_eq_left (by omega)]
  rw [read_at_in_range other pos n (by omega), window other, same, ← window buf]

theorem read_at_extends (buf more : Bytes) (pos n : Nat) (bytes : Bytes) (read : readAt buf pos n = .ok bytes) :
    readAt (buf ++ more) pos n = .ok bytes := by
  have fits := (read_at_ok buf pos n bytes read).1
  exact read_at_front buf (buf ++ more) (pos + n) pos n bytes (List.take_append_of_le_length fits) (Nat.le_refl _) read

theorem basic_header_front (first second : Nat) (buf other : Bytes) (size : Nat) (basic : BasicHeader)
    (same : other.take size = buf.take size) (inside : basic.parsed ≤ size) (enough : basic.parsed ≤ second)
    (read : readBasicHeader first buf = .ok basic) : readBasicHeader second other = .ok basic := by
  have positive := (basic_header_parsed first buf basic read).1
  rw [readBasicHeader] at read ⊢
  split at read
  · cases read
  · rename_i byte byteRead
    rw [read_at_front buf other size 0 1 byte same (by omega) byteRead]
    dsimp only at read ⊢
    split
    · rename_i two
      rw [if_pos two] at read
      split at read
      · cases read
      · split at read
        · cases read
        · rename_i low lowRead
          cases read
          rw [if_neg (by dsimp only at enough; omega), read_at_front buf other size 1 1 low same inside lowRead]
    · rename_i notTwo
      rw [if_neg notTwo] at read
      split
      · rename_i three
        rw [if_pos three] at read
        split at read
        · cases read
        · split at read
          · rename_i low high lowRead highRead
            cases read
            dsimp only at inside enough
            rw [if_neg (by omega), read_at_front buf other size 1 1 low same (by omega) lowRead,
              read_at_front buf other size 2 1 high same (by omega) highRead]
          · cases read
      · rename_i notThree
        rw [if_neg notThree] at read
        exact read

-- The check of `size` for a header that has been read: it is an int, and wraps
-- from 2^31 bytes on. Format 3 only asks for one byte more.
def SizeFits (total : Nat) (h : ChunkHeader) : Prop :=
  h.parsed ≤ total ∧ (h.fmt = .fmt3 → h.parsed < total) ∧
    (h.fmt ≠ .fmt3 → total + messageHeaderSize h.fmt < h.parsed + 2147483648)

theorem message_header_fmt (basic : BasicHeader) (fields : Bytes) : (messageHeader basic fields).fmt = basic.fmt := by
  cases fmt : basic.fmt <;> simp [messageHeader, fmt]

theorem basic_header_within (total : Nat) (buf : Bytes) (basic : BasicHeader) (some' : 0 < total)
    (read : readBasicHeader total buf = .ok basic) : basic.parsed ≤ total := by
  rw [readBasicHeader] at read
  dsimp only at read
  repeat' split at read
  all_goals cases read
  all_goals
    dsimp only
    omega

theorem basic_header_inside (total : Nat) (buf : Bytes) (basic : BasicHeader)
    (read : readBasicHeader total buf = .ok basic) : basic.parsed ≤ buf.length := by
  rw [readBasicHeader] at read
  split at read
  · cases read
  · rename_i first firstRead
    have one := (read_at_ok buf 0 1 first firstRead).1
    dsimp only at read
    split at read
    · split at read
      · cases read
      · split at read
        · cases read
        · rename_i low lowRead
          cases read
          exact (read_at_ok buf 1 1 low lowRead).1
    · split at read
      · split at read
        · cases read
        · split at read
          · rename_i low high _ highRead
            cases read
            exact (read_at_ok buf 2 1 high highRead).1
          · cases read
      · cases read
        exact one

theorem chunk_header_parts (total : Nat) (buf : Bytes) (h : ChunkHeader) (some' : 0 < total)
    (high : total < 4294967296) (read : readChunkHeader total buf = .ok h) :
    ∃ basic fields, readBasicHeader total buf = .ok basic ∧
      readAt buf basic.parsed (messageHeaderSize basic.fmt) = .ok fields ∧ h = messageHeader basic fields ∧
      SizeFits total h := by
  rw [readChunkHeader] at read
  split at read
  · cases read
  · rename_i basic basicRead
    have within := basic_header_within total buf basic some' basicRead
    dsimp only at read
    split at read
    · cases read
    · rename_i enough
      split at read
      · cases read
      · rename_i fields fieldsRead
        cases read
        refine ⟨basic, fields, basicRead, fieldsRead, rfl, ?_⟩
        rw [SizeFits, message_header_parsed, message_header_fmt]
        rw [toInt32] at enough
        cases fmt : basic.fmt <;>
          simp only [fmt, messageHeaderSize, reduceCtorEq, false_and, true_and, or_false, false_or, not_or, ne_eq,
            not_true_eq_false, not_false_eq_true, false_implies, true_implies, and_true] at enough ⊢ <;>
          omega

theorem chunk_header_front (first second : Nat) (buf other : Bytes) (size : Nat) (h : ChunkHeader) (some' : 0 < first)
    (high : first < 4294967296) (same : other.take size = buf.take size) (inside : h.parsed ≤ size)
    (fits : SizeFits second h) (secondHigh : second < 4294967296) (read : readChunkHeader first buf = .ok h) :
    readChunkHeader second other = .ok h := by
  obtain ⟨basic, fields, basicRead, fieldsRead, rfl, _⟩ := chunk_header_parts first buf h some' high read
  obtain ⟨within, behind, few⟩ := fits
  rw [message_header_parsed] at inside within few behind
  rw [message_header_fmt] at few behind
  have positive := (basic_header_parsed first buf basic basicRead).1
  rw [readChunkHeader, basic_header_front first second buf other size basic same (by omega) (by omega) basicRead]
  dsimp only
  rw [if_neg, read_at_front buf other size _ _ fields same inside fieldsRead]
  rw [toInt32]
  cases fmt : basic.fmt <;>
    simp only [fmt, messageHeaderSize, reduceCtorEq, false_and, true_and, or_false, false_or, not_or, ne_eq,
      not_true_eq_false, not_false_eq_true, false_implies, true_implies] at within behind few ⊢ <;>
    omega

theorem chunk_header_unique (first second : Nat) (buf more : Bytes) (h other : ChunkHeader) (some' : 0 < first)
    (high : first < 4294967296) (secondSome : 0 < second) (secondHigh : second < 4294967296)
    (read : readChunkHeader first buf = .ok h) (otherRead : readChunkHeader second (buf ++ more) = .ok other) :
    h = other := by
  obtain ⟨basic, fields, basicRead, fieldsRead, rfl, _⟩ := chunk_header_parts first buf h some' high read
  obtain ⟨basic', fields', basicRead', fieldsRead', rfl, _⟩ :=
    chunk_header_parts second (buf ++ more) other secondSome secondHigh otherRead
  have within := (read_at_ok buf _ _ fields fieldsRead).1
  have within' := basic_header_within second (buf ++ more) basic' secondSome basicRead'
  have size := basic_header_parsed first buf basic basicRead
  have front : (buf ++ more).take basic.parsed = buf.take basic.parsed := List.take_append_of_le_length (by omega)
  -- Both basic headers are read again with more bytes counted.
  have raised := basic_header_front first (first + second) buf (buf ++ more) basic.parsed basic front (Nat.le_refl _)
    (by have := basic_header_within first buf basic some' basicRead; omega) basicRead
  have raised' := basic_header_front second (first + second) (buf ++ more) (buf ++ more) basic'.parsed basic' rfl
    (Nat.le_refl _) (by omega) basicRead'
  cases Except.ok.inj (raised.symm.trans raised')
  have fieldsAgain := read_at_extends buf more _ _ fields fieldsRead
  cases Except.ok.inj (fieldsAgain.symm.trans fieldsRead')
  rfl

theorem chunk_header_size (total : Nat) (buf : Bytes) (h : ChunkHeader) (some' : 0 < total) (high : total < 4294967296)
    (read : readChunkHeader total buf = .ok h) :
    1 + messageHeaderSize h.fmt ≤ h.parsed ∧ h.parsed ≤ 3 + messageHeaderSize h.fmt := by
  obtain ⟨basic, fields, basicRead, _, rfl, _⟩ := chunk_header_parts total buf h some' high read
  have size := basic_header_parsed total buf basic basicRead
  rw [message_header_parsed, message_header_fmt]
  omega

theorem fitting_total (h : ChunkHeader) (length : Nat)
    (size : 1 + messageHeaderSize h.fmt ≤ h.parsed ∧ h.parsed ≤ 3 + messageHeaderSize h.fmt)
    (behind : h.parsed ≤ length) (high : length < 4294967296)
    (few : h.fmt ≠ .fmt3 → length + messageHeaderSize h.fmt < h.parsed + 2147483648) :
    ∃ total, 1 < total ∧ total < 4294967296 ∧ length ≤ total ∧ total ≤ length + 1 ∧ SizeFits total h := by
  by_cases third : h.fmt = .fmt3
  · rw [third, messageHeaderSize] at size
    by_cases bare : length = h.parsed
    · exact ⟨length + 1, by omega, by omega, by omega, Nat.le_refl _, by omega, fun _ => by omega,
        fun other => absurd third other⟩
    · exact ⟨length, by omega, high, Nat.le_refl _, Nat.le_succ _, behind, fun _ => by omega,
        fun other => absurd third other⟩
  · have fields : 3 ≤ messageHeaderSize h.fmt := by
      cases fmt : h.fmt with
      | fmt3 => exact absurd fmt third
      | _ => decide
    exact ⟨length, by omega, high, Nat.le_refl _, Nat.le_succ _, behind, fun fmt => absurd fmt third, few⟩

def extendWith (fmt : RtmpFmt) (field : Bytes) (s : OpenStream) : OpenStream :=
  if s.ext then applyExtended fmt (UInt32.ofNat (readUint32T field)) s else s

-- What a pass makes of a header, without total_bytes: the opened stream, where
-- the body starts, how many bytes are copied, and the length of the chunk.
def RtmpIn.opened (st : RtmpIn) (h : ChunkHeader) : OpenStream := startChunk st.inChunkSize h (st.streams h.csid)

def bodyStart (st : RtmpIn) (h : ChunkHeader) : Nat := h.parsed + if (st.opened h).ext then 4 else 0

def bodyBytes (st : RtmpIn) (h : ChunkHeader) : Int := min (st.opened h).packet.getSpace st.inChunkSize

def frontLength (st : RtmpIn) (h : ChunkHeader) : Nat := bodyStart st h + (bodyBytes st h).toNat

def takeFront (st : RtmpIn) (buf : Bytes) (h : ChunkHeader) : ChunkStep :=
  finishChunk st buf h (extendWith h.fmt ((buf.drop h.parsed).take 4) (st.opened h)) (bodyStart st h) (bodyBytes st h)

def Copies (st : RtmpIn) (h : ChunkHeader) : Prop :=
  0 ≤ bodyBytes st h ∧ (st.opened h).packet.body.length + bodyBytes st h ≤ (st.opened h).packet.capacity

theorem extend_with_packet (fmt : RtmpFmt) (field : Bytes) (s : OpenStream) :
    (extendWith fmt field s).packet.capacity = s.packet.capacity ∧
      (extendWith fmt field s).packet.body = s.packet.body := by
  rw [extendWith]
  split
  · rw [applyExtended]
    split <;> exact ⟨rfl, rfl⟩
  · exact ⟨rfl, rfl⟩

theorem extend_with_space (fmt : RtmpFmt) (field : Bytes) (s : OpenStream) :
    (extendWith fmt field s).packet.getSpace = s.packet.getSpace := by
  obtain ⟨capacity, body⟩ := extend_with_packet fmt field s
  rw [InPacket.getSpace, capacity, body, InPacket.getSpace]

theorem body_bytes_small (st : RtmpIn) (h : ChunkHeader) : bodyBytes st h < 2147483648 := by
  have range := (to_int32_range ((st.opened h).packet.capacity - (st.opened h).packet.body.length)).2
  rw [bodyBytes, InPacket.getSpace]
  omega

theorem read_extended_front (total : Nat) (buf : Bytes) (h : ChunkHeader) (s next : OpenStream) (parsed : Nat)
    (within : h.parsed ≤ total) (high : total < 4294967296)
    (read : readExtended total buf h s = .ok (next, parsed)) :
    next = extendWith h.fmt ((buf.drop h.parsed).take 4) s ∧ parsed = h.parsed + (if s.ext then 4 else 0) ∧
      parsed ≤ total := by
  rw [readExtended] at read
  cases ext : s.ext with
  | false =>
      rw [if_neg (by rw [ext]; exact Bool.false_ne_true)] at read
      cases read
      rw [extendWith, ext]
      exact ⟨rfl, rfl, within⟩
  | true =>
      rw [if_pos ext, to_uint32_sub _ _ within high] at read
      split at read
      · cases read
      · split at read
        · cases read
        · rename_i field fieldRead
          cases read
          rw [extendWith, ext, (read_at_ok buf _ _ field fieldRead).2]
          refine ⟨rfl, rfl, ?_⟩
          omega

theorem copy_body_front (st next : RtmpIn) (total : Nat) (buf : Bytes) (h : ChunkHeader) (s : OpenStream)
    (parsed : Nat) (chunk : Chunk) (within : parsed ≤ total) (high : total < 4294967296)
    (small : min s.packet.getSpace st.inChunkSize < 2147483648)
    (taken : copyBody st total buf h s parsed = .take next chunk) :
    parsed + (min s.packet.getSpace st.inChunkSize).toNat ≤ total := by
  have copies := (copy_body_taken st next total buf h s parsed chunk taken).1
  have exact := to_uint32_exact (min s.packet.getSpace st.inChunkSize) copies (by omega)
  unfold copyBody at taken
  dsimp only at taken
  rw [to_uint32_sub _ _ within high] at taken
  split at taken
  · cases taken
  · omega

theorem parse_chunk_front (st next : RtmpIn) (total : Nat) (buf : Bytes) (chunk : Chunk) (some' : 0 < total)
    (high : total < 4294967296) (taken : parseChunk st total buf = .take next chunk) :
    readChunkHeader total buf = .ok chunk.header ∧ SizeFits total chunk.header ∧ Copies st chunk.header ∧
      frontLength st chunk.header ≤ total ∧ takeFront st buf chunk.header = .take next chunk ∧
      chunk.parsed = frontLength st chunk.header := by
  obtain ⟨h, s, parsed, headerRead, extendedRead, copied⟩ := parse_chunk_taken st next total buf chunk taken
  obtain ⟨_, _, _, _, _, fits⟩ := chunk_header_parts total buf h some' high headerRead
  obtain ⟨rfl, start, within⟩ := read_extended_front total buf h _ s parsed fits.1 high extendedRead
  obtain ⟨copies, room, finished⟩ := copy_body_taken st next total buf h _ parsed chunk copied
  have ends := copy_body_front st next total buf h _ parsed chunk within high
    (by rw [extend_with_space]; exact body_bytes_small st h) copied
  rw [(extend_with_packet _ _ _).1, (extend_with_packet _ _ _).2] at room
  rw [extend_with_space] at copies room finished ends
  obtain ⟨sameHeader, _⟩ := finish_chunk_record st next buf h _ parsed _ chunk finished
  have consumed := (finish_chunk_parsed st next buf h _ parsed _ chunk finished).1
  rw [sameHeader]
  subst start
  exact ⟨headerRead, fits, ⟨copies, room⟩, ends, finished, consumed⟩

theorem copy_body_finishes (st : RtmpIn) (total : Nat) (buf : Bytes) (h : ChunkHeader) (s : OpenStream)
    (parsed : Nat) (bytes : Int) (high : total < 4294967296) (same : min s.packet.getSpace st.inChunkSize = bytes)
    (copies : 0 ≤ bytes) (small : bytes < 2147483648) (room : s.packet.body.length + bytes ≤ s.packet.capacity)
    (within : parsed + bytes.toNat ≤ total) :
    copyBody st total buf h s parsed = finishChunk st buf h s parsed bytes := by
  have exact := to_uint32_exact bytes copies (by omega)
  rw [copyBody, same]
  rw [to_uint32_sub _ _ (by omega) high, if_neg (by omega), if_neg (by omega)]

theorem take_front_parses (st : RtmpIn) (total : Nat) (buf : Bytes) (h : ChunkHeader) (high : total < 4294967296)
    (within : frontLength st h ≤ total) (inside : bodyStart st h ≤ buf.length) (copies : Copies st h)
    (read : readChunkHeader total buf = .ok h) : parseChunk st total buf = takeFront st buf h := by
  obtain ⟨nonnegative, room⟩ := copies
  have extended : readExtended total buf h (st.opened h) =
      .ok (extendWith h.fmt ((buf.drop h.parsed).take 4) (st.opened h), bodyStart st h) := by
    rw [frontLength] at within
    rw [bodyStart] at inside within ⊢
    rw [readExtended, extendWith]
    cases ext : (st.opened h).ext with
    | false => rfl
    | true =>
        rw [ext, if_pos rfl] at inside within
        rw [if_pos rfl, if_pos rfl, to_uint32_sub _ _ (by omega) high, if_neg (by omega),
          read_at_in_range buf _ _ (by omega)]
        rfl
  rw [RtmpIn.opened] at extended
  rw [parseChunk, read]
  dsimp only
  rw [extended]
  refine copy_body_finishes st total buf h _ _ (bodyBytes st h) high ?_ nonnegative (body_bytes_small st h) ?_ within
  · rw [extend_with_space]
    rfl
  · rw [(extend_with_packet _ _ _).1, (extend_with_packet _ _ _).2]
    exact room

theorem finish_chunk_front (st next : RtmpIn) (buf other : Bytes) (h : ChunkHeader) (s : OpenStream) (parsed : Nat)
    (bytes : Int) (chunk : Chunk) (same : other.take chunk.parsed = buf.take chunk.parsed)
    (taken : finishChunk st buf h s parsed bytes = .take next chunk) :
    finishChunk st other h s parsed bytes = .take next chunk := by
  have consumed := (finish_chunk_parsed st next buf h s parsed bytes chunk taken).1
  rw [finishChunk] at taken ⊢
  split at taken
  · cases taken
  · rename_i body read
    rw [read_at_front buf other chunk.parsed parsed bytes.toNat body same (by omega) read]
    exact taken

theorem parse_chunk_elsewhere (st next : RtmpIn) (first second : Nat) (buf other : Bytes) (chunk : Chunk)
    (some' : 0 < first) (high : first < 4294967296) (taken : parseChunk st first buf = .take next chunk)
    (same : other.take chunk.parsed = buf.take chunk.parsed) (within : chunk.parsed ≤ second)
    (fits : SizeFits second chunk.header) (secondHigh : second < 4294967296) :
    parseChunk st second other = .take next chunk := by
  obtain ⟨read, _, copies, _, finished, consumed⟩ := parse_chunk_front st next first buf chunk some' high taken
  have behind : chunk.header.parsed ≤ bodyStart st chunk.header := Nat.le_add_right _ _
  have length : frontLength st chunk.header = bodyStart st chunk.header + (bodyBytes st chunk.header).toNat := rfl
  have inBuf := (parse_chunk_bounds st next first buf chunk taken).2
  have inOther : chunk.parsed ≤ other.length := by
    have lengths := congrArg List.length same
    rw [List.length_take, List.length_take] at lengths
    omega
  have field : extendWith chunk.header.fmt ((other.drop chunk.header.parsed).take 4) (st.opened chunk.header) =
      extendWith chunk.header.fmt ((buf.drop chunk.header.parsed).take 4) (st.opened chunk.header) := by
    cases ext : (st.opened chunk.header).ext with
    | false =>
        rw [extendWith, extendWith, ext]
        rfl
    | true =>
        have start : bodyStart st chunk.header = chunk.header.parsed + 4 := by rw [bodyStart, ext, if_pos rfl]
        have window := read_at_front buf other chunk.parsed chunk.header.parsed 4 _ same (by omega)
          (read_at_in_range buf _ _ (by omega))
        rw [read_at_in_range other _ _ (by omega)] at window
        rw [Except.ok.inj window]
  rw [take_front_parses st second other chunk.header secondHigh (by omega) (by omega) copies
    (chunk_header_front first second buf other chunk.parsed chunk.header some' high same (by omega) fits secondHigh read),
    takeFront, field]
  exact finish_chunk_front st next buf other chunk.header _ _ _ chunk same finished

end Lssvc.Mmedia
