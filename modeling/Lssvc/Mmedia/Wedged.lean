import Lssvc.Mmedia.ParserRuns

set_option autoImplicit false

namespace Lssvc.Mmedia

open Lssvc.Foundation

-- With a chunk size above 0, the chunk whose first bytes are unread can be
-- completed: `size` is the int behind the basic header, so unless the chunk is of
-- format 3, the header fields and what the loop waits for stay below 2^31 bytes.
def Completable (st : RtmpIn) (buf : Bytes) : Prop :=
  0 < st.inChunkSize ∧ ∃ more total h, 1 < total ∧ total < 4294967296 ∧
    readChunkHeader total (buf ++ more) = .ok h ∧ buf.length ≤ frontLength st h ∧
    (h.fmt ≠ .fmt3 → messageHeaderSize h.fmt + frontLength st h < h.parsed + 2147483648)

def Live (st : RtmpIn) (buf : Bytes) : Prop :=
  ∃ chunks next rest, Drains st buf chunks next rest ∧
    ((∃ chunk ∈ chunks, chunk.Delivers) ∨ Completable next rest)

theorem drains_live (st last : RtmpIn) (stream rest : Bytes) (chunks : List Chunk)
    (drains : Drains st stream chunks last rest) (buf more : Bytes) (cut : stream = buf ++ more)
    (unfilled : Unfilled st) (delivers : ∃ chunk ∈ chunks, chunk.Delivers) : Live st buf := by
  induction drains generalizing buf with
  | done =>
      obtain ⟨chunk, impossible, _⟩ := delivers
      cases impossible
  | take st next last stream rest chunk chunks taken later ih =>
      subst cut
      by_cases inside : chunk.parsed ≤ buf.length
      · have takes : TakesFront st buf next chunk := takes_front_elsewhere st next (buf ++ more) buf chunk taken
          (List.take_append_of_le_length inside).symm
        obtain ⟨other, inList, delivered⟩ := delivers
        rcases List.mem_cons.mp inList with rfl | inLater
        · exact ⟨[other], next, _, .take st next next buf _ other [] takes (.done _ _),
            .inl ⟨other, List.mem_singleton_self _, delivered⟩⟩
        · obtain ⟨total, _, _, parsed⟩ := taken
          obtain ⟨chunks', next', rest', drains', result⟩ := ih (buf.drop chunk.parsed)
            (List.drop_append_of_le_length inside) (take_unfilled st next total _ chunk unfilled parsed)
            ⟨other, inLater, delivered⟩
          refine ⟨chunk :: chunks', next', rest', .take st next next' buf rest' chunk chunks' takes drains', ?_⟩
          rcases result with ⟨found, inChunks, delivers⟩ | completable
          · exact .inl ⟨found, List.mem_cons_of_mem _ inChunks, delivers⟩
          · exact .inr completable
      · refine ⟨[], st, buf, .done _ _, .inr ⟨?_, more, ?_⟩⟩
        · by_contra closed
          exact (closed_drains st last (buf ++ more) rest (chunk :: chunks) unfilled (by omega)
            (.take st next last _ rest chunk chunks taken later)).1 delivers
        · obtain ⟨total, enough, high, parsed⟩ := taken
          obtain ⟨read, ⟨_, _, few⟩, _, within, _, consumed⟩ :=
            parse_chunk_front st next total (buf ++ more) chunk (by omega) high parsed
          refine ⟨total, chunk.header, enough, high, read, by omega, fun other => ?_⟩
          have bounded := few other
          omega

theorem copies_sound (st : RtmpIn) (h : ChunkHeader) (sound : Sound st) (positive : 0 < st.inChunkSize)
    (wire : h.msgLen < 16777216) :
    (st.opened h).packet.Roomy ∧ Copies st h := by
  have opened := start_chunk_sound st.inChunkSize h _ sound.chunkSize wire (sound.streams h.csid)
  have roomy : (st.opened h).packet.Roomy := by
    rcases opened.pending with roomy | ⟨_, negative⟩
    · exact roomy
    · omega
  have space := get_space_roomy _ roomy
  have room := roomy.2
  refine ⟨roomy, ?_, ?_⟩
  · rw [bodyBytes]
    omega
  · rw [bodyBytes]
    omega

theorem front_taken (st : RtmpIn) (stream : Bytes) (total : Nat) (h : ChunkHeader) (sound : Sound st)
    (positive : 0 < st.inChunkSize) (enough : 1 < total) (high : total < 4294967296)
    (read : readChunkHeader total stream = .ok h) (whole : frontLength st h ≤ stream.length)
    (few : h.fmt ≠ .fmt3 → messageHeaderSize h.fmt + frontLength st h < h.parsed + 2147483648) :
    ∃ next chunk, TakesFront st stream next chunk ∧ chunk.header = h ∧ chunk.parsed = frontLength st h := by
  obtain ⟨_, copies⟩ := copies_sound st h sound positive (chunk_header_length total stream h read)
  have size := chunk_header_size total stream h (by omega) high read
  have fields : messageHeaderSize h.fmt ≤ 11 := by cases h.fmt <;> decide
  have small := body_bytes_small st h
  have start : bodyStart st h ≤ h.parsed + 4 ∧ h.parsed ≤ bodyStart st h := by
    rw [bodyStart]
    split <;> omega
  have length : frontLength st h = bodyStart st h + (bodyBytes st h).toNat := rfl
  obtain ⟨counted, more, countedHigh, within, _, fits⟩ := fitting_total h (frontLength st h) size (by omega) (by omega)
    (fun other => by
      have bounded := few other
      omega)
  have again := chunk_header_front total counted stream stream h.parsed h (by omega) high rfl (Nat.le_refl _) fits countedHigh
    read
  have parses := take_front_parses st counted stream h countedHigh within (by omega) copies again
  rw [takeFront, finishChunk, read_at_in_range stream _ _ (by omega)] at parses
  dsimp only at parses
  split at parses
  · exact ⟨_, _, ⟨counted, more, countedHigh, parses⟩, rfl, rfl⟩
  · exact ⟨_, _, ⟨counted, more, countedHigh, parses⟩, rfl, rfl⟩

theorem take_keeps_size (st next : RtmpIn) (buf : Bytes) (chunk : Chunk) (takes : TakesFront st buf next chunk) :
    chunk.Delivers ∨ next.inChunkSize = st.inChunkSize := by
  obtain ⟨total, _, _, taken⟩ := takes
  obtain ⟨h, s, parsed, _, _, copied⟩ := parse_chunk_taken st next total buf chunk taken
  obtain ⟨_, _, finished⟩ := copy_body_taken st next total buf h s parsed chunk copied
  obtain ⟨body, _, ⟨_, delivered, rfl⟩ | ⟨_, _, rfl⟩⟩ := finish_chunk_cases st next buf h s parsed _ chunk finished
  · by_cases empty : (s.packet.append body).complete.body = []
    · rw [message_complete_empty _ _ empty]
      exact .inr rfl
    · exact .inl ⟨_, delivered, empty⟩
  · exact .inr rfl

theorem takes_front_sound (st next : RtmpIn) (buf : Bytes) (chunk : Chunk) (sound : Sound st)
    (takes : TakesFront st buf next chunk) : Sound next := by
  obtain ⟨total, _, _, taken⟩ := takes
  exact parse_chunk_take_sound st next total buf chunk sound taken

theorem drains_sound (st last : RtmpIn) (buf rest : Bytes) (chunks : List Chunk) (sound : Sound st)
    (drains : Drains st buf chunks last rest) : Sound last := by
  induction drains with
  | done => exact sound
  | take st next last buf rest chunk chunks taken _ ih => exact ih (takes_front_sound st next buf chunk sound taken)

def continuation : ChunkHeader := { fmt := .fmt3, csid := 3, parsed := 1 }

theorem continuation_read (rest : Bytes) : readChunkHeader 2 (0xC3 :: rest) = .ok continuation := by
  refine chunk_header_front 2 2 [0xC3] (0xC3 :: rest) 1 continuation (by decide) (by decide) ?_ (Nat.le_refl _) ?_
    (by decide) rfl
  · rw [List.take_succ_cons, List.take_zero]
    rfl
  · exact ⟨by decide, fun _ => by decide, fun other => absurd rfl other⟩

def RtmpIn.missing (st : RtmpIn) : Int := (st.opened continuation).packet.getSpace

theorem missing_pending (st : RtmpIn) (packet : InPacket) (pending : (st.streams 3).packet = some packet) :
    st.missing = packet.getSpace := by
  rw [RtmpIn.missing, RtmpIn.opened, startChunk, continuation, pending]
  rfl

theorem missing_new (st : RtmpIn) (sound : Sound st) (positive : 0 < st.inChunkSize)
    (free : (st.streams 3).packet = none) : 0 < st.missing := by
  obtain ⟨low, high⟩ := sound.chunkSize
  have remembered : ((st.streams 3).prev.getD {}).msgLen < 16777216 := by
    cases previous : (st.streams 3).prev with
    | none => decide
    | some prev => exact (sound.streams 3).remembered prev previous
  have space : st.missing = toInt32 (toInt32 (firstLength st.inChunkSize continuation ((st.streams 3).prev.getD {})) - 0) := by
    rw [RtmpIn.missing, RtmpIn.opened, startChunk, continuation, free]
    rfl
  rw [space, firstLength, if_neg (by decide)]
  split
  · rw [toInt32, toInt32, toUint32]
    omega
  · rw [toInt32, toInt32]
    omega

theorem continuation_taken (st : RtmpIn) (sound : Sound st) (positive : 0 < st.inChunkSize) :
    ∃ stream next chunk, TakesFront st stream next chunk ∧ stream.drop chunk.parsed = [] ∧
      (chunk.Delivers ∨ (0 < next.missing ∧ (0 < st.missing → next.missing < st.missing))) := by
  have starts : 1 ≤ frontLength st continuation := by
    have one : continuation.parsed = 1 := rfl
    rw [frontLength, bodyStart]
    omega
  have length : (0xC3 :: List.replicate (frontLength st continuation - 1) (0 : UInt8)).length =
      frontLength st continuation := by
    rw [List.length_cons, List.length_replicate]
    omega
  obtain ⟨next, chunk, takes, header, parsed⟩ := front_taken st _ 2 continuation sound positive (by decide) (by decide)
    (continuation_read _) (Nat.le_of_eq length.symm) (fun other => absurd rfl other)
  refine ⟨_, next, chunk, takes, List.drop_eq_nil_of_le (by omega), ?_⟩
  obtain ⟨roomy, copies, room⟩ := copies_sound st continuation sound positive (by decide)
  have space := get_space_roomy _ roomy
  have nextSound := takes_front_sound st next _ chunk sound takes
  have same := take_keeps_size st next _ chunk takes
  obtain ⟨total, more, high, taken⟩ := takes
  obtain ⟨_, _, _, _, finished, _⟩ := parse_chunk_front st next total _ chunk (by omega) high taken
  rw [header, takeFront] at finished
  obtain ⟨capacity, old⟩ := extend_with_packet continuation.fmt
    (((0xC3 :: List.replicate (frontLength st continuation - 1) (0 : UInt8)).drop continuation.parsed).take 4)
    (st.opened continuation)
  generalize extendWith continuation.fmt _ (st.opened continuation) = s at finished capacity old
  obtain ⟨body, size, result⟩ := finish_chunk_cases st next _ continuation _ _ _ chunk finished
  have left := append_space _ body (by rw [capacity]; exact roomy.1) (by rw [capacity, old]; omega)
  rw [capacity, old] at left
  have bytes : bodyBytes st continuation = min st.missing st.inChunkSize := rfl
  have missing : st.missing = (st.opened continuation).packet.capacity - (st.opened continuation).packet.body.length :=
    space
  rcases result with ⟨full, delivered, after⟩ | ⟨unfinished, _, after⟩
  · rw [or_iff_not_imp_left]
    intro silent
    have empty : (s.packet.append body).complete.body = [] := by
      by_contra nonempty
      exact silent ⟨_, delivered, nonempty⟩
    have nothing : body = [] := (List.append_eq_nil_iff.mp empty).2
    rw [nothing, List.length_nil] at size
    rw [message_complete_empty _ _ empty] at after
    refine ⟨missing_new next nextSound (by rw [same.resolve_left silent]; exact positive) ?_, fun some' => ?_⟩
    · rw [after]
      exact congrArg InStream.packet (put_same st 3 _)
    · omega
  · right
    have pending := missing_pending next _ (by
      rw [after]
      exact congrArg InStream.packet (put_same st 3 _))
    rw [left] at unfinished pending
    omega

theorem continuation_can_deliver (st : RtmpIn) (sound : Sound st) (positive : 0 < st.inChunkSize)
    (later : ∀ next, Sound next → 0 < next.inChunkSize → 0 < next.missing →
      (0 < st.missing → next.missing < st.missing) → CanDeliver next []) : CanDeliver st [] := by
  obtain ⟨stream, next, chunk, takes, ends, result⟩ := continuation_taken st sound positive
  refine append_can_deliver st [] stream (take_can_deliver st next stream chunk takes ?_)
  rw [ends]
  rcases take_keeps_size st next stream chunk takes with delivers | same
  · exact .inl delivers
  · rcases result with delivers | ⟨left, less⟩
    · exact .inl delivers
    · exact .inr (later next (takes_front_sound st next stream chunk sound takes) (by rw [same]; exact positive) left
        less)

-- By induction on what is missing of the packet of chunk stream 3.
theorem filled_can_deliver (st : RtmpIn) (n : Nat) (sound : Sound st) (positive : 0 < st.inChunkSize)
    (some' : 0 < st.missing) (size : st.missing = n) : CanDeliver st [] := by
  induction n using Nat.strongRecOn generalizing st with
  | ind n ih =>
      refine continuation_can_deliver st sound positive fun next nextSound nextPositive left less => ?_
      have fewer := less some'
      exact ih next.missing.toNat (by omega) next nextSound nextPositive left (by omega)

theorem positive_can_deliver (st : RtmpIn) (sound : Sound st) (positive : 0 < st.inChunkSize) : CanDeliver st [] :=
  continuation_can_deliver st sound positive fun next nextSound nextPositive left _ =>
    filled_can_deliver next next.missing.toNat nextSound nextPositive left (by omega)

theorem completable_can_deliver (st : RtmpIn) (rest : Bytes) (sound : Sound st) (completable : Completable st rest) :
    CanDeliver st rest := by
  obtain ⟨positive, more, total, h, enough, high, read, within, few⟩ := completable
  obtain ⟨_, _, _, _, _, fits⟩ := chunk_header_parts total (rest ++ more) h (by omega) high read
  have header := (chunk_header_parsed total (rest ++ more) h read).2
  have behind : h.parsed ≤ frontLength st h := by
    rw [frontLength, bodyStart]
    omega
  have cut : (rest ++ more ++ List.replicate (frontLength st h) 0).take (frontLength st h) =
      rest ++ (more ++ List.replicate (frontLength st h) 0).take (frontLength st h - rest.length) := by
    rw [List.append_assoc, List.take_append, List.take_of_length_le within]
  have length : ((rest ++ more ++ List.replicate (frontLength st h) (0 : UInt8)).take (frontLength st h)).length =
      frontLength st h := by
    rw [List.length_take, List.length_append, List.length_replicate]
    omega
  have again := chunk_header_front total total (rest ++ more)
    ((rest ++ more ++ List.replicate (frontLength st h) 0).take (frontLength st h)) h.parsed h (by omega) high (by
      rw [List.take_take, Nat.min_eq_left behind, List.take_append_of_le_length header]) (Nat.le_refl _) fits high read
  obtain ⟨next, chunk, takes, _, parsed⟩ := front_taken st _ total h sound positive enough high again
    (Nat.le_of_eq length.symm) few
  refine append_can_deliver st rest _ (cut ▸ take_can_deliver st next _ chunk takes ?_)
  rw [List.drop_eq_nil_of_le (by omega)]
  rcases take_keeps_size st next _ chunk takes with delivers | same
  · exact .inl delivers
  · exact .inr (positive_can_deliver next (takes_front_sound st next _ chunk sound takes) (by rw [same]; exact positive))

theorem live_can_deliver (st : RtmpIn) (buf : Bytes) (sound : Sound st) (live : Live st buf) : CanDeliver st buf := by
  obtain ⟨chunks, next, rest, drains, delivers | completable⟩ := live
  · refine ⟨[], chunks, next, rest, ?_, delivers⟩
    rw [List.append_nil]
    exact drains
  · obtain ⟨more, others, last, final, later, chunk, inList, delivers⟩ :=
      completable_can_deliver next rest (drains_sound st next buf rest chunks sound drains) completable
    exact ⟨more, chunks ++ others, last, final,
      drains_trans st next last _ _ final chunks others (drains_append st next buf rest more chunks drains) later,
      chunk, List.mem_append_right _ inList, delivers⟩

theorem can_deliver_iff_live (st : RtmpIn) (buf : Bytes) (sound : Sound st) (unfilled : Unfilled st) :
    CanDeliver st buf ↔ Live st buf := by
  constructor
  · rintro ⟨more, chunks, next, rest, drains, delivers⟩
    exact drains_live st next (buf ++ more) rest chunks drains buf more rfl unfilled delivers
  · exact live_can_deliver st buf sound

-- After a call that returned, the loop does not take the front of the unread
-- bytes: it has just declined to.
def Settled (outcome : ParseOutcome) : Prop :=
  outcome.ending = .returned → outcome.buf.length < 2147483648 → 1 < outcome.buf.length →
    ∀ next chunk, parseChunk outcome.state outcome.buf.length outcome.buf ≠ .take next chunk

theorem parse_loop_settled (st : RtmpIn) (total : Nat) (buf : Bytes) (counted : total = toUint32 buf.length) :
    Settled (parseLoop st total buf) := by
  fun_induction parseLoop st total buf with
  | case1 => exact fun impossible => by cases impossible
  | case2 st total buf more next waited =>
      intro _ small _ last chunk taken
      dsimp only at small taken
      rw [to_uint32_nat _ (by omega)] at counted
      subst counted
      have resumed := parse_chunk_resumes st next buf [] (by rw [List.append_nil]; exact small) waited
      rw [List.append_nil, taken, waited] at resumed
      cases resumed
  | case3 st total buf more next chunk taken later ih =>
      refine ih ?_
      have inside := (parse_chunk_bounds st next total buf chunk taken).2
      rw [counted, List.length_drop, toUint32, toUint32, toUint32]
      omega
  | case4 st total buf few =>
      intro _ small more
      dsimp only at small more
      rw [to_uint32_nat _ (by omega)] at counted
      omega

theorem receive_settled (pieces : List Bytes) (outcome : ParseOutcome) (settled : Settled outcome) :
    Settled (receive outcome pieces) := by
  induction pieces generalizing outcome with
  | nil => exact settled
  | cons piece pieces ih =>
      refine ih (arrive outcome piece) ?_
      rw [arrive]
      split
      · exact settled
      · exact parse_loop_settled outcome.state _ _ rfl

theorem settled_takes_bare (st next : RtmpIn) (buf : Bytes) (chunk : Chunk) (small : buf.length < 2147483648)
    (settled : 1 < buf.length → ∀ next chunk, parseChunk st buf.length buf ≠ .take next chunk)
    (takes : TakesFront st buf next chunk) : chunk.header.fmt = .fmt3 ∧ chunk.parsed = buf.length := by
  have inside := takes_front_inside st next buf chunk takes
  obtain ⟨total, more, high, taken⟩ := takes
  obtain ⟨read, _, _, _, _, consumed⟩ := parse_chunk_front st next total buf chunk (by omega) high taken
  have size := chunk_header_size total buf chunk.header (by omega) high read
  have behind : chunk.header.parsed ≤ chunk.parsed := by
    rw [consumed, frontLength, bodyStart]
    omega
  by_contra bare
  have refused : ¬ (1 < buf.length ∧ SizeFits buf.length chunk.header) := by
    rintro ⟨enough, fits⟩
    exact settled enough next chunk (parse_chunk_elsewhere st next total buf.length buf buf chunk (by omega) high taken
      rfl inside.2 fits (by omega))
  apply refused
  by_cases third : chunk.header.fmt = .fmt3
  · have longer : chunk.parsed ≠ buf.length := fun same => bare ⟨third, same⟩
    exact ⟨by omega, by omega, fun _ => by omega, fun other => absurd third other⟩
  · have fields : 3 ≤ messageHeaderSize chunk.header.fmt := by
      cases fmt : chunk.header.fmt with
      | fmt3 => exact absurd fmt third
      | _ => decide
    exact ⟨by omega, by omega, fun fmt => absurd fmt third, fun _ => by omega⟩

theorem live_iff_completable (st : RtmpIn) (buf : Bytes) (unfilled : Unfilled st) (small : buf.length < 2147483648)
    (settled : 1 < buf.length → ∀ next chunk, parseChunk st buf.length buf ≠ .take next chunk) :
    Live st buf ↔ Completable st buf := by
  constructor
  · rintro ⟨chunks, last, rest, drains, result⟩
    cases drains with
    | done =>
        refine result.resolve_left ?_
        rintro ⟨chunk, impossible, _⟩
        cases impossible
    | take _ next _ _ _ chunk chunks taken later =>
        obtain ⟨third, whole⟩ := settled_takes_bare st next buf chunk small settled taken
        have positive : 0 < st.inChunkSize := by
          by_contra closed
          obtain ⟨silent, final⟩ := closed_drains st last buf rest (chunk :: chunks) unfilled (by omega)
            (.take st next last buf rest chunk chunks taken later)
          rcases result with delivers | ⟨opened, _⟩
          · exact silent delivers
          · omega
        obtain ⟨total, enough, high, parsed⟩ := taken
        obtain ⟨read, _, _, _, _, consumed⟩ := parse_chunk_front st next total buf chunk (by omega) high parsed
        refine ⟨positive, [], total, chunk.header, enough, high, ?_, by omega, fun other => absurd third other⟩
        rw [List.append_nil]
        exact read
  · intro completable
    exact ⟨[], st, buf, .done _ _, .inr completable⟩

-- From any state that any bytes lead to, something can still be delivered exactly
-- as long as the chunk size is above 0 and the size check can be met. (Only
-- behind 2^31 unread bytes can whole chunks lie in wait.)
theorem receiver_live_iff (pieces : List Bytes) (alive : (receive (.idle .fresh) pieces).ending = .returned) :
    (DeliversMore (receive (.idle .fresh) pieces) ↔
        Live (receive (.idle .fresh) pieces).state (receive (.idle .fresh) pieces).buf) ∧
      ((receive (.idle .fresh) pieces).buf.length < 2147483648 →
        (Live (receive (.idle .fresh) pieces).state (receive (.idle .fresh) pieces).buf ↔
          Completable (receive (.idle .fresh) pieces).state (receive (.idle .fresh) pieces).buf)) := by
  have unfilled := receive_unfilled pieces
  have settled := receive_settled pieces (.idle .fresh) (fun _ _ more => by cases more)
  constructor
  · rw [delivers_more_iff_can _ alive]
    exact can_deliver_iff_live _ _ (receive_sound pieces) unfilled
  · intro small
    exact live_iff_completable _ _ unfilled small (settled alive small)

def enlarging : List Bytes := [[2, 0, 0, 0, 0], [0, 4, 1, 0, 0, 0, 0, 0, 0, 1, 0, 3, 0, 0], [20, 0, 1, 0, 8, 1, 0, 0, 0, 7]]

theorem receiver_live_enlarging :
    (receive (.idle .fresh) enlarging).ending = .returned ∧ (receive (.idle .fresh) enlarging).state.inChunkSize = 256 ∧
      (DeliversMore (receive (.idle .fresh) enlarging) ↔
        Live (receive (.idle .fresh) enlarging).state (receive (.idle .fresh) enlarging).buf) ∧
      ((receive (.idle .fresh) enlarging).buf.length < 2147483648 →
        (Live (receive (.idle .fresh) enlarging).state (receive (.idle .fresh) enlarging).buf ↔
          Completable (receive (.idle .fresh) enlarging).state (receive (.idle .fresh) enlarging).buf)) :=
  ⟨by decide +kernel, by decide +kernel, receiver_live_iff enlarging (by decide +kernel)⟩

def chunkSizeZero : Bytes := [2, 0, 0, 0, 0, 0, 4, 1, 0, 0, 0, 0, 0, 0, 0, 0]

theorem chunk_size_zero_wedges :
    ¬ ∀ pieces, (receive (.idle .fresh) pieces).ending = .returned → DeliversMore (receive (.idle .fresh) pieces) := by
  intro claimed
  have alive : (receive (.idle .fresh) [chunkSizeZero]).ending = .returned := by decide +kernel
  have closed : (receive (.idle .fresh) [chunkSizeZero]).state.inChunkSize = 0 := by decide +kernel
  obtain ⟨more, chunks, next, rest, drains, delivers⟩ :=
    (delivers_more_iff_can _ alive).mp (claimed [chunkSizeZero] alive)
  exact (closed_drains _ next _ rest chunks (receive_unfilled [chunkSizeZero]) (by omega) drains).1 delivers

end Lssvc.Mmedia
