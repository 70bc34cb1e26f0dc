import Lssvc.Mmedia.ParserFragments

set_option autoImplicit false

namespace Lssvc.Mmedia

open Lssvc.Foundation

def TakesFront (st : RtmpIn) (buf : Bytes) (next : RtmpIn) (chunk : Chunk) : Prop :=
  ∃ total, 1 < total ∧ total < 4294967296 ∧ parseChunk st total buf = .take next chunk

inductive Drains : RtmpIn → Bytes → List Chunk → RtmpIn → Bytes → Prop where
  | done (st : RtmpIn) (buf : Bytes) : Drains st buf [] st buf
  | take (st next last : RtmpIn) (buf rest : Bytes) (chunk : Chunk) (chunks : List Chunk)
      (taken : TakesFront st buf next chunk) (later : Drains next (buf.drop chunk.parsed) chunks last rest) :
      Drains st buf (chunk :: chunks) last rest

def Chunk.Delivers (chunk : Chunk) : Prop := ∃ message, chunk.delivered = some message ∧ message.body ≠ []

def CanDeliver (st : RtmpIn) (buf : Bytes) : Prop :=
  ∃ more chunks next rest, Drains st (buf ++ more) chunks next rest ∧ ∃ chunk ∈ chunks, chunk.Delivers

theorem takes_front_inside (st next : RtmpIn) (buf : Bytes) (chunk : Chunk) (takes : TakesFront st buf next chunk) :
    0 < chunk.parsed ∧ chunk.parsed ≤ buf.length := by
  obtain ⟨total, _, _, taken⟩ := takes
  exact parse_chunk_bounds st next total buf chunk taken

theorem takes_front_elsewhere (st next : RtmpIn) (buf other : Bytes) (chunk : Chunk)
    (takes : TakesFront st buf next chunk) (same : other.take chunk.parsed = buf.take chunk.parsed) :
    TakesFront st other next chunk := by
  obtain ⟨total, more, high, taken⟩ := takes
  obtain ⟨_, fits, _, within, _, consumed⟩ := parse_chunk_front st next total buf chunk (by omega) high taken
  exact ⟨total, more, high, parse_chunk_elsewhere st next total total buf other chunk (by omega) high taken same (by omega)
    fits high⟩

theorem takes_front_append (st next : RtmpIn) (buf more : Bytes) (chunk : Chunk)
    (takes : TakesFront st buf next chunk) : TakesFront st (buf ++ more) next chunk :=
  takes_front_elsewhere st next buf (buf ++ more) chunk takes
    (List.take_append_of_le_length (takes_front_inside st next buf chunk takes).2)

theorem takes_front_alone (st next : RtmpIn) (buf : Bytes) (chunk : Chunk) (takes : TakesFront st buf next chunk) :
    ∃ total, 1 < total ∧ total < 4294967296 ∧ chunk.parsed ≤ total ∧ total ≤ chunk.parsed + 1 ∧
      parseChunk st total buf = .take next chunk := by
  obtain ⟨total, more, high, taken⟩ := takes
  obtain ⟨read, ⟨_, _, few⟩, _, within, _, consumed⟩ := parse_chunk_front st next total buf chunk (by omega) high taken
  have behind : chunk.header.parsed ≤ chunk.parsed := by
    rw [consumed, frontLength, bodyStart]
    omega
  obtain ⟨least, enough, leastHigh, counted, alone, fits⟩ := fitting_total chunk.header chunk.parsed
    (chunk_header_size total buf chunk.header (by omega) high read) behind (by omega) (fun other => by
      have bounded := few other
      omega)
  exact ⟨least, enough, leastHigh, counted, alone,
    parse_chunk_elsewhere st next total least buf buf chunk (by omega) high taken rfl counted fits leastHigh⟩

theorem drains_append (st next : RtmpIn) (buf rest more : Bytes) (chunks : List Chunk)
    (drains : Drains st buf chunks next rest) : Drains st (buf ++ more) chunks next (rest ++ more) := by
  induction drains with
  | done => exact .done _ _
  | take st next last buf rest chunk chunks taken _ ih =>
      refine .take st next last (buf ++ more) (rest ++ more) chunk chunks (takes_front_append st next buf more chunk taken) ?_
      rw [List.drop_append_of_le_length (takes_front_inside st next buf chunk taken).2]
      exact ih

theorem drains_trans (st middle last : RtmpIn) (buf rest final : Bytes) (chunks others : List Chunk)
    (first : Drains st buf chunks middle rest) (second : Drains middle rest others last final) :
    Drains st buf (chunks ++ others) last final := by
  induction first with
  | done => exact second
  | take st next _ buf _ chunk chunks taken _ ih => exact .take st next last buf final chunk _ taken (ih second)

theorem read_extended_again (inChunkSize : Int) (total second : Nat) (buf more : Bytes) (h : ChunkHeader)
    (s : InStream) (next : OpenStream) (parsed : Nat) (result : OpenStream × Nat)
    (read : readExtended total buf h (startChunk inChunkSize h s) = .ok (next, parsed))
    (again : readExtended second (buf ++ more) h (startChunk inChunkSize h next.close) = .ok result) :
    readExtended second (buf ++ more) h (startChunk inChunkSize h s) = .ok result := by
  rw [readExtended] at read
  cases extended : (startChunk inChunkSize h s).ext with
  | false =>
      rw [extended] at read
      cases read
      rw [start_chunk_resumes] at again
      exact again
  | true =>
      rw [if_pos extended] at read
      split at read
      · cases read
      · split at read
        · cases read
        · rename_i field fieldRead
          cases read
          rw [readExtended, start_chunk_ext_resumes inChunkSize h s _ (apply_extended_ext _ _ _), extended] at again
          rw [readExtended, extended]
          rw [read_at_extends buf more _ _ field fieldRead] at again ⊢
          simp only [if_true, extended_resumes] at again ⊢
          exact again

theorem wait_takes_front (st next last : RtmpIn) (total : Nat) (buf more : Bytes) (chunk : Chunk)
    (enough : 1 < total) (high : total < 4294967296) (waited : parseChunk st total buf = .wait next)
    (takes : TakesFront next (buf ++ more) last chunk) : TakesFront st (buf ++ more) last chunk := by
  obtain ⟨second, secondEnough, secondHigh, taken⟩ := takes
  rcases parse_chunk_wait st next total buf waited with rfl | ⟨h, headerRead, stopped⟩
  · exact ⟨second, secondEnough, secondHigh, taken⟩
  · obtain ⟨h', s', parsed', headerAgain, extendedAgain, copied⟩ := parse_chunk_taken next last second _ chunk taken
    cases chunk_header_unique total second buf more h h' (by omega) high (by omega) secondHigh headerRead headerAgain
    have extended : readExtended second (buf ++ more) h (startChunk st.inChunkSize h (st.streams h.csid)) =
        .ok (s', parsed') := by
      rcases stopped with rfl | ⟨s, parsed, extendedRead, rfl⟩
      · rw [put_same, put_chunk_size, start_chunk_resumes] at extendedAgain
        exact extendedAgain
      · rw [put_same, put_chunk_size] at extendedAgain
        exact read_extended_again st.inChunkSize total second buf more h _ s parsed _ extendedRead extendedAgain
    refine ⟨second, secondEnough, secondHigh, ?_⟩
    rw [parseChunk, headerAgain]
    dsimp only
    rw [extended]
    dsimp only
    rcases stopped with rfl | ⟨s, parsed, _, rfl⟩
    · rw [copy_body_put] at copied
      exact copied
    · rw [copy_body_put] at copied
      exact copied

theorem wait_can_deliver (st next : RtmpIn) (total : Nat) (buf : Bytes) (enough : 1 < total)
    (high : total < 4294967296) (waited : parseChunk st total buf = .wait next) (can : CanDeliver next buf) :
    CanDeliver st buf := by
  obtain ⟨more, chunks, last, rest, drains, chunk, inList, delivers⟩ := can
  cases drains with
  | done => exact absurd inList List.not_mem_nil
  | take _ middle _ _ _ first chunks taken later =>
      exact ⟨more, first :: chunks, last, rest,
        .take st middle last _ rest first chunks (wait_takes_front st next middle total buf more first enough high waited
          taken) later, chunk, inList, delivers⟩

theorem append_can_deliver (st : RtmpIn) (buf more : Bytes) (can : CanDeliver st (buf ++ more)) : CanDeliver st buf := by
  obtain ⟨later, chunks, next, rest, drains, delivers⟩ := can
  rw [List.append_assoc] at drains
  exact ⟨more ++ later, chunks, next, rest, drains, delivers⟩

theorem take_can_deliver (st next : RtmpIn) (buf : Bytes) (chunk : Chunk) (takes : TakesFront st buf next chunk)
    (can : chunk.Delivers ∨ CanDeliver next (buf.drop chunk.parsed)) : CanDeliver st buf := by
  have inside := (takes_front_inside st next buf chunk takes).2
  rcases can with delivers | ⟨more, chunks, last, rest, drains, other, inList, delivers⟩
  · refine ⟨[], [chunk], next, buf.drop chunk.parsed, ?_, chunk, List.mem_singleton_self _, delivers⟩
    rw [List.append_nil]
    exact .take st next next buf _ chunk [] takes (.done _ _)
  · refine ⟨more, chunk :: chunks, last, rest, ?_, other, List.mem_cons_of_mem _ inList, delivers⟩
    refine .take st next last _ rest chunk chunks (takes_front_append st next buf more chunk takes) ?_
    rw [List.drop_append_of_le_length inside]
    exact drains

theorem parse_loop_silent (st : RtmpIn) (total : Nat) (buf : Bytes) (high : total < 4294967296)
    (silent : ¬ CanDeliver st buf) :
    (∀ message ∈ (parseLoop st total buf).messages, message.body = []) ∧
      ((parseLoop st total buf).ending = .returned →
        ¬ CanDeliver (parseLoop st total buf).state (parseLoop st total buf).buf) := by
  have none (message : Packet) (impossible : message ∈ ([] : List Packet)) : message.body = [] :=
    absurd impossible List.not_mem_nil
  fun_induction parseLoop st total buf with
  | case1 => exact ⟨none, fun impossible => by cases impossible⟩
  | case2 st total buf more next waited =>
      exact ⟨none, fun _ can => silent (wait_can_deliver st next total buf more high waited can)⟩
  | case3 st total buf more next chunk taken later ih =>
      have takes : TakesFront st buf next chunk := ⟨total, more, high, taken⟩
      obtain ⟨nothing, after⟩ := ih (by rw [toUint32]; omega)
        (fun can => silent (take_can_deliver st next buf chunk takes (.inr can)))
      refine ⟨?_, after⟩
      intro message inList
      obtain ⟨pass, inPasses, delivered⟩ := List.mem_filterMap.mp inList
      rcases List.mem_cons.mp inPasses with rfl | earlier
      · by_contra nonempty
        exact silent (take_can_deliver st next buf chunk takes (.inl ⟨message, delivered, nonempty⟩))
      · exact nothing message (List.mem_filterMap.mpr ⟨pass, earlier, delivered⟩)
  | case4 => exact ⟨none, fun _ => silent⟩

theorem arrive_silent (outcome : ParseOutcome) (piece : Bytes)
    (silent : outcome.ending = .returned → ¬ CanDeliver outcome.state outcome.buf) :
    (∃ more, (arrive outcome piece).messages = outcome.messages ++ more ∧ ∀ message ∈ more, message.body = []) ∧
      ((arrive outcome piece).ending = .returned → ¬ CanDeliver (arrive outcome piece).state (arrive outcome piece).buf) := by
  rw [arrive]
  split
  · rename_i faulted
    refine ⟨⟨[], (List.append_nil _).symm, fun message impossible => absurd impossible List.not_mem_nil⟩, ?_⟩
    intro returned
    rw [faulted] at returned
    cases returned
  · rename_i returned
    obtain ⟨nothing, after⟩ := parse_loop_silent outcome.state (toUint32 (outcome.buf ++ piece).length)
      (outcome.buf ++ piece) (by rw [toUint32]; omega)
      (fun can => silent returned (append_can_deliver outcome.state outcome.buf piece can))
    refine ⟨⟨_, List.filterMap_append, nothing⟩, after⟩

theorem receive_silent (pieces : List Bytes) (outcome : ParseOutcome)
    (silent : outcome.ending = .returned → ¬ CanDeliver outcome.state outcome.buf) :
    ∃ more, (receive outcome pieces).messages = outcome.messages ++ more ∧ ∀ message ∈ more, message.body = [] := by
  induction pieces generalizing outcome with
  | nil => exact ⟨[], (List.append_nil _).symm, fun message impossible => absurd impossible List.not_mem_nil⟩
  | cons piece pieces ih =>
      obtain ⟨⟨now, same, nothing⟩, after⟩ := arrive_silent outcome piece silent
      obtain ⟨later, rest, nothingLater⟩ := ih (arrive outcome piece) after
      refine ⟨now ++ later, ?_, List.forall_mem_append.mpr ⟨nothing, nothingLater⟩⟩
      rw [← List.append_assoc, ← same]
      exact rest

theorem parse_loop_alone (st next : RtmpIn) (total : Nat) (buf : Bytes) (chunk : Chunk) (more : 1 < total)
    (high : total < 4294967296) (within : chunk.parsed ≤ total) (alone : total ≤ chunk.parsed + 1)
    (taken : parseChunk st total buf = .take next chunk) :
    parseLoop st total buf = ⟨.returned, next, buf.drop chunk.parsed, [⟨st, total, buf, chunk⟩]⟩ := by
  have ended : parseLoop next (toUint32 ((total : Int) - chunk.parsed)) (buf.drop chunk.parsed) =
      ⟨.returned, next, buf.drop chunk.parsed, []⟩ := by
    refine parse_loop_ends _ _ _ ?_
    rw [to_uint32_sub _ _ within high]
    omega
  rw [parse_loop_take st next total buf chunk more taken, ended]

-- total_bytes is the readable length modulo 2^32: with enough bytes behind a
-- chunk, a call counts just the chunk.
theorem arrive_alone (outcome : ParseOutcome) (next : RtmpIn) (stream more tail : Bytes) (chunk : Chunk)
    (alive : outcome.ending = .returned) (takes : TakesFront outcome.state stream next chunk)
    (cut : outcome.buf ++ more = stream ++ tail) :
    ∃ piece pass behind, arrive outcome piece =
      ⟨.returned, next, stream.drop chunk.parsed ++ behind, outcome.passes ++ [pass]⟩ ∧ pass.chunk = chunk := by
  obtain ⟨total, enough, high, within, alone, taken⟩ := takes_front_alone outcome.state next stream chunk takes
  obtain ⟨filler, length⟩ : ∃ filler, (stream ++ tail).length + filler = total + (stream ++ tail).length * 4294967296 :=
    ⟨total + (stream ++ tail).length * 4294967295, by omega⟩
  have inside := (takes_front_inside outcome.state next stream chunk takes).2
  have whole : outcome.buf ++ (more ++ List.replicate filler 0) = stream ++ (tail ++ List.replicate filler 0) := by
    rw [← List.append_assoc, cut, List.append_assoc]
  have counted : toUint32 ((outcome.buf ++ (more ++ List.replicate filler (0 : UInt8))).length : Nat) = total := by
    rw [whole, ← List.append_assoc, List.length_append, List.length_replicate, length, toUint32]
    omega
  obtain ⟨_, fits, _⟩ := parse_chunk_front outcome.state next total stream chunk (by omega) high taken
  have again := parse_chunk_elsewhere outcome.state next total total stream (stream ++ (tail ++ List.replicate filler 0))
    chunk (by omega) high taken (List.take_append_of_le_length inside) within fits high
  refine ⟨more ++ List.replicate filler 0, ⟨outcome.state, total, stream ++ (tail ++ List.replicate filler 0), chunk⟩,
    tail ++ List.replicate filler 0, ?_, rfl⟩
  rw [arrive, alive]
  dsimp only
  rw [parseMessage, counted, whole, parse_loop_alone outcome.state next total _ chunk enough high within alone again,
    List.drop_append_of_le_length inside]

theorem drains_received (st last : RtmpIn) (stream rest : Bytes) (chunks : List Chunk)
    (drains : Drains st stream chunks last rest) (outcome : ParseOutcome) (more tail : Bytes)
    (alive : outcome.ending = .returned) (same : outcome.state = st) (cut : outcome.buf ++ more = stream ++ tail) :
    ∃ pieces, (receive outcome pieces).messages = outcome.messages ++ chunks.filterMap Chunk.delivered := by
  induction drains generalizing outcome more tail with
  | done => exact ⟨[], (List.append_nil _).symm⟩
  | take st next last buf rest chunk chunks taken _ ih =>
      subst same
      obtain ⟨piece, pass, behind, arrived, taken'⟩ := arrive_alone outcome next buf more tail chunk alive taken cut
      obtain ⟨pieces, received⟩ := ih (arrive outcome piece) [] behind (by rw [arrived]) (by rw [arrived])
        (by rw [arrived, List.append_nil])
      refine ⟨piece :: pieces, received.trans ?_⟩
      have first : (arrive outcome piece).messages = outcome.messages ++ [chunk].filterMap Chunk.delivered := by
        rw [arrived, messages_scan, messages_scan, ParseOutcome.scan, ParseOutcome.scan, ← List.filterMap_append,
          List.map_append, List.map_singleton, taken']
      rw [first, List.append_assoc, ← List.filterMap_append]
      rfl

def DeliversMore (outcome : ParseOutcome) : Prop :=
  ∃ pieces more, (receive outcome pieces).messages = outcome.messages ++ more ∧ ∃ message ∈ more, message.body ≠ []

theorem delivers_more_iff_can (outcome : ParseOutcome) (alive : outcome.ending = .returned) :
    DeliversMore outcome ↔ CanDeliver outcome.state outcome.buf := by
  constructor
  · rintro ⟨pieces, more, received, message, inMore, nonempty⟩
    by_contra silent
    obtain ⟨other, same, nothing⟩ := receive_silent pieces outcome (fun _ => silent)
    cases List.append_cancel_left (received.symm.trans same)
    exact nonempty (nothing message inMore)
  · rintro ⟨more, chunks, next, rest, drains, chunk, inList, message, delivered, nonempty⟩
    obtain ⟨pieces, received⟩ := drains_received outcome.state next (outcome.buf ++ more) rest chunks drains outcome more
      [] alive rfl (List.append_nil _).symm
    exact ⟨pieces, _, received, message, List.mem_filterMap.mpr ⟨chunk, inList, delivered⟩, nonempty⟩

end Lssvc.Mmedia
