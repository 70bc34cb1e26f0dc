import Lssvc.Foundation.Scanner
import Lssvc.Mmedia.FrontChunk

set_option autoImplicit false

namespace Lssvc.Mmedia

open Lssvc.Foundation

-- One iteration of the loop as a scanner step: total_bytes is the readable
-- length, which the loop keeps it equal to below 2^31 bytes.
def chunkStep (st : RtmpIn) (buf : Bytes) : ScanStep RtmpIn Chunk :=
  if 1 < buf.length then
    match parseChunk st buf.length buf with
    | .fault => .fail
    | .wait next => .wait next
    | .take next chunk => .take next chunk.parsed chunk
  else .wait st

theorem chunk_step_taken (st next : RtmpIn) (buf : Bytes) (used : Nat) (chunk : Chunk)
    (taken : chunkStep st buf = .take next used chunk) :
    1 < buf.length ∧ parseChunk st buf.length buf = .take next chunk ∧ used = chunk.parsed := by
  rw [chunkStep] at taken
  split at taken
  · rename_i more
    split at taken
    · cases taken
    · cases taken
    · rename_i parsed
      cases taken
      exact ⟨more, parsed, rfl⟩
  · cases taken

theorem chunk_step_waits (st next : RtmpIn) (buf : Bytes) (waited : chunkStep st buf = .wait next) :
    next = st ∨ (1 < buf.length ∧ parseChunk st buf.length buf = .wait next) := by
  rw [chunkStep] at waited
  split at waited
  · rename_i more
    split at waited
    · cases waited
    · rename_i parsed
      cases waited
      exact .inr ⟨more, parsed⟩
    · cases waited
  · cases waited
    exact .inl rfl

theorem chunk_step_of_take (st next : RtmpIn) (buf : Bytes) (chunk : Chunk) (more : 1 < buf.length)
    (taken : parseChunk st buf.length buf = .take next chunk) : chunkStep st buf = .take next chunk.parsed chunk := by
  simp [chunkStep, more, taken]

def chunkScanner : Scanner RtmpIn UInt8 Chunk where
  step := chunkStep
  bounds := fun st buf next used chunk taken => by
    obtain ⟨_, parsed, rfl⟩ := chunk_step_taken st next buf used chunk taken
    exact parse_chunk_bounds st next buf.length buf chunk parsed

theorem basic_header_extends (buf more : Bytes) (basic : BasicHeader)
    (read : readBasicHeader buf.length buf = .ok basic) :
    readBasicHeader (buf ++ more).length (buf ++ more) = .ok basic := by
  have inside := basic_header_inside buf.length buf basic read
  exact basic_header_front buf.length _ buf (buf ++ more) basic.parsed basic (List.take_append_of_le_length inside)
    (Nat.le_refl _) (by rw [List.length_append]; omega) read

theorem size_fits_extends (buf more : Bytes) (h : ChunkHeader) (some' : 0 < buf.length)
    (small : (buf ++ more).length < 2147483648) (read : readChunkHeader buf.length buf = .ok h) :
    SizeFits (buf ++ more).length h := by
  rw [List.length_append] at small ⊢
  obtain ⟨_, _, _, _, _, within, behind, _⟩ := chunk_header_parts buf.length buf h some' (by omega) read
  have size := chunk_header_size buf.length buf h some' (by omega) read
  exact ⟨by omega, fun third => Nat.lt_add_right _ (behind third), fun _ => by omega⟩

theorem chunk_header_extends (buf more : Bytes) (h : ChunkHeader) (small : (buf ++ more).length < 2147483648)
    (read : readChunkHeader buf.length buf = .ok h) :
    readChunkHeader (buf ++ more).length (buf ++ more) = .ok h := by
  have inside := chunk_header_parsed buf.length buf h read
  have fits := size_fits_extends buf more h (by omega) small read
  rw [List.length_append] at small
  exact chunk_header_front buf.length _ buf (buf ++ more) h.parsed h (by omega) (by omega)
    (List.take_append_of_le_length inside.2) (Nat.le_refl _) fits (by rw [List.length_append]; omega) read

theorem extended_extends (buf more : Bytes) (h : ChunkHeader) (s next : OpenStream) (parsed : Nat)
    (fits : h.parsed ≤ buf.length) (small : (buf ++ more).length < 2147483648)
    (read : readExtended buf.length buf h s = .ok (next, parsed)) :
    readExtended (buf ++ more).length (buf ++ more) h s = .ok (next, parsed) := by
  rw [List.length_append] at small
  rw [readExtended] at read ⊢
  rw [List.length_append, to_uint32_sub _ _ (by omega) (by omega)]
  rw [to_uint32_sub _ _ fits (by omega)] at read
  split
  · rename_i extended
    rw [if_pos extended] at read
    split at read
    · cases read
    · rw [if_neg (by omega)]
      split at read
      · cases read
      · rename_i field fieldRead
        rw [read_at_extends buf more _ _ field fieldRead]
        exact read
  · rename_i plain
    rw [if_neg plain] at read
    exact read

theorem parse_chunk_extends (st next : RtmpIn) (buf more : Bytes) (chunk : Chunk)
    (small : (buf ++ more).length < 2147483648) (taken : parseChunk st buf.length buf = .take next chunk) :
    parseChunk st (buf ++ more).length (buf ++ more) = .take next chunk := by
  have inside := (parse_chunk_bounds st next buf.length buf chunk taken).2
  have some' := (parse_chunk_bounds st next buf.length buf chunk taken).1
  have length : (buf ++ more).length = buf.length + more.length := List.length_append
  have read := (parse_chunk_front st next buf.length buf chunk (by omega) (by omega) taken).1
  exact parse_chunk_elsewhere st next buf.length _ buf (buf ++ more) chunk (by omega) (by omega) taken
    (List.take_append_of_le_length inside) (by omega)
    (size_fits_extends buf more chunk.header (by omega) small read) (by omega)

-- An interrupted chunk has already rewritten its entries. Parsing it again from
-- its first byte rewrites them to the same values: fmt0..2 set them from the
-- wire and from prev, which only a consumed chunk changes, and fmt3 keeps a
-- timestamp that is set.
theorem start_chunk_resumes (inChunkSize : Int) (h : ChunkHeader) (s : InStream) :
    startChunk inChunkSize h (startChunk inChunkSize h s).close = startChunk inChunkSize h s := by
  unfold startChunk OpenStream.close updateHeader updateDelta
  cases fmt : h.fmt with
  | fmt3 =>
      by_cases unset : (s.packet.getD (createPacket h.csid (firstLength inChunkSize h (s.prev.getD {})))).header.timestamp = 0
      · simp [unset]
      · simp [unset]
  | _ => simp

theorem extended_resumes (inChunkSize : Int) (h : ChunkHeader) (s : InStream) (ts : UInt32) :
    applyExtended h.fmt ts (startChunk inChunkSize h (applyExtended h.fmt ts (startChunk inChunkSize h s)).close) =
      applyExtended h.fmt ts (startChunk inChunkSize h s) := by
  unfold applyExtended
  split
  · exact start_chunk_resumes inChunkSize h s
  · unfold startChunk OpenStream.close updateHeader updateDelta
    cases fmt : h.fmt <;> simp

theorem apply_extended_ext (fmt : RtmpFmt) (ts : UInt32) (s : OpenStream) : (applyExtended fmt ts s).ext = s.ext := by
  rw [applyExtended]
  split <;> rfl

theorem start_chunk_ext_resumes (inChunkSize : Int) (h : ChunkHeader) (s : InStream) (open' : OpenStream)
    (same : open'.ext = (startChunk inChunkSize h s).ext) :
    (startChunk inChunkSize h open'.close).ext = (startChunk inChunkSize h s).ext := by
  simp only [startChunk, OpenStream.close] at same ⊢
  rw [same]
  split <;> rfl

theorem put_put (st : RtmpIn) (csid : Nat) (left right : InStream) :
    (st.put csid left).put csid right = st.put csid right := by
  simp [RtmpIn.put]

theorem put_same (st : RtmpIn) (csid : Nat) (stream : InStream) : (st.put csid stream).streams csid = stream := by
  simp [RtmpIn.put]

theorem put_chunk_size (st : RtmpIn) (csid : Nat) (stream : InStream) :
    (st.put csid stream).inChunkSize = st.inChunkSize := rfl

theorem copy_body_put (st : RtmpIn) (total : Nat) (buf : Bytes) (h : ChunkHeader) (s : OpenStream) (parsed : Nat)
    (stream : InStream) : copyBody (st.put h.csid stream) total buf h s parsed = copyBody st total buf h s parsed := by
  unfold copyBody finishChunk
  simp only [put_put, put_chunk_size]

theorem parse_chunk_wait (st next : RtmpIn) (total : Nat) (buf : Bytes) (waited : parseChunk st total buf = .wait next) :
    next = st ∨ ∃ h, readChunkHeader total buf = .ok h ∧
      ((next = st.put h.csid (startChunk st.inChunkSize h (st.streams h.csid)).close) ∨
        ∃ s parsed, readExtended total buf h (startChunk st.inChunkSize h (st.streams h.csid)) = .ok (s, parsed) ∧
          next = st.put h.csid s.close) := by
  rw [parseChunk] at waited
  split at waited
  · cases waited
  · cases waited
    exact .inl rfl
  · rename_i h headerRead
    dsimp only at waited
    split at waited
    · cases waited
    · cases waited
      exact .inr ⟨h, headerRead, .inl rfl⟩
    · rename_i s parsed extendedRead
      rw [copyBody, finishChunk] at waited
      dsimp only at waited
      repeat' split at waited
      all_goals cases waited
      exact .inr ⟨h, headerRead, .inr ⟨s, parsed, extendedRead, rfl⟩⟩

theorem read_extended_resumes (inChunkSize : Int) (total : Nat) (buf : Bytes) (h : ChunkHeader) (s : InStream)
    (next : OpenStream) (parsed : Nat)
    (read : readExtended total buf h (startChunk inChunkSize h s) = .ok (next, parsed)) :
    readExtended total buf h (startChunk inChunkSize h next.close) = .ok (next, parsed) := by
  rw [readExtended] at read ⊢
  cases extended : (startChunk inChunkSize h s).ext with
  | false =>
      simp only [extended] at read
      cases read
      rw [start_chunk_resumes, extended]
      rfl
  | true =>
      simp only [extended, if_true] at read
      split at read
      · cases read
      · rename_i enough
        split at read
        · cases read
        · rename_i field fieldRead
          cases read
          rw [start_chunk_ext_resumes inChunkSize h s _ (apply_extended_ext _ _ _), extended]
          simp only [if_true, if_neg enough, extended_resumes]

theorem parse_chunk_resumes (st next : RtmpIn) (buf more : Bytes) (small : (buf ++ more).length < 2147483648)
    (waited : parseChunk st buf.length buf = .wait next) :
    parseChunk next (buf ++ more).length (buf ++ more) = parseChunk st (buf ++ more).length (buf ++ more) := by
  rcases parse_chunk_wait st next buf.length buf waited with rfl | ⟨h, headerRead, stopped⟩
  · rfl
  · have header := chunk_header_extends buf more h small headerRead
    rcases stopped with rfl | ⟨s, parsed, extendedRead, rfl⟩
    · unfold parseChunk
      rw [header]
      simp only [put_same, put_chunk_size, start_chunk_resumes, put_put, copy_body_put]
    · have fits := (chunk_header_parsed buf.length buf h headerRead).2
      have extended := extended_extends buf more h _ s parsed fits small extendedRead
      unfold parseChunk
      rw [header]
      simp only [put_same, put_chunk_size, copy_body_put]
      rw [extended, read_extended_resumes _ _ _ h _ s parsed extended]

theorem chunk_scanner_resumable : Resumable chunkScanner 2147483648 Sound where
  emptyWaits := fun st => rfl
  sound := fun st buf sound small failed => by
    unfold chunkScanner chunkStep at failed
    dsimp only at failed
    split at failed
    · rename_i more
      split at failed
      · rename_i fault
        exact parse_chunk_in_range st buf sound (by omega) small fault
      · cases failed
      · cases failed
    · cases failed
  waitValid := fun st buf next sound waited => by
    rcases chunk_step_waits st next buf waited with rfl | ⟨_, parsed⟩
    · exact sound
    · exact parse_chunk_wait_sound st next buf.length buf sound parsed
  takeValid := fun st buf next used chunk sound taken =>
    parse_chunk_take_sound st next buf.length buf chunk sound (chunk_step_taken st next buf used chunk taken).2.1
  takeExtends := fun st buf more next used chunk _ small taken => by
    obtain ⟨enough, parsed, rfl⟩ := chunk_step_taken st next buf used chunk taken
    refine chunk_step_of_take st next (buf ++ more) chunk (by rw [List.length_append]; omega) ?_
    exact parse_chunk_extends st next buf more chunk small parsed
  waitResumes := fun st buf more next _ small waited => by
    rcases chunk_step_waits st next buf waited with rfl | ⟨enough, parsed⟩
    · rfl
    · have longer : 1 < (buf ++ more).length := by rw [List.length_append]; omega
      simp only [chunkScanner, chunkStep, if_pos longer, parse_chunk_resumes st next buf more small parsed]

theorem parse_loop_drain (st : RtmpIn) (buf : Bytes) (sound : Sound st) (small : buf.length < 2147483648) :
    (parseLoop st buf.length buf).ending = .returned ∧
      chunkScanner.drain st buf = some ⟨(parseLoop st buf.length buf).state, (parseLoop st buf.length buf).buf,
        (parseLoop st buf.length buf).passes.map LoopPass.chunk⟩ := by
  induction size : buf.length using Nat.strongRecOn generalizing st buf with
  | ind n ih =>
      subst size
      by_cases more : 1 < buf.length
      · cases parsed : parseChunk st buf.length buf with
        | fault => exact absurd parsed (parse_chunk_in_range st buf sound (by omega) small)
        | wait next =>
            have step : chunkScanner.step st buf = .wait next := by simp [chunkScanner, chunkStep, more, parsed]
            rw [parse_loop_wait st next buf.length buf more parsed]
            exact ⟨rfl, drain_wait chunkScanner st next buf step⟩
        | take next chunk =>
            have step : chunkScanner.step st buf = .take next chunk.parsed chunk :=
              chunk_step_of_take st next buf chunk more parsed
            obtain ⟨progress, within⟩ := parse_chunk_bounds st next buf.length buf chunk parsed
            have shorter : (buf.drop chunk.parsed).length < buf.length := by rw [List.length_drop]; omega
            obtain ⟨returned, drained⟩ := ih _ shorter next (buf.drop chunk.parsed)
              (parse_chunk_take_sound st next _ buf chunk sound parsed) (by omega) rfl
            rw [parse_loop_take st next buf.length buf chunk more parsed,
              (pass_bounded st next buf chunk small parsed).totalAfter]
            refine ⟨returned, ?_⟩
            rw [drain_take chunkScanner st next buf _ chunk step, drained]
            rfl
      · have step : chunkScanner.step st buf = .wait st := by simp [chunkScanner, chunkStep, more]
        rw [parse_loop_ends st buf.length buf (Nat.not_lt.mp more)]
        exact ⟨rfl, drain_wait chunkScanner st st buf step⟩

def ParseOutcome.scan (outcome : ParseOutcome) : Scan RtmpIn UInt8 Chunk :=
  ⟨outcome.state, outcome.buf, outcome.passes.map LoopPass.chunk⟩

theorem arrive_scan (outcome : ParseOutcome) (piece : Bytes) (sound : Sound outcome.state)
    (alive : outcome.ending = .returned) (small : (outcome.buf ++ piece).length < 2147483648) :
    (arrive outcome piece).ending = .returned ∧ Sound (arrive outcome piece).state ∧
      (chunkScanner.drain outcome.state (outcome.buf ++ piece)).map (Scan.emit outcome.scan.outputs) =
        some (arrive outcome piece).scan := by
  obtain ⟨returned, drained⟩ := parse_loop_drain outcome.state (outcome.buf ++ piece) sound small
  rw [arrive, alive]
  dsimp only
  rw [parseMessage, to_uint32_nat _ (by omega)]
  refine ⟨returned, parse_loop_sound outcome.state _ _ sound, ?_⟩
  rw [drained]
  simp [Scan.emit, ParseOutcome.scan]

theorem receive_scan (pieces : List Bytes) (outcome : ParseOutcome) (sound : Sound outcome.state)
    (alive : outcome.ending = .returned) (small : CallsSmall outcome pieces) :
    chunkScanner.Within 2147483648 outcome.scan pieces ∧
      chunkScanner.feed outcome.scan pieces = some (receive outcome pieces).scan := by
  induction pieces generalizing outcome with
  | nil => exact ⟨trivial, rfl⟩
  | cons piece pieces ih =>
      obtain ⟨now, later⟩ := small
      obtain ⟨returned, stillSound, drained⟩ := arrive_scan outcome piece sound alive now
      obtain ⟨within, fed⟩ := ih (arrive outcome piece) stillSound returned later
      obtain ⟨result, drain, emitted⟩ := Option.map_eq_some_iff.mp drained
      refine ⟨⟨now, fun next again => ?_⟩, ?_⟩
      · rw [show next = result from Option.some.inj (again.symm.trans drain), emitted]
        exact within
      · rw [Scanner.feed]
        change (chunkScanner.drain outcome.state (outcome.buf ++ piece)).bind _ = _
        rw [drain, Option.bind_some, emitted]
        exact fed

theorem messages_scan (outcome : ParseOutcome) :
    outcome.messages = outcome.scan.outputs.filterMap Chunk.delivered := by
  simp [ParseOutcome.messages, ParseOutcome.scan, List.filterMap_map]

-- The four remembered tables are one map here, so equal states say that all of
-- them and the chunk size are equal.
theorem receive_fragmentation_independent (st : RtmpIn) (reachable : Reachable st) (pieces others : List Bytes)
    (same : pieces.flatten = others.flatten) (small : CallsSmall (.idle st) pieces)
    (otherSmall : CallsSmall (.idle st) others) :
    (receive (.idle st) pieces).messages = (receive (.idle st) others).messages ∧
      (receive (.idle st) pieces).state = (receive (.idle st) others).state ∧
      (receive (.idle st) pieces).buf = (receive (.idle st) others).buf := by
  have sound := reachable_sound st reachable
  obtain ⟨within, fed⟩ := receive_scan pieces (.idle st) sound rfl small
  obtain ⟨otherWithin, otherFed⟩ := receive_scan others (.idle st) sound rfl otherSmall
  obtain ⟨result, left, right⟩ := feed_unique chunk_scanner_resumable st sound pieces others same (by omega)
    within otherWithin
  have scans : (receive (.idle st) pieces).scan = (receive (.idle st) others).scan :=
    Option.some.inj (fed.symm.trans (left.trans (right.symm.trans otherFed)))
  rw [messages_scan, messages_scan, scans]
  exact ⟨rfl, congrArg Scan.state scans, congrArg Scan.rest scans⟩

theorem receive_fragmentation_of_chunk_size :
    (receive (.idle .fresh) [[2, 0, 0, 0, 0, 0, 4, 1], [0, 0, 0, 0, 0, 0, 16, 0]]).messages =
      (receive (.idle .fresh) [[2, 0, 0, 0, 0, 0, 4, 1, 0, 0, 0, 0, 0, 0, 16, 0]]).messages := by
  have cut : CallsSmall (.idle .fresh) [[2, 0, 0, 0, 0, 0, 4, 1], [0, 0, 0, 0, 0, 0, 16, 0]] :=
    ⟨by decide, by decide +kernel, trivial⟩
  have whole : CallsSmall (.idle .fresh) [[2, 0, 0, 0, 0, 0, 4, 1, 0, 0, 0, 0, 0, 0, 16, 0]] :=
    ⟨by decide, trivial⟩
  have same := receive_fragmentation_independent .fresh .fresh [[2, 0, 0, 0, 0, 0, 4, 1], [0, 0, 0, 0, 0, 0, 16, 0]]
    [[2, 0, 0, 0, 0, 0, 4, 1, 0, 0, 0, 0, 0, 0, 16, 0]] rfl cut whole
  exact same.1

-- From 2^31 bytes behind the basic header on, `size` is negative and every
-- format with a message header of its own returns at once.
theorem parse_message_stalls (st : RtmpIn) (buf : Bytes) (basic : BasicHeader)
    (read : readBasicHeader buf.length buf = .ok basic) (headed : basic.fmt = .fmt0)
    (large : 2147483648 + basic.parsed ≤ buf.length) (high : buf.length < 4294967296) :
    parseMessage st buf = ⟨.returned, st, buf, []⟩ := by
  have negative : toInt32 ((buf.length : Int) - basic.parsed) < 11 := by
    rw [toInt32]
    omega
  rw [parseMessage, to_uint32_nat _ high]
  refine parse_loop_wait st st buf.length buf (by omega) ?_
  rw [parseChunk, readChunkHeader, read]
  simp only [headed, true_and, negative, true_or, or_true, if_true]

theorem arrive_messages (outcome : ParseOutcome) (piece : Bytes) :
    outcome.messages <+: (arrive outcome piece).messages := by
  rw [arrive]
  split
  · exact List.prefix_refl _
  · simp [ParseOutcome.messages, List.filterMap_append]

def emptyAudio : Bytes := [3, 0, 0, 0, 0, 0, 0, 8, 0, 0, 0, 0]

theorem empty_audio_large (n : Nat) (large : 2147483648 ≤ n) (high : n < 4294967284) :
    (receive (.idle .fresh) [emptyAudio ++ List.replicate n 0]).messages = [] := by
  have length : (emptyAudio ++ List.replicate n (0 : UInt8)).length = n + 12 := by
    simp [emptyAudio]
  have basic : readBasicHeader (emptyAudio ++ List.replicate n (0 : UInt8)).length
      (emptyAudio ++ List.replicate n 0) = .ok ⟨.fmt0, 3, 1⟩ :=
    basic_header_extends emptyAudio (List.replicate n 0) ⟨.fmt0, 3, 1⟩ (by decide)
  have stalls := parse_message_stalls .fresh (emptyAudio ++ List.replicate n 0) _ basic rfl
    (by dsimp only; omega) (by omega)
  change (arrive (.idle .fresh) (emptyAudio ++ List.replicate n 0)).messages = []
  rw [arrive, ParseOutcome.idle]
  dsimp only [List.nil_append]
  rw [stalls]
  rfl

theorem empty_audio_delivered :
    (receive (.idle .fresh) [emptyAudio]).messages ≠ [] := by
  decide +kernel

theorem fragmentation_matters_when_large :
    ¬ ∀ pieces others : List Bytes, (∀ piece ∈ pieces, piece ≠ []) → (∀ piece ∈ others, piece ≠ []) →
      pieces.flatten = others.flatten →
      (receive (.idle .fresh) pieces).messages = (receive (.idle .fresh) others).messages ∧
        (receive (.idle .fresh) pieces).state = (receive (.idle .fresh) others).state ∧
        (receive (.idle .fresh) pieces).buf = (receive (.idle .fresh) others).buf := by
  intro claimed
  obtain ⟨n, large, high⟩ : ∃ n, 2147483648 ≤ n ∧ n < 4294967284 := ⟨2147483648, by decide, by decide⟩
  have nonempty : List.replicate n (0 : UInt8) ≠ [] := by
    rw [Ne, List.replicate_eq_nil_iff]
    omega
  have same := (claimed [emptyAudio ++ List.replicate n 0] [emptyAudio, List.replicate n 0]
    (by simp [emptyAudio]) (by simpa [emptyAudio] using nonempty) (by simp)).1
  rw [empty_audio_large n large high] at same
  have kept := arrive_messages (receive (.idle .fresh) [emptyAudio]) (List.replicate n 0)
  change _ <+: (receive (.idle .fresh) [emptyAudio, List.replicate n 0]).messages at kept
  rw [← same] at kept
  exact empty_audio_delivered (List.prefix_nil.mp kept)

end Lssvc.Mmedia
