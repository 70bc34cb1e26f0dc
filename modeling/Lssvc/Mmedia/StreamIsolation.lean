import Lssvc.Mmedia.ChunkRoundTrip

set_option autoImplicit false

namespace Lssvc.Mmedia

open Lssvc.Foundation

def Chunk.Plain (chunk : Chunk) : Prop :=
  ∀ pkt, chunk.delivered = some pkt → pkt.type ≠ kRtmpMsgTypeChunkSize.toNat

def WholeChunks (csid : Nat) : RtmpIn → List Bytes → Prop
  | _, [] => True
  | st, bytes :: later =>
      bytes.length < 2147483648 ∧
        ∃ next chunk, chunkStep st bytes = .take next bytes.length chunk ∧ chunk.header.csid = csid ∧ chunk.Plain ∧
          WholeChunks csid next later

def Interleaves (mixed : List (Nat × Bytes)) (own : Nat → List Bytes) : Prop :=
  ∀ csid, (mixed.filter fun piece => piece.1 = csid).map Prod.snd = own csid

def ParseOutcome.messagesOf (outcome : ParseOutcome) (csid : Nat) : List Packet :=
  (outcome.passes.filter fun pass => pass.chunk.header.csid = csid).filterMap fun pass => pass.chunk.delivered

theorem finish_chunk_local (st next : RtmpIn) (buf : Bytes) (h : ChunkHeader) (s : OpenStream) (parsed : Nat)
    (bytes : Int) (chunk : Chunk) (taken : finishChunk st buf h s parsed bytes = .take next chunk)
    (plain : chunk.Plain) :
    chunk.header = h ∧ ∃ stream, next = st.put h.csid stream ∧
      ∀ other, finishChunk other buf h s parsed bytes = .take (other.put h.csid stream) chunk := by
  rw [finishChunk] at taken
  cases read : readAt buf parsed bytes.toNat with
  | error stop =>
      rw [read] at taken
      cases taken
  | ok body =>
      rw [read] at taken
      dsimp only at taken
      by_cases full : (s.packet.append body).getSpace = 0
      · rw [if_pos full] at taken
        cases taken
        have unchanged : ∀ st, messageComplete (s.packet.append body).complete st = st := fun st =>
          if_neg (plain _ rfl)
        refine ⟨rfl, _, unchanged _, fun other => ?_⟩
        rw [finishChunk, read]
        dsimp only
        rw [if_pos full, unchanged]
      · rw [if_neg full] at taken
        cases taken
        refine ⟨rfl, _, rfl, fun other => ?_⟩
        rw [finishChunk, read]
        exact if_neg full

theorem copy_body_local (st next : RtmpIn) (total : Nat) (buf : Bytes) (h : ChunkHeader) (s : OpenStream)
    (parsed : Nat) (chunk : Chunk) (taken : copyBody st total buf h s parsed = .take next chunk)
    (plain : chunk.Plain) :
    chunk.header = h ∧ ∃ stream, next = st.put h.csid stream ∧
      ∀ other, other.inChunkSize = st.inChunkSize →
        copyBody other total buf h s parsed = .take (other.put h.csid stream) chunk := by
  rw [copyBody] at taken
  by_cases short : toUint32 ((total : Int) - parsed) < toUint32 (min s.packet.getSpace st.inChunkSize)
  · rw [if_pos short] at taken
    cases taken
  · rw [if_neg short] at taken
    by_cases bad : min s.packet.getSpace st.inChunkSize < 0 ∨
        s.packet.capacity < s.packet.body.length + min s.packet.getSpace st.inChunkSize
    · rw [if_pos bad] at taken
      cases taken
    · rw [if_neg bad] at taken
      obtain ⟨header, stream, same, others⟩ := finish_chunk_local st next buf h s parsed _ chunk taken plain
      refine ⟨header, stream, same, fun other sameSize => ?_⟩
      rw [copyBody]
      rw [sameSize, if_neg short, if_neg bad]
      exact others other

theorem parse_chunk_local (st next : RtmpIn) (total : Nat) (buf : Bytes) (chunk : Chunk)
    (taken : parseChunk st total buf = .take next chunk) (plain : chunk.Plain) :
    ∃ stream, next = st.put chunk.header.csid stream ∧
      ∀ other, other.inChunkSize = st.inChunkSize →
        other.streams chunk.header.csid = st.streams chunk.header.csid →
        parseChunk other total buf = .take (other.put chunk.header.csid stream) chunk := by
  obtain ⟨h, s, parsed, headerRead, extendedRead, copied⟩ := parse_chunk_taken st next total buf chunk taken
  obtain ⟨rfl, stream, same, others⟩ := copy_body_local st next total buf h s parsed chunk copied plain
  refine ⟨stream, same, fun other sameSize sameStream => ?_⟩
  rw [parseChunk, headerRead]
  dsimp only
  rw [sameSize, sameStream, extendedRead]
  exact others other sameSize

theorem chunk_step_local (st next : RtmpIn) (buf : Bytes) (used : Nat) (chunk : Chunk)
    (taken : chunkStep st buf = .take next used chunk) (plain : chunk.Plain) :
    ∃ stream, next = st.put chunk.header.csid stream ∧
      ∀ other, other.inChunkSize = st.inChunkSize →
        other.streams chunk.header.csid = st.streams chunk.header.csid →
        chunkStep other buf = .take (other.put chunk.header.csid stream) used chunk := by
  obtain ⟨more, parsed, rfl⟩ := chunk_step_taken st next buf used chunk taken
  obtain ⟨stream, same, others⟩ := parse_chunk_local st next buf.length buf chunk parsed plain
  exact ⟨stream, same, fun other sameSize sameStream =>
    chunk_step_of_take other _ buf chunk more (others other sameSize sameStream)⟩

structure Beside (all : RtmpIn) (alone : Nat → RtmpIn) : Prop where
  chunkSize : ∀ csid, (alone csid).inChunkSize = all.inChunkSize
  streams : ∀ csid, (alone csid).streams csid = all.streams csid

theorem beside_step {all : RtmpIn} {alone : Nat → RtmpIn} (beside : Beside all alone) (csid : Nat) (stream : InStream) :
    Beside (all.put csid stream) (Function.update alone csid ((alone csid).put csid stream)) := by
  constructor
  · intro other
    by_cases same : other = csid
    · subst same
      rw [Function.update_self]
      exact beside.chunkSize other
    · rw [Function.update_of_ne same]
      exact beside.chunkSize other
  · intro other
    by_cases same : other = csid
    · subst same
      rw [Function.update_self, put_same, put_same]
    · rw [Function.update_of_ne same, beside.streams other, RtmpIn.put]
      exact (Function.update_of_ne same _ _).symm

def Chunk.isOf (csid : Nat) (chunk : Chunk) : Bool := chunk.header.csid = csid

theorem interleaves_cons {piece : Nat × Bytes} {mixed : List (Nat × Bytes)} {own : Nat → List Bytes}
    (interleaves : Interleaves (piece :: mixed) own) :
    ∃ later, own piece.1 = piece.2 :: later ∧ Interleaves mixed (Function.update own piece.1 later) := by
  have here := interleaves piece.1
  rw [List.filter_cons_of_pos (by simp), List.map_cons] at here
  refine ⟨_, here.symm, fun csid => ?_⟩
  by_cases same : csid = piece.1
  · subst same
    rw [Function.update_self]
  · rw [Function.update_of_ne same, ← interleaves csid, List.filter_cons_of_neg]
    simpa using fun other => same other.symm

theorem mixed_chain (mixed : List (Nat × Bytes)) (own : Nat → List Bytes) (interleaves : Interleaves mixed own)
    (all : RtmpIn) (alone : Nat → RtmpIn) (beside : Beside all alone)
    (whole : ∀ csid, WholeChunks csid (alone csid) (own csid)) (csid : Nat) :
    ∃ last outputs final others, Chain chunkScanner 2147483648 all (mixed.map Prod.snd).flatten last [] outputs ∧
      Chain chunkScanner 2147483648 (alone csid) (own csid).flatten final [] others ∧
      outputs.filter (Chunk.isOf csid) = others ∧ last.streams csid = final.streams csid := by
  induction mixed generalizing own all alone with
  | nil =>
      have empty : own csid = [] := (interleaves csid).symm
      rw [empty]
      exact ⟨all, [], alone csid, [], .refl _ _, .refl _ _, rfl, (beside.streams csid).symm⟩
  | cons piece mixed ih =>
      obtain ⟨other, bytes⟩ := piece
      obtain ⟨later, first, rest⟩ := interleaves_cons interleaves
      have wholeHere := whole other
      rw [first] at wholeHere
      obtain ⟨short, next, chunk, taken, rfl, plain, wholeLater⟩ := wholeHere
      obtain ⟨stream, same, others⟩ := chunk_step_local _ next bytes _ chunk taken plain
      have mixedTaken := others all (beside.chunkSize _).symm (beside.streams _).symm
      subst same
      obtain ⟨last, outputs, final, alones, chain, ownChain, sameOutputs, sameStream⟩ :=
        ih (Function.update own chunk.header.csid later) rest (all.put chunk.header.csid stream)
          (Function.update alone chunk.header.csid ((alone chunk.header.csid).put chunk.header.csid stream))
          (beside_step beside _ stream) (by
            intro csid
            by_cases here : csid = chunk.header.csid
            · subst here
              rw [Function.update_self, Function.update_self]
              exact wholeLater
            · rw [Function.update_of_ne here, Function.update_of_ne here]
              exact whole csid)
      have front := chain_trans chunkScanner _ (chain_front chunkScanner _ short mixedTaken (mixed.map Prod.snd).flatten)
        chain
      by_cases here : csid = chunk.header.csid
      · subst here
        rw [Function.update_self, Function.update_self] at ownChain
        have ownFront := chain_trans chunkScanner _ (chain_front chunkScanner _ short taken later.flatten) ownChain
        refine ⟨last, _, final, [chunk] ++ alones, front, ?_, ?_, sameStream⟩
        · rw [first]
          exact ownFront
        · rw [List.singleton_append, List.filter_cons_of_pos (by simp [Chunk.isOf]), sameOutputs, List.singleton_append]
      · rw [Function.update_of_ne here, Function.update_of_ne here] at ownChain
        refine ⟨last, _, final, alones, front, ownChain, ?_, sameStream⟩
        rw [List.singleton_append, List.filter_cons_of_neg, sameOutputs]
        simpa [Chunk.isOf] using fun other => here other.symm

theorem messages_of_scan (outcome : ParseOutcome) (csid : Nat) :
    outcome.messagesOf csid = (outcome.scan.outputs.filter (Chunk.isOf csid)).filterMap Chunk.delivered := by
  rw [ParseOutcome.messagesOf, ParseOutcome.scan, List.filter_map, List.filterMap_map]
  rfl

theorem receive_chain (st last : RtmpIn) (sound : Sound st) (stream : Bytes) (outputs : List Chunk)
    (chain : Chain chunkScanner 2147483648 st stream last [] outputs) (pieces : List Bytes)
    (cut : pieces.flatten = stream) (small : CallsSmall (.idle st) pieces) :
    (receive (.idle st) pieces).scan = ⟨last, [], outputs⟩ := by
  obtain ⟨within, fed⟩ := receive_scan pieces (.idle st) sound rfl small
  have known := feed_of_chain chunk_scanner_resumable sound chain (by decide)
    (chunk_scanner_resumable.emptyWaits last) pieces cut (by decide) within
  exact Option.some.inj (fed.symm.trans known)

theorem chunk_streams_isolated (size : Int) (positive : 1 ≤ size) (range : size < 2147483648)
    (own : Nat → List Bytes) (whole : ∀ csid, WholeChunks csid (.withChunkSize size) (own csid))
    (mixed : List (Nat × Bytes)) (interleaves : Interleaves mixed own) (csid : Nat) (pieces alone : List Bytes)
    (cut : pieces.flatten = (mixed.map Prod.snd).flatten) (cutAlone : alone.flatten = (own csid).flatten)
    (small : CallsSmall (.idle (.withChunkSize size)) pieces)
    (smallAlone : CallsSmall (.idle (.withChunkSize size)) alone) :
    (receive (.idle (.withChunkSize size)) pieces).messagesOf csid =
        (receive (.idle (.withChunkSize size)) alone).messages ∧
      (receive (.idle (.withChunkSize size)) pieces).state.streams csid =
        (receive (.idle (.withChunkSize size)) alone).state.streams csid := by
  have sound := with_chunk_size_sound size ⟨by omega, range⟩
  obtain ⟨last, outputs, final, others, chain, ownChain, sameOutputs, sameStream⟩ :=
    mixed_chain mixed own interleaves (.withChunkSize size) (fun _ => .withChunkSize size) ⟨fun _ => rfl, fun _ => rfl⟩
      whole csid
  have together := receive_chain _ last sound _ outputs chain pieces cut small
  have separate := receive_chain _ final sound _ others ownChain alone cutAlone smallAlone
  constructor
  · rw [messages_of_scan, messages_scan, together, separate]
    exact congrArg (List.filterMap Chunk.delivered) sameOutputs
  · have states := congrArg (fun scan => scan.state.streams csid) together
    have ownStates := congrArg (fun scan => scan.state.streams csid) separate
    exact states.trans (sameStream.trans ownStates.symm)

def emptyMessage (csid : UInt8) : Bytes := [csid, 0, 0, 0, 0, 0, 0, 8, 0, 0, 0, 0]

def emptyReceived (csid : Nat) : InStream := { prev := some { csId := csid, msgType := 8 } }

theorem empty_message_first (st : RtmpIn) (start : st = .withChunkSize 128 ∨ st = RtmpIn.fresh.put 4 (emptyReceived 4)) :
    ∃ chunk, chunkStep st (emptyMessage 4) = .take (RtmpIn.fresh.put 4 (emptyReceived 4)) 12 chunk ∧
      chunk.header.csid = 4 ∧ chunk.Plain := by
  rcases start with rfl | rfl
  · refine ⟨_, rfl, rfl, ?_⟩
    intro pkt delivered
    cases delivered
    decide
  · have again : ∃ chunk, chunkStep (RtmpIn.fresh.put 4 (emptyReceived 4)) (emptyMessage 4) =
        .take ((RtmpIn.fresh.put 4 (emptyReceived 4)).put 4 (emptyReceived 4)) 12 chunk ∧
          chunk.header.csid = 4 ∧ chunk.Plain := by
      refine ⟨_, rfl, rfl, ?_⟩
      intro pkt delivered
      cases delivered
      decide
    rwa [put_put] at again

theorem empty_messages_whole (count : Nat) (st : RtmpIn)
    (start : st = .withChunkSize 128 ∨ st = RtmpIn.fresh.put 4 (emptyReceived 4)) :
    WholeChunks 4 st (List.replicate count (emptyMessage 4)) := by
  induction count generalizing st with
  | zero => exact trivial
  | succ count ih =>
      obtain ⟨chunk, taken, csid, plain⟩ := empty_message_first st start
      exact ⟨by decide, _, chunk, taken, csid, plain, ih _ (.inr rfl)⟩

def twoStreams (count : Nat) (csid : Nat) : List Bytes :=
  if csid = 3 then [emptyMessage 3] else if csid = 4 then List.replicate count (emptyMessage 4) else []

theorem two_streams_whole (count : Nat) (csid : Nat) : WholeChunks csid (.withChunkSize 128) (twoStreams count csid) := by
  rw [twoStreams]
  by_cases three : csid = 3
  · subst three
    refine ⟨by decide, _, _, rfl, rfl, ?_, trivial⟩
    intro pkt delivered
    cases delivered
    decide
  · by_cases four : csid = 4
    · subst four
      exact empty_messages_whole count _ (.inl rfl)
    · rw [if_neg three, if_neg four]
      exact trivial

theorem two_streams_interleave (count : Nat) :
    Interleaves ((3, emptyMessage 3) :: List.replicate count (4, emptyMessage 4)) (twoStreams count) := by
  intro csid
  rw [twoStreams]
  by_cases three : csid = 3
  · subst three
    simp
  · by_cases four : csid = 4
    · subst four
      simp
    · have other : ¬ 4 = csid := fun same => four same.symm
      have another : ¬ 3 = csid := fun same => three same.symm
      simp [three, four, other, another]

def mixedChunks : List (Nat × Bytes) :=
  [(3, [3, 0, 0, 10, 0, 0, 5, 9, 1, 0, 0, 0, 11, 12]), (4, [4, 0, 0, 20, 0, 0, 4, 8, 1, 0, 0, 0, 21, 22]),
    (3, [0xC3, 13, 14]), (3, [0xC3, 15])]

def ownChunks (csid : Nat) : List Bytes := (mixedChunks.filter fun piece => piece.1 = csid).map Prod.snd

theorem own_chunks_whole (csid : Nat) : WholeChunks csid (.withChunkSize 2) (ownChunks csid) := by
  by_cases three : csid = 3
  · subst three
    refine ⟨by decide, _, _, rfl, rfl, ?_, by decide, _, _, rfl, rfl, ?_, by decide, _, _, rfl, rfl, ?_, trivial⟩
    · intro pkt delivered
      cases delivered
    · intro pkt delivered
      cases delivered
    · intro pkt delivered
      cases delivered
      decide
  · by_cases four : csid = 4
    · subst four
      refine ⟨by decide, _, _, rfl, rfl, ?_, trivial⟩
      intro pkt delivered
      cases delivered
    · have none' : ownChunks csid = [] := by
        simp [ownChunks, mixedChunks, Ne.symm three, Ne.symm four]
      rw [none']
      exact trivial

def mixedPieces : List Bytes :=
  [((mixedChunks.map Prod.snd).flatten).take 20, ((mixedChunks.map Prod.snd).flatten).drop 20]

theorem chunk_streams_isolated_unfinished :
    (∀ csid, WholeChunks csid (.withChunkSize 2) (ownChunks csid)) ∧ Interleaves mixedChunks ownChunks ∧
      ((receive (.idle (.withChunkSize 2)) mixedPieces).messagesOf 3).map Packet.body = [[11, 12, 13, 14, 15]] ∧
      (receive (.idle (.withChunkSize 2)) mixedPieces).messagesOf 3 =
          (receive (.idle (.withChunkSize 2)) (ownChunks 3)).messages ∧
        (receive (.idle (.withChunkSize 2)) mixedPieces).state.streams 4 =
          (receive (.idle (.withChunkSize 2)) (ownChunks 4)).state.streams 4 := by
  have whole : mixedPieces.flatten = (mixedChunks.map Prod.snd).flatten := by decide
  have small : CallsSmall (.idle (.withChunkSize 2)) mixedPieces := ⟨by decide, by decide +kernel, trivial⟩
  have isolated := chunk_streams_isolated 2 (by decide) (by decide) ownChunks own_chunks_whole mixedChunks (fun _ => rfl)
  refine ⟨own_chunks_whole, fun _ => rfl, by decide +kernel, ?_, ?_⟩
  · exact (isolated 3 mixedPieces (ownChunks 3) whole rfl small ⟨by decide, by decide +kernel, by decide +kernel, trivial⟩).1
  · exact (isolated 4 mixedPieces (ownChunks 4) whole rfl small ⟨by decide, trivial⟩).2

theorem isolation_breaks_when_large :
    ¬ ∀ (own : Nat → List Bytes) (mixed : List (Nat × Bytes)),
      (∀ csid, WholeChunks csid (.withChunkSize 128) (own csid)) → Interleaves mixed own →
        (receive (.idle (.withChunkSize 128)) [(mixed.map Prod.snd).flatten]).messagesOf 3 =
          (receive (.idle (.withChunkSize 128)) [(own 3).flatten]).messages := by
  intro claimed
  obtain ⟨count, large, high⟩ : ∃ count, 2147483648 ≤ 12 * count ∧ 12 * count < 4294967280 :=
    ⟨178956971, by decide, by decide⟩
  have same := claimed (twoStreams count) _ (two_streams_whole count) (two_streams_interleave count)
  let rest := ((List.replicate count (4, emptyMessage 4)).map Prod.snd).flatten
  have length : (emptyMessage 3 ++ rest).length = 12 + 12 * count := by
    simp [rest, emptyMessage]
    omega
  have basic : readBasicHeader (emptyMessage 3 ++ rest).length (emptyMessage 3 ++ rest) = .ok ⟨.fmt0, 3, 1⟩ :=
    basic_header_extends (emptyMessage 3) rest ⟨.fmt0, 3, 1⟩ (by decide)
  have stalls := parse_message_stalls (.withChunkSize 128) (emptyMessage 3 ++ rest) _ basic rfl
    (by dsimp only; omega) (by omega)
  have nothing : (receive (.idle (.withChunkSize 128)) [emptyMessage 3 ++ rest]).messagesOf 3 = [] := by
    change (arrive (.idle (.withChunkSize 128)) (emptyMessage 3 ++ rest)).messagesOf 3 = []
    rw [arrive, ParseOutcome.idle]
    dsimp only [List.nil_append]
    rw [stalls]
    rfl
  exact empty_audio_delivered (same.symm.trans nothing)

end Lssvc.Mmedia
