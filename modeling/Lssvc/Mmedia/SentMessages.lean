import Lssvc.Mmedia.ChunkRoundTrip
import Lssvc.Mmedia.GatherLimit
import Lssvc.Mmedia.ParserRuns

set_option autoImplicit false

namespace Lssvc.Mmedia

open Lssvc.Foundation

def chunkSizeBehind (inSize : Int) (message : OutMessage) : Int :=
  if message.header.msgType = kRtmpMsgTypeChunkSize ∧ 4 ≤ message.packet.body.length then
    toInt32 (readUint32T message.packet.body)
  else inSize

def chunkSizeAfter (inSize : Int) (messages : List OutMessage) : Int := messages.foldl chunkSizeBehind inSize

-- Below the threshold of the extended timestamp, and in chunks the receiver takes
-- for what they are: both sides have one chunk size, or one chunk is all.
structure Followed (size : Nat) (inSize : Int) (message : OutMessage) : Prop where
  sendable : Sendable message message.header
  small : message.header.msgLen < 16777216
  plain : message.timestamp < 0xFFFFFF
  cut : inSize = size ∨ (message.header.msgLen ≤ size ∧ (message.header.msgLen : Int) ≤ inSize)

def AllFollowed (size : Nat) : Int → List OutMessage → Prop
  | _, [] => True
  | inSize, message :: messages =>
      Followed size inSize message ∧ AllFollowed size (chunkSizeBehind inSize message) messages

instance (message : OutMessage) (header : RtmpMsgHeader) : Decidable (Sendable message header) :=
  decidable_of_iff (message.packet.ext = some header ∧ 2 ≤ header.csId ∧ header.csId < 65600 ∧ 0 < header.msgLen ∧
      message.packet.body.length = header.msgLen)
    ⟨fun ⟨ext, low, high, nonempty, whole⟩ => ⟨ext, low, high, nonempty, whole⟩,
      fun ⟨ext, low, high, nonempty, whole⟩ => ⟨ext, low, high, nonempty, whole⟩⟩

instance (size : Nat) (inSize : Int) (message : OutMessage) : Decidable (Followed size inSize message) :=
  decidable_of_iff (Sendable message message.header ∧ message.header.msgLen < 16777216 ∧ message.timestamp < 0xFFFFFF ∧
      (inSize = size ∨ (message.header.msgLen ≤ size ∧ (message.header.msgLen : Int) ≤ inSize)))
    ⟨fun ⟨sendable, small, plain, cut⟩ => ⟨sendable, small, plain, cut⟩,
      fun ⟨sendable, small, plain, cut⟩ => ⟨sendable, small, plain, cut⟩⟩

instance allFollowedDecidable (size : Nat) : (inSize : Int) → (messages : List OutMessage) →
    Decidable (AllFollowed size inSize messages)
  | _, [] => .isTrue trivial
  | inSize, message :: messages =>
      have := allFollowedDecidable size (chunkSizeBehind inSize message) messages
      inferInstanceAs (Decidable (Followed size inSize message ∧
        AllFollowed size (chunkSizeBehind inSize message) messages))

def sentStreams (streams : Nat → OutStream) (messages : List OutMessage) : Nat → OutStream :=
  messages.foldl (fun streams message =>
    Function.update streams message.header.csId (sentStream (streams message.header.csId) message.header message)) streams

theorem all_followed_append (size : Nat) (front back : List OutMessage) (inSize : Int) :
    AllFollowed size inSize (front ++ back) ↔
      AllFollowed size inSize front ∧ AllFollowed size (chunkSizeAfter inSize front) back := by
  induction front generalizing inSize with
  | nil => exact ⟨fun followed => ⟨trivial, followed⟩, fun both => both.2⟩
  | cons message front ih => exact (and_congr_right fun _ => ih _).trans and_assoc.symm

theorem sent_bytes_append (size : Nat) (front back : List OutMessage) (streams : Nat → OutStream) :
    sentBytes size streams (front ++ back) =
      sentBytes size streams front ++ sentBytes size (sentStreams streams front) back := by
  induction front generalizing streams with
  | nil => rfl
  | cons message front ih =>
      rw [List.cons_append, sentBytes, sentBytes, ih, List.append_assoc]
      rfl

theorem build_all_streams (messages : List OutMessage) (out : RtmpOut)
    (sendable : ∀ message ∈ messages, Sendable message message.header) :
    (buildAll out messages).streams = sentStreams out.streams messages ∧
      (buildAll out messages).outChunkSize = out.outChunkSize := by
  induction messages generalizing out with
  | nil => exact ⟨rfl, rfl⟩
  | cons message messages ih =>
      obtain ⟨now, later⟩ := List.forall_mem_cons.mp sendable
      obtain ⟨streams, size⟩ := build_chunk_sent out message message.header now.ext
      obtain ⟨allStreams, allSize⟩ := ih (buildChunk out message.packet message.timestamp message.fmt0).1 later
      rw [streams] at allStreams
      exact ⟨allStreams, allSize.trans size⟩

theorem one_chunk_bytes (size other : Nat) (o : OutStream) (message : OutMessage)
    (sendable : Sendable message message.header) (fits : message.header.msgLen ≤ size)
    (fitsOther : message.header.msgLen ≤ other) :
    messageBytes size o message.header message = messageBytes other o message.header message := by
  rw [← sendable.whole] at fits fitsOther
  simp only [messageBytes, body_stream_last _ size _ fits, body_stream_last _ other _ fitsOther]

theorem followed_bytes (size : Nat) (inSize : Int) (o : OutStream) (message : OutMessage)
    (followed : Followed size inSize message) :
    messageBytes size o message.header message = messageBytes inSize.toNat o message.header message := by
  rcases followed.cut with rfl | ⟨fits, fitsIn⟩
  · rfl
  · exact one_chunk_bytes size _ o message followed.sendable fits (by omega)

theorem followed_positive (size : Nat) (positive : 0 < size) (inSize : Int) (message : OutMessage)
    (followed : Followed size inSize message) : 0 < inSize.toNat := by
  have some' := followed.sendable.nonempty
  rcases followed.cut with rfl | ⟨_, fitsIn⟩ <;> omega

theorem message_complete_size (message : OutMessage) (pkt : Packet) (body : pkt.body = message.packet.body)
    (type : pkt.type = message.header.msgType.toNat) (st : RtmpIn) :
    (messageComplete pkt st).inChunkSize = chunkSizeBehind st.inChunkSize message := by
  rw [messageComplete, chunkSizeBehind, type]
  by_cases chunkSize : message.header.msgType = kRtmpMsgTypeChunkSize
  · rw [if_pos (congrArg UInt8.toNat chunkSize), handleChunkSize, Packet.getPacketSize, body]
    by_cases four : 4 ≤ message.packet.body.length
    · rw [if_pos four, if_pos ⟨chunkSize, four⟩]
    · rw [if_neg four, if_neg fun both => four both.2]
  · rw [if_neg fun same => chunkSize (UInt8.toNat_inj.mp same), if_neg fun both => chunkSize both.1]

theorem followed_message (size : Nat) (positive : 0 < size) (message : OutMessage) (streams : Nat → OutStream)
    (st : RtmpIn) (followed : Followed size st.inChunkSize message)
    (agrees : ∀ csid, Agrees (streams csid) (st.streams csid) ∧ (st.streams csid).ext = false) (more : Bytes) :
    ∃ next outputs,
      Chain chunkScanner 2147483648 st (messageBytes size (streams message.header.csId) message.header message ++ more)
        next more outputs ∧
      outputs.filterMap Chunk.delivered = [message.arrived] ∧
      next.inChunkSize = chunkSizeBehind st.inChunkSize message ∧
      ∀ csid, Agrees (Function.update streams message.header.csId
          (sentStream (streams message.header.csId) message.header message) csid) (next.streams csid) ∧
        (next.streams csid).ext = false := by
  obtain ⟨agree, noExt⟩ := agrees message.header.csId
  have known : st.inChunkSize = (st.inChunkSize.toNat : Int) := by
    have some' := followed_positive size positive _ message followed
    omega
  cases chosen : chunkFormat (streams message.header.csId) message.header message.timestamp message.fmt0 with
  | mk fmt carried =>
      have notLarge := carried_plain _ message.header message fmt carried chosen followed.plain
      have timely : receivedTimestamp st.inChunkSize.toNat (streams message.header.csId) message.header message =
          message.timestamp := by
        rw [receivedTimestamp, chosen]
        exact if_neg notLarge
      obtain ⟨rest, last, outputs, chain, sameDelta, _, delivered, all⟩ :=
        message_received st st.inChunkSize.toNat (followed_positive size positive _ message followed) known _ message
          message.header followed.sendable agree fmt carried chosen
          (fun _ ext => absurd (noExt.symm.trans ext) Bool.false_ne_true) more
      have packet := received_packet_exact st.inChunkSize.toNat _ message message.header followed.sendable
        followed.small timely
      rw [all followed.small, ← followed_bytes size st.inChunkSize _ message followed] at chain
      refine ⟨_, outputs, chain, ?_, ?_, ?_⟩
      · rw [delivered, packet]
        rfl
      · rw [packet]
        exact message_complete_size message message.arrived rfl rfl _
      · intro csid
        rw [message_complete_streams]
        by_cases same : csid = message.header.csId
        · subst same
          rw [Function.update_self, put_same]
          exact ⟨agrees_after st.inChunkSize.toNat _ message message.header followed.sendable followed.small timely fmt
            carried last chosen sameDelta, decide_eq_false notLarge⟩
        · simpa [RtmpIn.put, same] using agrees csid

theorem followed_chain (size : Nat) (positive : 0 < size) (messages : List OutMessage) (streams : Nat → OutStream)
    (st : RtmpIn) (followed : AllFollowed size st.inChunkSize messages)
    (agrees : ∀ csid, Agrees (streams csid) (st.streams csid) ∧ (st.streams csid).ext = false) :
    ∃ last outputs, Chain chunkScanner 2147483648 st (sentBytes size streams messages) last [] outputs ∧
      outputs.filterMap Chunk.delivered = messages.map OutMessage.arrived := by
  induction messages generalizing streams st with
  | nil => exact ⟨st, [], .refl st [], rfl⟩
  | cons message messages ih =>
      obtain ⟨now, later⟩ := followed
      obtain ⟨next, outputs, chain, delivered, sameSize, stillAgrees⟩ := followed_message size positive message streams st
        now agrees (sentBytes size (Function.update streams message.header.csId
          (sentStream (streams message.header.csId) message.header message)) messages)
      obtain ⟨last, others, tail, othersDelivered⟩ := ih _ next (sameSize ▸ later) stillAgrees
      refine ⟨last, outputs ++ others, chain_trans chunkScanner 2147483648 chain tail, ?_⟩
      rw [List.filterMap_append, delivered, othersDelivered]
      rfl

theorem fresh_in_agrees (size csid : Nat) :
    Agrees ((RtmpOut.fresh size).streams csid) (RtmpIn.fresh.streams csid) ∧ (RtmpIn.fresh.streams csid).ext = false :=
  ⟨fresh_agrees 128 size csid, rfl⟩

theorem front_received (size : Nat) (positive : 0 < size) (messages : List OutMessage)
    (followed : AllFollowed size RtmpIn.fresh.inChunkSize messages) (pieces : List Bytes)
    (small : CallsSmall (.idle .fresh) pieces)
    (front : pieces.flatten <+: sentBytes size (RtmpOut.fresh size).streams messages) :
    (receive (.idle .fresh) pieces).messages <+: messages.map OutMessage.arrived ∧
      (pieces.flatten = sentBytes size (RtmpOut.fresh size).streams messages →
        (receive (.idle .fresh) pieces).messages = messages.map OutMessage.arrived ∧
          (receive (.idle .fresh) pieces).buf = []) := by
  have sound := with_chunk_size_sound 128 ⟨by decide, by decide⟩
  obtain ⟨last, outputs, chain, delivered⟩ := followed_chain size positive messages (RtmpOut.fresh size).streams .fresh
    followed (fresh_in_agrees size)
  obtain ⟨within, fed⟩ := receive_scan pieces (.idle .fresh) sound rfl small
  have waits := chunk_scanner_resumable.emptyWaits last
  rw [messages_scan]
  constructor
  · obtain ⟨result, reached, come⟩ := feed_of_prefix chunk_scanner_resumable sound chain (by decide) waits pieces front
      (by decide) within
    rw [Option.some.inj (fed.symm.trans reached), ← delivered]
    exact come.filterMap _
  · intro whole
    have done := feed_of_chain chunk_scanner_resumable sound chain (by decide) waits pieces whole (by decide) within
    have scans := Option.some.inj (fed.symm.trans done)
    rw [scans]
    exact ⟨delivered, congrArg Scan.rest scans⟩

-- What of out_buffer_ the headers of a message can take.
def headerRoom (message : OutMessage) : Nat := 18 + continuations kRtmpBufferSize message.header.msgLen * 7

def roomOf (messages : List OutMessage) : Nat := (messages.map headerRoom).sum

theorem build_body_fits (out : RtmpOut) (csid msgLen : Nat) (timestamp : UInt32) (body : Bytes) (bytesParsed : Nat)
    (positive : 0 < out.outChunkSize) (clean : out.errors = [])
    (fits : out.outCurrent + continuations out.outChunkSize (msgLen - bytesParsed) * 7 ≤ kRtmpBufferSize) :
    (buildBody out csid msgLen timestamp body bytesParsed).errors = [] ∧
      (buildBody out csid msgLen timestamp body bytesParsed).outCurrent ≤
        out.outCurrent + continuations out.outChunkSize (msgLen - bytesParsed) * 7 := by
  fun_induction buildBody out csid msgLen timestamp body bytesParsed with
  | case1 out bytesParsed size sent more full =>
      have left : out.outChunkSize < msgLen - bytesParsed := by omega
      rw [continuations, continuations_more _ _ positive left, Nat.add_one_mul] at fits
      generalize (msgLen - bytesParsed - out.outChunkSize - 1) / out.outChunkSize * 7 = later at fits
      omega
  | case2 out bytesParsed size sent more room ih =>
      obtain ⟨left, cut⟩ : out.outChunkSize < msgLen - bytesParsed ∧ size = out.outChunkSize := more_to_come more
      have count : continuations out.outChunkSize (msgLen - bytesParsed) =
          continuations out.outChunkSize (msgLen - (bytesParsed + size)) + 1 := by
        rw [cut, ← Nat.sub_sub]
        exact continuations_more _ _ positive left
      have header := continuation_header_most csid timestamp
      have current : (sent.putHeader (basicHeader .fmt3 csid ++ extendedTimestamp timestamp)).outCurrent =
          out.outCurrent + (basicHeader .fmt3 csid ++ extendedTimestamp timestamp).length := rfl
      have sameSize : (sent.putHeader (basicHeader .fmt3 csid ++ extendedTimestamp timestamp)).outChunkSize =
          out.outChunkSize := rfl
      rw [count] at fits
      obtain ⟨clean', current'⟩ := ih positive clean (by rw [current, sameSize]; omega)
      rw [current, sameSize] at current'
      refine ⟨clean', ?_⟩
      rw [count]
      omega
  | case3 out bytesParsed size sent done => exact ⟨clean, Nat.le_add_right _ _⟩

theorem build_chunk_fits (out : RtmpOut) (message : OutMessage) (sendable : Sendable message message.header)
    (size : out.outChunkSize = kRtmpBufferSize) (clean : out.errors = [])
    (fits : out.outCurrent + headerRoom message ≤ kRtmpBufferSize) :
    (buildChunk out message.packet message.timestamp message.fmt0).1.errors = [] ∧
      (buildChunk out message.packet message.timestamp message.fmt0).1.outCurrent ≤
        out.outCurrent + headerRoom message := by
  have positive : 0 < out.outChunkSize := by rw [size]; decide
  rw [build_chunk_ext out message message.header sendable.ext]
  generalize chunkFormat (out.streams message.header.csId) message.header message.timestamp message.fmt0 = format
  obtain ⟨fmt, carried⟩ := format
  dsimp only
  have first := first_header_most message.header fmt carried
  obtain ⟨begun, _, sameSize⟩ := begin_message_room out message.packet message.header fmt carried
  have body := build_body_fits (beginMessage out message.packet message.header fmt carried) message.header.csId
    message.header.msgLen carried message.packet.body 0 positive clean
  rw [begun, sameSize, size, Nat.sub_zero] at body
  rw [headerRoom] at fits ⊢
  obtain ⟨clean', current⟩ := body (by omega)
  exact ⟨clean', by omega⟩

theorem build_all_fits (messages : List OutMessage) (out : RtmpOut)
    (sendable : ∀ message ∈ messages, Sendable message message.header) (size : out.outChunkSize = kRtmpBufferSize)
    (clean : out.errors = []) (fits : out.outCurrent + roomOf messages ≤ kRtmpBufferSize) :
    (buildAll out messages).errors = [] := by
  induction messages generalizing out with
  | nil => exact clean
  | cons message messages ih =>
      obtain ⟨now, later⟩ := List.forall_mem_cons.mp sendable
      have split : roomOf (message :: messages) = headerRoom message + roomOf messages := rfl
      rw [split] at fits
      obtain ⟨clean', current⟩ := build_chunk_fits out message now size clean (by omega)
      exact ih (buildChunk out message.packet message.timestamp message.fmt0).1 later
        ((build_chunk_sent out message message.header now.ext).2.trans size) clean' (by omega)

end Lssvc.Mmedia
