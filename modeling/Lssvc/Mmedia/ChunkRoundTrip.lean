import Lssvc.Mmedia.StreamAgreement

set_option autoImplicit false

namespace Lssvc.Mmedia

open Lssvc.Foundation

def OutMessage.header (message : OutMessage) : RtmpMsgHeader := message.packet.ext.getD {}

def sentBytes (size : Nat) : (Nat → OutStream) → List OutMessage → Bytes
  | _, [] => []
  | streams, message :: messages =>
      messageBytes size (streams message.header.csId) message.header message ++
        sentBytes size (Function.update streams message.header.csId
          (sentStream (streams message.header.csId) message.header message)) messages

theorem build_all_stream (messages : List OutMessage) (out : RtmpOut) (positive : 0 < out.outChunkSize)
    (sendable : ∀ message ∈ messages, Sendable message message.header)
    (fits : (buildAll out messages).errors = []) :
    (buildAll out messages).sendingBuffers.flatten =
      out.sendingBuffers.flatten ++ sentBytes out.outChunkSize out.streams messages := by
  induction messages generalizing out with
  | nil => exact (List.append_nil _).symm
  | cons message messages ih =>
      obtain ⟨now, later⟩ := List.forall_mem_cons.mp sendable
      obtain ⟨streams, size⟩ := build_chunk_sent out message message.header now.ext
      have noError : (buildChunk out message.packet message.timestamp message.fmt0).1.errors = [] := by
        have front := build_all_errors (buildChunk out message.packet message.timestamp message.fmt0).1 messages
        rw [show (buildAll (buildChunk out message.packet message.timestamp message.fmt0).1 messages).errors = []
          from fits] at front
        exact List.prefix_nil.mp front
      have rest := ih (buildChunk out message.packet message.timestamp message.fmt0).1 (by rw [size]; exact positive)
        later fits
      rw [build_chunk_stream out message message.header now.ext positive now.whole noError, streams, size,
        List.append_assoc] at rest
      exact rest

def RtmpIn.withChunkSize (inChunkSize : Int) : RtmpIn := { RtmpIn.fresh with inChunkSize := inChunkSize }

theorem with_chunk_size_sound (inChunkSize : Int) (range : InInt32 inChunkSize) :
    Sound (.withChunkSize inChunkSize) := by
  refine ⟨range, fun csid => ⟨?_, ?_⟩⟩ <;> intro _ impossible <;> cases impossible

theorem fresh_agrees (inChunkSize : Int) (size csid : Nat) :
    Agrees ((RtmpOut.fresh size).streams csid) ((RtmpIn.withChunkSize inChunkSize).streams csid) where
  prev := rfl
  packet := rfl
  delta := fun _ => rfl
  extended := fun large => absurd (UInt32.le_zero_iff.mp large) (by decide)
  lengths := by
    rintro prev ⟨⟩

structure PlainMessage (message : OutMessage) : Prop where
  sendable : Sendable message message.header
  small : message.header.msgLen < 16777216
  notChunkSize : message.header.msgType ≠ kRtmpMsgTypeChunkSize
  plain : message.timestamp < 0xFFFFFF

theorem carried_plain (o : OutStream) (header : RtmpMsgHeader) (message : OutMessage) (fmt : RtmpFmt)
    (carried : UInt32) (chosen : chunkFormat o header message.timestamp message.fmt0 = (fmt, carried))
    (plain : message.timestamp < 0xFFFFFF) : ¬ 0xFFFFFF ≤ carried := by
  have bound : carried ≤ message.timestamp := by
    rcases chunk_format_cases o header message.timestamp message.fmt0 with
      first | ⟨prev, _, later, _, second | ⟨_, _, third | ⟨fourth, _⟩⟩⟩
    · obtain ⟨rfl, rfl⟩ := Prod.mk.inj (chosen.symm.trans first)
      exact UInt32.le_refl _
    · obtain ⟨rfl, rfl⟩ := Prod.mk.inj (chosen.symm.trans second)
      exact UInt32.sub_le later
    · obtain ⟨rfl, rfl⟩ := Prod.mk.inj (chosen.symm.trans third)
      exact UInt32.sub_le later
    · obtain ⟨rfl, rfl⟩ := Prod.mk.inj (chosen.symm.trans fourth)
      exact UInt32.sub_le later
  intro large
  exact absurd (UInt32.lt_of_le_of_lt (UInt32.le_trans large bound) plain) (UInt32.lt_irrefl _)

def OutMessage.arrived (message : OutMessage) : Packet :=
  { type := message.header.msgType.toNat
    timestamp := message.timestamp.toNat
    capacity := message.header.msgLen
    body := message.packet.body
    ext := some { message.header with timestamp := message.timestamp } }

theorem plain_chain (size : Nat) (positive : 0 < size) (messages : List OutMessage)
    (plain : ∀ message ∈ messages, PlainMessage message) (streams : Nat → OutStream) (st : RtmpIn)
    (sameSize : st.inChunkSize = size)
    (agrees : ∀ csid, Agrees (streams csid) (st.streams csid) ∧ (st.streams csid).ext = false) :
    ∃ last outputs, Chain chunkScanner 2147483648 st (sentBytes size streams messages) last [] outputs ∧
      outputs.filterMap Chunk.delivered = messages.map OutMessage.arrived := by
  induction messages generalizing streams st with
  | nil => exact ⟨st, [], .refl st [], rfl⟩
  | cons message messages ih =>
      obtain ⟨now, later⟩ := List.forall_mem_cons.mp plain
      obtain ⟨agree, noExt⟩ := agrees message.header.csId
      cases chosen : chunkFormat (streams message.header.csId) message.header message.timestamp message.fmt0 with
      | mk fmt carried =>
          have notLarge := carried_plain _ message.header message fmt carried chosen now.plain
          have timely : receivedTimestamp size (streams message.header.csId) message.header message =
              message.timestamp := by
            rw [receivedTimestamp, chosen]
            exact if_neg notLarge
          obtain ⟨rest, last, outputs, chain, sameDelta, _, delivered, all⟩ :=
            message_received st size positive sameSize _ message message.header now.sendable agree fmt carried chosen
              (fun _ ext => absurd (noExt.symm.trans ext) Bool.false_ne_true)
              (sentBytes size (Function.update streams message.header.csId
                (sentStream (streams message.header.csId) message.header message)) messages)
          have packet := received_packet_exact size _ message message.header now.sendable now.small timely
          rw [all now.small, message_complete_kept size message message.header
            (fun type => absurd type now.notChunkSize) _ (by rw [packet]) (by rw [packet])
            (st.put message.header.csId (receivedStream size (streams message.header.csId) message.header message last
              (decide (0xFFFFFF ≤ carried)))) sameSize] at chain
          obtain ⟨final, others, tail, others_delivered⟩ := ih later
            (Function.update streams message.header.csId
              (sentStream (streams message.header.csId) message.header message))
            (st.put message.header.csId (receivedStream size (streams message.header.csId) message.header message last
              (decide (0xFFFFFF ≤ carried)))) sameSize (by
              intro csid
              by_cases same : csid = message.header.csId
              · subst same
                rw [Function.update_self, put_same]
                exact ⟨agrees_after size _ message message.header now.sendable now.small timely fmt carried last chosen
                  sameDelta, decide_eq_false notLarge⟩
              · simpa [RtmpIn.put, same] using agrees csid)
          refine ⟨final, outputs ++ others, chain_trans chunkScanner 2147483648 chain tail, ?_⟩
          rw [List.filterMap_append, delivered, others_delivered, packet]
          rfl

theorem chunk_round_trip (size : Nat) (positive : 0 < size) (high : size < 2147483648) (messages : List OutMessage)
    (plain : ∀ message ∈ messages, PlainMessage message) (fit : HeadersFit (buildAll (.fresh size) messages))
    (pieces : List Bytes) (cut : pieces.flatten = (buildAll (.fresh size) messages).sendingBuffers.flatten)
    (small : CallsSmall (.idle (.withChunkSize size)) pieces) :
    (receive (.idle (.withChunkSize size)) pieces).messages = messages.map OutMessage.arrived ∧
      (receive (.idle (.withChunkSize size)) pieces).buf = [] := by
  have sound := with_chunk_size_sound size ⟨by omega, by omega⟩
  have stream : pieces.flatten = sentBytes size (RtmpOut.fresh size).streams messages := by
    rw [cut, build_all_stream messages (.fresh size) positive (fun message inList => (plain message inList).sendable)
      fit.1]
    rfl
  obtain ⟨last, outputs, chain, delivered⟩ := plain_chain size positive messages plain (RtmpOut.fresh size).streams
    (.withChunkSize size) rfl (fun csid => ⟨fresh_agrees size size csid, rfl⟩)
  obtain ⟨within, fed⟩ := receive_scan pieces (.idle (.withChunkSize size)) sound rfl small
  have done := feed_of_chain chunk_scanner_resumable sound chain (by decide)
    (chunk_scanner_resumable.emptyWaits last) pieces stream (by decide) within
  have scans := Option.some.inj (fed.symm.trans done)
  rw [messages_scan, scans]
  exact ⟨delivered, congrArg Scan.rest scans⟩

theorem chunk_round_trip_two_chunks :
    (receive (.idle (.withChunkSize 2)) [[3, 0, 0, 5, 0, 0, 3, 8, 1, 0, 0, 0, 10, 11], [195, 12, 131, 0, 0],
      [7, 13, 14, 195, 15]]).messages.map Packet.body = [[10, 11, 12], [13, 14, 15]] := by
  let header : RtmpMsgHeader := { csId := 3, msgLen := 3, msgType := 8, msgSid := 1 }
  let first : OutMessage := ⟨{ capacity := 3, body := [10, 11, 12], ext := some header }, 5, false⟩
  let second : OutMessage := ⟨{ capacity := 3, body := [13, 14, 15], ext := some header }, 12, false⟩
  have plain : ∀ message ∈ [first, second], PlainMessage message := by
    intro message inList
    rcases List.mem_pair.mp inList with rfl | rfl <;>
      exact ⟨⟨rfl, by decide, by decide, by decide, rfl⟩, by decide, by decide, by decide⟩
  have arrived := chunk_round_trip 2 (by decide) (by decide) [first, second] plain (by decide +kernel)
    [[3, 0, 0, 5, 0, 0, 3, 8, 1, 0, 0, 0, 10, 11], [195, 12, 131, 0, 0], [7, 13, 14, 195, 15]] (by decide +kernel)
    ⟨by decide, by decide +kernel, by decide +kernel, trivial⟩
  rw [show ((2 : Nat) : Int) = 2 from rfl] at arrived
  rw [arrived.1]
  rfl

def longHeader (n : Nat) : RtmpMsgHeader := { csId := 3, msgLen := n, msgType := 8, msgSid := 1 }

def longMessage (n : Nat) : OutMessage :=
  ⟨{ capacity := n, body := List.replicate n 0, ext := some (longHeader n) }, 0, false⟩

theorem build_body_whole (out : RtmpOut) (csid msgLen : Nat) (timestamp : UInt32) (body : Bytes)
    (fits : msgLen ≤ out.outChunkSize) (whole : body.length = msgLen) :
    buildBody out csid msgLen timestamp body 0 = out.putBody body := by
  rw [buildBody, Nat.sub_zero, Nat.min_eq_left fits, List.drop_zero, ← whole, List.take_length]
  simp

theorem long_message_first (n size : Nat) (fits : n ≤ size) :
    ∃ tail, (buildChunk (.fresh size) (longMessage n).packet 0 false).1.sendingBuffers.flatten = 3 :: tail ∧
      tail.length = 11 + n ∧ (buildChunk (.fresh size) (longMessage n).packet 0 false).1.outCurrent = 12 ∧
      (buildChunk (.fresh size) (longMessage n).packet 0 false).1.errors = [] ∧
      (buildChunk (.fresh size) (longMessage n).packet 0 false).1.outChunkSize = size ∧
      (buildChunk (.fresh size) (longMessage n).packet 0 false).1.streams 3 = ⟨some (longHeader n), 0⟩ := by
  have body := build_body_whole (beginMessage (.fresh size) (longMessage n).packet (longHeader n) .fmt0 0) 3 n 0
    (List.replicate n 0) fits List.length_replicate
  have built : (buildChunk (.fresh size) (longMessage n).packet 0 false).1 =
      (beginMessage (.fresh size) (longMessage n).packet (longHeader n) .fmt0 0).putBody (List.replicate n 0) := body
  have basic : basicHeader .fmt0 3 = [3] := by decide
  have noField : extendedTimestamp 0 = [] := by decide
  rw [built]
  refine ⟨fieldBytes .fmt0 (timestampField 0) (longHeader n) ++ List.replicate n 0, ?_, ?_, rfl, rfl, rfl, ?_⟩
  · simp [RtmpOut.putBody, beginMessage, RtmpOut.put, RtmpOut.putHeader, RtmpOut.fresh, longHeader, basic, noField]
  · rw [List.length_append, field_bytes_length, List.length_replicate]
    rfl
  · simp [RtmpOut.putBody, beginMessage, RtmpOut.put, longHeader, rememberSent]

theorem long_message_next (n : Nat) (out : RtmpOut) (fits : n ≤ out.outChunkSize)
    (known : out.streams 3 = ⟨some (longHeader n), 0⟩) :
    (buildChunk out (longMessage n).packet 0 false).1.sendingBuffers.flatten =
        out.sendingBuffers.flatten ++ 195 :: List.replicate n 0 ∧
      (buildChunk out (longMessage n).packet 0 false).1.outCurrent = out.outCurrent + 1 ∧
      (buildChunk out (longMessage n).packet 0 false).1.errors = out.errors ∧
      (buildChunk out (longMessage n).packet 0 false).1.outChunkSize = out.outChunkSize ∧
      (buildChunk out (longMessage n).packet 0 false).1.streams 3 = ⟨some (longHeader n), 0⟩ := by
  have body := build_body_whole (beginMessage out (longMessage n).packet (longHeader n) .fmt3 0) 3 n 0
    (List.replicate n 0) fits List.length_replicate
  have format : chunkFormat (out.streams 3) (longHeader n) 0 false = (.fmt3, 0) := by
    rw [known]
    simp [chunkFormat, longHeader]
  have built : (buildChunk out (longMessage n).packet 0 false).1 =
      (beginMessage out (longMessage n).packet (longHeader n) .fmt3 0).putBody (List.replicate n 0) := by
    rw [← body]
    change (buildBody (beginMessage out (longMessage n).packet (longHeader n)
      (chunkFormat (out.streams 3) (longHeader n) 0 false).1 (chunkFormat (out.streams 3) (longHeader n) 0 false).2)
      3 n (chunkFormat (out.streams 3) (longHeader n) 0 false).2 (List.replicate n 0) 0) = _
    rw [format]
  rw [built]
  refine ⟨?_, rfl, rfl, rfl, ?_⟩
  · have basic : basicHeader .fmt3 3 = [195] := by decide
    have noField : extendedTimestamp 0 = [] := by decide
    simp [RtmpOut.putBody, beginMessage, RtmpOut.put, RtmpOut.putHeader, longHeader, basic, noField, fieldBytes]
  · simp [RtmpOut.putBody, beginMessage, RtmpOut.put, RtmpOut.putHeader, longHeader, rememberSent, known]

theorem long_messages (n size k : Nat) (fits : n ≤ size) :
    ∃ tail, (buildAll (.fresh size) (List.replicate (k + 1) (longMessage n))).sendingBuffers.flatten = 3 :: tail ∧
      tail.length = 11 + n + k * (n + 1) ∧
      (buildAll (.fresh size) (List.replicate (k + 1) (longMessage n))).outCurrent = 12 + k ∧
      (buildAll (.fresh size) (List.replicate (k + 1) (longMessage n))).errors = [] ∧
      (buildAll (.fresh size) (List.replicate (k + 1) (longMessage n))).outChunkSize = size ∧
      (buildAll (.fresh size) (List.replicate (k + 1) (longMessage n))).streams 3 = ⟨some (longHeader n), 0⟩ := by
  induction k with
  | zero =>
      obtain ⟨tail, flat, length, others⟩ := long_message_first n size fits
      exact ⟨tail, flat, by rw [length]; omega, others⟩
  | succ k ih =>
      obtain ⟨tail, flat, length, current, errors, sameSize, known⟩ := ih
      have next : buildAll (.fresh size) (List.replicate (k + 1 + 1) (longMessage n)) =
          (buildChunk (buildAll (.fresh size) (List.replicate (k + 1) (longMessage n))) (longMessage n).packet 0
            false).1 := by
        rw [List.replicate_succ', buildAll, List.foldl_append]
        rfl
      obtain ⟨flatNext, currentNext, errorsNext, sizeNext, knownNext⟩ :=
        long_message_next n (buildAll (.fresh size) (List.replicate (k + 1) (longMessage n)))
          (by rw [sameSize]; exact fits) known
      rw [next]
      refine ⟨tail ++ 195 :: List.replicate n 0, by rw [flatNext, flat]; rfl, ?_, by rw [currentNext, current]; omega,
        errorsNext.trans errors, sizeNext.trans sameSize, knownNext⟩
      rw [List.length_append, List.length_cons, List.length_replicate, length, Nat.succ_mul]
      omega

-- 128 messages of 2^24 - 1 bytes in one chunk each are 2^31 + 11 bytes: in one
-- call nothing of them is parsed.
theorem round_trip_stalls :
    ¬ ∀ (size : Nat) (messages : List OutMessage), 0 < size → size < 2147483648 →
      (∀ message ∈ messages, PlainMessage message) → HeadersFit (buildAll (.fresh size) messages) →
      (receive (.idle (.withChunkSize size)) [(buildAll (.fresh size) messages).sendingBuffers.flatten]).messages =
          messages.map OutMessage.arrived ∧
        (receive (.idle (.withChunkSize size))
          [(buildAll (.fresh size) messages).sendingBuffers.flatten]).buf = [] := by
  intro claimed
  obtain ⟨n, exactly⟩ : ∃ n, n = 16777215 := ⟨_, rfl⟩
  obtain ⟨tail, flat, length, current, errors, _, _⟩ := long_messages n 16777216 127 (by omega)
  have plain : ∀ message ∈ List.replicate (127 + 1) (longMessage n), PlainMessage message := by
    intro message inList
    rw [List.eq_of_mem_replicate inList]
    refine ⟨⟨rfl, (by decide : 2 ≤ 3), (by decide : 3 < 65600), ?_, List.length_replicate⟩, ?_,
      (by decide : (8 : UInt8) ≠ 1), (by decide : (0 : UInt32) < 0xFFFFFF)⟩
    · change 0 < n
      omega
    · change n < 16777216
      omega
  have size : (3 :: tail : Bytes).length = 2147483659 := by
    rw [List.length_cons, length]
    omega
  have basic : readBasicHeader (3 :: tail : Bytes).length (3 :: tail) = .ok ⟨.fmt0, 3, 1⟩ :=
    basic_header_extends [3] tail ⟨.fmt0, 3, 1⟩ (by decide)
  have stalls := parse_message_stalls (.withChunkSize (16777216 : Nat)) (3 :: tail) _ basic rfl
    (by dsimp only; omega) (by omega)
  have unread := (claimed 16777216 _ (by decide) (by decide) plain ⟨errors, by rw [current]; decide⟩).2
  rw [flat] at unread
  change (arrive (.idle (.withChunkSize (16777216 : Nat))) (3 :: tail)).buf = [] at unread
  rw [arrive, ParseOutcome.idle] at unread
  dsimp only [List.nil_append] at unread
  rw [stalls] at unread
  exact List.cons_ne_nil 3 tail unread

end Lssvc.Mmedia
