import Lssvc.Mmedia.ChunkRoundTrip

set_option autoImplicit false

namespace Lssvc.Mmedia

open Lssvc.Foundation

-- The receiver gets the absolute timestamp 0xFFFFFF out of an extended format 0
-- header, and adds the swapped field to what it has for every other chunk that
-- carries one. A format 3 chunk takes `extended` from the last header that was
-- sent with a field of its own.
def Timely (size : Nat) (o : OutStream) (extended : Bool) (message : OutMessage) : Prop :=
  let (fmt, carried) := chunkFormat o message.header message.timestamp message.fmt0
  message.header.msgLen < 16777216 ∧
    if 0xFFFFFF ≤ carried then
      (if fmt = .fmt0 then 0xFFFFFF else swapBytes carried) +
        UInt32.ofNat (continuations size message.header.msgLen) * swapBytes carried = carried
    else ¬ (fmt = .fmt3 ∧ extended = true)

def sendsExtended (o : OutStream) (message : OutMessage) : Bool :=
  decide (0xFFFFFF ≤ (chunkFormat o message.header message.timestamp message.fmt0).2)

def afterSending (streams : Nat → OutStream) (message : OutMessage) : Nat → OutStream :=
  Function.update streams message.header.csId
    (sentStream (streams message.header.csId) message.header message)

def AllTimely (size : Nat) : (Nat → OutStream) → Bool → List OutMessage → Prop
  | _, _, [] => True
  | streams, extended, message :: messages =>
      Timely size (streams message.header.csId) extended message ∧
        AllTimely size (afterSending streams message) (sendsExtended (streams message.header.csId) message) messages

def allKinds (size : Nat) : (Nat → OutStream) → List OutMessage → List (RtmpFmt × Bool)
  | _, [] => []
  | streams, message :: messages =>
      sentKinds size (streams message.header.csId) message.header message ++
        allKinds size (afterSending streams message) messages

def SameMessages (outputs : List Chunk) (messages : List OutMessage) : Prop :=
  (outputs.filterMap Chunk.delivered).map (fun pkt => (pkt.body, pkt.timestamp)) =
    messages.map (fun message => (message.packet.body, message.timestamp.toNat))

def SameFields (size : Nat) (streams : Nat → OutStream) (outputs : List Chunk) (messages : List OutMessage) : Prop :=
  outputs.map Chunk.kind = allKinds size streams messages

structure StreamMessage (size csid : Nat) (message : OutMessage) : Prop where
  sendable : Sendable message message.header
  stream : message.header.csId = csid
  kept : KeepsChunkSize size message message.header

theorem added_iff (sum prev timestamp : UInt32) : sum + prev = timestamp ↔ sum = timestamp - prev := by
  constructor
  · rintro rfl
    exact (UInt32.add_sub_cancel sum prev).symm
  · rintro rfl
    exact timestamp_restored timestamp prev

theorem received_timestamp_iff (size : Nat) (o : OutStream) (message : OutMessage) (fmt : RtmpFmt)
    (carried : UInt32) (chosen : chunkFormat o message.header message.timestamp message.fmt0 = (fmt, carried))
    (small : message.header.msgLen < 16777216) (large : 0xFFFFFF ≤ carried) :
    receivedTimestamp size o message.header message = message.timestamp ↔
      (if fmt = .fmt0 then 0xFFFFFF else swapBytes carried) +
        UInt32.ofNat (continuations size message.header.msgLen) * swapBytes carried = carried := by
  rw [receivedTimestamp, chosen]
  simp only [large, if_true, firstTimestamp, Nat.mod_eq_of_lt small]
  rcases chunk_format_cases o message.header message.timestamp message.fmt0 with
    first | ⟨prev, previous, _, _, others⟩
  · obtain ⟨rfl, rfl⟩ := Prod.mk.inj (chosen.symm.trans first)
    simp only [if_true]
    rw [UInt32.add_comm]
  · have notFirst : fmt ≠ .fmt0 ∧ carried = message.timestamp - prev.timestamp := by
      rcases others with second | ⟨_, _, third | ⟨fourth, _⟩⟩
      · obtain ⟨rfl, rfl⟩ := Prod.mk.inj (chosen.symm.trans second)
        exact ⟨by decide, rfl⟩
      · obtain ⟨rfl, rfl⟩ := Prod.mk.inj (chosen.symm.trans third)
        exact ⟨by decide, rfl⟩
      · obtain ⟨rfl, rfl⟩ := Prod.mk.inj (chosen.symm.trans fourth)
        exact ⟨by decide, rfl⟩
    obtain ⟨notFmt0, delta⟩ := notFirst
    simp only [notFmt0, if_false, previous, Option.getD_some]
    rw [← UInt32.add_assoc, UInt32.add_comm _ (swapBytes carried), added_iff, ← delta]

-- The next chunk is of format 3 and the receiver expects a field the sender did
-- not write: whatever it takes, it takes for an extended chunk.
theorem fmt3_taken (st next : RtmpIn) (csid : Nat) (low : 2 ≤ csid) (high : csid < 65600) (front stream : Bytes)
    (isFront : front <+: basicHeader .fmt3 csid ++ stream) (used : Nat) (chunk : Chunk)
    (taken : chunkScanner.step st front = .take next used chunk) :
    chunk.kind = (.fmt3, (st.streams csid).ext) := by
  obtain ⟨_, parsed, _⟩ := chunk_step_taken st next front used chunk taken
  obtain ⟨h, s, pos, headerRead, extendedRead, copied⟩ := parse_chunk_taken st next front.length front chunk parsed
  obtain ⟨_, _, finished⟩ := copy_body_taken st next front.length front h s pos chunk copied
  obtain ⟨sameHeader, sameExt, _⟩ := finish_chunk_record st next front h s pos _ chunk finished
  have header : h.fmt = .fmt3 ∧ h.csid = csid := by
    rw [readChunkHeader] at headerRead
    split at headerRead
    · cases headerRead
    · rename_i basic basicRead
      obtain ⟨more, whole⟩ := isFront
      have extends' := basic_header_extends front more basic basicRead
      rw [whole, basic_header_read .fmt3 csid stream low high] at extends'
      cases extends'
      dsimp only at headerRead
      split at headerRead
      · cases headerRead
      · split at headerRead
        · cases headerRead
        · cases headerRead
          exact ⟨rfl, rfl⟩
  have ext : s.ext = (startChunk st.inChunkSize h (st.streams h.csid)).ext := by
    rw [readExtended] at extendedRead
    repeat' split at extendedRead
    all_goals cases extendedRead
    · exact apply_extended_ext _ _ _
    · rfl
  rw [Chunk.kind, sameHeader, sameExt, ext, header.1, header.2]
  simp [startChunk, header.1]

theorem delivered_pair (packet : InPacket) (message : OutMessage) :
    (packet.complete.body, packet.complete.timestamp) = (message.packet.body, message.timestamp.toNat) ↔
      packet.body = message.packet.body ∧ packet.header.timestamp = message.timestamp := by
  rw [Prod.mk.injEq, ← UInt32.toNat_inj]
  rfl

theorem timely_iff (size : Nat) (o : OutStream) (extended : Bool) (message : OutMessage) (fmt : RtmpFmt)
    (carried : UInt32) (chosen : chunkFormat o message.header message.timestamp message.fmt0 = (fmt, carried))
    (expected : ¬ (fmt = .fmt3 ∧ extended = true ∧ ¬ 0xFFFFFF ≤ carried)) :
    Timely size o extended message ↔
      message.header.msgLen < 16777216 ∧ receivedTimestamp size o message.header message = message.timestamp := by
  rw [Timely, chosen]
  dsimp only
  refine and_congr_right fun small => ?_
  by_cases large : 0xFFFFFF ≤ carried
  · rw [if_pos large]
    exact (received_timestamp_iff size o message fmt carried chosen small large).symm
  · rw [if_neg large, receivedTimestamp, chosen]
    constructor
    · intro _
      exact if_neg large
    · rintro _ ⟨fmt3, ext⟩
      exact expected ⟨fmt3, ext, large⟩

theorem received_body_iff (size : Nat) (o : OutStream) (message : OutMessage)
    (sendable : Sendable message message.header) :
    (receivedPacket size o message.header message).body = message.packet.body ↔
      message.header.msgLen < 16777216 := by
  change message.packet.body.take (message.header.msgLen % 16777216) = message.packet.body ↔ _
  constructor
  · intro same
    have lengths := congrArg List.length same
    rw [List.length_take, sendable.whole] at lengths
    have positive := sendable.nonempty
    omega
  · intro small
    rw [Nat.mod_eq_of_lt small, List.take_of_length_le (Nat.le_of_eq sendable.whole)]

theorem same_messages_cons (packet : InPacket) (first rest : List Chunk) (message : OutMessage)
    (messages : List OutMessage) (delivered : first.filterMap Chunk.delivered = [packet.complete]) :
    SameMessages (first ++ rest) (message :: messages) ↔
      (packet.body = message.packet.body ∧ packet.header.timestamp = message.timestamp) ∧
        SameMessages rest messages := by
  unfold SameMessages
  rw [List.filterMap_append, delivered, List.singleton_append, List.map_cons, List.map_cons, List.cons.injEq,
    delivered_pair]

theorem unexpected_field (size : Nat) (streams : Nat → OutStream) (message : OutMessage) (messages : List OutMessage)
    (carried : UInt32)
    (chosen : chunkFormat (streams message.header.csId) message.header message.timestamp message.fmt0 =
      (.fmt3, carried)) (notLarge : ¬ 0xFFFFFF ≤ carried) (sendable : Sendable message message.header)
    (st last : RtmpIn) (rest : Bytes) (outputs : List Chunk) (flag : (st.streams message.header.csId).ext = true)
    (chain : Chain chunkScanner 2147483648 st (sentBytes size streams (message :: messages)) last rest outputs) :
    ¬ SameFields size streams outputs (message :: messages) ∧
      ¬ Timely size (streams message.header.csId) true message := by
  constructor
  · intro fields
    rw [SameFields] at fields
    rw [allKinds, sentKinds, chosen] at fields
    cases chain with
    | refl => cases fields
    | take isFront _ taken _ =>
        rw [sentBytes, messageBytes, chosen] at isFront
        simp only [List.append_assoc] at isFront
        have kind := fmt3_taken st _ message.header.csId sendable.low sendable.high _ _ isFront _ _ taken
        rw [List.map_cons, kind, flag] at fields
        simp [notLarge] at fields
  · intro timely
    rw [Timely] at timely
    rw [chosen] at timely
    dsimp only at timely
    rw [if_neg notLarge] at timely
    exact absurd ⟨rfl, rfl⟩ timely.2

theorem extended_chain_iff (size csid : Nat) (positive : 0 < size) (messages : List OutMessage)
    (valid : ∀ message ∈ messages, StreamMessage size csid message) (streams : Nat → OutStream) (extended : Bool)
    (st last next : RtmpIn) (rest : Bytes) (outputs : List Chunk) (sound : Sound st) (sameSize : st.inChunkSize = size)
    (agrees : Agrees (streams csid) (st.streams csid)) (flag : (st.streams csid).ext = extended)
    (chain : Chain chunkScanner 2147483648 st (sentBytes size streams messages) last rest outputs)
    (short : rest.length < 2147483648) (waits : chunkScanner.step last rest = .wait next) :
    SameMessages outputs messages ∧ SameFields size streams outputs messages ↔
      AllTimely size streams extended messages := by
  induction messages generalizing streams extended st outputs with
  | nil =>
      have none : outputs = [] := by
        obtain ⟨front, _⟩ := chain_maximal chunk_scanner_resumable sound (.refl st []) (by decide)
          (chunk_scanner_resumable.emptyWaits st) chain
        exact List.prefix_nil.mp front
      subst none
      exact ⟨fun _ => trivial, fun _ => ⟨rfl, rfl⟩⟩
  | cons message messages ih =>
      obtain ⟨⟨sendable, same, kept⟩, later⟩ := List.forall_mem_cons.mp valid
      subst same
      cases chosen : chunkFormat (streams message.header.csId) message.header message.timestamp message.fmt0 with
      | mk fmt carried =>
          by_cases mismatch : fmt = .fmt3 ∧ extended = true ∧ ¬ 0xFFFFFF ≤ carried
          · obtain ⟨rfl, rfl, notLarge⟩ := mismatch
            obtain ⟨otherFields, untimely⟩ := unexpected_field size streams message messages carried chosen notLarge
              sendable st last rest outputs flag chain
            exact ⟨fun ⟨_, fields⟩ => absurd fields otherFields, fun ⟨timely, _⟩ => absurd timely untimely⟩
          · have expected : fmt = .fmt3 → (st.streams message.header.csId).ext = true → 0xFFFFFF ≤ carried := by
              intro fmt3 ext
              by_contra notLarge
              exact mismatch ⟨fmt3, flag.symm.trans ext, notLarge⟩
            obtain ⟨behind, lastDelta, first, firstChain, sameDelta, kinds, delivered, all⟩ :=
              message_received st size positive sameSize _ message message.header sendable agrees fmt carried chosen
                expected (sentBytes size (afterSending streams message) messages)
            obtain ⟨⟨tail, rfl⟩, tailChain⟩ :=
              chain_maximal chunk_scanner_resumable sound chain short waits firstChain
            rw [List.drop_left] at tailChain
            rw [AllTimely, timely_iff size _ extended message fmt carried chosen mismatch,
              same_messages_cons _ first tail message messages delivered, received_body_iff size _ message sendable]
            by_cases arrives : message.header.msgLen < 16777216 ∧
                receivedTimestamp size (streams message.header.csId) message.header message = message.timestamp
            · obtain ⟨small, timely⟩ := arrives
              have packet := received_packet_exact size _ message message.header sendable small timely
              rw [all small, message_complete_kept size message message.header kept _ (by rw [packet]) (by rw [packet])
                (st.put message.header.csId (receivedStream size (streams message.header.csId) message.header message
                  lastDelta (decide (0xFFFFFF ≤ carried)))) sameSize] at tailChain firstChain
              have after := agrees_after size _ message message.header sendable small timely fmt carried lastDelta chosen
                sameDelta
              have rest_iff := ih later (afterSending streams message)
                (sendsExtended (streams message.header.csId) message) _ tail
                (chain_valid chunk_scanner_resumable firstChain sound) sameSize
                (by rw [put_same, afterSending, Function.update_self]; exact after)
                (by rw [put_same, sendsExtended, chosen]; rfl) tailChain
              have fields : SameFields size streams (first ++ tail) (message :: messages) ↔
                  SameFields size (afterSending streams message) tail messages := by
                unfold SameFields
                rw [allKinds, List.map_append, kinds small, List.append_cancel_left_eq]
              rw [fields, ← rest_iff]
              have header : (receivedPacket size (streams message.header.csId) message.header message).header.timestamp =
                  message.timestamp := by rw [packet]
              constructor
              · rintro ⟨⟨_, sameTail⟩, fieldsTail⟩
                exact ⟨⟨small, timely⟩, sameTail, fieldsTail⟩
              · rintro ⟨_, sameTail, fieldsTail⟩
                exact ⟨⟨⟨small, header⟩, sameTail⟩, fieldsTail⟩
            · constructor
              · rintro ⟨⟨same, _⟩, _⟩
                exact absurd same arrives
              · rintro ⟨timely, _⟩
                exact absurd timely arrives

theorem extended_timestamps_iff (size csid : Nat) (positive : 0 < size) (high : size < 2147483648)
    (messages : List OutMessage) (valid : ∀ message ∈ messages, StreamMessage size csid message)
    (fit : HeadersFit (buildAll (.fresh size) messages)) (pieces : List Bytes)
    (cut : pieces.flatten = (buildAll (.fresh size) messages).sendingBuffers.flatten)
    (small : CallsSmall (.idle (.withChunkSize size)) pieces) :
    SameMessages ((receive (.idle (.withChunkSize size)) pieces).passes.map LoopPass.chunk) messages ∧
        SameFields size (RtmpOut.fresh size).streams
          ((receive (.idle (.withChunkSize size)) pieces).passes.map LoopPass.chunk) messages ↔
      AllTimely size (RtmpOut.fresh size).streams false messages := by
  have sound := with_chunk_size_sound size ⟨by omega, by omega⟩
  have stream : pieces.flatten = sentBytes size (RtmpOut.fresh size).streams messages := by
    rw [cut, build_all_stream messages (.fresh size) positive (fun message inList => (valid message inList).sendable)
      fit.1]
    rfl
  obtain ⟨within, fed⟩ := receive_scan pieces (.idle (.withChunkSize size)) sound rfl small
  obtain ⟨last, result, outputs, again, _, chain, emitted, short, waits⟩ :=
    feed_chain chunk_scanner_resumable pieces (.fresh (.withChunkSize size)) (.withChunkSize size) sound
      (show 0 < 2147483648 by decide) (chunk_scanner_resumable.emptyWaits _) within
  have scans := Option.some.inj (fed.symm.trans again)
  have chunks : (receive (.idle (.withChunkSize size)) pieces).passes.map LoopPass.chunk = outputs :=
    (congrArg Scan.outputs scans).trans emitted
  change Chain chunkScanner 2147483648 _ pieces.flatten last result.rest outputs at chain
  rw [stream] at chain
  rw [chunks]
  exact extended_chain_iff size csid positive messages valid (RtmpOut.fresh size).streams false (.withChunkSize size)
    last result.state result.rest outputs sound rfl (fresh_agrees size size csid) rfl chain short waits

def shortMessage (timestamp : UInt32) : OutMessage :=
  ⟨{ capacity := 1, body := [1], ext := some { csId := 3, msgLen := 1, msgType := 8, msgSid := 1 } }, timestamp, false⟩

theorem short_message_stream (size : Nat) (timestamp : UInt32) :
    ∀ message ∈ [shortMessage timestamp], StreamMessage size 3 message := by
  intro message inList
  rw [List.mem_singleton.mp inList]
  refine ⟨⟨rfl, ?_, ?_, ?_, rfl⟩, rfl, ?_⟩
  · exact (by decide : 2 ≤ 3)
  · exact (by decide : 3 < 65600)
  · exact (by decide : 0 < 1)
  · intro chunkSize
    exact absurd chunkSize (by decide : (8 : UInt8) ≠ 1)

def threeBytes (timestamp : UInt32) : OutMessage :=
  ⟨{ capacity := 3, body := [1, 2, 3], ext := some { csId := 3, msgLen := 3, msgType := 8, msgSid := 1 } }, timestamp, false⟩

theorem three_bytes_stream (size : Nat) (timestamp : UInt32) : StreamMessage size 3 (threeBytes timestamp) := by
  refine ⟨⟨rfl, ?_, ?_, ?_, rfl⟩, rfl, ?_⟩
  · exact (by decide : 2 ≤ 3)
  · exact (by decide : 3 < 65600)
  · exact (by decide : 0 < 3)
  · intro chunkSize
    exact absurd chunkSize (by decide : (8 : UInt8) ≠ 1)

def atThreshold : List OutMessage := [shortMessage 0xFFFFFF, threeBytes 1040, threeBytes 1080]

def thresholdPieces : List Bytes :=
  [(buildAll (.fresh 2) atThreshold).sendingBuffers.flatten.take 14,
    (buildAll (.fresh 2) atThreshold).sendingBuffers.flatten.drop 14]

theorem extended_timestamps_threshold :
    SameMessages ((receive (.idle (.withChunkSize 2)) thresholdPieces).passes.map LoopPass.chunk) atThreshold ∧
      (receive (.idle (.withChunkSize 2)) thresholdPieces).passes.length = 5 := by
  have valid : ∀ message ∈ atThreshold, StreamMessage 2 3 message := by
    intro message inList
    simp only [atThreshold, List.mem_cons, List.not_mem_nil, or_false] at inList
    rcases inList with rfl | rfl | rfl
    · exact short_message_stream 2 0xFFFFFF _ (List.mem_singleton_self _)
    · exact three_bytes_stream 2 1040
    · exact three_bytes_stream 2 1080
  have timely : AllTimely 2 (RtmpOut.fresh 2).streams false atThreshold := by
    simp only [AllTimely, atThreshold, Timely]
    decide +kernel
  have arrived := extended_timestamps_iff 2 3 (by decide) (by decide) atThreshold valid (by decide +kernel) thresholdPieces
    (by simp [thresholdPieces]) ⟨by decide +kernel, by decide +kernel, trivial⟩
  exact ⟨(arrived.mpr timely).1, by decide +kernel⟩

-- One millisecond later the receiver still reads 0xFFFFFF.
theorem extended_timestamp_lost :
    ¬ ∀ (size csid : Nat) (messages : List OutMessage), 0 < size → size < 2147483648 →
      (∀ message ∈ messages, StreamMessage size csid message) →
      (∃ message ∈ messages, 0xFFFFFF ≤ message.timestamp) → HeadersFit (buildAll (.fresh size) messages) →
      ∀ pieces : List Bytes, pieces.flatten = (buildAll (.fresh size) messages).sendingBuffers.flatten →
        CallsSmall (.idle (.withChunkSize size)) pieces →
        SameMessages ((receive (.idle (.withChunkSize size)) pieces).passes.map LoopPass.chunk) messages ∧
          SameFields size (RtmpOut.fresh size).streams
            ((receive (.idle (.withChunkSize size)) pieces).passes.map LoopPass.chunk) messages := by
  intro claimed
  have same := (claimed 128 3 [shortMessage 0x1000000] (by decide) (by decide) (short_message_stream 128 0x1000000)
    ⟨_, List.mem_singleton_self _, (by decide : (0xFFFFFF : UInt32) ≤ 0x1000000)⟩ (by decide +kernel)
    [[3, 255, 255, 255, 0, 0, 1, 8, 1, 0, 0, 0, 0, 0, 0, 1, 1]] (by decide +kernel) ⟨by decide, trivial⟩).1
  rw [SameMessages] at same
  revert same
  decide +kernel

end Lssvc.Mmedia
