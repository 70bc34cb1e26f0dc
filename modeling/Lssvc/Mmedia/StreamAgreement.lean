import Lssvc.Mmedia.ChunkReception

set_option autoImplicit false

namespace Lssvc.Mmedia

open Lssvc.Foundation

-- Between two messages the receiver remembers of a chunk stream what the sender
-- does. The deltas are only compared where the next fmt3 chunk would use them:
-- a stream whose last field was extended takes its delta from the next one.
structure Agrees (o : OutStream) (i : InStream) : Prop where
  prev : i.prev = o.prev
  packet : i.packet = none
  delta : i.ext = false → i.delta = o.delta
  extended : 0xFFFFFF ≤ o.delta → i.ext = true
  lengths : ∀ prev, o.prev = some prev → 0 < prev.msgLen ∧ prev.msgLen < 16777216

-- The four bytes of a value written in the host's order and read in the network's.
def swapBytes (val : UInt32) : UInt32 := UInt32.ofNat (readUint32T (storeUint32 val.toNat))

theorem chunk_format_cases (s : OutStream) (header : RtmpMsgHeader) (timestamp : UInt32) (fmt0 : Bool) :
    chunkFormat s header timestamp fmt0 = (.fmt0, timestamp) ∨
    ∃ prev, s.prev = some prev ∧ prev.timestamp ≤ timestamp ∧ header.msgSid = prev.msgSid ∧
      (chunkFormat s header timestamp fmt0 = (.fmt1, timestamp - prev.timestamp) ∨
        (header.msgType = prev.msgType ∧ header.msgLen = prev.msgLen ∧
          (chunkFormat s header timestamp fmt0 = (.fmt2, timestamp - prev.timestamp) ∨
            (chunkFormat s header timestamp fmt0 = (.fmt3, timestamp - prev.timestamp) ∧
              timestamp - prev.timestamp = s.delta)))) := by
  rw [chunkFormat]
  cases previous : s.prev with
  | none => exact .inl rfl
  | some prev =>
      dsimp only
      split
      · rename_i used
        refine .inr ⟨prev, rfl, used.2.1, used.2.2, ?_⟩
        split
        · rename_i same
          refine .inr ⟨same.1, same.2, ?_⟩
          split
          · rename_i equal
            exact .inr ⟨rfl, equal⟩
          · exact .inl rfl
        · exact .inl rfl
      · exact .inl rfl

theorem timestamp_field_small (timestamp : UInt32) : (timestampField timestamp).toNat < 16777216 := by
  rw [timestampField]
  split
  · decide
  · rename_i notLarge
    have bound : timestamp.toNat ≤ (0xFFFFFF : UInt32).toNat := UInt32.le_iff_toNat_le.mp (UInt32.not_lt.mp notLarge)
    exact Nat.lt_succ_of_le bound

theorem timestamp_field_extended (timestamp : UInt32) :
    timestampField timestamp = 0xFFFFFF ↔ 0xFFFFFF ≤ timestamp := by
  rw [timestampField]
  split
  · rename_i large
    exact ⟨fun _ => UInt32.le_of_lt large, fun _ => rfl⟩
  · rename_i notLarge
    constructor
    · intro equal
      rw [equal]
      exact UInt32.le_refl _
    · intro large
      exact UInt32.le_antisymm (UInt32.not_lt.mp notLarge) large

theorem timestamp_field_plain (timestamp : UInt32) (plain : ¬ 0xFFFFFF ≤ timestamp) :
    timestampField timestamp = timestamp := by
  rw [timestampField]
  rw [if_neg]
  intro large
  exact plain (UInt32.le_of_lt large)

def firstTimestamp (o : OutStream) (fmt : RtmpFmt) (carried timestamp : UInt32) : UInt32 :=
  if 0xFFFFFF ≤ carried then
    if fmt = .fmt0 then 0xFFFFFF else swapBytes carried + (o.prev.getD {}).timestamp
  else timestamp

def openedPacket (header : RtmpMsgHeader) (timestamp : UInt32) : InPacket :=
  { capacity := (header.msgLen % 16777216 : Nat)
    header := { header with timestamp := timestamp, msgLen := header.msgLen % 16777216 } }

theorem extended_timestamp_read (carried : UInt32) (large : 0xFFFFFF ≤ carried) :
    UInt32.ofNat (readUint32T (extendedTimestamp carried)) = swapBytes carried := by
  rw [extendedTimestamp, if_pos ((timestamp_field_extended carried).mpr large), swapBytes]

theorem create_packet_exact (csid msgLen : Nat) (small : msgLen < 16777216) :
    createPacket csid msgLen = { capacity := (msgLen : Int), header := { csId := csid, msgLen := msgLen } } := by
  rw [createPacket, to_int32_exact _ ⟨by omega, by omega⟩]

theorem timestamp_restored (timestamp prev : UInt32) : timestamp - prev + prev = timestamp :=
  UInt32.sub_add_cancel timestamp prev

theorem open_fmt0 (inChunkSize : Int) (o : OutStream) (i : InStream) (header : RtmpMsgHeader) (timestamp : UInt32)
    (agrees : Agrees o i) :
    extendWith .fmt0 (extendedTimestamp timestamp)
        (startChunk inChunkSize (wireHeader .fmt0 header.csId (timestampField timestamp) header) i) =
      ⟨o.prev.getD {}, openedPacket header (firstTimestamp o .fmt0 timestamp timestamp), 0,
        decide (0xFFFFFF ≤ timestamp)⟩ := by
  have exactPacket := create_packet_exact header.csId (header.msgLen % 16777216) (by omega)
  by_cases large : 0xFFFFFF ≤ timestamp
  · have field := (timestamp_field_extended timestamp).mpr large
    simp [extendWith, startChunk, wireHeader, firstLength, updateHeader, updateDelta, applyExtended, agrees.prev,
      agrees.packet, exactPacket, field, large, openedPacket, firstTimestamp]
  · have field := timestamp_field_plain timestamp large
    have plain : timestamp ≠ 0xFFFFFF := fun equal => large (equal ▸ UInt32.le_refl _)
    simp [extendWith, startChunk, wireHeader, firstLength, updateHeader, updateDelta, agrees.prev,
      agrees.packet, exactPacket, field, large, plain, openedPacket, firstTimestamp]

theorem open_fmt1 (inChunkSize : Int) (o : OutStream) (i : InStream) (header prev : RtmpMsgHeader)
    (timestamp carried : UInt32) (agrees : Agrees o i) (previous : o.prev = some prev)
    (delta : carried = timestamp - prev.timestamp) (sid : header.msgSid = prev.msgSid) :
    extendWith .fmt1 (extendedTimestamp carried)
        (startChunk inChunkSize (wireHeader .fmt1 header.csId (timestampField carried) header) i) =
      ⟨o.prev.getD {}, openedPacket header (firstTimestamp o .fmt1 carried timestamp),
        if 0xFFFFFF ≤ carried then swapBytes carried else carried, decide (0xFFFFFF ≤ carried)⟩ := by
  have exactPacket := create_packet_exact header.csId (header.msgLen % 16777216) (by omega)
  have restored : carried + prev.timestamp = timestamp := by rw [delta, timestamp_restored]
  by_cases large : 0xFFFFFF ≤ carried
  · have field := (timestamp_field_extended carried).mpr large
    have read := extended_timestamp_read carried large
    simp [extendWith, startChunk, wireHeader, firstLength, updateHeader, applyExtended, agrees.prev,
      agrees.packet, previous, exactPacket, field, large, read, sid, openedPacket, firstTimestamp]
  · have field := timestamp_field_plain carried large
    have plain : carried ≠ 0xFFFFFF := fun equal => large (equal ▸ UInt32.le_refl _)
    simp [extendWith, startChunk, wireHeader, firstLength, updateHeader, updateDelta, agrees.prev,
      agrees.packet, previous, exactPacket, field, large, plain, sid, restored, openedPacket, firstTimestamp]

-- The two formats without a length of their own take it from prev, where it is
-- never zero, so the packet is not sized by the chunk size.
theorem open_fmt2 (inChunkSize : Int) (o : OutStream) (i : InStream) (header prev : RtmpMsgHeader)
    (timestamp carried : UInt32) (agrees : Agrees o i) (previous : o.prev = some prev)
    (delta : carried = timestamp - prev.timestamp) (sid : header.msgSid = prev.msgSid)
    (type : header.msgType = prev.msgType) (length : header.msgLen = prev.msgLen) :
    extendWith .fmt2 (extendedTimestamp carried)
        (startChunk inChunkSize (wireHeader .fmt2 header.csId (timestampField carried) header) i) =
      ⟨o.prev.getD {}, openedPacket header (firstTimestamp o .fmt2 carried timestamp),
        if 0xFFFFFF ≤ carried then swapBytes carried else carried, decide (0xFFFFFF ≤ carried)⟩ := by
  obtain ⟨positive, small⟩ := agrees.lengths prev previous
  have exactPacket := create_packet_exact header.csId prev.msgLen small
  have exactLength : header.msgLen % 16777216 = prev.msgLen := by omega
  have restored : carried + prev.timestamp = timestamp := by rw [delta, timestamp_restored]
  by_cases large : 0xFFFFFF ≤ carried
  · have field := (timestamp_field_extended carried).mpr large
    have read := extended_timestamp_read carried large
    simp [extendWith, startChunk, wireHeader, firstLength, updateHeader, applyExtended, agrees.prev, agrees.packet,
      previous, exactPacket, exactLength, field, large, read, sid, type, openedPacket, firstTimestamp,
      Nat.ne_of_gt positive]
  · have field := timestamp_field_plain carried large
    have plain : carried ≠ 0xFFFFFF := fun equal => large (equal ▸ UInt32.le_refl _)
    simp [extendWith, startChunk, wireHeader, firstLength, updateHeader, updateDelta, agrees.prev, agrees.packet,
      previous, exactPacket, exactLength, field, large, plain, sid, type, restored, openedPacket, firstTimestamp,
      Nat.ne_of_gt positive]

theorem open_fmt3 (inChunkSize : Int) (o : OutStream) (i : InStream) (header prev : RtmpMsgHeader)
    (timestamp carried : UInt32) (agrees : Agrees o i) (previous : o.prev = some prev)
    (delta : carried = timestamp - prev.timestamp) (sid : header.msgSid = prev.msgSid)
    (type : header.msgType = prev.msgType) (length : header.msgLen = prev.msgLen)
    (repeated : carried = o.delta) (expected : i.ext = true → 0xFFFFFF ≤ carried) :
    extendWith .fmt3 (extendedTimestamp carried)
        (startChunk inChunkSize (wireHeader .fmt3 header.csId (timestampField carried) header) i) =
      ⟨o.prev.getD {}, openedPacket header (firstTimestamp o .fmt3 carried timestamp),
        if 0xFFFFFF ≤ carried then swapBytes carried else carried, decide (0xFFFFFF ≤ carried)⟩ := by
  obtain ⟨positive, small⟩ := agrees.lengths prev previous
  have exactPacket := create_packet_exact header.csId prev.msgLen small
  have exactLength : header.msgLen % 16777216 = prev.msgLen := by omega
  have restored : carried + prev.timestamp = timestamp := by rw [delta, timestamp_restored]
  by_cases large : 0xFFFFFF ≤ carried
  · have read := extended_timestamp_read carried large
    have ext := agrees.extended (repeated ▸ large)
    simp [extendWith, startChunk, wireHeader, firstLength, updateHeader, applyExtended, agrees.prev, agrees.packet,
      previous, exactPacket, exactLength, large, read, sid, type, ext, openedPacket, firstTimestamp,
      Nat.ne_of_gt positive]
  · have ext : i.ext = false := by
      cases flag : i.ext with
      | false => rfl
      | true => exact absurd (expected flag) large
    have remembered : i.delta = carried := (agrees.delta ext).trans repeated.symm
    simp [extendWith, startChunk, wireHeader, firstLength, updateHeader, updateDelta, agrees.prev, agrees.packet,
      previous, exactPacket, exactLength, large, sid, type, ext, remembered, restored, openedPacket, firstTimestamp,
      Nat.ne_of_gt positive]

theorem open_message (inChunkSize : Int) (o : OutStream) (i : InStream) (header : RtmpMsgHeader)
    (timestamp : UInt32) (fmt0 : Bool) (agrees : Agrees o i) (fmt : RtmpFmt) (carried : UInt32)
    (chosen : chunkFormat o header timestamp fmt0 = (fmt, carried))
    (expected : fmt = .fmt3 → i.ext = true → 0xFFFFFF ≤ carried) :
    ∃ delta, extendWith fmt (extendedTimestamp carried)
        (startChunk inChunkSize (wireHeader fmt header.csId (timestampField carried) header) i) =
      ⟨o.prev.getD {}, openedPacket header (firstTimestamp o fmt carried timestamp), delta,
        decide (0xFFFFFF ≤ carried)⟩ ∧
      (¬ 0xFFFFFF ≤ carried → delta = (rememberSent o header fmt carried).delta ∧ (timestamp = 0 → delta = 0)) := by
  rcases chunk_format_cases o header timestamp fmt0 with first | ⟨prev, previous, later, sid, others⟩
  · obtain ⟨rfl, rfl⟩ := Prod.mk.inj (chosen.symm.trans first)
    exact ⟨0, open_fmt0 inChunkSize o i header carried agrees, fun _ => ⟨rfl, fun _ => rfl⟩⟩
  · have zero : timestamp = 0 → timestamp - prev.timestamp = 0 := by
      intro none
      rw [none] at later ⊢
      rw [UInt32.le_zero_iff.mp later]
      rfl
    have plainDelta : ¬ 0xFFFFFF ≤ timestamp - prev.timestamp →
        (if 0xFFFFFF ≤ timestamp - prev.timestamp then swapBytes (timestamp - prev.timestamp)
          else timestamp - prev.timestamp) = timestamp - prev.timestamp := fun plain => if_neg plain
    rcases others with second | ⟨type, length, third | ⟨fourth, repeated⟩⟩
    · obtain ⟨rfl, rfl⟩ := Prod.mk.inj (chosen.symm.trans second)
      refine ⟨_, open_fmt1 inChunkSize o i header prev timestamp _ agrees previous rfl sid, fun plain => ?_⟩
      rw [plainDelta plain]
      exact ⟨rfl, zero⟩
    · obtain ⟨rfl, rfl⟩ := Prod.mk.inj (chosen.symm.trans third)
      refine ⟨_, open_fmt2 inChunkSize o i header prev timestamp _ agrees previous rfl sid type length,
        fun plain => ?_⟩
      rw [plainDelta plain]
      exact ⟨rfl, zero⟩
    · obtain ⟨rfl, rfl⟩ := Prod.mk.inj (chosen.symm.trans fourth)
      refine ⟨_, open_fmt3 inChunkSize o i header prev timestamp _ agrees previous rfl sid type length repeated
        (expected rfl), fun plain => ?_⟩
      rw [plainDelta plain]
      exact ⟨repeated, zero⟩

def receivedTimestamp (size : Nat) (o : OutStream) (header : RtmpMsgHeader) (message : OutMessage) : UInt32 :=
  let (fmt, carried) := chunkFormat o header message.timestamp message.fmt0
  if 0xFFFFFF ≤ carried then
    UInt32.ofNat (continuations size (header.msgLen % 16777216)) * swapBytes carried +
      firstTimestamp o fmt carried message.timestamp
  else message.timestamp

def receivedPacket (size : Nat) (o : OutStream) (header : RtmpMsgHeader) (message : OutMessage) : InPacket :=
  { openedPacket header (receivedTimestamp size o header message) with
    body := message.packet.body.take (header.msgLen % 16777216) }

def sentKinds (size : Nat) (o : OutStream) (header : RtmpMsgHeader) (message : OutMessage) : List (RtmpFmt × Bool) :=
  let (fmt, carried) := chunkFormat o header message.timestamp message.fmt0
  (fmt, decide (0xFFFFFF ≤ carried)) ::
    List.replicate (continuations size header.msgLen) (.fmt3, decide (0xFFFFFF ≤ carried))

structure Sendable (message : OutMessage) (header : RtmpMsgHeader) : Prop where
  ext : message.packet.ext = some header
  low : 2 ≤ header.csId
  high : header.csId < 65600
  nonempty : 0 < header.msgLen
  whole : message.packet.body.length = header.msgLen

def receivedStream (size : Nat) (o : OutStream) (header : RtmpMsgHeader) (message : OutMessage) (last : UInt32)
    (ext : Bool) : InStream :=
  ⟨some (receivedPacket size o header message).header, none, last, ext⟩

theorem message_received (st : RtmpIn) (size : Nat) (positive : 0 < size) (sameSize : st.inChunkSize = size)
    (o : OutStream) (message : OutMessage) (header : RtmpMsgHeader) (sendable : Sendable message header)
    (agrees : Agrees o (st.streams header.csId)) (fmt : RtmpFmt) (carried : UInt32)
    (chosen : chunkFormat o header message.timestamp message.fmt0 = (fmt, carried))
    (expected : fmt = .fmt3 → (st.streams header.csId).ext = true → 0xFFFFFF ≤ carried) (more : Bytes) :
    ∃ rest last outputs,
      Chain chunkScanner 2147483648 st (messageBytes size o header message ++ more)
        (messageComplete (receivedPacket size o header message).complete
          (st.put header.csId (receivedStream size o header message last (decide (0xFFFFFF ≤ carried)))))
        rest outputs ∧
      (¬ 0xFFFFFF ≤ carried → last = (sentStream o header message).delta) ∧
      (header.msgLen < 16777216 → outputs.map Chunk.kind = sentKinds size o header message) ∧
      outputs.filterMap Chunk.delivered = [(receivedPacket size o header message).complete] ∧
      (header.msgLen < 16777216 → rest = more) := by
  obtain ⟨delta, opened, plainDelta⟩ := open_message st.inChunkSize o (st.streams header.csId) header
    message.timestamp message.fmt0 agrees fmt carried chosen expected
  have someBytes : fmt = .fmt3 → 0 < header.msgLen % 16777216 := by
    intro fmt3
    rcases chunk_format_cases o header message.timestamp message.fmt0 with
      first | ⟨prev, previous, _, _, second | ⟨_, length, _⟩⟩
    · rw [chosen, fmt3] at first
      cases first
    · rw [chosen, fmt3] at second
      cases second
    · have bounds := agrees.lengths prev previous
      omega
  have fieldLength : (extendedTimestamp carried).length =
      if decide (0xFFFFFF ≤ carried) then 4 else 0 := by
    rw [extendedTimestamp]
    by_cases large : 0xFFFFFF ≤ carried
    · rw [if_pos ((timestamp_field_extended carried).mpr large), decide_eq_true large]
      rfl
    · rw [if_neg (fun field => large ((timestamp_field_extended carried).mp field)), decide_eq_false large]
      rfl
  have packet : (openedPacket header (firstTimestamp o fmt carried message.timestamp)).received
      (decide (0xFFFFFF ≤ carried)) (UInt32.ofNat (readUint32T (extendedTimestamp carried)))
      (message.packet.body.take (header.msgLen % 16777216)) ((header.msgLen % 16777216 - 1) / size) =
        receivedPacket size o header message := by
    simp only [InPacket.received, iterate_advance, receivedPacket, receivedTimestamp, chosen, openedPacket,
      continuations]
    by_cases large : 0xFFFFFF ≤ carried
    · simp [large, extended_timestamp_read carried large]
    · simp [large, firstTimestamp]
  obtain ⟨rest, last, outputs, chain, sameDelta, kinds, delivered, all⟩ :=
    message_chain st header.csId sendable.low sendable.high size positive sameSize fmt (timestampField carried)
      (timestamp_field_small carried) header (extendedTimestamp carried) more message.packet.body _ opened fieldLength
      rfl (header.msgLen % 16777216) rfl (by rw [sendable.whole]; exact Nat.mod_le _ _) (Nat.mod_lt _ (by decide))
      someBytes (fun plain none => by
        have notLarge := of_decide_eq_false plain
        exact (plainDelta notLarge).2 (by simpa [openedPacket, firstTimestamp, notLarge] using none))
  dsimp only at chain sameDelta kinds delivered
  rw [packet] at chain delivered
  refine ⟨rest, last, outputs, ?_, ?_, ?_, delivered, ?_⟩
  · simpa only [messageBytes, chosen, List.append_assoc, receivedStream] using chain
  · intro notLarge
    rw [sameDelta (decide_eq_false notLarge), (plainDelta notLarge).1, sentStream, chosen]
  · intro small
    rw [kinds, Nat.mod_eq_of_lt small, sentKinds, chosen]
    rfl
  · intro small
    exact all (by rw [sendable.whole]; exact Nat.mod_eq_of_lt small)

def KeepsChunkSize (size : Nat) (message : OutMessage) (header : RtmpMsgHeader) : Prop :=
  header.msgType = kRtmpMsgTypeChunkSize → 4 ≤ message.packet.body.length →
    toInt32 (readUint32T message.packet.body) = size

theorem received_packet_exact (size : Nat) (o : OutStream) (message : OutMessage) (header : RtmpMsgHeader)
    (sendable : Sendable message header) (small : header.msgLen < 16777216)
    (timely : receivedTimestamp size o header message = message.timestamp) :
    receivedPacket size o header message =
      ⟨header.msgLen, message.packet.body, { header with timestamp := message.timestamp }⟩ := by
  have exactLength : header.msgLen % 16777216 = header.msgLen := Nat.mod_eq_of_lt small
  have all : message.packet.body.take header.msgLen = message.packet.body := by
    rw [List.take_of_length_le (Nat.le_of_eq sendable.whole)]
  simp only [receivedPacket, openedPacket, timely, exactLength, all]

theorem message_complete_kept (size : Nat) (message : OutMessage) (header : RtmpMsgHeader)
    (kept : KeepsChunkSize size message header) (packet : InPacket) (body : packet.body = message.packet.body)
    (type : packet.header.msgType = header.msgType) (st : RtmpIn) (sameSize : st.inChunkSize = size) :
    messageComplete packet.complete st = st := by
  rw [messageComplete, handleChunkSize]
  split
  · rename_i chunkSize
    split
    · rename_i four
      have announced : header.msgType = kRtmpMsgTypeChunkSize := by
        rw [← type]
        exact UInt8.toNat_inj.mp chunkSize
      have same := kept announced (by rw [← body]; exact four)
      have read : toInt32 (readUint32T packet.complete.body) = st.inChunkSize := by
        rw [sameSize, ← same, ← body]
        rfl
      rw [read]
    · rfl
  · rfl

theorem sent_prev (o : OutStream) (header : RtmpMsgHeader) (message : OutMessage) :
    (sentStream o header message).prev = some { header with timestamp := message.timestamp } := by
  unfold sentStream rememberSent
  rcases chunk_format_cases o header message.timestamp message.fmt0 with
    first | ⟨prev, previous, _, _, second | ⟨_, _, third | ⟨fourth, _⟩⟩⟩
  · simp [first]
  · simp [second, previous, UInt32.add_comm prev.timestamp]
  · simp [third, previous, UInt32.add_comm prev.timestamp]
  · simp [fourth, previous, UInt32.add_comm prev.timestamp]

theorem sent_delta_large (o : OutStream) (header : RtmpMsgHeader) (message : OutMessage) (fmt : RtmpFmt)
    (carried : UInt32) (chosen : chunkFormat o header message.timestamp message.fmt0 = (fmt, carried))
    (large : 0xFFFFFF ≤ (sentStream o header message).delta) : 0xFFFFFF ≤ carried := by
  unfold sentStream rememberSent at large
  rcases chunk_format_cases o header message.timestamp message.fmt0 with
    first | ⟨prev, previous, _, _, second | ⟨_, _, third | ⟨fourth, repeated⟩⟩⟩
  · rw [first] at large
    exact absurd (UInt32.le_zero_iff.mp large) (by decide)
  · obtain ⟨rfl, rfl⟩ := Prod.mk.inj (chosen.symm.trans second)
    rwa [second] at large
  · obtain ⟨rfl, rfl⟩ := Prod.mk.inj (chosen.symm.trans third)
    rwa [third] at large
  · obtain ⟨rfl, rfl⟩ := Prod.mk.inj (chosen.symm.trans fourth)
    rw [fourth] at large
    rw [repeated]
    exact large

theorem agrees_after (size : Nat) (o : OutStream) (message : OutMessage) (header : RtmpMsgHeader)
    (sendable : Sendable message header) (small : header.msgLen < 16777216)
    (timely : receivedTimestamp size o header message = message.timestamp) (fmt : RtmpFmt) (carried last : UInt32)
    (chosen : chunkFormat o header message.timestamp message.fmt0 = (fmt, carried))
    (sameDelta : ¬ 0xFFFFFF ≤ carried → last = (sentStream o header message).delta) :
    Agrees (sentStream o header message)
      (receivedStream size o header message last (decide (0xFFFFFF ≤ carried))) where
  prev := by rw [receivedStream, received_packet_exact size o message header sendable small timely, sent_prev]
  packet := rfl
  delta := fun plain => sameDelta (of_decide_eq_false plain)
  extended := fun large => decide_eq_true (sent_delta_large o header message fmt carried chosen large)
  lengths := by
    rw [sent_prev]
    rintro prev ⟨rfl⟩
    exact ⟨sendable.nonempty, small⟩

end Lssvc.Mmedia
