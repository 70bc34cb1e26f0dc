import Lssvc.Foundation.Runs
import Lssvc.Mmedia.ChunkBuilder

set_option autoImplicit false

namespace Lssvc.Mmedia

open Lssvc.Foundation

def chunkNodes : List (Bytes × Bytes) → List Bytes
  | [] => []
  | chunk :: chunks => chunk.1 :: chunk.2 :: chunkNodes chunks

def IsHeader (csid : Nat) (header : Bytes) : Prop := ∃ fmt rest, header = basicHeader fmt csid ++ rest

def Chunked (csid : Nat) (payload : Bytes) (nodes : List Bytes) : Prop :=
  ∃ chunks, nodes = chunkNodes chunks ∧ (∀ chunk ∈ chunks, IsHeader csid chunk.1) ∧
    (chunks.map Prod.snd).flatten = payload

def buildStep (out : RtmpOut) (message : OutMessage) : RtmpOut :=
  (buildChunk out message.packet message.timestamp message.fmt0).1

def BuildsAllOrNothing (out : RtmpOut) (message : OutMessage) : Prop :=
  ((buildChunk out message.packet message.timestamp message.fmt0).2 = false ∧
      (buildStep out message).sendingBuffers = out.sendingBuffers ∧
      (buildStep out message).outCurrent = out.outCurrent ∧ (buildStep out message).streams = out.streams) ∨
    ((buildChunk out message.packet message.timestamp message.fmt0).2 = true ∧
      ∃ header nodes, message.packet.ext = some header ∧
        (buildStep out message).sendingBuffers = out.sendingBuffers ++ nodes ∧
        Chunked header.csId message.packet.body nodes)

def BuiltInBounds (out : RtmpOut) (messages : List OutMessage) : Prop :=
  (∀ past rest, messages = past ++ rest → (run buildStep out past).outCurrent ≤ kRtmpBufferSize) ∧
    ∀ pair ∈ met buildStep out messages, BuildsAllOrNothing pair.1 pair.2

def RtmpOut.reset (out : RtmpOut) : RtmpOut := { out with outCurrent := 0, sendingBuffers := [], outSendingPackets := [] }

def firstHeader (header : RtmpMsgHeader) (fmt : RtmpFmt) (carried : UInt32) : Bytes :=
  basicHeader fmt header.csId ++ fieldBytes fmt (timestampField carried) header ++ extendedTimestamp carried

def continuationHeader (csid : Nat) (carried : UInt32) : Bytes := basicHeader .fmt3 csid ++ extendedTimestamp carried

def headerBytes (size : Nat) (s : OutStream) (header : RtmpMsgHeader) (message : OutMessage) : Nat :=
  let (fmt, carried) := chunkFormat s header message.timestamp message.fmt0
  (firstHeader header fmt carried).length +
    continuations size header.msgLen * (continuationHeader header.csId carried).length

def allHeaderBytes (size : Nat) : (Nat → OutStream) → List OutMessage → Nat
  | _, [] => 0
  | streams, message :: messages =>
      match message.packet.ext with
      | none => allHeaderBytes size streams messages
      | some header =>
          headerBytes size (streams header.csId) header message +
            allHeaderBytes size
              (Function.update streams header.csId (sentStream (streams header.csId) header message)) messages

theorem chunk_nodes_injective {left right : List (Bytes × Bytes)} (same : chunkNodes left = chunkNodes right) :
    left = right := by
  induction left generalizing right with
  | nil =>
      cases right with
      | nil => rfl
      | cons chunk right => cases same
  | cons chunk left ih =>
      cases right with
      | nil => cases same
      | cons other right =>
          injection same with header later
          injection later with body rest
          rw [ih rest, Prod.ext header body]

theorem continuation_header_some (csid : Nat) (carried : UInt32) : 0 < (continuationHeader csid carried).length := by
  rw [continuationHeader, basicHeader, List.length_append]
  split
  · exact Nat.lt_of_lt_of_le Nat.zero_lt_one (Nat.le_add_right _ _)
  · split <;> exact Nat.lt_of_lt_of_le (Nat.succ_pos _) (Nat.le_add_right _ _)

theorem more_to_come {parsed msgLen size : Nat} (more : parsed + min (msgLen - parsed) size < msgLen) :
    size < msgLen - parsed ∧ min (msgLen - parsed) size = size := by
  omega

-- The body loop either ends behind the last chunk, or at a continuation header
-- that the area has no room for. The first of its nodes belongs to the header
-- that is there already.
theorem build_body_room (out : RtmpOut) (csid msgLen : Nat) (timestamp : UInt32) (body : Bytes) (bytesParsed : Nat)
    (positive : 0 < out.outChunkSize) (whole : body.length = msgLen) :
    ∃ first more, (buildBody out csid msgLen timestamp body bytesParsed).sendingBuffers =
        out.sendingBuffers ++ first :: chunkNodes more ∧ (∀ chunk ∈ more, IsHeader csid chunk.1) ∧
      ((first ++ (more.map Prod.snd).flatten = body.drop bytesParsed ∧
          (buildBody out csid msgLen timestamp body bytesParsed).outCurrent = out.outCurrent +
            continuations out.outChunkSize (msgLen - bytesParsed) * (continuationHeader csid timestamp).length) ∨
        ((first ++ (more.map Prod.snd).flatten).length < (body.drop bytesParsed).length ∧
          kRtmpBufferSize < out.outCurrent +
            continuations out.outChunkSize (msgLen - bytesParsed) * (continuationHeader csid timestamp).length)) := by
  have some' := continuation_header_some csid timestamp
  fun_induction buildBody out csid msgLen timestamp body bytesParsed with
  | case1 out bytesParsed size sent more full =>
      have left : out.outChunkSize < msgLen - bytesParsed := by omega
      refine ⟨(body.drop bytesParsed).take size, [], rfl, List.forall_mem_nil _, .inr ⟨?_, ?_⟩⟩
      · simp only [List.map_nil, List.flatten_nil, List.append_nil, List.length_take, List.length_drop]
        omega
      · rw [continuations, continuations_more _ _ positive left, Nat.add_one_mul]
        omega
  | case2 out bytesParsed size sent more room ih =>
      obtain ⟨left, cut⟩ : out.outChunkSize < msgLen - bytesParsed ∧ size = out.outChunkSize := more_to_come more
      obtain ⟨first, later, nodes, headers, outcome⟩ := ih positive
      have count : continuations out.outChunkSize (msgLen - bytesParsed) =
          continuations out.outChunkSize (msgLen - (bytesParsed + size)) + 1 := by
        rw [cut, ← Nat.sub_sub]
        exact continuations_more _ _ positive left
      have split : (body.drop bytesParsed).take size ++ body.drop (bytesParsed + size) = body.drop bytesParsed := by
        rw [← List.drop_drop]
        exact List.take_append_drop _ _
      refine ⟨(body.drop bytesParsed).take size, (continuationHeader csid timestamp, first) :: later, ?_, ?_, ?_⟩
      · rw [nodes]
        simp [sent, RtmpOut.putHeader, RtmpOut.putBody, chunkNodes, continuationHeader]
      · exact List.forall_mem_cons.mpr ⟨⟨.fmt3, _, rfl⟩, headers⟩
      · have moved : (sent.putHeader (basicHeader .fmt3 csid ++ extendedTimestamp timestamp)).outCurrent =
            out.outCurrent + (continuationHeader csid timestamp).length := rfl
        have sameSize : (sent.putHeader (basicHeader .fmt3 csid ++ extendedTimestamp timestamp)).outChunkSize =
            out.outChunkSize := rfl
        rw [moved, sameSize] at outcome
        have gathered : (((continuationHeader csid timestamp, first) :: later).map Prod.snd).flatten =
            first ++ (later.map Prod.snd).flatten := rfl
        rw [gathered, count, Nat.add_one_mul]
        rcases outcome with ⟨all, current⟩ | ⟨few, full⟩
        · refine .inl ⟨?_, ?_⟩
          · rw [all, split]
          · rw [current]
            omega
        · refine .inr ⟨?_, ?_⟩
          · have lengths := congrArg List.length split
            rw [List.length_append] at lengths ⊢
            omega
          · omega
  | case3 out bytesParsed size sent done =>
      have last : msgLen - bytesParsed ≤ out.outChunkSize := by omega
      have all : (body.drop bytesParsed).take size = body.drop bytesParsed := by
        rw [List.take_of_length_le]
        rw [List.length_drop]
        omega
      refine ⟨body.drop bytesParsed, [], ?_, List.forall_mem_nil _, .inl ⟨List.append_nil _, ?_⟩⟩
      · rw [← all]
        rfl
      · rw [continuations, continuations_last _ _ positive last, Nat.zero_mul]
        rfl

theorem build_chunk_ext (out : RtmpOut) (message : OutMessage) (header : RtmpMsgHeader)
    (ext : message.packet.ext = some header) :
    buildChunk out message.packet message.timestamp message.fmt0 =
      (buildBody (beginMessage out message.packet header
          (chunkFormat (out.streams header.csId) header message.timestamp message.fmt0).1
          (chunkFormat (out.streams header.csId) header message.timestamp message.fmt0).2) header.csId header.msgLen
        (chunkFormat (out.streams header.csId) header message.timestamp message.fmt0).2 message.packet.body 0, true) := by
  rw [buildChunk, ext]

theorem begin_message_room (out : RtmpOut) (packet : Packet) (header : RtmpMsgHeader) (fmt : RtmpFmt)
    (carried : UInt32) :
    (beginMessage out packet header fmt carried).outCurrent =
        out.outCurrent + (firstHeader header fmt carried).length ∧
      (beginMessage out packet header fmt carried).sendingBuffers =
        out.sendingBuffers ++ [firstHeader header fmt carried] ∧
      (beginMessage out packet header fmt carried).outChunkSize = out.outChunkSize := ⟨rfl, rfl, rfl⟩

theorem build_step_room (out : RtmpOut) (message : OutMessage) (header : RtmpMsgHeader)
    (ext : message.packet.ext = some header) (positive : 0 < out.outChunkSize)
    (whole : message.packet.body.length = header.msgLen) :
    (BuildsAllOrNothing out message ∧ (buildStep out message).outCurrent =
        out.outCurrent + headerBytes out.outChunkSize (out.streams header.csId) header message) ∨
      (¬ BuildsAllOrNothing out message ∧
        kRtmpBufferSize < out.outCurrent + headerBytes out.outChunkSize (out.streams header.csId) header message) := by
  have built := build_chunk_ext out message header ext
  rw [headerBytes]
  rw [BuildsAllOrNothing, buildStep, built]
  generalize chunkFormat (out.streams header.csId) header message.timestamp message.fmt0 = format
  obtain ⟨fmt, carried⟩ := format
  dsimp only
  obtain ⟨current, buffers, sameSize⟩ := begin_message_room out message.packet header fmt carried
  obtain ⟨first, more, nodes, headers, outcome⟩ := build_body_room
    (beginMessage out message.packet header fmt carried) header.csId header.msgLen carried message.packet.body 0
    (sameSize ▸ positive) whole
  have appended : (buildBody (beginMessage out message.packet header fmt carried) header.csId header.msgLen carried
      message.packet.body 0).sendingBuffers =
        out.sendingBuffers ++ chunkNodes ((firstHeader header fmt carried, first) :: more) := by
    rw [nodes, buffers, List.append_assoc]
    rfl
  rw [current, sameSize, Nat.sub_zero, List.drop_zero, Nat.add_assoc] at outcome
  rcases outcome with ⟨all, room⟩ | ⟨few, full⟩
  · refine .inl ⟨.inr ⟨rfl, header, _, ext, appended, _, rfl, ?_, all⟩, room⟩
    refine List.forall_mem_cons.mpr ⟨⟨fmt, fieldBytes fmt (timestampField carried) header ++ extendedTimestamp carried, ?_⟩,
      headers⟩
    rw [firstHeader, List.append_assoc]
  · refine .inr ⟨?_, full⟩
    rintro (⟨impossible, _⟩ | ⟨_, other, listed, same, nodes', chunks, split, _, together⟩)
    · cases impossible
    · have both := List.append_cancel_left (appended.symm.trans nodes')
      rw [← chunk_nodes_injective (both.trans split)] at together
      rw [← together] at few
      exact absurd few (Nat.lt_irrefl _)

theorem built_in_bounds_cons (out : RtmpOut) (message : OutMessage) (messages : List OutMessage) :
    BuiltInBounds out (message :: messages) ↔
      out.outCurrent ≤ kRtmpBufferSize ∧ BuildsAllOrNothing out message ∧
        BuiltInBounds (buildStep out message) messages := by
  constructor
  · rintro ⟨room, calls⟩
    refine ⟨room [] _ rfl, calls (out, message) List.mem_cons_self, ?_, ?_⟩
    · intro past rest cut
      exact room (message :: past) rest (by rw [cut]; rfl)
    · intro pair inside
      exact calls pair (List.mem_cons_of_mem _ inside)
  · rintro ⟨here, call, room, calls⟩
    refine ⟨?_, List.forall_mem_cons.mpr ⟨call, calls⟩⟩
    intro past rest cut
    cases past with
    | nil => exact here
    | cons first past =>
        injection cut with same later
        subst same
        exact room past rest later

theorem built_from_iff (out : RtmpOut) (positive : 0 < out.outChunkSize) (messages : List OutMessage)
    (whole : ∀ message ∈ messages, ∀ header, message.packet.ext = some header →
      message.packet.body.length = header.msgLen) :
    BuiltInBounds out messages ↔
      out.outCurrent + allHeaderBytes out.outChunkSize out.streams messages ≤ kRtmpBufferSize := by
  induction messages generalizing out with
  | nil =>
      constructor
      · rintro ⟨room, _⟩
        exact room [] [] rfl
      · intro fits
        refine ⟨?_, List.forall_mem_nil _⟩
        intro past rest cut
        obtain ⟨rfl, rfl⟩ := List.append_eq_nil_iff.mp cut.symm
        exact fits
  | cons message messages ih =>
      obtain ⟨wholeHere, wholeLater⟩ := List.forall_mem_cons.mp whole
      rw [built_in_bounds_cons, allHeaderBytes]
      cases ext : message.packet.ext with
      | none =>
          have same : buildStep out message = out := by rw [buildStep, buildChunk, ext]
          have nothing : BuildsAllOrNothing out message := by
            rw [BuildsAllOrNothing, same]
            exact .inl ⟨by rw [buildChunk, ext], rfl, rfl, rfl⟩
          rw [same, ih out positive wholeLater]
          constructor
          · exact fun all => all.2.2
          · exact fun fits => ⟨Nat.le_trans (Nat.le_add_right _ _) fits, nothing, fits⟩
      | some header =>
          dsimp only
          obtain ⟨streams, sameSize⟩ := build_chunk_sent out message header ext
          rcases build_step_room out message header ext positive (wholeHere header ext) with
            ⟨complete, current⟩ | ⟨cut, full⟩
          · have later := ih (buildStep out message) (by rw [buildStep, sameSize]; exact positive) wholeLater
            rw [current, buildStep, streams, sameSize, Nat.add_assoc] at later
            constructor
            · exact fun all => later.mp all.2.2
            · exact fun fits => ⟨Nat.le_trans (Nat.le_add_right _ _) fits, complete, later.mpr fits⟩
          · constructor
            · exact fun all => absurd all.2.1 cut
            · intro fits
              exact absurd full (by omega)

theorem built_in_bounds_iff (out : RtmpOut) (positive : 0 < out.outChunkSize) (messages : List OutMessage)
    (whole : ∀ message ∈ messages, ∀ header, message.packet.ext = some header →
      message.packet.body.length = header.msgLen ∧ header.msgLen < 16777216) :
    BuiltInBounds out.reset messages ↔ allHeaderBytes out.outChunkSize out.streams messages ≤ kRtmpBufferSize := by
  have reset := built_from_iff out.reset positive messages fun message inside header ext =>
    (whole message inside header ext).1
  rw [reset]
  exact iff_of_eq (congrArg (· ≤ kRtmpBufferSize) (Nat.zero_add _))

def audioMessage (csid msgLen : Nat) : OutMessage :=
  { packet :=
      { capacity := msgLen
        body := List.replicate msgLen 0
        ext := some { csId := csid, msgLen := msgLen, msgType := 8 } }
    timestamp := 0
    fmt0 := true }

def threeMessages : List OutMessage := [audioMessage 3 300, audioMessage 4 129, audioMessage 3 1000]

theorem built_in_bounds_three :
    0 < (RtmpOut.fresh 128).outChunkSize ∧
      (∀ message ∈ threeMessages, ∀ header, message.packet.ext = some header →
        message.packet.body.length = header.msgLen ∧ header.msgLen < 16777216) ∧
      BuiltInBounds (RtmpOut.fresh 128).reset threeMessages := by
  have whole : ∀ message ∈ threeMessages, ∀ header, message.packet.ext = some header →
      message.packet.body.length = header.msgLen ∧ header.msgLen < 16777216 := by
    intro message inside header ext
    simp only [threeMessages, List.mem_cons, List.not_mem_nil, or_false] at inside
    rcases inside with rfl | rfl | rfl <;> cases ext <;> exact ⟨List.length_replicate, by decide⟩
  refine ⟨by decide, whole, (built_in_bounds_iff (.fresh 128) (by decide) threeMessages whole).mpr ?_⟩
  decide +kernel

-- The headers of 4096 chunks do not fit, and buildChunk returns true behind the
-- 4085th.
theorem large_message_cut : ¬ BuiltInBounds (RtmpOut.fresh kRtmpBufferSize).reset [audioMessage 3 16777215] := by
  intro built
  have whole : ∀ message ∈ [audioMessage 3 16777215], ∀ header, message.packet.ext = some header →
      message.packet.body.length = header.msgLen := by
    intro message inside header ext
    cases List.mem_singleton.mp inside
    cases ext
    exact List.length_replicate
  have fits : 0 + (12 + continuations kRtmpBufferSize 16777215 * 1) ≤ kRtmpBufferSize :=
    (built_from_iff _ (by decide) _ whole).mp built
  exact absurd fits (by decide)

end Lssvc.Mmedia
