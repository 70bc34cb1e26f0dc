import Lssvc.Mmedia.HeaderRoom
import Lssvc.Mmedia.OutgoingQueue
import Lssvc.Network.GatherWrite

set_option autoImplicit false

namespace Lssvc.Mmedia

open Lssvc.Foundation Lssvc.Network

-- The kernel's IOV_MAX.
def kIovMax : Nat := 1024

def RtmpSender.batch (ctx : RtmpSender) (frames : List OutMessage) : RtmpSender :=
  { ctx with sending := false, out := buildAll ctx.out.reset frames }.send

def RtmpSender.batchMessages (ctx : RtmpSender) (frames : List OutMessage) : List OutMessage :=
  frames ++ (ctx.outWaitingQueue.take kRtmpSingleMax).map fun pkt => ⟨pkt, 0, false⟩

theorem queued_batch (ctx : RtmpSender) (queued : ctx.outWaitingQueue ≠ []) :
    (contextStep ctx .writeComplete).out = (ctx.batch []).out := by
  rw [contextStep, RtmpSender.checkAndSend]
  dsimp only
  rw [if_pos queued]
  rfl

theorem push_frames_batch (ctx : RtmpSender) (empty : ctx.outWaitingQueue = []) (frames : List OutMessage) :
    (contextStep (contextStep ctx .writeComplete) (.pushFrames frames)).out = (ctx.batch frames).out := by
  have idle : contextStep ctx .writeComplete = { ctx with ioVecList := [], sending := false, out := ctx.out.reset } := by
    rw [contextStep, RtmpSender.checkAndSend]
    dsimp only
    rw [if_neg (not_not.mpr empty)]
    rfl
  rw [idle, contextStep]
  exact (congrArg RtmpSender.out (if_pos rfl)).trans rfl

def vecsOf (addrs : Nat → UInt64) (nodes : List Bytes) : List IoVec :=
  nodes.mapIdx fun i node => ⟨addrs i, UInt64.ofNat node.length⟩

-- Two entries for every chunk, and two for a message without a body.
def entries (message : OutMessage) : Nat :=
  match message.packet.ext with
  | none => 0
  | some header => 2 * (continuations kRtmpBufferSize header.msgLen + 1)

def entriesOf (messages : List OutMessage) : Nat := (messages.map entries).sum

structure Built (before after : RtmpOut) (count starts : Nat) : Prop where
  room : 2 * after.outCurrent + 7 * before.sendingBuffers.length ≤
    2 * before.outCurrent + 7 * after.sendingBuffers.length + 22 * starts
  most : after.sendingBuffers.length ≤ before.sendingBuffers.length + count
  all : after.sendingBuffers.length = before.sendingBuffers.length + count ∨ kRtmpBufferSize ≤ after.outCurrent
  current : before.outCurrent ≤ after.outCurrent
  size : after.outChunkSize = before.outChunkSize

theorem built_refl (out : RtmpOut) : Built out out 0 0 := ⟨Nat.le_refl _, Nat.le_refl _, .inl rfl, Nat.le_refl _, rfl⟩

theorem built_trans {first second third : RtmpOut} {count count' starts starts' : Nat}
    (left : Built first second count starts) (right : Built second third count' starts') :
    Built first third (count + count') (starts + starts') := by
  obtain ⟨room, most, all, current, size⟩ := left
  obtain ⟨room', most', all', current', size'⟩ := right
  refine ⟨by omega, by omega, ?_, Nat.le_trans current current', size'.trans size⟩
  rcases all' with whole' | full
  · rcases all with whole | full
    · exact .inl (by omega)
    · exact .inr (Nat.le_trans full current')
  · exact .inr full

theorem basic_header_most (fmt : RtmpFmt) (csid : Nat) : (basicHeader fmt csid).length ≤ 3 := by
  rw [basicHeader]
  split_ifs
  · exact Nat.le_add_left 1 2
  · exact Nat.le_add_left 2 1
  · exact Nat.le_refl 3

theorem extended_timestamp_most (timestamp : UInt32) : (extendedTimestamp timestamp).length ≤ 4 := by
  rw [extendedTimestamp]
  split_ifs
  · exact Nat.le_refl 4
  · exact Nat.zero_le 4

theorem field_bytes_most (fmt : RtmpFmt) (ts : UInt32) (header : RtmpMsgHeader) : (fieldBytes fmt ts header).length ≤ 11 := by
  cases fmt with
  | fmt0 => exact Nat.le_refl 11
  | fmt1 => exact Nat.le_add_left 7 4
  | fmt2 => exact Nat.le_add_left 3 8
  | fmt3 => exact Nat.zero_le 11

theorem continuation_header_most (csid : Nat) (timestamp : UInt32) :
    (basicHeader .fmt3 csid ++ extendedTimestamp timestamp).length ≤ 7 := by
  rw [List.length_append]
  exact Nat.add_le_add (basic_header_most .fmt3 csid) (extended_timestamp_most timestamp)

theorem first_header_most (header : RtmpMsgHeader) (fmt : RtmpFmt) (carried : UInt32) :
    (firstHeader header fmt carried).length ≤ 18 := by
  have basic := basic_header_most fmt header.csId
  have fields := field_bytes_most fmt (timestampField carried) header
  have extended := extended_timestamp_most carried
  rw [firstHeader, List.length_append, List.length_append]
  omega

structure BuiltBody (before after : RtmpOut) (count : Nat) : Prop where
  room : 2 * after.outCurrent + 7 * (before.sendingBuffers.length + 1) ≤
    2 * before.outCurrent + 7 * after.sendingBuffers.length
  most : after.sendingBuffers.length ≤ before.sendingBuffers.length + 2 * count + 1
  all : after.sendingBuffers.length = before.sendingBuffers.length + 2 * count + 1 ∨ kRtmpBufferSize ≤ after.outCurrent
  current : before.outCurrent ≤ after.outCurrent
  size : after.outChunkSize = before.outChunkSize

theorem build_body_nodes (out : RtmpOut) (csid msgLen : Nat) (timestamp : UInt32) (body : Bytes) (bytesParsed : Nat)
    (positive : 0 < out.outChunkSize) :
    BuiltBody out (buildBody out csid msgLen timestamp body bytesParsed)
      (continuations out.outChunkSize (msgLen - bytesParsed)) := by
  fun_induction buildBody out csid msgLen timestamp body bytesParsed with
  | case1 out bytesParsed size sent more full =>
      have length : sent.sendingBuffers.length = out.sendingBuffers.length + 1 := List.length_append
      refine ⟨?_, ?_, .inr full, Nat.le_refl _, rfl⟩
      · change 2 * out.outCurrent + 7 * (out.sendingBuffers.length + 1) ≤
          2 * out.outCurrent + 7 * sent.sendingBuffers.length
        omega
      · change sent.sendingBuffers.length ≤ _
        omega
  | case2 out bytesParsed size sent more room ih =>
      obtain ⟨left, cut⟩ : out.outChunkSize < msgLen - bytesParsed ∧ size = out.outChunkSize := more_to_come more
      have count : continuations out.outChunkSize (msgLen - bytesParsed) =
          continuations out.outChunkSize (msgLen - (bytesParsed + size)) + 1 := by
        rw [cut, ← Nat.sub_sub]
        exact continuations_more _ _ positive left
      have header := continuation_header_most csid timestamp
      have current : (sent.putHeader (basicHeader .fmt3 csid ++ extendedTimestamp timestamp)).outCurrent =
          out.outCurrent + (basicHeader .fmt3 csid ++ extendedTimestamp timestamp).length := rfl
      have length : (sent.putHeader (basicHeader .fmt3 csid ++ extendedTimestamp timestamp)).sendingBuffers.length =
          out.sendingBuffers.length + 1 + 1 := by
        rw [RtmpOut.putHeader]
        dsimp only
        rw [List.length_append]
        exact congrArg (· + 1) List.length_append
      have sameSize : (sent.putHeader (basicHeader .fmt3 csid ++ extendedTimestamp timestamp)).outChunkSize =
          out.outChunkSize := rfl
      obtain ⟨used, most, all, later, chunk⟩ := ih positive
      rw [sameSize] at most all chunk
      rw [current] at used later
      rw [length] at used most all
      rw [count]
      exact ⟨by omega, by omega, all.imp_left (by omega), by omega, chunk⟩
  | case3 out bytesParsed size sent done =>
      have length : sent.sendingBuffers.length = out.sendingBuffers.length + 1 := List.length_append
      have none' : continuations out.outChunkSize (msgLen - bytesParsed) = 0 :=
        continuations_last _ _ positive (by omega)
      rw [none']
      refine ⟨?_, Nat.le_of_eq length, .inl length, Nat.le_refl _, rfl⟩
      change 2 * out.outCurrent + 7 * (out.sendingBuffers.length + 1) ≤ 2 * out.outCurrent + 7 * sent.sendingBuffers.length
      omega

theorem build_step_nodes (out : RtmpOut) (message : OutMessage) (size : out.outChunkSize = kRtmpBufferSize) :
    Built out (buildStep out message) (entries message) 1 := by
  cases ext : message.packet.ext with
  | none =>
      have same : buildStep out message = out := by rw [buildStep, buildChunk, ext]
      rw [same, entries, ext]
      exact ⟨Nat.le_add_right _ _, Nat.le_refl _, .inl rfl, Nat.le_refl _, rfl⟩
  | some header =>
      rw [buildStep, build_chunk_ext out message header ext, entries, ext]
      generalize chunkFormat (out.streams header.csId) header message.timestamp message.fmt0 = format
      obtain ⟨fmt, carried⟩ := format
      dsimp only
      obtain ⟨current, buffers, sameSize⟩ := begin_message_room out message.packet header fmt carried
      have length : (beginMessage out message.packet header fmt carried).sendingBuffers.length =
          out.sendingBuffers.length + 1 := by
        rw [buffers, List.length_append]
        rfl
      have first := first_header_most header fmt carried
      obtain ⟨used, most, all, later, chunk⟩ := build_body_nodes (beginMessage out message.packet header fmt carried)
        header.csId header.msgLen carried message.packet.body 0 (by rw [sameSize, size]; decide)
      rw [Nat.sub_zero, sameSize, size] at most all
      rw [current] at used later
      rw [length] at used most all
      exact ⟨by omega, by omega, all.imp_left (by omega), by omega, chunk.trans sameSize⟩

theorem build_all_nodes (out : RtmpOut) (messages : List OutMessage) (size : out.outChunkSize = kRtmpBufferSize) :
    Built out (buildAll out messages) (entriesOf messages) messages.length := by
  induction messages generalizing out with
  | nil => exact built_refl out
  | cons message messages ih =>
      have here := build_step_nodes out message size
      have later := ih (buildStep out message) (here.size.trans size)
      have both := built_trans here later
      rw [Nat.add_comm 1] at both
      exact both

theorem batch_nodes_iff (ctx : RtmpSender) (frames : List OutMessage) (few : frames.length ≤ 10)
    (size : ctx.out.outChunkSize = kRtmpBufferSize) :
    (ctx.batch frames).out.sendingBuffers.length ≤ kIovMax ↔ entriesOf (ctx.batchMessages frames) ≤ kIovMax := by
  have built := build_all_nodes ctx.out.reset (ctx.batchMessages frames) size
  have whole : (ctx.batch frames).out = buildAll ctx.out.reset (ctx.batchMessages frames) := by
    rw [RtmpSender.batch, RtmpSender.send, if_neg Bool.false_ne_true, RtmpSender.batchMessages, buildAll, buildAll, buildAll,
      List.foldl_append]
  have count : (ctx.batchMessages frames).length ≤ 20 := by
    rw [RtmpSender.batchMessages, List.length_append, List.length_map, List.length_take, kRtmpSingleMax]
    omega
  obtain ⟨room, most, all, _, _⟩ := built
  have start : ctx.out.reset.outCurrent = 0 ∧ ctx.out.reset.sendingBuffers.length = 0 := ⟨rfl, rfl⟩
  rw [whole]
  rw [start.2] at most all room
  rw [start.1] at room
  rw [kRtmpBufferSize] at all
  rw [kIovMax]
  omega

theorem sent_vecs (addrs : Nat → UInt64) (nodes : List Bytes) :
    (({} : TcpOutput).sendInLoop (vecsOf addrs nodes)).ioVecList.length = nodes.length := by
  rw [(send_open {} (vecsOf addrs nodes) rfl).1]
  exact List.length_mapIdx

theorem sent_gathered (out : TcpOutput) (list : List IoVec) : (out.sendInLoop list).gathered = out.gathered := by
  rw [TcpOutput.sendInLoop]
  split_ifs
  · rfl
  · dsimp only
    split_ifs
    · rfl
    · rfl

theorem gather_limit_iff (mem : Memory) (addrs : Nat → UInt64) (ctx : RtmpSender) (frames : List OutMessage)
    (few : frames.length ≤ 10) (size : ctx.out.outChunkSize = kRtmpBufferSize) :
    (∀ results, ∀ count ∈ ((({} : TcpOutput).sendInLoop (vecsOf addrs (ctx.batch frames).out.sendingBuffers)).onWrite
        mem results).state.gathered, count ≤ kIovMax) ↔
      entriesOf (ctx.batchMessages frames) ≤ kIovMax := by
  have isOpen := (send_open {} (vecsOf addrs (ctx.batch frames).out.sendingBuffers) rfl).2.1
  rw [gathered_iff mem _ isOpen (sent_gathered _ _) kIovMax, sent_vecs]
  exact batch_nodes_iff ctx frames few size

theorem gather_limit_small :
    (∀ results, ∀ count ∈ ((({} : TcpOutput).sendInLoop (vecsOf (fun _ => 0)
        (RtmpSender.fresh.batch [audioMessage 3 5000]).out.sendingBuffers)).onWrite
        byteOfAddress results).state.gathered, count ≤ kIovMax) ↔
      entriesOf (RtmpSender.fresh.batchMessages [audioMessage 3 5000]) ≤ kIovMax :=
  gather_limit_iff byteOfAddress (fun _ => 0) .fresh [audioMessage 3 5000] (by decide) rfl

theorem large_frame_too_many :
    ¬ ∀ results, ∀ count ∈ ((({} : TcpOutput).sendInLoop (vecsOf (fun _ => 0)
        (RtmpSender.fresh.batch [audioMessage 3 2097153]).out.sendingBuffers)).onWrite
        byteOfAddress results).state.gathered, count ≤ kIovMax := by
  intro claim
  have isOpen := (send_open {} (vecsOf (fun _ => 0)
    (RtmpSender.fresh.batch [audioMessage 3 2097153]).out.sendingBuffers) rfl).2.1
  rw [gathered_iff byteOfAddress _ isOpen (sent_gathered _ _) kIovMax, sent_vecs] at claim
  have entries := (batch_nodes_iff .fresh [audioMessage 3 2097153] (by decide) rfl).mp claim
  exact absurd (show 2 * (2097152 / 4096 + 1) ≤ 1024 from entries) (by decide)

end Lssvc.Mmedia
