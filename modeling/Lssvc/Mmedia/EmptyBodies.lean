import Lssvc.Mmedia.HeaderRoom
import Lssvc.Network.WriteReturns

set_option autoImplicit false

namespace Lssvc.Mmedia

open Lssvc.Foundation Lssvc.Network

structure ChunkBatch where
  out : RtmpOut
  messages : List OutMessage
  cleared : out.sendingBuffers = []
  positive : 0 < out.outChunkSize
  whole : ∀ message ∈ messages, ∀ header, message.packet.ext = some header → header.msgLen ≤ message.packet.body.length

def ChunkBatch.buffers (batch : ChunkBatch) : List Bytes := (buildAll batch.out batch.messages).sendingBuffers

def sentHeaders (messages : List OutMessage) : List RtmpMsgHeader := messages.filterMap fun message => message.packet.ext

def ChunkBatch.headers (batch : ChunkBatch) : List RtmpMsgHeader := sentHeaders batch.messages

structure EndAlike (nodes : List Bytes) (headers : List RtmpMsgHeader) : Prop where
  none : nodes = [] ↔ headers = []
  last : (nodes.map List.length).getLast? = some 0 ↔ (headers.map RtmpMsgHeader.msgLen).getLast? = some 0

theorem end_alike_nil : EndAlike [] [] := by
  refine ⟨⟨fun _ => rfl, fun _ => rfl⟩, ?_⟩
  rw [List.map_nil, List.map_nil]

theorem last_append (left right : List Nat) (some' : right ≠ []) : (left ++ right).getLast? = right.getLast? := by
  obtain ⟨last, isLast⟩ := Option.isSome_iff_exists.mp (List.getLast?_isSome.mpr some')
  rw [List.getLast?_append, isLast, Option.some_or]

theorem end_alike_append {nodes nodes' : List Bytes} {headers headers' : List RtmpMsgHeader} (left : EndAlike nodes headers)
    (right : EndAlike nodes' headers') : EndAlike (nodes ++ nodes') (headers ++ headers') := by
  refine ⟨?_, ?_⟩
  · rw [List.append_eq_nil_iff, List.append_eq_nil_iff, left.none, right.none]
  · by_cases empty : headers' = []
    · have empty' : nodes' = [] := right.none.mpr empty
      rw [empty, empty', List.append_nil, List.append_nil]
      exact left.last
    · have some' : nodes'.map List.length ≠ [] := fun nothing => empty (right.none.mp (List.map_eq_nil_iff.mp nothing))
      have headersSome : headers'.map RtmpMsgHeader.msgLen ≠ [] := fun nothing => empty (List.map_eq_nil_iff.mp nothing)
      rw [List.map_append, List.map_append, last_append _ _ some', last_append _ _ headersSome]
      exact right.last

theorem end_alike_flat (batches : List ChunkBatch)
    (each : ∀ batch ∈ batches, EndAlike batch.buffers batch.headers) :
    EndAlike (batches.flatMap ChunkBatch.buffers) (batches.flatMap ChunkBatch.headers) := by
  induction batches with
  | nil => exact end_alike_nil
  | cons batch batches ih =>
      obtain ⟨here, later⟩ := List.forall_mem_cons.mp each
      rw [List.flatMap_cons, List.flatMap_cons]
      exact end_alike_append here (ih later)

theorem build_body_last (out : RtmpOut) (csid msgLen : Nat) (timestamp : UInt32) (body : Bytes) (bytesParsed : Nat)
    (positive : 0 < out.outChunkSize) (whole : msgLen ≤ body.length) :
    ∃ nodes last, (buildBody out csid msgLen timestamp body bytesParsed).sendingBuffers =
        out.sendingBuffers ++ (nodes ++ [last]) ∧ (last.length = 0 ↔ msgLen ≤ bytesParsed) := by
  fun_induction buildBody out csid msgLen timestamp body bytesParsed with
  | case1 out bytesParsed size sent more full =>
      refine ⟨[], (body.drop bytesParsed).take size, rfl, ?_⟩
      rw [List.length_take, List.length_drop]
      omega
  | case2 out bytesParsed size sent more room ih =>
      obtain ⟨nodes, last, built, empty⟩ := ih positive
      refine ⟨(body.drop bytesParsed).take size :: (basicHeader .fmt3 csid ++ extendedTimestamp timestamp) :: nodes, last,
        ?_, ?_⟩
      · rw [built]
        simp [sent, RtmpOut.putHeader, RtmpOut.putBody]
      · rw [empty]
        omega
  | case3 out bytesParsed size sent done =>
      refine ⟨[], (body.drop bytesParsed).take size, rfl, ?_⟩
      rw [List.length_take, List.length_drop]
      omega

theorem build_step_last (out : RtmpOut) (message : OutMessage) (positive : 0 < out.outChunkSize)
    (whole : ∀ header, message.packet.ext = some header → header.msgLen ≤ message.packet.body.length) :
    (buildStep out message).outChunkSize = out.outChunkSize ∧
      ∃ nodes, (buildStep out message).sendingBuffers = out.sendingBuffers ++ nodes ∧
        EndAlike nodes message.packet.ext.toList := by
  cases ext : message.packet.ext with
  | none =>
      have same : buildStep out message = out := by rw [buildStep, buildChunk, ext]
      rw [same]
      exact ⟨rfl, [], (List.append_nil _).symm, end_alike_nil⟩
  | some header =>
      refine ⟨(build_chunk_sent out message header ext).2, ?_⟩
      rw [buildStep, build_chunk_ext out message header ext]
      generalize chunkFormat (out.streams header.csId) header message.timestamp message.fmt0 = format
      obtain ⟨fmt, carried⟩ := format
      dsimp only
      obtain ⟨nodes, last, built, empty⟩ := build_body_last (beginMessage out message.packet header fmt carried) header.csId
        header.msgLen carried message.packet.body 0 positive (whole header ext)
      refine ⟨firstHeader header fmt carried :: (nodes ++ [last]), ?_, ?_, ?_⟩
      · rw [built, (begin_message_room out message.packet header fmt carried).2.1, List.append_assoc]
        rfl
      · exact ⟨fun impossible => (by cases impossible), fun impossible => (by cases impossible)⟩
      · rw [List.map_cons, List.map_append, ← List.cons_append, List.map_singleton, List.getLast?_concat]
        change some last.length = some 0 ↔ some header.msgLen = some 0
        rw [Option.some_inj, Option.some_inj, empty, Nat.le_zero]

theorem build_all_last (out : RtmpOut) (messages : List OutMessage) (positive : 0 < out.outChunkSize)
    (whole : ∀ message ∈ messages, ∀ header, message.packet.ext = some header →
      header.msgLen ≤ message.packet.body.length) :
    ∃ nodes, (buildAll out messages).sendingBuffers = out.sendingBuffers ++ nodes ∧ EndAlike nodes (sentHeaders messages) := by
  induction messages generalizing out with
  | nil => exact ⟨[], (List.append_nil _).symm, end_alike_nil⟩
  | cons message messages ih =>
      obtain ⟨wholeHere, wholeLater⟩ := List.forall_mem_cons.mp whole
      obtain ⟨sameSize, nodes, built, alike⟩ := build_step_last out message positive wholeHere
      obtain ⟨more, later, alikeLater⟩ := ih (buildStep out message) (sameSize.symm ▸ positive) wholeLater
      refine ⟨nodes ++ more, ?_, ?_⟩
      · rw [← List.append_assoc, ← built]
        exact later
      · have headers : sentHeaders (message :: messages) = message.packet.ext.toList ++ sentHeaders messages := by
          rw [sentHeaders, List.filterMap_cons]
          cases message.packet.ext with
          | none => rfl
          | some header => rfl
        rw [headers]
        exact end_alike_append alike alikeLater

theorem batch_last (batch : ChunkBatch) : EndAlike batch.buffers batch.headers := by
  obtain ⟨nodes, built, alike⟩ := build_all_last batch.out batch.messages batch.positive batch.whole
  rw [batch.cleared, List.nil_append] at built
  rw [ChunkBatch.buffers, built]
  exact alike

theorem on_write_returns_iff (mem : Memory) (batches : List ChunkBatch) (lists : List (List IoVec))
    (nodes : lists.map (List.map (IoVec.bytes mem)) = batches.map ChunkBatch.buffers) (results : Nat → WriteResult)
    (kernel : Suits TcpOutput.Takes ((run TcpOutput.sendInLoop {} lists).onWrite mem) results) :
    Returns ((run TcpOutput.sendInLoop {} lists).onWrite mem) results ↔
      (∀ header ∈ (batches.flatMap ChunkBatch.headers).getLast?, header.msgLen ≠ 0) ∨
        ∃ call, (results call).Fails := by
  obtain ⟨isOpen, all⟩ := sent_lists {} rfl lists
  have buffers : (lists.flatten).map (IoVec.bytes mem) = batches.flatMap ChunkBatch.buffers := by
    rw [List.map_flatten, nodes]
    rfl
  have sizes : (run TcpOutput.sendInLoop {} lists).sizes = (batches.flatMap ChunkBatch.buffers).map List.length := by
    rw [TcpOutput.sizes, all, List.nil_append, ← buffers, List.map_map]
    exact List.map_congr_left fun vec _ => (bytes_length mem vec).symm
  rw [on_write_last mem _ isOpen results kernel, sizes, ne_eq, (end_alike_flat batches fun batch _ => batch_last batch).last]
  refine or_congr_left ?_
  rw [List.getLast?_map]
  cases (batches.flatMap ChunkBatch.headers).getLast? with
  | none => exact ⟨fun _ header impossible => (by cases impossible), fun _ impossible => (by cases impossible)⟩
  | some last =>
      constructor
      · rintro some' header isLast empty
        cases isLast
        exact some' (congrArg some empty)
      · intro some' empty
        exact some' last rfl (Option.some.inj empty)

def emptyBatch : ChunkBatch where
  out := .fresh kRtmpBufferSize
  messages := [audioMessage 3 0]
  cleared := rfl
  positive := by decide
  whole := by
    intro message inside header ext
    cases List.mem_singleton.mp inside
    cases ext
    exact Nat.zero_le _

def emptyList : List IoVec := [⟨0, 12⟩, ⟨12, 0⟩]

def emptyHeader : Bytes := [3, 0, 0, 0, 0, 0, 0, 8, 0, 0, 0, 0]

def headerMemory : Memory := fun address => emptyHeader.getD address.toNat 0

theorem empty_buffers : emptyBatch.buffers = [emptyHeader, []] := by
  have built := build_chunk_ext (.fresh kRtmpBufferSize) (audioMessage 3 0) { csId := 3, msgLen := 0, msgType := 8 } rfl
  rw [buildBody] at built
  exact congrArg (fun pair => pair.1.sendingBuffers) built

theorem empty_nodes :
    [emptyList].map (List.map (IoVec.bytes headerMemory)) = [emptyBatch].map ChunkBatch.buffers := by
  rw [List.map_singleton, List.map_singleton, empty_buffers]
  decide

theorem on_write_returns_transient :
    Returns ((run TcpOutput.sendInLoop {} [emptyList]).onWrite headerMemory) (fun _ => .transient) ↔
      (∀ header ∈ ([emptyBatch].flatMap ChunkBatch.headers).getLast?, header.msgLen ≠ 0) ∨
        ∃ _ : Nat, WriteResult.Fails .transient :=
  on_write_returns_iff headerMemory [emptyBatch] [emptyList] empty_nodes (fun _ => .transient) fun _ _ _ => trivial

def twelveThenNothing : Nat → WriteResult
  | 0 => .accepted 12
  | _ => .accepted 0

-- The header goes out, and writev is called for ever with the empty node.
theorem empty_body_spins :
    ¬ ∀ results, Suits TcpOutput.Takes ((run TcpOutput.sendInLoop {} [emptyList]).onWrite headerMemory) results →
      Returns ((run TcpOutput.sendInLoop {} [emptyList]).onWrite headerMemory) results := by
  intro claim
  have loop := on_write_waiting headerMemory (run TcpOutput.sendInLoop {} [emptyList]) rfl (List.cons_ne_nil _ _)
  have written (count : Nat) (state : TcpOutput)
      (goes : rounds (TcpOutput.writev headerMemory) (run TcpOutput.sendInLoop {} [emptyList])
        (firstAnswers twelveThenNothing (count + 1)) = .going state) : state.sizes = [0] := by
    induction count generalizing state with
    | zero =>
        rw [first_answers_succ] at goes
        obtain ⟨before, reached, last⟩ := rounds_prefix_going _ _ goes
        cases reached
        obtain ⟨_, n, accepted, sizes⟩ := writev_going headerMemory _ state _ last
        cases accepted
        exact sizes
    | succ count ih =>
        rw [first_answers_succ] at goes
        obtain ⟨before, reached, last⟩ := rounds_prefix_going _ _ goes
        obtain ⟨_, n, accepted, sizes⟩ := writev_going headerMemory before state _ last
        cases accepted
        rw [ih before reached] at sizes
        exact sizes
  have kernel : Suits TcpOutput.Takes (rounds (TcpOutput.writev headerMemory) (run TcpOutput.sendInLoop {} [emptyList]))
      twelveThenNothing := by
    intro count state goes
    cases count with
    | zero =>
        cases goes
        exact ⟨by decide, fun _ => by decide⟩
    | succ count =>
        have nothing : state.sizes.sum = 0 := congrArg List.sum (written count state goes)
        exact ⟨Nat.zero_le _, fun positive => absurd nothing (Nat.ne_of_gt positive)⟩
  have never : ∀ call, ¬ (twelveThenNothing call).Fails := by
    intro call
    cases call with
    | zero => exact id
    | succ call => exact id
  rw [loop] at claim
  exact loop_forever headerMemory (run TcpOutput.sendInLoop {} [emptyList]) rfl twelveThenNothing never kernel
    (claim twelveThenNothing kernel)

end Lssvc.Mmedia
