import Mathlib.Algebra.Order.BigOperators.Group.List
import Mathlib.Algebra.Order.Ring.Nat
import Lssvc.Mmedia.GatherLimit
import Lssvc.Mmedia.SentMessages

set_option autoImplicit false

namespace Lssvc.Mmedia

open Lssvc.Foundation

-- The loop over io_vec_list_ behind a writev that has taken `ret` bytes.
def eraseNodes (ret : Nat) (nodes : List Bytes) : List Bytes :=
  match nodes with
  | [] => []
  | node :: nodes =>
      if 0 < ret then
        if ret < node.length then node.drop ret :: nodes else eraseNodes (ret - node.length) nodes
      else node :: nodes

def queued (packet : Packet) : OutMessage := ⟨packet, 0, false⟩

-- One direction of a connection in the message phase: the sending context with
-- io_vec_list_, the bytes the kernels hold, and the context that reads them. What
-- was submitted and the pieces that were read are recorded.
structure Pipe where
  ctx : RtmpSender := .fresh
  wire : Bytes := []
  incoming : ParseOutcome := .idle .fresh
  submitted : List OutMessage := []
  pieces : List Bytes := []

inductive PipeEvent where
  | pushOutQueue (packet : Packet)
  | pushFrames (messages : List OutMessage)
  | writev (ret : Nat)
  | readFd (n : Nat)

-- Each writev of onWrite's loop is an event of its own. onWrite completes where
-- nothing is left, and where nothing was there. With more entries than IOV_MAX
-- writev fails and the connection is closed: no completion ever comes.
def pipeStep (s : Pipe) : PipeEvent → Pipe
  | .pushOutQueue packet =>
      { s with
        ctx := contextStep s.ctx (.pushOutQueue packet)
        submitted := s.submitted ++ [queued packet] }
  | .pushFrames messages =>
      if s.ctx.ready then
        { s with
          ctx := contextStep s.ctx (.pushFrames messages)
          submitted := s.submitted ++ messages }
      else s
  | .writev ret =>
      if kIovMax < s.ctx.ioVecList.length then s
      else
        let ctx := { s.ctx with ioVecList := eraseNodes ret s.ctx.ioVecList }
        { s with
          wire := s.wire ++ s.ctx.ioVecList.flatten.take ret
          ctx := if ctx.ioVecList = [] then contextStep ctx .writeComplete else ctx }
  | .readFd n =>
      if s.wire.take n = [] then s
      else
        { s with
          wire := s.wire.drop n
          incoming := arrive s.incoming (s.wire.take n)
          pieces := s.pieces ++ [s.wire.take n] }

-- Ten such messages fit out_buffer_ with all their headers.
def Light (message : OutMessage) : Prop := kRtmpSingleMax * headerRoom message ≤ kRtmpBufferSize

instance (message : OutMessage) : Decidable (Light message) := inferInstanceAs (Decidable (_ ≤ _))

def Carriable (message : OutMessage) : Prop := Sendable message message.header ∧ Light message

instance (message : OutMessage) : Decidable (Carriable message) := inferInstanceAs (Decidable (_ ∧ Light message))

-- Ten such messages fit one writev.
def Slim (message : OutMessage) : Prop := kRtmpSingleMax * entries message ≤ kIovMax

instance (message : OutMessage) : Decidable (Slim message) := inferInstanceAs (Decidable (_ ≤ _))

def ReadsSmall (s : Pipe) (n : Nat) : Prop := (s.incoming.buf ++ s.wire.take n).length < 2147483648

instance (s : Pipe) (n : Nat) : Decidable (ReadsSmall s n) := inferInstanceAs (Decidable (_ < _))

-- What the callers keep to: getFrames yields at most ten frames, pushFrames is
-- called with some, and no read finds 2^31 unread bytes.
def Proper (s : Pipe) : PipeEvent → Prop
  | .pushOutQueue packet => Carriable (queued packet)
  | .pushFrames messages => messages ≠ [] ∧ messages.length ≤ kRtmpSingleMax ∧ ∀ message ∈ messages, Carriable message
  | .writev _ => True
  | .readFd n => ReadsSmall s n

def freshStreams : Nat → OutStream := (RtmpOut.fresh kRtmpBufferSize).streams

structure Carrying (s : Pipe) (built : List OutMessage) : Prop where
  order : built ++ s.ctx.outWaitingQueue.map queued = s.submitted
  each : ∀ message ∈ s.submitted, Carriable message
  bytes : s.pieces.flatten ++ (s.wire ++ s.ctx.ioVecList.flatten) = sentBytes kRtmpBufferSize freshStreams built
  streams : s.ctx.out.streams = sentStreams freshStreams built
  size : s.ctx.out.outChunkSize = kRtmpBufferSize
  clean : s.ctx.out.errors = []
  nodes : ∀ node ∈ s.ctx.ioVecList, node ≠ []
  busy : s.ctx.sending = true → s.ctx.ioVecList ≠ []
  idle : s.ctx.sending = false → s.ctx.ioVecList = [] ∧ s.ctx.outWaitingQueue = [] ∧ s.ctx.out.outCurrent = 0 ∧
    s.ctx.out.sendingBuffers = []
  received : s.incoming = receive (.idle .fresh) s.pieces
  small : CallsSmall (.idle .fresh) s.pieces
  fits : (∀ message ∈ s.submitted, Slim message) → s.ctx.ioVecList.length ≤ kIovMax

theorem writev_submitted (s : Pipe) (ret : Nat) : (pipeStep s (.writev ret)).submitted = s.submitted := by
  rw [pipeStep]
  split_ifs <;> rfl

theorem writev_received (s : Pipe) (ret : Nat) :
    (pipeStep s (.writev ret)).incoming = s.incoming ∧ (pipeStep s (.writev ret)).pieces = s.pieces := by
  rw [pipeStep]
  split_ifs <;> exact ⟨rfl, rfl⟩

theorem read_submitted (s : Pipe) (n : Nat) : (pipeStep s (.readFd n)).submitted = s.submitted := by
  rw [pipeStep]
  split_ifs <;> rfl

theorem erase_nodes_flatten (ret : Nat) (nodes : List Bytes) : (eraseNodes ret nodes).flatten = nodes.flatten.drop ret := by
  fun_induction eraseNodes ret nodes with
  | case1 => exact List.drop_nil.symm
  | case2 ret node nodes some' inside =>
      rw [List.flatten_cons, List.flatten_cons, List.drop_append_of_le_length (Nat.le_of_lt inside)]
  | case3 ret node nodes some' past ih =>
      rw [ih, List.flatten_cons, List.drop_append, List.drop_of_length_le (Nat.not_lt.mp past)]
      rfl
  | case4 ret node nodes none' =>
      rw [Nat.eq_zero_of_not_pos none']
      rfl

theorem erase_nodes_some (ret : Nat) (nodes : List Bytes) (some' : ∀ node ∈ nodes, node ≠ []) :
    ∀ node ∈ eraseNodes ret nodes, node ≠ [] := by
  fun_induction eraseNodes ret nodes with
  | case1 => exact List.forall_mem_nil _
  | case2 ret node nodes more inside =>
      obtain ⟨_, later⟩ := List.forall_mem_cons.mp some'
      refine List.forall_mem_cons.mpr ⟨?_, later⟩
      rw [ne_eq, List.drop_eq_nil_iff]
      exact Nat.not_le.mpr inside
  | case3 ret node nodes more past ih => exact ih (List.forall_mem_cons.mp some').2
  | case4 => exact some'

theorem erase_nodes_length (ret : Nat) (nodes : List Bytes) : (eraseNodes ret nodes).length ≤ nodes.length := by
  fun_induction eraseNodes ret nodes with
  | case1 => exact Nat.le_refl _
  | case2 ret node nodes more inside => exact Nat.le_refl _
  | case3 ret node nodes more past ih => exact Nat.le_succ_of_le ih
  | case4 => exact Nat.le_refl _

theorem slim_entries (messages : List OutMessage) (few : messages.length ≤ kRtmpSingleMax)
    (slim : ∀ message ∈ messages, Slim message) : entriesOf messages ≤ kIovMax := by
  have each : ∀ count ∈ messages.map entries, count ≤ 102 := by
    rintro count inside
    obtain ⟨message, listed, rfl⟩ := List.mem_map.mp inside
    have bound : 10 * entries message ≤ 1024 := slim message listed
    omega
  have total : (messages.map entries).sum ≤ (messages.map entries).length * 102 := List.sum_le_card_nsmul _ 102 each
  rw [List.length_map] at total
  have most : messages.length ≤ 10 := few
  change (messages.map entries).sum ≤ 1024
  omega

theorem calls_small_snoc (pieces : List Bytes) (piece : Bytes) (outcome : ParseOutcome)
    (small : CallsSmall outcome pieces) (last : ((receive outcome pieces).buf ++ piece).length < 2147483648) :
    CallsSmall outcome (pieces ++ [piece]) := by
  induction pieces generalizing outcome with
  | nil => exact ⟨last, trivial⟩
  | cons first pieces ih => exact ⟨small.1, ih _ small.2 last⟩

theorem light_room (messages : List OutMessage) (few : messages.length ≤ kRtmpSingleMax)
    (light : ∀ message ∈ messages, Light message) : roomOf messages ≤ kRtmpBufferSize := by
  have each : ∀ room ∈ messages.map headerRoom, room ≤ 409 := by
    rintro room inside
    obtain ⟨message, listed, rfl⟩ := List.mem_map.mp inside
    have bound : 10 * headerRoom message ≤ 4096 := light message listed
    omega
  have total : (messages.map headerRoom).sum ≤ (messages.map headerRoom).length * 409 := List.sum_le_card_nsmul _ 409 each
  rw [List.length_map] at total
  have most : messages.length ≤ 10 := few
  change (messages.map headerRoom).sum ≤ 4096
  omega

theorem build_body_some (out : RtmpOut) (csid msgLen : Nat) (timestamp : UInt32) (body : Bytes) (bytesParsed : Nat)
    (positive : 0 < out.outChunkSize) (whole : body.length = msgLen) (left : bytesParsed < msgLen)
    (some' : ∀ node ∈ out.sendingBuffers, node ≠ []) :
    ∀ node ∈ (buildBody out csid msgLen timestamp body bytesParsed).sendingBuffers, node ≠ [] := by
  have piece (size : Nat) (much : 0 < size) (at' : Nat) (inside : at' < msgLen) : (body.drop at').take size ≠ [] := by
    rw [ne_eq, List.take_eq_nil_iff, List.drop_eq_nil_iff]
    omega
  fun_induction buildBody out csid msgLen timestamp body bytesParsed with
  | case1 out bytesParsed size sent more full =>
      refine List.forall_mem_append.mpr ⟨some', List.forall_mem_singleton.mpr ?_⟩
      exact piece size (by omega) bytesParsed left
  | case2 out bytesParsed size sent more room ih =>
      refine ih positive more ?_
      have header := continuation_header_some csid timestamp
      refine List.forall_mem_append.mpr ⟨List.forall_mem_append.mpr ⟨some', List.forall_mem_singleton.mpr ?_⟩,
        List.forall_mem_singleton.mpr (List.ne_nil_of_length_pos header)⟩
      exact piece size (by omega) bytesParsed left
  | case3 out bytesParsed size sent done =>
      refine List.forall_mem_append.mpr ⟨some', List.forall_mem_singleton.mpr ?_⟩
      exact piece size (by omega) bytesParsed left

theorem first_header_some (header : RtmpMsgHeader) (fmt : RtmpFmt) (carried : UInt32) : firstHeader header fmt carried ≠ [] := by
  have basic := basic_header_length fmt header.csId
  refine List.ne_nil_of_length_pos ?_
  rw [firstHeader, List.length_append, List.length_append]
  omega

theorem build_all_some (messages : List OutMessage) (out : RtmpOut) (positive : 0 < out.outChunkSize)
    (sendable : ∀ message ∈ messages, Sendable message message.header)
    (some' : ∀ node ∈ out.sendingBuffers, node ≠ []) : ∀ node ∈ (buildAll out messages).sendingBuffers, node ≠ [] := by
  induction messages generalizing out with
  | nil => exact some'
  | cons message messages ih =>
      obtain ⟨now, later⟩ := List.forall_mem_cons.mp sendable
      obtain ⟨_, size⟩ := build_chunk_sent out message message.header now.ext
      refine ih (buildChunk out message.packet message.timestamp message.fmt0).1 (by rw [size]; exact positive) later ?_
      rw [build_chunk_ext out message message.header now.ext]
      exact build_body_some _ _ _ _ _ 0 positive now.whole now.nonempty
        (List.forall_mem_append.mpr ⟨some', List.forall_mem_singleton.mpr (first_header_some _ _ _)⟩)

theorem batch_built (out : RtmpOut) (batch : List OutMessage) (size : out.outChunkSize = kRtmpBufferSize)
    (clean : out.errors = []) (reset : out.outCurrent = 0) (empty : out.sendingBuffers = [])
    (carriable : ∀ message ∈ batch, Carriable message) (few : batch.length ≤ kRtmpSingleMax) :
    (buildAll out batch).errors = [] ∧ (buildAll out batch).outChunkSize = kRtmpBufferSize ∧
      (buildAll out batch).streams = sentStreams out.streams batch ∧
      (buildAll out batch).sendingBuffers.flatten = sentBytes kRtmpBufferSize out.streams batch ∧
      (∀ node ∈ (buildAll out batch).sendingBuffers, node ≠ []) ∧
      ((∀ message ∈ batch, Slim message) → (buildAll out batch).sendingBuffers.length ≤ kIovMax) := by
  have sendable : ∀ message ∈ batch, Sendable message message.header := fun message inside => (carriable message inside).1
  have room := light_room batch few fun message inside => (carriable message inside).2
  have positive : 0 < out.outChunkSize := by rw [size]; decide
  have errors := build_all_fits batch out sendable size clean (by rw [reset, Nat.zero_add]; exact room)
  obtain ⟨streams, sameSize⟩ := build_all_streams batch out sendable
  have stream := build_all_stream batch out positive sendable errors
  rw [empty, size] at stream
  refine ⟨errors, sameSize.trans size, streams, stream,
    build_all_some batch out positive sendable (by rw [empty]; exact List.forall_mem_nil _), fun slim => ?_⟩
  have nodes := (build_all_nodes out batch size).most
  rw [empty, List.length_nil, Nat.zero_add] at nodes
  exact Nat.le_trans nodes (slim_entries batch few slim)

theorem sent_bytes_some (size : Nat) (streams : Nat → OutStream) (messages : List OutMessage) (some' : messages ≠ []) :
    sentBytes size streams messages ≠ [] := by
  cases messages with
  | nil => exact absurd rfl some'
  | cons message messages =>
      rw [sentBytes, messageBytes]
      obtain ⟨fmt, carried⟩ := chunkFormat (streams message.header.csId) message.header message.timestamp message.fmt0
      have basic := basic_header_length fmt message.header.csId
      refine List.ne_nil_of_length_pos ?_
      simp only [List.length_append]
      omega

theorem carrying_send (s : Pipe) (built direct : List OutMessage) (out : RtmpOut) (sending : s.ctx.sending = false)
    (none' : s.ctx.ioVecList = []) (area : s.ctx.out = buildAll out direct)
    (size : out.outChunkSize = kRtmpBufferSize) (clean : out.errors = []) (reset : out.outCurrent = 0)
    (empty : out.sendingBuffers = []) (streams : out.streams = sentStreams freshStreams built)
    (bytes : s.pieces.flatten ++ s.wire = sentBytes kRtmpBufferSize freshStreams built)
    (few : (direct ++ (s.ctx.outWaitingQueue.take kRtmpSingleMax).map queued).length ≤ kRtmpSingleMax)
    (more : direct ++ (s.ctx.outWaitingQueue.take kRtmpSingleMax).map queued ≠ [])
    (order : (built ++ direct) ++ s.ctx.outWaitingQueue.map queued = s.submitted)
    (each : ∀ message ∈ s.submitted, Carriable message) (received : s.incoming = receive (.idle .fresh) s.pieces)
    (small : CallsSmall (.idle .fresh) s.pieces) :
    Carrying { s with ctx := s.ctx.send } (built ++ (direct ++ (s.ctx.outWaitingQueue.take kRtmpSingleMax).map queued)) := by
  have notSending : ¬ s.ctx.sending = true := by rw [sending]; exact Bool.false_ne_true
  have after := send_sending s.ctx
  have inside : ∀ message ∈ direct ++ (s.ctx.outWaitingQueue.take kRtmpSingleMax).map queued, message ∈ s.submitted := by
    intro message listed
    rw [← order]
    rcases List.mem_append.mp listed with inDirect | inQueue
    · exact List.mem_append_left _ (List.mem_append_right _ inDirect)
    · obtain ⟨packet, taken, rfl⟩ := List.mem_map.mp inQueue
      exact List.mem_append_right _ (List.mem_map_of_mem (List.mem_of_mem_take taken))
  obtain ⟨errors, sameSize, newStreams, stream, nodes, fits⟩ := batch_built out _ size clean reset empty
    (fun message listed => each message (inside message listed)) few
  have whole : buildAll out (direct ++ (s.ctx.outWaitingQueue.take kRtmpSingleMax).map queued) =
      buildAll s.ctx.out ((s.ctx.outWaitingQueue.take kRtmpSingleMax).map queued) := by
    rw [area]
    exact List.foldl_append
  have sent : s.ctx.send =
      { out := buildAll out (direct ++ (s.ctx.outWaitingQueue.take kRtmpSingleMax).map queued)
        outWaitingQueue := s.ctx.outWaitingQueue.drop kRtmpSingleMax
        sending := true
        ioVecList := (buildAll out (direct ++ (s.ctx.outWaitingQueue.take kRtmpSingleMax).map queued)).sendingBuffers } := by
    rw [RtmpSender.send, if_neg notSending]
    dsimp only
    rw [none', List.nil_append, whole]
    rfl
  refine ⟨?_, each, ?_, ?_, ?_, ?_, ?_, ?_, ?_, received, small, ?_⟩
  · dsimp only
    rw [sent, ← order, ← List.append_assoc, List.append_assoc (built ++ direct), ← List.map_append, List.take_append_drop]
  · dsimp only
    rw [sent, stream, streams, sent_bytes_append _ built, ← bytes, List.append_assoc]
  · dsimp only
    rw [sent, newStreams, streams]
    exact List.foldl_append.symm
  · dsimp only
    rw [sent]
    exact sameSize
  · dsimp only
    rw [sent]
    exact errors
  · dsimp only
    rw [sent]
    exact nodes
  · intro _ gone
    dsimp only at gone
    rw [sent] at gone
    dsimp only at gone
    rw [gone, List.flatten_nil] at stream
    exact sent_bytes_some _ _ _ more stream.symm
  · intro impossible
    exact absurd (after.symm.trans impossible) Bool.false_ne_true.symm
  · intro slim
    dsimp only
    rw [sent]
    exact fits fun message listed => slim message (inside message listed)

theorem carrying_fresh : Carrying {} [] := by
  refine ⟨rfl, List.forall_mem_nil _, rfl, rfl, rfl, rfl, List.forall_mem_nil _, ?_, fun _ => ⟨rfl, rfl, rfl, rfl⟩, rfl, trivial,
    fun _ => Nat.zero_le _⟩
  intro impossible
  cases impossible

theorem carrying_push (s : Pipe) (built : List OutMessage) (packet : Packet) (carriable : Carriable (queued packet))
    (carrying : Carrying s built) : ∃ built', Carrying (pipeStep s (.pushOutQueue packet)) built' := by
  have order : built ++ (s.ctx.outWaitingQueue ++ [packet]).map queued = s.submitted ++ [queued packet] := by
    rw [List.map_append, ← List.append_assoc, carrying.order]
    rfl
  have each : ∀ message ∈ s.submitted ++ [queued packet], Carriable message :=
    List.forall_mem_append.mpr ⟨carrying.each, List.forall_mem_singleton.mpr carriable⟩
  cases sending : s.ctx.sending with
  | true =>
      have kept : contextStep s.ctx (.pushOutQueue packet) =
          { s.ctx with outWaitingQueue := s.ctx.outWaitingQueue ++ [packet] } := by
        rw [contextStep, RtmpSender.pushOutQueue, RtmpSender.send, if_pos sending]
      refine ⟨built, ?_⟩
      rw [pipeStep, kept]
      refine ⟨order, each, carrying.bytes, carrying.streams, carrying.size, carrying.clean, carrying.nodes, carrying.busy, ?_,
        carrying.received, carrying.small, fun slim => carrying.fits (List.forall_mem_append.mp slim).1⟩
      intro impossible
      exact absurd (sending.symm.trans impossible) Bool.false_ne_true.symm
  | false =>
      obtain ⟨none', queue, reset, empty⟩ := carrying.idle sending
      have bytes := carrying.bytes
      rw [none', List.flatten_nil, List.append_nil] at bytes
      have first : (s.ctx.outWaitingQueue ++ [packet]).take kRtmpSingleMax = [packet] := by
        rw [queue]
        rfl
      refine ⟨_, carrying_send
        { s with
          ctx := { s.ctx with outWaitingQueue := s.ctx.outWaitingQueue ++ [packet] }
          submitted := s.submitted ++ [queued packet] }
        built [] s.ctx.out sending none' rfl carrying.size carrying.clean reset empty carrying.streams bytes ?_ ?_ ?_ each
        carrying.received carrying.small⟩
      · dsimp only
        rw [first]
        exact Nat.le_add_left 1 9
      · dsimp only
        rw [first]
        exact List.cons_ne_nil _ _
      · rw [List.append_nil]
        exact order

theorem carrying_frames (s : Pipe) (built messages : List OutMessage)
    (proper : Proper s (.pushFrames messages)) (carrying : Carrying s built) :
    ∃ built', Carrying (pipeStep s (.pushFrames messages)) built' := by
  obtain ⟨some', few, carriable⟩ := proper
  rw [pipeStep]
  cases sending : s.ctx.sending with
  | true =>
      have busy : ¬ s.ctx.ready = true := by rw [RtmpSender.ready, sending]; exact Bool.false_ne_true
      rw [if_neg busy]
      exact ⟨built, carrying⟩
  | false =>
      have ready : s.ctx.ready = true := by rw [RtmpSender.ready, sending]; rfl
      obtain ⟨none', queue, reset, empty⟩ := carrying.idle sending
      have bytes := carrying.bytes
      rw [none', List.flatten_nil, List.append_nil] at bytes
      have order := carrying.order
      rw [queue, List.map_nil, List.append_nil] at order
      have nothing : (s.ctx.outWaitingQueue.take kRtmpSingleMax).map queued = [] := by rw [queue]; rfl
      rw [if_pos ready, contextStep, if_pos ready]
      refine ⟨_, carrying_send
        { s with
          ctx := { s.ctx with out := buildAll s.ctx.out messages }
          submitted := s.submitted ++ messages }
        built messages s.ctx.out sending none' rfl carrying.size carrying.clean reset empty carrying.streams bytes ?_ ?_ ?_
        (List.forall_mem_append.mpr ⟨carrying.each, carriable⟩) carrying.received carrying.small⟩
      · dsimp only
        rw [nothing, List.append_nil]
        exact few
      · dsimp only
        rw [nothing, List.append_nil]
        exact some'
      · dsimp only
        rw [queue, List.map_nil, List.append_nil, order]

theorem carrying_writev (s : Pipe) (built : List OutMessage) (ret : Nat) (carrying : Carrying s built) :
    ∃ built', Carrying (pipeStep s (.writev ret)) built' := by
  have erased := erase_nodes_flatten ret s.ctx.ioVecList
  have bytes := carrying.bytes
  rw [pipeStep]
  by_cases many : kIovMax < s.ctx.ioVecList.length
  · rw [if_pos many]
    exact ⟨built, carrying⟩
  rw [if_neg many]
  dsimp only
  by_cases written : eraseNodes ret s.ctx.ioVecList = []
  · have all : s.ctx.ioVecList.flatten.take ret = s.ctx.ioVecList.flatten := by
      rw [written, List.flatten_nil] at erased
      exact List.take_of_length_le (List.drop_eq_nil_iff.mp erased.symm)
    rw [if_pos written, all, written, contextStep, RtmpSender.checkAndSend]
    dsimp only
    by_cases queue : s.ctx.outWaitingQueue ≠ []
    · rw [if_pos queue]
      refine ⟨_, carrying_send
        { s with
          wire := s.wire ++ s.ctx.ioVecList.flatten
          ctx :=
            { s.ctx with
              ioVecList := []
              sending := false
              out := { s.ctx.out with outCurrent := 0, sendingBuffers := [], outSendingPackets := [] } } }
        built [] { s.ctx.out with outCurrent := 0, sendingBuffers := [], outSendingPackets := [] } rfl rfl rfl
        carrying.size carrying.clean rfl rfl carrying.streams bytes ?_ ?_ ?_ carrying.each carrying.received carrying.small⟩
      · rw [List.nil_append, List.length_map]
        exact List.length_take_le _ _
      · rw [List.nil_append, ne_eq, List.map_eq_nil_iff, List.take_eq_nil_iff]
        exact fun none' => none'.elim (by decide) queue
      · rw [List.append_nil]
        exact carrying.order
    · rw [if_neg queue]
      refine ⟨built, carrying.order, carrying.each, ?_, carrying.streams, carrying.size, carrying.clean, List.forall_mem_nil _,
        ?_, fun _ => ⟨rfl, not_not.mp queue, rfl, rfl⟩, carrying.received, carrying.small, fun _ => Nat.zero_le _⟩
      · dsimp only
        rw [List.flatten_nil, List.append_nil]
        exact bytes
      · intro impossible
        cases impossible
  · rw [if_neg written]
    refine ⟨built, carrying.order, carrying.each, ?_, carrying.streams, carrying.size, carrying.clean,
      erase_nodes_some ret _ carrying.nodes, fun _ => written, ?_, carrying.received, carrying.small,
      fun slim => Nat.le_trans (erase_nodes_length ret _) (carrying.fits slim)⟩
    · dsimp only
      rw [erased, List.append_assoc, List.take_append_drop]
      exact bytes
    · intro sending
      rw [(carrying.idle sending).1] at written
      exact absurd rfl written

theorem carrying_read (s : Pipe) (built : List OutMessage) (n : Nat) (proper : Proper s (.readFd n))
    (carrying : Carrying s built) : ∃ built', Carrying (pipeStep s (.readFd n)) built' := by
  rw [pipeStep]
  by_cases none' : s.wire.take n = []
  · rw [if_pos none']
    exact ⟨built, carrying⟩
  · rw [if_neg none']
    refine ⟨built, carrying.order, carrying.each, ?_, carrying.streams, carrying.size, carrying.clean, carrying.nodes,
      carrying.busy, carrying.idle, ?_, ?_, carrying.fits⟩
    · have split := carrying.bytes
      rw [← List.take_append_drop n s.wire, List.append_assoc, ← List.append_assoc s.pieces.flatten] at split
      dsimp only
      rw [List.flatten_append, List.flatten_singleton]
      exact split
    · dsimp only
      rw [receive, List.foldl_append, carrying.received]
      rfl
    · refine calls_small_snoc _ _ _ carrying.small ?_
      rw [← carrying.received]
      exact proper

theorem carrying_step (s : Pipe) (built : List OutMessage) (event : PipeEvent) (proper : Proper s event)
    (carrying : Carrying s built) : ∃ built', Carrying (pipeStep s event) built' := by
  cases event with
  | pushOutQueue packet => exact carrying_push s built packet proper carrying
  | pushFrames messages => exact carrying_frames s built messages proper carrying
  | writev ret => exact carrying_writev s built ret carrying
  | readFd n => exact carrying_read s built n proper carrying

def ProperRun (events : List PipeEvent) : Prop := ∀ pair ∈ met pipeStep {} events, Proper pair.1 pair.2

theorem proper_event (events past rest : List PipeEvent) (event : PipeEvent) (proper : ProperRun events)
    (cut : events = past ++ event :: rest) : Proper (run pipeStep {} past) event :=
  proper (_, event) ((met_iff _ _ _ _).mpr ⟨past, rest, cut, rfl⟩)

theorem run_carries (events : List PipeEvent) (proper : ProperRun events) :
    ∃ built, Carrying (run pipeStep {} events) built := by
  refine run_history (fun _ s => ∃ built, Carrying s built) (fun past event => Proper (run pipeStep {} past) event)
    ⟨[], carrying_fresh⟩ ?_ events fun past event rest cut => proper_event events past rest event proper cut
  rintro past event allowed ⟨built, carrying⟩
  exact carrying_step _ built event allowed carrying

structure Delivers (s : Pipe) : Prop where
  inOrder : s.incoming.messages <+: s.submitted.map OutMessage.arrived
  all : s.ctx.ioVecList = [] → s.wire = [] →
    s.incoming.messages = s.submitted.map OutMessage.arrived ∧ s.incoming.buf = [] ∧ s.ctx.ready = true

theorem carrying_delivers (s : Pipe) (built : List OutMessage) (carrying : Carrying s built)
    (followed : AllFollowed kRtmpBufferSize RtmpIn.fresh.inChunkSize s.submitted) : Delivers s := by
  rw [← carrying.order] at followed
  have followedBuilt := ((all_followed_append _ built _ _).mp followed).1
  have front : s.pieces.flatten <+: sentBytes kRtmpBufferSize (RtmpOut.fresh kRtmpBufferSize).streams built :=
    ⟨_, carrying.bytes⟩
  obtain ⟨come, whole⟩ := front_received kRtmpBufferSize (by decide) built followedBuilt s.pieces carrying.small front
  rw [← carrying.received] at come whole
  constructor
  · rw [← carrying.order, List.map_append]
    exact come.trans (List.prefix_append _ _)
  · intro written read
    have ready : s.ctx.sending = false := by
      cases sending : s.ctx.sending with
      | true => exact absurd written (carrying.busy sending)
      | false => rfl
    have order := carrying.order
    rw [(carrying.idle ready).2.1, List.map_nil, List.append_nil] at order
    have bytes := carrying.bytes
    rw [written, read, List.flatten_nil, List.append_nil, List.append_nil] at bytes
    obtain ⟨messages, buf⟩ := whole bytes
    refine ⟨by rw [messages, order], buf, ?_⟩
    rw [RtmpSender.ready, ready]
    rfl

theorem pipe_delivers (events : List PipeEvent) (proper : ProperRun events)
    (followed : AllFollowed kRtmpBufferSize RtmpIn.fresh.inChunkSize (run pipeStep {} events).submitted) :
    Delivers (run pipeStep {} events) := by
  obtain ⟨built, carrying⟩ := run_carries events proper
  exact carrying_delivers _ built carrying followed

def chunkSizePacket : Packet :=
  { capacity := 4, body := [0, 0, 16, 0], ext := some { csId := 2, msgLen := 4, msgType := kRtmpMsgTypeChunkSize } }

def audioPacket (n : Nat) : Packet :=
  { capacity := n, body := List.replicate n 5, ext := some { csId := 4, msgLen := n, msgType := 8, msgSid := 1 } }

def firstMessages : List PipeEvent :=
  [.pushOutQueue chunkSizePacket, .pushOutQueue (audioPacket 200), .writev 10, .readFd 7, .writev 6, .readFd 100]

def lastMoves : List PipeEvent := [.writev 300, .readFd 300]

theorem audio_carriable (n : Nat) (some' : 0 < n) (short : n ≤ kRtmpBufferSize) : Carriable (queued (audioPacket n)) := by
  refine ⟨⟨rfl, (by decide : 2 ≤ 4), (by decide : 4 < 65600), some', List.length_replicate⟩, ?_⟩
  have one : continuations kRtmpBufferSize n = 0 := continuations_last _ _ (by decide) short
  change 10 * (18 + continuations kRtmpBufferSize n * 7) ≤ 4096
  rw [one]
  decide

theorem chunk_size_carriable : Carriable (queued chunkSizePacket) :=
  ⟨⟨rfl, by decide, by decide, by decide, rfl⟩, by decide⟩

theorem first_messages_proper : ProperRun (firstMessages ++ lastMoves) := by
  have sizes := audio_carriable 200 (by decide) (by decide)
  have first : ReadsSmall (run pipeStep {} (firstMessages.take 3)) 7 := by decide +kernel
  have second : ReadsSmall (run pipeStep {} (firstMessages.take 5)) 100 := by decide +kernel
  have third : ReadsSmall (run pipeStep {} (firstMessages ++ [.writev 300])) 300 := by decide +kernel
  refine List.forall_mem_cons.mpr ⟨chunk_size_carriable, List.forall_mem_cons.mpr ⟨sizes, ?_⟩⟩
  refine List.forall_mem_cons.mpr ⟨trivial, List.forall_mem_cons.mpr ⟨first, ?_⟩⟩
  refine List.forall_mem_cons.mpr ⟨trivial, List.forall_mem_cons.mpr ⟨second, ?_⟩⟩
  exact List.forall_mem_cons.mpr ⟨trivial, List.forall_mem_cons.mpr ⟨third, List.forall_mem_nil _⟩⟩

theorem first_messages_submitted :
    (run pipeStep {} firstMessages).submitted = [queued chunkSizePacket, queued (audioPacket 200)] ∧
      (run pipeStep {} (firstMessages ++ lastMoves)).submitted = [queued chunkSizePacket, queued (audioPacket 200)] := by
  simp only [firstMessages, lastMoves, run, List.cons_append, List.nil_append, List.foldl_cons, List.foldl_nil,
    writev_submitted, read_submitted]
  exact ⟨rfl, rfl⟩

theorem first_messages_followed :
    AllFollowed kRtmpBufferSize RtmpIn.fresh.inChunkSize [queued chunkSizePacket, queued (audioPacket 200)] :=
  ⟨⟨chunk_size_carriable.1, by decide, by decide, .inr ⟨by decide, by decide⟩⟩,
    ⟨(audio_carriable 200 (by decide) (by decide)).1, by decide, by decide, .inl (by decide)⟩, trivial⟩

theorem pipe_delivers_two :
    (run pipeStep {} (firstMessages ++ lastMoves)).incoming.messages.map Packet.body =
      [[0, 0, 16, 0], List.replicate 200 5] := by
  have submitted := first_messages_submitted.2
  obtain ⟨_, all⟩ := pipe_delivers (firstMessages ++ lastMoves) first_messages_proper
    (by rw [submitted]; exact first_messages_followed)
  rw [(all (by decide +kernel) (by decide +kernel)).1, submitted]
  rfl

def Moves (s : Pipe) : PipeEvent → Prop
  | .writev ret => 0 < ret ∧ s.ctx.ioVecList ≠ [] ∧ s.ctx.ioVecList.length ≤ kIovMax
  | .readFd n => 0 < n ∧ s.wire ≠ []
  | _ => False

def unread (s : Pipe) : Nat := (sentBytes kRtmpBufferSize freshStreams s.submitted).length - s.pieces.flatten.length

def pending (s : Pipe) : Nat := 2 * unread s - s.wire.length

theorem carrying_bounds (s : Pipe) (built : List OutMessage) (carrying : Carrying s built) :
    s.pieces.flatten.length + (s.wire.length + s.ctx.ioVecList.flatten.length) ≤
      (sentBytes kRtmpBufferSize freshStreams s.submitted).length := by
  have bytes := congrArg List.length carrying.bytes
  rw [← carrying.order, sent_bytes_append, List.length_append, ← bytes]
  simp only [List.length_append]
  omega

theorem flatten_some (nodes : List Bytes) (more : nodes ≠ []) (some' : ∀ node ∈ nodes, node ≠ []) :
    0 < nodes.flatten.length := by
  cases nodes with
  | nil => exact absurd rfl more
  | cons node nodes =>
      have here := List.length_pos_iff.mpr (some' node List.mem_cons_self)
      rw [List.flatten_cons, List.length_append]
      omega

theorem move_settles (s : Pipe) (built : List OutMessage) (event : PipeEvent) (moves : Moves s event)
    (carrying : Carrying s built) : pending (pipeStep s event) < pending s := by
  have bounds := carrying_bounds s built carrying
  rw [pending, pending, unread, unread]
  cases event with
  | pushOutQueue packet => exact moves.elim
  | pushFrames messages => exact moves.elim
  | writev ret =>
      obtain ⟨some', waiting, few⟩ := moves
      have goes : ¬ kIovMax < s.ctx.ioVecList.length := Nat.not_lt.mpr few
      have much := flatten_some _ waiting carrying.nodes
      have taken : (s.ctx.ioVecList.flatten.take ret).length = min ret s.ctx.ioVecList.flatten.length := List.length_take
      have wire : (pipeStep s (.writev ret)).wire.length = s.wire.length + min ret s.ctx.ioVecList.flatten.length := by
        rw [← taken, pipeStep, if_neg goes]
        exact List.length_append
      rw [wire, writev_submitted, (writev_received s ret).2]
      omega
  | readFd n =>
      obtain ⟨some', waiting⟩ := moves
      have length := List.length_pos_iff.mpr waiting
      have taken : s.wire.take n ≠ [] := by
        rw [ne_eq, List.take_eq_nil_iff]
        exact fun none' => none'.elim (by omega) waiting
      rw [pipeStep, if_neg taken]
      dsimp only
      rw [List.flatten_append, List.flatten_singleton, List.length_append, List.length_take, List.length_drop]
      omega

theorem moves_bounded (moves : List PipeEvent) (s : Pipe) (built : List OutMessage) (carrying : Carrying s built)
    (moving : ∀ pair ∈ met pipeStep s moves, Proper pair.1 pair.2 ∧ Moves pair.1 pair.2) :
    moves.length + pending (run pipeStep s moves) ≤ pending s ∧ (run pipeStep s moves).submitted = s.submitted := by
  induction moves generalizing s built with
  | nil => exact ⟨by rw [List.length_nil, Nat.zero_add]; exact Nat.le_refl _, rfl⟩
  | cons event moves ih =>
      obtain ⟨⟨proper, here⟩, later⟩ := List.forall_mem_cons.mp moving
      have less := move_settles s built event here carrying
      obtain ⟨built', still⟩ := carrying_step s built event proper carrying
      obtain ⟨bound, same⟩ := ih (pipeStep s event) built' still later
      have kept : (pipeStep s event).submitted = s.submitted := by
        cases event with
        | pushOutQueue packet => exact here.elim
        | pushFrames messages => exact here.elim
        | writev ret => exact writev_submitted s ret
        | readFd n => exact read_submitted s n
      refine ⟨?_, same.trans kept⟩
      change moves.length + 1 + pending (run pipeStep (pipeStep s event) moves) ≤ pending s
      omega

theorem pipe_settles (events moves : List PipeEvent) (proper : ProperRun (events ++ moves))
    (moving : ∀ pair ∈ met pipeStep (run pipeStep {} events) moves, Moves pair.1 pair.2)
    (followed : AllFollowed kRtmpBufferSize RtmpIn.fresh.inChunkSize (run pipeStep {} events).submitted)
    (slim : ∀ message ∈ (run pipeStep {} events).submitted, Slim message) :
    moves.length ≤ 2 * unread (run pipeStep {} events) ∧
      ((∀ event, ¬ Moves (run pipeStep {} (events ++ moves)) event) →
        (run pipeStep {} (events ++ moves)).incoming.messages =
          (run pipeStep {} events).submitted.map OutMessage.arrived) := by
  have split : ∀ pair ∈ met pipeStep {} events ++ met pipeStep (run pipeStep {} events) moves, Proper pair.1 pair.2 := by
    rw [← met_append]
    exact proper
  obtain ⟨before, during⟩ := List.forall_mem_append.mp split
  obtain ⟨built, carrying⟩ := run_carries events before
  obtain ⟨bound, same⟩ := moves_bounded moves _ built carrying fun pair inside => ⟨during pair inside, moving pair inside⟩
  have most : pending (run pipeStep {} events) ≤ 2 * unread (run pipeStep {} events) := Nat.sub_le _ _
  refine ⟨by omega, fun still => ?_⟩
  obtain ⟨last, carried⟩ := run_carries (events ++ moves) proper
  rw [run_append] at still carried ⊢
  rw [← same] at followed slim ⊢
  have written : (run pipeStep (run pipeStep {} events) moves).ctx.ioVecList = [] :=
    not_not.mp fun waiting => still (.writev 1) ⟨Nat.one_pos, waiting, carried.fits slim⟩
  have read : (run pipeStep (run pipeStep {} events) moves).wire = [] :=
    not_not.mp fun waiting => still (.readFd 1) ⟨Nat.one_pos, waiting⟩
  exact ((carrying_delivers _ last carried followed).all written read).1

theorem pipe_settles_two :
    lastMoves.length ≤ 2 * unread (run pipeStep {} firstMessages) ∧
      ((∀ event, ¬ Moves (run pipeStep {} (firstMessages ++ lastMoves)) event) →
        (run pipeStep {} (firstMessages ++ lastMoves)).incoming.messages =
          (run pipeStep {} firstMessages).submitted.map OutMessage.arrived) := by
  refine pipe_settles firstMessages lastMoves first_messages_proper ?_
    (by rw [first_messages_submitted.1]; exact first_messages_followed)
    (by rw [first_messages_submitted.1]; decide)
  exact List.forall_mem_cons.mpr ⟨⟨by decide, by decide +kernel, by decide +kernel⟩,
    List.forall_mem_cons.mpr ⟨⟨by decide, by decide +kernel⟩, List.forall_mem_nil _⟩⟩

end Lssvc.Mmedia
