import Lssvc.Foundation.Runs
import Lssvc.Mmedia.Sender

set_option autoImplicit false

namespace Lssvc.Mmedia

open Lssvc.Foundation

-- What is handed to connection_->send: the sending half at that moment, and the
-- packets its buffers were built from.
structure Batch where
  out : RtmpOut
  packets : List Packet

-- The context with a record of what was submitted to it, what was given to
-- buildChunk, and the batches whose write completion is to come.
structure Outgoing where
  ctx : RtmpSender := .fresh
  submitted : List Packet := []
  built : List Packet := []
  outstanding : List Batch := []

inductive OutgoingEvent where
  | pushOutQueue (packet : Packet)
  | pushFrames (messages : List OutMessage)
  | writeComplete

def OutgoingEvent.packets : OutgoingEvent → List Packet
  | .pushOutQueue packet => [packet]
  | .pushFrames messages => messages.map OutMessage.packet
  | .writeComplete => []

-- send, where `direct` was built since the last reset.
def Outgoing.send (s : Outgoing) (direct : List Packet) : Outgoing :=
  if s.ctx.sending then s
  else
    { s with
      ctx := s.ctx.send
      built := s.built ++ s.ctx.outWaitingQueue.take kRtmpSingleMax
      outstanding := s.outstanding ++
        [{ out := s.ctx.send.out, packets := direct ++ s.ctx.outWaitingQueue.take kRtmpSingleMax }] }

-- pushFrames, as pushFrame, does nothing unless ready() holds. A completion finds
-- io_vec_list_ written. What onActive does from there are the next events: it is
-- the last thing checkAndSend calls.
def outgoingStep (s : Outgoing) : OutgoingEvent → Outgoing
  | .pushOutQueue packet =>
      { s with
        ctx := { s.ctx with outWaitingQueue := s.ctx.outWaitingQueue ++ [packet] }
        submitted := s.submitted ++ [packet] }.send []
  | .pushFrames messages =>
      if s.ctx.ready then
        { s with
          ctx := { s.ctx with out := buildAll s.ctx.out messages }
          submitted := s.submitted ++ messages.map OutMessage.packet
          built := s.built ++ messages.map OutMessage.packet }.send (messages.map OutMessage.packet)
      else s
  | .writeComplete =>
      let s :=
        { s with
          ctx :=
            { s.ctx with
              ioVecList := []
              sending := false
              out := { s.ctx.out with outCurrent := 0, sendingBuffers := [], outSendingPackets := [] } }
          outstanding := [] }
      if s.ctx.outWaitingQueue ≠ [] then s.send [] else s

def contextStep (ctx : RtmpSender) : OutgoingEvent → RtmpSender
  | .pushOutQueue packet => ctx.pushOutQueue packet
  | .pushFrames messages => if ctx.ready then { ctx with out := buildAll ctx.out messages }.send else ctx
  | .writeComplete => ({ ctx with ioVecList := [] }.checkAndSend).1

structure QueueKept (s : Outgoing) : Prop where
  order : s.built ++ s.ctx.outWaitingQueue = s.submitted
  one : s.outstanding.length ≤ 1
  kept : ∀ batch ∈ s.outstanding, s.ctx.out = batch.out ∧ s.ctx.out.outSendingPackets = batch.packets
  handed : ∀ batch ∈ s.outstanding, s.ctx.ioVecList = batch.out.sendingBuffers
  idle : s.outstanding = [] → s.ctx.outWaitingQueue = [] ∧ s.ctx.ioVecList = []

def Headed (packet : Packet) : Prop := packet.ext.isSome = true

theorem outgoing_send_ctx (s : Outgoing) (direct : List Packet) : (s.send direct).ctx = s.ctx.send := by
  by_cases sending : s.ctx.sending = true
  · rw [Outgoing.send, if_pos sending, RtmpSender.send, if_pos sending]
  · rw [Outgoing.send, if_neg sending]

theorem outgoing_step_ctx (s : Outgoing) (event : OutgoingEvent) :
    (outgoingStep s event).ctx = contextStep s.ctx event := by
  cases event with
  | pushOutQueue packet => exact outgoing_send_ctx _ _
  | pushFrames messages =>
      rw [outgoingStep, contextStep]
      by_cases ready : s.ctx.ready = true
      · rw [if_pos ready, if_pos ready]
        exact outgoing_send_ctx _ _
      · rw [if_neg ready, if_neg ready]
  | writeComplete =>
      rw [outgoingStep, contextStep, RtmpSender.checkAndSend]
      dsimp only
      by_cases queued : s.ctx.outWaitingQueue ≠ []
      · rw [if_pos queued, if_pos queued]
        exact outgoing_send_ctx _ _
      · rw [if_neg queued, if_neg queued]

theorem build_body_packets (out : RtmpOut) (csid msgLen : Nat) (timestamp : UInt32) (body : Bytes)
    (bytesParsed : Nat) :
    (buildBody out csid msgLen timestamp body bytesParsed).outSendingPackets = out.outSendingPackets := by
  fun_induction buildBody out csid msgLen timestamp body bytesParsed with
  | case1 => rfl
  | case2 out bytesParsed size sent more room ih => exact ih
  | case3 => rfl

theorem build_all_packets (out : RtmpOut) (messages : List OutMessage)
    (headed : ∀ message ∈ messages, Headed message.packet) :
    (buildAll out messages).outSendingPackets = out.outSendingPackets ++ messages.map OutMessage.packet := by
  induction messages generalizing out with
  | nil => exact (List.append_nil _).symm
  | cons message messages ih =>
      obtain ⟨here, later⟩ := List.forall_mem_cons.mp headed
      obtain ⟨header, ext⟩ := Option.isSome_iff_exists.mp here
      have one : (buildChunk out message.packet message.timestamp message.fmt0).1.outSendingPackets =
          out.outSendingPackets ++ [message.packet] := by
        rw [buildChunk, ext]
        exact build_body_packets _ _ _ _ _ _
      have rest := ih (buildChunk out message.packet message.timestamp message.fmt0).1 later
      rw [one, List.append_assoc] at rest
      exact rest

structure Guarded (s : Outgoing) : Prop where
  order : s.built ++ s.ctx.outWaitingQueue = s.submitted
  headed : ∀ packet ∈ s.ctx.outWaitingQueue, Headed packet
  busy : s.ctx.sending = true →
    ∃ batch, s.outstanding = [batch] ∧ s.ctx.out = batch.out ∧ s.ctx.out.outSendingPackets = batch.packets ∧
      s.ctx.ioVecList = batch.out.sendingBuffers
  ready : s.ctx.sending = false →
    s.outstanding = [] ∧ s.ctx.outWaitingQueue = [] ∧ s.ctx.out.outSendingPackets = [] ∧ s.ctx.ioVecList = []

theorem Guarded.kept {s : Outgoing} (guarded : Guarded s) : QueueKept s := by
  cases sending : s.ctx.sending with
  | true =>
      obtain ⟨batch, outstanding, same, packets, handed⟩ := guarded.busy sending
      refine ⟨guarded.order, ?_, ?_, ?_, ?_⟩
      · rw [outstanding]
        exact Nat.le_refl 1
      · rw [outstanding]
        exact List.forall_mem_singleton.mpr ⟨same, packets⟩
      · rw [outstanding]
        exact List.forall_mem_singleton.mpr handed
      · intro none'
        cases outstanding.symm.trans none'
  | false =>
      obtain ⟨outstanding, queue, _, written⟩ := guarded.ready sending
      refine ⟨guarded.order, ?_, ?_, ?_, fun _ => ⟨queue, written⟩⟩
      · rw [outstanding]
        exact Nat.zero_le 1
      · rw [outstanding]
        exact List.forall_mem_nil _
      · rw [outstanding]
        exact List.forall_mem_nil _

theorem guarded_fresh : Guarded {} := by
  refine ⟨rfl, List.forall_mem_nil _, ?_, fun _ => ⟨rfl, rfl, rfl, rfl⟩⟩
  intro impossible
  cases impossible

theorem guarded_send (s : Outgoing) (direct : List Packet) (ready : s.ctx.sending = false)
    (none' : s.outstanding = []) (written : s.ctx.ioVecList = []) (built : s.ctx.out.outSendingPackets = direct)
    (order : s.built ++ s.ctx.outWaitingQueue = s.submitted)
    (headed : ∀ packet ∈ s.ctx.outWaitingQueue, Headed packet) : Guarded (s.send direct) := by
  have sending : ¬ s.ctx.sending = true := by rw [ready]; exact Bool.false_ne_true
  have after := send_sending s.ctx
  rw [Outgoing.send, if_neg sending]
  have queue : s.ctx.send.outWaitingQueue = s.ctx.outWaitingQueue.drop kRtmpSingleMax := by
    rw [RtmpSender.send, if_neg sending]
  refine ⟨?_, ?_, ?_, ?_⟩
  · dsimp only
    rw [queue, List.append_assoc, List.take_append_drop]
    exact order
  · dsimp only
    rw [queue]
    exact fun packet inside => headed packet (List.mem_of_mem_drop inside)
  · intro _
    refine ⟨_, by rw [none']; rfl, rfl, ?_, ?_⟩
    · have taken := build_all_packets s.ctx.out
        ((s.ctx.outWaitingQueue.take kRtmpSingleMax).map fun pkt => ⟨pkt, 0, false⟩) (by
          intro message inside
          obtain ⟨packet, listed, rfl⟩ := List.mem_map.mp inside
          exact headed packet (List.mem_of_mem_take listed))
      rw [built, List.map_map] at taken
      dsimp only
      rw [RtmpSender.send, if_neg sending]
      refine taken.trans (congrArg (direct ++ ·) ?_)
      exact List.map_id _
    · dsimp only
      rw [RtmpSender.send, if_neg sending, written]
      rfl
  · intro impossible
    exact absurd (after.symm.trans impossible) Bool.false_ne_true.symm

theorem guarded_step (s : Outgoing) (event : OutgoingEvent) (headed : ∀ packet ∈ event.packets, Headed packet)
    (guarded : Guarded s) : Guarded (outgoingStep s event) := by
  cases event with
  | pushOutQueue packet =>
      rw [outgoingStep]
      have order : s.built ++ (s.ctx.outWaitingQueue ++ [packet]) = s.submitted ++ [packet] := by
        rw [← List.append_assoc, guarded.order]
      have queued : ∀ other ∈ s.ctx.outWaitingQueue ++ [packet], Headed other :=
        List.forall_mem_append.mpr ⟨guarded.headed, headed⟩
      cases sending : s.ctx.sending with
      | true =>
          rw [Outgoing.send, if_pos sending]
          refine ⟨order, queued, guarded.busy, ?_⟩
          intro impossible
          exact absurd (sending.symm.trans impossible) Bool.false_ne_true.symm
      | false =>
          obtain ⟨outstanding, _, packets, written⟩ := guarded.ready sending
          exact guarded_send _ [] sending outstanding written packets order queued
  | pushFrames messages =>
      rw [outgoingStep]
      cases sending : s.ctx.sending with
      | true =>
          have busy : ¬ s.ctx.ready = true := by rw [RtmpSender.ready, sending]; exact Bool.false_ne_true
          rw [if_neg busy]
          exact guarded
      | false =>
          have ready : s.ctx.ready = true := by rw [RtmpSender.ready, sending]; rfl
          obtain ⟨outstanding, queue, packets, written⟩ := guarded.ready sending
          have order := guarded.order
          rw [queue, List.append_nil] at order
          have built := build_all_packets s.ctx.out messages fun message inside =>
            headed message.packet (List.mem_map_of_mem inside)
          rw [packets, List.nil_append] at built
          rw [if_pos ready]
          refine guarded_send _ _ sending outstanding written built ?_ guarded.headed
          dsimp only
          rw [queue, List.append_nil, order]
  | writeComplete =>
      rw [outgoingStep]
      dsimp only
      by_cases queued : s.ctx.outWaitingQueue ≠ []
      · rw [if_pos queued]
        exact guarded_send _ [] rfl rfl rfl rfl guarded.order guarded.headed
      · rw [if_neg queued]
        refine ⟨guarded.order, guarded.headed, ?_, fun _ => ⟨rfl, not_not.mp queued, rfl, rfl⟩⟩
        intro impossible
        cases impossible

def ackPacket : Packet := { capacity := 64, body := [0, 0, 0, 0], ext := some { csId := 2, msgLen := 4, msgType := 5 } }

end Lssvc.Mmedia
