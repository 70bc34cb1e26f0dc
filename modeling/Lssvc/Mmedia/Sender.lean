import Lssvc.Mmedia.ChunkBuilder

set_option autoImplicit false

namespace Lssvc.Mmedia

open Lssvc.Foundation

def kRtmpSingleMax : Nat := 10

-- The sending half of RtmpContext with io_vec_list_ of its open connection,
-- whose write completion is to come while it is not empty.
structure RtmpSender where
  out : RtmpOut
  outWaitingQueue : List Packet := []
  sending : Bool := false
  ioVecList : List Bytes := []

def RtmpSender.fresh : RtmpSender := { out := .fresh kRtmpBufferSize }

-- The connection's send runs at once: every caller is in the loop's thread.
def RtmpSender.send (ctx : RtmpSender) : RtmpSender :=
  if ctx.sending then ctx
  else
    let out := buildAll ctx.out ((ctx.outWaitingQueue.take kRtmpSingleMax).map fun pkt => ⟨pkt, 0, false⟩)
    { out := out
      outWaitingQueue := ctx.outWaitingQueue.drop kRtmpSingleMax
      sending := true
      ioVecList := ctx.ioVecList ++ out.sendingBuffers }

def RtmpSender.ready (ctx : RtmpSender) : Bool := !ctx.sending

def RtmpSender.pushOutQueue (ctx : RtmpSender) (packet : Packet) : RtmpSender :=
  { ctx with outWaitingQueue := ctx.outWaitingQueue ++ [packet] }.send

-- The flag tells that the handler's onActive is called.
def RtmpSender.checkAndSend (ctx : RtmpSender) : RtmpSender × Bool :=
  let ctx := { ctx with
    sending := false
    out := { ctx.out with outCurrent := 0, sendingBuffers := [], outSendingPackets := [] } }
  if ctx.outWaitingQueue ≠ [] then (ctx.send, false) else (ctx, true)

def RtmpSender.Idle (ctx : RtmpSender) : Prop :=
  ctx.sending = false ∧ ctx.outWaitingQueue = [] ∧ ctx.ioVecList = []

instance (ctx : RtmpSender) : Decidable ctx.Idle := inferInstanceAs (Decidable (_ ∧ _))

theorem send_sending (ctx : RtmpSender) : ctx.send.sending = true := by
  by_cases sending : ctx.sending = true
  · rw [RtmpSender.send, if_pos sending]
    exact sending
  · rw [RtmpSender.send, if_neg sending]

theorem push_out_queue_sending (ctx : RtmpSender) (packet : Packet) : (ctx.pushOutQueue packet).sending = true :=
  send_sending _

theorem sending_not_idle (ctx : RtmpSender) (sending : ctx.sending = true) : ¬ ctx.Idle := fun idle =>
  absurd (idle.1.symm.trans sending) Bool.false_ne_true

theorem check_and_send_queued (ctx : RtmpSender) (queued : ctx.outWaitingQueue ≠ []) :
    ctx.checkAndSend.1.sending = true ∧ ctx.checkAndSend.2 = false := by
  rw [RtmpSender.checkAndSend]
  dsimp only
  rw [if_pos queued]
  exact ⟨send_sending _, rfl⟩

theorem check_and_send_empty (ctx : RtmpSender) (empty : ctx.outWaitingQueue = []) :
    ctx.checkAndSend.1.sending = false ∧ ctx.checkAndSend.1.outWaitingQueue = [] ∧
      ctx.checkAndSend.1.ioVecList = ctx.ioVecList ∧ ctx.checkAndSend.2 = true := by
  rw [RtmpSender.checkAndSend]
  dsimp only
  rw [if_neg (not_not.mpr empty)]
  exact ⟨rfl, empty, rfl, rfl⟩

end Lssvc.Mmedia
