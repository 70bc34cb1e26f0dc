import Lssvc.Foundation.Runs
import Lssvc.Mmedia.HandShake

set_option autoImplicit false

namespace Lssvc.Mmedia

open Lssvc.Foundation

structure Link (M : Type) where
  client : Peer M
  server : Peer M
  toClient : Bytes
  toServer : Bytes

inductive LinkEvent where
  | deliverClient (count : Nat) (atOnce : Bool)
  | deliverServer (count : Nat) (atOnce : Bool)
  | completeClient
  | completeServer
deriving DecidableEq, Repr

section

variable {M : Type} (phase : MessagePhase M) (hmac : Hmac) (clientDraws serverDraws : Draws)

def Link.open : Link M :=
  let (client, sent) :=
    ({ handshake := { isClient := true }, message := phase.idle } : Peer M).startHandShake hmac clientDraws
  let (server, reply) :=
    ({ handshake := { isClient := false }, message := phase.idle } : Peer M).startHandShake hmac serverDraws
  ⟨client, server, reply, sent⟩

-- A read hands over what has arrived, a closed connection nothing.
def linkStep (link : Link M) : LinkEvent → Link M
  | .deliverClient count atOnce =>
      let arrived := link.toClient.take count
      if arrived = [] ∨ link.client.closed then link
      else
        let (client, sent) :=
          { link.client with buffer := link.client.buffer ++ arrived }.parse phase hmac clientDraws atOnce
        { link with client := client, toClient := link.toClient.drop count, toServer := link.toServer ++ sent }
  | .deliverServer count atOnce =>
      let arrived := link.toServer.take count
      if arrived = [] ∨ link.server.closed then link
      else
        let (server, sent) :=
          { link.server with buffer := link.server.buffer ++ arrived }.parse phase hmac serverDraws atOnce
        { link with server := server, toServer := link.toServer.drop count, toClient := link.toClient ++ sent }
  | .completeClient =>
      if link.client.outstanding = 0 ∨ link.client.closed then link
      else
        let (client, sent) :=
          { link.client with outstanding := link.client.outstanding - 1 }.onWriteComplete phase
        { link with client := client, toServer := link.toServer ++ sent }
  | .completeServer =>
      if link.server.outstanding = 0 ∨ link.server.closed then link
      else
        let (server, sent) :=
          { link.server with outstanding := link.server.outstanding - 1 }.onWriteComplete phase
        { link with server := server, toClient := link.toClient ++ sent }

def Link.Quiescent (link : Link M) : Prop :=
  link.toClient = [] ∧ link.toServer = [] ∧ link.client.outstanding = 0 ∧ link.server.outstanding = 0

def Link.Agreed (link : Link M) : Prop :=
  link.client.state = .kRtmpMessage ∧ link.server.state = .kRtmpMessage

instance (link : Link M) : Decidable link.Quiescent := inferInstanceAs (Decidable (_ ∧ _))

instance (link : Link M) : Decidable link.Agreed := inferInstanceAs (Decidable (_ ∧ _))

theorem parse_hand_shake (peer : Peer M) (draws : Draws) (atOnce : Bool) (result : HandShakeResult)
    (inHandShake : peer.state = .kRtmpHandShake)
    (returned : peer.handshake.handShake hmac draws peer.buffer = result) :
    peer.parse phase hmac draws atOnce =
      let sent := { peer with handshake := result.handshake, buffer := result.buf }.sendAtOnce result.sent atOnce
      sent.1.resume phase sent.2 result.ret := by
  simp only [Peer.parse, inHandShake, returned]

theorem resume_again (peer : Peer M) (sent : Bytes) : peer.resume phase sent 1 = (peer, sent) := by
  rw [Peer.resume, if_neg (by decide), if_neg (by decide), if_neg (by decide)]

theorem parse_waits (peer : Peer M) (draws : Draws) (atOnce : Bool) (inHandShake : peer.state = .kRtmpHandShake)
    (waits : peer.handshake.handShake hmac draws peer.buffer =
      { handshake := peer.handshake, buf := peer.buffer, ret := 1 }) :
    peer.parse phase hmac draws atOnce = (peer, []) := by
  rw [parse_hand_shake phase hmac peer draws atOnce _ inHandShake waits]
  exact resume_again phase peer []

theorem parse_message_state (peer : Peer M) (draws : Draws) (atOnce : Bool) (inMessage : peer.state = .kRtmpMessage) :
    (peer.parse phase hmac draws atOnce).1.state = .kRtmpMessage := by
  rw [Peer.parse, inMessage]
  exact inMessage

theorem complete_message_state (peer : Peer M) (inMessage : peer.state = .kRtmpMessage) :
    (peer.onWriteComplete phase).1.state = .kRtmpMessage := by
  rw [Peer.onWriteComplete, inMessage]

theorem enter_message_state (peer : Peer M) : (peer.enterMessage phase).1.state = .kRtmpMessage := by
  rw [Peer.enterMessage]
  dsimp only
  split_ifs <;> rfl

theorem complete_hand_shake (peer : Peer M) (inHandShake : peer.state = .kRtmpHandShake) :
    peer.onWriteComplete phase =
      { peer with handshake := peer.handshake.writeComplete.1 }.send peer.handshake.writeComplete.2 := by
  simp only [Peer.onWriteComplete, inHandShake]

theorem send_kept (peer : Peer M) (sent : Option Bytes) :
    (peer.send sent).1.handshake = peer.handshake ∧ (peer.send sent).1.state = peer.state ∧
      (peer.send sent).1.buffer = peer.buffer ∧ (peer.send sent).1.closed = peer.closed ∧
      (peer.send sent).2 = sent.getD [] := by
  cases sent with
  | none => exact ⟨rfl, rfl, rfl, rfl, rfl⟩
  | some bytes => exact ⟨rfl, rfl, rfl, rfl, rfl⟩

theorem complete_kept (peer : Peer M) (inHandShake : peer.state = .kRtmpHandShake) :
    (peer.onWriteComplete phase).1.handshake = peer.handshake.writeComplete.1 ∧
      (peer.onWriteComplete phase).1.state = .kRtmpHandShake ∧
      (peer.onWriteComplete phase).1.buffer = peer.buffer ∧ (peer.onWriteComplete phase).1.closed = peer.closed ∧
      (peer.onWriteComplete phase).2 = peer.handshake.writeComplete.2.getD [] := by
  obtain ⟨handshake, state, buffer, closed, bytes⟩ :=
    send_kept { peer with handshake := peer.handshake.writeComplete.1 } peer.handshake.writeComplete.2
  rw [complete_hand_shake phase peer inHandShake]
  exact ⟨handshake, state.trans inHandShake, buffer, closed, bytes⟩

theorem answer_created (handshake : RtmpHandShake) (draws other : Draws) (rest : Bytes)
    (complex : handshake.isComplexHandshake = true) :
    ∃ c2s2 : Bytes, c2s2.length = kRtmpHandShakePacketSize ∧
      handshake.answer hmac draws (createC1S1 hmac (!handshake.isClient) true other.c1s1 ++ rest) =
        some { handshake with isComplexHandshake := true, c2s2 := c2s2 } := by
  obtain ⟨whole, offset, accepted⟩ := check_accepts_created hmac (!handshake.isClient) other.c1s1
  rw [Bool.not_not] at accepted
  have front : (createC1S1 hmac (!handshake.isClient) true other.c1s1 ++ rest).take (kRtmpHandShakePacketSize + 1) =
      createC1S1 hmac (!handshake.isClient) true other.c1s1 := List.take_left' whole
  have positive : (offset : Int) ≥ 0 := Int.natCast_nonneg offset
  refine ⟨_, create_c2s2_length hmac handshake.isClient true draws.c2s2 draws.now
    ((createC1S1 hmac (!handshake.isClient) true other.c1s1).drop 1) offset, ?_⟩
  rw [RtmpHandShake.answer]
  simp only [front, complex, accepted, if_pos positive]
  rfl

theorem client_takes_answer (peer : Peer M) (draws other : Draws) (rest : Bytes) (atOnce : Bool)
    (inHandShake : peer.state = .kRtmpHandShake) (isClient : peer.handshake.isClient = true)
    (complex : peer.handshake.isComplexHandshake = true) (waits : peer.handshake.state = .kHandShakeWaitS0S1)
    (buffer : peer.buffer = createC1S1 hmac false true other.c1s1 ++ rest) :
    if rest.length = kRtmpHandShakePacketSize then (peer.parse phase hmac draws atOnce).1.state = .kRtmpMessage
    else (peer.parse phase hmac draws atOnce).1.state = .kRtmpHandShake ∧
      ((peer.parse phase hmac draws atOnce).1.handshake.state = .kHandShakePostC2 ∨
        (peer.parse phase hmac draws atOnce).1.handshake.state = .kHandShakeDone) := by
  have whole := (check_accepts_created hmac false other.c1s1).1
  obtain ⟨c2s2, _, answered⟩ := answer_created hmac peer.handshake draws other rest complex
  rw [isClient, Bool.not_true, ← buffer] at answered
  have enough : ¬ peer.buffer.length < kRtmpHandShakePacketSize + 1 := by
    rw [buffer, List.length_append, whole]
    omega
  have behind : peer.buffer.drop (kRtmpHandShakePacketSize + 1) = rest := by
    rw [buffer]
    exact List.drop_left' whole
  by_cases exactly : rest.length = kRtmpHandShakePacketSize
  · rw [if_pos exactly]
    have returned : (peer.handshake.handShake hmac draws peer.buffer).ret = 0 := by
      simp only [RtmpHandShake.handShake, waits, if_neg enough, answered, behind, if_pos exactly]
    rw [parse_hand_shake phase hmac peer draws atOnce _ inHandShake rfl]
    dsimp only
    rw [returned, Peer.resume, if_pos rfl]
    exact enter_message_state phase _
  · rw [if_neg exactly]
    have returned : peer.handshake.handShake hmac draws peer.buffer =
        { handshake := { peer.handshake with isComplexHandshake := true, c2s2 := c2s2, state := .kHandShakePostC2 }
          buf := rest
          sent := some c2s2
          ret := 1 } := by
      simp only [RtmpHandShake.handShake, waits, if_neg enough, answered, behind, if_neg exactly, isClient]
    rw [parse_hand_shake phase hmac peer draws atOnce _ inHandShake returned]
    dsimp only
    rw [resume_again]
    cases atOnce with
    | false => exact ⟨inHandShake, .inl rfl⟩
    | true => exact ⟨inHandShake, .inr rfl⟩

theorem server_takes_greeting (peer : Peer M) (draws other : Draws) (atOnce : Bool)
    (inHandShake : peer.state = .kRtmpHandShake) (isServer : peer.handshake.isClient = false)
    (complex : peer.handshake.isComplexHandshake = true) (waits : peer.handshake.state = .kHandShakeWaitC0C1)
    (buffer : peer.buffer = createC1S1 hmac true true other.c1s1) :
    ∃ next sent, peer.parse phase hmac draws atOnce = (next, sent) ∧ next.state = .kRtmpHandShake ∧
      next.closed = peer.closed ∧ next.buffer = [] ∧ next.handshake.isClient = false ∧
      next.handshake.c1s1 = peer.handshake.c1s1 ∧ next.handshake.c2s2.length = kRtmpHandShakePacketSize ∧
      (next.handshake.state = .kHandShakePostS0S1 ∧ sent = peer.handshake.c1s1 ∨
        next.handshake.state = .kHandShakePostS2 ∧ sent = peer.handshake.c1s1 ++ next.handshake.c2s2) := by
  have whole := (check_accepts_created hmac true other.c1s1).1
  obtain ⟨c2s2, length, answered⟩ := answer_created hmac peer.handshake draws other [] complex
  rw [isServer, Bool.not_false, List.append_nil, ← buffer] at answered
  have enough : ¬ peer.buffer.length < kRtmpHandShakePacketSize + 1 := by
    rw [buffer, whole]
    omega
  have behind : peer.buffer.drop (kRtmpHandShakePacketSize + 1) = [] := by
    rw [buffer, ← whole]
    exact List.drop_length
  have returned : peer.handshake.handShake hmac draws peer.buffer =
      { handshake := { peer.handshake with isComplexHandshake := true, c2s2 := c2s2, state := .kHandShakePostS0S1 }
        buf := []
        sent := some peer.handshake.c1s1
        ret := 1 } := by
    simp only [RtmpHandShake.handShake, waits, if_neg enough, answered, behind, isServer]
  rw [parse_hand_shake phase hmac peer draws atOnce _ inHandShake returned]
  dsimp only
  rw [resume_again]
  refine ⟨_, _, rfl, ?_⟩
  cases atOnce with
  | false => exact ⟨inHandShake, rfl, rfl, isServer, rfl, length, .inl ⟨rfl, rfl⟩⟩
  | true => exact ⟨inHandShake, rfl, rfl, isServer, rfl, length, .inr ⟨rfl, rfl⟩⟩

theorem server_takes_c2 (peer : Peer M) (draws : Draws) (atOnce : Bool) (inHandShake : peer.state = .kRtmpHandShake)
    (waits : peer.handshake.state = .kHandShakeWaitC2) :
    if kRtmpHandShakePacketSize ≤ peer.buffer.length then (peer.parse phase hmac draws atOnce).1.state = .kRtmpMessage
    else peer.parse phase hmac draws atOnce = (peer, []) := by
  by_cases whole : kRtmpHandShakePacketSize ≤ peer.buffer.length
  · rw [if_pos whole]
    have returned : (peer.handshake.handShake hmac draws peer.buffer).ret = 0 := by
      simp only [RtmpHandShake.handShake, waits, if_neg (Nat.not_lt.mpr whole), checkC2S2, if_true]
    rw [parse_hand_shake phase hmac peer draws atOnce _ inHandShake rfl]
    dsimp only
    rw [returned, Peer.resume, if_pos rfl]
    exact enter_message_state phase _
  · rw [if_neg whole]
    refine parse_waits phase hmac peer draws atOnce inHandShake ?_
    simp only [RtmpHandShake.handShake, waits, if_pos (Nat.not_le.mp whole)]

end

end Lssvc.Mmedia
