import Lssvc.Mmedia.Backlog
import Lssvc.Mmedia.ControlMessages
import Lssvc.Mmedia.HandShakeAgreement

set_option autoImplicit false

namespace Lssvc.Mmedia

open Lssvc.Foundation

-- What of RtmpContext counts received bytes. queued are the messages
-- sendBytesRecv has handed to pushOutQueue.
structure RtmpReceiver where
  parser : RtmpIn := .fresh
  ackSize : Int := 2048000
  inBytes : Int := 0
  lastLeft : Int := 0
  queued : List Packet := []

def RtmpReceiver.sendBytesRecv (ctx : RtmpReceiver) : RtmpReceiver :=
  if ctx.ackSize ≤ ctx.inBytes then
    let pkt := controlPacket kRtmpMsgTypeBytesRead (overwrite controlData 0 (writeUint32T (toUint32 ctx.inBytes))) 4
    { ctx with queued := ctx.queued ++ [pkt], inBytes := 0 }
  else ctx

-- The handlers of complete messages leave the count alone but set the window.
def windowAfter (ackSize : Int) (messages : List Packet) : Int :=
  messages.foldl
    (fun ackSize pkt =>
      if pkt.type = kRtmpMsgTypeWindowACKSize.toNat then handleAckWindowSize pkt ackSize else ackSize)
    ackSize

def RtmpReceiver.count (ctx : RtmpReceiver) (readable : Nat) : RtmpReceiver :=
  { ctx with inBytes := toInt32 (ctx.inBytes + (readable - ctx.lastLeft)) }.sendBytesRecv

-- parseMessage, and last_left_ as parse sets it afterwards.
def RtmpReceiver.parseMessage (ctx : RtmpReceiver) (buf : Bytes) : RtmpReceiver × Bytes × ParseEnd :=
  let ctx := ctx.count buf.length
  let outcome := Mmedia.parseMessage ctx.parser buf
  ({ ctx with
    parser := outcome.state
    ackSize := windowAfter ctx.ackSize outcome.messages
    lastLeft := toInt32 outcome.buf.length }, outcome.buf, outcome.ending)

-- What the context sends has no part in the count. A read outside the buffer
-- ends the run.
def receiving : MessagePhase RtmpReceiver where
  idle := {}
  sendConnect ctx := (ctx, {})
  parseMessage ctx buf :=
    let (ctx, buf, ending) := ctx.parseMessage buf
    (ctx, buf, {}, ending == .returned)
  checkAndSend ctx := (ctx, {})

def reported (queued : List Packet) : List Nat := queued.map fun pkt => readUint32T pkt.body

-- A context with what there is to report: the bytes received in the message
-- phase so far, and what they were at each report.
structure AckRun where
  peer : Peer RtmpReceiver
  received : Nat := 0
  totals : List Nat := []

def AckRun.next (s : AckRun) (peer : Peer RtmpReceiver) (received : Nat) : AckRun :=
  { peer := peer
    received := received
    totals := s.totals ++ List.replicate (peer.message.queued.length - s.peer.message.queued.length) received }

inductive AckEvent where
  | parse (piece : Bytes) (atOnce : Bool)
  | writeComplete
deriving DecidableEq, Repr

section

variable (hmac : Hmac) (draws : Draws)

-- The message phase begins with what the handshake leaves in the buffer.
def ackStep (s : AckRun) : AckEvent → AckRun
  | .parse piece atOnce =>
      if s.peer.closed then s
      else
        let peer := { s.peer with buffer := s.peer.buffer ++ piece }
        let after := (peer.parse receiving hmac draws atOnce).1
        if s.peer.state = .kRtmpMessage then s.next after (s.received + piece.length)
        else if after.state = .kRtmpMessage then
          s.next after (s.received + (peer.handshake.handShake hmac draws peer.buffer).buf.length)
        else s.next after s.received
  | .writeComplete =>
      if s.peer.closed then s
      else
        let after := (s.peer.onWriteComplete receiving).1
        if s.peer.state = .kRtmpWaitingDone then s.next after (s.received + s.peer.buffer.length)
        else s.next after s.received

theorem ack_step_received (s : AckRun) (event : AckEvent) : s.received ≤ (ackStep hmac draws s event).received := by
  cases event with
  | parse piece atOnce =>
      rw [ackStep]
      dsimp only
      split_ifs
      · exact Nat.le_refl _
      · exact Nat.le_add_right _ _
      · exact Nat.le_add_right _ _
      · exact Nat.le_refl _
  | writeComplete =>
      rw [ackStep]
      dsimp only
      split_ifs
      · exact Nat.le_refl _
      · exact Nat.le_add_right _ _
      · exact Nat.le_refl _

theorem ack_run_received (s : AckRun) (events : List AckEvent) :
    s.received ≤ (run (ackStep hmac draws) s events).received :=
  @run_invariant _ _ _ (fun state => s.received ≤ state.received)
    (fun state event grown => Nat.le_trans grown (ack_step_received hmac draws state event)) s (Nat.le_refl _) events

end

theorem parse_loop_shorter (st : RtmpIn) (total : Nat) (buf : Bytes) :
    (parseLoop st total buf).buf.length ≤ buf.length := by
  fun_induction parseLoop st total buf with
  | case1 => exact Nat.le_refl _
  | case2 => exact Nat.le_refl _
  | case3 st total buf _ next chunk taken _ ih =>
      refine Nat.le_trans ih ?_
      rw [List.length_drop]
      exact Nat.sub_le _ _
  | case4 => exact Nat.le_refl _

def RtmpReceiver.Due (ctx : RtmpReceiver) (readable : Nat) : Prop :=
  ctx.ackSize ≤ ctx.inBytes + (readable - ctx.lastLeft)

instance (ctx : RtmpReceiver) (readable : Nat) : Decidable (ctx.Due readable) := inferInstanceAs (Decidable (_ ≤ _))

-- Every byte received is in a report, in in_bytes_, or behind last_left_.
structure Tally (ctx : RtmpReceiver) (readable received : Nat) (totals : List Nat) : Prop where
  once : ((reported ctx.queued).sum : Int) + ctx.inBytes + readable = received + ctx.lastLeft
  counted : 0 ≤ ctx.inBytes
  left : 0 ≤ ctx.lastLeft
  kept : ctx.lastLeft ≤ readable
  unread : readable ≤ received
  each : (reported ctx.queued).length = totals.length
  grown : totals.Pairwise (· ≤ ·)
  past : ∀ total ∈ totals, total ≤ received

theorem tally_arrive {ctx : RtmpReceiver} {readable received : Nat} {totals : List Nat}
    (tally : Tally ctx readable received totals) (more : Nat) :
    Tally ctx (readable + more) (received + more) totals := by
  obtain ⟨once, counted, left, kept, unread, each, grown, past⟩ := tally
  refine ⟨by omega, counted, left, by omega, by omega, each, grown, fun total inside => ?_⟩
  exact Nat.le_trans (past total inside) (Nat.le_add_right _ _)

theorem count_early (ctx : RtmpReceiver) (readable : Nat) (small : InInt32 (ctx.inBytes + (readable - ctx.lastLeft)))
    (early : ¬ ctx.Due readable) :
    ctx.count readable = { ctx with inBytes := ctx.inBytes + (readable - ctx.lastLeft) } := by
  rw [RtmpReceiver.count, to_int32_exact _ small]
  exact if_neg early

theorem bytes_recv_sent (ctx : RtmpReceiver) (low : 0 ≤ ctx.inBytes) (high : ctx.inBytes < 2147483648)
    (due : ctx.ackSize ≤ ctx.inBytes) :
    ∃ pkt, ctx.sendBytesRecv = { ctx with queued := ctx.queued ++ [pkt], inBytes := 0 } ∧
      (readUint32T pkt.body : Int) = ctx.inBytes := by
  have word := to_uint32_exact ctx.inBytes low (by omega)
  have payload := read_write_uint32 (toUint32 ctx.inBytes) (by omega) []
  exact ⟨_, if_pos due, (congrArg _ payload).trans word⟩

theorem count_due (ctx : RtmpReceiver) (readable : Nat) (small : InInt32 (ctx.inBytes + (readable - ctx.lastLeft)))
    (positive : 0 ≤ ctx.inBytes + (readable - ctx.lastLeft)) (due : ctx.Due readable) :
    ∃ pkt, ctx.count readable = { ctx with queued := ctx.queued ++ [pkt], inBytes := 0 } ∧
      (readUint32T pkt.body : Int) = ctx.inBytes + (readable - ctx.lastLeft) := by
  rw [RtmpReceiver.count, to_int32_exact _ small]
  exact bytes_recv_sent { ctx with inBytes := ctx.inBytes + (readable - ctx.lastLeft) } positive small.2 due

theorem parse_message_left (ctx : RtmpReceiver) (buf : Bytes) (small : buf.length < 2147483648) :
    (ctx.parseMessage buf).2.1.length ≤ buf.length ∧
      (ctx.parseMessage buf).1.lastLeft = (ctx.parseMessage buf).2.1.length := by
  have shorter := parse_loop_shorter (ctx.count buf.length).parser (toUint32 buf.length) buf
  exact ⟨shorter, to_int32_exact _ ⟨by omega, Int.lt_of_le_of_lt (Int.ofNat_le.mpr shorter) (by omega)⟩⟩

theorem parse_message_count (ctx : RtmpReceiver) (buf : Bytes) :
    (ctx.parseMessage buf).1.queued = (ctx.count buf.length).queued ∧
      (ctx.parseMessage buf).1.inBytes = (ctx.count buf.length).inBytes := ⟨rfl, rfl⟩

theorem tally_waits (ctx : RtmpReceiver) (buf : Bytes) (received : Nat) (totals : List Nat)
    (tally : Tally ctx buf.length received totals) (few : received < 2147483648) (early : ¬ ctx.Due buf.length) :
    (ctx.parseMessage buf).1.queued = ctx.queued ∧
      Tally (ctx.parseMessage buf).1 (ctx.parseMessage buf).2.1.length received totals := by
  obtain ⟨once, counted, left, kept, unread, each, grown, past⟩ := tally
  obtain ⟨shorter, behind⟩ := parse_message_left ctx buf (by omega)
  obtain ⟨queued, inBytes⟩ := parse_message_count ctx buf
  have counts := count_early ctx buf.length ⟨by omega, by omega⟩ early
  rw [counts] at queued inBytes
  dsimp only at queued inBytes
  refine ⟨queued, ?_, by omega, by omega, by omega, by omega, ?_, grown, past⟩
  · rw [queued, inBytes, behind]
    omega
  · rw [queued, each]

theorem tally_reports (ctx : RtmpReceiver) (buf : Bytes) (received : Nat) (totals : List Nat)
    (tally : Tally ctx buf.length received totals) (few : received < 2147483648) (due : ctx.Due buf.length) :
    ∃ pkt, (ctx.parseMessage buf).1.queued = ctx.queued ++ [pkt] ∧
      (reported ctx.queued).sum + readUint32T pkt.body = received ∧
      Tally (ctx.parseMessage buf).1 (ctx.parseMessage buf).2.1.length received (totals ++ [received]) := by
  obtain ⟨once, counted, left, kept, unread, each, grown, past⟩ := tally
  obtain ⟨shorter, behind⟩ := parse_message_left ctx buf (by omega)
  obtain ⟨queued, emptied⟩ := parse_message_count ctx buf
  obtain ⟨pkt, counts, carried⟩ := count_due ctx buf.length ⟨by omega, by omega⟩ (by omega) due
  rw [counts] at queued emptied
  dsimp only at queued emptied
  have values : reported (ctx.parseMessage buf).1.queued = reported ctx.queued ++ [readUint32T pkt.body] := by
    rw [queued]
    exact List.map_append
  refine ⟨pkt, queued, by omega, ?_, by omega, by omega, by omega, by omega, ?_, ?_, ?_⟩
  · rw [values, List.sum_append_nat, emptied, behind, List.sum_singleton]
    omega
  · rw [values, List.length_append, List.length_append, each]
    rfl
  · exact List.pairwise_append.mpr ⟨grown, List.pairwise_singleton _ _, fun total inside last here =>
      List.mem_singleton.mp here ▸ past total inside⟩
  · exact List.forall_mem_append.mpr ⟨past, List.forall_mem_singleton.mpr (Nat.le_refl _)⟩

theorem reported_snoc (queued : List Packet) (pkt : Packet) (totals : List Nat) (received : Nat)
    (each : (reported queued).length = totals.length)
    (sum : (reported queued).sum + readUint32T pkt.body = received) :
    reported (queued ++ [pkt]) = totals ++ [received] ↔
      reported queued = totals ∧ ∀ total ∈ totals, total = 0 := by
  have values : reported (queued ++ [pkt]) = reported queued ++ [readUint32T pkt.body] := List.map_append
  rw [values, ← List.sum_eq_zero_iff_forall_eq_nat]
  constructor
  · intro same
    obtain ⟨earlier, last⟩ := List.append_inj same each
    have last : readUint32T pkt.body = received := List.singleton_inj.mp last
    rw [earlier] at sum
    exact ⟨earlier, by omega⟩
  · rintro ⟨earlier, zero⟩
    rw [earlier, zero, Nat.zero_add] at sum
    rw [earlier, sum]

structure RtmpReceiver.Silent (ctx : RtmpReceiver) : Prop where
  inBytes : ctx.inBytes = 0
  lastLeft : ctx.lastLeft = 0
  queued : ctx.queued = []

theorem tally_silent (ctx : RtmpReceiver) (silent : ctx.Silent) (readable : Nat) : Tally ctx readable readable [] := by
  obtain ⟨inBytes, lastLeft, queued⟩ := silent
  refine ⟨?_, by omega, by omega, by omega, Nat.le_refl _, ?_, .nil, fun _ impossible => by cases impossible⟩
  · rw [queued, inBytes, lastLeft]
    change ((0 : Nat) : Int) + 0 + readable = readable + 0
    omega
  · rw [queued]
    rfl

structure AckRun.Fresh (s : AckRun) : Prop where
  silent : s.peer.message.Silent
  received : s.received = if s.peer.state = .kRtmpMessage then s.peer.buffer.length else 0
  totals : s.totals = []

structure AckCounted (s : AckRun) : Prop where
  before : s.peer.state ≠ .kRtmpMessage → s.peer.message.Silent ∧ s.received = 0 ∧ s.totals = []
  during : s.peer.state = .kRtmpMessage → Tally s.peer.message s.peer.buffer.length s.received s.totals

theorem fresh_counted (s : AckRun) (fresh : s.Fresh) : AckCounted s := by
  obtain ⟨silent, received, totals⟩ := fresh
  constructor
  · intro before
    rw [if_neg before] at received
    exact ⟨silent, received, totals⟩
  · intro during
    rw [if_pos during] at received
    rw [received, totals]
    exact tally_silent _ silent _

def AckRun.Exact (s : AckRun) : Prop := reported s.peer.message.queued = s.totals

def AckRun.Single (s : AckRun) : AckEvent → Prop
  | .parse piece _ =>
      s.peer.closed = false → s.peer.state = .kRtmpMessage →
        (∀ total ∈ s.totals, total = 0) ∨ ¬ s.peer.message.Due (s.peer.buffer ++ piece).length
  | .writeComplete => True

section

variable (hmac : Hmac) (draws : Draws)

theorem parse_in_message (peer : Peer RtmpReceiver) (atOnce : Bool) (inMessage : peer.state = .kRtmpMessage) :
    (peer.parse receiving hmac draws atOnce).1.message = (peer.message.parseMessage peer.buffer).1 ∧
      (peer.parse receiving hmac draws atOnce).1.buffer = (peer.message.parseMessage peer.buffer).2.1 ∧
      (peer.parse receiving hmac draws atOnce).1.state = .kRtmpMessage := by
  rw [Peer.parse, inMessage]
  exact ⟨rfl, rfl, inMessage⟩

theorem enter_message_counts (peer : Peer RtmpReceiver) :
    (peer.enterMessage receiving).1.state = .kRtmpMessage ∧
      ((peer.buffer = [] ∧ (peer.enterMessage receiving).1.message = peer.message ∧
          (peer.enterMessage receiving).1.buffer = []) ∨
        (peer.enterMessage receiving).1.message = (peer.message.parseMessage peer.buffer).1 ∧
          (peer.enterMessage receiving).1.buffer = (peer.message.parseMessage peer.buffer).2.1) := by
  refine ⟨enter_message_state receiving peer, ?_⟩
  rw [Peer.enterMessage]
  dsimp only
  split_ifs with client filled filled
  · exact .inr ⟨rfl, rfl⟩
  · exact .inl ⟨not_not.mp filled, rfl, not_not.mp filled⟩
  · exact .inr ⟨rfl, rfl⟩
  · exact .inl ⟨not_not.mp filled, rfl, not_not.mp filled⟩

theorem parse_waiting (peer : Peer RtmpReceiver) (atOnce : Bool) (waiting : peer.state = .kRtmpWaitingDone) :
    peer.parse receiving hmac draws atOnce = (peer, []) := by rw [Peer.parse, waiting]

theorem send_message (peer : Peer RtmpReceiver) (sent : Option Bytes) : (peer.send sent).1.message = peer.message := by
  cases sent <;> rfl

theorem complete_counts (peer : Peer RtmpReceiver) :
    (peer.onWriteComplete receiving).1.message = peer.message ∧
      (peer.onWriteComplete receiving).1.buffer = peer.buffer ∧
      (peer.onWriteComplete receiving).1.state =
        if peer.state = .kRtmpWaitingDone then .kRtmpMessage else peer.state := by
  cases state : peer.state with
  | kRtmpHandShake =>
      obtain ⟨_, kept, buffer, _, _⟩ := complete_kept receiving peer state
      refine ⟨?_, buffer, kept⟩
      rw [complete_hand_shake receiving peer state]
      exact send_message _ _
  | kRtmpWaitingDone =>
      rw [Peer.onWriteComplete, state]
      dsimp only
      split <;> exact ⟨rfl, rfl, rfl⟩
  | kRtmpMessage =>
      rw [Peer.onWriteComplete, state]
      exact ⟨rfl, rfl, rfl⟩

theorem send_at_once_kept (peer : Peer RtmpReceiver) (sent : Option Bytes) (atOnce : Bool) :
    (peer.sendAtOnce sent atOnce).1.message = peer.message ∧ (peer.sendAtOnce sent atOnce).1.buffer = peer.buffer ∧
      (peer.sendAtOnce sent atOnce).1.state = peer.state := by
  cases sent with
  | none => exact ⟨rfl, rfl, rfl⟩
  | some bytes =>
      cases atOnce with
      | false => exact ⟨rfl, rfl, rfl⟩
      | true =>
          obtain ⟨_, state, buffer, _, _⟩ :=
            send_kept { peer with handshake := peer.handshake.writeComplete.1 } peer.handshake.writeComplete.2
          exact ⟨send_message _ _, buffer, state⟩

theorem opened_fresh (isClient : Bool) :
    AckRun.Fresh
      { peer := (({ handshake := { isClient := isClient }, message := receiving.idle } : Peer RtmpReceiver).startHandShake
          hmac draws).1 } := by
  rw [Peer.startHandShake]
  dsimp only
  generalize RtmpHandShake.start hmac draws { isClient := isClient } = started
  obtain ⟨_, state, _, _, _⟩ :=
    send_kept ({ handshake := started.1, message := receiving.idle } : Peer RtmpReceiver) started.2
  have message := send_message { handshake := started.1, message := receiving.idle } started.2
  refine ⟨?_, ?_, rfl⟩
  · rw [message]
    exact ⟨rfl, rfl, rfl⟩
  · rw [state]
    rfl

theorem parse_in_hand_shake (peer : Peer RtmpReceiver) (atOnce : Bool) (inHandShake : peer.state = .kRtmpHandShake)
    (left : Bytes) (leftOver : (peer.handshake.handShake hmac draws peer.buffer).buf = left) :
    ((peer.parse receiving hmac draws atOnce).1.state ≠ .kRtmpMessage ∧
        (peer.parse receiving hmac draws atOnce).1.message = peer.message) ∨
      (peer.parse receiving hmac draws atOnce).1.state = .kRtmpMessage ∧
        ((left = [] ∧ (peer.parse receiving hmac draws atOnce).1.message = peer.message ∧
            (peer.parse receiving hmac draws atOnce).1.buffer = []) ∨
          (peer.parse receiving hmac draws atOnce).1.message = (peer.message.parseMessage left).1 ∧
            (peer.parse receiving hmac draws atOnce).1.buffer = (peer.message.parseMessage left).2.1) := by
  rw [parse_hand_shake receiving hmac peer draws atOnce _ inHandShake rfl]
  dsimp only
  generalize peer.handshake.handShake hmac draws peer.buffer = result at leftOver
  obtain ⟨message, buffer, state⟩ :=
    send_at_once_kept { peer with handshake := result.handshake, buffer := result.buf } result.sent atOnce
  generalize { peer with handshake := result.handshake, buffer := result.buf }.sendAtOnce result.sent atOnce =
    sent at message buffer state
  dsimp only at message buffer state
  rw [leftOver] at buffer
  rw [inHandShake] at state
  rw [Peer.resume]
  split_ifs
  · obtain ⟨entered, counts⟩ := enter_message_counts sent.1
    rw [message, buffer] at counts
    exact .inr ⟨entered, counts⟩
  · exact .inl ⟨by rw [state]; decide, message⟩
  · refine .inl ⟨?_, message⟩
    intro waiting
    cases waiting
  · exact .inl ⟨by rw [state]; decide, message⟩

theorem next_kept (s : AckRun) (peer : Peer RtmpReceiver) (received : Nat) (message : peer.message = s.peer.message) :
    (s.next peer received).totals = s.totals ∧ ((s.next peer received).Exact ↔ s.Exact) := by
  have totals : (s.next peer received).totals = s.totals := by
    rw [AckRun.next, message, Nat.sub_self]
    exact List.append_nil s.totals
  refine ⟨totals, ?_⟩
  rw [AckRun.Exact, totals]
  change reported peer.message.queued = s.totals ↔ s.Exact
  rw [message, AckRun.Exact]

theorem next_parsed (s : AckRun) (peer : Peer RtmpReceiver) (buf : Bytes) (received : Nat)
    (tally : Tally s.peer.message buf.length received s.totals) (few : received < 2147483648)
    (message : peer.message = (s.peer.message.parseMessage buf).1)
    (buffer : peer.buffer = (s.peer.message.parseMessage buf).2.1) (state : peer.state = .kRtmpMessage) :
    AckCounted (s.next peer received) ∧
      ((s.next peer received).Exact ↔
        s.Exact ∧ ((∀ total ∈ s.totals, total = 0) ∨ ¬ s.peer.message.Due buf.length)) := by
  by_cases due : s.peer.message.Due buf.length
  · obtain ⟨pkt, queued, sum, tallied⟩ := tally_reports s.peer.message buf received s.totals tally few due
    have totals : (s.next peer received).totals = s.totals ++ [received] := by
      rw [AckRun.next, message, queued, List.length_append, List.length_singleton, Nat.add_sub_cancel_left]
      rfl
    rw [← message, ← buffer, ← totals] at tallied
    refine ⟨⟨fun before => absurd state before, fun _ => tallied⟩, ?_⟩
    rw [AckRun.Exact, totals]
    change reported peer.message.queued = s.totals ++ [received] ↔ _
    rw [message, queued, reported_snoc _ pkt _ received tally.each sum]
    exact and_congr_right fun _ => (or_iff_left (not_not.mpr due)).symm
  · obtain ⟨queued, tallied⟩ := tally_waits s.peer.message buf received s.totals tally few due
    have totals : (s.next peer received).totals = s.totals := by
      rw [AckRun.next, message, queued, Nat.sub_self]
      exact List.append_nil s.totals
    rw [← message, ← buffer, ← totals] at tallied
    refine ⟨⟨fun before => absurd state before, fun _ => tallied⟩, ?_⟩
    rw [AckRun.Exact, totals]
    change reported peer.message.queued = s.totals ↔ _
    rw [message, queued]
    exact (and_iff_left (.inr due)).symm

theorem silent_kept (s : AckRun) (peer : Peer RtmpReceiver) (counted : AckCounted s)
    (before : s.peer.state ≠ .kRtmpMessage) (message : peer.message = s.peer.message)
    (after : peer.state ≠ .kRtmpMessage) :
    AckCounted (s.next peer s.received) ∧ ((s.next peer s.received).Exact ↔ s.Exact) := by
  obtain ⟨silent, received, totals⟩ := counted.before before
  obtain ⟨totalsKept, exact⟩ := next_kept s peer s.received message
  refine ⟨⟨fun _ => ⟨?_, received, totalsKept.trans totals⟩, fun during => absurd during after⟩, exact⟩
  rw [← message] at silent
  exact silent

theorem silent_begins (s : AckRun) (peer : Peer RtmpReceiver) (counted : AckCounted s)
    (before : s.peer.state ≠ .kRtmpMessage) (message : peer.message = s.peer.message)
    (during : peer.state = .kRtmpMessage) :
    AckCounted (s.next peer (s.received + peer.buffer.length)) ∧
      ((s.next peer (s.received + peer.buffer.length)).Exact ↔ s.Exact) := by
  obtain ⟨silent, received, totals⟩ := counted.before before
  obtain ⟨totalsKept, exact⟩ := next_kept s peer (s.received + peer.buffer.length) message
  refine ⟨⟨fun before => absurd during before, fun _ => ?_⟩, exact⟩
  rw [totalsKept, totals]
  change Tally peer.message peer.buffer.length (s.received + peer.buffer.length) []
  rw [message, received, Nat.zero_add]
  exact tally_silent _ silent _

theorem ack_hand_shake_counted (s : AckRun) (piece : Bytes) (atOnce : Bool) (counted : AckCounted s)
    (running : ¬ s.peer.closed = true) (inHandShake : s.peer.state = .kRtmpHandShake)
    (few : (ackStep hmac draws s (.parse piece atOnce)).received < 2147483648) :
    AckCounted (ackStep hmac draws s (.parse piece atOnce)) ∧
      ((ackStep hmac draws s (.parse piece atOnce)).Exact ↔ s.Exact) := by
  have before : s.peer.state ≠ .kRtmpMessage := by
    rw [inHandShake]
    decide
  obtain ⟨silent, received, totals⟩ := counted.before before
  rw [ackStep, if_neg running] at few ⊢
  dsimp only at few ⊢
  rw [if_neg before] at few ⊢
  have cases := parse_in_hand_shake hmac draws { s.peer with buffer := s.peer.buffer ++ piece } atOnce inHandShake _ rfl
  generalize Peer.parse receiving hmac draws { s.peer with buffer := s.peer.buffer ++ piece } atOnce = after
    at cases few ⊢
  generalize s.peer.handshake.handShake hmac draws (s.peer.buffer ++ piece) = result at cases few ⊢
  rcases cases with ⟨outside, message⟩ | ⟨inside, ⟨nothing, message, buffer⟩ | ⟨message, buffer⟩⟩
  · rw [if_neg outside]
    exact silent_kept s after.1 counted before message outside
  · rw [if_pos inside, nothing]
    have begun := silent_begins s after.1 counted before message inside
    rw [buffer] at begun
    exact begun
  · rw [if_pos inside] at few ⊢
    have tally := tally_silent s.peer.message silent result.buf.length
    have all : s.received + result.buf.length = result.buf.length := by rw [received, Nat.zero_add]
    have none : ∀ total ∈ s.totals, total = 0 := by
      rw [totals]
      intro total impossible
      cases impossible
    rw [← totals] at tally
    rw [all] at few ⊢
    obtain ⟨kept, exact⟩ := next_parsed s after.1 result.buf result.buf.length tally few message buffer inside
    exact ⟨kept, exact.trans (and_iff_left (.inl none))⟩

theorem ack_parse_counted (s : AckRun) (piece : Bytes) (atOnce : Bool) (counted : AckCounted s)
    (few : (ackStep hmac draws s (.parse piece atOnce)).received < 2147483648) :
    AckCounted (ackStep hmac draws s (.parse piece atOnce)) ∧
      ((ackStep hmac draws s (.parse piece atOnce)).Exact ↔ s.Exact ∧ s.Single (.parse piece atOnce)) := by
  by_cases closed : s.peer.closed = true
  · have same : ackStep hmac draws s (.parse piece atOnce) = s := if_pos closed
    have single : s.Single (.parse piece atOnce) := fun running => absurd (closed.symm.trans running) (by decide)
    rw [same]
    exact ⟨counted, (and_iff_left single).symm⟩
  · cases state : s.peer.state with
    | kRtmpHandShake =>
        have single : s.Single (.parse piece atOnce) := fun _ inMessage =>
          absurd (state.symm.trans inMessage) (by decide)
        obtain ⟨kept, exact⟩ := ack_hand_shake_counted hmac draws s piece atOnce counted closed state few
        exact ⟨kept, exact.trans (and_iff_left single).symm⟩
    | kRtmpWaitingDone =>
        have single : s.Single (.parse piece atOnce) := fun _ inMessage =>
          absurd (state.symm.trans inMessage) (by decide)
        have before : s.peer.state ≠ .kRtmpMessage := by
          rw [state]
          decide
        have stepped : ackStep hmac draws s (.parse piece atOnce) =
            s.next { s.peer with buffer := s.peer.buffer ++ piece } s.received := by
          rw [ackStep, if_neg closed]
          dsimp only
          rw [if_neg before, parse_waiting hmac draws { s.peer with buffer := s.peer.buffer ++ piece } atOnce state]
          exact if_neg before
        rw [stepped]
        obtain ⟨kept, exact⟩ :=
          silent_kept s { s.peer with buffer := s.peer.buffer ++ piece } counted before rfl before
        exact ⟨kept, exact.trans (and_iff_left single).symm⟩
    | kRtmpMessage =>
        have stepped : ackStep hmac draws s (.parse piece atOnce) =
            s.next (Peer.parse receiving hmac draws { s.peer with buffer := s.peer.buffer ++ piece } atOnce).1
              (s.received + piece.length) := by
          rw [ackStep, if_neg closed]
          exact if_pos state
        obtain ⟨message, buffer, inside⟩ :=
          parse_in_message hmac draws { s.peer with buffer := s.peer.buffer ++ piece } atOnce state
        have tally := tally_arrive (counted.during state) piece.length
        rw [← List.length_append] at tally
        rw [stepped] at few ⊢
        obtain ⟨kept, exact⟩ := next_parsed s _ _ _ tally few message buffer inside
        refine ⟨kept, exact.trans (and_congr_right fun _ => ⟨fun single _ _ => single, fun single => ?_⟩)⟩
        exact single (Bool.eq_false_of_not_eq_true closed) state

theorem ack_complete_counted (s : AckRun) (counted : AckCounted s) :
    AckCounted (ackStep hmac draws s .writeComplete) ∧ ((ackStep hmac draws s .writeComplete).Exact ↔ s.Exact) := by
  by_cases closed : s.peer.closed = true
  · have same : ackStep hmac draws s .writeComplete = s := if_pos closed
    rw [same]
    exact ⟨counted, Iff.rfl⟩
  · obtain ⟨message, buffer, state⟩ := complete_counts s.peer
    rw [ackStep, if_neg closed]
    dsimp only
    generalize (s.peer.onWriteComplete receiving).1 = after at message buffer state ⊢
    by_cases waiting : s.peer.state = .kRtmpWaitingDone
    · have before : s.peer.state ≠ .kRtmpMessage := by
        rw [waiting]
        decide
      rw [if_pos waiting] at state
      rw [if_pos waiting, ← buffer]
      exact silent_begins s after counted before message state
    · rw [if_neg waiting] at state
      rw [if_neg waiting]
      by_cases before : s.peer.state = .kRtmpMessage
      · obtain ⟨totals, exact⟩ := next_kept s after s.received message
        refine ⟨⟨fun outside => absurd (state.trans before) outside, fun _ => ?_⟩, exact⟩
        rw [totals]
        change Tally after.message after.buffer.length s.received s.totals
        rw [message, buffer]
        exact counted.during before
      · exact silent_kept s after counted before message (by rw [state]; exact before)

theorem ack_step_counted (s : AckRun) (event : AckEvent) (counted : AckCounted s)
    (few : (ackStep hmac draws s event).received < 2147483648) :
    AckCounted (ackStep hmac draws s event) ∧
      ((ackStep hmac draws s event).Exact ↔ s.Exact ∧ s.Single event) := by
  cases event with
  | parse piece atOnce => exact ack_parse_counted hmac draws s piece atOnce counted few
  | writeComplete =>
      obtain ⟨kept, exact⟩ := ack_complete_counted hmac draws s counted
      exact ⟨kept, exact.trans (and_iff_left trivial).symm⟩

theorem ack_prefix_few (start : AckRun) (events past rest : List AckEvent) (cut : events = past ++ rest)
    (few : (run (ackStep hmac draws) start events).received < 2147483648) :
    (run (ackStep hmac draws) start past).received < 2147483648 := by
  rw [cut, run_append] at few
  exact Nat.lt_of_le_of_lt (ack_run_received hmac draws _ rest) few

theorem ack_run_counted (start : AckRun) (fresh : start.Fresh) (events : List AckEvent)
    (few : (run (ackStep hmac draws) start events).received < 2147483648) :
    AckCounted (run (ackStep hmac draws) start events) := by
  refine run_history (fun _ state => AckCounted state)
    (fun past event => (ackStep hmac draws (run (ackStep hmac draws) start past) event).received < 2147483648)
    (fresh_counted start fresh) ?_ events ?_
  · exact fun past event bound counted => (ack_step_counted hmac draws _ event counted bound).1
  · intro past event rest cut
    have bound := ack_prefix_few hmac draws start events (past ++ [event]) rest (by simp [cut]) few
    rw [run_snoc] at bound
    exact bound

theorem ack_run_exact (start : AckRun) (fresh : start.Fresh) (events : List AckEvent)
    (few : (run (ackStep hmac draws) start events).received < 2147483648) :
    (run (ackStep hmac draws) start events).Exact ↔
      ∀ pair ∈ met (ackStep hmac draws) start events, pair.1.Single pair.2 := by
  refine run_always_iff AckRun.Exact AckRun.Single ?_ events ?_
  · rw [AckRun.Exact, fresh.silent.queued, fresh.totals]
    rfl
  · intro past event rest cut
    have counted := ack_run_counted hmac draws start fresh past (ack_prefix_few hmac draws start events past _ cut few)
    have bound := ack_prefix_few hmac draws start events (past ++ [event]) rest (by simp [cut]) few
    rw [run_snoc] at bound
    exact (ack_step_counted hmac draws _ event counted bound).2

structure AckRun.Acknowledges (s : AckRun) : Prop where
  total : reported s.peer.message.queued = s.totals
  ordered : (reported s.peer.message.queued).Pairwise (· ≤ ·)

theorem counted_acknowledges (s : AckRun) (counted : AckCounted s) : s.Acknowledges ↔ s.Exact := by
  refine ⟨AckRun.Acknowledges.total, fun exact => ⟨exact, ?_⟩⟩
  rw [exact]
  by_cases inMessage : s.peer.state = .kRtmpMessage
  · exact (counted.during inMessage).grown
  · rw [(counted.before inMessage).2.2]
    exact .nil

-- in_bytes_ starts anew at each report, so the reports are right as long as only
-- the last of them is not zero. Together with what is still counted they always
-- add up to what has been received.
theorem acknowledgements_iff (start : AckRun) (fresh : start.Fresh) (events : List AckEvent)
    (few : (run (ackStep hmac draws) start events).received < 2147483648) :
    ((run (ackStep hmac draws) start events).Acknowledges ↔
        ∀ pair ∈ met (ackStep hmac draws) start events, pair.1.Single pair.2) ∧
      ((run (ackStep hmac draws) start events).peer.state = .kRtmpMessage →
        ((reported (run (ackStep hmac draws) start events).peer.message.queued).sum : Int) +
            (run (ackStep hmac draws) start events).peer.message.inBytes +
            (run (ackStep hmac draws) start events).peer.buffer.length =
          (run (ackStep hmac draws) start events).received +
            (run (ackStep hmac draws) start events).peer.message.lastLeft) := by
  have counted := ack_run_counted hmac draws start fresh events few
  refine ⟨(counted_acknowledges _ counted).trans (ack_run_exact hmac draws start fresh events few), ?_⟩
  exact fun inMessage => (counted.during inMessage).once

end

def windowMessage : Bytes := [2, 0, 0, 0, 0, 0, 4, 5, 0, 0, 0, 0, 0, 0, 0, 1]

def ackStart : AckRun :=
  { peer := { handshake := { isClient := false, state := .kHandShakeDone }, state := .kRtmpMessage, message := {} } }

theorem ack_start_fresh : ackStart.Fresh := ⟨⟨rfl, rfl, rfl⟩, rfl, rfl⟩

theorem window_parsed : ∃ parser messages,
    Mmedia.parseMessage .fresh windowMessage = ⟨.returned, parser, [], messages⟩ ∧
      windowAfter 2048000 (messages.filterMap fun pass => pass.chunk.delivered) = 1 := by
  obtain ⟨next, chunk, taken, parsed, set⟩ : ∃ next chunk,
      parseChunk .fresh (toUint32 windowMessage.length) windowMessage = .take next chunk ∧ chunk.parsed = 16 ∧
        windowAfter 2048000 ([chunk].filterMap Chunk.delivered) = 1 := ⟨_, _, rfl, rfl, by decide⟩
  have alone := parse_loop_alone .fresh next (toUint32 windowMessage.length) windowMessage chunk (by decide) (by decide)
    (by rw [parsed]; decide) (by rw [parsed]; decide) taken
  rw [parsed] at alone
  exact ⟨next, [⟨.fresh, toUint32 windowMessage.length, windowMessage, chunk⟩], alone, set⟩

theorem window_received : ∃ parser,
    ({} : RtmpReceiver).parseMessage windowMessage =
      ({ parser := parser, ackSize := 1, inBytes := 16 }, [], .returned) := by
  obtain ⟨parser, messages, parsed, set⟩ := window_parsed
  refine ⟨parser, ?_⟩
  have counted : ({} : RtmpReceiver).count windowMessage.length = { inBytes := 16 } := rfl
  rw [RtmpReceiver.parseMessage, counted]
  dsimp only
  rw [parsed]
  dsimp only [ParseOutcome.messages]
  rw [set]
  rfl

-- The first byte brings a report of all 17, the second one of itself alone.
theorem byte_received (parser : RtmpIn) :
    ({ parser := parser, ackSize := 1, inBytes := 16 } : RtmpReceiver).parseMessage [0] =
      ({ parser := parser, ackSize := 1, lastLeft := 1,
         queued := [controlPacket kRtmpMsgTypeBytesRead (overwrite controlData 0 (writeUint32T 17)) 4] },
        [0], .returned) := by
  have counted : ({ parser := parser, ackSize := 1, inBytes := 16 } : RtmpReceiver).count 1 =
      { parser := parser, ackSize := 1,
        queued := [controlPacket kRtmpMsgTypeBytesRead (overwrite controlData 0 (writeUint32T 17)) 4] } := rfl
  have ended : Mmedia.parseMessage parser [0] = ⟨.returned, parser, [0], []⟩ :=
    parse_loop_ends parser _ [0] (by decide)
  have behind : toInt32 ((1 : Nat) : Int) = 1 := by decide
  rw [RtmpReceiver.parseMessage, List.length_singleton, counted]
  dsimp only
  rw [ended]
  dsimp only [List.length_singleton]
  rw [behind]
  rfl

theorem ack_message_step (hmac : Hmac) (draws : Draws) (s : AckRun) (piece : Bytes) (ctx : RtmpReceiver) (rest : Bytes)
    (running : s.peer.closed = false) (inMessage : s.peer.state = .kRtmpMessage)
    (parsed : s.peer.message.parseMessage (s.peer.buffer ++ piece) = (ctx, rest, .returned)) :
    ackStep hmac draws s (.parse piece false) =
      s.next { s.peer with message := ctx, buffer := rest } (s.received + piece.length) := by
  have going : ¬ s.peer.closed = true := by
    rw [running]
    decide
  have received : (Peer.parse receiving hmac draws { s.peer with buffer := s.peer.buffer ++ piece } false).1 =
      { s.peer with message := ctx, buffer := rest } := by
    rw [Peer.parse, inMessage]
    dsimp only
    rw [Peer.parseMessage, receiving]
    dsimp only
    rw [parsed, inMessage, running]
    rfl
  rw [ackStep, if_neg going]
  dsimp only
  rw [if_pos inMessage, received]

def windowed (parser : RtmpIn) : AckRun :=
  { ackStart with
    peer := { ackStart.peer with message := { parser := parser, ackSize := 1, inBytes := 16 } }
    received := 16 }

def reportedOnce (parser : RtmpIn) : AckRun :=
  { peer := { ackStart.peer with
      message :=
        { parser := parser, ackSize := 1, lastLeft := 1,
          queued := [controlPacket kRtmpMsgTypeBytesRead (overwrite controlData 0 (writeUint32T 17)) 4] }
      buffer := [0] }
    received := 17
    totals := [17] }

theorem window_step : ∃ parser,
    ackStep constantHmac zeroDraws ackStart (.parse windowMessage false) = windowed parser := by
  obtain ⟨parser, parsed⟩ := window_received
  exact ⟨parser, ack_message_step constantHmac zeroDraws ackStart windowMessage _ _ rfl rfl parsed⟩

theorem byte_step (parser : RtmpIn) :
    ackStep constantHmac zeroDraws (windowed parser) (.parse [0] false) = reportedOnce parser := by
  have parsed := byte_received parser
  have stepped := ack_message_step constantHmac zeroDraws (windowed parser) [0] _ _ rfl rfl parsed
  rw [stepped]
  rfl

theorem single_first (s : AckRun) (event : AckEvent) (none : s.totals = []) : s.Single event := by
  cases event with
  | parse piece atOnce =>
      intro _ _
      rw [none]
      exact .inl fun total impossible => by cases impossible
  | writeComplete => exact trivial

theorem first_report_right :
    (run (ackStep constantHmac zeroDraws) ackStart [.parse windowMessage false, .parse [0] false]).Acknowledges := by
  obtain ⟨parser, first⟩ := window_step
  have second := byte_step parser
  have few : (run (ackStep constantHmac zeroDraws) ackStart [.parse windowMessage false, .parse [0] false]).received <
      2147483648 := by
    have small : 17 < 2147483648 := by decide
    rw [run, List.foldl, first, List.foldl, second]
    exact small
  refine (acknowledgements_iff constantHmac zeroDraws ackStart ack_start_fresh _ few).1.mpr ?_
  rw [met, first, met, met]
  exact List.forall_mem_cons.mpr ⟨single_first _ _ rfl, List.forall_mem_singleton.mpr (single_first _ _ rfl)⟩

theorem second_report_restarts :
    ackStart.Fresh ∧
      (run (ackStep constantHmac zeroDraws) ackStart
        [.parse windowMessage false, .parse [0] false, .parse [0] false]).received = 18 ∧
      reported (run (ackStep constantHmac zeroDraws) ackStart
        [.parse windowMessage false, .parse [0] false, .parse [0] false]).peer.message.queued = [17, 1] ∧
      ¬ (run (ackStep constantHmac zeroDraws) ackStart
        [.parse windowMessage false, .parse [0] false, .parse [0] false]).Acknowledges := by
  obtain ⟨parser, first⟩ := window_step
  have whole : run (ackStep constantHmac zeroDraws) ackStart
      [.parse windowMessage false, .parse [0] false, .parse [0] false] =
      ackStep constantHmac zeroDraws (reportedOnce parser) (.parse [0] false) := by
    rw [run, List.foldl, first, List.foldl, byte_step parser]
    rfl
  have third : ackStep constantHmac zeroDraws (reportedOnce parser) (.parse [0] false) =
      (reportedOnce parser).next
        (Peer.parse receiving constantHmac zeroDraws { (reportedOnce parser).peer with buffer := [0, 0] } false).1
        18 := rfl
  obtain ⟨message, _, _⟩ := parse_in_message constantHmac zeroDraws
    { (reportedOnce parser).peer with buffer := [0, 0] } false rfl
  have counted : ((reportedOnce parser).peer.message.count 2).queued =
      [controlPacket kRtmpMsgTypeBytesRead (overwrite controlData 0 (writeUint32T 17)) 4,
        controlPacket kRtmpMsgTypeBytesRead (overwrite controlData 0 (writeUint32T 1)) 4] := rfl
  have restarted : reported (run (ackStep constantHmac zeroDraws) ackStart
      [.parse windowMessage false, .parse [0] false, .parse [0] false]).peer.message.queued = [17, 1] := by
    rw [whole, third, AckRun.next]
    dsimp only
    rw [message, (parse_message_count _ _).1]
    exact (congrArg reported counted).trans (by decide)
  refine ⟨ack_start_fresh, ?_, restarted, fun right => ?_⟩
  · rw [whole, third]
    rfl
  · have ordered := right.ordered
    rw [restarted] at ordered
    exact absurd ordered (by decide)

end Lssvc.Mmedia
