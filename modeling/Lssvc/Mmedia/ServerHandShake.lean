import Lssvc.Mmedia.HandShakeAgreement

set_option autoImplicit false

namespace Lssvc.Mmedia

open Lssvc.Foundation

-- A completion that comes inside a send is `atOnce` for S0S1; for any later
-- send it is the `complete` right after it.
inductive ServerEvent where
  | deliver (piece : Bytes) (atOnce : Bool)
  | complete
deriving DecidableEq, Repr

def arrivals : List ServerEvent → Bytes
  | [] => []
  | .deliver piece _ :: events => piece ++ arrivals events
  | .complete :: events => arrivals events

def pastBytes : Nat → List ServerEvent → List ServerEvent
  | _, [] => []
  | count, .complete :: events => pastBytes count events
  | count, .deliver piece atOnce :: events =>
      if piece.length < count then pastBytes (count - piece.length) events
      else .deliver (piece.drop count) atOnce :: events

structure ServerSide (M : Type) where
  peer : Peer M
  delivered : Bytes := []
  sent : Bytes := []

def ServerSide.behind {M : Type} (side : ServerSide M) (delivered sent : Bytes) : ServerSide M :=
  ⟨side.peer, delivered ++ side.delivered, sent ++ side.sent⟩

section

variable {M : Type} (phase : MessagePhase M) (hmac : Hmac) (draws : Draws)

def ServerSide.start : ServerSide M :=
  let (peer, sent) := ({ handshake := { isClient := false }, message := phase.idle } : Peer M).startHandShake hmac draws
  { peer := peer, sent := sent }

def serverStep (side : ServerSide M) : ServerEvent → ServerSide M
  | .deliver piece atOnce =>
      if piece = [] ∨ side.peer.closed then side
      else
        let (peer, sent) := { side.peer with buffer := side.peer.buffer ++ piece }.parse phase hmac draws atOnce
        ⟨peer, side.delivered ++ piece, side.sent ++ sent⟩
  | .complete =>
      if side.peer.outstanding = 0 ∨ side.peer.closed then side
      else
        let (peer, sent) := { side.peer with outstanding := side.peer.outstanding - 1 }.onWriteComplete phase
        ⟨peer, side.delivered, side.sent ++ sent⟩

def Reported (side : ServerSide M) : Prop :=
  kRtmpHandShakePacketSize + 1 + kRtmpHandShakePacketSize ≤ side.sent.length ∧ side.peer.outstanding = 0

def HoldsC2 (side : ServerSide M) : ServerEvent → Prop
  | .deliver piece _ =>
      side.delivered.length ≤ kRtmpHandShakePacketSize + 1 →
        kRtmpHandShakePacketSize + 1 < (side.delivered ++ piece).length → Reported side
  | .complete => True

instance (side : ServerSide M) : Decidable (Reported side) := inferInstanceAs (Decidable (_ ∧ _))

instance (side : ServerSide M) (event : ServerEvent) : Decidable (HoldsC2 side event) :=
  match event with
  | .deliver _ _ => inferInstanceAs (Decidable (_ → _ → _))
  | .complete => inferInstanceAs (Decidable True)

end

-- A message phase that also notes what each parseMessage is given and leaves.
def MessagePhase.recording {M : Type} (phase : MessagePhase M) : MessagePhase (M × List (Bytes × Bytes)) where
  idle := (phase.idle, [])
  sendConnect := fun (message, log) =>
    let (message, sent) := phase.sendConnect message
    ((message, log), sent)
  parseMessage := fun (message, log) buffer =>
    let (message, left, sent, ok) := phase.parseMessage message buffer
    ((message, log ++ [(buffer, left)]), left, sent, ok)
  checkAndSend := fun (message, log) =>
    let (message, sent) := phase.checkAndSend message
    ((message, log), sent)

inductive Handed : List (Bytes × Bytes) → (all left : Bytes) → Prop where
  | none : Handed [] [] []
  | more (log : List (Bytes × Bytes)) (all buffer piece left : Bytes) (before : Handed log all buffer) :
      Handed (log ++ [(buffer ++ piece, left)]) (all ++ piece) left

-- parseMessage is called from the 3073rd byte on, and not before.
structure Fed {M : Type} (side : ServerSide (M × List (Bytes × Bytes))) : Prop where
  early : side.delivered.length < kRtmpHandShakePacketSize + 1 + kRtmpHandShakePacketSize → side.peer.message.2 = []
  late : kRtmpHandShakePacketSize + 1 + kRtmpHandShakePacketSize ≤ side.delivered.length →
    Handed side.peer.message.2 (side.delivered.drop (kRtmpHandShakePacketSize + 1 + kRtmpHandShakePacketSize))
      side.peer.buffer

def Peer.forget {M L : Type} (peer : Peer (M × L)) : Peer M :=
  ⟨peer.handshake, peer.state, peer.message.1, peer.buffer, peer.outstanding, peer.closed⟩

def ServerSide.forget {M L : Type} (side : ServerSide (M × L)) : ServerSide M :=
  ⟨side.peer.forget, side.delivered, side.sent⟩

theorem arrivals_append (left right : List ServerEvent) :
    arrivals (left ++ right) = arrivals left ++ arrivals right := by
  induction left with
  | nil => rfl
  | cons event left ih =>
      cases event with
      | deliver piece atOnce => rw [List.cons_append, arrivals, arrivals, ih, List.append_assoc]
      | complete => exact ih

theorem past_bytes_append (count : Nat) (past rest : List ServerEvent) (short : (arrivals past).length < count) :
    pastBytes count (past ++ rest) = pastBytes (count - (arrivals past).length) rest := by
  induction past generalizing count with
  | nil => rfl
  | cons event past ih =>
      cases event with
      | deliver piece atOnce =>
          rw [arrivals, List.length_append] at short ⊢
          rw [List.cons_append, pastBytes, if_pos (by omega), ih _ (by omega), Nat.sub_sub]
      | complete => exact ih count short

theorem past_bytes_snoc (count : Nat) (past : List ServerEvent) (event : ServerEvent) (some : 0 < count)
    (enough : count ≤ (arrivals past).length) : pastBytes count (past ++ [event]) = pastBytes count past ++ [event] := by
  induction past generalizing count with
  | nil => exact absurd (Nat.lt_of_lt_of_le some enough) (Nat.lt_irrefl 0)
  | cons first past ih =>
      cases first with
      | deliver piece atOnce =>
          rw [arrivals, List.length_append] at enough
          rw [List.cons_append, pastBytes, pastBytes]
          by_cases short : piece.length < count
          · rw [if_pos short, if_pos short]
            exact ih _ (by omega) (by omega)
          · rw [if_neg short, if_neg short, List.cons_append]
      | complete => exact ih count some enough

theorem arrivals_past_bytes (count : Nat) (events : List ServerEvent) :
    arrivals (pastBytes count events) = (arrivals events).drop count := by
  induction events generalizing count with
  | nil => exact List.drop_nil.symm
  | cons event events ih =>
      cases event with
      | deliver piece atOnce =>
          rw [pastBytes, arrivals]
          by_cases short : piece.length < count
          · rw [if_pos short, ih, List.drop_append, List.drop_of_length_le (Nat.le_of_lt short), List.nil_append]
          · rw [if_neg short, arrivals, List.drop_append_of_le_length (Nat.le_of_not_lt short)]
      | complete => exact ih count

section

variable {M : Type} (phase : MessagePhase M) (hmac : Hmac) (draws : Draws)

theorem deliver_parsed (side : ServerSide M) (piece : Bytes) (atOnce : Bool)
    (read : ¬ (piece = [] ∨ side.peer.closed = true)) :
    serverStep phase hmac draws side (.deliver piece atOnce) =
      let result := { side.peer with buffer := side.peer.buffer ++ piece }.parse phase hmac draws atOnce
      ⟨result.1, side.delivered ++ piece, side.sent ++ result.2⟩ := by
  rw [serverStep, if_neg read]

theorem deliver_result (side : ServerSide M) (piece : Bytes) (atOnce : Bool) (peer : Peer M) (sent : Bytes)
    (nonempty : piece ≠ []) (living : side.peer.closed = false)
    (parsed : { side.peer with buffer := side.peer.buffer ++ piece }.parse phase hmac draws atOnce = (peer, sent)) :
    serverStep phase hmac draws side (.deliver piece atOnce) = ⟨peer, side.delivered ++ piece, side.sent ++ sent⟩ := by
  have read : ¬ (piece = [] ∨ side.peer.closed = true) :=
    fun either => either.elim nonempty fun dead => Bool.false_ne_true (living.symm.trans dead)
  rw [deliver_parsed phase hmac draws side piece atOnce read, parsed]

theorem complete_reported (side : ServerSide M)
    (owed : ¬ (side.peer.outstanding = 0 ∨ side.peer.closed = true)) :
    serverStep phase hmac draws side .complete =
      let result := { side.peer with outstanding := side.peer.outstanding - 1 }.onWriteComplete phase
      ⟨result.1, side.delivered, side.sent ++ result.2⟩ := by
  rw [serverStep, if_neg owed]

theorem behind_step (side : ServerSide M) (event : ServerEvent) (delivered sent : Bytes) :
    serverStep phase hmac draws (side.behind delivered sent) event =
      (serverStep phase hmac draws side event).behind delivered sent := by
  cases event with
  | deliver piece atOnce =>
      by_cases quiet : piece = [] ∨ side.peer.closed = true
      · rw [serverStep, serverStep, if_pos quiet]
        exact if_pos quiet
      · rw [deliver_parsed phase hmac draws side piece atOnce quiet,
          deliver_parsed phase hmac draws (side.behind delivered sent) piece atOnce quiet]
        simp only [ServerSide.behind, List.append_assoc]
  | complete =>
      by_cases quiet : side.peer.outstanding = 0 ∨ side.peer.closed = true
      · rw [serverStep, serverStep, if_pos quiet]
        exact if_pos quiet
      · rw [complete_reported phase hmac draws side quiet,
          complete_reported phase hmac draws (side.behind delivered sent) quiet]
        simp only [ServerSide.behind, List.append_assoc]

section

variable (c0c1 : Bytes) (complex : Bool) (offset : Nat)

def s0s1 : Bytes := createC1S1 hmac false true draws.c1s1

def s2 : Bytes := createC2S2 hmac false complex draws.c2s2 draws.now (c0c1.drop 1) offset

def answering (state : RtmpHandShakeState) : RtmpHandShake :=
  ⟨false, complex, s0s1 hmac draws, s2 hmac draws c0c1 complex offset, state⟩

def greeting (buffer : Bytes) : Peer M :=
  { handshake := ⟨false, true, s0s1 hmac draws, [], .kHandShakeWaitC0C1⟩, message := phase.idle, buffer := buffer }

def shaking (state : RtmpHandShakeState) (buffer : Bytes) (outstanding : Nat) : Peer M :=
  { handshake := answering hmac draws c0c1 complex offset state
    message := phase.idle
    buffer := buffer
    outstanding := outstanding }

def messaging : ServerSide M :=
  { peer := { shaking phase hmac draws c0c1 complex offset .kHandShakeDone [] 0 with state := .kRtmpMessage } }

def messageSide (events : List ServerEvent) : ServerSide M :=
  run (serverStep phase hmac draws) (messaging phase hmac draws c0c1 complex offset) events

inductive Stage (c2 : Bytes) (past : List ServerEvent) (side : ServerSide M) : Prop where
  | waits (short : (arrivals past).length < kRtmpHandShakePacketSize + 1)
      (same : side =
        { peer := greeting phase hmac draws (arrivals past), delivered := arrivals past })
  | postsS0S1 (whole : arrivals past = c0c1)
      (same : side =
        { peer := shaking phase hmac draws c0c1 complex offset .kHandShakePostS0S1 [] 1
          delivered := c0c1
          sent := s0s1 hmac draws })
  | postsS2 (whole : arrivals past = c0c1)
      (same : side =
        { peer := shaking phase hmac draws c0c1 complex offset .kHandShakePostS2 [] 1
          delivered := c0c1
          sent := s0s1 hmac draws ++ s2 hmac draws c0c1 complex offset })
  | waitsC2 (part : Bytes) (short : part.length < kRtmpHandShakePacketSize) (whole : arrivals past = c0c1 ++ part)
      (same : side =
        { peer := shaking phase hmac draws c0c1 complex offset .kHandShakeWaitC2 part 0
          delivered := c0c1 ++ part
          sent := s0s1 hmac draws ++ s2 hmac draws c0c1 complex offset })
  | messages (enough : kRtmpHandShakePacketSize + 1 + kRtmpHandShakePacketSize ≤ (arrivals past).length)
      (same : side =
        (messageSide phase hmac draws c0c1 complex offset
          (pastBytes (kRtmpHandShakePacketSize + 1 + kRtmpHandShakePacketSize) past)).behind
            (c0c1 ++ c2) (s0s1 hmac draws ++ s2 hmac draws c0c1 complex offset))

theorem accepted_length (data : Bytes) (accepted : checkC1S1 hmac false true data = (complex, (offset : Int))) :
    data.length = kRtmpHandShakePacketSize + 1 := by
  by_contra other
  rw [checkC1S1, if_pos other] at accepted
  have same := (Prod.mk.inj accepted).2
  omega

theorem takes_c0c1 (accepted : checkC1S1 hmac false true c0c1 = (complex, (offset : Int))) :
    (greeting phase hmac draws c0c1).parse phase hmac draws false =
        (shaking phase hmac draws c0c1 complex offset .kHandShakePostS0S1 [] 1, s0s1 hmac draws) ∧
      (greeting phase hmac draws c0c1).parse phase hmac draws true =
        (shaking phase hmac draws c0c1 complex offset .kHandShakePostS2 [] 1,
          s0s1 hmac draws ++ s2 hmac draws c0c1 complex offset) := by
  have whole := accepted_length hmac complex offset c0c1 accepted
  have enough : ¬ c0c1.length < kRtmpHandShakePacketSize + 1 := by omega
  have positive : (offset : Int) ≥ 0 := Int.natCast_nonneg offset
  have returned : (⟨false, true, s0s1 hmac draws, [], .kHandShakeWaitC0C1⟩ : RtmpHandShake).handShake hmac draws c0c1 =
      { handshake := answering hmac draws c0c1 complex offset .kHandShakePostS0S1
        buf := []
        sent := some (s0s1 hmac draws)
        ret := 1 } := by
    simp only [RtmpHandShake.handShake, if_neg enough, RtmpHandShake.answer,
      List.take_of_length_le (Nat.le_of_eq whole), accepted, if_pos positive, List.drop_of_length_le (Nat.le_of_eq whole),
      Int.toNat_natCast]
    rfl
  constructor
  · rw [parse_hand_shake phase hmac _ draws false _ rfl returned]
    exact resume_again phase _ _
  · rw [parse_hand_shake phase hmac _ draws true _ rfl returned]
    exact resume_again phase _ _

-- The delivery that brings the last byte of C2: what comes with it goes where
-- it goes in a context that was in its messages already.
theorem takes_c2 (c2 rest : Bytes) (atOnce : Bool) (size : c2.length = kRtmpHandShakePacketSize) :
    ∃ peer sent,
      (shaking phase hmac draws c0c1 complex offset .kHandShakeWaitC2 (c2 ++ rest) 0).parse phase hmac draws atOnce =
        (peer, sent) ∧
      serverStep phase hmac draws (messaging phase hmac draws c0c1 complex offset) (.deliver rest atOnce) =
        ⟨peer, rest, sent⟩ := by
  have enough : ¬ (c2 ++ rest).length < kRtmpHandShakePacketSize := by
    rw [List.length_append]
    omega
  have returned : (answering hmac draws c0c1 complex offset .kHandShakeWaitC2).handShake hmac draws (c2 ++ rest) =
      { handshake := answering hmac draws c0c1 complex offset .kHandShakeDone
        buf := rest
        ret := 0 } := by
    simp only [RtmpHandShake.handShake, answering, if_neg enough, checkC2S2, if_true, List.drop_left' size]
  have parsed : (shaking phase hmac draws c0c1 complex offset .kHandShakeWaitC2 (c2 ++ rest) 0).parse phase hmac
      draws atOnce =
      (shaking phase hmac draws c0c1 complex offset .kHandShakeDone rest 0).enterMessage phase := by
    rw [parse_hand_shake phase hmac _ draws atOnce _ rfl returned]
    dsimp only [Peer.sendAtOnce]
    rw [Peer.resume, if_pos rfl]
    rfl
  rw [Peer.enterMessage] at parsed
  simp only [shaking, answering, Bool.false_eq_true, if_false] at parsed
  by_cases empty : rest = []
  · refine ⟨(messaging phase hmac draws c0c1 complex offset).peer, [], ?_, ?_⟩
    · rw [if_neg (not_not.mpr empty), empty] at parsed
      rw [empty]
      exact parsed
    · rw [serverStep, if_pos (.inl empty), empty]
      rfl
  · have read : ¬ (rest = [] ∨ (messaging phase hmac draws c0c1 complex offset).peer.closed = true) :=
      fun either => either.elim empty Bool.false_ne_true
    rw [if_pos empty] at parsed
    refine ⟨_, _, parsed, ?_⟩
    rw [deliver_parsed phase hmac draws _ rest atOnce read]
    rfl

theorem waits_c0c1 (buffer : Bytes) (atOnce : Bool) (short : buffer.length < kRtmpHandShakePacketSize + 1) :
    (greeting phase hmac draws buffer).parse phase hmac draws atOnce = (greeting phase hmac draws buffer, []) := by
  refine parse_waits phase hmac _ draws atOnce rfl ?_
  exact if_pos short

theorem waits_c2 (buffer : Bytes) (atOnce : Bool) (short : buffer.length < kRtmpHandShakePacketSize) :
    (shaking phase hmac draws c0c1 complex offset .kHandShakeWaitC2 buffer 0).parse phase hmac draws atOnce =
      (shaking phase hmac draws c0c1 complex offset .kHandShakeWaitC2 buffer 0, []) := by
  refine parse_waits phase hmac _ draws atOnce rfl ?_
  exact if_pos short

theorem stage_quiet (c2 : Bytes) (past : List ServerEvent) (atOnce : Bool) (side : ServerSide M)
    (stage : Stage phase hmac draws c0c1 complex offset c2 past side) :
    Stage phase hmac draws c0c1 complex offset c2 (past ++ [.deliver [] atOnce])
      (serverStep phase hmac draws side (.deliver [] atOnce)) := by
  have same : arrivals (past ++ [.deliver [] atOnce]) = arrivals past := by
    rw [arrivals_append]
    exact List.append_nil _
  have kept : serverStep phase hmac draws side (.deliver [] atOnce) = side := by
    rw [serverStep, if_pos (.inl rfl)]
  cases stage with
  | waits short at' => exact .waits (by rw [same]; exact short) (by rw [kept, same]; exact at')
  | postsS0S1 whole at' => exact .postsS0S1 (same.trans whole) (kept.trans at')
  | postsS2 whole at' => exact .postsS2 (same.trans whole) (kept.trans at')
  | waitsC2 part short whole at' => exact .waitsC2 part short (same.trans whole) (kept.trans at')
  | messages enough at' =>
      refine .messages (by rw [same]; exact enough) ?_
      rw [kept, past_bytes_snoc _ past _ (by decide) enough, messageSide, run_snoc, serverStep, if_pos (.inl rfl)]
      exact at'

theorem stage_complete (c2 : Bytes) (past : List ServerEvent) (side : ServerSide M)
    (stage : Stage phase hmac draws c0c1 complex offset c2 past side) :
    Stage phase hmac draws c0c1 complex offset c2 (past ++ [.complete])
      (serverStep phase hmac draws side .complete) := by
  have same : arrivals (past ++ [.complete]) = arrivals past := by
    rw [arrivals_append]
    exact List.append_nil _
  cases stage with
  | waits short at' =>
      refine .waits (by rw [same]; exact short) ?_
      rw [same, at']
      rfl
  | postsS0S1 whole at' =>
      refine .postsS2 (same.trans whole) ?_
      rw [at']
      rfl
  | postsS2 whole at' =>
      refine .waitsC2 [] (by decide) (by rw [same, List.append_nil]; exact whole) ?_
      rw [at', List.append_nil, complete_reported phase hmac draws _
        (fun either => either.elim Nat.one_ne_zero Bool.false_ne_true)]
      simp only [Peer.onWriteComplete, shaking, answering, RtmpHandShake.writeComplete, Peer.send, List.append_nil]
  | waitsC2 part short whole at' =>
      refine .waitsC2 part short (same.trans whole) ?_
      rw [at']
      rfl
  | messages enough at' =>
      refine .messages (by rw [same]; exact enough) ?_
      rw [past_bytes_snoc _ past _ (by decide) enough, messageSide, run_snoc, ← behind_step, at', messageSide]

theorem prefix_front {front rest got : Bytes} (inside : got <+: front ++ rest) (size : got.length = front.length) :
    got = front :=
  (List.prefix_of_prefix_length_le inside (List.prefix_append front rest) (Nat.le_of_eq size)).eq_of_length size

theorem prefix_past {front rest got : Bytes} (inside : got <+: front ++ rest) (size : front.length ≤ got.length) :
    got = front ++ got.drop front.length := by
  obtain ⟨more, rfl⟩ := List.prefix_of_prefix_length_le (List.prefix_append front rest) inside size
  rw [List.drop_left]

theorem arrivals_snoc (past : List ServerEvent) (piece : Bytes) (atOnce : Bool) :
    arrivals (past ++ [.deliver piece atOnce]) = arrivals past ++ piece := by
  rw [arrivals_append]
  exact congrArg _ (List.append_nil piece)

theorem early_delivery (side : ServerSide M) (piece : Bytes) (atOnce : Bool)
    (holds : HoldsC2 side (.deliver piece atOnce)) (early : side.delivered.length ≤ kRtmpHandShakePacketSize + 1)
    (unreported : ¬ Reported side) : (side.delivered ++ piece).length ≤ kRtmpHandShakePacketSize + 1 := by
  by_contra late
  exact unreported (holds early (Nat.lt_of_not_le late))

theorem deliver_waits (c2 m : Bytes) (past : List ServerEvent) (piece : Bytes) (atOnce : Bool)
    (accepted : checkC1S1 hmac false true c0c1 = (complex, (offset : Int))) (nonempty : piece ≠ [])
    (cut : arrivals past ++ piece <+: c0c1 ++ m)
    (few : (arrivals past ++ piece).length ≤ kRtmpHandShakePacketSize + 1) :
    Stage phase hmac draws c0c1 complex offset c2 (past ++ [.deliver piece atOnce])
      (serverStep phase hmac draws { peer := greeting phase hmac draws (arrivals past), delivered := arrivals past }
        (.deliver piece atOnce)) := by
  have whole := accepted_length hmac complex offset c0c1 accepted
  have arrived := arrivals_snoc past piece atOnce
  by_cases last : (arrivals past ++ piece).length = kRtmpHandShakePacketSize + 1
  · have front := prefix_front cut (last.trans whole.symm)
    obtain ⟨later, now⟩ := takes_c0c1 phase hmac draws c0c1 complex offset accepted
    rw [← front] at later now ⊢
    cases atOnce with
    | false => exact .postsS0S1 arrived (deliver_result phase hmac draws _ piece false _ _ nonempty rfl later)
    | true => exact .postsS2 arrived (deliver_result phase hmac draws _ piece true _ _ nonempty rfl now)
  · refine .waits (by rw [arrived]; omega) ?_
    rw [arrived]
    exact deliver_result phase hmac draws _ piece atOnce _ _ nonempty rfl
      (waits_c0c1 phase hmac draws (arrivals past ++ piece) atOnce (by omega))

theorem deliver_waits_c2 (c2 m part : Bytes) (past : List ServerEvent) (piece : Bytes) (atOnce : Bool)
    (greeted : c0c1.length = kRtmpHandShakePacketSize + 1) (size : c2.length = kRtmpHandShakePacketSize)
    (nonempty : piece ≠ []) (short : part.length < kRtmpHandShakePacketSize) (whole : arrivals past = c0c1 ++ part)
    (cut : part ++ piece <+: c2 ++ m) :
    Stage phase hmac draws c0c1 complex offset c2 (past ++ [.deliver piece atOnce])
      (serverStep phase hmac draws
        { peer := shaking phase hmac draws c0c1 complex offset .kHandShakeWaitC2 part 0
          delivered := c0c1 ++ part
          sent := s0s1 hmac draws ++ s2 hmac draws c0c1 complex offset }
        (.deliver piece atOnce)) := by
  have arrived : arrivals (past ++ [.deliver piece atOnce]) = c0c1 ++ (part ++ piece) := by
    rw [arrivals_snoc, whole, List.append_assoc]
  by_cases few : (part ++ piece).length < kRtmpHandShakePacketSize
  · refine .waitsC2 (part ++ piece) few arrived ?_
    rw [deliver_result phase hmac draws _ piece atOnce _ _ nonempty rfl
      (waits_c2 phase hmac draws c0c1 complex offset _ atOnce few), List.append_assoc, List.append_nil]
  · have enough : c2.length ≤ (part ++ piece).length := by omega
    have split := prefix_past cut enough
    rw [size] at split
    obtain ⟨peer, sent, parsed, stepped⟩ :=
      takes_c2 phase hmac draws c0c1 complex offset c2 ((part ++ piece).drop kRtmpHandShakePacketSize) atOnce size
    rw [← split] at parsed
    have total : (arrivals past).length = kRtmpHandShakePacketSize + 1 + part.length := by
      rw [whole, List.length_append, greeted]
    refine .messages (by rw [arrived, List.length_append, greeted]; omega) ?_
    have left : pastBytes (kRtmpHandShakePacketSize + 1 + kRtmpHandShakePacketSize)
        (past ++ [.deliver piece atOnce]) =
        [.deliver ((part ++ piece).drop kRtmpHandShakePacketSize) atOnce] := by
      rw [past_bytes_append _ past _ (by omega), pastBytes, if_neg (by rw [List.length_append] at few; omega),
        List.drop_append, List.drop_of_length_le (Nat.le_of_lt short), List.nil_append]
      have less : kRtmpHandShakePacketSize + 1 + kRtmpHandShakePacketSize - (arrivals past).length =
          kRtmpHandShakePacketSize - part.length := by omega
      rw [less]
    rw [deliver_result phase hmac draws _ piece atOnce _ _ nonempty rfl parsed, left]
    rw [messageSide, run, List.foldl_cons, List.foldl_nil, stepped, ServerSide.behind]
    rw [List.append_assoc c0c1 part piece, List.append_assoc c0c1 c2, ← split]

theorem stage_deliver (c2 m : Bytes) (past : List ServerEvent) (piece : Bytes) (atOnce : Bool) (side : ServerSide M)
    (accepted : checkC1S1 hmac false true c0c1 = (complex, (offset : Int)))
    (size : c2.length = kRtmpHandShakePacketSize)
    (stage : Stage phase hmac draws c0c1 complex offset c2 past side)
    (cut : arrivals (past ++ [.deliver piece atOnce]) <+: c0c1 ++ c2 ++ m) (holds : HoldsC2 side (.deliver piece atOnce)) :
    Stage phase hmac draws c0c1 complex offset c2 (past ++ [.deliver piece atOnce])
      (serverStep phase hmac draws side (.deliver piece atOnce)) := by
  by_cases quiet : piece = []
  · rw [quiet]
    exact stage_quiet phase hmac draws c0c1 complex offset c2 past atOnce side stage
  have greeted := accepted_length hmac complex offset c0c1 accepted
  have longer : 0 < piece.length := List.length_pos_iff.mpr quiet
  rw [arrivals_snoc, List.append_assoc] at cut
  cases stage with
  | waits short same =>
      rw [same] at holds ⊢
      refine deliver_waits phase hmac draws c0c1 complex offset c2 (c2 ++ m) past piece atOnce accepted quiet cut ?_
      exact early_delivery _ piece atOnce holds (Nat.le_of_lt short) fun reported => Nat.not_succ_le_zero _ reported.1
  | postsS0S1 whole same =>
      rw [same] at holds
      have early := early_delivery _ piece atOnce holds (Nat.le_of_eq greeted) fun reported => Nat.one_ne_zero reported.2
      rw [List.length_append] at early
      exact absurd early (by dsimp only; omega)
  | postsS2 whole same =>
      rw [same] at holds
      have early := early_delivery _ piece atOnce holds (Nat.le_of_eq greeted) fun reported => Nat.one_ne_zero reported.2
      rw [List.length_append] at early
      exact absurd early (by dsimp only; omega)
  | waitsC2 part short whole same =>
      rw [same]
      refine deliver_waits_c2 phase hmac draws c0c1 complex offset c2 m part past piece atOnce greeted size quiet short
        whole ?_
      rw [whole, List.append_assoc] at cut
      exact (List.prefix_append_right_inj c0c1).mp cut
  | messages enough same =>
      refine .messages ?_ ?_
      · rw [arrivals_snoc, List.length_append]
        omega
      · rw [past_bytes_snoc _ past _ (by decide) enough, messageSide, run_snoc, ← behind_step, same, messageSide]

theorem stage_step (c2 m : Bytes) (past : List ServerEvent) (event : ServerEvent) (side : ServerSide M)
    (accepted : checkC1S1 hmac false true c0c1 = (complex, (offset : Int)))
    (size : c2.length = kRtmpHandShakePacketSize)
    (stage : Stage phase hmac draws c0c1 complex offset c2 past side)
    (cut : arrivals (past ++ [event]) <+: c0c1 ++ c2 ++ m) (holds : HoldsC2 side event) :
    Stage phase hmac draws c0c1 complex offset c2 (past ++ [event]) (serverStep phase hmac draws side event) := by
  cases event with
  | deliver piece atOnce =>
      exact stage_deliver phase hmac draws c0c1 complex offset c2 m past piece atOnce side accepted size stage cut holds
  | complete => exact stage_complete phase hmac draws c0c1 complex offset c2 past side stage

def serverRun (events : List ServerEvent) : ServerSide M :=
  run (serverStep phase hmac draws) (ServerSide.start phase hmac draws) events

theorem stage_run (c2 m : Bytes) (events : List ServerEvent)
    (accepted : checkC1S1 hmac false true c0c1 = (complex, (offset : Int)))
    (size : c2.length = kRtmpHandShakePacketSize) (cut : arrivals events <+: c0c1 ++ c2 ++ m)
    (holds : ∀ pair ∈ met (serverStep phase hmac draws) (ServerSide.start phase hmac draws) events,
      HoldsC2 pair.1 pair.2) :
    Stage phase hmac draws c0c1 complex offset c2 events (serverRun phase hmac draws events) := by
  refine run_history (Stage phase hmac draws c0c1 complex offset c2)
    (fun past event => arrivals (past ++ [event]) <+: c0c1 ++ c2 ++ m ∧
      HoldsC2 (serverRun phase hmac draws past) event) (.waits (by decide) rfl) ?_ events ?_
  · intro past event allowed stage
    exact stage_step phase hmac draws c0c1 complex offset c2 m past event _ accepted size stage allowed.1 allowed.2
  · rintro past event rest rfl
    refine ⟨List.IsPrefix.trans ?_ cut, holds (serverRun phase hmac draws past, event) ((met_iff _ _ _ _).mpr ⟨past, rest, rfl, rfl⟩)⟩
    rw [List.append_cons past event rest, arrivals_append (past ++ [event]) rest]
    exact List.prefix_append _ _

theorem message_side_state (events : List ServerEvent) :
    (messageSide phase hmac draws c0c1 complex offset events).peer.state = .kRtmpMessage := by
  have kept : ∀ (side : ServerSide M) (event : ServerEvent), side.peer.state = .kRtmpMessage →
      (serverStep phase hmac draws side event).peer.state = .kRtmpMessage := by
    intro side event inMessage
    cases event with
    | deliver piece atOnce =>
        rw [serverStep]
        split
        · exact inMessage
        · exact parse_message_state phase hmac _ draws atOnce inMessage
    | complete =>
        rw [serverStep]
        split
        · exact inMessage
        · exact complete_message_state phase _ inMessage
  exact run_invariant kept _ rfl events

structure Shaken (c2 : Bytes) (past : List ServerEvent) (side : ServerSide M) : Prop where
  message : side.peer.state = .kRtmpMessage ↔
    kRtmpHandShakePacketSize + 1 + kRtmpHandShakePacketSize ≤ side.delivered.length
  before : side.delivered.length < kRtmpHandShakePacketSize + 1 → side.peer.buffer = side.delivered ∧ side.sent = []
  between : kRtmpHandShakePacketSize + 1 ≤ side.delivered.length →
    side.delivered.length < kRtmpHandShakePacketSize + 1 + kRtmpHandShakePacketSize →
      side.peer.buffer = side.delivered.drop (kRtmpHandShakePacketSize + 1) ∧
        (side.sent = s0s1 hmac draws ∧ side.peer.outstanding = 1 ∨
          side.sent = s0s1 hmac draws ++ s2 hmac draws c0c1 complex offset ∧ side.peer.outstanding ≤ 1)
  after : kRtmpHandShakePacketSize + 1 + kRtmpHandShakePacketSize ≤ side.delivered.length →
    side = (messageSide phase hmac draws c0c1 complex offset
      (pastBytes (kRtmpHandShakePacketSize + 1 + kRtmpHandShakePacketSize) past)).behind
        (c0c1 ++ c2) (s0s1 hmac draws ++ s2 hmac draws c0c1 complex offset)
  taken : side.peer.closed = false → side.delivered = arrivals past

theorem open_takes (side : ServerSide M) (event : ServerEvent) (got : Bytes)
    (before : side.peer.closed = false → side.delivered = got)
    (living : (serverStep phase hmac draws side event).peer.closed = false) :
    (serverStep phase hmac draws side event).delivered = got ++ arrivals [event] := by
  cases event with
  | deliver piece atOnce =>
      rw [serverStep] at living ⊢
      by_cases quiet : piece = [] ∨ side.peer.closed = true
      · rw [if_pos quiet] at living ⊢
        have empty := quiet.resolve_right fun dead => Bool.false_ne_true (living.symm.trans dead)
        rw [empty, before living]
        exact (List.append_nil got).symm
      · rw [if_neg quiet]
        have opened : side.peer.closed = false := Bool.eq_false_iff.mpr fun dead => quiet (.inr dead)
        rw [← before opened]
        exact congrArg _ (List.append_nil piece).symm
  | complete =>
      rw [serverStep] at living ⊢
      by_cases quiet : side.peer.outstanding = 0 ∨ side.peer.closed = true
      · rw [if_pos quiet] at living ⊢
        rw [before living]
        exact (List.append_nil got).symm
      · rw [if_neg quiet]
        have opened : side.peer.closed = false := Bool.eq_false_iff.mpr fun dead => quiet (.inr dead)
        rw [← before opened]
        exact (List.append_nil _).symm

theorem open_takes_all (events : List ServerEvent) (living : (serverRun phase hmac draws events).peer.closed = false) :
    (serverRun phase hmac draws events).delivered = arrivals events := by
  refine run_history (fun past (side : ServerSide M) => side.peer.closed = false → side.delivered = arrivals past)
    (fun _ _ => True) (fun _ => rfl) ?_ events (fun _ _ _ _ => trivial) living
  intro past event _ ih after
  rw [arrivals_append]
  exact open_takes phase hmac draws _ event (arrivals past) ih after

theorem shaking_shaken (c2 : Bytes) (past : List ServerEvent) (side : ServerSide M)
    (inHandShake : side.peer.state = .kRtmpHandShake)
    (short : side.delivered.length < kRtmpHandShakePacketSize + 1 + kRtmpHandShakePacketSize)
    (before : side.delivered.length < kRtmpHandShakePacketSize + 1 → side.peer.buffer = side.delivered ∧ side.sent = [])
    (between : kRtmpHandShakePacketSize + 1 ≤ side.delivered.length →
      side.peer.buffer = side.delivered.drop (kRtmpHandShakePacketSize + 1) ∧
        (side.sent = s0s1 hmac draws ∧ side.peer.outstanding = 1 ∨
          side.sent = s0s1 hmac draws ++ s2 hmac draws c0c1 complex offset ∧ side.peer.outstanding ≤ 1))
    (taken : side.peer.closed = false → side.delivered = arrivals past) :
    Shaken phase hmac draws c0c1 complex offset c2 past side := by
  refine ⟨?_, before, fun enough _ => between enough, fun late => absurd late (Nat.not_le_of_lt short), taken⟩
  exact ⟨fun now => absurd now (not_message inHandShake), fun late => absurd late (Nat.not_le_of_lt short)⟩

theorem stage_shaken (c2 : Bytes) (past : List ServerEvent) (side : ServerSide M)
    (greeted : c0c1.length = kRtmpHandShakePacketSize + 1) (size : c2.length = kRtmpHandShakePacketSize)
    (stage : Stage phase hmac draws c0c1 complex offset c2 past side)
    (taken : side.peer.closed = false → side.delivered = arrivals past) :
    Shaken phase hmac draws c0c1 complex offset c2 past side := by
  have positive : 0 < kRtmpHandShakePacketSize := by decide
  have nothing : c0c1.drop (kRtmpHandShakePacketSize + 1) = [] := List.drop_of_length_le (Nat.le_of_eq greeted)
  cases stage with
  | waits short same =>
      subst same
      refine shaking_shaken phase hmac draws c0c1 complex offset c2 past _ rfl ?_ (fun _ => ⟨rfl, rfl⟩)
        (fun enough => absurd short (Nat.not_lt.mpr enough)) taken
      dsimp only
      omega
  | postsS0S1 whole same =>
      subst same
      refine shaking_shaken phase hmac draws c0c1 complex offset c2 past _ rfl ?_
        (fun early => absurd greeted (Nat.ne_of_lt early)) (fun _ => ⟨nothing.symm, .inl ⟨rfl, rfl⟩⟩) taken
      dsimp only
      omega
  | postsS2 whole same =>
      subst same
      refine shaking_shaken phase hmac draws c0c1 complex offset c2 past _ rfl ?_
        (fun early => absurd greeted (Nat.ne_of_lt early)) (fun _ => ⟨nothing.symm, .inr ⟨rfl, Nat.le_refl 1⟩⟩) taken
      dsimp only
      omega
  | waitsC2 part short whole same =>
      subst same
      have total : (c0c1 ++ part).length = kRtmpHandShakePacketSize + 1 + part.length := by
        rw [List.length_append, greeted]
      refine shaking_shaken phase hmac draws c0c1 complex offset c2 past _ rfl ?_ (fun early => ?_)
        (fun _ => ⟨(List.drop_left' greeted).symm, .inr ⟨rfl, Nat.zero_le 1⟩⟩) taken
      · dsimp only
        omega
      · exact absurd early (by dsimp only; omega)
  | messages enough same =>
      subst same
      have long : kRtmpHandShakePacketSize + 1 + kRtmpHandShakePacketSize ≤
          ((messageSide phase hmac draws c0c1 complex offset
            (pastBytes (kRtmpHandShakePacketSize + 1 + kRtmpHandShakePacketSize) past)).behind
              (c0c1 ++ c2) (s0s1 hmac draws ++ s2 hmac draws c0c1 complex offset)).delivered.length := by
        rw [ServerSide.behind, List.length_append, List.length_append]
        omega
      refine ⟨⟨fun _ => long, fun _ => message_side_state phase hmac draws c0c1 complex offset _⟩, fun early => ?_,
        fun _ early => ?_, fun _ => rfl, taken⟩
      · exact absurd long (by omega)
      · exact absurd long (by omega)

theorem forget_send {L : Type} (peer : Peer (M × L)) (sent : Option Bytes) :
    (peer.send sent).map Peer.forget id = peer.forget.send sent := by
  cases sent <;> rfl

theorem forget_enter_message (peer : Peer (M × List (Bytes × Bytes))) :
    (peer.enterMessage phase.recording).map Peer.forget id = peer.forget.enterMessage phase := by
  obtain ⟨⟨isClient, _, _, _, _⟩, state, message, buffer, outstanding, closed⟩ := peer
  cases isClient <;> cases buffer <;> rfl

theorem forget_send_at_once {L : Type} (peer : Peer (M × L)) (sent : Option Bytes) (atOnce : Bool) :
    (peer.sendAtOnce sent atOnce).map Peer.forget id = peer.forget.sendAtOnce sent atOnce := by
  cases sent with
  | none => rfl
  | some bytes =>
      cases atOnce with
      | false => rfl
      | true =>
          obtain ⟨⟨_, _, _, _, state⟩, _, _, _, _, _⟩ := peer
          cases state <;> rfl

theorem forget_resume (peer : Peer (M × List (Bytes × Bytes))) (sent : Bytes) (ret : Int) :
    (peer.resume phase.recording sent ret).map Peer.forget id = peer.forget.resume phase sent ret := by
  rw [Peer.resume, Peer.resume, ← forget_enter_message phase peer]
  split
  · rfl
  · split
    · rfl
    · split <;> rfl

theorem forget_parse (peer : Peer (M × List (Bytes × Bytes))) (atOnce : Bool) :
    (peer.parse phase.recording hmac draws atOnce).map Peer.forget id = peer.forget.parse phase hmac draws atOnce := by
  obtain ⟨handshake, state, message, buffer, outstanding, closed⟩ := peer
  cases state with
  | kRtmpHandShake =>
      let result := handshake.handShake hmac draws buffer
      let shaken : Peer (M × List (Bytes × Bytes)) :=
        ⟨result.handshake, .kRtmpHandShake, message, result.buf, outstanding, closed⟩
      change ((shaken.sendAtOnce result.sent atOnce).1.resume phase.recording (shaken.sendAtOnce result.sent atOnce).2
        result.ret).map Peer.forget id = (shaken.forget.sendAtOnce result.sent atOnce).1.resume phase
          (shaken.forget.sendAtOnce result.sent atOnce).2 result.ret
      rw [forget_resume, ← forget_send_at_once]
      rfl
  | kRtmpWaitingDone => rfl
  | kRtmpMessage => rfl

theorem forget_complete (peer : Peer (M × List (Bytes × Bytes))) :
    (peer.onWriteComplete phase.recording).map Peer.forget id = peer.forget.onWriteComplete phase := by
  obtain ⟨handshake, state, message, buffer, outstanding, closed⟩ := peer
  cases state with
  | kRtmpHandShake => exact forget_send _ _
  | kRtmpWaitingDone =>
      obtain ⟨isClient, _, _, _, _⟩ := handshake
      cases isClient <;> rfl
  | kRtmpMessage => rfl

theorem recording_step (side : ServerSide (M × List (Bytes × Bytes))) (event : ServerEvent) :
    (serverStep phase.recording hmac draws side event).forget = serverStep phase hmac draws side.forget event := by
  cases event with
  | deliver piece atOnce =>
      by_cases quiet : piece = [] ∨ side.peer.closed = true
      · rw [serverStep, serverStep, if_pos quiet]
        exact (if_pos quiet).symm
      · rw [deliver_parsed phase.recording hmac draws side piece atOnce quiet,
          deliver_parsed phase hmac draws side.forget piece atOnce quiet]
        let fed : Peer (M × List (Bytes × Bytes)) := { side.peer with buffer := side.peer.buffer ++ piece }
        change _ = ServerSide.mk (fed.forget.parse phase hmac draws atOnce).1 _
          (side.sent ++ (fed.forget.parse phase hmac draws atOnce).2)
        rw [← forget_parse]
        rfl
  | complete =>
      by_cases quiet : side.peer.outstanding = 0 ∨ side.peer.closed = true
      · rw [serverStep, serverStep, if_pos quiet]
        exact (if_pos quiet).symm
      · rw [complete_reported phase.recording hmac draws side quiet, complete_reported phase hmac draws side.forget quiet]
        let told : Peer (M × List (Bytes × Bytes)) := { side.peer with outstanding := side.peer.outstanding - 1 }
        change _ = ServerSide.mk (told.forget.onWriteComplete phase).1 _ (side.sent ++ (told.forget.onWriteComplete phase).2)
        rw [← forget_complete]
        rfl

theorem recording_run (events : List ServerEvent) :
    (serverRun phase.recording hmac draws events).forget = serverRun phase hmac draws events := by
  induction events using List.reverseRecOn with
  | nil => rfl
  | append_singleton past event ih =>
      rw [serverRun, serverRun, run_append, run_append]
      change (serverStep phase.recording hmac draws (serverRun phase.recording hmac draws past) event).forget =
        serverStep phase hmac draws (serverRun phase hmac draws past) event
      rw [recording_step, ih]

theorem message_side_handed (events : List ServerEvent) :
    let side := messageSide phase.recording hmac draws c0c1 complex offset events
    Handed side.peer.message.2 side.delivered side.peer.buffer := by
  have kept : ∀ (side : ServerSide (M × List (Bytes × Bytes))) (event : ServerEvent),
      side.peer.state = .kRtmpMessage ∧ Handed side.peer.message.2 side.delivered side.peer.buffer →
        (serverStep phase.recording hmac draws side event).peer.state = .kRtmpMessage ∧
          Handed (serverStep phase.recording hmac draws side event).peer.message.2
            (serverStep phase.recording hmac draws side event).delivered
            (serverStep phase.recording hmac draws side event).peer.buffer := by
    rintro ⟨⟨handshake, state, message, buffer, outstanding, closed⟩, delivered, sent⟩ event ⟨rfl, handed⟩
    cases event with
    | deliver piece atOnce =>
        rw [serverStep]
        split
        · exact ⟨rfl, handed⟩
        · exact ⟨rfl, .more _ _ _ piece _ handed⟩
    | complete =>
        rw [serverStep]
        split
        · exact ⟨rfl, handed⟩
        · exact ⟨rfl, handed⟩
  exact (run_invariant kept _ ⟨rfl, .none⟩ events).2

theorem stage_fed (c2 : Bytes) (past : List ServerEvent) (side : ServerSide (M × List (Bytes × Bytes)))
    (greeted : c0c1.length = kRtmpHandShakePacketSize + 1) (size : c2.length = kRtmpHandShakePacketSize)
    (stage : Stage phase.recording hmac draws c0c1 complex offset c2 past side) : Fed side := by
  have positive : 0 < kRtmpHandShakePacketSize := by decide
  cases stage with
  | waits short same =>
      subst same
      refine ⟨fun _ => rfl, fun late => ?_⟩
      dsimp only at late
      omega
  | postsS0S1 whole same =>
      subst same
      refine ⟨fun _ => rfl, fun late => ?_⟩
      rw [greeted] at late
      omega
  | postsS2 whole same =>
      subst same
      refine ⟨fun _ => rfl, fun late => ?_⟩
      rw [greeted] at late
      omega
  | waitsC2 part short whole same =>
      subst same
      refine ⟨fun _ => rfl, fun late => ?_⟩
      rw [List.length_append, greeted] at late
      omega
  | messages enough same =>
      subst same
      have past' : (c0c1 ++ c2).length = kRtmpHandShakePacketSize + 1 + kRtmpHandShakePacketSize := by
        rw [List.length_append, greeted, size]
      refine ⟨fun early => ?_, fun _ => ?_⟩
      · rw [ServerSide.behind, List.length_append, past'] at early
        omega
      · rw [ServerSide.behind, List.drop_left' past']
        exact message_side_handed phase hmac draws c0c1 complex offset _

theorem run_fed (c2 m : Bytes) (events past rest : List ServerEvent)
    (accepted : checkC1S1 hmac false true c0c1 = (complex, (offset : Int)))
    (size : c2.length = kRtmpHandShakePacketSize) (cut : arrivals events = c0c1 ++ c2 ++ m)
    (holds : ∀ pair ∈ met (serverStep phase hmac draws) (ServerSide.start phase hmac draws) events,
      HoldsC2 pair.1 pair.2) (split : events = past ++ rest) : Fed (serverRun phase.recording hmac draws past) := by
  have inside : arrivals past <+: c0c1 ++ c2 ++ m := by
    rw [← cut, split, arrivals_append]
    exact List.prefix_append _ _
  refine stage_fed phase hmac draws c0c1 complex offset c2 past _ (accepted_length hmac complex offset c0c1 accepted) size
    (stage_run phase.recording hmac draws c0c1 complex offset c2 m past accepted size inside ?_)
  rintro ⟨side, event⟩ early
  obtain ⟨before, behind, whole, reached⟩ := (met_iff _ _ _ _).mp early
  have asked := holds (serverRun phase hmac draws before, event) ((met_iff _ _ _ _).mpr ⟨before, behind ++ rest, by
    rw [split, whole, List.append_assoc, List.cons_append], rfl⟩)
  dsimp only at reached asked ⊢
  rw [← recording_run phase hmac draws before] at asked
  rw [reached]
  cases event with
  | deliver piece atOnce => exact asked
  | complete => trivial

end

end

def simpleC0C1 : Bytes := 3 :: List.replicate kRtmpHandShakePacketSize 0

def zeroC2 : Bytes := List.replicate kRtmpHandShakePacketSize 0

def greetingPieces : List ServerEvent :=
  [.deliver (simpleC0C1.take 100) false, .deliver (simpleC0C1.drop 100) true, .complete,
    .deliver (zeroC2.take 1000) false, .deliver (zeroC2.drop 1000 ++ [9, 9]) false, .deliver [7] false]

end Lssvc.Mmedia
