import Lssvc.Mmedia.HandShakeLink

set_option autoImplicit false

namespace Lssvc.Mmedia

open Lssvc.Foundation

section

variable {M : Type} (phase : MessagePhase M) (hmac : Hmac) (clientDraws serverDraws : Draws)

inductive Exchange (link : Link M) : Prop where
  | greeting (waits : link.server.handshake.state = .kHandShakeWaitC0C1)
      (complex : link.server.handshake.isComplexHandshake = true)
      (greeting : link.server.buffer ++ link.toServer = createC1S1 hmac true true clientDraws.c1s1)
      (silent : link.client.buffer ++ link.toClient = [])
  | answering (posts : link.server.handshake.state = .kHandShakePostS0S1)
      (made : link.server.handshake.c2s2.length = kRtmpHandShakePacketSize)
      (taken : link.server.buffer ++ link.toServer = [])
      (answer : link.client.buffer ++ link.toClient = createC1S1 hmac false true serverDraws.c1s1)
  | answered (s2 : Bytes)
      (posted : link.server.handshake.state = .kHandShakePostS2 ∨ link.server.handshake.state = .kHandShakeWaitC2)
      (made : s2.length = kRtmpHandShakePacketSize)
      (taken : link.server.buffer ++ link.toServer = [])
      (answers : link.client.buffer ++ link.toClient = createC1S1 hmac false true serverDraws.c1s1 ++ s2)

structure Opening (link : Link M) : Prop where
  clientState : link.client.state = .kRtmpHandShake
  clientOpen : link.client.closed = false
  isClient : link.client.handshake.isClient = true
  clientComplex : link.client.handshake.isComplexHandshake = true
  clientWaits : link.client.handshake.state = .kHandShakePostC0C1 ∨ link.client.handshake.state = .kHandShakeWaitS0S1
  serverState : link.server.state = .kRtmpHandShake
  serverOpen : link.server.closed = false
  isServer : link.server.handshake.isClient = false
  serverPacket : link.server.handshake.c1s1 = createC1S1 hmac false true serverDraws.c1s1
  exchange : Exchange hmac clientDraws serverDraws link

def ClientPast (peer : Peer M) : Prop :=
  peer.state = .kRtmpMessage ∨ peer.state = .kRtmpHandShake ∧
    (peer.handshake.state = .kHandShakePostC2 ∨ peer.handshake.state = .kHandShakeDone)

def ServerPast (peer : Peer M) : Prop :=
  peer.state = .kRtmpMessage ∨ peer.state = .kRtmpHandShake ∧ peer.closed = false ∧
    (peer.handshake.state = .kHandShakePostS0S1 ∨ peer.handshake.state = .kHandShakePostS2 ∨
      peer.handshake.state = .kHandShakeWaitC2)

structure Opened (link : Link M) : Prop where
  client : ClientPast link.client
  server : ServerPast link.server

def LinkSound (link : Link M) : Prop := Opening hmac clientDraws serverDraws link ∨ Opened link

def BringsS2 (link : Link M) : LinkEvent → Prop
  | .deliverClient count _ =>
      link.toClient.take count ≠ [] ∧ link.client.handshake.state = .kHandShakeWaitS0S1 ∧
        (link.client.buffer ++ link.toClient.take count).length = kRtmpHandShakePacketSize + 1 + kRtmpHandShakePacketSize
  | _ => False

def BringsC2 (link : Link M) : LinkEvent → Prop
  | .deliverServer count _ =>
      link.toServer.take count ≠ [] ∧ link.server.handshake.state = .kHandShakeWaitC2 ∧
        kRtmpHandShakePacketSize ≤ (link.server.buffer ++ link.toServer.take count).length
  | _ => False

theorem open_opening :
    Opening hmac clientDraws serverDraws (Link.open phase hmac clientDraws serverDraws) := by
  refine ⟨rfl, rfl, rfl, rfl, .inl rfl, rfl, rfl, rfl, rfl, .greeting rfl rfl ?_ rfl⟩
  exact List.nil_append _

structure Stepped (link next : Link M) (event : LinkEvent) : Prop where
  sound : LinkSound hmac clientDraws serverDraws next
  client : next.client.state = .kRtmpMessage ↔ BringsS2 link event ∨ link.client.state = .kRtmpMessage
  server : next.server.state = .kRtmpMessage ↔ BringsC2 link event ∨ link.server.state = .kRtmpMessage

theorem not_message {state : RtmpContextState} (inHandShake : state = .kRtmpHandShake) : ¬ state = .kRtmpMessage := by
  rw [inHandShake]
  exact RtmpContextState.noConfusion

theorem stepped_opening (link next : Link M) (event : LinkEvent) (opening : Opening hmac clientDraws serverDraws link)
    (after : Opening hmac clientDraws serverDraws next) (noS2 : ¬ BringsS2 link event) (noC2 : ¬ BringsC2 link event) :
    Stepped hmac clientDraws serverDraws link next event := by
  refine ⟨.inl after, ?_, ?_⟩
  · simp only [not_message after.clientState, not_message opening.clientState, noS2, or_self]
  · simp only [not_message after.serverState, not_message opening.serverState, noC2, or_self]

theorem opening_unread (link : Link M) (opening : Opening hmac clientDraws serverDraws link) (count : Nat) :
    Opening hmac clientDraws serverDraws
      { link with
        client := { link.client with buffer := link.client.buffer ++ link.toClient.take count }
        toClient := link.toClient.drop count
        toServer := link.toServer ++ [] } := by
  obtain ⟨clientState, clientOpen, isClient, clientComplex, clientWaits, serverState, serverOpen, isServer,
    serverPacket, exchange⟩ := opening
  have same : link.client.buffer ++ link.toClient.take count ++ link.toClient.drop count =
      link.client.buffer ++ link.toClient := by
    rw [List.append_assoc, List.take_append_drop]
  have kept : link.server.buffer ++ (link.toServer ++ []) = link.server.buffer ++ link.toServer := by
    rw [List.append_nil]
  refine ⟨clientState, clientOpen, isClient, clientComplex, clientWaits, serverState, serverOpen, isServer,
    serverPacket, ?_⟩
  cases exchange with
  | greeting waits complex greeting silent => exact .greeting waits complex (kept.trans greeting) (same.trans silent)
  | answering posts made taken answer => exact .answering posts made (kept.trans taken) (same.trans answer)
  | answered s2 posted made taken answers => exact .answered s2 posted made (kept.trans taken) (same.trans answers)

theorem opening_no_c2 (link : Link M) (opening : Opening hmac clientDraws serverDraws link) (event : LinkEvent) :
    ¬ BringsC2 link event := by
  cases event with
  | deliverServer count atOnce =>
      rintro ⟨arrived, waits, _⟩
      cases opening.exchange with
      | greeting state _ _ _ => cases state.symm.trans waits
      | answering state _ _ _ => cases state.symm.trans waits
      | answered s2 _ _ taken _ =>
          rw [(List.append_eq_nil_iff.mp taken).2, List.take_nil] at arrived
          exact arrived rfl
  | deliverClient count atOnce => exact id
  | completeClient => exact id
  | completeServer => exact id

theorem opening_answer (link : Link M) (opening : Opening hmac clientDraws serverDraws link) (count : Nat)
    (enough : ¬ (link.client.buffer ++ link.toClient.take count).length < kRtmpHandShakePacketSize + 1) :
    (∃ rest, link.client.buffer ++ link.toClient.take count = createC1S1 hmac false true serverDraws.c1s1 ++ rest) ∧
      (link.server.handshake.state = .kHandShakePostS0S1 ∨ link.server.handshake.state = .kHandShakePostS2 ∨
        link.server.handshake.state = .kHandShakeWaitC2) := by
  have whole := (check_accepts_created hmac false serverDraws.c1s1).1
  have held : link.client.buffer ++ link.toClient.take count <+: link.client.buffer ++ link.toClient :=
    (List.prefix_append_right_inj _).mpr (List.take_prefix _ _)
  have found (s2 : Bytes)
      (answers : link.client.buffer ++ link.toClient = createC1S1 hmac false true serverDraws.c1s1 ++ s2) :
      ∃ rest, link.client.buffer ++ link.toClient.take count =
        createC1S1 hmac false true serverDraws.c1s1 ++ rest := by
    rw [answers] at held
    obtain ⟨rest, same⟩ := List.prefix_of_prefix_length_le (List.prefix_append _ s2) held (by omega)
    exact ⟨rest, same.symm⟩
  cases opening.exchange with
  | greeting _ _ _ silent =>
      rw [silent] at held
      rw [List.prefix_nil.mp held] at enough
      exact absurd (Nat.succ_pos _) enough
  | answering posts _ _ answer => exact ⟨found [] (by rw [answer, List.append_nil]), .inl posts⟩
  | answered s2 posted _ _ answers => exact ⟨found s2 answers, .inr posted⟩

theorem opening_deliver_client (link : Link M) (opening : Opening hmac clientDraws serverDraws link) (count : Nat)
    (atOnce : Bool) :
    Stepped hmac clientDraws serverDraws link (linkStep phase hmac clientDraws serverDraws link
      (.deliverClient count atOnce)) (.deliverClient count atOnce) := by
  have noC2 := opening_no_c2 hmac clientDraws serverDraws link opening (.deliverClient count atOnce)
  rw [linkStep]
  dsimp only
  by_cases quiet : link.toClient.take count = []
  · rw [if_pos (.inl quiet)]
    exact stepped_opening hmac clientDraws serverDraws link link _ opening opening (fun brings => brings.1 quiet) noC2
  · rw [if_neg (by simp [quiet, opening.clientOpen])]
    let peer : Peer M := { link.client with buffer := link.client.buffer ++ link.toClient.take count }
    by_cases ready : link.client.handshake.state = .kHandShakeWaitS0S1 ∧
        ¬ (link.client.buffer ++ link.toClient.take count).length < kRtmpHandShakePacketSize + 1
    · obtain ⟨waits, enough⟩ := ready
      obtain ⟨⟨rest, buffer⟩, server⟩ := opening_answer hmac clientDraws serverDraws link opening count enough
      have whole := (check_accepts_created hmac false serverDraws.c1s1).1
      have taken := client_takes_answer phase hmac peer clientDraws serverDraws rest atOnce opening.clientState
        opening.isClient opening.clientComplex waits buffer
      have brings : BringsS2 link (.deliverClient count atOnce) ↔ rest.length = kRtmpHandShakePacketSize := by
        rw [BringsS2, buffer, List.length_append, whole]
        exact ⟨fun ⟨_, _, total⟩ => by omega, fun total => ⟨quiet, waits, by omega⟩⟩
      have serverKept := not_message opening.serverState
      by_cases exactly : rest.length = kRtmpHandShakePacketSize
      · rw [if_pos exactly] at taken
        refine ⟨.inr ⟨.inl taken, .inr ⟨opening.serverState, opening.serverOpen, server⟩⟩, ?_, ?_⟩
        · exact ⟨fun _ => .inl (brings.mpr exactly), fun _ => taken⟩
        · simp only [serverKept, noC2, or_self]
      · rw [if_neg exactly] at taken
        refine ⟨.inr ⟨.inr taken, .inr ⟨opening.serverState, opening.serverOpen, server⟩⟩, ?_, ?_⟩
        · simp only [brings, exactly, not_message opening.clientState, or_self, iff_false]
          exact not_message taken.1
        · simp only [serverKept, noC2, or_self]
    · have waited : peer.parse phase hmac clientDraws atOnce = (peer, []) := by
        refine parse_waits phase hmac peer clientDraws atOnce opening.clientState ?_
        rcases opening.clientWaits with posts | waits
        · simp only [RtmpHandShake.handShake, peer, posts]
        · have short := not_not.mp fun enough => ready ⟨waits, enough⟩
          simp only [RtmpHandShake.handShake, peer, waits, if_pos short]
      have after := opening_unread hmac clientDraws serverDraws link opening count
      rw [waited]
      refine stepped_opening hmac clientDraws serverDraws link _ _ opening after ?_ noC2
      rintro ⟨_, waits, total⟩
      exact ready ⟨waits, by omega⟩

theorem opening_deliver_server (link : Link M) (opening : Opening hmac clientDraws serverDraws link) (count : Nat)
    (atOnce : Bool) :
    Stepped hmac clientDraws serverDraws link (linkStep phase hmac clientDraws serverDraws link
      (.deliverServer count atOnce)) (.deliverServer count atOnce) := by
  have noC2 := opening_no_c2 hmac clientDraws serverDraws link opening (.deliverServer count atOnce)
  have unchanged := stepped_opening hmac clientDraws serverDraws link link (.deliverServer count atOnce) opening
    opening id noC2
  rw [linkStep]
  dsimp only
  by_cases quiet : link.toServer.take count = []
  · rw [if_pos (.inl quiet)]
    exact unchanged
  rw [if_neg (by simp [quiet, opening.serverOpen])]
  cases opening.exchange with
  | answering _ _ taken _ =>
      rw [(List.append_eq_nil_iff.mp taken).2, List.take_nil] at quiet
      exact absurd rfl quiet
  | answered _ _ _ taken _ =>
      rw [(List.append_eq_nil_iff.mp taken).2, List.take_nil] at quiet
      exact absurd rfl quiet
  | greeting waits complex greeting silent =>
      have whole := (check_accepts_created hmac true clientDraws.c1s1).1
      have same : link.server.buffer ++ link.toServer.take count ++ link.toServer.drop count =
          createC1S1 hmac true true clientDraws.c1s1 := by
        rw [List.append_assoc, List.take_append_drop, greeting]
      let peer : Peer M := { link.server with buffer := link.server.buffer ++ link.toServer.take count }
      refine stepped_opening hmac clientDraws serverDraws link _ _ opening ?_ id noC2
      obtain ⟨clientState, clientOpen, isClient, clientComplex, clientWaits, serverState, serverOpen, isServer,
        serverPacket, _⟩ := opening
      by_cases short : (link.server.buffer ++ link.toServer.take count).length < kRtmpHandShakePacketSize + 1
      · have waited : peer.parse phase hmac serverDraws atOnce = (peer, []) := by
          refine parse_waits phase hmac peer serverDraws atOnce serverState ?_
          simp only [RtmpHandShake.handShake, peer, waits, if_pos short]
        rw [waited]
        refine ⟨clientState, clientOpen, isClient, clientComplex, clientWaits, serverState, serverOpen, isServer,
          serverPacket, .greeting waits complex same ?_⟩
        rw [List.append_nil]
        exact silent
      · have lengths := congrArg List.length same
        rw [List.length_append, whole] at lengths
        have nothing : link.toServer.drop count = [] := List.length_eq_zero_iff.mp (by omega)
        rw [nothing, List.append_nil] at same
        obtain ⟨next, sent, parsed, nextState, nextClosed, nextBuffer, nextServer, nextPacket, made, posted⟩ :=
          server_takes_greeting phase hmac peer serverDraws clientDraws atOnce serverState isServer complex waits same
        rw [parsed, nothing]
        refine ⟨clientState, clientOpen, isClient, clientComplex, clientWaits, nextState, nextClosed.trans serverOpen,
          nextServer, nextPacket.trans serverPacket, ?_⟩
        have taken : next.buffer ++ [] = [] := by rw [nextBuffer, List.append_nil]
        have packet : peer.handshake.c1s1 = createC1S1 hmac false true serverDraws.c1s1 := serverPacket
        have answers : link.client.buffer ++ (link.toClient ++ sent) = sent := by
          rw [← List.append_assoc, silent, List.nil_append]
        rw [packet] at posted
        rcases posted with ⟨posts, rfl⟩ | ⟨posts, rfl⟩
        · exact .answering posts made taken answers
        · exact .answered next.handshake.c2s2 (.inl posts) made taken answers

theorem opening_complete_client (link : Link M) (opening : Opening hmac clientDraws serverDraws link) :
    Stepped hmac clientDraws serverDraws link (linkStep phase hmac clientDraws serverDraws link .completeClient)
      .completeClient := by
  rw [linkStep]
  by_cases settled : link.client.outstanding = 0
  · rw [if_pos (.inl settled)]
    exact stepped_opening hmac clientDraws serverDraws link link _ opening opening id id
  rw [if_neg (by simp [settled, opening.clientOpen])]
  refine stepped_opening hmac clientDraws serverDraws link _ _ opening ?_ id id
  obtain ⟨handshake, state, buffer, closed, bytes⟩ := complete_kept phase
    { link.client with outstanding := link.client.outstanding - 1 } opening.clientState
  obtain ⟨clientState, clientOpen, isClient, clientComplex, clientWaits, serverState, serverOpen, isServer,
    serverPacket, exchange⟩ := opening
  have completed : link.client.handshake.writeComplete =
      ({ link.client.handshake with state := .kHandShakeWaitS0S1 }, none) := by
    rcases clientWaits with posts | waits
    · simp only [RtmpHandShake.writeComplete, posts]
    · simp only [RtmpHandShake.writeComplete, waits]
      rw [← waits]
  dsimp only at handshake bytes
  rw [completed] at handshake bytes
  dsimp only
  rw [bytes, Option.getD_none, List.append_nil]
  refine ⟨state, closed.trans clientOpen, ?_, ?_, ?_, serverState, serverOpen, isServer, serverPacket, ?_⟩
  · rw [handshake]
    exact isClient
  · rw [handshake]
    exact clientComplex
  · rw [handshake]
    exact .inr rfl
  · cases exchange with
    | greeting waits complex greeting silent => exact .greeting waits complex greeting (by rw [buffer]; exact silent)
    | answering posts made taken answer => exact .answering posts made taken (by rw [buffer]; exact answer)
    | answered s2 posted made taken answers => exact .answered s2 posted made taken (by rw [buffer]; exact answers)

theorem opening_complete_server (link : Link M) (opening : Opening hmac clientDraws serverDraws link) :
    Stepped hmac clientDraws serverDraws link (linkStep phase hmac clientDraws serverDraws link .completeServer)
      .completeServer := by
  rw [linkStep]
  by_cases settled : link.server.outstanding = 0
  · rw [if_pos (.inl settled)]
    exact stepped_opening hmac clientDraws serverDraws link link _ opening opening id id
  rw [if_neg (by simp [settled, opening.serverOpen])]
  refine stepped_opening hmac clientDraws serverDraws link _ _ opening ?_ id id
  obtain ⟨handshake, state, buffer, closed, bytes⟩ := complete_kept phase
    { link.server with outstanding := link.server.outstanding - 1 } opening.serverState
  obtain ⟨clientState, clientOpen, isClient, clientComplex, clientWaits, serverState, serverOpen, isServer,
    serverPacket, exchange⟩ := opening
  have fields : link.server.handshake.writeComplete.1.isClient = link.server.handshake.isClient ∧
      link.server.handshake.writeComplete.1.c1s1 = link.server.handshake.c1s1 := by
    rw [RtmpHandShake.writeComplete]
    split <;> exact ⟨rfl, rfl⟩
  dsimp only at handshake bytes
  dsimp only
  refine ⟨clientState, clientOpen, isClient, clientComplex, clientWaits, state, closed.trans serverOpen, ?_, ?_, ?_⟩
  · rw [handshake, fields.1]
    exact isServer
  · rw [handshake, fields.2]
    exact serverPacket
  · cases exchange with
    | greeting waits complex greeting silent =>
        have completed : link.server.handshake.writeComplete = (link.server.handshake, none) := by
          simp only [RtmpHandShake.writeComplete, waits]
        rw [completed] at handshake bytes
        refine .greeting (by rw [handshake]; exact waits) (by rw [handshake]; exact complex) ?_ ?_
        · rw [buffer]
          exact greeting
        · rw [bytes, Option.getD_none, List.append_nil]
          exact silent
    | answering posts made taken answer =>
        have completed : link.server.handshake.writeComplete =
            ({ link.server.handshake with state := .kHandShakePostS2 }, some link.server.handshake.c2s2) := by
          simp only [RtmpHandShake.writeComplete, posts]
        rw [completed] at handshake bytes
        refine .answered link.server.handshake.c2s2 (.inl (by rw [handshake])) made ?_ ?_
        · rw [buffer]
          exact taken
        · rw [bytes, Option.getD_some, ← List.append_assoc, answer]
    | answered s2 posted made taken answers =>
        have completed : link.server.handshake.writeComplete =
            ({ link.server.handshake with state := .kHandShakeWaitC2 }, none) := by
          rcases posted with posts | waits
          · simp only [RtmpHandShake.writeComplete, posts]
          · simp only [RtmpHandShake.writeComplete, waits]
            rw [← waits]
        rw [completed] at handshake bytes
        refine .answered s2 (.inr (by rw [handshake])) made ?_ ?_
        · rw [buffer]
          exact taken
        · rw [bytes, Option.getD_none, List.append_nil]
          exact answers

theorem client_past_parse (peer : Peer M) (draws : Draws) (atOnce : Bool) (past : ClientPast peer) :
    ClientPast (peer.parse phase hmac draws atOnce).1 ∧
      ((peer.parse phase hmac draws atOnce).1.state = .kRtmpMessage ↔ peer.state = .kRtmpMessage) := by
  rcases past with inMessage | ⟨inHandShake, missed⟩
  · have after := parse_message_state phase hmac peer draws atOnce inMessage
    exact ⟨.inl after, fun _ => inMessage, fun _ => after⟩
  · have waited : peer.parse phase hmac draws atOnce = (peer, []) := by
      refine parse_waits phase hmac peer draws atOnce inHandShake ?_
      rcases missed with posts | done
      · simp only [RtmpHandShake.handShake, posts]
      · simp only [RtmpHandShake.handShake, done]
    rw [waited]
    exact ⟨.inr ⟨inHandShake, missed⟩, Iff.rfl⟩

theorem client_past_complete (peer : Peer M) (past : ClientPast peer) :
    ClientPast (peer.onWriteComplete phase).1 ∧
      ((peer.onWriteComplete phase).1.state = .kRtmpMessage ↔ peer.state = .kRtmpMessage) := by
  rcases past with inMessage | ⟨inHandShake, missed⟩
  · have after := complete_message_state phase peer inMessage
    exact ⟨.inl after, fun _ => inMessage, fun _ => after⟩
  · obtain ⟨handshake, state, _⟩ := complete_kept phase peer inHandShake
    have done : peer.handshake.writeComplete.1.state = .kHandShakeDone := by
      rcases missed with posts | done
      · simp only [RtmpHandShake.writeComplete, posts]
      · simp only [RtmpHandShake.writeComplete, done]
    refine ⟨.inr ⟨state, .inr (by rw [handshake, done])⟩, ?_⟩
    simp only [not_message state, not_message inHandShake]

theorem server_past_parse (peer : Peer M) (draws : Draws) (atOnce : Bool) (past : ServerPast peer) :
    ServerPast (peer.parse phase hmac draws atOnce).1 ∧
      ((peer.parse phase hmac draws atOnce).1.state = .kRtmpMessage ↔
        (peer.handshake.state = .kHandShakeWaitC2 ∧ kRtmpHandShakePacketSize ≤ peer.buffer.length) ∨
          peer.state = .kRtmpMessage) := by
  rcases past with inMessage | ⟨inHandShake, living, sent⟩
  · have after := parse_message_state phase hmac peer draws atOnce inMessage
    exact ⟨.inl after, fun _ => .inr inMessage, fun _ => after⟩
  · by_cases waits : peer.handshake.state = .kHandShakeWaitC2
    · have taken := server_takes_c2 phase hmac peer draws atOnce inHandShake waits
      by_cases whole : kRtmpHandShakePacketSize ≤ peer.buffer.length
      · rw [if_pos whole] at taken
        exact ⟨.inl taken, fun _ => .inl ⟨waits, whole⟩, fun _ => taken⟩
      · rw [if_neg whole] at taken
        rw [taken]
        exact ⟨.inr ⟨inHandShake, living, sent⟩, fun now => .inr now,
          fun either => either.resolve_left fun both => whole both.2⟩
    · have waited : peer.parse phase hmac draws atOnce = (peer, []) := by
        refine parse_waits phase hmac peer draws atOnce inHandShake ?_
        rcases sent with posts | posts | impossible
        · simp only [RtmpHandShake.handShake, posts]
        · simp only [RtmpHandShake.handShake, posts]
        · exact absurd impossible waits
      rw [waited]
      exact ⟨.inr ⟨inHandShake, living, sent⟩, fun now => .inr now,
        fun either => either.resolve_left fun both => waits both.1⟩

theorem server_past_complete (peer : Peer M) (past : ServerPast peer) :
    ServerPast (peer.onWriteComplete phase).1 ∧
      ((peer.onWriteComplete phase).1.state = .kRtmpMessage ↔ peer.state = .kRtmpMessage) := by
  rcases past with inMessage | ⟨inHandShake, living, sent⟩
  · have after := complete_message_state phase peer inMessage
    exact ⟨.inl after, fun _ => inMessage, fun _ => after⟩
  · obtain ⟨handshake, state, _, closed, _⟩ := complete_kept phase peer inHandShake
    have next : peer.handshake.writeComplete.1.state = .kHandShakePostS2 ∨
        peer.handshake.writeComplete.1.state = .kHandShakeWaitC2 := by
      rcases sent with posts | posts | waits
      · exact .inl (by simp only [RtmpHandShake.writeComplete, posts])
      · exact .inr (by simp only [RtmpHandShake.writeComplete, posts])
      · exact .inr (by simp only [RtmpHandShake.writeComplete, waits])
    refine ⟨.inr ⟨state, closed.trans living, .inr (by rw [handshake]; exact next)⟩, ?_⟩
    simp only [not_message state, not_message inHandShake]

theorem opened_no_s2 (link : Link M) (opened : Opened link) (event : LinkEvent) (brings : BringsS2 link event) :
    link.client.state = .kRtmpMessage := by
  rcases opened.client with inMessage | ⟨_, missed⟩
  · exact inMessage
  · cases event with
    | deliverClient count atOnce =>
        obtain ⟨_, waits, _⟩ := brings
        rcases missed with posts | done
        · cases posts.symm.trans waits
        · cases done.symm.trans waits
    | deliverServer count atOnce => cases brings
    | completeClient => cases brings
    | completeServer => cases brings

theorem opened_client_event (link : Link M) (event : LinkEvent) (opened : Opened link) (client : Peer M)
    (toClient toServer : Bytes) (past : ClientPast client)
    (same : client.state = .kRtmpMessage ↔ link.client.state = .kRtmpMessage) (noC2 : ¬ BringsC2 link event) :
    Stepped hmac clientDraws serverDraws link ⟨client, link.server, toClient, toServer⟩ event := by
  refine ⟨.inr ⟨past, opened.server⟩, ?_, ?_⟩
  · exact ⟨fun now => .inr (same.mp now),
      fun either => same.mpr (either.elim (opened_no_s2 link opened event) id)⟩
  · simp only [noC2, false_or]

theorem opened_server_event (link : Link M) (event : LinkEvent) (opened : Opened link) (server : Peer M)
    (toClient toServer : Bytes) (past : ServerPast server)
    (same : server.state = .kRtmpMessage ↔ BringsC2 link event ∨ link.server.state = .kRtmpMessage) :
    Stepped hmac clientDraws serverDraws link ⟨link.client, server, toClient, toServer⟩ event :=
  ⟨.inr ⟨opened.client, past⟩, ⟨.inr, fun either => either.elim (opened_no_s2 link opened event) id⟩, same⟩

theorem opened_step (link : Link M) (event : LinkEvent) (opened : Opened link) :
    Stepped hmac clientDraws serverDraws link (linkStep phase hmac clientDraws serverDraws link event) event := by
  cases event with
  | deliverClient count atOnce =>
      rw [linkStep]
      dsimp only
      split
      · exact opened_client_event hmac clientDraws serverDraws link _ opened link.client link.toClient link.toServer
          opened.client Iff.rfl id
      · obtain ⟨past, same⟩ := client_past_parse phase hmac
          { link.client with buffer := link.client.buffer ++ link.toClient.take count } clientDraws atOnce opened.client
        exact opened_client_event hmac clientDraws serverDraws link _ opened _ _ _ past same id
  | completeClient =>
      rw [linkStep]
      split
      · exact opened_client_event hmac clientDraws serverDraws link _ opened link.client link.toClient link.toServer
          opened.client Iff.rfl id
      · obtain ⟨past, same⟩ := client_past_complete phase
          { link.client with outstanding := link.client.outstanding - 1 } opened.client
        exact opened_client_event hmac clientDraws serverDraws link _ opened _ _ _ past same id
  | deliverServer count atOnce =>
      rw [linkStep]
      dsimp only
      by_cases quiet : link.toServer.take count = []
      · rw [if_pos (.inl quiet)]
        refine opened_server_event hmac clientDraws serverDraws link _ opened link.server link.toClient link.toServer
          opened.server ?_
        exact ⟨.inr, fun either => either.resolve_left fun brings => brings.1 quiet⟩
      · by_cases dead : link.server.closed = true
        · rw [if_pos (.inr dead)]
          refine opened_server_event hmac clientDraws serverDraws link _ opened link.server link.toClient
            link.toServer opened.server ?_
          refine ⟨.inr, fun either => either.elim (fun _ => ?_) id⟩
          exact opened.server.resolve_right fun living => absurd (living.2.1.symm.trans dead) Bool.false_ne_true
        · rw [if_neg (by simp [quiet, dead])]
          obtain ⟨past, same⟩ := server_past_parse phase hmac
            { link.server with buffer := link.server.buffer ++ link.toServer.take count } serverDraws atOnce
            opened.server
          refine opened_server_event hmac clientDraws serverDraws link _ opened _ _ _ past (same.trans ?_)
          simp only [BringsC2, ne_eq, quiet, not_false_eq_true, true_and]
  | completeServer =>
      rw [linkStep]
      split
      · exact opened_server_event hmac clientDraws serverDraws link _ opened link.server link.toClient link.toServer
          opened.server ⟨.inr, fun either => either.resolve_left id⟩
      · obtain ⟨past, same⟩ := server_past_complete phase
          { link.server with outstanding := link.server.outstanding - 1 } opened.server
        exact opened_server_event hmac clientDraws serverDraws link _ opened _ _ _ past
          (same.trans ⟨.inr, fun either => either.resolve_left id⟩)

theorem link_step (link : Link M) (event : LinkEvent) (sound : LinkSound hmac clientDraws serverDraws link) :
    Stepped hmac clientDraws serverDraws link (linkStep phase hmac clientDraws serverDraws link event) event := by
  rcases sound with opening | opened
  · cases event with
    | deliverClient count atOnce =>
        exact opening_deliver_client phase hmac clientDraws serverDraws link opening count atOnce
    | deliverServer count atOnce =>
        exact opening_deliver_server phase hmac clientDraws serverDraws link opening count atOnce
    | completeClient => exact opening_complete_client phase hmac clientDraws serverDraws link opening
    | completeServer => exact opening_complete_server phase hmac clientDraws serverDraws link opening
  · exact opened_step phase hmac clientDraws serverDraws link event opened

def linkRun (events : List LinkEvent) : Link M :=
  run (linkStep phase hmac clientDraws serverDraws) (Link.open phase hmac clientDraws serverDraws) events

def linkMet (events : List LinkEvent) : List (Link M × LinkEvent) :=
  met (linkStep phase hmac clientDraws serverDraws) (Link.open phase hmac clientDraws serverDraws) events

theorem link_run_sound (events : List LinkEvent) :
    LinkSound hmac clientDraws serverDraws (linkRun phase hmac clientDraws serverDraws events) :=
  run_invariant (fun link event sound => (link_step phase hmac clientDraws serverDraws link event sound).sound) _
    (.inl (open_opening phase hmac clientDraws serverDraws)) events

theorem client_message_iff (events : List LinkEvent) :
    (linkRun phase hmac clientDraws serverDraws events).client.state = .kRtmpMessage ↔
      ∃ pair ∈ linkMet phase hmac clientDraws serverDraws events, BringsS2 pair.1 pair.2 := by
  refine run_ever_iff (fun link : Link M => link.client.state = .kRtmpMessage) BringsS2 ?_ ?_ events
  · exact not_message (open_opening phase hmac clientDraws serverDraws).clientState
  · intro past event
    exact (link_step phase hmac clientDraws serverDraws _ event
      (link_run_sound phase hmac clientDraws serverDraws past)).client

theorem server_message_iff (events : List LinkEvent) :
    (linkRun phase hmac clientDraws serverDraws events).server.state = .kRtmpMessage ↔
      ∃ pair ∈ linkMet phase hmac clientDraws serverDraws events, BringsC2 pair.1 pair.2 := by
  refine run_ever_iff (fun link : Link M => link.server.state = .kRtmpMessage) BringsC2 ?_ ?_ events
  · exact not_message (open_opening phase hmac clientDraws serverDraws).serverState
  · intro past event
    exact (link_step phase hmac clientDraws serverDraws _ event
      (link_run_sound phase hmac clientDraws serverDraws past)).server

theorem hand_shake_agreement_iff (events : List LinkEvent) :
    (∀ past rest, events = past ++ rest → (linkRun phase hmac clientDraws serverDraws past).Quiescent →
      (linkRun phase hmac clientDraws serverDraws past).Agreed) ↔
    ∀ past rest, events = past ++ rest → (linkRun phase hmac clientDraws serverDraws past).Quiescent →
      (∃ pair ∈ linkMet phase hmac clientDraws serverDraws past, BringsS2 pair.1 pair.2) ∧
        ∃ pair ∈ linkMet phase hmac clientDraws serverDraws past, BringsC2 pair.1 pair.2 := by
  have agreed (past : List LinkEvent) : (linkRun phase hmac clientDraws serverDraws past).Agreed ↔
      (∃ pair ∈ linkMet phase hmac clientDraws serverDraws past, BringsS2 pair.1 pair.2) ∧
        ∃ pair ∈ linkMet phase hmac clientDraws serverDraws past, BringsC2 pair.1 pair.2 := by
    rw [Link.Agreed, client_message_iff, server_message_iff]
  simp only [agreed]

end

def silentPhase : MessagePhase Unit where
  idle := ()
  sendConnect := fun _ => ((), {})
  parseMessage := fun _ _ => ((), [], {}, true)
  checkAndSend := fun _ => ((), {})

def zeroDraws : Draws := ⟨fun _ => 0, fun _ => 0, 0⟩

def constantHmac (_ _ : Bytes) : { digest : Bytes // digest.length = kSha256DigestLength } :=
  ⟨List.replicate kSha256DigestLength 7, List.length_replicate⟩

-- S0S1 reaches the client without S2: it will never take S2.
def splitAnswers : List LinkEvent :=
  [.completeClient, .deliverServer 1537 false, .deliverClient 1537 false, .completeServer, .completeServer,
    .completeClient, .deliverClient 1536 false, .deliverServer 1536 false]

theorem split_answers_disagree :
    (linkRun silentPhase constantHmac zeroDraws zeroDraws splitAnswers).Quiescent ∧
      ¬ (linkRun silentPhase constantHmac zeroDraws zeroDraws splitAnswers).Agreed := by
  decide +kernel

end Lssvc.Mmedia
