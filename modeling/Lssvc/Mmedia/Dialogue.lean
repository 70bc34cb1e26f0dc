import Mathlib.Tactic.IntervalCases
import Lssvc.Foundation.Exchange
import Lssvc.Mmedia.ContextHandlers
import Lssvc.Mmedia.MessagePipe

set_option autoImplicit false

namespace Lssvc.Mmedia

open Lssvc.Foundation Lssvc.Utils

def completeAt (state : Except ContextFault RtmpContext) (data : Packet) : Except ContextFault RtmpContext × List Packet :=
  match state with
  | .error fault => (.error fault, [])
  | .ok ctx =>
      match ctx.messageComplete data with
      | .error fault => (.error fault, [])
      | .ok (after, replies) => (.ok after, replies)

def reactTo (state : Except ContextFault RtmpContext) (sent : Packet) : Except ContextFault RtmpContext × List Packet :=
  completeAt state (queued sent).arrived

-- A client speaks first, when its handshake is done.
def clientParty (ctx : RtmpContext) : Party (Except ContextFault RtmpContext) Packet Packet where
  start := ctx.sendConnect.map fun _ => ctx
  opening := ctx.sendConnect.toOption.getD []
  react := reactTo

def serverParty : Party (Except ContextFault RtmpContext) Packet Packet where
  start := .ok {}
  opening := []
  react := reactTo

theorem react_grows (after : RtmpContext) (state : Except ContextFault RtmpContext) (sent : Packet)
    (handled : (reactTo state sent).1 = .ok after) :
    ∃ ctx, state = .ok ctx ∧ ctx.Grows after := by
  cases state with
  | error fault => cases handled
  | ok ctx =>
      refine ⟨ctx, rfl, ?_⟩
      rw [reactTo, completeAt] at handled
      split at handled
      · cases handled
      · rename_i complete
        cases handled
        exact message_complete_grows ctx _ _ _ complete

-- Two bytes behind the last value, as of a null, are left unread.
theorem front_yield (values : List AmfValue) (rest : Bytes) (few : rest.length < 3)
    (fits : ∀ value ∈ values, value.Fits) (large : ∀ value ∈ values.getLast?, ¬ value.Tiny) (fuel : Nat) :
    Yields (decodeFuel fuel false (encodeAll values ++ rest)) (encodeAll values).length
      (values.map (AmfValue.decoded [])) := by
  induction values generalizing fuel with
  | nil => exact few_yield false rest few fuel
  | cons value values ih =>
      obtain ⟨here, later⟩ := List.forall_mem_cons.mp fits
      have enough := all_length (value :: values) (List.cons_ne_nil _ _) large
      have next : ∀ last ∈ values.getLast?, ¬ last.Tiny := by
        intro last final
        refine large last ?_
        rw [List.getLast?_cons, Option.mem_def.mp final]
        rfl
      rw [encodeAll, List.flatMap_cons, List.length_append] at enough ⊢
      rw [List.append_assoc]
      refine value_yields_first value here _ ?_ fuel (ih later next)
      rw [List.length_append, List.length_append]
      omega

theorem command_read (method : Bytes) (values : List AmfValue) (rest : Bytes) (few : rest.length < 3)
    (fits : ∀ value ∈ .string method :: values, value.Fits)
    (large : ∀ value ∈ (AmfValue.string method :: values).getLast?, ¬ value.Tiny) :
    handleAmfCommand false (encodeAll (.string method :: values) ++ rest) =
      ((commands method).getD fun _ => .ok (.notSupported method))
        ((AmfValue.string method :: values).map (AmfValue.decoded [])) := by
  obtain ⟨calls, done⟩ := yields_decode (front_yield (.string method :: values) rest few fits large)
  have payload : commandBody false (encodeAll (.string method :: values) ++ rest) =
      encodeAll (.string method :: values) ++ rest := rfl
  have name : deref (property 0 ((AmfValue.string method :: values).map (AmfValue.decoded []))) =
      .ok (.string [] method) := rfl
  have named : (AMFAny.string [] method).str = method := rfl
  simp only [handleAmfCommand, payload, done, Option.isNone_some, Bool.false_eq_true, if_false, name, bind, Except.bind,
    named]
  cases commands method <;> rfl

theorem create_stream_command : handleAmfCommand false createStreamBody = .ok (.createStream (writeNumber 4)) := by
  have body : createStreamBody = encodeAll [.string (text "createStream"), .number 4] ++ [AMFDataType.kAMFNull.toByte] := by
    simp [createStreamBody, encodeAll, AmfValue.encode, AmfValue.body, AmfValue.type, encodeString, encodeNumber]
  rw [body, command_read _ _ _ (by decide)]
  · rfl
  · simp [AmfValue.Fits, text]
  · simp [AmfValue.Tiny, AmfValue.type]

theorem connect_result_command (amf3 : Bool) :
    handleAmfCommand false (connectResultBody amf3) = .ok (.result (writeNumber 1)) := by
  have body : connectResultBody amf3 = encodeAll [.string (text "_result"), .number 1,
      .object (.cons (text "fmsVer") (.string (text "FMS/3,0,1,123")) (.cons (text "capabilities") (.number 31) .nil)),
      .object (.cons (text "level") (.string (text "status"))
        (.cons (text "code") (.string (text "NetConnection.Connect.Success"))
          (.cons (text "description") (.string (text "Connection succeeded"))
            (.cons (text "objectEncoding") (.number (if amf3 then 3 else 0)) .nil))))] ++ [] := by
    simp [connectResultBody, encodeAll, AmfValue.encode, AmfValue.body, AmfMembers.encode, AmfValue.type,
      encodeNamedString, encodeNamedNumber, encodeString, encodeNumber, encodeName]
  rw [body, command_read _ _ _ (by decide)]
  · rfl
  · cases amf3 <;> simp [AmfValue.Fits, AmfMembers.Fits, AmfValue.type, text]
  · simp [AmfValue.Tiny, AmfValue.type]

theorem create_stream_result_command (tranId : Nat) (exact : tranId ≤ 9007199254740992) :
    handleAmfCommand false (createStreamResultBody tranId) = .ok (.result (writeNumber tranId)) := by
  have body : createStreamResultBody tranId =
      encodeAll [.string (text "_result"), .number tranId, .null, .number 1] ++ [] := by
    simp [createStreamResultBody, encodeAll, AmfValue.encode, AmfValue.body, AmfValue.type, encodeString, encodeNumber]
  rw [body, command_read _ _ _ (by decide)]
  · rfl
  · simp [AmfValue.Fits, text, exact]
  · simp [AmfValue.Tiny, AmfValue.type]

theorem status_command (level code desc : Bytes) (short : level.length < 65536 ∧ code.length < 65536 ∧ desc.length < 65536) :
    handleAmfCommand false (statusBody level code desc) = .ok (.notSupported (text "onStatus")) := by
  have body : statusBody level code desc = encodeAll [.string (text "onStatus"), .number 0, .null,
      .object (.cons (text "level") (.string level) (.cons (text "code") (.string code)
        (.cons (text "description") (.string desc) .nil)))] ++ [] := by
    simp [statusBody, encodeAll, AmfValue.encode, AmfValue.body, AmfMembers.encode, AmfValue.type,
      encodeNamedString, encodeString, encodeNumber, encodeName]
  rw [body, command_read _ _ _ (by decide)]
  · rfl
  · simp [AmfValue.Fits, AmfMembers.Fits, AmfValue.type, text, short]
  · simp [AmfValue.Tiny, AmfValue.type]

def amfMessage (msgSid : UInt32) (body : Bytes) : Packet :=
  { newPacket DEFAULT_PACKET_SIZE with
    body := body
    ext := some
      { csId := kRtmpCSIDAMFIni
        msgLen := body.length
        msgType := kRtmpMsgTypeAMFMessage
        msgSid := msgSid } }

theorem amf_packet_written (msgSid : UInt32) (body : Bytes) (short : body.length ≤ DEFAULT_PACKET_SIZE) :
    amfPacket msgSid (packetBody body) = .ok (amfMessage msgSid body) := by
  rw [packetBody, if_pos short]
  rfl

theorem react_command (ctx : RtmpContext) (msgSid : UInt32) (body : Bytes) (command : Command)
    (read : handleAmfCommand false body = .ok command) (after : RtmpContext) (replies : List Packet)
    (done : ctx.carryOut command = .ok (after, replies)) :
    reactTo (.ok ctx) (amfMessage msgSid body) = (.ok after, replies) := by
  have complete : ctx.messageComplete (queued (amfMessage msgSid body)).arrived = .ok (after, replies) := by
    change ctx.handleAmfCommand false _ = _
    have payload : handleAmfCommand false (queued (amfMessage msgSid body)).arrived.body = .ok command := read
    simp only [RtmpContext.handleAmfCommand, payload, done]
  rw [reactTo, completeAt, complete]

-- The control messages change nothing: they are the sizes both sides start with,
-- and the begin of a stream is not read as a request.
theorem react_chunk_size (ctx : RtmpContext) (size : Int) : reactTo (.ok ctx) (sendSetChunkSize size) = (.ok ctx, []) := rfl

theorem react_bandwidth (ctx : RtmpContext) (size : Int) : reactTo (.ok ctx) (sendSetPeerBandwidth size) = (.ok ctx, []) := rfl

theorem react_ack_window (ctx : RtmpContext) (size : Int) (low : 1 ≤ size) (high : size < 2147483648) :
    reactTo (.ok ctx) (sendAckWindowSize size) = (.ok { ctx with ackSize := size }, []) := by
  have stored := ack_window_size_stored size low high (queued (sendAckWindowSize size)).arrived ctx.ackSize rfl
  change (Except.ok { ctx with ackSize := handleAckWindowSize _ _ }, _) = _
  rw [stored]

theorem react_begin (ctx : RtmpContext) :
    reactTo (.ok ctx) (sendUserCtrlMessage RtmpEventType.kRtmpEventTypeStreamBegin.value 1 0) = (.ok ctx, []) := rfl

section

variable (isPlayer : Bool) (u : ClientUrl)

def clientStart : RtmpContext := { naming := clientContext isPlayer (chars u.url) }

def connectMessage : Packet := amfMessage 0 (connectBody (clientStart isPlayer u).naming)

def createStreamMessage : Packet := amfMessage 0 createStreamBody

def nameMessage : Packet :=
  amfMessage 1 (if isPlayer then playBody (clientStart isPlayer u).naming else publishBody (clientStart isPlayer u).naming)

def clientMessages : List Packet :=
  [sendSetChunkSize kRtmpBufferSize, connectMessage isPlayer u, createStreamMessage, nameMessage isPlayer u]

def connectAnswers : List Packet :=
  [sendAckWindowSize 2048000, sendSetPeerBandwidth 2048000, sendSetChunkSize kRtmpBufferSize,
    amfMessage 0 (connectResultBody false)]

def startAnswers : List Packet :=
  if isPlayer then
    [sendUserCtrlMessage RtmpEventType.kRtmpEventTypeStreamBegin.value 1 0,
      amfMessage 1 (statusBody (text "status") (text "NetStream.Play.Start") (text "Start playing"))]
  else [amfMessage 1 (statusBody (text "status") (text "NetStream.Publish.Start") (text "Start publish"))]

def serverMessages : List Packet :=
  connectAnswers ++ amfMessage 0 (createStreamResultBody 4) :: startAnswers isPlayer

def namedCall : HandlerCall :=
  if isPlayer then .onPlay (chars (u.host ++ slash :: u.app ++ [slash])) []
  else .onPublish (chars (u.host ++ slash :: u.app ++ [slash])) []

def serverConnected : RtmpContext := { naming := { app := chars u.app, tcUrl := chars u.url } }

def serverNamed : RtmpContext :=
  { naming :=
      { isPlayer := isPlayer
        app := chars u.app
        tcUrl := chars u.url
        sessionName := chars (u.host ++ slash :: u.app ++ [slash]) }
    calls := [namedCall isPlayer u] }

theorem number_value (val : Nat) (exact : val ≤ 9007199254740992) : numberValue (writeNumber val) = .ok val := by
  rw [numberValue, read_write_number val exact, if_pos (Int.natCast_nonneg val)]
  rfl

theorem connect_result_short (amf3 : Bool) : (connectResultBody amf3).length ≤ DEFAULT_PACKET_SIZE := by
  simp [connectResultBody, encodeNamedString, encodeNamedNumber, encodeString, encodeNumber, objectEndMarker, text,
    DEFAULT_PACKET_SIZE]

theorem react_connect (fits : (connectBody (clientStart isPlayer u).naming).length ≤ DEFAULT_PACKET_SIZE) :
    reactTo (.ok {}) (connectMessage isPlayer u) = (.ok (serverConnected u), connectAnswers) := by
  have sent : sendConnect (clientStart isPlayer u).naming = some (connectBody (clientStart isPlayer u).naming) :=
    if_pos fits
  have read := connect_command _ _ sent
  obtain ⟨app, tcUrl⟩ := client_context isPlayer u
  rw [show (clientStart isPlayer u).naming = clientContext isPlayer (chars u.url) from rfl, app, tcUrl,
    char_bytes_chars, char_bytes_chars] at read
  refine react_command {} 0 _ _ read _ _ ?_
  have plain : ((0 : Nat) == 3) = false := rfl
  simp only [RtmpContext.carryOut, Option.map_none, Option.getD_none, bind, Except.bind, plain,
    amf_packet_written 0 _ (connect_result_short false)]
  rfl

theorem react_create_stream :
    reactTo (.ok (serverConnected u)) createStreamMessage =
      (.ok (serverConnected u), [amfMessage 0 (createStreamResultBody 4)]) := by
  refine react_command _ 0 _ _ create_stream_command _ _ ?_
  have value := number_value 4 (by decide)
  rw [RtmpContext.carryOut, show numberValue (writeNumber 4) = .ok 4 from value]
  rfl

theorem name_message_body : sendName (clientStart isPlayer u).naming = some (nameMessage isPlayer u).body := by
  obtain ⟨empty, player⟩ := client_name_empty isPlayer (chars u.url)
  have name : (clientStart isPlayer u).naming.name = [] := empty
  rw [sendName, show (clientStart isPlayer u).naming.isPlayer = isPlayer from player]
  refine if_pos ?_
  cases isPlayer with
  | true =>
      rw [if_pos rfl, playBody, name]
      decide
  | false =>
      rw [if_neg Bool.false_ne_true, publishBody, name]
      decide

theorem named_naming :
    ({ ({ (serverConnected u).naming with name := chars [] } : RtmpNaming).parseNameAndTcUrl with isPlayer := isPlayer }
      : RtmpNaming) = (serverNamed isPlayer u).naming := by
  rw [unnamed_session u { (serverConnected u).naming with name := chars [] } rfl rfl]
  rfl

theorem react_name :
    reactTo (.ok (serverConnected u)) (nameMessage isPlayer u) = (.ok (serverNamed isPlayer u), startAnswers isPlayer) := by
  obtain ⟨empty, player⟩ := client_name_empty isPlayer (chars u.url)
  have read := name_command_empty _ empty _ (name_message_body isPlayer u)
  have naming := named_naming isPlayer u
  rw [player] at read
  cases isPlayer with
  | true =>
      rw [if_pos rfl] at read
      refine react_command _ 1 _ _ read _ _ ?_
      have written := amf_packet_written 1 (statusBody (text "status") (text "NetStream.Play.Start") (text "Start playing"))
        (by decide)
      simp only [RtmpContext.carryOut, RtmpNaming.handle, sendStatus, written, bind, Except.bind, naming]
      rfl
  | false =>
      rw [if_neg Bool.false_ne_true] at read
      refine react_command _ 1 _ _ read _ _ ?_
      have written := amf_packet_written 1
        (statusBody (text "status") (text "NetStream.Publish.Start") (text "Start publish")) (by decide)
      simp only [RtmpContext.carryOut, RtmpNaming.handle, sendStatus, written, bind, Except.bind, naming]
      rfl

theorem react_connect_result :
    reactTo (.ok (clientStart isPlayer u)) (amfMessage 0 (connectResultBody false)) =
      (.ok (clientStart isPlayer u), [createStreamMessage]) := by
  refine react_command _ 0 _ _ (connect_result_command false) _ _ ?_
  have value := number_value 1 (by decide)
  simp only [RtmpContext.carryOut, show numberValue (writeNumber 1) = .ok 1 from value, bind, Except.bind, if_true,
    amf_packet_written 0 createStreamBody (by decide)]
  rfl

theorem react_create_stream_result :
    reactTo (.ok (clientStart isPlayer u)) (amfMessage 0 (createStreamResultBody 4)) =
      (.ok (clientStart isPlayer u), [nameMessage isPlayer u]) := by
  refine react_command _ 0 _ _ (create_stream_result_command 4 (by decide)) _ _ ?_
  have value := number_value 4 (by decide)
  have other : ¬ 4 = 1 := by decide
  have body := name_message_body isPlayer u
  simp only [RtmpContext.carryOut, value, bind, Except.bind, if_true, if_neg other, body]
  rfl

theorem react_status (ctx : RtmpContext) (level code desc : Bytes)
    (short : level.length < 65536 ∧ code.length < 65536 ∧ desc.length < 65536) :
    reactTo (.ok ctx) (amfMessage 1 (statusBody level code desc)) = (.ok ctx, []) :=
  react_command ctx 1 _ _ (status_command level code desc short) _ _ rfl

theorem client_begins (fits : (connectBody (clientStart isPlayer u).naming).length ≤ DEFAULT_PACKET_SIZE) :
    (clientParty (clientStart isPlayer u)).start = .ok (clientStart isPlayer u) ∧
      (clientParty (clientStart isPlayer u)).opening =
        [sendSetChunkSize kRtmpBufferSize, connectMessage isPlayer u] := by
  have sent : (clientStart isPlayer u).sendConnect =
      .ok [sendSetChunkSize kRtmpBufferSize, connectMessage isPlayer u] := by
    rw [RtmpContext.sendConnect, sendConnect, amf_packet_written 0 _ fits]
    rfl
  rw [clientParty]
  dsimp only
  rw [sent]
  exact ⟨rfl, rfl⟩

theorem server_replies (fits : (connectBody (clientStart isPlayer u).naming).length ≤ DEFAULT_PACKET_SIZE) :
    serverParty.said ([] : List Packet) = [] ∧
      serverParty.said ((clientMessages isPlayer u).take 1) = [] ∧
      serverParty.said ((clientMessages isPlayer u).take 2) = connectAnswers ∧
      serverParty.said ((clientMessages isPlayer u).take 3) = connectAnswers ++ [amfMessage 0 (createStreamResultBody 4)] ∧
      serverParty.said (clientMessages isPlayer u) = serverMessages isPlayer ∧
      serverParty.stateAfter (clientMessages isPlayer u) = .ok (serverNamed isPlayer u) := by
  have chunk := react_chunk_size {} kRtmpBufferSize
  have connect := react_connect isPlayer u fits
  have createStream := react_create_stream u
  have name := react_name isPlayer u
  refine ⟨rfl, ?_, ?_, ?_, ?_, ?_⟩
  · simp only [Party.said, Party.replies, serverParty, clientMessages, List.take, chunk, List.append_nil]
  · simp only [Party.said, Party.replies, serverParty, clientMessages, List.take, chunk, connect, List.append_nil, List.nil_append]
  · simp only [Party.said, Party.replies, serverParty, clientMessages, List.take, chunk, connect, createStream, List.append_nil, List.nil_append]
  · simp only [Party.said, Party.replies, serverParty, clientMessages, chunk, connect, createStream, name, List.append_nil, List.nil_append]
    rfl
  · simp only [Party.stateAfter, serverParty, clientMessages, List.foldl_cons, List.foldl_nil, chunk, connect, createStream, name]

theorem client_replies (fits : (connectBody (clientStart isPlayer u).naming).length ≤ DEFAULT_PACKET_SIZE) :
    (clientParty (clientStart isPlayer u)).said [] = (clientMessages isPlayer u).take 2 ∧
      (clientParty (clientStart isPlayer u)).said connectAnswers = (clientMessages isPlayer u).take 3 ∧
      (clientParty (clientStart isPlayer u)).said (connectAnswers ++ [amfMessage 0 (createStreamResultBody 4)]) =
        clientMessages isPlayer u ∧
      (clientParty (clientStart isPlayer u)).said (serverMessages isPlayer) = clientMessages isPlayer u ∧
      (clientParty (clientStart isPlayer u)).stateAfter (serverMessages isPlayer) = .ok (clientStart isPlayer u) := by
  obtain ⟨start, opening⟩ := client_begins isPlayer u fits
  have reacts : (clientParty (clientStart isPlayer u)).react = reactTo := rfl
  have window := react_ack_window (clientStart isPlayer u) 2048000 (by decide) (by decide)
  have same : { clientStart isPlayer u with ackSize := 2048000 } = clientStart isPlayer u := rfl
  have bandwidth := react_bandwidth (clientStart isPlayer u) 2048000
  have chunk := react_chunk_size (clientStart isPlayer u) kRtmpBufferSize
  have begin := react_begin (clientStart isPlayer u)
  have connected := react_connect_result isPlayer u
  have created := react_create_stream_result isPlayer u
  have playing := react_status (clientStart isPlayer u) (text "status") (text "NetStream.Play.Start") (text "Start playing")
    (by decide)
  have publishing := react_status (clientStart isPlayer u) (text "status") (text "NetStream.Publish.Start")
    (text "Start publish") (by decide)
  rw [same] at window
  refine ⟨?_, ?_, ?_, ?_, ?_⟩
  · simp only [Party.said, Party.replies, opening, clientMessages, List.take, List.append_nil]
  · simp only [Party.said, Party.replies, opening, start, reacts, clientMessages, connectAnswers, List.take, window,
      bandwidth, chunk, connected, List.append_nil, List.nil_append, List.cons_append]
  · simp only [Party.said, Party.replies, opening, start, reacts, clientMessages, connectAnswers, window,
      bandwidth, chunk, connected, created, List.append_nil, List.nil_append, List.cons_append]
  · cases isPlayer with
    | true =>
        simp only [Party.said, Party.replies, opening, start, reacts, clientMessages, serverMessages, startAnswers,
          connectAnswers, window, bandwidth, chunk, connected, created, begin, playing, List.append_nil, List.nil_append,
          List.cons_append, if_true]
    | false =>
        simp only [Party.said, Party.replies, opening, start, reacts, clientMessages, serverMessages, startAnswers,
          connectAnswers, window, bandwidth, chunk, connected, created, publishing, List.append_nil, List.nil_append,
          List.cons_append, Bool.false_eq_true, if_false]
  · cases isPlayer with
    | true =>
        simp only [Party.stateAfter, start, reacts, serverMessages, startAnswers, connectAnswers, window, bandwidth, chunk,
          connected, created, begin, playing, List.nil_append, List.cons_append, if_true, List.foldl_cons, List.foldl_nil]
    | false =>
        simp only [Party.stateAfter, start, reacts, serverMessages, startAnswers, connectAnswers, window, bandwidth, chunk,
          connected, created, publishing, List.nil_append, List.cons_append, Bool.false_eq_true, if_false,
          List.foldl_cons, List.foldl_nil]

def lastHeard : Heard Packet Packet := { left := serverMessages isPlayer, right := clientMessages isPlayer u }

theorem last_quiet (fits : (connectBody (clientStart isPlayer u).naming).length ≤ DEFAULT_PACKET_SIZE) :
    Quiet (clientParty (clientStart isPlayer u)) serverParty (lastHeard isPlayer u) := by
  obtain ⟨_, _, _, _, answered, _⟩ := server_replies isPlayer u fits
  obtain ⟨_, _, _, asked, _⟩ := client_replies isPlayer u fits
  exact ⟨answered.symm, asked.symm⟩

theorem only_last_quiet (fits : (connectBody (clientStart isPlayer u).naming).length ≤ DEFAULT_PACKET_SIZE)
    (x : Heard Packet Packet) (below : Below x (lastHeard isPlayer u))
    (quiet : Quiet (clientParty (clientStart isPlayer u)) serverParty x) : x = lastHeard isPlayer u := by
  obtain ⟨none, chunk, connect, createStream, all, _⟩ := server_replies isPlayer u fits
  obtain ⟨opened, connected, created, _, _⟩ := client_replies isPlayer u fits
  have told := List.prefix_iff_eq_take.mp below.right
  have short : x.right.length ≤ 4 := below.right.length_le
  have right := quiet.right
  have left := quiet.left
  generalize x.right.length = count at told short
  rw [show (lastHeard isPlayer u).right = clientMessages isPlayer u from rfl] at told
  interval_cases count
  · rw [told, List.take_zero, none] at left
    rw [left, opened, told] at right
    cases right
  · rw [told, chunk] at left
    rw [left, opened, told] at right
    cases right
  · rw [told, connect] at left
    rw [left, connected, told] at right
    cases right
  · rw [told, createStream] at left
    rw [left, created, told] at right
    cases right
  · have whole : (clientMessages isPlayer u).take 4 = clientMessages isPlayer u := rfl
    rw [told, whole, all] at left
    exact Heard.ext left (told.trans whole)

theorem state_grows (party : Party (Except ContextFault RtmpContext) Packet Packet) (reacts : party.react = reactTo)
    {told longer : List Packet} (front : told <+: longer) (last : RtmpContext)
    (after : party.stateAfter longer = .ok last) : ∃ ctx, party.stateAfter told = .ok ctx ∧ ctx.Grows last := by
  obtain ⟨more, rfl⟩ := front
  induction more using List.reverseRecOn generalizing last with
  | nil =>
      rw [List.append_nil] at after
      exact ⟨last, after, grows_refl last⟩
  | append_singleton more message ih =>
      rw [← List.append_assoc, state_after_snoc, reacts] at after
      obtain ⟨between, reached, grows⟩ := react_grows last _ message after
      obtain ⟨ctx, here, before⟩ := ih between reached
      exact ⟨ctx, here, grows_trans before grows⟩

structure DialogueGoes (x : Heard Packet Packet) : Prop where
  asked : (clientParty (clientStart isPlayer u)).said x.left <+: clientMessages isPlayer u
  answered : serverParty.said x.right <+: serverMessages isPlayer
  server : ∃ ctx, serverParty.stateAfter x.right = .ok ctx ∧ ctx.forceClosed = false ∧
    ctx.calls <+: [namedCall isPlayer u]
  client : ∃ ctx, (clientParty (clientStart isPlayer u)).stateAfter x.left = .ok ctx ∧ ctx.forceClosed = false ∧
    ctx.calls = []

structure DialogueOver (x : Heard Packet Packet) : Prop where
  asked : (clientParty (clientStart isPlayer u)).said x.left = clientMessages isPlayer u
  answered : serverParty.said x.right = serverMessages isPlayer
  server : serverParty.stateAfter x.right = .ok (serverNamed isPlayer u)
  client : (clientParty (clientStart isPlayer u)).stateAfter x.left = .ok (clientStart isPlayer u)

theorem not_closed {ctx last : RtmpContext} (grows : ctx.Grows last) (opened : last.forceClosed = false) :
    ctx.forceClosed = false := by
  cases closed : ctx.forceClosed with
  | true => exact absurd (opened.symm.trans (grows.closed closed)) Bool.false_ne_true
  | false => rfl

theorem below_goes (fits : (connectBody (clientStart isPlayer u).naming).length ≤ DEFAULT_PACKET_SIZE)
    (x : Heard Packet Packet) (below : Below x (lastHeard isPlayer u)) : DialogueGoes isPlayer u x := by
  obtain ⟨_, _, _, _, answered, named⟩ := server_replies isPlayer u fits
  obtain ⟨_, _, _, asked, kept⟩ := client_replies isPlayer u fits
  obtain ⟨server, reached, grows⟩ := state_grows serverParty rfl below.right _ named
  obtain ⟨client, held, still⟩ := state_grows (clientParty (clientStart isPlayer u)) rfl below.left _ kept
  have asking := said_front (clientParty (clientStart isPlayer u)) below.left
  have answering := said_front serverParty below.right
  rw [show (lastHeard isPlayer u).left = serverMessages isPlayer from rfl, asked] at asking
  rw [show (lastHeard isPlayer u).right = clientMessages isPlayer u from rfl, answered] at answering
  exact ⟨asking, answering, ⟨server, reached, not_closed grows rfl, grows.calls⟩,
    ⟨client, held, not_closed still rfl, List.prefix_nil.mp still.calls⟩⟩

def dialogueLength : Nat := if isPlayer then 11 else 10

theorem last_size : (lastHeard isPlayer u).size = dialogueLength isPlayer := by
  cases isPlayer <;> rfl

theorem dialogue_settles (fits : (connectBody (clientStart isPlayer u).naming).length ≤ DEFAULT_PACKET_SIZE)
    (ways : List Delivery)
    (moving : ∀ pair ∈ met (deliver (clientParty (clientStart isPlayer u)) serverParty) {} ways,
      deliver (clientParty (clientStart isPlayer u)) serverParty pair.1 pair.2 ≠ pair.1) :
    DialogueGoes isPlayer u (run (deliver (clientParty (clientStart isPlayer u)) serverParty) {} ways) ∧
      ways.length ≤ dialogueLength isPlayer ∧
      (ways.length = dialogueLength isPlayer →
        DialogueOver isPlayer u (run (deliver (clientParty (clientStart isPlayer u)) serverParty) {} ways)) ∧
      (ways.length < dialogueLength isPlayer →
        ∃ way, deliver (clientParty (clientStart isPlayer u)) serverParty
          (run (deliver (clientParty (clientStart isPlayer u)) serverParty) {} ways) way ≠
            run (deliver (clientParty (clientStart isPlayer u)) serverParty) {} ways) := by
  obtain ⟨below, few, full, more⟩ := exchange_settles _ _ (last_quiet isPlayer u fits) (only_last_quiet isPlayer u fits) ways
    moving
  rw [last_size] at few full more
  refine ⟨below_goes isPlayer u fits _ below, few, fun all => ?_, more⟩
  obtain ⟨_, _, _, _, answered, named⟩ := server_replies isPlayer u fits
  obtain ⟨_, _, _, asked, kept⟩ := client_replies isPlayer u fits
  rw [full.mp all]
  exact ⟨asked, answered, named, kept⟩

end

theorem localhost_fits (isPlayer : Bool) :
    (connectBody (clientStart isPlayer localhostUrl).naming).length ≤ DEFAULT_PACKET_SIZE := by
  obtain ⟨app, tcUrl⟩ := client_context isPlayer localhostUrl
  rw [connect_body_length, show (clientStart isPlayer localhostUrl).naming = clientContext isPlayer (chars localhostUrl.url)
    from rfl, app, tcUrl]
  decide

theorem dialogue_settles_localhost :
    ∃ ways : List Delivery, ways.length = 11 ∧
      DialogueGoes true localhostUrl (run (deliver (clientParty (clientStart true localhostUrl)) serverParty) {} ways) ∧
      DialogueOver true localhostUrl (run (deliver (clientParty (clientStart true localhostUrl)) serverParty) {} ways) := by
  have settles := dialogue_settles true localhostUrl (localhost_fits true)
  have grow : ∀ count ≤ dialogueLength true, ∃ ways : List Delivery, ways.length = count ∧
      ∀ pair ∈ met (deliver (clientParty (clientStart true localhostUrl)) serverParty) {} ways,
        deliver (clientParty (clientStart true localhostUrl)) serverParty pair.1 pair.2 ≠ pair.1 := by
    intro count
    induction count with
    | zero => exact fun _ => ⟨[], rfl, List.forall_mem_nil _⟩
    | succ count ih =>
        intro more
        obtain ⟨ways, length, moving⟩ := ih (Nat.le_of_succ_le more)
        obtain ⟨_, _, _, further⟩ := settles ways moving
        obtain ⟨way, moves⟩ := further (by omega)
        refine ⟨ways ++ [way], by rw [List.length_append, length]; rfl, ?_⟩
        rw [met_append]
        exact List.forall_mem_append.mpr ⟨moving, List.forall_mem_singleton.mpr moves⟩
  obtain ⟨ways, length, moving⟩ := grow (dialogueLength true) (Nat.le_refl _)
  obtain ⟨goes, _, ended, _⟩ := settles ways moving
  exact ⟨ways, length, goes, ended length⟩

end Lssvc.Mmedia
