import Lssvc.Mmedia.AmfRoundTrip
import Lssvc.Mmedia.RtmpClient

set_option autoImplicit false

namespace Lssvc.Mmedia

open Lssvc.Foundation Lssvc.Utils

theorem chars_url (u : ClientUrl) :
    chars u.url = chars (text "rtmp://") ++ (chars u.host ++ (chars (preceded colon u.port) ++
      '/' :: (chars u.app ++ '/' :: chars u.stream))) := by
  simp only [ClientUrl.url, chars_append, List.append_assoc]
  rfl

theorem host_free (u : ClientUrl) : ∀ c ∈ chars u.host, c ∉ [':', '/'] := by
  obtain ⟨_, noSlash, noColon, _⟩ := u.hostValid
  intro c inside listed
  rcases List.mem_cons.mp listed with rfl | last
  · exact char_not_mem colon _ noColon inside
  · cases List.mem_singleton.mp last
    exact char_not_mem slash _ noSlash inside

theorem port_digits (u : ClientUrl) (p : Bytes) (given : u.port = some p) :
    chars p ≠ [] ∧ (∀ d ∈ chars p, d.isDigit = true) ∧ '/' ∉ chars p := by
  obtain ⟨some', digits, _⟩ := u.portValid p given
  refine ⟨chars_some p some', ?_, ?_⟩
  · intro d inside
    obtain ⟨b, there, rfl⟩ := List.mem_map.mp inside
    have range := digits b there
    have value := char_byte b
    rw [Char.isDigit, Bool.and_eq_true, decide_eq_true_eq, decide_eq_true_eq]
    constructor
    · exact UInt32.le_iff_toNat_le.mpr (by change 48 ≤ (Char.ofNat b.toNat).toNat; omega)
    · exact UInt32.le_iff_toNat_le.mpr (by change (Char.ofNat b.toNat).toNat ≤ 57; omega)
  · refine char_not_mem slash p fun inside => ?_
    have range := digits slash inside
    exact absurd range (by decide)

theorem parse_port_none (front rest : Str) : parsePort (front ++ '/' :: rest) front.length = rtmpPort := by
  have char : (front ++ '/' :: rest)[front.length]? = some '/' := by
    rw [List.getElem?_append_right (Nat.le_refl _), Nat.sub_self]
    rfl
  rw [parsePort, char, if_neg (by decide)]

theorem parse_port_some (front digits rest : Str) (some' : digits ≠ []) (all : ∀ d ∈ digits, d.isDigit = true)
    (free : '/' ∉ digits) (small : digitsValue digits ≤ 65535) :
    parsePort (front ++ ':' :: (digits ++ '/' :: rest)) front.length = digitsValue digits := by
  have char : (front ++ ':' :: (digits ++ '/' :: rest))[front.length]? = some ':' := by
    rw [List.getElem?_append_right (Nat.le_refl _), Nat.sub_self]
    rfl
  have behind : front ++ ':' :: (digits ++ '/' :: rest) = (front ++ [':']) ++ (digits ++ '/' :: rest) := by
    rw [List.append_assoc]
    rfl
  have before : (front ++ [':']).length = front.length + 1 := List.length_append
  have found : findFirstOf ['/'] (front ++ ':' :: (digits ++ '/' :: rest)) (front.length + 1) =
      some (digits.length + (front.length + 1)) := by
    rw [behind, ← before]
    exact find_first_of_here ['/'] (front ++ [':']) digits rest '/' (List.mem_singleton_self _) fun c inside listed =>
      free (List.mem_singleton.mp listed ▸ inside)
  have piece : ((front ++ ':' :: (digits ++ '/' :: rest)).drop (front.length + 1)).take
      (digits.length + (front.length + 1) - front.length) = digits ++ ['/'] := by
    rw [behind, ← before, List.drop_left, before, show digits.length + (front.length + 1) - front.length =
      (digits ++ ['/']).length by rw [List.length_append, List.length_singleton]; omega]
    rw [show digits ++ '/' :: rest = digits ++ ['/'] ++ rest by rw [List.append_assoc]; rfl, List.take_left]
  rw [parsePort, if_pos char, found]
  dsimp only
  rw [piece, atoi_digits digits [] '/' some' all (by decide)]
  omega

theorem parse_url_right (u : ClientUrl) : parseUrl (chars u.url) = some ⟨chars u.host, u.portNumber⟩ := by
  have scheme : (chars (text "rtmp://")).length = 7 := rfl
  have front : (chars (text "rtmp://") ++ chars u.host).length = (chars u.host).length + 7 := by
    rw [List.length_append, scheme, Nat.add_comm]
  obtain ⟨c, rest, whole, inside, port⟩ : ∃ c rest,
      chars u.url = chars (text "rtmp://") ++ (chars u.host ++ c :: rest) ∧ c ∈ [':', '/'] ∧
        parsePort (chars u.url) ((chars u.host).length + 7) = u.portNumber := by
    rw [chars_url, ← front, ← List.append_assoc, ClientUrl.portNumber]
    cases given : u.port with
    | none =>
        refine ⟨'/', chars u.app ++ '/' :: chars u.stream, ?_, by decide, parse_port_none _ _⟩
        rw [List.append_assoc]
        rfl
    | some p =>
        obtain ⟨some', digits, free⟩ := port_digits u p given
        obtain ⟨_, _, _, small⟩ := u.portValid p given
        refine ⟨':', chars p ++ '/' :: (chars u.app ++ '/' :: chars u.stream), ?_, by decide,
          parse_port_some _ (chars p) _ some' digits free small⟩
        rw [List.append_assoc]
        rfl
  have long : (chars u.url).length > 7 := by
    rw [whole]
    simp only [List.length_append, List.length_cons, scheme]
    omega
  have found : findFirstOf [':', '/'] (chars u.url) 7 = some ((chars u.host).length + 7) := by
    rw [whole]
    exact find_first_of_here [':', '/'] (chars (text "rtmp://")) (chars u.host) rest c inside (host_free u)
  have domain : ((chars u.url).drop 7).take ((chars u.host).length + 7 - 7) = chars u.host := by
    rw [whole, List.drop_left' scheme, Nat.add_sub_cancel, List.take_left]
  rw [parseUrl, if_pos long, found, Option.map_some, domain, port]

theorem encoded_command (method : Bytes) (values : List AmfValue) (handler : AMFObject → Except CommandFault Command)
    (fits : ∀ value ∈ .string method :: values, value.Fits) (large : ∀ value ∈ (AmfValue.string method :: values).getLast?, ¬ value.Tiny)
    (known : commands method = some handler) :
    handleAmfCommand false (encodeAll (.string method :: values)) =
      handler ((AmfValue.string method :: values).map (AmfValue.decoded [])) := by
  obtain ⟨calls, done⟩ := yields_decode (all_yield (.string method :: values) fits large)
  have payload : commandBody false (encodeAll (.string method :: values)) = encodeAll (.string method :: values) := rfl
  have name : deref (property 0 ((AmfValue.string method :: values).map (AmfValue.decoded []))) =
      .ok (.string [] method) := rfl
  have named : (AMFAny.string [] method).str = method := rfl
  simp only [handleAmfCommand, payload, done, Option.isNone_some, Bool.false_eq_true, if_false, name, bind, Except.bind,
    named, known]

theorem client_name_empty (isPlayer : Bool) (url : Str) :
    (clientContext isPlayer url).name = [] ∧ (clientContext isPlayer url).isPlayer = isPlayer := by
  cases isPlayer <;> exact ⟨rfl, rfl⟩

theorem name_command_empty (ctx : RtmpNaming) (empty : ctx.name = []) (name : Bytes) (sent : sendName ctx = some name) :
    handleAmfCommand false name =
      .ok (if ctx.isPlayer then .play (writeNumber 0) [] else .publish (writeNumber 5) []) := by
  rw [sendName] at sent
  cases player : ctx.isPlayer with
  | true =>
      have body : playBody ctx = encodeAll [.string (text "play"), .number 0, .null, .string [], .number (-1000)] := by
        rw [playBody, empty]
        rfl
      rw [player, if_pos rfl, body] at sent
      cases (Option.ite_none_right_eq_some.mp sent).2
      rw [encoded_command (text "play") _ handlePlay ?_ ?_ rfl]
      · rfl
      · simp [AmfValue.Fits, text]
      · simp [AmfValue.Tiny, AmfValue.type]
  | false =>
      have body : publishBody ctx =
          encodeAll [.string (text "publish"), .number 5, .null, .string [], .string (text "live")] := by
        rw [publishBody, empty]
        rfl
      rw [player, if_neg Bool.false_ne_true, body] at sent
      cases (Option.ite_none_right_eq_some.mp sent).2
      rw [encoded_command (text "publish") _ handlePublish ?_ ?_ rfl]
      · rfl
      · simp [AmfValue.Fits, text]
      · simp [AmfValue.Tiny, AmfValue.type]

def ClientUrl.address (u : ClientUrl) : StreamUrl where
  host := u.host
  port := u.port
  app := u.app
  segment := some u.stream
  stream := u.stream
  query := none
  hostValid := ⟨u.hostValid.1, u.hostValid.2.1, u.hostValid.2.2.1⟩
  portValid := fun p given inside => absurd ((u.portValid p given).2.1 slash inside) (by decide)
  appValid := ⟨u.appValid.1, u.appValid.2.1⟩
  segmentValid := fun part same => by
    cases same
    exact ⟨u.streamValid.1, u.streamValid.2.1⟩
  streamValid := ⟨u.streamValid.1, u.streamValid.2.1, u.streamValid.2.2.2⟩

theorem unnamed_session (u : ClientUrl) (ctx : RtmpNaming) (tcUrl : ctx.tcUrl = chars u.url) (empty : ctx.name = []) :
    ctx.parseNameAndTcUrl =
      { ctx with app := chars u.app, param := [], sessionName := chars (u.host ++ slash :: u.app ++ [slash]) } := by
  have pieces := url_pieces u.address (cutApp ctx.app)
  have domain := cut_port u.address
  have cut : cutName [] = ([], []) := rfl
  rw [RtmpNaming.parseNameAndTcUrl, empty, cut, tcUrl, show u.url = u.address.tcUrl from rfl, pieces]
  dsimp only
  rw [domain]
  congr 1
  simp [chars, slash, ClientUrl.address]

theorem client_context (isPlayer : Bool) (u : ClientUrl) :
    (clientContext isPlayer (chars u.url)).app = chars u.app ∧ (clientContext isPlayer (chars u.url)).tcUrl = chars u.url := by
  cases isPlayer with
  | true =>
      have named := unnamed_session u { ({} : RtmpNaming) with isPlayer := true, tcUrl := chars u.url } rfl rfl
      rw [clientContext, if_pos rfl, RtmpNaming.play, named]
      exact ⟨rfl, rfl⟩
  | false =>
      have named := unnamed_session u { ({} : RtmpNaming) with isPlayer := false, tcUrl := chars u.url } rfl rfl
      rw [clientContext, if_neg Bool.false_ne_true, RtmpNaming.publish, named]
      exact ⟨rfl, rfl⟩

theorem connect_body_length (ctx : RtmpNaming) :
    (connectBody ctx).length = 140 + (charBytes ctx.app).length + (charBytes ctx.tcUrl).length := by
  simp [connectBody, encodeNamedString, encodeNamedNumber, encodeNamedBoolean, encodeString, encodeNumber, encodeBoolean,
    objectEndMarker, text]
  omega

theorem connect_command (ctx : RtmpNaming) (connect : Bytes) (sent : sendConnect ctx = some connect) :
    handleAmfCommand false connect = .ok (.connect (charBytes ctx.tcUrl) (some (charBytes ctx.app)) none) := by
  obtain ⟨small, same⟩ := Option.ite_none_right_eq_some.mp sent
  have body : connectBody ctx = encodeAll [.string (text "connect"), .number 1,
      .object (.cons (text "app") (.string (charBytes ctx.app)) (.cons (text "tcUrl") (.string (charBytes ctx.tcUrl))
        (.cons (text "fpad") (.boolean false) (.cons (text "capabilities") (.number 31)
          (.cons (text "audioCodecs") (.number 1639) (.cons (text "videoCodecs") (.number 252)
            (.cons (text "videoFunction") (.number 1) .nil)))))))] := by
    simp [connectBody, encodeAll, AmfValue.encode, AmfValue.body, AmfMembers.encode, AmfValue.type, encodeNamedString,
      encodeNamedNumber, encodeNamedBoolean, encodeString, encodeNumber, encodeBoolean, encodeName]
  have lengths : (charBytes ctx.app).length < 65536 ∧ (charBytes ctx.tcUrl).length < 65536 := by
    rw [connect_body_length, DEFAULT_PACKET_SIZE] at small
    omega
  cases same
  rw [body, encoded_command (text "connect") _ handleConnect ?_ ?_ rfl]
  · rfl
  · simp [AmfValue.Fits, AmfMembers.Fits, AmfValue.type, text, lengths]
  · simp [AmfValue.Tiny, AmfValue.type]

theorem server_session_unnamed (server : RtmpNaming) (isPlayer : Bool) (u : ClientUrl) (connect name : Bytes)
    (connectSent : sendConnect (clientContext isPlayer (chars u.url)) = some connect)
    (nameSent : sendName (clientContext isPlayer (chars u.url)) = some name) :
    ∃ after, serverNaming server connect name = .ok after ∧
      after.sessionName = chars (u.host ++ slash :: u.app ++ [slash]) := by
  obtain ⟨empty, _⟩ := client_name_empty isPlayer (chars u.url)
  obtain ⟨app, tcUrl⟩ := client_context isPlayer u
  have first := connect_command _ connect connectSent
  have second := name_command_empty _ empty name nameSent
  rw [app, tcUrl, char_bytes_chars, char_bytes_chars] at first
  rw [serverNaming, first, second]
  refine ⟨_, rfl, ?_⟩
  have named := unnamed_session u { server with app := chars u.app, tcUrl := chars u.url, name := [] } rfl rfl
  split
  · exact congrArg RtmpNaming.sessionName named
  · exact congrArg RtmpNaming.sessionName named

theorem sessions_differ (u : ClientUrl) :
    chars (u.host ++ slash :: u.app ++ [slash]) ≠ chars (u.host ++ slash :: u.app ++ slash :: u.stream) := by
  intro same
  have bytes := List.append_cancel_left (chars_injective _ _ same)
  injection bytes with _ stream
  exact u.streamValid.1 stream.symm

theorem client_never_agrees (server : RtmpNaming) (isPlayer : Bool) (u : ClientUrl) : ¬ UrlAgrees server isPlayer u := by
  rintro ⟨connect, name, after, agreement⟩
  obtain ⟨after', handled, unnamed⟩ :=
    server_session_unnamed server isPlayer u connect name agreement.connectSent agreement.nameSent
  cases handled.symm.trans agreement.handled
  exact sessions_differ u (unnamed.symm.trans agreement.named)

def localhostUrl : ClientUrl where
  host := text "localhost"
  port := none
  app := text "ucloud"
  stream := text "test"
  hostValid := by decide
  portValid := fun _ impossible => by cases impossible
  appValid := by decide
  streamValid := by decide

-- Both commands are sent whole, and the server misses the stream in them.
theorem localhost_unnamed :
    (∃ connect name after, sendConnect (clientContext true (chars localhostUrl.url)) = some connect ∧
      sendName (clientContext true (chars localhostUrl.url)) = some name ∧
      serverNaming {} connect name = .ok after ∧ after.sessionName = chars (text "localhost/ucloud/")) ∧
    ¬ UrlAgrees {} true localhostUrl := by
  obtain ⟨app, tcUrl⟩ := client_context true localhostUrl
  obtain ⟨empty, player⟩ := client_name_empty true (chars localhostUrl.url)
  have connectSent : sendConnect (clientContext true (chars localhostUrl.url)) =
      some (connectBody (clientContext true (chars localhostUrl.url))) := by
    refine if_pos ?_
    rw [connect_body_length, app, tcUrl]
    decide
  have nameSent : sendName (clientContext true (chars localhostUrl.url)) =
      some (playBody (clientContext true (chars localhostUrl.url))) := by
    rw [sendName, player, if_pos rfl]
    refine if_pos ?_
    rw [playBody, empty]
    decide
  obtain ⟨after, handled, unnamed⟩ := server_session_unnamed {} true localhostUrl _ _ connectSent nameSent
  refine ⟨⟨_, _, after, connectSent, nameSent, handled, unnamed⟩, ?_⟩
  rintro ⟨connect, name, after', agreement⟩
  cases connectSent.symm.trans agreement.connectSent
  cases nameSent.symm.trans agreement.nameSent
  cases handled.symm.trans agreement.handled
  exact sessions_differ localhostUrl (unnamed.symm.trans agreement.named)

end Lssvc.Mmedia
