import Lssvc.Mmedia.AmfEncode
import Lssvc.Mmedia.SessionName

set_option autoImplicit false

namespace Lssvc.Mmedia

open Lssvc.Foundation Lssvc.Utils

-- port_ is kept as text, which getPort takes for the same number again.
structure LSSInetAddress where
  addr : Str
  port : Nat
deriving DecidableEq, Repr

def rtmpPort : Nat := 1935

-- The piece that is taken for the port still has its slash.
def parsePort (url : Str) (pos : Nat) : Nat :=
  if url[pos]? = some ':' then
    match findFirstOf ['/'] url (pos + 1) with
    | some pos1 => (atoi ((url.drop (pos + 1)).take (pos1 - pos)) % 65536).toNat
    | none => rtmpPort
  else rtmpPort

def parseUrl (url : Str) : Option LSSInetAddress :=
  if url.length > 7 then
    (findFirstOf [':', '/'] url 7).map fun pos => ⟨(url.drop 7).take (pos - 7), parsePort url pos⟩
  else none

def RtmpNaming.play (ctx : RtmpNaming) (url : Str) : RtmpNaming :=
  { ctx with isPlayer := true, tcUrl := url }.parseNameAndTcUrl

def RtmpNaming.publish (ctx : RtmpNaming) (url : Str) : RtmpNaming :=
  { ctx with isPlayer := false, tcUrl := url }.parseNameAndTcUrl

-- RtmpClient::onConnection, with a context of its own.
def clientContext (isPlayer : Bool) (url : Str) : RtmpNaming :=
  if isPlayer then ({} : RtmpNaming).play url else ({} : RtmpNaming).publish url

def DEFAULT_PACKET_SIZE : Nat := 1024

-- The senders write behind a packet that is too small for the command.
def packetBody (body : Bytes) : Option Bytes := if body.length ≤ DEFAULT_PACKET_SIZE then some body else none

def connectBody (ctx : RtmpNaming) : Bytes :=
  encodeString (text "connect") ++ encodeNumber 1 ++ [AMFDataType.kAMFObject.toByte] ++
    encodeNamedString (text "app") (charBytes ctx.app) ++ encodeNamedString (text "tcUrl") (charBytes ctx.tcUrl) ++
    encodeNamedBoolean (text "fpad") false ++ encodeNamedNumber (text "capabilities") 31 ++
    encodeNamedNumber (text "audioCodecs") 1639 ++ encodeNamedNumber (text "videoCodecs") 252 ++
    encodeNamedNumber (text "videoFunction") 1 ++ objectEndMarker

def playBody (ctx : RtmpNaming) : Bytes :=
  encodeString (text "play") ++ encodeNumber 0 ++ [AMFDataType.kAMFNull.toByte] ++ encodeString (charBytes ctx.name) ++
    encodeNumber (-1000)

def publishBody (ctx : RtmpNaming) : Bytes :=
  encodeString (text "publish") ++ encodeNumber 5 ++ [AMFDataType.kAMFNull.toByte] ++ encodeString (charBytes ctx.name) ++
    encodeString (text "live")

def sendConnect (ctx : RtmpNaming) : Option Bytes := packetBody (connectBody ctx)

-- What handleResult sends for the createStream of the client.
def sendName (ctx : RtmpNaming) : Option Bytes := packetBody (if ctx.isPlayer then playBody ctx else publishBody ctx)

structure ClientUrl where
  host : Bytes
  port : Option Bytes
  app : Bytes
  stream : Bytes
  hostValid : host ≠ [] ∧ slash ∉ host ∧ colon ∉ host ∧ question ∉ host
  portValid : ∀ p ∈ port, p ≠ [] ∧ (∀ d ∈ p, 48 ≤ d.toNat ∧ d.toNat ≤ 57) ∧
    1 ≤ digitsValue (chars p) ∧ digitsValue (chars p) ≤ 65535
  appValid : app ≠ [] ∧ slash ∉ app ∧ colon ∉ app ∧ question ∉ app
  streamValid : stream ≠ [] ∧ slash ∉ stream ∧ colon ∉ stream ∧ question ∉ stream

def ClientUrl.url (u : ClientUrl) : Bytes :=
  text "rtmp://" ++ u.host ++ preceded colon u.port ++ slash :: u.app ++ slash :: u.stream

def ClientUrl.portNumber (u : ClientUrl) : Nat := (u.port.map fun p => digitsValue (chars p)).getD rtmpPort

def serverNaming (server : RtmpNaming) (connect name : Bytes) : Except CommandFault RtmpNaming := do
  let first ← handleAmfCommand false connect
  let second ← handleAmfCommand false name
  .ok ((server.handle first).handle second)

structure UrlAgreement (server : RtmpNaming) (isPlayer : Bool) (u : ClientUrl) (connect name : Bytes) (after : RtmpNaming) :
    Prop where
  address : parseUrl (chars u.url) = some ⟨chars u.host, u.portNumber⟩
  connectSent : sendConnect (clientContext isPlayer (chars u.url)) = some connect
  nameSent : sendName (clientContext isPlayer (chars u.url)) = some name
  handled : serverNaming server connect name = .ok after
  named : after.sessionName = chars (u.host ++ slash :: u.app ++ slash :: u.stream)

def UrlAgrees (server : RtmpNaming) (isPlayer : Bool) (u : ClientUrl) : Prop :=
  ∃ connect name after, UrlAgreement server isPlayer u connect name after

end Lssvc.Mmedia
