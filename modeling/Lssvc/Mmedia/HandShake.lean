import Lssvc.Mmedia.HandShakeDigest

set_option autoImplicit false

namespace Lssvc.Mmedia

inductive RtmpHandShakeState where
  | kHandShakeInit
  | kHandShakePostC0C1
  | kHandShakeWaitS0S1
  | kHandShakePostC2
  | kHandShakeWaitS2
  | kHandShakeDoning
  | kHandShakeWaitC0C1
  | kHandShakePostS0S1
  | kHandShakePostS2
  | kHandShakeWaitC2
  | kHandShakeDone
deriving DecidableEq, Repr

-- What one end draws and reads from outside: its random bytes and the time.
structure Draws where
  c1s1 : Nat → UInt8
  c2s2 : Nat → UInt8
  now : Nat

structure RtmpHandShake where
  isClient : Bool
  isComplexHandshake : Bool := true
  c1s1 : Bytes := []
  c2s2 : Bytes := []
  state : RtmpHandShakeState := .kHandShakeInit
deriving DecidableEq, Repr

-- A call ends with at most one send to the connection.
structure HandShakeResult where
  handshake : RtmpHandShake
  buf : Bytes
  sent : Option Bytes := none
  ret : Int

def checkC2S2 (_data : Bytes) : Bool := true

section

variable (hmac : Hmac) (draws : Draws)

def RtmpHandShake.start (handshake : RtmpHandShake) : RtmpHandShake × Option Bytes :=
  let handshake := { handshake with
    c1s1 := createC1S1 hmac handshake.isClient handshake.isComplexHandshake draws.c1s1 }
  if handshake.isClient then ({ handshake with state := .kHandShakePostC0C1 }, some handshake.c1s1)
  else ({ handshake with state := .kHandShakeWaitC0C1 }, none)

-- checkC1S1 on the front of the buffer and, where it accepts, createC2S2.
def RtmpHandShake.answer (handshake : RtmpHandShake) (buf : Bytes) : Option RtmpHandShake :=
  let data := buf.take (kRtmpHandShakePacketSize + 1)
  let (isComplexHandshake, offset) := checkC1S1 hmac handshake.isClient handshake.isComplexHandshake data
  if offset ≥ 0 then
    some { handshake with
      isComplexHandshake := isComplexHandshake
      c2s2 := createC2S2 hmac handshake.isClient isComplexHandshake draws.c2s2 draws.now (data.drop 1) offset.toNat }
  else none

def RtmpHandShake.handShake (handshake : RtmpHandShake) (buf : Bytes) : HandShakeResult :=
  match handshake.state with
  | .kHandShakeWaitC0C1 =>
      if buf.length < kRtmpHandShakePacketSize + 1 then { handshake := handshake, buf := buf, ret := 1 }
      else
        match handshake.answer hmac draws buf with
        | some handshake =>
            { handshake := { handshake with state := .kHandShakePostS0S1 }
              buf := buf.drop (kRtmpHandShakePacketSize + 1)
              sent := some handshake.c1s1
              ret := 1 }
        | none => { handshake := handshake, buf := buf, ret := -1 }
  | .kHandShakeWaitC2 =>
      if buf.length < kRtmpHandShakePacketSize then { handshake := handshake, buf := buf, ret := 1 }
      else if checkC2S2 (buf.take kRtmpHandShakePacketSize) then
        { handshake := { handshake with state := .kHandShakeDone }
          buf := buf.drop kRtmpHandShakePacketSize
          ret := 0 }
      else { handshake := handshake, buf := buf, ret := -1 }
  | .kHandShakeWaitS0S1 =>
      if buf.length < kRtmpHandShakePacketSize + 1 then { handshake := handshake, buf := buf, ret := 1 }
      else
        match handshake.answer hmac draws buf with
        | some handshake =>
            let buf := buf.drop (kRtmpHandShakePacketSize + 1)
            if buf.length = kRtmpHandShakePacketSize then
              { handshake := { handshake with state := .kHandShakeDoning }
                buf := buf.drop kRtmpHandShakePacketSize
                sent := some handshake.c2s2
                ret := 0 }
            else
              { handshake := { handshake with state := .kHandShakePostC2 }
                buf := buf
                sent := some handshake.c2s2
                ret := 1 }
        | none => { handshake := handshake, buf := buf, ret := -1 }
  | _ => { handshake := handshake, buf := buf, ret := 1 }

end

def RtmpHandShake.writeComplete (handshake : RtmpHandShake) : RtmpHandShake × Option Bytes :=
  match handshake.state with
  | .kHandShakePostS0S1 => ({ handshake with state := .kHandShakePostS2 }, some handshake.c2s2)
  | .kHandShakePostS2 => ({ handshake with state := .kHandShakeWaitC2 }, none)
  | .kHandShakePostC0C1 => ({ handshake with state := .kHandShakeWaitS0S1 }, none)
  | .kHandShakePostC2 => ({ handshake with state := .kHandShakeDone }, none)
  | .kHandShakeDoning => ({ handshake with state := .kHandShakeDone }, none)
  | _ => (handshake, none)

inductive RtmpContextState where
  | kRtmpHandShake
  | kRtmpWaitingDone
  | kRtmpMessage
deriving DecidableEq, Repr

-- Bytes handed to the connection and the write completions they will bring.
structure Sent where
  bytes : Bytes := []
  completions : Nat := 0

-- A context past its handshake. What it does there is left open.
structure MessagePhase (M : Type) where
  idle : M
  sendConnect : M → M × Sent
  parseMessage : M → Bytes → M × Bytes × Sent × Bool
  checkAndSend : M → M × Sent

-- A context with its connection: what has arrived and not been taken, and the
-- completions still to come. `closed` is set when parse returns -1.
structure Peer (M : Type) where
  handshake : RtmpHandShake
  state : RtmpContextState := .kRtmpHandShake
  message : M
  buffer : Bytes := []
  outstanding : Nat := 0
  closed : Bool := false

section

variable {M : Type} (phase : MessagePhase M) (hmac : Hmac) (draws : Draws)

def Peer.send (peer : Peer M) (sent : Option Bytes) : Peer M × Bytes :=
  match sent with
  | none => (peer, [])
  | some bytes => ({ peer with outstanding := peer.outstanding + 1 }, bytes)

def Peer.startHandShake (peer : Peer M) : Peer M × Bytes :=
  let (handshake, sent) := peer.handshake.start hmac draws
  { peer with handshake := handshake }.send sent

def Peer.parseMessage (peer : Peer M) : Peer M × Bytes :=
  let (message, buffer, sent, ok) := phase.parseMessage peer.message peer.buffer
  ({ peer with
    message := message
    buffer := buffer
    outstanding := peer.outstanding + sent.completions
    closed := !ok }, sent.bytes)

-- parse once the handshake has returned 0.
def Peer.enterMessage (peer : Peer M) : Peer M × Bytes :=
  let peer := { peer with state := .kRtmpMessage }
  let (peer, connect) :=
    if peer.handshake.isClient then
      let (message, sent) := phase.sendConnect peer.message
      ({ peer with message := message, outstanding := peer.outstanding + sent.completions }, sent.bytes)
    else (peer, [])
  if peer.buffer ≠ [] then
    let (peer, reply) := peer.parseMessage phase
    (peer, connect ++ reply)
  else (peer, connect)

-- The send that ends handShake. When the socket takes all of it at once, the
-- completion runs inside the call, before its result is looked at.
def Peer.sendAtOnce (peer : Peer M) (sent : Option Bytes) (atOnce : Bool) : Peer M × Bytes :=
  match sent with
  | none => (peer, [])
  | some bytes =>
      if atOnce then
        let (handshake, more) := peer.handshake.writeComplete
        let (peer, bytes') := { peer with handshake := handshake }.send more
        (peer, bytes ++ bytes')
      else peer.send (some bytes)

def Peer.resume (peer : Peer M) (sent : Bytes) (ret : Int) : Peer M × Bytes :=
  if ret = 0 then
    let (peer, more) := peer.enterMessage phase
    (peer, sent ++ more)
  else if ret = -1 then ({ peer with closed := true }, sent)
  else if ret = 2 then ({ peer with state := .kRtmpWaitingDone }, sent)
  else (peer, sent)

def Peer.parse (peer : Peer M) (atOnce : Bool) : Peer M × Bytes :=
  match peer.state with
  | .kRtmpHandShake =>
      let result := peer.handshake.handShake hmac draws peer.buffer
      let (peer, sent) :=
        { peer with handshake := result.handshake, buffer := result.buf }.sendAtOnce result.sent atOnce
      peer.resume phase sent result.ret
  | .kRtmpWaitingDone => (peer, [])
  | .kRtmpMessage => peer.parseMessage phase

def Peer.onWriteComplete (peer : Peer M) : Peer M × Bytes :=
  match peer.state with
  | .kRtmpHandShake =>
      let (handshake, sent) := peer.handshake.writeComplete
      { peer with handshake := handshake }.send sent
  | .kRtmpWaitingDone =>
      let peer := { peer with state := .kRtmpMessage }
      if peer.handshake.isClient then
        let (message, sent) := phase.sendConnect peer.message
        ({ peer with message := message, outstanding := peer.outstanding + sent.completions }, sent.bytes)
      else (peer, [])
  | .kRtmpMessage =>
      let (message, sent) := phase.checkAndSend peer.message
      ({ peer with message := message, outstanding := peer.outstanding + sent.completions }, sent.bytes)

end

end Lssvc.Mmedia
