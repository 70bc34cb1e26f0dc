import Lssvc.Live.LiveStream
import Lssvc.Mmedia.Sender

set_option autoImplicit false

namespace Lssvc.Live

open Lssvc.Foundation Lssvc.Mmedia

-- A player's connection: active_, kRtmpContext and kUserContext.
structure PlayerConn where
  active : Bool := false
  context : RtmpSender := .fresh
  user : Option PlayerUser := none

def pushFrame (user : PlayerUser) (ctx : RtmpSender) (pkt : Packet) (isHeader : Bool) : PlayerUser × RtmpSender × Bool :=
  if ctx.ready then
    let (corrector, ts) := if isHeader then (user.timeCorrector, 0) else user.timeCorrector.correctTimestamp pkt
    ({ user with timeCorrector := corrector },
      { ctx with out := (buildChunk ctx.out pkt (UInt32.ofNat ts) isHeader).1 }.send, true)
  else (user, ctx, false)

def pushFramesFrom (corrector : TimeCorrector) (out : RtmpOut) : List Packet → TimeCorrector × RtmpOut
  | [] => (corrector, out)
  | pkt :: list =>
      let (corrector, ts) := corrector.correctTimestamp pkt
      pushFramesFrom corrector (buildChunk out pkt (UInt32.ofNat ts) false).1 list

def pushFrames (user : PlayerUser) (ctx : RtmpSender) (list : List Packet) : PlayerUser × RtmpSender × Bool :=
  if ctx.ready then
    let (corrector, out) := pushFramesFrom user.timeCorrector ctx.out list
    ({ user with timeCorrector := corrector }, { ctx with out := out }.send, true)
  else (user, ctx, false)

def postPushed (conn : PlayerConn) (pushed : PlayerUser × RtmpSender × Bool) (sent : PlayerUser → PlayerUser) :
    PlayerConn :=
  { conn with context := pushed.2.1, user := some (if pushed.2.2 then sent pushed.1 else pushed.1) }

def postPending (user : PlayerUser) (conn : PlayerConn) : PlayerConn :=
  match user.metaPacket, user.audioHeader, user.videoHeader with
  | some pkt, _, _ =>
      postPushed conn (pushFrame user conn.context pkt true) fun user => { user with metaPacket := none }
  | none, some pkt, _ =>
      postPushed conn (pushFrame user conn.context pkt true) fun user => { user with audioHeader := none }
  | none, none, some pkt =>
      postPushed conn (pushFrame user conn.context pkt true) fun user => { user with videoHeader := none }
  | none, none, none =>
      if user.outFrames ≠ [] then
        postPushed conn (pushFrames user conn.context user.outFrames) fun user => { user with outFrames := [] }
      else { conn with active := false, user := some user }

def postFrames (stream : LiveStream) (user : PlayerUser) (conn : PlayerConn) : PlayerConn :=
  if ¬ stream.ready || ¬ stream.hasMedia then conn else postPending (stream.getFrames user) conn

-- LiveService::onActive. Only players are attached to these connections.
def onActive (stream : LiveStream) (conn : PlayerConn) : PlayerConn :=
  match conn.user with
  | none => conn
  | some user => postFrames stream user conn

def PlayerConn.activate (stream : LiveStream) (conn : PlayerConn) : PlayerConn :=
  if conn.active then conn else onActive stream { conn with active := true }

def PlayerConn.writeComplete (stream : LiveStream) (conn : PlayerConn) : PlayerConn :=
  match { conn.context with ioVecList := [] }.checkAndSend with
  | (ctx, false) => { conn with context := ctx }
  | (ctx, true) => onActive stream { conn with context := ctx }

-- A stream, the connections of the session's players and every connection of
-- the loop. unordered_set promises no order: here it is that of joining.
structure Broadcast where
  stream : LiveStream := {}
  players : List Nat := []
  conns : Nat → PlayerConn := fun _ => {}

def Broadcast.activate (b : Broadcast) (conn : Nat) : Broadcast :=
  { b with conns := Function.update b.conns conn ((b.conns conn).activate b.stream) }

def Broadcast.activeAllPlayers (b : Broadcast) : Broadcast := b.players.foldl Broadcast.activate b

inductive BroadcastEvent where
  | onPlay (conn : Nat) (contentLatency : Int)
  | addPacket (packet : Packet)
  | pushOutQueue (conn : Nat) (packet : Packet)
  | writeComplete (conn : Nat)
deriving DecidableEq, Repr

-- A completion that is not due does not happen.
def broadcastStep (b : Broadcast) : BroadcastEvent → Broadcast
  | .onPlay conn contentLatency =>
      let joined := { b.conns conn with user := some { contentLatency := contentLatency } }
      { b with players := b.players ++ [conn], conns := Function.update b.conns conn joined }.activate conn
  | .addPacket packet =>
      let b := { b with stream := b.stream.addPacket packet }
      if b.stream.activates then b.activeAllPlayers else b
  | .pushOutQueue conn packet =>
      let queued := { b.conns conn with context := (b.conns conn).context.pushOutQueue packet }
      { b with conns := Function.update b.conns conn queued }
  | .writeComplete conn =>
      if (b.conns conn).context.ioVecList = [] then b
      else { b with conns := Function.update b.conns conn ((b.conns conn).writeComplete b.stream) }

end Lssvc.Live
