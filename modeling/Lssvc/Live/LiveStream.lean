import Lssvc.Live.TimeCorrector
import Mathlib.Logic.Function.Basic

set_option autoImplicit false

namespace Lssvc.Live

open Lssvc.Foundation Lssvc.Mmedia

structure GopItemInfo where
  index : Int
  timestamp : Int
deriving DecidableEq, Repr

structure GopMgr where
  gops : List GopItemInfo := []
  gopLength : Nat := 0
  maxGopLength : Nat := 0
  gopNumbers : Nat := 0
  totalGopLength : Nat := 0
  lastestTimestamp : Int := 0
deriving DecidableEq, Repr

def GopMgr.addFrame (mgr : GopMgr) (pkt : Packet) : GopMgr :=
  let mgr := { mgr with lastestTimestamp := pkt.getTimestamp }
  let mgr :=
    if pkt.isKeyFrame then
      { mgr with
        gops := mgr.gops ++ [⟨pkt.index, pkt.getTimestamp⟩]
        maxGopLength := max mgr.maxGopLength mgr.gopLength
        totalGopLength := mgr.totalGopLength + mgr.gopLength
        gopNumbers := mgr.gopNumbers + 1
        gopLength := 0 }
    else mgr
  { mgr with gopLength := mgr.gopLength + 1 }

-- The loop from the newest GOP back, up to the first whose latency is too long.
-- The result is the index and, in `latency`, how far it is behind.
def latencySearch (lastest contentLatency : Int) : List GopItemInfo → Int × Int → Int × Int
  | [], found => found
  | gop :: older, found =>
      let itemLatency := toInt32 (lastest - gop.timestamp)
      if itemLatency ≤ contentLatency then latencySearch lastest contentLatency older (gop.index, itemLatency)
      else found

def GopMgr.getGopByLatency (mgr : GopMgr) (contentLatency : Int) : Int × Int :=
  latencySearch mgr.lastestTimestamp contentLatency mgr.gops.reverse (-1, 0)

def GopMgr.clearExpiredGop (mgr : GopMgr) (minIndex : Int) : GopMgr :=
  { mgr with gops := mgr.gops.filter fun gop => ¬ gop.index ≤ minIndex }

structure HeaderList where
  last : Option Packet := none
  packets : List Packet := []
  version : Nat := 0
deriving DecidableEq, Repr

def HeaderList.save (headers : HeaderList) (pkt : Packet) : HeaderList :=
  ⟨some pkt, headers.packets ++ [pkt], headers.version + 1⟩

def HeaderList.get (headers : HeaderList) (index : Int) : Option Packet :=
  if index ≤ 0 then headers.last
  else
    match headers.packets.reverse.find? fun ptr => ptr.index ≤ index with
    | some ptr => some ptr
    | none => headers.last

structure CodecHeader where
  metaPackets : HeaderList := {}
  audioHeaderPackets : HeaderList := {}
  videoHeaderPackets : HeaderList := {}
deriving DecidableEq, Repr

def CodecHeader.getMeta (headers : CodecHeader) (index : Int) : Option Packet := headers.metaPackets.get index

def CodecHeader.getAudioHeader (headers : CodecHeader) (index : Int) : Option Packet :=
  headers.audioHeaderPackets.get index

def CodecHeader.getVideoHeader (headers : CodecHeader) (index : Int) : Option Packet :=
  headers.videoHeaderPackets.get index

def CodecHeader.parseCodecHeader (headers : CodecHeader) (pkt : Packet) : CodecHeader :=
  if pkt.isMeta then { headers with metaPackets := headers.metaPackets.save pkt }
  else if pkt.isAudio then { headers with audioHeaderPackets := headers.audioHeaderPackets.save pkt }
  else if pkt.isVideo then { headers with videoHeaderPackets := headers.videoHeaderPackets.save pkt }
  else headers

def packetBufferSize : Nat := 1000

structure LiveStream where
  frameIndex : Int := -1
  packetBuffer : Nat → Option Packet := fun _ => none
  hasAudio : Bool := false
  hasVideo : Bool := false
  hasMeta : Bool := false
  ready : Bool := false
  streamVersion : Int := -1
  gopMgr : GopMgr := {}
  codecHeaders : CodecHeader := {}
  timeCorrector : TimeCorrector := {}

def LiveStream.hasMedia (stream : LiveStream) : Bool := stream.hasAudio || stream.hasVideo || stream.hasMeta

def LiveStream.setReady (stream : LiveStream) : LiveStream := { stream with ready := true }

-- The version goes up for every header, but `has_meta_;` is no assignment.
def LiveStream.noteHeader (stream : LiveStream) (pkt : Packet) : LiveStream :=
  let stream := { stream with codecHeaders := stream.codecHeaders.parseCodecHeader pkt }
  if pkt.isVideo then { stream with hasVideo := true, streamVersion := stream.streamVersion + 1 }
  else if pkt.isAudio then { stream with hasAudio := true, streamVersion := stream.streamVersion + 1 }
  else if pkt.isMeta then { stream with streamVersion := stream.streamVersion + 1 }
  else stream

def LiveStream.slot (index : Int) : Nat := (index % packetBufferSize).toNat

def LiveStream.stamp (stream : LiveStream) (pkt : Packet) : Packet :=
  let pkt := { pkt with
    timestamp := (stream.timeCorrector.correctTimestamp pkt).2
    index := toInt32 (stream.frameIndex + 1) }
  if pkt.isVideo && isKeyFrame pkt then { pkt with type := kPacketTypeVideo ||| kFrameTypeKeyFrame } else pkt

-- addPacket up to the codec header: everything but the ring and the GOPs.
def LiveStream.beginAdd (stream : LiveStream) (packet : Packet) : LiveStream :=
  let pkt := stream.stamp packet
  let stream := { stream with
    timeCorrector := (stream.timeCorrector.correctTimestamp packet).1
    frameIndex := stream.frameIndex + 1 }
  let stream := if pkt.isVideo && isKeyFrame pkt then stream.setReady else stream
  if isCodecHeader pkt then stream.noteHeader pkt else stream

def LiveStream.addPacket (stream : LiveStream) (packet : Packet) : LiveStream :=
  let pkt := stream.stamp packet
  let begun := stream.beginAdd packet
  let index := begun.frameIndex
  let stored := { begun with
    gopMgr := begun.gopMgr.addFrame pkt
    packetBuffer := Function.update begun.packetBuffer (LiveStream.slot index) (some pkt) }
  if index - packetBufferSize > 0 then
    { stored with gopMgr := stored.gopMgr.clearExpiredGop (toInt32 (index - packetBufferSize)) }
  else stored

-- When addPacket ends by calling session_.activeAllPlayers().
def LiveStream.activates (stream : LiveStream) : Bool := stream.frameIndex < 300 || stream.frameIndex % 5 == 0

-- contentLatency is content_latency_ of the user's application, as an int.
structure PlayerUser where
  contentLatency : Int
  metaPacket : Option Packet := none
  audioHeader : Option Packet := none
  videoHeader : Option Packet := none
  waitMeta : Bool := true
  waitAudio : Bool := true
  waitVideo : Bool := true
  metaIndex : Int := 0
  audioHeaderIndex : Int := 0
  videoHeaderIndex : Int := 0
  timeCorrector : TimeCorrector := {}
  outVersion : Int := -1
  outFrameTimestamp : Int := 0
  outFrames : List Packet := []
  outIndex : Int := -1

def LiveStream.locateMeta (stream : LiveStream) (index : Int) (user : PlayerUser) : PlayerUser :=
  let user := { user with waitMeta := user.waitMeta && stream.hasMeta }
  match user.waitMeta, stream.codecHeaders.getMeta index with
  | true, some pkt => { user with waitMeta := false, metaPacket := some pkt, metaIndex := pkt.index }
  | _, _ => user

def LiveStream.locateAudio (stream : LiveStream) (index : Int) (user : PlayerUser) : PlayerUser :=
  let user := { user with waitAudio := user.waitAudio && stream.hasAudio }
  match user.waitAudio, stream.codecHeaders.getAudioHeader index with
  | true, some pkt => { user with waitAudio := false, audioHeader := some pkt, audioHeaderIndex := pkt.index }
  | _, _ => user

def LiveStream.locateVideo (stream : LiveStream) (index : Int) (user : PlayerUser) : PlayerUser :=
  let user := { user with waitVideo := user.waitVideo && stream.hasVideo }
  match user.waitVideo, stream.codecHeaders.getVideoHeader index with
  | true, some pkt => { user with waitVideo := false, videoHeader := some pkt, videoHeaderIndex := pkt.index }
  | _, _ => user

def LiveStream.locateGop (stream : LiveStream) (user : PlayerUser) : Bool × PlayerUser :=
  let index := (stream.gopMgr.getGopByLatency user.contentLatency).1
  if index = -1 then (false, user)
  else
    let user := { user with outIndex := index - 1 }
    let user := stream.locateVideo index (stream.locateAudio index (stream.locateMeta index user))
    if user.waitMeta || user.waitAudio || user.waitVideo then (false, user)
    else (true, { user with waitMeta := true, waitAudio := true, waitVideo := true, outVersion := stream.streamVersion })

def LiveStream.skipMeta (stream : LiveStream) (index : Int) (user : PlayerUser) : PlayerUser :=
  match stream.codecHeaders.getMeta index with
  | some pkt => if pkt.index > user.metaIndex then { user with metaPacket := some pkt, metaIndex := pkt.index } else user
  | none => user

def LiveStream.skipAudio (stream : LiveStream) (index : Int) (user : PlayerUser) : PlayerUser :=
  match stream.codecHeaders.getAudioHeader index with
  | some pkt =>
      if pkt.index > user.audioHeaderIndex then { user with audioHeader := some pkt, audioHeaderIndex := pkt.index } else user
  | none => user

def LiveStream.skipVideo (stream : LiveStream) (index : Int) (user : PlayerUser) : PlayerUser :=
  match stream.codecHeaders.getVideoHeader index with
  | some pkt =>
      if pkt.index > user.videoHeaderIndex then { user with videoHeader := some pkt, videoHeaderIndex := pkt.index } else user
  | none => user

def LiveStream.skipFrame (stream : LiveStream) (user : PlayerUser) : PlayerUser :=
  let index := (stream.gopMgr.getGopByLatency user.contentLatency).1
  if index = -1 ∨ index ≤ user.outIndex then user
  else
    let user := stream.skipVideo index (stream.skipAudio index (stream.skipMeta index user))
    { user with outIndex := index - 1 }

-- The ten turns of the loop, `turns` of them left.
def LiveStream.nextFrames (stream : LiveStream) : Nat → Int → PlayerUser → PlayerUser
  | 0, _, user => user
  | turns + 1, index, user =>
      if index > stream.frameIndex then user
      else
        match stream.packetBuffer (LiveStream.slot index) with
        | none => user
        | some pkt =>
            stream.nextFrames turns (pkt.index + 1)
              { user with
                outFrames := user.outFrames ++ [pkt]
                outIndex := pkt.index
                outFrameTimestamp := toInt32 pkt.getTimestamp }

def LiveStream.getNextFrame (stream : LiveStream) (user : PlayerUser) : PlayerUser :=
  stream.nextFrames 10 (user.outIndex + 1) user

def LiveStream.lagging (stream : LiveStream) (user : PlayerUser) : Bool :=
  user.outIndex < toInt32 (stream.frameIndex - packetBufferSize)

def LiveStream.needSkip (stream : LiveStream) (user : PlayerUser) : Bool :=
  stream.lagging user ||
    stream.gopMgr.lastestTimestamp - user.outFrameTimestamp > toInt32 (2 * user.contentLatency)

def PlayerUser.pending (user : PlayerUser) : Bool :=
  user.metaPacket.isSome || user.audioHeader.isSome || user.videoHeader.isSome || !user.outFrames.isEmpty

def LiveStream.getFrames (stream : LiveStream) (user : PlayerUser) : PlayerUser :=
  if ¬ stream.hasMedia || user.pending then user
  else if user.outIndex ≥ 0 then
    stream.getNextFrame (if stream.needSkip user then stream.skipFrame user else user)
  else
    match stream.locateGop user with
    | (true, user) => stream.getNextFrame user
    | (false, user) => user

end Lssvc.Live
