import Lssvc.Mmedia.Packet

set_option autoImplicit false

namespace Lssvc.Live

open Lssvc.Foundation Lssvc.Mmedia

-- CodecUtils looks at the two bytes of the FLV tag header.
def isCodecHeader (pkt : Packet) : Bool :=
  match pkt.body with
  | _ :: b :: _ => b == 0
  | _ => false

def isKeyFrame (pkt : Packet) : Bool :=
  match pkt.body with
  | b :: _ => b >>> 4 == 1
  | [] => false

def kMaxVideoDeltaTime : Int := 100
def kMaxAudioDeltaTime : Int := 100
def kDefaultVideoDeltaTime : Int := 40
def kDefaultAudioDeltaTime : Int := 20

@[ext] structure TimeCorrector where
  videoOriginalTimestamp : Int := -1
  videoCorrectedTimestamp : Int := -1
  audioOriginalTimestamp : Int := -1
  audioCorrectedTimestamp : Int := -1
  audioNumbersBetweenVideo : Int := 0
deriving DecidableEq, Repr

def fineDelta (delta max default : Int) : Int :=
  if -max < delta ∧ delta < max then delta else default

def TimeCorrector.correctAudioTimestampByAudio (corrector : TimeCorrector) (pkt : Packet) : TimeCorrector × Nat :=
  let time := pkt.getTimestamp
  if corrector.audioOriginalTimestamp = -1 then
    ({ corrector with audioOriginalTimestamp := time, audioCorrectedTimestamp := time }, toUint32 time)
  else
    let delta := fineDelta (time - corrector.audioOriginalTimestamp) kMaxAudioDeltaTime kDefaultAudioDeltaTime
    let corrected := max (corrector.audioCorrectedTimestamp + delta) 0
    ({ corrector with audioOriginalTimestamp := time, audioCorrectedTimestamp := corrected }, toUint32 corrected)

def TimeCorrector.correctAudioTimestampByVideo (corrector : TimeCorrector) (pkt : Packet) : TimeCorrector × Nat :=
  let corrector := { corrector with audioNumbersBetweenVideo := toInt32 (corrector.audioNumbersBetweenVideo + 1) }
  if corrector.audioNumbersBetweenVideo > 1 then corrector.correctAudioTimestampByAudio pkt
  else
    let time := pkt.getTimestamp
    if corrector.videoOriginalTimestamp = -1 then
      ({ corrector with audioOriginalTimestamp := time, audioCorrectedTimestamp := time }, toUint32 time)
    else
      let delta := fineDelta (time - corrector.videoOriginalTimestamp) kMaxVideoDeltaTime kDefaultVideoDeltaTime
      let corrected := max (corrector.videoCorrectedTimestamp + delta) 0
      ({ corrector with audioOriginalTimestamp := time, audioCorrectedTimestamp := corrected }, toUint32 corrected)

def TimeCorrector.firstVideo (corrector : TimeCorrector) (time : Int) : TimeCorrector :=
  if corrector.videoOriginalTimestamp = -1 then
    let delta := toInt32 (corrector.audioOriginalTimestamp - time)
    if corrector.audioOriginalTimestamp ≠ -1 ∧ (delta ≤ -kMaxVideoDeltaTime ∨ delta ≥ kMaxVideoDeltaTime) then
      { corrector with
        videoOriginalTimestamp := corrector.audioOriginalTimestamp
        videoCorrectedTimestamp := corrector.audioCorrectedTimestamp }
    else { corrector with videoOriginalTimestamp := time, videoCorrectedTimestamp := time }
  else corrector

def TimeCorrector.correctVideoTimestampByVideo (corrector : TimeCorrector) (pkt : Packet) : TimeCorrector × Nat :=
  let time := pkt.getTimestamp
  let corrector := { corrector with audioNumbersBetweenVideo := 0 }.firstVideo time
  let delta := fineDelta (time - corrector.videoOriginalTimestamp) kMaxVideoDeltaTime kDefaultVideoDeltaTime
  let corrected := max (corrector.videoCorrectedTimestamp + delta) 0
  ({ corrector with videoOriginalTimestamp := time, videoCorrectedTimestamp := corrected }, toUint32 corrected)

def TimeCorrector.correctTimestamp (corrector : TimeCorrector) (pkt : Packet) : TimeCorrector × Nat :=
  if isCodecHeader pkt then (corrector, 0)
  else if pkt.type = kPacketTypeVideo then corrector.correctVideoTimestampByVideo pkt
  else if pkt.type = kPacketTypeAudio then corrector.correctAudioTimestampByVideo pkt
  else (corrector, 0)

end Lssvc.Live
