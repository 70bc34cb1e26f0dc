import Lssvc.Live.CorrectedTimes
import Lssvc.Live.Viewing

set_option autoImplicit false

namespace Lssvc.Live

open Lssvc.Foundation Lssvc.Mmedia

theorem skip_frame_kept (stream : LiveStream) (user : PlayerUser) :
    (stream.skipFrame user).outFrames = user.outFrames ∧
      (stream.skipFrame user).timeCorrector = user.timeCorrector := by
  by_cases declined : stream.Declines user
  · rw [skip_frame_declined stream user declined]
    exact ⟨rfl, rfl⟩
  · obtain ⟨frames, _, clock⟩ := skip_frame_moved stream user declined
    exact ⟨frames, clock⟩

theorem locate_gop_kept (stream : LiveStream) (user : PlayerUser) :
    (stream.locateGop user).2.outFrames = user.outFrames ∧
      (stream.locateGop user).2.timeCorrector = user.timeCorrector := by
  refine ⟨(locate_gop_out stream user).1, ?_⟩
  rw [LiveStream.locateGop]
  dsimp only
  split
  · rfl
  · have kept := (locate_headers_kept stream (stream.gopMgr.getGopByLatency user.contentLatency).1
      { user with outIndex := (stream.gopMgr.getGopByLatency user.contentLatency).1 - 1 }).2.2
    split <;> exact kept

theorem next_frames_kept (stream : LiveStream) (turns : Nat) (index : Int) (user : PlayerUser) :
    (stream.nextFrames turns index user).timeCorrector = user.timeCorrector ∧
      ∀ pkt ∈ (stream.nextFrames turns index user).outFrames,
        pkt ∈ user.outFrames ∨ ∃ slot, stream.packetBuffer slot = some pkt := by
  induction turns generalizing index user with
  | zero => exact ⟨rfl, fun pkt inFrames => .inl inFrames⟩
  | succ turns ih =>
      rw [LiveStream.nextFrames]
      split
      · exact ⟨rfl, fun pkt inFrames => .inl inFrames⟩
      · split
        · exact ⟨rfl, fun pkt inFrames => .inl inFrames⟩
        · rename_i read found
          obtain ⟨clock, frames⟩ := ih (read.index + 1)
            { user with
              outFrames := user.outFrames ++ [read]
              outIndex := read.index
              outFrameTimestamp := toInt32 read.getTimestamp }
          refine ⟨clock, fun pkt inFrames => ?_⟩
          rcases frames pkt inFrames with earlier | inRing
          · rcases List.mem_append.mp earlier with before | now
            · exact .inl before
            · cases List.mem_singleton.mp now
              exact .inr ⟨_, found⟩
          · exact .inr inRing

theorem get_frames_kept (stream : LiveStream) (user : PlayerUser) :
    (stream.getFrames user).timeCorrector = user.timeCorrector ∧
      ∀ pkt ∈ (stream.getFrames user).outFrames,
        pkt ∈ user.outFrames ∨ ∃ slot, stream.packetBuffer slot = some pkt := by
  have from' (moved : PlayerUser) (frames : moved.outFrames = user.outFrames)
      (clock : moved.timeCorrector = user.timeCorrector) :
      (stream.getNextFrame moved).timeCorrector = user.timeCorrector ∧
        ∀ pkt ∈ (stream.getNextFrame moved).outFrames,
          pkt ∈ user.outFrames ∨ ∃ slot, stream.packetBuffer slot = some pkt := by
    rw [← frames, ← clock]
    exact next_frames_kept stream 10 (moved.outIndex + 1) moved
  rw [LiveStream.getFrames]
  split
  · exact ⟨rfl, fun pkt inFrames => .inl inFrames⟩
  · split
    · split
      · exact from' _ (skip_frame_kept stream user).1 (skip_frame_kept stream user).2
      · exact from' user rfl rfl
    · obtain ⟨frames, clock⟩ := locate_gop_kept stream user
      split
      · rename_i moved located
        rw [located] at frames clock
        exact from' moved frames clock
      · rename_i moved located
        rw [located] at frames clock
        exact ⟨clock, fun pkt inFrames => .inl (frames ▸ inFrames)⟩

theorem stamp_stored (stream : LiveStream) (packet : Packet) (type : MediaType packet.type) :
    Stored (stream.stamp packet) := by
  have small := correct_timestamp_lt stream.timeCorrector packet
  rw [LiveStream.stamp]
  dsimp only
  split
  · exact ⟨.inr rfl, small⟩
  · exact ⟨.inl type, small⟩

structure Playback where
  stream : LiveStream := {}
  conn : PlayerConn
  sent : List Pushed := []

def Playback.fresh (contentLatency : Int) : Playback :=
  { conn := { user := some { contentLatency := contentLatency } } }

inductive PlaybackEvent where
  | addPacket (packet : Packet)
  | activate
  | pushOutQueue (packet : Packet)
  | writeComplete
deriving DecidableEq, Repr

-- Only media messages reach addPacket: messageComplete has mapped their types.
def PlaybackEvent.Media : PlaybackEvent → Prop
  | .addPacket packet => MediaType packet.type
  | _ => True

instance : (event : PlaybackEvent) → Decidable event.Media
  | .addPacket packet => inferInstanceAs (Decidable (MediaType packet.type))
  | .activate => .isTrue trivial
  | .pushOutQueue _ => .isTrue trivial
  | .writeComplete => .isTrue trivial

def pendingPushes (user : PlayerUser) (ctx : RtmpSender) : List Pushed :=
  match user.metaPacket, user.audioHeader, user.videoHeader with
  | none, none, none =>
      if user.outFrames ≠ [] ∧ ctx.ready = true then pushedFrom user.timeCorrector user.outFrames else []
  | _, _, _ => []

def PlayerConn.pushes (stream : LiveStream) (conn : PlayerConn) : List Pushed :=
  match conn.user with
  | none => []
  | some user => if ¬ stream.ready || ¬ stream.hasMedia then [] else pendingPushes (stream.getFrames user) conn.context

def Playback.serve (p : Playback) (conn : PlayerConn) : Playback :=
  { p with conn := onActive p.stream conn, sent := p.sent ++ conn.pushes p.stream }

-- The steps of PlayerConn.activate and PlayerConn.writeComplete, with the log.
def playStep (p : Playback) : PlaybackEvent → Playback
  | .addPacket packet => { p with stream := p.stream.addPacket packet }
  | .activate => if p.conn.active then p else p.serve { p.conn with active := true }
  | .pushOutQueue packet => { p with conn := { p.conn with context := p.conn.context.pushOutQueue packet } }
  | .writeComplete =>
      if p.conn.context.ioVecList = [] then p
      else
        match { p.conn.context with ioVecList := [] }.checkAndSend with
        | (ctx, false) => { p with conn := { p.conn with context := ctx } }
        | (ctx, true) => p.serve { p.conn with context := ctx }

theorem play_step_conn (p : Playback) :
    (playStep p .activate).conn = p.conn.activate p.stream ∧
      (p.conn.context.ioVecList ≠ [] → (playStep p .writeComplete).conn = p.conn.writeComplete p.stream) := by
  constructor
  · rw [playStep, PlayerConn.activate]
    split <;> rfl
  · intro due
    rw [playStep, if_neg due, PlayerConn.writeComplete]
    cases written : { p.conn.context with ioVecList := [] }.checkAndSend with
    | mk ctx sent =>
        cases sent with
        | false => rfl
        | true => rfl

structure UserSound (sent : List Pushed) (user : PlayerUser) : Prop where
  frames : ∀ pkt ∈ user.outFrames, Stored pkt
  clock : user.timeCorrector = correctAll {} (sent.map Pushed.packet)

structure PlaybackSound (p : Playback) : Prop where
  ring : ∀ slot pkt, p.stream.packetBuffer slot = some pkt → Stored pkt
  user : ∀ user, p.conn.user = some user → UserSound p.sent user
  log : p.sent = pushedFrom {} (p.sent.map Pushed.packet)
  sent : ∀ pushed ∈ p.sent, Stored pushed.packet

theorem pending_pushes_sound (user : PlayerUser) (ctx : RtmpSender) (sent : List Pushed) (sound : UserSound sent user)
    (log : sent = pushedFrom {} (sent.map Pushed.packet)) (stored : ∀ pushed ∈ sent, Stored pushed.packet) :
    sent ++ pendingPushes user ctx = pushedFrom {} ((sent ++ pendingPushes user ctx).map Pushed.packet) ∧
      ∀ pushed ∈ sent ++ pendingPushes user ctx, Stored pushed.packet := by
  rw [pendingPushes]
  split
  · by_cases pushes : user.outFrames ≠ [] ∧ ctx.ready = true
    · rw [if_pos pushes, List.map_append, pushed_from_packets, pushed_from_append, ← log, ← sound.clock]
      refine ⟨rfl, List.forall_mem_append.mpr ⟨stored, fun pushed inList => ?_⟩⟩
      apply sound.frames
      rw [← pushed_from_packets user.timeCorrector user.outFrames]
      exact List.mem_map_of_mem inList
    · rw [if_neg pushes, List.append_nil]
      exact ⟨log, stored⟩
  · rw [List.append_nil]
    exact ⟨log, stored⟩

theorem post_pending_sound (user : PlayerUser) (conn : PlayerConn) (sent : List Pushed) (sound : UserSound sent user) :
    ∀ next, (postPending user conn).user = some next → UserSound (sent ++ pendingPushes user conn.context) next := by
  obtain ⟨frames, clock⟩ := sound
  have header (pkt : Packet) (after : PlayerUser → PlayerUser)
      (kept : ∀ other : PlayerUser, (after other).outFrames = other.outFrames ∧
        (after other).timeCorrector = other.timeCorrector) (next : PlayerUser)
      (served : (postPushed conn (pushFrame user conn.context pkt true) after).user = some next) :
      UserSound (sent ++ []) next := by
    rw [List.append_nil]
    rw [postPushed, pushFrame] at served
    by_cases ready : conn.context.ready = true
    · rw [if_pos ready] at served
      cases served
      rw [if_pos rfl]
      exact ⟨by rw [(kept _).1]; exact frames, by rw [(kept _).2]; exact clock⟩
    · rw [if_neg ready] at served
      cases served
      exact ⟨frames, clock⟩
  intro next served
  rw [postPending] at served
  rw [pendingPushes]
  cases metaCase : user.metaPacket with
  | some pkt =>
      rw [metaCase] at served
      exact header pkt (fun user => { user with metaPacket := none }) (fun _ => ⟨rfl, rfl⟩) next served
  | none =>
      cases audioCase : user.audioHeader with
      | some pkt =>
          rw [metaCase, audioCase] at served
          exact header pkt (fun user => { user with audioHeader := none }) (fun _ => ⟨rfl, rfl⟩) next served
      | none =>
          cases videoCase : user.videoHeader with
          | some pkt =>
              rw [metaCase, audioCase, videoCase] at served
              exact header pkt (fun user => { user with videoHeader := none }) (fun _ => ⟨rfl, rfl⟩) next served
          | none =>
              rw [metaCase, audioCase, videoCase] at served
              dsimp only at served ⊢
              by_cases waiting : user.outFrames ≠ []
              · rw [if_pos waiting, postPushed, pushFrames] at served
                by_cases ready : conn.context.ready = true
                · rw [if_pos ready, push_frames_from_pushed] at served
                  cases served
                  rw [if_pos rfl, if_pos ⟨waiting, ready⟩]
                  refine ⟨fun pkt impossible => absurd impossible List.not_mem_nil, ?_⟩
                  rw [List.map_append, pushed_from_packets, correct_all_append, ← clock]
                · rw [if_neg ready] at served
                  cases served
                  rw [if_neg fun both => ready both.2, List.append_nil]
                  exact ⟨frames, clock⟩
              · rw [if_neg waiting] at served
                cases served
                rw [if_neg fun both => waiting both.1, List.append_nil]
                exact ⟨frames, clock⟩

theorem serve_sound (p : Playback) (conn : PlayerConn) (same : conn.user = p.conn.user) (sound : PlaybackSound p) :
    PlaybackSound (p.serve conn) := by
  obtain ⟨ring, user, log, sent⟩ := sound
  rw [Playback.serve, onActive, PlayerConn.pushes]
  rw [← same] at user
  cases known : conn.user with
  | none =>
      dsimp only
      rw [List.append_nil]
      refine ⟨ring, fun next attached => ?_, log, sent⟩
      rw [known] at attached
      cases attached
  | some player =>
      dsimp only
      rw [postFrames]
      by_cases unplayable : (!p.stream.ready || !p.stream.hasMedia) = true
      · rw [if_pos (by simpa using unplayable), if_pos (by simpa using unplayable), List.append_nil]
        exact ⟨ring, user, log, sent⟩
      · rw [if_neg (by simpa using unplayable), if_neg (by simpa using unplayable)]
        obtain ⟨frames, clock⟩ := user player known
        obtain ⟨kept, given⟩ := get_frames_kept p.stream player
        have served : UserSound p.sent (p.stream.getFrames player) := by
          refine ⟨fun pkt inFrames => ?_, kept.trans clock⟩
          rcases given pkt inFrames with earlier | ⟨slot, found⟩
          · exact frames pkt earlier
          · exact ring slot pkt found
        obtain ⟨logAfter, sentAfter⟩ := pending_pushes_sound _ conn.context p.sent served log sent
        exact ⟨ring, post_pending_sound _ conn p.sent served, logAfter, sentAfter⟩

theorem play_step_sound (p : Playback) (event : PlaybackEvent) (allowed : event.Media) (sound : PlaybackSound p) :
    PlaybackSound (playStep p event) := by
  cases event with
  | addPacket packet =>
      obtain ⟨ring, user, log, sent⟩ := sound
      refine ⟨fun slot pkt found => ?_, user, log, sent⟩
      rw [playStep] at found
      dsimp only at found
      rw [add_packet_buffer] at found
      by_cases newest : slot = LiveStream.slot (p.stream.frameIndex + 1)
      · rw [newest, Function.update_self] at found
        cases found
        exact stamp_stored p.stream packet allowed
      · rw [Function.update_of_ne newest] at found
        exact ring slot pkt found
  | activate =>
      rw [playStep]
      split
      · exact sound
      · exact serve_sound p _ rfl sound
  | pushOutQueue packet => exact ⟨sound.ring, sound.user, sound.log, sound.sent⟩
  | writeComplete =>
      rw [playStep]
      split
      · exact sound
      · split
        · exact ⟨sound.ring, sound.user, sound.log, sound.sent⟩
        · exact serve_sound p _ rfl sound

theorem fresh_playback_sound (contentLatency : Int) : PlaybackSound (.fresh contentLatency) where
  ring := fun slot pkt impossible => by cases impossible
  user := by
    rintro user ⟨rfl⟩
    exact ⟨fun pkt impossible => absurd impossible List.not_mem_nil, rfl⟩
  log := rfl
  sent := fun pushed impossible => absurd impossible List.not_mem_nil

theorem playback_sound (contentLatency : Int) (events : List PlaybackEvent) (media : ∀ event ∈ events, event.Media) :
    PlaybackSound (run playStep (.fresh contentLatency) events) := by
  refine run_history (fun _ p => PlaybackSound p) (fun _ event => event.Media) (fresh_playback_sound contentLatency)
    (fun past event allowed sound => play_step_sound _ event allowed sound) events ?_
  rintro past event rest rfl
  exact media event (List.mem_append_right _ List.mem_cons_self)

theorem player_timestamps_iff (contentLatency : Int) (events : List PlaybackEvent)
    (media : ∀ event ∈ events, event.Media) :
    VideoTimed (run playStep (.fresh contentLatency) events).sent ↔
      ∀ pushed ∈ (run playStep (.fresh contentLatency) events).sent, Steady pushed := by
  obtain ⟨_, _, log, stored⟩ := playback_sound contentLatency events media
  rw [log]
  refine video_timed_iff _ fun pkt inList => ?_
  obtain ⟨pushed, inSent, rfl⟩ := List.mem_map.mp inList
  exact stored pushed inSent

def videoMessage (timestamp : Nat) (tag : Bytes) : Packet :=
  { type := kPacketTypeVideo
    timestamp := timestamp
    capacity := 2
    body := tag
    ext := some { csId := 4, msgLen := 2, msgType := 9 } }

def keyFrameEvents : List PlaybackEvent :=
  [.addPacket (videoMessage 5000 [0x17, 0]), .addPacket (videoMessage 5000 [0x17, 1]),
    .addPacket (videoMessage 5040 [0x27, 1]), .activate, .writeComplete]

theorem player_timestamps_key_frame :
    (∀ event ∈ keyFrameEvents, event.Media) ∧
      (VideoTimed (run playStep (.fresh 3000) keyFrameEvents).sent ↔
        ∀ pushed ∈ (run playStep (.fresh 3000) keyFrameEvents).sent, Steady pushed) :=
  ⟨by decide, player_timestamps_iff 3000 keyFrameEvents (by decide)⟩

theorem key_frame_sent_at_zero :
    ¬ ∀ contentLatency events, (∀ event ∈ events, event.Media) →
      VideoTimed (run playStep (.fresh contentLatency) events).sent := by
  intro claim
  have near := (claim 3000 keyFrameEvents (by decide)).near
  have times : ((run playStep (.fresh 3000) keyFrameEvents).sent.filter Pushed.videoFrame).map
      (fun pushed => pushed.timestamp) = [0, 5040] := by decide +kernel
  have chain : [(0 : UInt32), 5040].IsChain fun earlier later => |(later.toNat : Int) - earlier.toNat| < 100 := by
    rw [← times, List.isChain_map]
    exact near
  exact absurd chain (by decide)

end Lssvc.Live
