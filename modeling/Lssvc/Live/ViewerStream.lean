import Lssvc.Live.ShownFrames
import Lssvc.Mmedia.MessagePipe

set_option autoImplicit false

namespace Lssvc.Live

open Lssvc.Foundation Lssvc.Mmedia

-- A stream and the connection of one player, with what the kernels hold of it and
-- the context at the player's end.
structure Screening where
  stream : LiveStream := {}
  conn : PlayerConn
  wire : Bytes := []
  incoming : ParseOutcome := .idle .fresh
  pieces : List Bytes := []
  log : List Posted := []

def Screening.fresh (contentLatency : Int) : Screening :=
  { conn := { user := some { contentLatency := contentLatency } } }

def Screening.pipe (s : Screening) : Pipe :=
  { ctx := s.conn.context
    wire := s.wire
    incoming := s.incoming
    submitted := s.log.map Posted.message
    pieces := s.pieces }

def Screening.serve (s : Screening) (conn : PlayerConn) : Screening :=
  { s with conn := onActive s.stream conn, log := s.log ++ conn.posts s.stream }

inductive ScreeningEvent where
  | addPacket (packet : Packet)
  | activate
  | pushOutQueue (packet : Packet)
  | writev (ret : Nat)
  | readFd (n : Nat)

-- The task of LSSConnection::active runs in the loop, and can find the connection
-- active. The other steps are PlayerConn.writeComplete and those of the pipe.
def screeningStep (s : Screening) : ScreeningEvent → Screening
  | .addPacket packet => { s with stream := s.stream.addPacket packet }
  | .activate => s.serve { s.conn with active := true }
  | .pushOutQueue packet =>
      { s with
        conn := { s.conn with context := s.conn.context.pushOutQueue packet }
        log := s.log ++ [⟨queued packet, false⟩] }
  | .writev ret =>
      if kIovMax < s.conn.context.ioVecList.length then s
      else
        let written : Screening := { s with wire := s.wire ++ s.conn.context.ioVecList.flatten.take ret }
        let ctx : RtmpSender := { s.conn.context with ioVecList := eraseNodes ret s.conn.context.ioVecList }
        if ctx.ioVecList = [] then
          match { ctx with ioVecList := [] }.checkAndSend with
          | (ctx, false) => { written with conn := { s.conn with context := ctx } }
          | (ctx, true) => written.serve { s.conn with context := ctx }
        else { written with conn := { s.conn with context := ctx } }
  | .readFd n =>
      if s.wire.take n = [] then s
      else
        { s with
          wire := s.wire.drop n
          incoming := arrive s.incoming (s.wire.take n)
          pieces := s.pieces ++ [s.wire.take n] }

def FewFrames (stream : LiveStream) : Prop := stream.frameIndex + 1 < 2147483648

instance (stream : LiveStream) : Decidable (FewFrames stream) :=
  inferInstanceAs (Decidable (stream.frameIndex + 1 < 2147483648))

def Carries (s : Screening) : Prop := ∀ posted ∈ s.log, Carriable posted.message

instance (s : Screening) : Decidable (Carries s) := inferInstanceAs (Decidable (∀ posted ∈ s.log, _))

def Admitted (s : Screening) : ScreeningEvent → Prop
  | .addPacket _ => FewFrames s.stream
  | .activate => Carries (screeningStep s .activate)
  | .pushOutQueue packet => Carriable (queued packet)
  | .writev ret => Carries (screeningStep s (.writev ret))
  | .readFd n => ReadsSmall s.pipe n

instance (s : Screening) : (event : ScreeningEvent) → Decidable (Admitted s event)
  | .addPacket _ => inferInstanceAs (Decidable (FewFrames s.stream))
  | .activate => inferInstanceAs (Decidable (Carries (screeningStep s .activate)))
  | .pushOutQueue packet => inferInstanceAs (Decidable (Carriable (queued packet)))
  | .writev ret => inferInstanceAs (Decidable (Carries (screeningStep s (.writev ret))))
  | .readFd n => inferInstanceAs (Decidable (ReadsSmall s.pipe n))

structure Screened (s : Screening) : Prop where
  carried : ∃ built, Carrying s.pipe built
  shown : ∃ user, s.conn.user = some user ∧ Shown s.stream user (framesOf s.log)
  few : s.stream.frameIndex < 2147483648

theorem fresh_screened (contentLatency : Int) : Screened (.fresh contentLatency) where
  carried := ⟨[], carrying_fresh⟩
  shown := ⟨{ contentLatency := contentLatency }, rfl, fresh_view_sound contentLatency, .nil, List.forall_mem_nil _,
    Nat.zero_le _⟩
  few := show (-1 : Int) < 2147483648 by decide

theorem posts_carried (s : Screening) (conn : PlayerConn) (posts : List Posted) (ready : s.conn.context.ready = true)
    (context : conn.context = contextStep s.conn.context (.pushFrames (posts.map Posted.message))) (some' : posts ≠ [])
    (few : posts.length ≤ kRtmpSingleMax) (each : ∀ posted ∈ posts, Carriable posted.message) (built : List OutMessage)
    (carrying : Carrying s.pipe built) :
    ∃ built', Carrying { s with conn := conn, log := s.log ++ posts }.pipe built' := by
  have messages : ∀ message ∈ posts.map Posted.message, Carriable message := by
    intro message listed
    obtain ⟨posted, inside, rfl⟩ := List.mem_map.mp listed
    exact each posted inside
  obtain ⟨built', still⟩ := carrying_frames s.pipe built (posts.map Posted.message)
    ⟨by simpa using some', by simpa using few, messages⟩ carrying
  refine ⟨built', ?_⟩
  rw [pipeStep, if_pos (show s.pipe.ctx.ready = true from ready)] at still
  rw [Screening.pipe, context, List.map_append]
  exact still

theorem serve_cases (s : Screening) (user : PlayerUser) (attached : s.conn.user = some user) :
    (¬ (s.stream.ready = true ∧ s.stream.hasMedia = true) ∧ s.serve s.conn = s) ∨
      (s.stream.hasMedia = true ∧
        s.serve s.conn =
          { s with
            conn := postPending (s.stream.getFrames user) s.conn
            log := s.log ++ postedBy (s.stream.getFrames user) s.conn.context }) := by
  rw [Screening.serve, onActive, PlayerConn.posts, attached]
  dsimp only
  rw [postFrames]
  by_cases playable : s.stream.ready = true ∧ s.stream.hasMedia = true
  · exact .inr ⟨playable.2, by simp [playable]⟩
  · have unplayable : (¬ s.stream.ready || ¬ s.stream.hasMedia) = true := by
      rw [not_and_or] at playable
      simpa using playable
    rw [if_pos unplayable, if_pos unplayable, List.append_nil]
    exact .inl ⟨playable, rfl⟩

theorem serve_screened (s : Screening) (carriable : Carries (s.serve s.conn)) (sound : Screened s) :
    Screened (s.serve s.conn) := by
  obtain ⟨⟨built, carrying⟩, ⟨user, attached, shown⟩, few⟩ := sound
  rcases serve_cases s user attached with ⟨_, away⟩ | ⟨_, serves⟩
  · rw [away]
    exact ⟨⟨built, carrying⟩, ⟨user, attached, shown⟩, few⟩
  · rw [serves] at carriable ⊢
    have given := get_frames_shown s.stream user _ few shown
    generalize s.stream.getFrames user = served at carriable given ⊢
    have each := (List.forall_mem_append.mp carriable).2
    rcases post_pending_cases served s.conn with ⟨none', same, stays⟩ |
      ⟨pkt, next, ready, posted, context, stays, frames, place⟩ |
      ⟨next, ready, waiting, posted, context, stays, frames, place⟩
    · rw [none', List.append_nil]
      refine ⟨⟨built, ?_⟩, ⟨served, stays, given⟩, few⟩
      rw [Screening.pipe, same]
      exact carrying
    · rw [posted] at each ⊢
      have one : [headerPosted pkt].length ≤ kRtmpSingleMax := by simp [kRtmpSingleMax]
      refine ⟨posts_carried s _ _ ready context (List.cons_ne_nil _ _) one each built carrying, ⟨next, stays, ?_⟩, few⟩
      rw [frames_of_append]
      exact shown_moved s.stream served next _ _ given place frames
    · rw [posted] at each ⊢
      have count : (framesPosted served).length = served.outFrames.length := by
        rw [← frames_of_frames, framesOf]
        simp [framesPosted, List.filter_map, Function.comp_def]
      refine ⟨posts_carried s _ _ ready context ?_ (count ▸ given.few) each built carrying, ⟨next, stays, ?_⟩, few⟩
      · rw [← List.length_pos_iff, count]
        exact List.length_pos_iff.mpr waiting
      · rw [frames_of_append, frames_of_frames]
        exact shown_moved s.stream served next _ _ given place (by simp [frames])

def Screening.written (s : Screening) (ret : Nat) : Screening :=
  { s with
    wire := (pipeStep s.pipe (.writev ret)).wire
    conn := { s.conn with context := (pipeStep s.pipe (.writev ret)).ctx } }

theorem written_screened (s : Screening) (ret : Nat) (sound : Screened s) : Screened (s.written ret) := by
  obtain ⟨⟨built, carrying⟩, shown, few⟩ := sound
  have same : (s.written ret).pipe = pipeStep s.pipe (.writev ret) := by
    rw [Screening.written, pipeStep]
    split_ifs <;> rfl
  exact ⟨by rw [same]; exact carrying_writev s.pipe built ret carrying, shown, few⟩

theorem writev_step (s : Screening) (ret : Nat) :
    (screeningStep s (.writev ret) = s.written ret ∧
        ((s.written ret).conn.context.sending = s.conn.context.sending ∨
          (s.written ret).conn.context.sending = true)) ∨
      (screeningStep s (.writev ret) = (s.written ret).serve (s.written ret).conn ∧
        (s.written ret).conn.context.ready = true) := by
  by_cases many : kIovMax < s.conn.context.ioVecList.length
  · simp only [screeningStep, Screening.written, pipeStep, Screening.pipe, many, if_true, true_or, and_self]
  by_cases written : eraseNodes ret s.conn.context.ioVecList = []
  · simp only [screeningStep, Screening.written, pipeStep, Screening.pipe, many, if_false, written, if_true, contextStep]
    by_cases queue : s.conn.context.outWaitingQueue = []
    · refine .inr ⟨?_, by simp [RtmpSender.checkAndSend, queue, RtmpSender.ready]⟩
      simp only [RtmpSender.checkAndSend, queue, ne_eq, not_true_eq_false, if_false]
      rfl
    · exact .inl (by simp [RtmpSender.checkAndSend, queue, send_sending])
  · simp only [screeningStep, Screening.written, pipeStep, Screening.pipe, many, written, if_false, true_or,
      and_self]

theorem screening_step_conn (s : Screening) :
    (s.conn.active = false → (screeningStep s .activate).conn = s.conn.activate s.stream) ∧
      ∀ ret, s.conn.context.ioVecList.length ≤ kIovMax → eraseNodes ret s.conn.context.ioVecList = [] →
        (screeningStep s (.writev ret)).conn = s.conn.writeComplete s.stream := by
  constructor
  · intro inactive
    simp [screeningStep, PlayerConn.activate, Screening.serve, inactive]
  · intro ret few written
    simp only [screeningStep, PlayerConn.writeComplete, if_neg (Nat.not_lt.mpr few), written, if_true]
    cases sent : { s.conn.context with ioVecList := [] }.checkAndSend with
    | mk ctx done =>
        cases done with
        | false => rfl
        | true => rfl

theorem screening_step_screened (s : Screening) (event : ScreeningEvent) (admitted : Admitted s event)
    (sound : Screened s) : Screened (screeningStep s event) := by
  obtain ⟨⟨built, carrying⟩, ⟨user, attached, shown⟩, few⟩ := sound
  cases event with
  | addPacket packet =>
      refine ⟨⟨built, carrying⟩, ⟨user, attached, add_packet_shown s.stream packet user _ admitted shown⟩, ?_⟩
      change (s.stream.addPacket packet).frameIndex < _
      rw [add_packet_frame_index]
      exact admitted
  | activate =>
      exact serve_screened { s with conn := { s.conn with active := true } } admitted
        ⟨⟨built, carrying⟩, ⟨user, attached, shown⟩, few⟩
  | pushOutQueue packet =>
      obtain ⟨built', still⟩ := carrying_push s.pipe built packet admitted carrying
      refine ⟨⟨built', ?_⟩, ⟨user, attached, ?_⟩, few⟩
      · rw [screeningStep, Screening.pipe, List.map_append]
        exact still
      · rw [screeningStep, frames_of_append]
        exact (List.append_nil (framesOf s.log)).symm ▸ shown
  | writev ret =>
      have written := written_screened s ret ⟨⟨built, carrying⟩, ⟨user, attached, shown⟩, few⟩
      rw [Admitted] at admitted
      rcases writev_step s ret with ⟨quiet, _⟩ | ⟨serves, _⟩
      · rw [quiet]
        exact written
      · rw [serves] at admitted ⊢
        exact serve_screened (s.written ret) admitted written
  | readFd n =>
      obtain ⟨built', still⟩ := carrying_read s.pipe built n admitted carrying
      rw [pipeStep] at still
      rw [screeningStep]
      by_cases none' : s.wire.take n = []
      · rw [if_pos none']
        exact ⟨⟨built, carrying⟩, ⟨user, attached, shown⟩, few⟩
      · rw [if_neg (show ¬ s.pipe.wire.take n = [] from none')] at still
        rw [if_neg none']
        exact ⟨⟨built', still⟩, ⟨user, attached, shown⟩, few⟩

def AdmittedRun (contentLatency : Int) (events : List ScreeningEvent) : Prop :=
  ∀ pair ∈ met screeningStep (.fresh contentLatency) events, Admitted pair.1 pair.2

instance (contentLatency : Int) (events : List ScreeningEvent) : Decidable (AdmittedRun contentLatency events) :=
  inferInstanceAs (Decidable (∀ pair ∈ met screeningStep (.fresh contentLatency) events, Admitted pair.1 pair.2))

theorem run_screened (contentLatency : Int) (events : List ScreeningEvent)
    (admitted : AdmittedRun contentLatency events) : Screened (run screeningStep (.fresh contentLatency) events) :=
  run_history (fun _ s => Screened s)
    (fun past event => Admitted (run screeningStep (.fresh contentLatency) past) event) (fresh_screened contentLatency)
    (fun _ event allowed sound => screening_step_screened _ event allowed sound) events
    fun past event rest cut => admitted (_, event) ((met_iff _ _ _ _).mpr ⟨past, rest, cut, rfl⟩)

theorem player_watches (contentLatency : Int) (events : List ScreeningEvent)
    (admitted : AdmittedRun contentLatency events)
    (followed : AllFollowed kRtmpBufferSize RtmpIn.fresh.inChunkSize
      (run screeningStep (.fresh contentLatency) events).pipe.submitted) :
    Delivers (run screeningStep (.fresh contentLatency) events).pipe ∧
      ((framesOf (run screeningStep (.fresh contentLatency) events).log).map Packet.index).Pairwise (· < ·) := by
  obtain ⟨⟨built, carrying⟩, ⟨user, _, shown⟩, _⟩ := run_screened contentLatency events admitted
  have order := shown.order
  rw [List.map_append] at order
  exact ⟨carrying_delivers _ built carrying followed, (List.pairwise_append.mp order).1⟩

def joinedEvents : List ScreeningEvent :=
  [.addPacket (videoMessage 0 [0x17, 0]), .addPacket (videoMessage 40 [0x27, 1]), .activate, .writev 14, .readFd 5,
    .writev 100, .readFd 100]

theorem player_watches_joined :
    (run screeningStep (.fresh 3000) joinedEvents).incoming.messages.map Packet.body =
        [[0x17, 0], [0x17, 0], [0x27, 1]] ∧
      ((framesOf (run screeningStep (.fresh 3000) joinedEvents).log).map Packet.index).Pairwise (· < ·) := by
  obtain ⟨⟨_, all⟩, order⟩ := player_watches 3000 joinedEvents (by decide +kernel) (by decide +kernel)
  refine ⟨?_, order⟩
  change (run screeningStep (.fresh 3000) joinedEvents).pipe.incoming.messages.map Packet.body = _
  rw [(all (by decide +kernel) (by decide +kernel)).1]
  decide +kernel

def CaughtUp (s : Screening) : Prop := ∀ last ∈ (framesOf s.log).getLast?, last.index = s.stream.frameIndex

def FallsAsleep (s : Screening) (event : ScreeningEvent) : Prop :=
  (s.conn.active = true ∨ event = .activate) ∧ (screeningStep s event).conn.active = false

theorem serve_sleeps (s : Screening) (sound : Screened s) (awake : s.conn.active = true)
    (asleep : (s.serve s.conn).conn.active = false) : CaughtUp (s.serve s.conn) := by
  obtain ⟨_, ⟨user, attached, shown⟩, few⟩ := sound
  rcases serve_cases s user attached with ⟨_, away⟩ | ⟨hasMedia, serves⟩
  · rw [away] at asleep
    cases awake.symm.trans asleep
  · rw [serves] at asleep ⊢
    obtain ⟨idle, nothing⟩ := post_pending_sleeps _ _ awake asleep
    rw [CaughtUp, nothing, List.append_nil]
    exact get_frames_newest s.stream user _ hasMedia shown idle

theorem step_sleeps (s : Screening) (event : ScreeningEvent) (sound : Screened s) (falls : FallsAsleep s event) :
    CaughtUp (screeningStep s event) := by
  obtain ⟨before, asleep⟩ := falls
  have still (same : (screeningStep s event).conn.active = s.conn.active) (other : event ≠ .activate) : False := by
    rcases before with awake | activates
    · cases awake.symm.trans (same.symm.trans asleep)
    · exact other activates
  cases event with
  | addPacket packet => exact (still rfl nofun).elim
  | activate =>
      exact serve_sleeps { s with conn := { s.conn with active := true } } ⟨sound.carried, sound.shown, sound.few⟩ rfl
        asleep
  | pushOutQueue packet => exact (still rfl nofun).elim
  | writev ret =>
      rcases writev_step s ret with ⟨quiet, _⟩ | ⟨serves, _⟩
      · rw [quiet] at still
        exact (still rfl nofun).elim
      · rw [serves] at asleep ⊢
        have awake : s.conn.active = true := before.resolve_right nofun
        exact serve_sleeps (s.written ret) (written_screened s ret sound) awake asleep
  | readFd n =>
      refine (still ?_ nofun).elim
      rw [screeningStep]
      split <;> rfl

end Lssvc.Live
