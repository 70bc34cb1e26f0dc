import Lssvc.Live.ViewerStream

set_option autoImplicit false

namespace Lssvc.Live

open Lssvc.Foundation Lssvc.Mmedia

theorem activates_false (stream : LiveStream) :
    stream.activates = false ↔ 300 ≤ stream.frameIndex ∧ stream.frameIndex % 5 ≠ 0 := by
  simp [LiveStream.activates]

theorem context_push_sending (ctx : RtmpSender) (messages : List OutMessage) (ready : ctx.ready = true) :
    (contextStep ctx (.pushFrames messages)).sending = true := by
  rw [contextStep, if_pos ready]
  exact send_sending _

theorem posted_nothing (user : PlayerUser) (ctx : RtmpSender) (ready : ctx.ready = true)
    (nothing : postedBy user ctx = []) : user.pending = false := by
  rw [postedBy, if_pos ready] at nothing
  split at nothing
  · cases nothing
  · cases nothing
  · cases nothing
  · rename_i metaNone audioNone videoNone
    have empty : user.outFrames = [] := by
      rw [← frames_of_frames user, nothing]
      rfl
    simp [PlayerUser.pending, metaNone, audioNone, videoNone, empty]

def Played (s : Screening) : Prop := framesOf s.log ≠ [] → s.stream.ready = true

theorem serve_catches_up (s : Screening) (sound : Screened s) (played : Played s)
    (ready : s.conn.context.ready = true) :
    (s.serve s.conn).conn.context.sending = true ∨ CaughtUp (s.serve s.conn) := by
  obtain ⟨_, ⟨user, attached, shown⟩, few⟩ := sound
  rcases serve_cases s user attached with ⟨unplayable, away⟩ | ⟨hasMedia, serves⟩
  · rw [away]
    refine .inr fun last newest => absurd ?_ unplayable
    have some' : framesOf s.log ≠ [] := List.ne_nil_of_mem (List.mem_of_getLast? newest)
    exact ⟨played some', shown.view.media (List.append_ne_nil_of_left_ne_nil some' _)⟩
  · rw [serves]
    rcases post_pending_cases (s.stream.getFrames user) s.conn with ⟨nothing, _, _⟩ |
      ⟨pkt, next, _, _, context, _⟩ | ⟨next, _, _, _, context, _⟩
    · rw [CaughtUp, nothing, List.append_nil]
      exact .inr (get_frames_newest s.stream user _ hasMedia shown (posted_nothing _ _ ready nothing))
    · rw [context]
      exact .inl (context_push_sending _ _ ready)
    · rw [context]
      exact .inl (context_push_sending _ _ ready)

theorem serve_played (s : Screening) (played : Played s) : Played (s.serve s.conn) := by
  intro shown
  change s.stream.ready = true
  change framesOf (s.log ++ s.conn.posts s.stream) ≠ [] at shown
  cases ready : s.stream.ready with
  | true => rfl
  | false =>
      have nothing : s.conn.posts s.stream = [] := by
        rw [PlayerConn.posts]
        split
        · rfl
        · simp [ready]
      rw [nothing, List.append_nil] at shown
      exact ready.symm.trans (played shown)

theorem played_step (s : Screening) (event : ScreeningEvent) (played : Played s) : Played (screeningStep s event) := by
  cases event with
  | addPacket packet => exact fun shown => add_packet_ready s.stream packet (played shown)
  | activate => exact serve_played { s with conn := { s.conn with active := true } } played
  | pushOutQueue packet =>
      intro shown
      apply played
      rw [screeningStep, frames_of_append] at shown
      exact (List.append_nil (framesOf s.log)) ▸ shown
  | writev ret =>
      rcases writev_step s ret with ⟨quiet, _⟩ | ⟨serves, _⟩
      · rw [quiet]
        exact played
      · rw [serves]
        exact serve_played (s.written ret) played
  | readFd n =>
      rw [screeningStep]
      split <;> exact played

-- A player that sleeps while nothing is being sent to it has missed no frame with
-- which addPacket wakes the players, the newest apart.
def NoWakeMissed (s : Screening) : Prop :=
  s.conn.active = false → s.conn.context.sending = false → ∀ last ∈ (framesOf s.log).getLast?,
    ∀ index, last.index < index → index < s.stream.frameIndex → 300 ≤ index ∧ index % 5 ≠ 0

theorem no_wake_missed_caught_up (s : Screening) (caught : CaughtUp s) : NoWakeMissed s := by
  intro _ _ last newest index later earlier
  have same := caught last newest
  omega

def WakeUpDue (s : Screening) : Prop := s.conn.active = false ∧ s.stream.activates = true ∧ ¬ CaughtUp s

instance (s : Screening) : Decidable (CaughtUp s) := inferInstanceAs (Decidable (∀ last ∈ _, _))

instance (s : Screening) : Decidable (WakeUpDue s) := inferInstanceAs (Decidable (_ ∧ _ ∧ ¬ CaughtUp s))

def Prompt (s : Screening) : ScreeningEvent → Prop
  | .addPacket _ => ¬ WakeUpDue s
  | _ => True

theorem no_wake_missed_add (s : Screening) (packet : Packet) (prompt : ¬ WakeUpDue s) (near : NoWakeMissed s) :
    NoWakeMissed (screeningStep s (.addPacket packet)) := by
  intro asleep idle last newest index later earlier
  change index < (s.stream.addPacket packet).frameIndex at earlier
  rw [add_packet_frame_index] at earlier
  by_cases before : index < s.stream.frameIndex
  · exact near asleep idle last newest index later before
  · have behind : ¬ CaughtUp s := by
      intro caught
      have same := caught last newest
      omega
    have quiet : s.stream.activates = false := by
      cases activates : s.stream.activates with
      | false => rfl
      | true => exact absurd ⟨asleep, activates, behind⟩ prompt
    rw [show index = s.stream.frameIndex by omega]
    exact (activates_false s.stream).mp quiet

theorem no_wake_missed_step (s : Screening) (event : ScreeningEvent) (sound : Screened s) (played : Played s)
    (prompt : Prompt s event) (near : NoWakeMissed s) : NoWakeMissed (screeningStep s event) := by
  cases event with
  | addPacket packet => exact no_wake_missed_add s packet prompt near
  | activate =>
      intro asleep
      exact no_wake_missed_caught_up _ (step_sleeps s .activate sound ⟨.inr rfl, asleep⟩) asleep
  | pushOutQueue packet =>
      intro _ idle
      cases (send_sending _).symm.trans idle
  | writev ret =>
      rcases writev_step s ret with ⟨quiet, same | busy⟩ | ⟨serves, ready⟩
      · rw [quiet]
        exact fun asleep idle => near asleep (same.symm.trans idle)
      · rw [quiet]
        intro _ idle
        cases busy.symm.trans idle
      · rw [serves]
        rcases serve_catches_up (s.written ret) (written_screened s ret sound) played ready with busy | caught
        · intro _ idle
          cases busy.symm.trans idle
        · exact no_wake_missed_caught_up _ caught
  | readFd n =>
      rw [screeningStep]
      split <;> exact near

instance (s : Screening) : (event : ScreeningEvent) → Decidable (Prompt s event)
  | .addPacket _ => inferInstanceAs (Decidable (¬ WakeUpDue s))
  | .activate | .pushOutQueue _ | .writev _ | .readFd _ => .isTrue trivial

def PromptRun (contentLatency : Int) (events : List ScreeningEvent) : Prop :=
  ∀ pair ∈ met screeningStep (.fresh contentLatency) events, Prompt pair.1 pair.2

instance (contentLatency : Int) (events : List ScreeningEvent) : Decidable (PromptRun contentLatency events) :=
  inferInstanceAs (Decidable (∀ pair ∈ met screeningStep (.fresh contentLatency) events, Prompt pair.1 pair.2))

theorem run_near (contentLatency : Int) (events : List ScreeningEvent) (admitted : AdmittedRun contentLatency events)
    (prompt : PromptRun contentLatency events) :
    Screened (run screeningStep (.fresh contentLatency) events) ∧
      Played (run screeningStep (.fresh contentLatency) events) ∧
      NoWakeMissed (run screeningStep (.fresh contentLatency) events) := by
  refine run_history (fun _ s => Screened s ∧ Played s ∧ NoWakeMissed s)
    (fun past event => Admitted (run screeningStep (.fresh contentLatency) past) event ∧
      Prompt (run screeningStep (.fresh contentLatency) past) event)
    ⟨fresh_screened contentLatency, fun shown => absurd rfl shown, fun _ _ _ none' => by cases none'⟩ ?_ events ?_
  · rintro _ event ⟨allowed, prompt⟩ ⟨sound, played, near⟩
    exact ⟨screening_step_screened _ event allowed sound, played_step _ event played,
      no_wake_missed_step _ event sound played prompt near⟩
  · intro past event rest cut
    have inside := (met_iff screeningStep (.fresh contentLatency) events (_, event)).mpr ⟨past, rest, cut, rfl⟩
    exact ⟨admitted _ inside, prompt _ inside⟩

end Lssvc.Live
