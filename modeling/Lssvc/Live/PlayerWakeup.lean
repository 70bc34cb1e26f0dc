import Lssvc.Foundation.Runs
import Lssvc.Live.Broadcast
import Lssvc.Live.StreamRing

set_option autoImplicit false

namespace Lssvc.Live

open Lssvc.Foundation Lssvc.Mmedia

def LiveStream.Playable (stream : LiveStream) : Prop := stream.ready = true ∧ stream.hasMedia = true

def PlayerConn.Wakeable (conn : PlayerConn) : Prop := conn.context.Idle → conn.active = false

def NoneForgotten (b : Broadcast) : Prop := ∀ conn, (b.conns conn).Wakeable

theorem sending_wakeable (conn : PlayerConn) (sending : conn.context.sending = true) : conn.Wakeable := fun idle =>
  absurd idle (sending_not_idle conn.context sending)

theorem push_frame_sending (user : PlayerUser) (ctx : RtmpSender) (pkt : Packet) (isHeader : Bool) :
    (pushFrame user ctx pkt isHeader).2.1.sending = true := by
  by_cases ready : ctx.ready = true
  · rw [pushFrame, if_pos ready]
    exact send_sending _
  · rw [pushFrame, if_neg ready]
    simpa [RtmpSender.ready] using ready

theorem push_frames_sending (user : PlayerUser) (ctx : RtmpSender) (list : List Packet) :
    (pushFrames user ctx list).2.1.sending = true := by
  by_cases ready : ctx.ready = true
  · rw [pushFrames, if_pos ready]
    exact send_sending _
  · rw [pushFrames, if_neg ready]
    simpa [RtmpSender.ready] using ready

theorem post_pending_served (user : PlayerUser) (conn : PlayerConn) :
    (postPending user conn).user ≠ none ∧
      ((postPending user conn).active = false ∨ (postPending user conn).context.sending = true) := by
  rw [postPending]
  split
  · exact ⟨Option.some_ne_none _, .inr (push_frame_sending _ _ _ _)⟩
  · exact ⟨Option.some_ne_none _, .inr (push_frame_sending _ _ _ _)⟩
  · exact ⟨Option.some_ne_none _, .inr (push_frame_sending _ _ _ _)⟩
  · by_cases frames : user.outFrames ≠ []
    · rw [if_pos frames]
      exact ⟨Option.some_ne_none _, .inr (push_frames_sending _ _ _)⟩
    · rw [if_neg frames]
      exact ⟨Option.some_ne_none _, .inl rfl⟩

theorem post_frames_unplayable (stream : LiveStream) (user : PlayerUser) (conn : PlayerConn)
    (unplayable : ¬ stream.Playable) : postFrames stream user conn = conn := by
  rw [postFrames, if_pos]
  rw [LiveStream.Playable, not_and_or] at unplayable
  simpa using unplayable

theorem post_frames_playable (stream : LiveStream) (user : PlayerUser) (conn : PlayerConn)
    (playable : stream.Playable) :
    (postFrames stream user conn).user ≠ none ∧ (postFrames stream user conn).Wakeable := by
  obtain ⟨attached, served⟩ := post_pending_served (stream.getFrames user) conn
  rw [postFrames, if_neg (by simp [playable.1, playable.2])]
  rcases served with asleep | sending
  · exact ⟨attached, fun _ => asleep⟩
  · exact ⟨attached, sending_wakeable _ sending⟩

structure ConnSound (stream : LiveStream) (conn : PlayerConn) : Prop where
  detached : conn.user = none → conn.active = false
  waiting : conn.user ≠ none → ¬ stream.Playable → conn.active = true

theorem playable_sound (stream : LiveStream) (conn : PlayerConn) (playable : stream.Playable)
    (attached : conn.user ≠ none) : ConnSound stream conn :=
  ⟨fun none => absurd none attached, fun _ unplayable => absurd playable unplayable⟩

theorem on_active_playable (stream : LiveStream) (conn : PlayerConn) (playable : stream.Playable)
    (attached : conn.user ≠ none) : (onActive stream conn).user ≠ none ∧ (onActive stream conn).Wakeable := by
  cases known : conn.user with
  | none => exact absurd known attached
  | some user =>
      rw [onActive, known]
      exact post_frames_playable stream user conn playable

theorem on_active_unplayable (stream : LiveStream) (conn : PlayerConn) (unplayable : ¬ stream.Playable) :
    onActive stream conn = conn := by
  cases known : conn.user with
  | none => rw [onActive, known]
  | some user =>
      rw [onActive, known]
      exact post_frames_unplayable stream user conn unplayable

theorem activate_sound (stream : LiveStream) (conn : PlayerConn) (attached : conn.user ≠ none)
    (sound : ConnSound stream conn) :
    (conn.activate stream).user ≠ none ∧ ConnSound stream (conn.activate stream) ∧
      (conn.Wakeable → (conn.activate stream).Wakeable) := by
  by_cases awake : conn.active = true
  · rw [PlayerConn.activate, if_pos awake]
    exact ⟨attached, sound, id⟩
  · have playable : stream.Playable := by
      by_contra unplayable
      exact awake (sound.waiting attached unplayable)
    obtain ⟨kept, wakeable⟩ := on_active_playable stream { conn with active := true } playable attached
    rw [PlayerConn.activate, if_neg awake]
    exact ⟨kept, playable_sound stream _ playable kept, fun _ => wakeable⟩

theorem join_sound (stream : LiveStream) (conn : PlayerConn) (user : PlayerUser) :
    ({ conn with user := some user }.activate stream).user ≠ none ∧
      ConnSound stream ({ conn with user := some user }.activate stream) ∧
      (conn.Wakeable →
        (({ conn with user := some user }.activate stream).Wakeable ↔ stream.Playable ∨ ¬ conn.context.Idle)) := by
  have attached : ({ conn with user := some user } : PlayerConn).user ≠ none := Option.some_ne_none user
  by_cases awake : conn.active = true
  · rw [PlayerConn.activate, if_pos awake]
    refine ⟨attached, ⟨fun none => absurd none attached, fun _ _ => awake⟩, fun wakeable => ?_⟩
    have busy : ¬ conn.context.Idle := fun idle => absurd (wakeable idle) (by simp [awake])
    exact ⟨fun _ => .inr busy, fun _ idle => absurd idle busy⟩
  · rw [PlayerConn.activate, if_neg awake]
    by_cases playable : stream.Playable
    · obtain ⟨kept, served⟩ := on_active_playable stream
        { conn with active := true, user := some user } playable (Option.some_ne_none user)
      exact ⟨kept, playable_sound stream _ playable kept, fun _ => ⟨fun _ => .inl playable, fun _ => served⟩⟩
    · rw [on_active_unplayable stream _ playable]
      refine ⟨attached, ⟨fun none => absurd none attached, fun _ _ => rfl⟩, fun _ => ?_⟩
      exact ⟨fun wakeable => .inr fun idle => absurd (wakeable idle) (by simp),
        fun either idle => absurd idle (either.resolve_left playable)⟩

theorem write_complete_sound (stream : LiveStream) (conn : PlayerConn) (sound : ConnSound stream conn) :
    (conn.user ≠ none → (conn.writeComplete stream).user ≠ none) ∧ ConnSound stream (conn.writeComplete stream) ∧
      ((conn.writeComplete stream).Wakeable ↔
        stream.Playable ∨ conn.user = none ∨ conn.context.outWaitingQueue ≠ []) := by
  by_cases queued : conn.context.outWaitingQueue ≠ []
  · obtain ⟨sending, quiet⟩ := check_and_send_queued { conn.context with ioVecList := [] } queued
    have completed : conn.writeComplete stream =
        { conn with context := { conn.context with ioVecList := [] }.checkAndSend.1 } := by
      rw [PlayerConn.writeComplete]
      split
      · rename_i same
        rw [same]
      · rename_i same
        rw [same] at quiet
        cases quiet
    rw [completed]
    exact ⟨id, ⟨sound.detached, sound.waiting⟩, fun _ => .inr (.inr queued), fun _ => sending_wakeable _ sending⟩
  · obtain ⟨free, empty, written, calls⟩ :=
      check_and_send_empty { conn.context with ioVecList := [] } (not_not.mp queued)
    let done := { conn with context := { conn.context with ioVecList := [] }.checkAndSend.1 }
    have completed : conn.writeComplete stream = onActive stream done := by
      rw [PlayerConn.writeComplete]
      split
      · rename_i same
        rw [same] at calls
        cases calls
      · rename_i same
        simp only [done, same]
    have idle : done.context.Idle := ⟨free, empty, written⟩
    rw [completed]
    by_cases playable : stream.Playable
    · by_cases attached : conn.user = none
      · have unchanged : onActive stream done = done := by rw [onActive, show done.user = none from attached]
        rw [unchanged]
        exact ⟨id, ⟨sound.detached, sound.waiting⟩, fun _ => .inl playable, fun _ _ => sound.detached attached⟩
      · obtain ⟨kept, wakeable⟩ := on_active_playable stream done playable attached
        exact ⟨fun _ => kept, playable_sound stream _ playable kept, fun _ => .inl playable, fun _ => wakeable⟩
    · rw [on_active_unplayable stream done playable]
      refine ⟨id, ⟨sound.detached, sound.waiting⟩, fun wakeable => ?_, fun either _ => ?_⟩
      · have asleep : conn.active = false := wakeable idle
        by_contra neither
        rw [not_or, not_or] at neither
        exact absurd (asleep.symm.trans (sound.waiting neither.2.1 playable)) Bool.false_ne_true
      · exact sound.detached ((either.resolve_left playable).resolve_right queued)

structure BroadcastSound (b : Broadcast) : Prop where
  conns : ∀ conn, ConnSound b.stream (b.conns conn)
  players : ∀ conn ∈ b.players, (b.conns conn).user ≠ none

theorem update_sound (b : Broadcast) (conn : Nat) (next : PlayerConn) (sound : BroadcastSound b)
    (connSound : ConnSound b.stream next) (attached : (b.conns conn).user ≠ none → next.user ≠ none) :
    BroadcastSound { b with conns := Function.update b.conns conn next } := by
  refine ⟨fun other => ?_, fun other member => ?_⟩
  · by_cases same : other = conn
    · subst same
      simpa using connSound
    · simpa [Function.update_of_ne same] using sound.conns other
  · by_cases same : other = conn
    · subst same
      simpa using attached (sound.players other member)
    · simpa [Function.update_of_ne same] using sound.players other member

theorem update_none_forgotten (b : Broadcast) (conn : Nat) (next : PlayerConn) (kept : NoneForgotten b) :
    NoneForgotten { b with conns := Function.update b.conns conn next } ↔ next.Wakeable := by
  constructor
  · intro all
    simpa using all conn
  · intro wakeable other
    by_cases same : other = conn
    · subst same
      simpa using wakeable
    · simpa [Function.update_of_ne same] using kept other

theorem active_all_sound (list : List Nat) (b : Broadcast) (sound : BroadcastSound b)
    (members : ∀ conn ∈ list, conn ∈ b.players) :
    BroadcastSound (list.foldl Broadcast.activate b) ∧
      (NoneForgotten b → NoneForgotten (list.foldl Broadcast.activate b)) := by
  induction list generalizing b with
  | nil => exact ⟨sound, id⟩
  | cons conn list ih =>
      obtain ⟨attached, connSound, wakeable⟩ := activate_sound b.stream (b.conns conn)
        (sound.players conn (members conn List.mem_cons_self)) (sound.conns conn)
      have next := update_sound b conn _ sound connSound fun _ => attached
      obtain ⟨after, keeps⟩ := ih (b.activate conn) next fun other later => members other (List.mem_cons_of_mem _ later)
      refine ⟨after, fun kept => keeps ?_⟩
      exact (update_none_forgotten b conn _ kept).mpr (wakeable (kept conn))

def NotEarly (b : Broadcast) : BroadcastEvent → Prop
  | .onPlay conn _ => b.stream.Playable ∨ ¬ (b.conns conn).context.Idle
  | .writeComplete conn =>
      (b.conns conn).context.ioVecList = [] ∨ b.stream.Playable ∨ (b.conns conn).user = none ∨
        (b.conns conn).context.outWaitingQueue ≠ []
  | _ => True

theorem on_play_joined (b : Broadcast) (conn : Nat) (contentLatency : Int) :
    broadcastStep b (.onPlay conn contentLatency) =
      { b with
        players := b.players ++ [conn]
        conns := Function.update b.conns conn
          ({ b.conns conn with user := some { contentLatency := contentLatency } }.activate b.stream) } := by
  simp only [broadcastStep, Broadcast.activate, Function.update_self, Function.update_idem]

theorem add_packet_conn_sound (stream : LiveStream) (conn : PlayerConn) (packet : Packet)
    (sound : ConnSound stream conn) : ConnSound (stream.addPacket packet) conn :=
  ⟨sound.detached, fun attached unplayable => sound.waiting attached fun playable =>
    unplayable ⟨add_packet_ready stream packet playable.1, add_packet_has_media stream packet playable.2⟩⟩

theorem broadcast_step_sound (b : Broadcast) (event : BroadcastEvent) (sound : BroadcastSound b) :
    BroadcastSound (broadcastStep b event) ∧
      (NoneForgotten b → (NoneForgotten (broadcastStep b event) ↔ NotEarly b event)) := by
  cases event with
  | onPlay conn contentLatency =>
      obtain ⟨attached, connSound, wakeable⟩ := join_sound b.stream (b.conns conn) { contentLatency := contentLatency }
      rw [on_play_joined]
      have served := update_sound b conn _ sound connSound fun _ => attached
      refine ⟨⟨served.conns, fun other member => ?_⟩, fun kept => ?_⟩
      · rcases List.mem_append.mp member with earlier | new
        · exact served.players other earlier
        · rw [List.mem_singleton.mp new]
          simpa using attached
      · exact (update_none_forgotten b conn _ kept).trans (wakeable (kept conn))
  | addPacket packet =>
      have added : BroadcastSound { b with stream := b.stream.addPacket packet } :=
        ⟨fun conn => add_packet_conn_sound b.stream (b.conns conn) packet (sound.conns conn), sound.players⟩
      rw [broadcastStep]
      dsimp only
      split
      · obtain ⟨after, keeps⟩ := active_all_sound b.players _ added fun _ member => member
        exact ⟨after, fun kept => ⟨fun _ => trivial, fun _ => keeps kept⟩⟩
      · exact ⟨added, fun kept => ⟨fun _ => trivial, fun _ => kept⟩⟩
  | pushOutQueue conn packet =>
      have busy := sending_wakeable { b.conns conn with context := (b.conns conn).context.pushOutQueue packet }
        (push_out_queue_sending _ _)
      have queued : ConnSound b.stream { b.conns conn with context := (b.conns conn).context.pushOutQueue packet } :=
        ⟨(sound.conns conn).detached, (sound.conns conn).waiting⟩
      refine ⟨update_sound b conn _ sound queued id, fun kept => ?_⟩
      exact ⟨fun _ => trivial, fun _ => (update_none_forgotten b conn _ kept).mpr busy⟩
  | writeComplete conn =>
      rw [broadcastStep]
      by_cases written : (b.conns conn).context.ioVecList = []
      · rw [if_pos written]
        exact ⟨sound, fun kept => ⟨fun _ => .inl written, fun _ => kept⟩⟩
      · rw [if_neg written]
        obtain ⟨attached, connSound, wakeable⟩ := write_complete_sound b.stream (b.conns conn) (sound.conns conn)
        refine ⟨update_sound b conn _ sound connSound attached, fun kept => ?_⟩
        rw [update_none_forgotten b conn _ kept, wakeable, NotEarly]
        exact ⟨.inr, fun either => either.resolve_left written⟩

theorem fresh_broadcast_sound : BroadcastSound {} where
  conns := fun _ => ⟨fun _ => rfl, fun attached => absurd rfl attached⟩
  players := fun _ impossible => absurd impossible List.not_mem_nil

theorem broadcast_run_sound (events : List BroadcastEvent) : BroadcastSound (run broadcastStep {} events) :=
  run_invariant (fun b event sound => (broadcast_step_sound b event sound).1) _ fresh_broadcast_sound events

theorem none_forgotten_iff (events : List BroadcastEvent) :
    (∀ past rest, events = past ++ rest → NoneForgotten (run broadcastStep {} past)) ↔
      ∀ pair ∈ met broadcastStep {} events, NotEarly pair.1 pair.2 := by
  refine run_throughout_iff NoneForgotten NotEarly (fun _ _ => rfl) ?_ events
  intro past event kept
  exact (broadcast_step_sound _ event (broadcast_run_sound past)).2 kept

def reply : Packet :=
  { capacity := 64, body := [0, 0, 0, 0, 0, 1], ext := some { csId := 2, msgLen := 6, msgType := 4 } }

-- The player joins before the stream can be played, and its two replies go out.
theorem early_player_forgotten :
    ¬ NoneForgotten (run broadcastStep {}
      [.pushOutQueue 0 reply, .pushOutQueue 0 reply, .onPlay 0 3000, .writeComplete 0, .writeComplete 0]) := by
  intro kept
  exact absurd (kept 0 (by decide +kernel)) (by decide +kernel)

end Lssvc.Live
