import Lssvc.Live.CorrectedTimes
import Lssvc.Live.JoinHeaders

set_option autoImplicit false

namespace Lssvc.Live

open Lssvc.Foundation Lssvc.Mmedia

def LiveStream.callsSkipFrame (stream : LiveStream) (user : PlayerUser) : Bool :=
  stream.hasMedia && !user.pending && user.outIndex ≥ 0 && stream.needSkip user

theorem get_frames_calls (stream : LiveStream) (user : PlayerUser) (served : 0 ≤ user.outIndex) :
    stream.getFrames user =
      if ¬ stream.hasMedia || user.pending then user
      else stream.getNextFrame (if stream.callsSkipFrame user then stream.skipFrame user else user) := by
  rw [LiveStream.getFrames]
  by_cases waits : (¬ stream.hasMedia || user.pending) = true
  · rw [if_pos waits, if_pos waits]
  · have idle : stream.hasMedia = true ∧ user.pending = false := by simpa using waits
    have calls : stream.callsSkipFrame user = stream.needSkip user := by
      simp [LiveStream.callsSkipFrame, idle.1, idle.2, served]
    rw [if_neg waits, if_neg waits, if_pos served, calls]

-- A stream and one of its players, with the packets as addPacket has left them
-- and those that getFrames has handed to the player.
structure Watching where
  stream : LiveStream := {}
  added : List Packet := []
  user : PlayerUser
  delivered : List Packet := []

def Watching.fresh (contentLatency : Int) : Watching := { user := { contentLatency := contentLatency } }

-- postFrames clears what it has passed on, one kind at a time.
inductive WatchEvent where
  | addPacket (packet : Packet)
  | getFrames
  | clearMeta
  | clearAudioHeader
  | clearVideoHeader
  | clearFrames
deriving DecidableEq, Repr

def watchStep (w : Watching) : WatchEvent → Watching
  | .addPacket packet => { w with stream := w.stream.addPacket packet, added := w.added ++ [w.stream.stamp packet] }
  | .getFrames =>
      let user := w.stream.getFrames w.user
      { w with user := user, delivered := w.delivered ++ user.outFrames.drop w.user.outFrames.length }
  | .clearMeta => { w with user := { w.user with metaPacket := none } }
  | .clearAudioHeader => { w with user := { w.user with audioHeader := none } }
  | .clearVideoHeader => { w with user := { w.user with videoHeader := none } }
  | .clearFrames => { w with user := { w.user with outFrames := [] } }

def Watching.behind (w : Watching) : Int :=
  match w.added.getLast?, w.delivered.getLast? with
  | some newest, some last => (newest.timestamp : Int) - last.timestamp
  | _, _ => 0

def Watching.lastStamp (w : Watching) : Nat := (w.delivered.getLast?.map Packet.timestamp).getD 0

def Watching.ReallyLags (w : Watching) : Prop :=
  w.user.outIndex < w.stream.frameIndex - packetBufferSize ∨ w.behind > 2 * w.user.contentLatency

instance (w : Watching) : Decidable w.ReallyLags := inferInstanceAs (Decidable (_ ∨ _))

-- out_frame_timestamp_ is signed: a timestamp from 2^31 on is taken for one
-- 2^32 ms earlier.
def Watching.DecidesRightly (w : Watching) : Prop :=
  if w.user.pending = true then ¬ w.ReallyLags
  else w.ReallyLags ∨ w.lastStamp < 2147483648 ∨ w.behind + 4294967296 ≤ 2 * w.user.contentLatency

theorem small_time (pkt : Packet) (small : pkt.timestamp < 4294967296) : pkt.getTimestamp = pkt.timestamp := by
  rw [Packet.getTimestamp, toInt64]
  omega

theorem stamp_small (stream : LiveStream) (packet : Packet) : (stream.stamp packet).timestamp < 4294967296 := by
  have small := correct_timestamp_lt stream.timeCorrector packet
  rw [LiveStream.stamp]
  dsimp only
  split <;> exact small

theorem add_packet_latest (stream : LiveStream) (packet : Packet) :
    (stream.addPacket packet).gopMgr.lastestTimestamp = (stream.stamp packet).getTimestamp := by
  have framed : (stream.gopMgr.addFrame (stream.stamp packet)).lastestTimestamp = (stream.stamp packet).getTimestamp := by
    rw [GopMgr.addFrame]
    dsimp only
    split <;> rfl
  rw [add_packet_gop_mgr]
  split <;> exact framed

theorem skip_frame_time (stream : LiveStream) (user : PlayerUser) :
    (stream.skipFrame user).outFrameTimestamp = user.outFrameTimestamp := by
  have metaKept (index : Int) (user : PlayerUser) :
      (stream.skipMeta index user).outFrameTimestamp = user.outFrameTimestamp := by
    rw [LiveStream.skipMeta]
    repeat' split
    all_goals rfl
  have audioKept (index : Int) (user : PlayerUser) :
      (stream.skipAudio index user).outFrameTimestamp = user.outFrameTimestamp := by
    rw [LiveStream.skipAudio]
    repeat' split
    all_goals rfl
  have videoKept (index : Int) (user : PlayerUser) :
      (stream.skipVideo index user).outFrameTimestamp = user.outFrameTimestamp := by
    rw [LiveStream.skipVideo]
    repeat' split
    all_goals rfl
  rw [LiveStream.skipFrame]
  dsimp only
  split
  · rfl
  · dsimp only
    rw [videoKept, audioKept, metaKept]

structure Handed (stream : LiveStream) (before after : PlayerUser) (given : List Packet) : Prop where
  frames : after.outFrames = before.outFrames ++ given
  time : after.outFrameTimestamp =
    (given.getLast?.map fun pkt => toInt32 pkt.getTimestamp).getD before.outFrameTimestamp
  stored : ∀ pkt ∈ given, ∃ slot, stream.packetBuffer slot = some pkt

theorem last_noted (note : Packet → Int) (pkt : Packet) (given : List Packet) (before : Int) :
    ((pkt :: given).getLast?.map note).getD before = (given.getLast?.map note).getD (note pkt) := by
  rw [List.getLast?_cons]
  cases given.getLast? <;> rfl

theorem handed_nothing (stream : LiveStream) (user : PlayerUser) : Handed stream user user [] :=
  ⟨(List.append_nil _).symm, rfl, fun _ impossible => absurd impossible List.not_mem_nil⟩

theorem next_frames_handed (stream : LiveStream) (turns : Nat) (index : Int) (user : PlayerUser) :
    ∃ given, Handed stream user (stream.nextFrames turns index user) given := by
  induction turns generalizing index user with
  | zero => exact ⟨[], handed_nothing stream user⟩
  | succ turns ih =>
      rw [LiveStream.nextFrames]
      split
      · exact ⟨[], handed_nothing stream user⟩
      · split
        · exact ⟨[], handed_nothing stream user⟩
        · rename_i pkt found
          obtain ⟨given, frames, time, stored⟩ := ih (pkt.index + 1)
            { user with
              outFrames := user.outFrames ++ [pkt]
              outIndex := pkt.index
              outFrameTimestamp := toInt32 pkt.getTimestamp }
          dsimp only at frames time
          refine ⟨pkt :: given, ?_, ?_, ?_⟩
          · rw [frames, List.append_assoc]
            rfl
          · rw [time]
            exact (last_noted (fun pkt => toInt32 pkt.getTimestamp) pkt given user.outFrameTimestamp).symm
          · intro other inGiven
            rcases List.mem_cons.mp inGiven with rfl | later
            · exact ⟨_, found⟩
            · exact stored other later

theorem handed_moved (stream : LiveStream) (user moved after : PlayerUser) (given : List Packet)
    (handed : Handed stream moved after given) (frames : moved.outFrames = user.outFrames)
    (time : given = [] → moved.outFrameTimestamp = user.outFrameTimestamp) : Handed stream user after given := by
  refine ⟨by rw [handed.frames, frames], ?_, handed.stored⟩
  rw [handed.time]
  cases last : given.getLast? with
  | none => exact time (List.getLast?_eq_none_iff.mp last)
  | some pkt => rfl

theorem get_frames_started_handed (stream : LiveStream) (user : PlayerUser) (sound : RingSound stream)
    (hasMedia : stream.hasMedia = true) (idle : user.pending = false) (served : 0 ≤ user.outIndex) :
    ∃ given, Handed stream user (stream.getFrames user) given ∧
      (given = [] ∧ (stream.getFrames user).outIndex = user.outIndex ∨
        given ≠ [] ∧ 0 ≤ (stream.getFrames user).outIndex) := by
  obtain ⟨added, run, all, place⟩ := get_frames_started stream user sound hasMedia idle served
  have handed : ∃ given, Handed stream user (stream.getFrames user) given := by
    rw [LiveStream.getFrames, if_neg (by simp [hasMedia, idle]), if_pos served]
    split
    · obtain ⟨given, handed⟩ := next_frames_handed stream 10 ((stream.skipFrame user).outIndex + 1) (stream.skipFrame user)
      refine ⟨given, handed_moved stream user _ _ given handed ?_ fun _ => skip_frame_time stream user⟩
      by_cases declined : stream.Declines user
      · rw [skip_frame_declined stream user declined]
      · exact (skip_frame_moved stream user declined).1
    · exact next_frames_handed stream 10 (user.outIndex + 1) user
  obtain ⟨given, handed⟩ := handed
  have same : given = added := by
    have frames := handed.frames
    rw [all, pending_frames user idle] at frames
    exact frames.symm
  rw [same] at handed
  refine ⟨added, handed, ?_⟩
  rw [place]
  cases last : added.getLast? with
  | none => exact .inl ⟨List.getLast?_eq_none_iff.mp last, rfl⟩
  | some pkt =>
      have inAdded := List.mem_of_getLast? last
      exact .inr ⟨List.ne_nil_of_mem inAdded, (run.inside pkt inAdded).1⟩

theorem get_frames_joined (packets : List Packet) (stream : LiveStream) (contentLatency : Int) (sound : RingSound stream)
    (headers : HeadersSound packets stream) (hasMedia : stream.hasMedia = true) :
    stream.getFrames { contentLatency := contentLatency } = { contentLatency := contentLatency } ∨
      ∃ given, Handed stream { contentLatency := contentLatency }
          (stream.getFrames { contentLatency := contentLatency }) given ∧
        given ≠ [] ∧ 0 ≤ (stream.getFrames { contentLatency := contentLatency }).outIndex := by
  obtain ⟨waits, finds⟩ := locate_gop_sound packets stream headers contentLatency _ rfl
  have idle : PlayerUser.pending { contentLatency := contentLatency } = false := rfl
  rw [LiveStream.getFrames, if_neg (by simp [hasMedia, idle]),
    if_neg (show ¬ (-1 : Int) ≥ 0 by decide)]
  rcases gop_by_latency_listed stream.gopMgr contentLatency with nothing | ⟨gop, listed, same⟩
  · rw [waits nothing]
    exact .inl rfl
  · obtain ⟨low, high, _⟩ := sound.gops gop listed
    obtain ⟨located, place, _⟩ := finds (by omega)
    have frames := (locate_gop_out stream { contentLatency := contentLatency }).1
    cases result : stream.locateGop { contentLatency := contentLatency } with
    | mk success moved =>
        rw [result] at located place frames
        dsimp only at located place frames
        rw [located]
        obtain ⟨added, run, all, last⟩ := get_frames_from stream moved gop.index sound frames low (by omega)
        obtain ⟨given, handed⟩ := next_frames_handed stream 10 (moved.outIndex + 1) moved
        have delivers : added ≠ [] := fun nothing => by
          have := run.stops.mp nothing
          omega
        have same : given = added := by
          have delivered := handed.frames
          rw [frames] at delivered
          exact delivered.symm.trans all
        rw [same] at handed
        refine .inr ⟨added, handed_moved stream _ moved _ added handed frames fun nothing => absurd nothing delivers,
          delivers, ?_⟩
        dsimp only
        rw [last]
        cases final : added.getLast? with
        | none => exact absurd (List.getLast?_eq_none_iff.mp final) delivers
        | some pkt => exact (run.inside pkt (List.mem_of_getLast? final)).1

structure WatchSound (contentLatency : Int) (w : Watching) : Prop where
  made : ∃ packets, w.stream = run LiveStream.addPacket {} packets ∧ w.added = keptPackets packets
  ring : RingSound w.stream
  stored : ∀ slot pkt, w.stream.packetBuffer slot = some pkt → pkt.timestamp < 4294967296
  newest : ∀ pkt ∈ w.added.getLast?, w.stream.gopMgr.lastestTimestamp = pkt.timestamp
  low : -1 ≤ w.user.outIndex
  joins : w.user.outIndex = -1 → w.user = { contentLatency := contentLatency }
  served : 0 ≤ w.user.outIndex → w.stream.hasMedia = true ∧ ∃ last ∈ w.delivered.getLast?,
    last.timestamp < 4294967296 ∧ w.user.outFrameTimestamp = toInt32 last.timestamp

theorem fresh_watch_sound (contentLatency : Int) : WatchSound contentLatency (.fresh contentLatency) where
  made := ⟨[], rfl, rfl⟩
  ring := fresh_ring_sound
  stored := fun _ _ impossible => by cases impossible
  newest := fun _ impossible => by cases impossible
  low := Int.le_refl _
  joins := fun _ => rfl
  served := fun impossible => absurd impossible (show ¬ (0 : Int) ≤ -1 by decide)

theorem watch_add_packet (contentLatency : Int) (w : Watching) (packet : Packet)
    (few : w.stream.frameIndex + 1 < 2147483648) (sound : WatchSound contentLatency w) :
    WatchSound contentLatency (watchStep w (.addPacket packet)) := by
  obtain ⟨⟨packets, made, kept⟩, ring, stored, newest, low, joins, served⟩ := sound
  refine ⟨⟨packets ++ [packet], ?_, ?_⟩, add_packet_sound w.stream packet few ring, ?_, ?_, low, joins, ?_⟩
  · rw [run_snoc, ← made]
    rfl
  · rw [kept_packets_snoc, ← made, ← kept]
    rfl
  · intro slot pkt found
    rw [watchStep] at found
    dsimp only at found
    rw [add_packet_buffer] at found
    by_cases last : slot = LiveStream.slot (w.stream.frameIndex + 1)
    · rw [last, Function.update_self] at found
      cases found
      exact stamp_small w.stream packet
    · rw [Function.update_of_ne last] at found
      exact stored slot pkt found
  · intro pkt isLast
    rw [watchStep] at isLast ⊢
    dsimp only at isLast ⊢
    rw [List.getLast?_concat] at isLast
    cases isLast
    rw [add_packet_latest, small_time _ (stamp_small w.stream packet)]
  · intro positive
    obtain ⟨hasMedia, last⟩ := served positive
    exact ⟨add_packet_has_media w.stream packet hasMedia, last⟩

theorem watch_get_frames (contentLatency : Int) (w : Watching) (sound : WatchSound contentLatency w) :
    WatchSound contentLatency (watchStep w .getFrames) := by
  obtain ⟨⟨packets, made, kept⟩, ring, stored, newest, low, joins, served⟩ := sound
  -- getFrames has nothing to hand over.
  have unchanged (same : w.stream.getFrames w.user = w.user) : watchStep w .getFrames = w := by
    rw [watchStep, same, List.drop_length, List.append_nil]
  by_cases waits : (¬ w.stream.hasMedia || w.user.pending) = true
  · rw [unchanged (by rw [LiveStream.getFrames, if_pos waits])]
    exact ⟨⟨packets, made, kept⟩, ring, stored, newest, low, joins, served⟩
  · have idle : w.stream.hasMedia = true ∧ w.user.pending = false := by simpa using waits
    have handed : w.stream.getFrames w.user = w.user ∨
        ∃ given, Handed w.stream w.user (w.stream.getFrames w.user) given ∧
          (given = [] ∧ (w.stream.getFrames w.user).outIndex = w.user.outIndex ∧ 0 ≤ w.user.outIndex ∨
            given ≠ [] ∧ 0 ≤ (w.stream.getFrames w.user).outIndex) := by
      by_cases positive : 0 ≤ w.user.outIndex
      · obtain ⟨given, handed, nothing | some⟩ :=
          get_frames_started_handed w.stream w.user ring idle.1 idle.2 positive
        · exact .inr ⟨given, handed, .inl ⟨nothing.1, nothing.2, positive⟩⟩
        · exact .inr ⟨given, handed, .inr some⟩
      · rw [joins (by omega)]
        rcases get_frames_joined packets w.stream contentLatency ring (made ▸ headers_sound packets) idle.1 with
          same | ⟨given, handed, some⟩
        · exact .inl same
        · exact .inr ⟨given, handed, .inr some⟩
    rcases handed with same | ⟨given, handed, outcome⟩
    · rw [unchanged same]
      exact ⟨⟨packets, made, kept⟩, ring, stored, newest, low, joins, served⟩
    · have delivered : (watchStep w .getFrames).delivered = w.delivered ++ given := by
        rw [watchStep]
        dsimp only
        rw [handed.frames, List.drop_left]
      have positive : 0 ≤ (w.stream.getFrames w.user).outIndex := by
        rcases outcome with ⟨_, same, positive⟩ | ⟨_, positive⟩
        · omega
        · exact positive
      refine ⟨⟨packets, made, kept⟩, ring, stored, newest, by exact Int.le_trans (by decide) positive,
        fun impossible => absurd positive (by rw [show (w.stream.getFrames w.user).outIndex = -1 from impossible]; decide),
        fun _ => ⟨idle.1, ?_⟩⟩
      rw [delivered]
      change ∃ last ∈ (w.delivered ++ given).getLast?, last.timestamp < 4294967296 ∧
        (w.stream.getFrames w.user).outFrameTimestamp = toInt32 last.timestamp
      rw [handed.time, List.getLast?_append]
      rcases outcome with ⟨nothing, _, before⟩ | ⟨some, _⟩
      · rw [nothing]
        exact (served before).2
      · obtain ⟨last, isLast⟩ := Option.isSome_iff_exists.mp (List.getLast?_isSome.mpr some)
        obtain ⟨slot, found⟩ := handed.stored last (List.mem_of_getLast? isLast)
        have small := stored slot last found
        rw [isLast]
        refine ⟨last, rfl, small, ?_⟩
        rw [Option.map_some, Option.getD_some, small_time last small]

theorem watch_clear (contentLatency : Int) (w : Watching) (user : PlayerUser) (place : user.outIndex = w.user.outIndex)
    (time : user.outFrameTimestamp = w.user.outFrameTimestamp)
    (joined : w.user = { contentLatency := contentLatency } → user = { contentLatency := contentLatency })
    (sound : WatchSound contentLatency w) : WatchSound contentLatency { w with user := user } := by
  obtain ⟨made, ring, stored, newest, low, joins, served⟩ := sound
  refine ⟨made, ring, stored, newest, ?_, ?_, ?_⟩
  · exact place ▸ low
  · exact fun first => joined (joins (place ▸ first))
  · intro positive
    rw [time]
    exact served (place ▸ positive)

def WatchEvent.adds : WatchEvent → Bool
  | .addPacket _ => true
  | _ => false

theorem watch_frame_index (contentLatency : Int) (events : List WatchEvent) :
    (run watchStep (.fresh contentLatency) events).stream.frameIndex = events.countP WatchEvent.adds - 1 := by
  induction events using List.reverseRecOn with
  | nil => rfl
  | append_singleton past event ih =>
      rw [run_snoc, List.countP_append, List.countP_singleton]
      cases event with
      | addPacket packet =>
          rw [watchStep]
          dsimp only
          rw [add_packet_frame_index, ih]
          simp only [WatchEvent.adds, if_true]
          omega
      | getFrames => simpa [watchStep, WatchEvent.adds] using ih
      | clearMeta => simpa [watchStep, WatchEvent.adds] using ih
      | clearAudioHeader => simpa [watchStep, WatchEvent.adds] using ih
      | clearVideoHeader => simpa [watchStep, WatchEvent.adds] using ih
      | clearFrames => simpa [watchStep, WatchEvent.adds] using ih

theorem watch_run_sound (contentLatency : Int) (events : List WatchEvent)
    (few : events.countP WatchEvent.adds < 2147483648) :
    WatchSound contentLatency (run watchStep (.fresh contentLatency) events) := by
  refine run_history (fun past w => past.countP WatchEvent.adds < 2147483648 → WatchSound contentLatency w)
    (fun _ _ => True) (fun _ => fresh_watch_sound contentLatency) ?_ events (fun _ _ _ _ => trivial) few
  intro past event _ before fewAfter
  have index := watch_frame_index contentLatency past
  rw [List.countP_append, List.countP_singleton] at fewAfter
  have sound := before (by omega)
  cases event with
  | addPacket packet =>
      refine watch_add_packet contentLatency _ packet ?_ sound
      simp only [WatchEvent.adds, if_true] at fewAfter
      omega
  | getFrames => exact watch_get_frames contentLatency _ sound
  | clearMeta => exact watch_clear contentLatency _ _ rfl rfl (fun joined => by rw [joined]) sound
  | clearAudioHeader => exact watch_clear contentLatency _ _ rfl rfl (fun joined => by rw [joined]) sound
  | clearVideoHeader => exact watch_clear contentLatency _ _ rfl rfl (fun joined => by rw [joined]) sound
  | clearFrames => exact watch_clear contentLatency _ _ rfl rfl (fun joined => by rw [joined]) sound

theorem added_of_media (contentLatency : Int) (w : Watching) (sound : WatchSound contentLatency w)
    (hasMedia : w.stream.hasMedia = true) : ∃ newest, w.added.getLast? = some newest := by
  obtain ⟨packets, made, kept⟩ := sound.made
  refine Option.isSome_iff_exists.mp (List.getLast?_isSome.mpr fun nothing => ?_)
  cases packets with
  | nil =>
      rw [made] at hasMedia
      cases hasMedia
  | cons first rest =>
      rw [kept] at nothing
      cases nothing

theorem signed_lag_iff (newest last latency : Int) (low : 0 ≤ last) (high : last < 4294967296) :
    (newest - toInt32 last > latency ↔ newest - last > latency) ↔
      newest - last > latency ∨ last < 2147483648 ∨ newest - last + 4294967296 ≤ latency := by
  by_cases small : last < 2147483648
  · rw [to_int32_exact last ⟨by omega, small⟩]
    exact ⟨fun _ => .inr (.inl small), fun _ => Iff.rfl⟩
  · have wrapped : toInt32 last = last - 4294967296 := by
      rw [toInt32]
      omega
    rw [wrapped]
    omega

theorem skip_frame_latency (stream : LiveStream) (user : PlayerUser) :
    (stream.skipFrame user).contentLatency = user.contentLatency := by
  have metaKept (index : Int) (user : PlayerUser) : (stream.skipMeta index user).contentLatency = user.contentLatency := by
    rw [LiveStream.skipMeta]
    repeat' split
    all_goals rfl
  have audioKept (index : Int) (user : PlayerUser) : (stream.skipAudio index user).contentLatency = user.contentLatency := by
    rw [LiveStream.skipAudio]
    repeat' split
    all_goals rfl
  have videoKept (index : Int) (user : PlayerUser) : (stream.skipVideo index user).contentLatency = user.contentLatency := by
    rw [LiveStream.skipVideo]
    repeat' split
    all_goals rfl
  rw [LiveStream.skipFrame]
  dsimp only
  split
  · rfl
  · dsimp only
    rw [videoKept, audioKept, metaKept]

theorem locate_gop_latency (stream : LiveStream) (user : PlayerUser) :
    (stream.locateGop user).2.contentLatency = user.contentLatency := by
  have metaKept (index : Int) (user : PlayerUser) : (stream.locateMeta index user).contentLatency = user.contentLatency := by
    rw [LiveStream.locateMeta]
    dsimp only
    split <;> rfl
  have audioKept (index : Int) (user : PlayerUser) : (stream.locateAudio index user).contentLatency = user.contentLatency := by
    rw [LiveStream.locateAudio]
    dsimp only
    split <;> rfl
  have videoKept (index : Int) (user : PlayerUser) : (stream.locateVideo index user).contentLatency = user.contentLatency := by
    rw [LiveStream.locateVideo]
    dsimp only
    split <;> rfl
  rw [LiveStream.locateGop]
  dsimp only
  split
  · rfl
  · split <;> dsimp only <;> rw [videoKept, audioKept, metaKept]

theorem next_frames_latency (stream : LiveStream) (turns : Nat) (index : Int) (user : PlayerUser) :
    (stream.nextFrames turns index user).contentLatency = user.contentLatency := by
  induction turns generalizing index user with
  | zero => rfl
  | succ turns ih =>
      rw [LiveStream.nextFrames]
      split
      · rfl
      · split
        · rfl
        · exact ih _ _

theorem get_frames_latency (stream : LiveStream) (user : PlayerUser) :
    (stream.getFrames user).contentLatency = user.contentLatency := by
  rw [LiveStream.getFrames]
  split
  · rfl
  · split
    · rw [LiveStream.getNextFrame, next_frames_latency]
      split
      · exact skip_frame_latency stream user
      · rfl
    · have located := locate_gop_latency stream user
      split
      · rename_i moved found
        rw [found] at located
        rw [LiveStream.getNextFrame, next_frames_latency]
        exact located
      · rename_i moved found
        rw [found] at located
        exact located

theorem watch_latency (contentLatency : Int) (events : List WatchEvent) :
    (run watchStep (.fresh contentLatency) events).user.contentLatency = contentLatency := by
  induction events using List.reverseRecOn with
  | nil => rfl
  | append_singleton past event ih =>
      rw [run_snoc]
      cases event with
      | getFrames => exact (get_frames_latency _ _).trans ih
      | _ => exact ih

theorem skip_on_lag_iff (contentLatency : Int) (doubled : InInt32 (2 * contentLatency)) (events : List WatchEvent)
    (few : events.countP WatchEvent.adds < 2147483648)
    (served : 0 ≤ (run watchStep (.fresh contentLatency) events).user.outIndex) :
    ((run watchStep (.fresh contentLatency) events).stream.callsSkipFrame
        (run watchStep (.fresh contentLatency) events).user = true ↔
      (run watchStep (.fresh contentLatency) events).ReallyLags) ↔
      (run watchStep (.fresh contentLatency) events).DecidesRightly := by
  have sound := watch_run_sound contentLatency events few
  have index := watch_frame_index contentLatency events
  have latency := watch_latency contentLatency events
  generalize run watchStep (.fresh contentLatency) events = w at served sound index latency ⊢
  rw [← latency] at doubled
  obtain ⟨hasMedia, last, isLast, small, time⟩ := sound.served served
  obtain ⟨newest, isNewest⟩ := added_of_media contentLatency w sound hasMedia
  have latest := sound.newest newest isNewest
  rw [Watching.DecidesRightly, LiveStream.callsSkipFrame, hasMedia]
  by_cases waits : w.user.pending = true
  · simp [waits]
  · have idle : w.user.pending = false := by simpa using waits
    have lags := lagging_iff w.stream w.user sound.ring.begun (by omega)
    have signed := signed_lag_iff newest.timestamp last.timestamp (2 * w.user.contentLatency) (by omega) (by omega)
    have behind : w.behind = newest.timestamp - last.timestamp := by
      rw [Watching.behind, isNewest, Option.mem_def.mp isLast]
    have stamp : w.lastStamp = last.timestamp := by
      rw [Watching.lastStamp, Option.mem_def.mp isLast]
      rfl
    rw [if_neg waits, idle, Watching.ReallyLags, behind, stamp, LiveStream.needSkip, latest, time,
      to_int32_exact _ doubled]
    simp only [Bool.not_false, Bool.and_self, Bool.true_and, Bool.and_eq_true, Bool.or_eq_true, decide_eq_true_iff, ge_iff_le,
      served, true_and, lags]
    by_cases late : w.user.outIndex < w.stream.frameIndex - packetBufferSize
    · simp [late]
    · simp only [late, false_or]
      rw [signed]
      omega

def keyFrameAt (timestamp : Nat) : Packet :=
  { type := kPacketTypeVideo, timestamp := timestamp, capacity := 2, body := [0x17, 1] }

def playedTo (timestamp : Nat) : List WatchEvent :=
  [.addPacket videoHeader, .addPacket (keyFrameAt timestamp), .getFrames, .clearVideoHeader, .clearFrames]

theorem skip_on_lag_played :
    InInt32 (2 * 3000) ∧ (playedTo 1000).countP WatchEvent.adds < 2147483648 ∧
      0 ≤ (run watchStep (.fresh 3000) (playedTo 1000)).user.outIndex ∧
      (((run watchStep (.fresh 3000) (playedTo 1000)).stream.callsSkipFrame
          (run watchStep (.fresh 3000) (playedTo 1000)).user = true ↔
        (run watchStep (.fresh 3000) (playedTo 1000)).ReallyLags) ↔
        (run watchStep (.fresh 3000) (playedTo 1000)).DecidesRightly) :=
  ⟨⟨by decide, by decide⟩, by decide, by decide,
    skip_on_lag_iff 3000 ⟨by decide, by decide⟩ (playedTo 1000) (by decide) (by decide)⟩

theorem skip_without_lag :
    ¬ ∀ (contentLatency : Int) (events : List WatchEvent), InInt32 (2 * contentLatency) →
      events.countP WatchEvent.adds < 2147483648 → 0 ≤ (run watchStep (.fresh contentLatency) events).user.outIndex →
        ((run watchStep (.fresh contentLatency) events).stream.callsSkipFrame
            (run watchStep (.fresh contentLatency) events).user = true ↔
          (run watchStep (.fresh contentLatency) events).ReallyLags) := by
  intro claim
  have skips := claim 3000 (playedTo 2147483648) ⟨by decide, by decide⟩ (by decide) (by decide)
  exact absurd (skips.mp (by decide)) (by decide)

end Lssvc.Live
