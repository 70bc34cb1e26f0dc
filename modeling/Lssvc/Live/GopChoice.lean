import Lssvc.Live.LagDecision
import Mathlib.Data.List.TakeWhile

set_option autoImplicit false

namespace Lssvc.Live

open Lssvc.Foundation Lssvc.Mmedia

-- The timestamp of every other packet is replaced by 0.
def MediaFrame (pkt : Packet) : Bool := (correctionRule pkt).isSome

structure MediaInOrder (packets : List Packet) : Prop where
  order : (packets.filter MediaFrame).Pairwise fun earlier later => earlier.timestamp ≤ later.timestamp
  small : ∀ pkt ∈ packets, MediaFrame pkt = true → pkt.timestamp < 2147483648

-- Where a corrector stands that has seen no media packet later than `top`: no
-- clock runs ahead of its packets, nor the video clock ahead of the audio.
structure ClockBehind (top : Int) (corrector : TimeCorrector) : Prop where
  numbers : InInt32 corrector.audioNumbersBetweenVideo
  video : corrector.videoOriginalTimestamp = -1 ∨
    (0 ≤ corrector.videoCorrectedTimestamp ∧
      corrector.videoCorrectedTimestamp ≤ corrector.videoOriginalTimestamp ∧ corrector.videoOriginalTimestamp ≤ top)
  audio : corrector.audioOriginalTimestamp = -1 ∨
    (0 ≤ corrector.audioCorrectedTimestamp ∧
      corrector.audioCorrectedTimestamp ≤ corrector.audioOriginalTimestamp ∧ corrector.audioOriginalTimestamp ≤ top)
  follows : 1 ≤ corrector.audioNumbersBetweenVideo → corrector.videoOriginalTimestamp ≠ -1 →
    corrector.audioOriginalTimestamp ≠ -1 ∧ corrector.videoCorrectedTimestamp ≤ corrector.audioCorrectedTimestamp

theorem clock_behind_later (top time : Int) (corrector : TimeCorrector) (behind : ClockBehind top corrector)
    (later : top ≤ time) : ClockBehind time corrector := by
  refine ⟨behind.numbers, ?_, ?_, behind.follows⟩
  · rcases behind.video with unseen | ⟨low, high, seen⟩
    · exact .inl unseen
    · exact .inr ⟨low, high, Int.le_trans seen later⟩
  · rcases behind.audio with unseen | ⟨low, high, seen⟩
    · exact .inl unseen
    · exact .inr ⟨low, high, Int.le_trans seen later⟩

theorem fine_delta_short (delta most default : Int) (positive : 0 ≤ delta) (low : 0 ≤ default) (high : default ≤ most) :
    0 ≤ fineDelta delta most default ∧ fineDelta delta most default ≤ delta := by
  rw [fineDelta]
  split <;> omega

theorem first_video_behind (top time : Int) (corrector : TimeCorrector) (behind : ClockBehind top corrector)
    (later : top ≤ time) (positive : 0 ≤ time) :
    0 ≤ (corrector.firstVideo time).videoCorrectedTimestamp ∧
      (corrector.firstVideo time).videoCorrectedTimestamp ≤ (corrector.firstVideo time).videoOriginalTimestamp ∧
      (corrector.firstVideo time).videoOriginalTimestamp ≤ time ∧
      (corrector.videoOriginalTimestamp ≠ -1 → corrector.firstVideo time = corrector) := by
  rw [TimeCorrector.firstVideo]
  by_cases unseen : corrector.videoOriginalTimestamp = -1
  · rw [if_pos unseen]
    dsimp only
    split
    · rename_i apart
      obtain ⟨low, high, seen⟩ := behind.audio.resolve_left apart.1
      exact ⟨low, high, by exact Int.le_trans seen later, fun impossible => absurd unseen impossible⟩
    · exact ⟨positive, Int.le_refl _, Int.le_refl _, fun impossible => absurd unseen impossible⟩
  · rw [if_neg unseen]
    obtain ⟨low, high, seen⟩ := behind.video.resolve_left unseen
    exact ⟨low, high, Int.le_trans seen later, fun _ => rfl⟩

structure Stamped (time : Int) (corrector next : TimeCorrector) (stamp : Nat) : Prop where
  behind : ClockBehind time next
  low : corrector.videoOriginalTimestamp ≠ -1 → corrector.videoCorrectedTimestamp ≤ stamp
  high : (stamp : Int) ≤ time

theorem video_stamped (top time : Int) (corrector : TimeCorrector) (pkt : Packet) (behind : ClockBehind top corrector)
    (later : top ≤ time) (positive : 0 ≤ time) (small : time < 2147483648) (same : pkt.getTimestamp = time) :
    Stamped time corrector (corrector.correctVideoTimestampByVideo pkt).1 (corrector.correctVideoTimestampByVideo pkt).2 ∧
      (corrector.correctVideoTimestampByVideo pkt).1.videoOriginalTimestamp ≠ -1 ∧
      (corrector.correctVideoTimestampByVideo pkt).1.videoCorrectedTimestamp =
        (corrector.correctVideoTimestampByVideo pkt).2 := by
  rw [TimeCorrector.correctVideoTimestampByVideo, same]
  have reset : ClockBehind top { corrector with audioNumbersBetweenVideo := 0 } :=
    ⟨in_int32_zero, behind.video, behind.audio, fun impossible => absurd impossible (show ¬ (1 : Int) ≤ 0 by decide)⟩
  obtain ⟨original, corrected⟩ := first_video_audio { corrector with audioNumbersBetweenVideo := 0 } time
  have numbers := first_video_numbers { corrector with audioNumbersBetweenVideo := 0 } time
  obtain ⟨low, high, seen, kept⟩ := first_video_behind top time _ reset later positive
  dsimp only at original corrected numbers kept ⊢
  generalize { corrector with audioNumbersBetweenVideo := 0 }.firstVideo time = first
    at original corrected numbers low high seen kept ⊢
  obtain ⟨short, long⟩ := fine_delta_short (time - first.videoOriginalTimestamp) kMaxVideoDeltaTime
    kDefaultVideoDeltaTime (by omega) (by decide) (by decide)
  generalize fineDelta (time - first.videoOriginalTimestamp) kMaxVideoDeltaTime kDefaultVideoDeltaTime = delta
    at short long ⊢
  have unclamped : max (first.videoCorrectedTimestamp + delta) 0 = first.videoCorrectedTimestamp + delta := by omega
  rw [unclamped]
  have exact := to_uint32_exact (first.videoCorrectedTimestamp + delta) (by omega) (by omega)
  refine ⟨⟨⟨?_, .inr ⟨?_, ?_, Int.le_refl _⟩, ?_, ?_⟩, ?_, by omega⟩, ?_, exact.symm⟩
  · dsimp only
    rw [numbers]
    exact in_int32_zero
  · dsimp only
    omega
  · dsimp only
    omega
  · dsimp only
    rw [original, corrected]
    exact (clock_behind_later top time corrector behind later).audio
  · intro impossible
    dsimp only at impossible
    omega
  · intro begun
    have clock : first.videoCorrectedTimestamp = corrector.videoCorrectedTimestamp := by rw [kept begun]
    omega
  · omega

theorem audio_by_audio_stamped (top time : Int) (corrector : TimeCorrector) (pkt : Packet)
    (behind : ClockBehind top corrector) (numbers : 1 ≤ corrector.audioNumbersBetweenVideo) (later : top ≤ time)
    (positive : 0 ≤ time) (small : time < 2147483648) (same : pkt.getTimestamp = time) :
    Stamped time corrector (corrector.correctAudioTimestampByAudio pkt).1 (corrector.correctAudioTimestampByAudio pkt).2 ∧
      (corrector.correctAudioTimestampByAudio pkt).1.videoOriginalTimestamp = corrector.videoOriginalTimestamp ∧
      (corrector.correctAudioTimestampByAudio pkt).1.videoCorrectedTimestamp = corrector.videoCorrectedTimestamp := by
  rw [TimeCorrector.correctAudioTimestampByAudio, same]
  dsimp only
  have video := (clock_behind_later top time corrector behind later).video
  by_cases first : corrector.audioOriginalTimestamp = -1
  · rw [if_pos first]
    have exact := to_uint32_exact time positive (by omega)
    refine ⟨⟨⟨behind.numbers, video, .inr ⟨positive, Int.le_refl _, Int.le_refl _⟩, ?_⟩, ?_, by omega⟩, rfl, rfl⟩
    · intro _ begun
      exact absurd first (behind.follows numbers begun).1
    · intro begun
      exact absurd first (behind.follows numbers begun).1
  · rw [if_neg first]
    obtain ⟨low, high, seen⟩ := behind.audio.resolve_left first
    obtain ⟨short, long⟩ := fine_delta_short (time - corrector.audioOriginalTimestamp) kMaxAudioDeltaTime
      kDefaultAudioDeltaTime (by omega) (by decide) (by decide)
    generalize fineDelta (time - corrector.audioOriginalTimestamp) kMaxAudioDeltaTime kDefaultAudioDeltaTime = delta
      at short long ⊢
    have unclamped : max (corrector.audioCorrectedTimestamp + delta) 0 = corrector.audioCorrectedTimestamp + delta := by
      omega
    rw [unclamped]
    have exact := to_uint32_exact (corrector.audioCorrectedTimestamp + delta) (by omega) (by omega)
    refine ⟨⟨⟨behind.numbers, video, .inr ⟨?_, ?_, Int.le_refl _⟩, ?_⟩, ?_, by omega⟩, rfl, rfl⟩
    · dsimp only
      omega
    · dsimp only
      omega
    · intro _ begun
      have before := (behind.follows numbers begun).2
      dsimp only
      exact ⟨by omega, by omega⟩
    · intro begun
      have before := (behind.follows numbers begun).2
      omega

theorem audio_stamped (top time : Int) (corrector : TimeCorrector) (pkt : Packet) (behind : ClockBehind top corrector)
    (later : top ≤ time) (positive : 0 ≤ time) (small : time < 2147483648) (same : pkt.getTimestamp = time) :
    Stamped time corrector (corrector.correctAudioTimestampByVideo pkt).1 (corrector.correctAudioTimestampByVideo pkt).2 ∧
      (corrector.correctAudioTimestampByVideo pkt).1.videoOriginalTimestamp = corrector.videoOriginalTimestamp ∧
      (corrector.correctAudioTimestampByVideo pkt).1.videoCorrectedTimestamp = corrector.videoCorrectedTimestamp := by
  rw [TimeCorrector.correctAudioTimestampByVideo]
  dsimp only
  have video := (clock_behind_later top time corrector behind later).video
  have counted := to_int32_range (corrector.audioNumbersBetweenVideo + 1)
  -- A counter that wraps around places the packet on the video clock again.
  have uncounted : toInt32 (corrector.audioNumbersBetweenVideo + 1) > 1 → 1 ≤ corrector.audioNumbersBetweenVideo := by
    obtain ⟨low, high⟩ := behind.numbers
    rw [toInt32]
    omega
  by_cases more : toInt32 (corrector.audioNumbersBetweenVideo + 1) > 1
  · rw [if_pos more]
    obtain ⟨⟨next, low, high⟩, original, corrected⟩ := audio_by_audio_stamped top time
      { corrector with audioNumbersBetweenVideo := toInt32 (corrector.audioNumbersBetweenVideo + 1) } pkt
      ⟨counted, behind.video, behind.audio, fun _ => behind.follows (uncounted more)⟩ (Int.le_of_lt more) later positive
      small same
    exact ⟨⟨next, low, high⟩, original, corrected⟩
  · rw [if_neg more, same]
    by_cases unseen : corrector.videoOriginalTimestamp = -1
    · rw [if_pos unseen]
      have exact := to_uint32_exact time positive (by omega)
      exact ⟨⟨⟨counted, video, .inr ⟨positive, Int.le_refl _, Int.le_refl _⟩, fun _ begun => absurd unseen begun⟩,
        fun begun => absurd unseen begun, by omega⟩, rfl, rfl⟩
    · rw [if_neg unseen]
      obtain ⟨low, high, seen⟩ := behind.video.resolve_left unseen
      obtain ⟨short, long⟩ := fine_delta_short (time - corrector.videoOriginalTimestamp) kMaxVideoDeltaTime
        kDefaultVideoDeltaTime (by omega) (by decide) (by decide)
      generalize fineDelta (time - corrector.videoOriginalTimestamp) kMaxVideoDeltaTime kDefaultVideoDeltaTime = delta
        at short long ⊢
      have unclamped : max (corrector.videoCorrectedTimestamp + delta) 0 = corrector.videoCorrectedTimestamp + delta := by
        omega
      rw [unclamped]
      have exact := to_uint32_exact (corrector.videoCorrectedTimestamp + delta) (by omega) (by omega)
      refine ⟨⟨⟨counted, video, .inr ⟨?_, ?_, Int.le_refl _⟩, ?_⟩, fun _ => by omega, by omega⟩, rfl, rfl⟩
      · dsimp only
        omega
      · dsimp only
        omega
      · intro _ _
        dsimp only
        exact ⟨by omega, by omega⟩

theorem add_packet_corrector (stream : LiveStream) (packet : Packet) :
    (stream.addPacket packet).timeCorrector = (stream.timeCorrector.correctTimestamp packet).1 := by
  have noted (stream : LiveStream) (pkt : Packet) : (stream.noteHeader pkt).timeCorrector = stream.timeCorrector := by
    rw [LiveStream.noteHeader]
    dsimp only
    split_ifs <;> rfl
  have begun : (stream.beginAdd packet).timeCorrector = (stream.timeCorrector.correctTimestamp packet).1 := by
    rw [LiveStream.beginAdd]
    split_ifs
    · rw [noted]
      rfl
    · rw [noted]
    · rfl
    · rfl
  rw [LiveStream.addPacket]
  dsimp only
  split <;> exact begun

theorem add_packet_sublist (stream : LiveStream) (packet : Packet) :
    (stream.addPacket packet).gopMgr.gops.Sublist
      (if (stream.stamp packet).isKeyFrame = true then
        stream.gopMgr.gops ++ [⟨(stream.stamp packet).index, (stream.stamp packet).getTimestamp⟩]
      else stream.gopMgr.gops) := by
  rw [add_packet_gop_mgr, ← add_frame_gops]
  split
  · exact List.filter_sublist
  · exact List.Sublist.refl _

theorem stamp_timestamp (stream : LiveStream) (packet : Packet) :
    (stream.stamp packet).timestamp = (stream.timeCorrector.correctTimestamp packet).2 := by
  rw [LiveStream.stamp]
  dsimp only
  split <;> rfl

def lastTime (packets : List Packet) : Int :=
  ((packets.filter MediaFrame).getLast?.map fun pkt => (pkt.timestamp : Int)).getD 0

theorem last_time_snoc (packets : List Packet) (packet : Packet) :
    lastTime (packets ++ [packet]) = if MediaFrame packet = true then (packet.timestamp : Int) else lastTime packets := by
  rw [lastTime, List.filter_append, List.filter_singleton]
  cases MediaFrame packet with
  | false => simp [lastTime]
  | true => simp

theorem media_in_order_snoc (packets : List Packet) (packet : Packet) (inOrder : MediaInOrder (packets ++ [packet])) :
    MediaInOrder packets ∧ (MediaFrame packet = true →
      lastTime packets ≤ packet.timestamp ∧ packet.timestamp < 2147483648) := by
  obtain ⟨order, small⟩ := inOrder
  rw [List.filter_append] at order
  obtain ⟨before, _, across⟩ := List.pairwise_append.mp order
  refine ⟨⟨before, fun pkt inList => small pkt (List.mem_append_left _ inList)⟩, fun media => ⟨?_, ?_⟩⟩
  · rw [lastTime]
    cases last : (packets.filter MediaFrame).getLast? with
    | none => exact Int.natCast_nonneg _
    | some pkt =>
        have upTo := across pkt (List.mem_of_getLast? last) packet (List.mem_filter.mpr ⟨List.mem_singleton_self _, media⟩)
        exact Int.ofNat_le.mpr upTo
  · exact small packet (List.mem_append_right _ (List.mem_singleton_self _)) media

theorem last_time_range (packets : List Packet) (inOrder : MediaInOrder packets) :
    0 ≤ lastTime packets ∧ lastTime packets < 2147483648 := by
  rw [lastTime]
  cases last : (packets.filter MediaFrame).getLast? with
  | none => exact ⟨Int.le_refl _, by decide⟩
  | some pkt =>
      obtain ⟨inList, media⟩ := List.mem_filter.mp (List.mem_of_getLast? last)
      have small := inOrder.small pkt inList media
      simp only [Option.map_some, Option.getD_some]
      omega

structure TimesSound (packets : List Packet) (stream : LiveStream) : Prop where
  clock : ClockBehind (lastTime packets) stream.timeCorrector
  gops : ∀ gop ∈ stream.gopMgr.gops, gop.timestamp = 0 ∨ (stream.timeCorrector.videoOriginalTimestamp ≠ -1 ∧
    0 ≤ gop.timestamp ∧ gop.timestamp ≤ stream.timeCorrector.videoCorrectedTimestamp)
  order : stream.gopMgr.gops.Pairwise fun earlier later => later.timestamp = 0 ∨ earlier.timestamp ≤ later.timestamp
  latest : stream.gopMgr.lastestTimestamp = 0 ∨ (0 ≤ stream.gopMgr.lastestTimestamp ∧
    stream.gopMgr.lastestTimestamp ≤ lastTime packets ∧
      ∀ gop ∈ stream.gopMgr.gops, gop.timestamp ≤ stream.gopMgr.lastestTimestamp)

theorem add_packet_listed (stream : LiveStream) (packet : Packet) (gop : GopItemInfo)
    (listed : gop ∈ (stream.addPacket packet).gopMgr.gops) :
    gop ∈ stream.gopMgr.gops ∨
      ((stream.stamp packet).isKeyFrame = true ∧ gop.timestamp = (stream.stamp packet).timestamp) := by
  have inList := (add_packet_sublist stream packet).subset listed
  by_cases key : (stream.stamp packet).isKeyFrame = true
  · rw [if_pos key] at inList
    rcases List.mem_append.mp inList with earlier | last
    · exact .inl earlier
    · rw [List.mem_singleton.mp last]
      exact .inr ⟨key, small_time _ (stamp_small stream packet)⟩
  · rw [if_neg key] at inList
    exact .inl inList

theorem add_packet_times_order (stream : LiveStream) (packet : Packet)
    (order : stream.gopMgr.gops.Pairwise fun earlier later =>
      later.timestamp = 0 ∨ earlier.timestamp ≤ later.timestamp)
    (ahead : (stream.stamp packet).isKeyFrame = true → (stream.stamp packet).timestamp = 0 ∨
      ∀ gop ∈ stream.gopMgr.gops, gop.timestamp ≤ (stream.stamp packet).timestamp) :
    (stream.addPacket packet).gopMgr.gops.Pairwise fun earlier later =>
      later.timestamp = 0 ∨ earlier.timestamp ≤ later.timestamp := by
  refine List.Pairwise.sublist (add_packet_sublist stream packet) ?_
  by_cases key : (stream.stamp packet).isKeyFrame = true
  · rw [if_pos key, small_time _ (stamp_small stream packet)]
    refine List.pairwise_append.mpr ⟨order, List.pairwise_singleton _ _, fun gop listed newest last => ?_⟩
    rw [List.mem_singleton.mp last]
    exact (ahead key).imp (fun zero => congrArg Nat.cast zero) fun every => every gop listed
  · rw [if_neg key]
    exact order

theorem audio_no_key_frame (stream : LiveStream) (packet : Packet) (audio : packet.type = kPacketTypeAudio) :
    (stream.stamp packet).isKeyFrame = false := by
  rw [← Bool.not_eq_true, stamp_key_frame, StartsGop, Packet.isKeyFrame, Packet.isVideo, audio]
  rintro (flagged | ⟨video, _⟩)
  · revert flagged
    decide
  · revert video
    decide

theorem replaced_times_sound (packets : List Packet) (stream : LiveStream) (packet : Packet)
    (replaced : MediaFrame packet = false) (sound : TimesSound packets stream) :
    TimesSound (packets ++ [packet]) (stream.addPacket packet) := by
  obtain ⟨clock, gops, order, latest⟩ := sound
  have rule : correctionRule packet = none := by simpa [MediaFrame] using replaced
  have same : stream.timeCorrector.correctTimestamp packet = (stream.timeCorrector, 0) := by
    rw [correct_timestamp_rule, rule]
  have zero : (stream.stamp packet).timestamp = 0 := by rw [stamp_timestamp, same]
  have corrector : (stream.addPacket packet).timeCorrector = stream.timeCorrector := by
    rw [add_packet_corrector, same]
  have last : lastTime (packets ++ [packet]) = lastTime packets := by
    rw [last_time_snoc, if_neg (by simp [replaced])]
  refine ⟨by rw [last, corrector]; exact clock, ?_, add_packet_times_order stream packet order fun _ => .inl zero, .inl ?_⟩
  · intro gop listed
    rw [corrector]
    rcases add_packet_listed stream packet gop listed with earlier | ⟨_, now⟩
    · exact gops gop earlier
    · exact .inl (now.trans (by rw [zero]; rfl))
  · rw [add_packet_latest, small_time _ (stamp_small stream packet), zero]
    rfl

theorem media_times_sound (packets : List Packet) (stream : LiveStream) (packet : Packet) (rule : CorrectionRule)
    (chosen : correctionRule packet = some rule) (later : lastTime packets ≤ packet.timestamp)
    (small : packet.timestamp < 2147483648) (sound : TimesSound packets stream) :
    TimesSound (packets ++ [packet]) (stream.addPacket packet) := by
  obtain ⟨clock, gops, order, latest⟩ := sound
  have time : packet.getTimestamp = packet.timestamp := small_time packet (by omega)
  have corrected : stream.timeCorrector.correctTimestamp packet = rule.correct stream.timeCorrector packet := by
    rw [correct_timestamp_rule, chosen]
  have stamp : (stream.stamp packet).timestamp = (rule.correct stream.timeCorrector packet).2 := by
    rw [stamp_timestamp, corrected]
  have corrector : (stream.addPacket packet).timeCorrector = (rule.correct stream.timeCorrector packet).1 := by
    rw [add_packet_corrector, corrected]
  have newest : (stream.addPacket packet).gopMgr.lastestTimestamp = (rule.correct stream.timeCorrector packet).2 := by
    rw [add_packet_latest, small_time _ (stamp_small stream packet), stamp]
  have last : lastTime (packets ++ [packet]) = packet.timestamp := by
    rw [last_time_snoc, if_pos (by simp [MediaFrame, chosen])]
  -- Every GOP listed before is behind the new timestamp.
  have behind (stamped : Stamped packet.timestamp stream.timeCorrector (rule.correct stream.timeCorrector packet).1
      (rule.correct stream.timeCorrector packet).2) (gop : GopItemInfo) (listed : gop ∈ stream.gopMgr.gops) :
      gop.timestamp ≤ (rule.correct stream.timeCorrector packet).2 := by
    rcases gops gop listed with zero | ⟨begun, _, high⟩
    · rw [zero]
      exact Int.natCast_nonneg _
    · exact Int.le_trans high (stamped.low begun)
  cases rule with
  | videoByVideo =>
      obtain ⟨stamped, begun, clockNow⟩ := video_stamped (lastTime packets) packet.timestamp stream.timeCorrector packet clock
        later (Int.natCast_nonneg _) (by omega) time
      have before := behind stamped
      refine ⟨by rw [last, corrector]; exact stamped.behind, fun gop listed => ?_, ?_, .inr ⟨?_, ?_, fun gop listed => ?_⟩⟩
      · rw [corrector]
        change gop.timestamp = 0 ∨
          ((stream.timeCorrector.correctVideoTimestampByVideo packet).1.videoOriginalTimestamp ≠ -1 ∧
            0 ≤ gop.timestamp ∧
            gop.timestamp ≤ (stream.timeCorrector.correctVideoTimestampByVideo packet).1.videoCorrectedTimestamp)
        rw [clockNow]
        rcases add_packet_listed stream packet gop listed with earlier | ⟨_, now⟩
        · rcases gops gop earlier with zero | ⟨_, low, _⟩
          · exact .inl zero
          · exact .inr ⟨begun, low, before gop earlier⟩
        · rw [now, stamp]
          exact .inr ⟨begun, Int.natCast_nonneg _, Int.le_refl _⟩
      · exact add_packet_times_order stream packet order fun _ => .inr (by rw [stamp]; exact before)
      · rw [newest]
        exact Int.natCast_nonneg _
      · rw [newest, last]
        exact stamped.high
      · rw [newest]
        rcases add_packet_listed stream packet gop listed with earlier | ⟨_, now⟩
        · exact before gop earlier
        · rw [now, stamp]
  | audioByVideo =>
      obtain ⟨stamped, original, clockKept⟩ := audio_stamped (lastTime packets) packet.timestamp stream.timeCorrector packet
        clock later (Int.natCast_nonneg _) (by omega) time
      have before := behind stamped
      have audio : packet.type = kPacketTypeAudio := by
        by_contra other
        rw [correctionRule, if_neg other] at chosen
        split_ifs at chosen
        cases chosen
      have listedBefore (gop : GopItemInfo) (listed : gop ∈ (stream.addPacket packet).gopMgr.gops) :
          gop ∈ stream.gopMgr.gops := by
        rcases add_packet_listed stream packet gop listed with earlier | ⟨key, _⟩
        · exact earlier
        · rw [audio_no_key_frame stream packet audio] at key
          cases key
      refine ⟨by rw [last, corrector]; exact stamped.behind, fun gop listed => ?_, ?_, .inr ⟨?_, ?_, fun gop listed => ?_⟩⟩
      · rw [corrector]
        change gop.timestamp = 0 ∨
          ((stream.timeCorrector.correctAudioTimestampByVideo packet).1.videoOriginalTimestamp ≠ -1 ∧
            0 ≤ gop.timestamp ∧
            gop.timestamp ≤ (stream.timeCorrector.correctAudioTimestampByVideo packet).1.videoCorrectedTimestamp)
        rw [original, clockKept]
        exact gops gop (listedBefore gop listed)
      · exact add_packet_times_order stream packet order fun _ => .inr (by rw [stamp]; exact before)
      · rw [newest]
        exact Int.natCast_nonneg _
      · rw [newest, last]
        exact stamped.high
      · rw [newest]
        exact before gop (listedBefore gop listed)

theorem times_sound (packets : List Packet) (inOrder : MediaInOrder packets) :
    TimesSound packets (run LiveStream.addPacket {} packets) := by
  induction packets using List.reverseRecOn with
  | nil =>
      refine ⟨⟨in_int32_zero, .inl rfl, .inl rfl, fun _ begun => absurd rfl begun⟩, ?_, .nil, .inl rfl⟩
      exact fun gop impossible => absurd impossible List.not_mem_nil
  | append_singleton past packet ih =>
      obtain ⟨before, now⟩ := media_in_order_snoc past packet inOrder
      rw [run_snoc]
      cases rule : correctionRule packet with
      | none => exact replaced_times_sound past _ packet (by simp [MediaFrame, rule]) (ih before)
      | some chosen =>
          obtain ⟨later, small⟩ := now (by simp [MediaFrame, rule])
          exact media_times_sound past _ packet chosen rule later small (ih before)

def GopMgr.latencyOf (mgr : GopMgr) (gop : GopItemInfo) : Int := mgr.lastestTimestamp - gop.timestamp

structure ChoosesGop (mgr : GopMgr) (contentLatency : Int) : Prop where
  found : (mgr.getGopByLatency contentLatency).1 ≠ -1 →
    0 ≤ (mgr.getGopByLatency contentLatency).2 ∧ (mgr.getGopByLatency contentLatency).2 ≤ contentLatency ∧
      (∃ gop ∈ mgr.gops, gop.index = (mgr.getGopByLatency contentLatency).1 ∧ mgr.latencyOf gop ≤ contentLatency) ∧
      ∀ gop ∈ mgr.gops, mgr.latencyOf gop ≤ contentLatency → (mgr.getGopByLatency contentLatency).1 ≤ gop.index
  missed : (mgr.getGopByLatency contentLatency).1 = -1 →
    ∀ gop ∈ mgr.gops, ¬ (0 ≤ mgr.latencyOf gop ∧ mgr.latencyOf gop ≤ contentLatency)

def GopMgr.withinReach (mgr : GopMgr) (contentLatency : Int) : List GopItemInfo :=
  mgr.gops.reverse.takeWhile fun gop => mgr.latencyOf gop ≤ contentLatency

theorem latency_search_reach (lastest contentLatency : Int) (gops : List GopItemInfo) (found : Int × Int)
    (exact : ∀ gop ∈ gops, toInt32 (lastest - gop.timestamp) = lastest - gop.timestamp) :
    latencySearch lastest contentLatency gops found =
      ((gops.takeWhile fun gop => lastest - gop.timestamp ≤ contentLatency).getLast?.map
        fun gop => (gop.index, lastest - gop.timestamp)).getD found := by
  induction gops generalizing found with
  | nil => rfl
  | cons gop older ih =>
      rw [latencySearch, exact gop List.mem_cons_self]
      by_cases near : lastest - gop.timestamp ≤ contentLatency
      · rw [if_pos near, ih _ fun other inOlder => exact other (List.mem_cons_of_mem _ inOlder),
          List.takeWhile_cons_of_pos (by simpa using near), List.getLast?_cons]
        cases (older.takeWhile fun gop => lastest - gop.timestamp ≤ contentLatency).getLast? <;> rfl
      · rw [if_neg near, List.takeWhile_cons_of_neg (by simpa using near)]
        rfl

theorem gop_by_latency_reach (packets : List Packet) (stream : LiveStream) (inOrder : MediaInOrder packets)
    (sound : TimesSound packets stream) (contentLatency : Int) :
    stream.gopMgr.getGopByLatency contentLatency =
      ((stream.gopMgr.withinReach contentLatency).getLast?.map
        fun gop => (gop.index, stream.gopMgr.latencyOf gop)).getD (-1, 0) := by
  obtain ⟨low, high⟩ := last_time_range packets inOrder
  refine latency_search_reach _ _ _ _ fun gop listed => ?_
  have latest : 0 ≤ stream.gopMgr.lastestTimestamp ∧ stream.gopMgr.lastestTimestamp ≤ lastTime packets := by
    rcases sound.latest with zero | ⟨positive, upTo, _⟩ <;> omega
  have time : 0 ≤ gop.timestamp ∧ gop.timestamp ≤ lastTime packets := by
    rcases sound.gops gop (List.mem_reverse.mp listed) with zero | ⟨begun, positive, upTo⟩
    · omega
    · obtain ⟨_, clock, seen⟩ := sound.clock.video.resolve_left begun
      omega
  exact to_int32_exact _ ⟨by omega, by omega⟩

def RightGop (mgr : GopMgr) (contentLatency : Int) : Prop :=
  (∃ oldest ∈ (mgr.withinReach contentLatency).getLast?, oldest.index ≠ -1 ∧ oldest.timestamp ≤ mgr.lastestTimestamp ∧
    ∀ gop ∈ mgr.gops, mgr.latencyOf gop ≤ contentLatency → oldest.index ≤ gop.index) ∨
  ((∀ oldest ∈ (mgr.withinReach contentLatency).getLast?, oldest.index = -1) ∧
    ∀ gop ∈ mgr.gops, ¬ (0 ≤ mgr.latencyOf gop ∧ mgr.latencyOf gop ≤ contentLatency))

theorem chooses_gop_iff (packets : List Packet) (stream : LiveStream) (inOrder : MediaInOrder packets)
    (sound : TimesSound packets stream) (contentLatency : Int) :
    ChoosesGop stream.gopMgr contentLatency ↔ RightGop stream.gopMgr contentLatency := by
  have chosen := gop_by_latency_reach packets stream inOrder sound contentLatency
  cases reached : (stream.gopMgr.withinReach contentLatency).getLast? with
  | none =>
      rw [reached] at chosen
      have missed : (stream.gopMgr.getGopByLatency contentLatency).1 = -1 := by rw [chosen]; rfl
      rw [RightGop, reached]
      constructor
      · exact fun chooses => .inr ⟨fun _ impossible => (by cases impossible), chooses.missed missed⟩
      · rintro (⟨_, impossible, _⟩ | ⟨_, nothing⟩)
        · cases impossible
        · exact ⟨fun found => absurd missed found, fun _ => nothing⟩
  | some oldest =>
      rw [reached] at chosen
      have index : (stream.gopMgr.getGopByLatency contentLatency).1 = oldest.index := by rw [chosen]; rfl
      have latency : (stream.gopMgr.getGopByLatency contentLatency).2 = stream.gopMgr.latencyOf oldest := by
        rw [chosen]
        rfl
      have inReach := List.mem_of_getLast? reached
      have near : stream.gopMgr.latencyOf oldest ≤ contentLatency := by
        simpa using List.mem_takeWhile_imp (show oldest ∈ List.takeWhile _ _ from inReach)
      have listed : oldest ∈ stream.gopMgr.gops := List.mem_reverse.mp (List.takeWhile_subset _ inReach)
      have behind : 0 ≤ stream.gopMgr.latencyOf oldest ↔ oldest.timestamp ≤ stream.gopMgr.lastestTimestamp := by
        rw [GopMgr.latencyOf]
        omega
      rw [RightGop, reached]
      simp only [Option.mem_some_iff, forall_eq', exists_eq_left']
      constructor
      · rintro ⟨found, missed⟩
        rw [index, latency] at found
        rw [index] at missed
        by_cases none : oldest.index = -1
        · exact .inr ⟨none, missed none⟩
        · obtain ⟨low, _, _, smallest⟩ := found none
          exact .inl ⟨none, behind.mp low, smallest⟩
      · rintro (⟨some, low, smallest⟩ | ⟨none, nothing⟩)
        · refine ⟨?_, ?_⟩
          · rw [index, latency]
            exact fun _ => ⟨behind.mpr low, near, ⟨oldest, listed, rfl, near⟩, smallest⟩
          · rw [index]
            exact fun none => absurd none some
        · refine ⟨?_, fun _ => nothing⟩
          rw [index]
          exact fun some => absurd none some

structure StampsInLine (mgr : GopMgr) (contentLatency : Int) : Prop where
  oldest : ∀ gop ∈ mgr.gops.head?, gop.timestamp ≤ mgr.lastestTimestamp
  between : mgr.lastestTimestamp ≤ contentLatency ∨
    mgr.gops.Pairwise fun earlier later => mgr.latencyOf earlier ≤ contentLatency → later.timestamp ≠ 0

theorem reach_stops (near : GopItemInfo → Bool) (gops : List GopItemInfo)
    (order : gops.Pairwise fun later earlier => earlier.index < later.index) (far : GopItemInfo)
    (listed : far ∈ gops) (isFar : near far = false) : ∀ gop ∈ gops.takeWhile near, far.index < gop.index := by
  induction gops with
  | nil => cases listed
  | cons newest older ih =>
      obtain ⟨ahead, orderOlder⟩ := List.pairwise_cons.mp order
      intro gop inReach
      cases isNear : near newest with
      | false =>
          rw [List.takeWhile_cons_of_neg (by simp [isNear])] at inReach
          cases inReach
      | true =>
          rw [List.takeWhile_cons_of_pos isNear] at inReach
          rcases List.mem_cons.mp listed with rfl | inOlder
          · cases isNear.symm.trans isFar
          · rcases List.mem_cons.mp inReach with rfl | later
            · exact ahead far inOlder
            · exact ih orderOlder inOlder gop later

theorem reach_all (near : GopItemInfo → Bool) (gops : List GopItemInfo)
    (closed : gops.Pairwise fun later earlier => near earlier = true → near later = true) :
    gops.takeWhile near = gops.filter near := by
  induction gops with
  | nil => rfl
  | cons newest older ih =>
      obtain ⟨ahead, closedOlder⟩ := List.pairwise_cons.mp closed
      cases isNear : near newest with
      | true => rw [List.takeWhile_cons_of_pos isNear, List.filter_cons_of_pos isNear, ih closedOlder]
      | false =>
          rw [List.takeWhile_cons_of_neg (by simp [isNear]), List.filter_cons_of_neg (by simp [isNear])]
          refine (List.filter_eq_nil_iff.mpr fun gop inOlder isNearToo => ?_).symm
          cases isNear.symm.trans (ahead gop inOlder isNearToo)

theorem reach_of_near (mgr : GopMgr) (contentLatency : Int)
    (near : ∀ gop ∈ mgr.gops, mgr.latencyOf gop ≤ contentLatency) :
    mgr.withinReach contentLatency = mgr.gops.reverse :=
  List.takeWhile_eq_self_iff.mpr fun gop listed => decide_eq_true (near gop (List.mem_reverse.mp listed))

theorem head_is_smallest (gops : List GopItemInfo)
    (order : gops.Pairwise fun earlier later => earlier.index < later.index) (oldest : GopItemInfo)
    (first : oldest ∈ gops.head?) : ∀ gop ∈ gops, oldest.index ≤ gop.index := by
  cases gops with
  | nil => cases first
  | cons head rest =>
      cases first
      intro gop listed
      rcases List.mem_cons.mp listed with rfl | later
      · exact Int.le_refl _
      · exact Int.le_of_lt ((List.pairwise_cons.mp order).1 gop later)

structure MgrSound (mgr : GopMgr) : Prop where
  order : mgr.gops.Pairwise fun earlier later => earlier.index < later.index
  indices : ∀ gop ∈ mgr.gops, 0 ≤ gop.index
  stamps : ∀ gop ∈ mgr.gops, 0 ≤ gop.timestamp
  times : mgr.gops.Pairwise fun earlier later => later.timestamp = 0 ∨ earlier.timestamp ≤ later.timestamp
  latest : mgr.lastestTimestamp = 0 ∨ ∀ gop ∈ mgr.gops, gop.timestamp ≤ mgr.lastestTimestamp

theorem mgr_sound (packets : List Packet) (inOrder : MediaInOrder packets) (few : packets.length < 2147483648) :
    MgrSound (run LiveStream.addPacket {} packets).gopMgr := by
  obtain ⟨ring, _, order, _⟩ := gops_listed packets few
  obtain ⟨_, gops, times, latest⟩ := times_sound packets inOrder
  refine ⟨order, fun gop listed => (ring.gops gop listed).1, fun gop listed => ?_, times, ?_⟩
  · rcases gops gop listed with zero | ⟨_, positive, _⟩ <;> omega
  · rcases latest with zero | ⟨_, _, every⟩
    · exact .inl zero
    · exact .inr every

theorem stamps_of_right (mgr : GopMgr) (sound : MgrSound mgr) (contentLatency : Int) (low : 0 ≤ contentLatency)
    (right : RightGop mgr contentLatency) : StampsInLine mgr contentLatency := by
  refine ⟨fun gop first => ?_, ?_⟩
  · rcases sound.latest with zero | every
    · -- Nothing is behind a latest timestamp of 0: the search ends at the oldest.
      have whole : mgr.withinReach contentLatency = mgr.gops.reverse := by
        refine reach_of_near mgr contentLatency fun other listed => ?_
        have := sound.stamps other listed
        rw [GopMgr.latencyOf]
        omega
      rw [RightGop, whole, List.getLast?_reverse] at right
      rcases right with ⟨oldest, isOldest, _, behind, _⟩ | ⟨none, _⟩
      · cases isOldest.symm.trans first
        exact behind
      · have listed := sound.indices gop (List.mem_of_mem_head? first)
        have := none gop first
        omega
    · exact every gop (List.mem_of_mem_head? first)
  · by_cases within : mgr.lastestTimestamp ≤ contentLatency
    · exact .inl within
    · refine .inr (sound.order.imp_of_mem fun {earlier later} inEarlier inLater ahead near stampedZero => ?_)
      have behind := sound.latest.resolve_left (by omega) earlier inEarlier
      rw [GopMgr.latencyOf] at near
      rcases right with ⟨oldest, isOldest, _, _, smallest⟩ | ⟨_, nothing⟩
      · have stops := reach_stops (fun gop => decide (mgr.latencyOf gop ≤ contentLatency)) mgr.gops.reverse
          (List.pairwise_reverse.mpr sound.order) later (List.mem_reverse.mpr inLater)
          (decide_eq_false (by rw [GopMgr.latencyOf]; omega)) oldest (List.mem_of_getLast? isOldest)
        have := smallest earlier inEarlier near
        omega
      · exact nothing earlier inEarlier ⟨by rw [GopMgr.latencyOf]; omega, near⟩

theorem right_of_stamps (mgr : GopMgr) (sound : MgrSound mgr) (contentLatency : Int) (low : 0 ≤ contentLatency)
    (stamps : StampsInLine mgr contentLatency) : RightGop mgr contentLatency := by
  by_cases within : mgr.lastestTimestamp ≤ contentLatency
  · have whole : mgr.withinReach contentLatency = mgr.gops.reverse := by
      refine reach_of_near mgr contentLatency fun other listed => ?_
      have := sound.stamps other listed
      rw [GopMgr.latencyOf]
      omega
    rw [RightGop, whole, List.getLast?_reverse]
    cases first : mgr.gops.head? with
    | none =>
        rw [List.head?_eq_none_iff.mp first]
        exact .inr ⟨fun _ impossible => (by cases impossible), fun _ impossible => absurd impossible List.not_mem_nil⟩
    | some oldest =>
        have := sound.indices oldest (List.mem_of_mem_head? first)
        exact .inl ⟨oldest, rfl, by omega, stamps.oldest oldest first,
          fun gop listed _ => head_is_smallest mgr.gops sound.order oldest first gop listed⟩
  · have behind := sound.latest.resolve_left (by omega)
    have unmarked := stamps.between.resolve_left within
    -- What is behind a GOP within the latency is within it too.
    have closed : mgr.gops.reverse.Pairwise fun later earlier =>
        decide (mgr.latencyOf earlier ≤ contentLatency) = true → decide (mgr.latencyOf later ≤ contentLatency) = true := by
      refine List.pairwise_reverse.mpr ((sound.times.and unmarked).imp fun {earlier later} both isNear => ?_)
      have near := of_decide_eq_true isNear
      have stamped := both.1.resolve_left (both.2 near)
      rw [GopMgr.latencyOf] at near
      refine decide_eq_true ?_
      rw [GopMgr.latencyOf]
      omega
    have reach : mgr.withinReach contentLatency =
        (mgr.gops.filter fun gop => mgr.latencyOf gop ≤ contentLatency).reverse := by
      rw [GopMgr.withinReach, reach_all _ _ closed, List.filter_reverse]
    rw [RightGop, reach, List.getLast?_reverse]
    cases first : (mgr.gops.filter fun gop => mgr.latencyOf gop ≤ contentLatency).head? with
    | none =>
        refine .inr ⟨fun _ impossible => (by cases impossible), fun gop listed inside => ?_⟩
        have inFilter : gop ∈ mgr.gops.filter fun gop => mgr.latencyOf gop ≤ contentLatency :=
          List.mem_filter.mpr ⟨listed, decide_eq_true inside.2⟩
        rw [List.head?_eq_none_iff.mp first] at inFilter
        cases inFilter
    | some oldest =>
        have listed := (List.mem_filter.mp (List.mem_of_mem_head? first)).1
        have := sound.indices oldest listed
        exact .inl ⟨oldest, rfl, by omega, behind oldest listed, fun gop inGops near =>
          head_is_smallest _ (sound.order.filter _) oldest first gop (List.mem_filter.mpr ⟨inGops, decide_eq_true near⟩)⟩

theorem gop_choice_iff (packets : List Packet) (inOrder : MediaInOrder packets) (contentLatency : Int)
    (low : 0 ≤ contentLatency) :
    (ChoosesGop (run LiveStream.addPacket {} packets).gopMgr contentLatency ↔
      RightGop (run LiveStream.addPacket {} packets).gopMgr contentLatency) ∧
      (packets.length < 2147483648 →
        (ChoosesGop (run LiveStream.addPacket {} packets).gopMgr contentLatency ↔
          StampsInLine (run LiveStream.addPacket {} packets).gopMgr contentLatency)) := by
  have chooses := chooses_gop_iff packets _ inOrder (times_sound packets inOrder) contentLatency
  refine ⟨chooses, fun few => chooses.trans ?_⟩
  have sound := mgr_sound packets inOrder few
  exact ⟨stamps_of_right _ sound contentLatency low, right_of_stamps _ sound contentLatency low⟩

theorem key_frames_in_order : MediaInOrder [keyFrameAt 1000, keyFrameAt 1040] := ⟨by decide, by decide⟩

theorem gop_choice_key_frames :
    MediaInOrder [keyFrameAt 1000, keyFrameAt 1040] ∧ (0 : Int) ≤ 200 ∧
      (ChoosesGop (run LiveStream.addPacket {} [keyFrameAt 1000, keyFrameAt 1040]).gopMgr 200 ↔
        StampsInLine (run LiveStream.addPacket {} [keyFrameAt 1000, keyFrameAt 1040]).gopMgr 200) :=
  ⟨key_frames_in_order, by decide,
    (gop_choice_iff [keyFrameAt 1000, keyFrameAt 1040] key_frames_in_order 200 (by decide)).2 (by decide)⟩

-- Behind metadata a GOP is 1000 ms ahead of the latest timestamp, and a header
-- between two keyframes hides the first of them.
theorem gop_choice_replaced :
    (MediaInOrder [keyFrameAt 1000, { metaMessage with timestamp := 1000 }] ∧
      ¬ ChoosesGop (run LiveStream.addPacket {} [keyFrameAt 1000, { metaMessage with timestamp := 1000 }]).gopMgr 200) ∧
      (MediaInOrder [keyFrameAt 1000, { videoHeader with timestamp := 1000 }, keyFrameAt 1040] ∧
        ¬ ChoosesGop (run LiveStream.addPacket {}
          [keyFrameAt 1000, { videoHeader with timestamp := 1000 }, keyFrameAt 1040]).gopMgr 200) := by
  refine ⟨⟨⟨by decide, by decide⟩, fun chooses => ?_⟩, ⟨⟨by decide, by decide⟩, fun chooses => ?_⟩⟩
  · exact absurd (chooses.found (by decide)).1 (by decide)
  · obtain ⟨_, _, _, smallest⟩ := chooses.found (by decide)
    exact absurd (smallest ⟨0, 1000⟩ (by decide) (by decide)) (by decide)

end Lssvc.Live
