import Lssvc.Live.Broadcast
import Mathlib.Data.Int.ModEq
import Mathlib.Data.List.Chain

set_option autoImplicit false

namespace Lssvc.Live

open Lssvc.Foundation Lssvc.Mmedia

inductive CorrectionRule where
  | videoByVideo
  | audioByVideo
deriving DecidableEq, Repr

-- Which function correctTimestamp calls; without one it returns 0.
def correctionRule (pkt : Packet) : Option CorrectionRule :=
  if isCodecHeader pkt then none
  else if pkt.type = kPacketTypeVideo then some .videoByVideo
  else if pkt.type = kPacketTypeAudio then some .audioByVideo
  else none

def CorrectionRule.correct (rule : CorrectionRule) (corrector : TimeCorrector) (pkt : Packet) : TimeCorrector × Nat :=
  match rule with
  | .videoByVideo => corrector.correctVideoTimestampByVideo pkt
  | .audioByVideo => corrector.correctAudioTimestampByVideo pkt

theorem correct_timestamp_rule (corrector : TimeCorrector) (pkt : Packet) :
    corrector.correctTimestamp pkt =
      match correctionRule pkt with
      | some rule => rule.correct corrector pkt
      | none => (corrector, 0) := by
  rw [TimeCorrector.correctTimestamp, correctionRule]
  split_ifs <;> rfl

-- One call of buildChunk by pushFrames: the packet and the timestamp, with the
-- corrector as the packet found it.
structure Pushed where
  packet : Packet
  corrector : TimeCorrector
  timestamp : UInt32

def pushedFrom (corrector : TimeCorrector) : List Packet → List Pushed
  | [] => []
  | pkt :: list =>
      let (next, ts) := corrector.correctTimestamp pkt
      ⟨pkt, corrector, UInt32.ofNat ts⟩ :: pushedFrom next list

def correctAll (corrector : TimeCorrector) (list : List Packet) : TimeCorrector :=
  list.foldl (fun corrector pkt => (corrector.correctTimestamp pkt).1) corrector

theorem correct_all_append (corrector : TimeCorrector) (left right : List Packet) :
    correctAll corrector (left ++ right) = correctAll (correctAll corrector left) right := List.foldl_append

theorem push_frames_from_pushed (corrector : TimeCorrector) (out : RtmpOut) (list : List Packet) :
    pushFramesFrom corrector out list =
      (correctAll corrector list,
        buildAll out ((pushedFrom corrector list).map fun pushed => ⟨pushed.packet, pushed.timestamp, false⟩)) := by
  induction list generalizing corrector out with
  | nil => rfl
  | cons pkt list ih =>
      rw [pushFramesFrom]
      dsimp only
      rw [ih]
      rfl

theorem pushed_from_append (corrector : TimeCorrector) (left right : List Packet) :
    pushedFrom corrector (left ++ right) = pushedFrom corrector left ++ pushedFrom (correctAll corrector left) right := by
  induction left generalizing corrector with
  | nil => rfl
  | cons pkt left ih => exact congrArg _ (ih (corrector.correctTimestamp pkt).1)

theorem pushed_from_packets (corrector : TimeCorrector) (list : List Packet) :
    (pushedFrom corrector list).map Pushed.packet = list := by
  induction list generalizing corrector with
  | nil => rfl
  | cons pkt list ih => exact congrArg _ (ih (corrector.correctTimestamp pkt).1)

def MediaType (type : Nat) : Prop :=
  type = kPacketTypeVideo ∨ type = kPacketTypeAudio ∨ type = kPacketTypeMeta ∨ type = kPacketTypeMeta3

instance (type : Nat) : Decidable (MediaType type) := inferInstanceAs (Decidable (_ ∨ _))

structure Stored (pkt : Packet) : Prop where
  type : MediaType pkt.type ∨ pkt.type = kPacketTypeVideo ||| kFrameTypeKeyFrame
  timestamp : pkt.timestamp < 4294967296

theorem to_uint32_lt (x : Int) : toUint32 x < 4294967296 := by
  rw [toUint32]
  omega

theorem correct_timestamp_lt (corrector : TimeCorrector) (pkt : Packet) :
    (corrector.correctTimestamp pkt).2 < 4294967296 := by
  rw [correct_timestamp_rule]
  split
  · rename_i rule _
    cases rule with
    | videoByVideo => exact to_uint32_lt _
    | audioByVideo =>
        rw [CorrectionRule.correct, TimeCorrector.correctAudioTimestampByVideo, TimeCorrector.correctAudioTimestampByAudio]
        dsimp only
        split_ifs
        all_goals
          dsimp only
          exact to_uint32_lt _
  · dsimp only
    omega

theorem stored_time (pkt : Packet) (stored : Stored pkt) : pkt.getTimestamp = pkt.timestamp := by
  have small := stored.timestamp
  rw [Packet.getTimestamp, toInt64]
  omega

def Pushed.videoFrame (pushed : Pushed) : Bool := pushed.packet.isVideo && !isCodecHeader pushed.packet

theorem video_frame_rule (pushed : Pushed) (stored : Stored pushed.packet) (frame : pushed.videoFrame = true) :
    correctionRule pushed.packet = some .videoByVideo ↔ pushed.packet.isKeyFrame = false := by
  rw [Pushed.videoFrame, Bool.and_eq_true, Bool.not_eq_true'] at frame
  obtain ⟨video, media⟩ := frame
  rw [Packet.isVideo] at video
  rw [correctionRule, media, Packet.isKeyFrame]
  rcases stored.type with (same | same | same | same) | same <;> rw [same] at video ⊢ <;> revert video <;> decide

theorem other_frame_rule (pushed : Pushed) (stored : Stored pushed.packet) (other : pushed.videoFrame = false) :
    correctionRule pushed.packet ≠ some .videoByVideo := by
  rw [Pushed.videoFrame] at other
  rw [correctionRule]
  cases header : isCodecHeader pushed.packet with
  | true => exact nofun
  | false =>
      rw [header, Bool.not_false, Bool.and_true, Packet.isVideo] at other
      rcases stored.type with (same | same | same | same) | same <;> rw [same] at other ⊢ <;> revert other <;> decide

structure CorrectorSound (corrector : TimeCorrector) : Prop where
  video : corrector.videoOriginalTimestamp = -1 ∨
    (0 ≤ corrector.videoOriginalTimestamp ∧ 0 ≤ corrector.videoCorrectedTimestamp)
  audio : corrector.audioOriginalTimestamp = -1 ∨
    (0 ≤ corrector.audioOriginalTimestamp ∧ 0 ≤ corrector.audioCorrectedTimestamp)

theorem fresh_corrector_sound : CorrectorSound {} := ⟨.inl rfl, .inl rfl⟩

def TimeCorrector.videoClock (corrector : TimeCorrector) (time : Int) : Int :=
  max (corrector.videoCorrectedTimestamp +
    fineDelta (time - corrector.videoOriginalTimestamp) kMaxVideoDeltaTime kDefaultVideoDeltaTime) 0

theorem first_video_audio (corrector : TimeCorrector) (time : Int) :
    (corrector.firstVideo time).audioOriginalTimestamp = corrector.audioOriginalTimestamp ∧
      (corrector.firstVideo time).audioCorrectedTimestamp = corrector.audioCorrectedTimestamp := by
  unfold TimeCorrector.firstVideo
  split
  · dsimp only
    split <;> exact ⟨rfl, rfl⟩
  · exact ⟨rfl, rfl⟩

theorem first_video_numbers (corrector : TimeCorrector) (time : Int) :
    (corrector.firstVideo time).audioNumbersBetweenVideo = corrector.audioNumbersBetweenVideo := by
  unfold TimeCorrector.firstVideo
  split
  · dsimp only
    split <;> rfl
  · rfl

theorem stored_time_positive (pkt : Packet) (stored : Stored pkt) : 0 ≤ pkt.getTimestamp := by
  rw [stored_time pkt stored]
  exact Int.natCast_nonneg _

-- The time is a variable here: unfolded, it is arithmetic on 64-bit literals.
theorem video_by_video (corrector : TimeCorrector) (pkt : Packet) (stored : Stored pkt)
    (sound : CorrectorSound corrector) :
    CorrectorSound (corrector.correctVideoTimestampByVideo pkt).1 ∧
      (corrector.correctVideoTimestampByVideo pkt).1.videoOriginalTimestamp ≠ -1 ∧
      (corrector.correctVideoTimestampByVideo pkt).2 =
        toUint32 (corrector.correctVideoTimestampByVideo pkt).1.videoCorrectedTimestamp ∧
      (corrector.videoOriginalTimestamp ≠ -1 →
        (corrector.correctVideoTimestampByVideo pkt).1.videoCorrectedTimestamp =
          corrector.videoClock pkt.getTimestamp) := by
  have positive := stored_time_positive pkt stored
  rw [TimeCorrector.correctVideoTimestampByVideo]
  generalize pkt.getTimestamp = time at positive ⊢
  obtain ⟨original, corrected⟩ := first_video_audio { corrector with audioNumbersBetweenVideo := 0 } time
  dsimp only at original corrected ⊢
  refine ⟨⟨.inr ⟨positive, Int.le_max_right _ _⟩, ?_⟩, by omega, rfl, ?_⟩
  · dsimp only
    rw [original, corrected]
    exact sound.audio
  · intro begun
    rw [TimeCorrector.firstVideo, if_neg begun, TimeCorrector.videoClock]

theorem audio_by_audio (corrector : TimeCorrector) (pkt : Packet) (positive : 0 ≤ pkt.getTimestamp) :
    ∃ original corrected, 0 ≤ original ∧ 0 ≤ corrected ∧
      (corrector.correctAudioTimestampByAudio pkt).1 =
        { corrector with audioOriginalTimestamp := original, audioCorrectedTimestamp := corrected } := by
  rw [TimeCorrector.correctAudioTimestampByAudio]
  generalize pkt.getTimestamp = time at positive ⊢
  dsimp only
  by_cases first : corrector.audioOriginalTimestamp = -1
  · rw [if_pos first]
    exact ⟨time, time, positive, positive, rfl⟩
  · rw [if_neg first]
    exact ⟨time, _, positive, Int.le_max_right _ _, rfl⟩

theorem audio_by_video (corrector : TimeCorrector) (pkt : Packet) (positive : 0 ≤ pkt.getTimestamp) :
    ∃ original corrected numbers, 0 ≤ original ∧ 0 ≤ corrected ∧
      (corrector.correctAudioTimestampByVideo pkt).1 =
        { corrector with
          audioOriginalTimestamp := original
          audioCorrectedTimestamp := corrected
          audioNumbersBetweenVideo := numbers } := by
  rw [TimeCorrector.correctAudioTimestampByVideo]
  dsimp only
  by_cases more : toInt32 (corrector.audioNumbersBetweenVideo + 1) > 1
  · rw [if_pos more]
    obtain ⟨original, corrected, low, high, same⟩ := audio_by_audio _ pkt positive
    exact ⟨original, corrected, _, low, high, same⟩
  · rw [if_neg more]
    generalize pkt.getTimestamp = time at positive ⊢
    by_cases unseen : corrector.videoOriginalTimestamp = -1
    · rw [if_pos unseen]
      exact ⟨time, time, _, positive, positive, rfl⟩
    · rw [if_neg unseen]
      exact ⟨time, _, _, positive, Int.le_max_right _ _, rfl⟩

theorem other_rule_keeps_clock (corrector : TimeCorrector) (pkt : Packet) (stored : Stored pkt)
    (sound : CorrectorSound corrector) (other : correctionRule pkt ≠ some .videoByVideo) :
    CorrectorSound (corrector.correctTimestamp pkt).1 ∧
      (corrector.correctTimestamp pkt).1.videoOriginalTimestamp = corrector.videoOriginalTimestamp ∧
      (corrector.correctTimestamp pkt).1.videoCorrectedTimestamp = corrector.videoCorrectedTimestamp := by
  rw [correct_timestamp_rule]
  cases rule : correctionRule pkt with
  | none => exact ⟨sound, rfl, rfl⟩
  | some chosen =>
      cases chosen with
      | videoByVideo => exact absurd rule other
      | audioByVideo =>
          obtain ⟨original, corrected, numbers, low, high, same⟩ :=
            audio_by_video corrector pkt (stored_time_positive pkt stored)
          change CorrectorSound (corrector.correctAudioTimestampByVideo pkt).1 ∧
            (corrector.correctAudioTimestampByVideo pkt).1.videoOriginalTimestamp = _ ∧
            (corrector.correctAudioTimestampByVideo pkt).1.videoCorrectedTimestamp = _
          rw [same]
          exact ⟨⟨sound.video, .inr ⟨low, high⟩⟩, rfl, rfl⟩

def TimeCorrector.SameEpoch (corrector : TimeCorrector) (time : Int) : Prop :=
  corrector.videoCorrectedTimestamp / 4294967296 = corrector.videoClock time / 4294967296

def Near (earlier later : Pushed) : Prop := |(later.timestamp.toNat : Int) - earlier.timestamp.toNat| < 100

theorem clock_step (clock delta default : Int) (positive : 0 ≤ clock) (small : |default| < 100) :
    |max (clock + fineDelta delta 100 default) 0 - clock| < 100 := by
  rw [abs_lt] at small ⊢
  rw [fineDelta]
  split <;> omega

theorem near_epoch (x y : Int) (close : |y - x| < 100) :
    |(toUint32 y : Int) - toUint32 x| < 100 ↔ x / 4294967296 = y / 4294967296 := by
  rw [abs_lt] at close ⊢
  rw [toUint32, toUint32]
  omega

theorem clock_near_iff (corrector : TimeCorrector) (time : Int) (positive : 0 ≤ corrector.videoCorrectedTimestamp) :
    |(toUint32 (corrector.videoClock time) : Int) - toUint32 corrector.videoCorrectedTimestamp| < 100 ↔
      corrector.SameEpoch time :=
  near_epoch _ _ (clock_step _ _ _ positive (by decide))

def Steady (pushed : Pushed) : Prop :=
  pushed.videoFrame = true →
    pushed.packet.isKeyFrame = false ∧
      (pushed.corrector.videoOriginalTimestamp ≠ -1 → pushed.corrector.SameEpoch pushed.packet.getTimestamp)

structure VideoTimed (sent : List Pushed) : Prop where
  byRule : ∀ pushed ∈ sent, pushed.videoFrame = true → correctionRule pushed.packet = some .videoByVideo
  near : (sent.filter Pushed.videoFrame).IsChain Near

structure ClockShown (corrector : TimeCorrector) (before : Option Pushed) : Prop where
  sound : CorrectorSound corrector
  begun : corrector.videoOriginalTimestamp = -1 ↔ before = none
  shown : ∀ pushed ∈ before, pushed.timestamp.toNat = toUint32 corrector.videoCorrectedTimestamp

theorem clock_shown_video (corrector : TimeCorrector) (pkt : Packet) (stored : Stored pkt)
    (sound : CorrectorSound corrector) (rule : correctionRule pkt = some .videoByVideo) :
    ClockShown (corrector.correctTimestamp pkt).1
      (some ⟨pkt, corrector, UInt32.ofNat (corrector.correctTimestamp pkt).2⟩) := by
  have small := correct_timestamp_lt corrector pkt
  obtain ⟨soundAfter, begun, shown, _⟩ := video_by_video corrector pkt stored sound
  have corrected : corrector.correctTimestamp pkt = corrector.correctVideoTimestampByVideo pkt := by
    rw [correct_timestamp_rule, rule]
    rfl
  rw [corrected] at small ⊢
  refine ⟨soundAfter, by simp [begun], ?_⟩
  rintro pushed ⟨rfl⟩
  rw [← shown]
  exact UInt32.toNat_ofNat_of_lt' small

theorem near_before_iff (corrector : TimeCorrector) (before pushed : Pushed) (stored : Stored pushed.packet)
    (clock : ClockShown corrector (some before))
    (stamped : pushed.timestamp = UInt32.ofNat (corrector.correctTimestamp pushed.packet).2)
    (rule : correctionRule pushed.packet = some .videoByVideo) :
    Near before pushed ↔ corrector.SameEpoch pushed.packet.getTimestamp := by
  have begun : corrector.videoOriginalTimestamp ≠ -1 := fun first =>
    absurd (clock.begun.mp first) (Option.some_ne_none before)
  have positive : 0 ≤ corrector.videoCorrectedTimestamp := by
    rcases clock.sound.video with first | both
    · exact absurd first begun
    · exact both.2
  have after := clock_shown_video corrector pushed.packet stored clock.sound rule
  have corrected : corrector.correctTimestamp pushed.packet = corrector.correctVideoTimestampByVideo pushed.packet := by
    rw [correct_timestamp_rule, rule]
    rfl
  have stepped := (video_by_video corrector pushed.packet stored clock.sound).2.2.2 begun
  rw [Near, clock.shown before rfl, stamped, after.shown _ rfl, corrected, stepped]
  exact clock_near_iff corrector _ positive

-- By induction on the packets, with the frame before them and the clock as it
-- stands after that frame.
theorem video_timed_from (list : List Packet) (stored : ∀ pkt ∈ list, Stored pkt) (corrector : TimeCorrector)
    (before : Option Pushed) (clock : ClockShown corrector before) :
    ((∀ pushed ∈ pushedFrom corrector list,
        pushed.videoFrame = true → correctionRule pushed.packet = some .videoByVideo) ∧
      (before.toList ++ (pushedFrom corrector list).filter Pushed.videoFrame).IsChain Near) ↔
      ∀ pushed ∈ pushedFrom corrector list, Steady pushed := by
  induction list generalizing corrector before with
  | nil =>
      cases before with
      | none => simp [pushedFrom]
      | some pushed => simp [pushedFrom]
  | cons pkt list ih =>
      obtain ⟨here, later⟩ := List.forall_mem_cons.mp stored
      let pushed : Pushed := ⟨pkt, corrector, UInt32.ofNat (corrector.correctTimestamp pkt).2⟩
      have cut : pushedFrom corrector (pkt :: list) = pushed :: pushedFrom (corrector.correctTimestamp pkt).1 list := rfl
      rw [cut, List.forall_mem_cons, List.forall_mem_cons]
      cases frame : pushed.videoFrame with
      | false =>
          have kept := other_rule_keeps_clock corrector pkt here clock.sound (other_frame_rule pushed here frame)
          have after : ClockShown (corrector.correctTimestamp pkt).1 before := by
            refine ⟨kept.1, ?_, ?_⟩
            · rw [kept.2.1]
              exact clock.begun
            · rw [kept.2.2]
              exact clock.shown
          have steady : Steady pushed := fun video => absurd (frame.symm.trans video) Bool.false_ne_true
          rw [List.filter_cons_of_neg (by simp [frame]), ← ih later _ before after]
          simp [steady]
      | true =>
          rw [List.filter_cons_of_pos frame]
          by_cases key : pushed.packet.isKeyFrame = false
          · have rule := (video_frame_rule pushed here frame).mpr key
            have after := clock_shown_video corrector pkt here clock.sound rule
            have rest := ih later _ (some pushed) after
            have first : Steady pushed ↔
                (corrector.videoOriginalTimestamp ≠ -1 → corrector.SameEpoch pkt.getTimestamp) :=
              ⟨fun steady => (steady frame).2, fun epoch _ => ⟨key, epoch⟩⟩
            rw [first, ← rest]
            cases before with
            | none =>
                have fresh := clock.begun.mpr rfl
                simp only [rule, fresh, Option.toList_none, List.nil_append, Option.toList_some, List.singleton_append,
                  implies_true, true_and, ne_eq, not_true_eq_false, false_implies]
            | some last =>
                have begun : corrector.videoOriginalTimestamp ≠ -1 := fun none =>
                  absurd (clock.begun.mp none) (Option.some_ne_none last)
                have near := near_before_iff corrector last pushed here clock rfl rule
                rw [Option.toList_some, Option.toList_some, List.singleton_append, List.singleton_append,
                  List.isChain_cons_cons, near]
                simp only [rule, begun, implies_true, true_and, ne_eq, not_false_eq_true, forall_const]
                tauto
          · have wrong : correctionRule pushed.packet ≠ some .videoByVideo := fun rule =>
              key ((video_frame_rule pushed here frame).mp rule)
            constructor
            · rintro ⟨⟨rule, _⟩, _⟩
              exact absurd (rule rfl) wrong
            · rintro ⟨steady, _⟩
              exact absurd (steady frame).1 key

theorem video_timed_iff (list : List Packet) (stored : ∀ pkt ∈ list, Stored pkt) :
    VideoTimed (pushedFrom {} list) ↔ ∀ pushed ∈ pushedFrom {} list, Steady pushed := by
  have clock : ClockShown {} none :=
    ⟨fresh_corrector_sound, by decide, fun pushed impossible => by cases impossible⟩
  rw [← video_timed_from list stored {} none clock]
  exact ⟨fun timed => ⟨timed.byRule, timed.near⟩, fun both => ⟨both.1, both.2⟩⟩

end Lssvc.Live
