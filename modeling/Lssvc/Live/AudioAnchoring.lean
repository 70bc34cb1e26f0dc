import Lssvc.Live.SmoothTimelines

set_option autoImplicit false

namespace Lssvc.Live

open Lssvc.Foundation Lssvc.Mmedia

def TimeCorrector.pushed (corrector : TimeCorrector) (pkt : Packet) : Pushed :=
  ⟨pkt, corrector, UInt32.ofNat (corrector.correctTimestamp pkt).2⟩

structure Counts (corrector : TimeCorrector) (pkt : Packet) : Prop where
  plain : PlainFrame pkt
  low : 0 ≤ corrector.audioNumbersBetweenVideo
  high : pkt.type = kPacketTypeAudio → corrector.audioNumbersBetweenVideo < 2147483647

theorem counted_more (corrector : TimeCorrector) (pkt : Packet) (counts : Counts corrector pkt) :
    corrector.audioNumbersBetweenVideo + 1 ≠ 0 := by
  have low := counts.low
  omega

theorem pushed_chain (R : Pushed → Pushed → Prop) (keep : Pushed → Bool)
    (Inv : TimeCorrector → Option Pushed → Prop)
    (kept : ∀ corrector before pkt, Counts corrector pkt → Inv corrector before → keep (corrector.pushed pkt) = true →
      (∀ earlier ∈ before, R earlier (corrector.pushed pkt)) ∧
        Inv (corrector.correctTimestamp pkt).1 (some (corrector.pushed pkt)))
    (skipped : ∀ corrector before pkt, Counts corrector pkt → Inv corrector before →
      keep (corrector.pushed pkt) = false → Inv (corrector.correctTimestamp pkt).1 before)
    (list : List Packet) (corrector : TimeCorrector) (before : Option Pushed)
    (counts : ∀ pushed ∈ pushedFrom corrector list, Counts pushed.corrector pushed.packet)
    (inv : Inv corrector before) : (before.toList ++ (pushedFrom corrector list).filter keep).IsChain R := by
  induction list generalizing corrector before with
  | nil => cases before <;> simp [pushedFrom]
  | cons pkt list ih =>
      have cut : pushedFrom corrector (pkt :: list) =
          corrector.pushed pkt :: pushedFrom (corrector.correctTimestamp pkt).1 list := rfl
      rw [cut] at counts ⊢
      obtain ⟨here, later⟩ := List.forall_mem_cons.mp counts
      cases keeps : keep (corrector.pushed pkt) with
      | false =>
          rw [List.filter_cons_of_neg (by simp [keeps])]
          exact ih _ before later (skipped corrector before pkt here inv keeps)
      | true =>
          obtain ⟨related, after⟩ := kept corrector before pkt here inv keeps
          have rest := ih _ (some (corrector.pushed pkt)) later after
          rw [List.filter_cons_of_pos keeps]
          cases before with
          | none => exact rest
          | some earlier => exact List.isChain_cons_cons.mpr ⟨related earlier rfl, rest⟩

theorem near_level (x y : Int) (epoch : x / 4294967296 = y / 4294967296) :
    |(toUint32 y : Int) - toUint32 x| < 100 ↔ |y - x| < 100 := by
  rw [abs_lt, abs_lt, toUint32, toUint32]
  omega

def TimeCorrector.audioClock (corrector : TimeCorrector) (time : Int) : Int :=
  max (corrector.audioCorrectedTimestamp +
    fineDelta (time - corrector.audioOriginalTimestamp) kMaxAudioDeltaTime kDefaultAudioDeltaTime) 0

-- The clock an audio packet continues: behind a video packet it is the video's.
def TimeCorrector.continued (corrector : TimeCorrector) : Int :=
  if corrector.audioNumbersBetweenVideo = 0 then corrector.videoCorrectedTimestamp else corrector.audioCorrectedTimestamp

def TimeCorrector.placed (corrector : TimeCorrector) (time : Int) : Int :=
  if corrector.audioNumbersBetweenVideo = 0 then
    if corrector.videoOriginalTimestamp = -1 then time else corrector.videoClock time
  else corrector.audioClock time

def ofVideo (pushed : Pushed) : Bool := pushed.packet.type == kPacketTypeVideo

def ofAudio (pushed : Pushed) : Bool := pushed.packet.type == kPacketTypeAudio

theorem other_type (pkt : Packet) (plain : PlainFrame pkt) (other : pkt.type ≠ kPacketTypeVideo) :
    pkt.type = kPacketTypeAudio := by
  rcases plain.type with video | audio
  · exact absurd video other
  · exact audio

theorem pushed_value (corrector : TimeCorrector) (pkt : Packet) :
    (corrector.pushed pkt).timestamp.toNat = (corrector.correctTimestamp pkt).2 :=
  UInt32.toNat_ofNat_of_lt' (correct_timestamp_lt corrector pkt)

theorem placed_positive (corrector : TimeCorrector) (pkt : Packet) (plain : PlainFrame pkt) :
    0 ≤ corrector.placed pkt.getTimestamp := by
  have positive := stored_time_positive pkt (plain_stored pkt plain)
  rw [TimeCorrector.placed]
  split
  · split
    · exact positive
    · exact Int.le_max_right _ _
  · exact Int.le_max_right _ _

-- The new time and clock are variables here: unfolded, they are arithmetic on
-- 64-bit literals.
theorem audio_step (corrector : TimeCorrector) (pkt : Packet) (counts : Counts corrector pkt)
    (audio : pkt.type = kPacketTypeAudio)
    (heard : corrector.audioNumbersBetweenVideo ≠ 0 → corrector.audioOriginalTimestamp ≠ -1) :
    ∃ time clock, 0 ≤ time ∧ 0 ≤ clock ∧ clock = corrector.placed pkt.getTimestamp ∧
      corrector.correctTimestamp pkt =
        ({ corrector with
            audioOriginalTimestamp := time
            audioCorrectedTimestamp := clock
            audioNumbersBetweenVideo := corrector.audioNumbersBetweenVideo + 1 }, toUint32 clock) := by
  obtain ⟨plain, low, high⟩ := counts
  have room := high audio
  have counted := to_int32_exact (corrector.audioNumbersBetweenVideo + 1) ⟨by omega, by omega⟩
  refine ⟨pkt.getTimestamp, _, stored_time_positive pkt (plain_stored pkt plain), placed_positive corrector pkt plain,
    rfl, ?_⟩
  rw [correct_audio corrector pkt plain audio, TimeCorrector.correctAudioTimestampByVideo, TimeCorrector.placed, counted]
  dsimp only
  by_cases behind : corrector.audioNumbersBetweenVideo = 0
  · rw [if_neg (by omega), if_pos behind]
    generalize pkt.getTimestamp = time
    by_cases first : corrector.videoOriginalTimestamp = -1
    · rw [if_pos first, if_pos first]
    · rw [if_neg first, if_neg first, TimeCorrector.videoClock]
  · rw [if_pos (by omega), if_neg behind, TimeCorrector.correctAudioTimestampByAudio]
    generalize pkt.getTimestamp = time
    dsimp only
    rw [if_neg (heard behind), TimeCorrector.audioClock]

theorem audio_numbers (corrector : TimeCorrector) (pkt : Packet) :
    (corrector.correctAudioTimestampByVideo pkt).1.audioNumbersBetweenVideo =
      toInt32 (corrector.audioNumbersBetweenVideo + 1) := by
  rw [TimeCorrector.correctAudioTimestampByVideo, TimeCorrector.correctAudioTimestampByAudio]
  dsimp only
  split_ifs <;> rfl

theorem video_step (corrector : TimeCorrector) (pkt : Packet) (plain : PlainFrame pkt)
    (video : pkt.type = kPacketTypeVideo) :
    ∃ time clock, 0 ≤ time ∧ 0 ≤ clock ∧
      corrector.correctTimestamp pkt =
        ({ corrector with
            videoOriginalTimestamp := time
            videoCorrectedTimestamp := clock
            audioNumbersBetweenVideo := 0 }, toUint32 clock) := by
  obtain ⟨original, corrected⟩ := first_video_audio { corrector with audioNumbersBetweenVideo := 0 } pkt.getTimestamp
  have numbers := first_video_numbers { corrector with audioNumbersBetweenVideo := 0 } pkt.getTimestamp
  rw [correct_video corrector pkt plain video, TimeCorrector.correctVideoTimestampByVideo]
  dsimp only at original corrected numbers ⊢
  generalize TimeCorrector.firstVideo { corrector with audioNumbersBetweenVideo := 0 } pkt.getTimestamp = first at *
  rw [original, corrected, numbers]
  exact ⟨_, _, stored_time_positive pkt (plain_stored pkt plain), Int.le_max_right _ _, rfl⟩

structure LastShown (corrector : TimeCorrector) (last : Option Pushed) : Prop where
  sound : CorrectorSound corrector
  heard : corrector.audioNumbersBetweenVideo ≠ 0 → corrector.audioOriginalTimestamp ≠ -1
  begun : corrector.audioNumbersBetweenVideo = 0 → corrector.videoOriginalTimestamp = -1 → last = none
  shown : ∀ pushed ∈ last, pushed.timestamp.toNat = toUint32 corrector.continued

def Continues (earlier later : Pushed) : Prop :=
  later.packet.type = kPacketTypeAudio →
    (Near earlier later ↔
      later.corrector.continued / 4294967296 = later.corrector.placed later.packet.getTimestamp / 4294967296)

theorem placed_close (corrector : TimeCorrector) (last : Pushed) (time : Int) (shown : LastShown corrector (some last)) :
    |corrector.placed time - corrector.continued| < 100 := by
  rw [TimeCorrector.placed, TimeCorrector.continued]
  by_cases behind : corrector.audioNumbersBetweenVideo = 0
  · have seen : corrector.videoOriginalTimestamp ≠ -1 := fun first =>
      absurd (shown.begun behind first) (Option.some_ne_none last)
    have positive : 0 ≤ corrector.videoCorrectedTimestamp := by
      rcases shown.sound.video with first | ⟨_, positive⟩
      · exact absurd first seen
      · exact positive
    rw [if_pos behind, if_pos behind, if_neg seen]
    exact clock_step _ _ _ positive (by decide)
  · have positive : 0 ≤ corrector.audioCorrectedTimestamp := by
      rcases shown.sound.audio with first | ⟨_, positive⟩
      · exact absurd first (shown.heard behind)
      · exact positive
    rw [if_neg behind, if_neg behind]
    exact clock_step _ _ _ positive (by decide)

theorem last_shown_step (corrector : TimeCorrector) (last : Option Pushed) (pkt : Packet) (counts : Counts corrector pkt)
    (shown : LastShown corrector last) :
    (∀ earlier ∈ last, Continues earlier (corrector.pushed pkt)) ∧
      LastShown (corrector.correctTimestamp pkt).1 (some (corrector.pushed pkt)) := by
  have value := pushed_value corrector pkt
  by_cases video : pkt.type = kPacketTypeVideo
  · obtain ⟨time, clock, positiveTime, positiveClock, stepped⟩ := video_step corrector pkt counts.plain video
    rw [stepped] at value ⊢
    refine ⟨fun earlier _ audio => ?_, ⟨.inr ⟨positiveTime, positiveClock⟩, shown.sound.audio⟩, ?_, ?_, ?_⟩
    · exact absurd (video.symm.trans audio) (by decide)
    · exact fun counted => absurd rfl counted
    · intro _ first
      dsimp only at first
      omega
    · rintro pushed ⟨rfl⟩
      rw [value, TimeCorrector.continued, if_pos rfl]
  · have audio := other_type pkt counts.plain video
    obtain ⟨time, clock, positiveTime, positiveClock, placed, stepped⟩ :=
      audio_step corrector pkt counts audio shown.heard
    rw [stepped] at value ⊢
    refine ⟨fun earlier isLast _ => ?_, ⟨shown.sound.video, .inr ⟨positiveTime, positiveClock⟩⟩, ?_, ?_, ?_⟩
    · cases isLast
      have close := placed_close corrector earlier pkt.getTimestamp shown
      rw [Near, shown.shown earlier rfl, value, placed]
      exact near_epoch _ _ close
    · intro _ first
      dsimp only at first
      omega
    · exact fun uncounted => absurd uncounted (counted_more corrector pkt counts)
    · rintro pushed ⟨rfl⟩
      rw [value, TimeCorrector.continued, if_neg (counted_more corrector pkt counts)]

structure AudioShown (corrector : TimeCorrector) (before : Option Pushed) : Prop where
  heard : corrector.audioNumbersBetweenVideo ≠ 0 → corrector.audioOriginalTimestamp ≠ -1
  begun : corrector.audioNumbersBetweenVideo = 0 → corrector.videoOriginalTimestamp = -1 → before = none
  shown : ∀ pushed ∈ before, pushed.timestamp.toNat = toUint32 corrector.audioCorrectedTimestamp

-- Behind a video packet the audio clock is not continued: the packet is placed
-- on the video clock.
def Anchored (earlier later : Pushed) : Prop :=
  later.corrector.audioNumbersBetweenVideo = 0 →
    later.corrector.audioCorrectedTimestamp / 4294967296 =
        later.corrector.videoClock later.packet.getTimestamp / 4294967296 →
    (Near earlier later ↔
      |later.corrector.videoClock later.packet.getTimestamp - later.corrector.audioCorrectedTimestamp| < 100)

theorem audio_shown_step (corrector : TimeCorrector) (before : Option Pushed) (pkt : Packet) (counts : Counts corrector pkt)
    (shown : AudioShown corrector before) (audio : ofAudio (corrector.pushed pkt) = true) :
    (∀ earlier ∈ before, Anchored earlier (corrector.pushed pkt)) ∧
      AudioShown (corrector.correctTimestamp pkt).1 (some (corrector.pushed pkt)) := by
  have value := pushed_value corrector pkt
  obtain ⟨time, clock, positive, _, clockPlaced, stepped⟩ :=
    audio_step corrector pkt counts (eq_of_beq audio) shown.heard
  rw [stepped] at value ⊢
  refine ⟨fun earlier isBefore behind epoch => ?_, ?_, ?_, ?_⟩
  · have begun : corrector.videoOriginalTimestamp ≠ -1 := fun first => by
      rw [shown.begun behind first] at isBefore
      cases isBefore
    have placed : corrector.placed pkt.getTimestamp = corrector.videoClock pkt.getTimestamp := by
      rw [TimeCorrector.placed]
      exact (if_pos behind).trans (if_neg begun)
    rw [Near, shown.shown earlier isBefore, value, clockPlaced, placed]
    exact near_level _ _ epoch
  · intro _ first
    dsimp only at first
    omega
  · exact fun uncounted => absurd uncounted (counted_more corrector pkt counts)
  · rintro pushed ⟨rfl⟩
    exact value

theorem audio_shown_video (corrector : TimeCorrector) (before : Option Pushed) (pkt : Packet) (counts : Counts corrector pkt)
    (shown : AudioShown corrector before) (other : ofAudio (corrector.pushed pkt) = false) :
    AudioShown (corrector.correctTimestamp pkt).1 before := by
  have video : pkt.type = kPacketTypeVideo := by
    rcases counts.plain.type with video | audio
    · exact video
    · exact absurd (beq_iff_eq.mpr audio) (Bool.eq_false_iff.mp other)
  obtain ⟨time, clock, positive, _, stepped⟩ := video_step corrector pkt counts.plain video
  rw [stepped]
  refine ⟨fun counted => absurd rfl counted, fun _ first => ?_, shown.shown⟩
  dsimp only at first
  omega

def Carried (earlier later : Pushed) : Prop :=
  Near earlier later ↔ later.corrector.SameEpoch later.packet.getTimestamp

theorem clock_shown_step (corrector : TimeCorrector) (before : Option Pushed) (pkt : Packet) (counts : Counts corrector pkt)
    (shown : ClockShown corrector before) (video : ofVideo (corrector.pushed pkt) = true) :
    (∀ earlier ∈ before, Carried earlier (corrector.pushed pkt)) ∧
      ClockShown (corrector.correctTimestamp pkt).1 (some (corrector.pushed pkt)) := by
  have stored := plain_stored pkt counts.plain
  have type : pkt.type = kPacketTypeVideo := eq_of_beq video
  have rule : correctionRule pkt = some .videoByVideo := by
    rw [correctionRule, counts.plain.media, if_neg Bool.false_ne_true, if_pos type]
  refine ⟨fun earlier isBefore => ?_, clock_shown_video corrector pkt stored shown.sound rule⟩
  cases isBefore
  exact near_before_iff corrector earlier (corrector.pushed pkt) stored shown rfl rule

theorem clock_shown_audio (corrector : TimeCorrector) (before : Option Pushed) (pkt : Packet) (counts : Counts corrector pkt)
    (shown : ClockShown corrector before) (other : ofVideo (corrector.pushed pkt) = false) :
    ClockShown (corrector.correctTimestamp pkt).1 before := by
  have type : pkt.type ≠ kPacketTypeVideo := ne_of_beq_false other
  have ruled : correctionRule pkt ≠ some .videoByVideo := by
    rw [correctionRule, counts.plain.media, if_neg Bool.false_ne_true, if_neg type]
    split
    · intro audio
      cases audio
    · intro none
      cases none
  obtain ⟨sound, original, corrected⟩ :=
    other_rule_keeps_clock corrector pkt (plain_stored pkt counts.plain) shown.sound ruled
  refine ⟨sound, ?_, ?_⟩
  · rw [original]
    exact shown.begun
  · rw [corrected]
    exact shown.shown

theorem numbers_counted (list : List Packet) (plain : ∀ pkt ∈ list, PlainFrame pkt) (few : ShortRuns list) :
    (correctAll {} list).audioNumbersBetweenVideo = audioRun list := by
  induction list using List.reverseRecOn with
  | nil => rfl
  | append_singleton past pkt ih =>
      have here := plain pkt (List.mem_append_right _ (List.mem_singleton_self _))
      have before := ih (fun frame inPast => plain frame (List.mem_append_left _ inPast)) fun front inPast =>
        few front (inPast.trans (List.prefix_append _ _))
      have now := few (past ++ [pkt]) (List.prefix_refl _)
      rw [correct_all_append]
      change ((correctAll {} past).correctTimestamp pkt).1.audioNumbersBetweenVideo = _
      by_cases video : pkt.type = kPacketTypeVideo
      · obtain ⟨time, clock, _, _, stepped⟩ := video_step (correctAll {} past) pkt here video
        rw [stepped, audio_run_video past pkt video]
        rfl
      · have run := audio_run_audio past pkt video
        rw [correct_audio _ pkt here (other_type pkt here video), audio_numbers, before,
          to_int32_exact _ ⟨by omega, by omega⟩, run]
        rfl

theorem all_counts (list : List Packet) (plain : ∀ pkt ∈ list, PlainFrame pkt) (few : ShortRuns list) :
    ∀ pushed ∈ pushedFrom {} list, Counts pushed.corrector pushed.packet := by
  induction list using List.reverseRecOn with
  | nil => exact fun _ impossible => absurd impossible List.not_mem_nil
  | append_singleton past pkt ih =>
      have plainBefore : ∀ frame ∈ past, PlainFrame frame := fun frame inPast => plain frame (List.mem_append_left _ inPast)
      have fewBefore : ShortRuns past := fun front inPast => few front (inPast.trans (List.prefix_append _ _))
      have numbers := numbers_counted past plainBefore fewBefore
      rw [pushed_from_append, List.forall_mem_append]
      refine ⟨ih plainBefore fewBefore, List.forall_mem_singleton.mpr ⟨?_, ?_, fun audio => ?_⟩⟩
      · exact plain pkt (List.mem_append_right _ (List.mem_singleton_self _))
      · rw [numbers]
        exact Int.natCast_nonneg _
      · have now := few (past ++ [pkt]) (List.prefix_refl _)
        have run := audio_run_audio past pkt (by rw [show pkt.type = kPacketTypeAudio from audio]; decide)
        rw [numbers]
        omega

def lowFrameRate : List Packet :=
  [plainPacket 1 0, plainPacket 2 90, plainPacket 2 180, plainPacket 1 300, plainPacket 2 300]

end Lssvc.Live
