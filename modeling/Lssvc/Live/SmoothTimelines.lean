import Lssvc.Foundation.Runs
import Lssvc.Live.CorrectedTimes
import Mathlib.Data.List.DropRight

set_option autoImplicit false

namespace Lssvc.Live

open Lssvc.Foundation Lssvc.Mmedia

structure PlainFrame (pkt : Packet) : Prop where
  media : isCodecHeader pkt = false
  type : pkt.type = kPacketTypeVideo ∨ pkt.type = kPacketTypeAudio
  timestamp : pkt.timestamp < 4294967296

instance (pkt : Packet) : Decidable (PlainFrame pkt) :=
  decidable_of_iff
    (isCodecHeader pkt = false ∧ (pkt.type = kPacketTypeVideo ∨ pkt.type = kPacketTypeAudio) ∧
      pkt.timestamp < 4294967296)
    ⟨fun ⟨media, type, timestamp⟩ => ⟨media, type, timestamp⟩,
      fun ⟨media, type, timestamp⟩ => ⟨media, type, timestamp⟩⟩

def lastOf (type : Nat) (past : List Packet) : Option Packet := (past.filter fun pkt => pkt.type == type).getLast?

def Close (earlier later : Packet) : Prop := |(later.timestamp : Int) - earlier.timestamp| < 100

structure SmoothAfter (past : List Packet) (pkt : Packet) : Prop where
  video : pkt.type = kPacketTypeVideo → ∀ last ∈ lastOf kPacketTypeVideo past, Close last pkt
  firstVideo : pkt.type = kPacketTypeVideo → lastOf kPacketTypeVideo past = none →
    ∀ last ∈ lastOf kPacketTypeAudio past, Close last pkt
  firstAudio : pkt.type = kPacketTypeAudio → ∀ last ∈ past.getLast?, last.type = kPacketTypeVideo → Close last pkt
  audio : pkt.type = kPacketTypeAudio → (∀ last ∈ past.getLast?, last.type ≠ kPacketTypeVideo) →
    ∀ last ∈ lastOf kPacketTypeAudio past, Close last pkt

instance (earlier later : Packet) : Decidable (Close earlier later) := inferInstanceAs (Decidable (_ < _))

instance (past : List Packet) (pkt : Packet) : Decidable (SmoothAfter past pkt) :=
  decidable_of_iff
    ((pkt.type = kPacketTypeVideo → ∀ last ∈ lastOf kPacketTypeVideo past, Close last pkt) ∧
      (pkt.type = kPacketTypeVideo → lastOf kPacketTypeVideo past = none →
        ∀ last ∈ lastOf kPacketTypeAudio past, Close last pkt) ∧
      (pkt.type = kPacketTypeAudio → ∀ last ∈ past.getLast?, last.type = kPacketTypeVideo → Close last pkt) ∧
      (pkt.type = kPacketTypeAudio → (∀ last ∈ past.getLast?, last.type ≠ kPacketTypeVideo) →
        ∀ last ∈ lastOf kPacketTypeAudio past, Close last pkt))
    ⟨fun ⟨video, firstVideo, firstAudio, audio⟩ => ⟨video, firstVideo, firstAudio, audio⟩,
      fun ⟨video, firstVideo, firstAudio, audio⟩ => ⟨video, firstVideo, firstAudio, audio⟩⟩

def timeOf (last : Option Packet) : Int := last.elim (-1) fun pkt => pkt.timestamp

def audioRun (past : List Packet) : Nat := (past.rtakeWhile fun pkt => pkt.type != kPacketTypeVideo).length

-- audio_numbers_between_video_ counts a row of them in an int32_t.
def ShortRuns (list : List Packet) : Prop := ∀ past, past <+: list → audioRun past < 2147483648

structure InTime (past : List Packet) (corrector : TimeCorrector) : Prop where
  videoOriginal : corrector.videoOriginalTimestamp = timeOf (lastOf kPacketTypeVideo past)
  videoCorrected : corrector.videoCorrectedTimestamp = timeOf (lastOf kPacketTypeVideo past)
  audioOriginal : corrector.audioOriginalTimestamp = timeOf (lastOf kPacketTypeAudio past)
  audioCorrected : corrector.audioCorrectedTimestamp = timeOf (lastOf kPacketTypeAudio past)
  numbers : corrector.audioNumbersBetweenVideo = audioRun past

theorem audio_run_video (past : List Packet) (pkt : Packet) (video : pkt.type = kPacketTypeVideo) :
    audioRun (past ++ [pkt]) = 0 := by
  rw [audioRun, List.rtakeWhile_concat_neg _ _ _ (by simp [video]), List.length_nil]

theorem audio_run_audio (past : List Packet) (pkt : Packet) (other : pkt.type ≠ kPacketTypeVideo) :
    audioRun (past ++ [pkt]) = audioRun past + 1 := by
  rw [audioRun, List.rtakeWhile_concat_pos _ _ _ (by simpa using other), List.length_append, List.length_singleton, audioRun]

theorem audio_run_zero (past : List Packet) :
    audioRun past = 0 ↔ ∀ last ∈ past.getLast?, last.type = kPacketTypeVideo := by
  rcases List.eq_nil_or_concat past with rfl | ⟨front, last, rfl⟩
  · exact ⟨fun _ _ impossible => (by cases impossible), fun _ => rfl⟩
  · rw [List.concat_eq_append, List.getLast?_concat]
    by_cases video : last.type = kPacketTypeVideo
    · rw [audio_run_video front last video]
      refine ⟨fun _ other isLast => ?_, fun _ => rfl⟩
      cases isLast
      exact video
    · rw [audio_run_audio front last video]
      exact ⟨fun zero => absurd zero (Nat.succ_ne_zero _), fun every => absurd (every last rfl) video⟩

theorem short_runs_of_length (list : List Packet) (few : list.length < 2147483648) : ShortRuns list := by
  intro past inList
  have most := (List.rtakeWhile_suffix (fun pkt : Packet => pkt.type != kPacketTypeVideo) past).length_le
  exact Nat.lt_of_le_of_lt (Nat.le_trans most inList.length_le) few

theorem last_of_snoc (type : Nat) (past : List Packet) (pkt : Packet) :
    lastOf type (past ++ [pkt]) = if pkt.type = type then some pkt else lastOf type past := by
  rw [lastOf, List.filter_append, List.filter_singleton]
  by_cases same : pkt.type = type
  · rw [if_pos same, same, beq_self_eq_true, cond_true, List.getLast?_concat]
  · rw [if_neg same, beq_false_of_ne same, cond_false, List.append_nil, lastOf]

theorem time_of_some (pkt : Packet) : timeOf (some pkt) = pkt.timestamp := rfl

theorem time_of_none (last : Option Packet) : timeOf last = -1 ↔ last = none := by
  cases last with
  | none => exact ⟨fun _ => rfl, fun _ => rfl⟩
  | some pkt =>
      rw [time_of_some]
      constructor
      · intro negative
        omega
      · intro impossible
        cases impossible

theorem fine_delta_exact (delta default : Int) (close : |delta| < 100) : fineDelta delta 100 default = delta := by
  obtain ⟨low, high⟩ := abs_lt.mp close
  exact if_pos ⟨low, high⟩

theorem clock_exact (last time default : Int) (positive : 0 ≤ time) (close : |time - last| < 100) :
    max (last + fineDelta (time - last) 100 default) 0 = time := by
  rw [fine_delta_exact _ _ close]
  omega

theorem video_exact (corrector : TimeCorrector) (time : Nat)
    (same : corrector.videoCorrectedTimestamp = corrector.videoOriginalTimestamp)
    (continues : corrector.videoOriginalTimestamp ≠ -1 → |(time : Int) - corrector.videoOriginalTimestamp| < 100)
    (starts : corrector.videoOriginalTimestamp = -1 → corrector.audioOriginalTimestamp ≠ -1 →
      |(time : Int) - corrector.audioOriginalTimestamp| < 100) :
    (corrector.firstVideo time).videoCorrectedTimestamp = (corrector.firstVideo time).videoOriginalTimestamp ∧
      |(time : Int) - (corrector.firstVideo time).videoOriginalTimestamp| < 100 := by
  unfold TimeCorrector.firstVideo
  by_cases first : corrector.videoOriginalTimestamp = -1
  · rw [if_pos first]
    have kept : ¬ (corrector.audioOriginalTimestamp ≠ -1 ∧
        (toInt32 (corrector.audioOriginalTimestamp - time) ≤ -kMaxVideoDeltaTime ∨
          toInt32 (corrector.audioOriginalTimestamp - time) ≥ kMaxVideoDeltaTime)) := by
      rintro ⟨heard, far⟩
      obtain ⟨low, high⟩ := abs_lt.mp (starts first heard)
      rw [to_int32_exact _ ⟨by omega, by omega⟩, kMaxVideoDeltaTime] at far
      omega
    dsimp only
    rw [if_neg kept]
    exact ⟨rfl, by simp⟩
  · rw [if_neg first]
    exact ⟨same, continues first⟩

theorem plain_stored (pkt : Packet) (plain : PlainFrame pkt) : Stored pkt := by
  refine ⟨.inl ?_, plain.timestamp⟩
  rcases plain.type with video | audio
  · exact .inl video
  · exact .inr (.inl audio)

theorem plain_time (pkt : Packet) (plain : PlainFrame pkt) : pkt.getTimestamp = pkt.timestamp :=
  stored_time pkt (plain_stored pkt plain)

theorem correct_video (corrector : TimeCorrector) (pkt : Packet) (plain : PlainFrame pkt)
    (video : pkt.type = kPacketTypeVideo) :
    corrector.correctTimestamp pkt = corrector.correctVideoTimestampByVideo pkt := by
  rw [TimeCorrector.correctTimestamp, plain.media, if_neg Bool.false_ne_true, if_pos video]

theorem correct_audio (corrector : TimeCorrector) (pkt : Packet) (plain : PlainFrame pkt)
    (audio : pkt.type = kPacketTypeAudio) :
    corrector.correctTimestamp pkt = corrector.correctAudioTimestampByVideo pkt := by
  have other : pkt.type ≠ kPacketTypeVideo := by
    rw [audio]
    decide
  rw [TimeCorrector.correctTimestamp, plain.media, if_neg Bool.false_ne_true, if_neg other, if_pos audio]

theorem close_to (last : Option Packet) (pkt : Packet) (close : ∀ earlier ∈ last, Close earlier pkt)
    (seen : timeOf last ≠ -1) : |(pkt.timestamp : Int) - timeOf last| < 100 := by
  cases last with
  | none => exact absurd rfl seen
  | some earlier => exact close earlier rfl

theorem video_in_time (past : List Packet) (corrector : TimeCorrector) (pkt : Packet) (plain : PlainFrame pkt)
    (video : pkt.type = kPacketTypeVideo) (smooth : SmoothAfter past pkt) (inTime : InTime past corrector) :
    InTime (past ++ [pkt]) (corrector.correctTimestamp pkt).1 ∧
      (corrector.correctTimestamp pkt).2 = pkt.timestamp := by
  obtain ⟨videoOriginal, videoCorrected, audioOriginal, audioCorrected, _⟩ := inTime
  have other : pkt.type ≠ kPacketTypeAudio := by
    rw [video]
    decide
  have continues (seen : corrector.videoOriginalTimestamp ≠ -1) :
      |(pkt.timestamp : Int) - corrector.videoOriginalTimestamp| < 100 := by
    rw [videoOriginal] at seen ⊢
    exact close_to _ pkt (smooth.video video) seen
  have starts (first : corrector.videoOriginalTimestamp = -1) (heard : corrector.audioOriginalTimestamp ≠ -1) :
      |(pkt.timestamp : Int) - corrector.audioOriginalTimestamp| < 100 := by
    rw [videoOriginal] at first
    rw [audioOriginal] at heard ⊢
    exact close_to _ pkt (smooth.firstVideo video ((time_of_none _).mp first)) heard
  obtain ⟨shown, close⟩ := video_exact { corrector with audioNumbersBetweenVideo := 0 } pkt.timestamp
    (videoCorrected.trans videoOriginal.symm) continues starts
  obtain ⟨keptOriginal, keptCorrected⟩ :=
    first_video_audio { corrector with audioNumbersBetweenVideo := 0 } pkt.timestamp
  rw [correct_video corrector pkt plain video, TimeCorrector.correctVideoTimestampByVideo, plain_time pkt plain]
  dsimp only
  rw [shown, kMaxVideoDeltaTime, clock_exact _ _ _ (Int.natCast_nonneg _) close]
  refine ⟨⟨?_, ?_, ?_, ?_, ?_⟩, to_uint32_nat _ plain.timestamp⟩
  · rw [last_of_snoc, if_pos video, time_of_some]
  · rw [last_of_snoc, if_pos video, time_of_some]
  · rw [last_of_snoc, if_neg other, ← audioOriginal]
    exact keptOriginal
  · rw [last_of_snoc, if_neg other, ← audioCorrected]
    exact keptCorrected
  · rw [audio_run_video past pkt video]
    exact first_video_numbers _ _

theorem last_of_last (type : Nat) (past : List Packet) (last : Packet) (isLast : past.getLast? = some last)
    (same : last.type = type) : lastOf type past = some last := by
  obtain ⟨front, rfl⟩ := List.getLast?_eq_some_iff.mp isLast
  rw [last_of_snoc, if_pos same]

theorem audio_placed (past : List Packet) (corrector : TimeCorrector) (pkt : Packet)
    (audio : pkt.type = kPacketTypeAudio) (smooth : SmoothAfter past pkt) (inTime : InTime past corrector) :
    (corrector.audioNumbersBetweenVideo ≠ 0 → corrector.audioOriginalTimestamp ≠ -1 →
        |(pkt.timestamp : Int) - corrector.audioOriginalTimestamp| < 100) ∧
      (corrector.audioNumbersBetweenVideo = 0 → corrector.videoOriginalTimestamp ≠ -1 →
        |(pkt.timestamp : Int) - corrector.videoOriginalTimestamp| < 100) := by
  obtain ⟨videoOriginal, _, audioOriginal, _, numbers⟩ := inTime
  constructor
  · intro counted heard
    have between : ∀ last ∈ past.getLast?, last.type ≠ kPacketTypeVideo := by
      intro last isLast video
      have none' := (audio_run_zero past).mpr fun other isOther => by
        rw [Option.mem_unique isOther isLast]
        exact video
      exact counted (by rw [numbers, none']; rfl)
    rw [audioOriginal] at heard ⊢
    exact close_to _ pkt (smooth.audio audio between) heard
  · intro uncounted seen
    rw [videoOriginal] at seen ⊢
    refine close_to _ pkt (fun video isVideo => ?_) seen
    cases isLast : past.getLast? with
    | none =>
        rw [List.getLast?_eq_none_iff.mp isLast] at isVideo
        cases isVideo
    | some last =>
        have type := (audio_run_zero past).mp (by omega) last isLast
        rw [last_of_last kPacketTypeVideo past last isLast type] at isVideo
        obtain rfl : last = video := Option.some_inj.mp isVideo
        exact smooth.firstAudio audio last isLast type

theorem audio_in_time (past : List Packet) (corrector : TimeCorrector) (pkt : Packet) (plain : PlainFrame pkt)
    (audio : pkt.type = kPacketTypeAudio) (smooth : SmoothAfter past pkt)
    (few : audioRun (past ++ [pkt]) < 2147483648) (inTime : InTime past corrector) :
    InTime (past ++ [pkt]) (corrector.correctTimestamp pkt).1 ∧
      (corrector.correctTimestamp pkt).2 = pkt.timestamp := by
  obtain ⟨byAudio, byVideo⟩ := audio_placed past corrector pkt audio smooth inTime
  obtain ⟨videoOriginal, videoCorrected, audioOriginal, audioCorrected, numbers⟩ := inTime
  have word := to_uint32_nat pkt.timestamp plain.timestamp
  have other : pkt.type ≠ kPacketTypeVideo := by
    rw [audio]
    decide
  have one := audio_run_audio past pkt other
  have counted : toInt32 (corrector.audioNumbersBetweenVideo + 1) = corrector.audioNumbersBetweenVideo + 1 :=
    to_int32_exact _ ⟨by omega, by omega⟩
  suffices stepped : corrector.correctTimestamp pkt =
      ({ corrector with
          audioOriginalTimestamp := pkt.timestamp
          audioCorrectedTimestamp := pkt.timestamp
          audioNumbersBetweenVideo := corrector.audioNumbersBetweenVideo + 1 }, pkt.timestamp) by
    rw [stepped]
    refine ⟨⟨?_, ?_, ?_, ?_, ?_⟩, rfl⟩
    · rw [last_of_snoc, if_neg other]
      exact videoOriginal
    · rw [last_of_snoc, if_neg other]
      exact videoCorrected
    · rw [last_of_snoc, if_pos audio, time_of_some]
    · rw [last_of_snoc, if_pos audio, time_of_some]
    · rw [one, numbers]
      rfl
  rw [correct_audio corrector pkt plain audio, TimeCorrector.correctAudioTimestampByVideo, counted]
  dsimp only
  by_cases more : corrector.audioNumbersBetweenVideo + 1 > 1
  · rw [if_pos more, TimeCorrector.correctAudioTimestampByAudio, plain_time pkt plain]
    dsimp only
    by_cases first : corrector.audioOriginalTimestamp = -1
    · rw [if_pos first, word]
    · have close := byAudio (by omega) first
      rw [if_neg first, audioCorrected, ← audioOriginal, kMaxAudioDeltaTime,
        clock_exact _ _ _ (Int.natCast_nonneg _) close, word]
  · rw [if_neg more, plain_time pkt plain]
    by_cases first : corrector.videoOriginalTimestamp = -1
    · rw [if_pos first, word]
    · have close := byVideo (by omega) first
      rw [if_neg first, videoCorrected, ← videoOriginal, kMaxVideoDeltaTime,
        clock_exact _ _ _ (Int.natCast_nonneg _) close, word]

theorem frame_in_time (past : List Packet) (corrector : TimeCorrector) (pkt : Packet) (plain : PlainFrame pkt)
    (smooth : SmoothAfter past pkt) (few : audioRun (past ++ [pkt]) < 2147483648) (inTime : InTime past corrector) :
    InTime (past ++ [pkt]) (corrector.correctTimestamp pkt).1 ∧
      (corrector.correctTimestamp pkt).2 = pkt.timestamp := by
  rcases plain.type with video | audio
  · exact video_in_time past corrector pkt plain video smooth inTime
  · exact audio_in_time past corrector pkt plain audio smooth few inTime

theorem in_time_fresh : InTime [] {} := ⟨rfl, rfl, rfl, rfl, rfl⟩

theorem all_in_time (list : List Packet) (plain : ∀ pkt ∈ list, PlainFrame pkt)
    (smooth : ∀ past pkt rest, list = past ++ pkt :: rest → SmoothAfter past pkt) (few : ShortRuns list) :
    InTime list (correctAll {} list) := by
  refine run_history InTime (fun past pkt => PlainFrame pkt ∧ SmoothAfter past pkt ∧ audioRun (past ++ [pkt]) < 2147483648)
    in_time_fresh (fun past pkt ⟨plain, smooth, few⟩ inTime => (frame_in_time past _ pkt plain smooth few inTime).1) list ?_
  intro past pkt rest cut
  exact ⟨plain pkt (by simp [cut]), smooth past pkt rest cut, few _ ⟨rest, by simp [cut]⟩⟩

theorem smooth_unchanged (list : List Packet) (plain : ∀ pkt ∈ list, PlainFrame pkt)
    (smooth : ∀ past pkt rest, list = past ++ pkt :: rest → SmoothAfter past pkt) (few : ShortRuns list) :
    ∀ past pkt rest, list = past ++ pkt :: rest →
      ((correctAll {} past).correctTimestamp pkt).2 = pkt.timestamp := by
  intro past pkt rest cut
  have earlier : InTime past (correctAll {} past) := by
    refine all_in_time past (fun frame inPast => plain frame (by simp [cut, inPast])) ?_ fun front inPast =>
      few front (inPast.trans ⟨pkt :: rest, cut.symm⟩)
    intro before frame after cut'
    exact smooth before frame (after ++ pkt :: rest) (by rw [cut, cut', List.append_assoc, List.cons_append])
  exact (frame_in_time past _ pkt (plain pkt (by simp [cut])) (smooth past pkt rest cut)
    (few _ ⟨rest, by simp [cut]⟩) earlier).2

def plainPacket (type timestamp : Nat) : Packet :=
  { type := type, timestamp := timestamp, capacity := 2, body := [39, 1] }

theorem smooth_unchanged_mixed :
    ((correctAll {} [plainPacket 2 1000, plainPacket 1 1040, plainPacket 2 1060]).correctTimestamp
      (plainPacket 2 1080)).2 = 1080 := by
  refine smooth_unchanged
    ([] ++ [plainPacket 2 1000] ++ [plainPacket 1 1040] ++ [plainPacket 2 1060] ++ [plainPacket 2 1080]) (by decide) ?_
    (short_runs_of_length _ (by decide)) [plainPacket 2 1000, plainPacket 1 1040, plainPacket 2 1060] (plainPacket 2 1080) []
    rfl
  refine each_event_snoc _ _ _ (each_event_snoc _ _ _ (each_event_snoc _ _ _ (each_event_snoc _ _ _ ?_ ?_) ?_) ?_) ?_
  · exact each_event_nil _
  all_goals decide

def standingAudio (count : Nat) : List Packet :=
  [plainPacket 1 0, plainPacket 2 90, plainPacket 2 180] ++ List.replicate count (plainPacket 2 180)

theorem standing_audio_snoc (count : Nat) : standingAudio (count + 1) = standingAudio count ++ [plainPacket 2 180] := by
  rw [standingAudio, List.replicate_succ', ← List.append_assoc, standingAudio]

theorem standing_audio_plain (count : Nat) : ∀ pkt ∈ standingAudio count, PlainFrame pkt := by
  have base : ∀ pkt ∈ [plainPacket 1 0, plainPacket 2 90, plainPacket 2 180], PlainFrame pkt := by decide
  intro pkt inList
  rcases List.mem_append.mp inList with first | later
  · exact base pkt first
  · rw [List.eq_of_mem_replicate later]
    decide

theorem standing_audio_last (count : Nat) : (standingAudio count).getLast? = some (plainPacket 2 180) := by
  cases count with
  | zero => rfl
  | succ count => rw [standing_audio_snoc, List.getLast?_concat]

theorem standing_audio_smooth (count : Nat) :
    ∀ past pkt rest, standingAudio count = past ++ pkt :: rest → SmoothAfter past pkt := by
  induction count with
  | zero =>
      refine each_event_snoc _ [plainPacket 1 0, plainPacket 2 90] (plainPacket 2 180)
        (each_event_snoc _ [plainPacket 1 0] (plainPacket 2 90) (each_event_snoc _ [] (plainPacket 1 0) ?_ ?_) ?_) ?_
      · exact each_event_nil _
      all_goals decide
  | succ count ih =>
      rw [standing_audio_snoc]
      refine each_event_snoc _ _ _ ih ⟨nofun, nofun, ?_, ?_⟩
      · rw [standing_audio_last]
        rintro _ _ ⟨rfl⟩ video
        cases video
      · rw [last_of_last kPacketTypeAudio _ _ (standing_audio_last count) rfl]
        rintro _ _ _ ⟨rfl⟩
        decide

theorem standing_audio_video (count : Nat) : lastOf kPacketTypeVideo (standingAudio count) = some (plainPacket 1 0) := by
  induction count with
  | zero => rfl
  | succ count ih => rw [standing_audio_snoc, last_of_snoc, if_neg (by decide), ih]

theorem standing_audio_run (count : Nat) : audioRun (standingAudio count) = count + 2 := by
  induction count with
  | zero => rfl
  | succ count ih => rw [standing_audio_snoc, audio_run_audio _ _ (by decide), ih]

theorem standing_audio_clock (count : Nat) (few : count < 2147483646) :
    correctAll {} (standingAudio count) = ⟨0, 0, 180, 180, (count + 2 : Nat)⟩ := by
  have short : ShortRuns (standingAudio count) := by
    intro past inList
    have length : (standingAudio count).length = count + 3 := by
      rw [standingAudio, List.length_append, List.length_replicate]
      exact Nat.add_comm 3 count
    have most : audioRun past ≤ past.length := (List.rtakeWhile_suffix _ past).length_le
    by_cases whole : past = standingAudio count
    · rw [whole, standing_audio_run]
      omega
    · have shorter : ¬ (standingAudio count).length ≤ past.length := fun long => whole (inList.eq_of_length_le long)
      omega
  obtain ⟨videoOriginal, videoCorrected, audioOriginal, audioCorrected, numbers⟩ :=
    all_in_time _ (standing_audio_plain count) (standing_audio_smooth count) short
  have video := standing_audio_video count
  have audio := last_of_last kPacketTypeAudio _ _ (standing_audio_last count) rfl
  rw [video] at videoOriginal videoCorrected
  rw [audio] at audioOriginal audioCorrected
  rw [standing_audio_run] at numbers
  exact TimeCorrector.ext videoOriginal videoCorrected audioOriginal audioCorrected numbers

theorem long_audio_run_changed :
    ¬ ∀ list : List Packet, (∀ pkt ∈ list, PlainFrame pkt) →
      (∀ past pkt rest, list = past ++ pkt :: rest → SmoothAfter past pkt) →
      ∀ past pkt rest, list = past ++ pkt :: rest → ((correctAll {} past).correctTimestamp pkt).2 = pkt.timestamp := by
  intro claim
  have unchanged := claim (standingAudio (2147483645 + 1)) (standing_audio_plain _) (standing_audio_smooth _)
    (standingAudio 2147483645) (plainPacket 2 180) [] (standing_audio_snoc 2147483645)
  rw [standing_audio_clock 2147483645 (by decide)] at unchanged
  exact absurd unchanged (by decide)

end Lssvc.Live
