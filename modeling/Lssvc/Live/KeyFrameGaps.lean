import Lssvc.Live.Viewing
import Mathlib.Data.List.Chain

set_option autoImplicit false

namespace Lssvc.Live

open Lssvc.Foundation Lssvc.Mmedia

def GapsAtKeyFrames (delivered : List Packet) : Prop :=
  delivered.IsChain fun earlier later => later.index = earlier.index + 1 ∨ later.isKeyFrame = true

-- A player served before that lags and is not moved by skipFrame is given the
-- packet that has overwritten its next frame.
def OverwrittenByKeyFrame (viewing : Viewing) : ViewEvent → Prop
  | .addPacket _ => True
  | .getFrames =>
      viewing.delivered ≠ [] → viewing.stream.lagging viewing.user = true → viewing.stream.Declines viewing.user →
        ∀ pkt, viewing.stream.packetBuffer (LiveStream.slot (viewing.user.outIndex + 1)) = some pkt →
          pkt.isKeyFrame = true

theorem gaps_of_consecutive (added : List Packet)
    (consecutive : added.IsChain fun earlier later => later.index = earlier.index + 1) : GapsAtKeyFrames added :=
  List.IsChain.imp (fun _ _ next => .inl next) consecutive

theorem gaps_step (viewing : Viewing) (event : ViewEvent) (few : viewing.stream.frameIndex < 2147483648)
    (sound : ViewSound viewing) :
    GapsAtKeyFrames (viewStep viewing event).delivered ↔
      GapsAtKeyFrames viewing.delivered ∧ OverwrittenByKeyFrame viewing event := by
  cases event with
  | addPacket packet => exact ⟨fun gaps => ⟨gaps, trivial⟩, fun both => both.1⟩
  | getFrames =>
      obtain ⟨ring, idle, low, last, media⟩ := sound
      rw [viewStep]
      dsimp only
      rw [GapsAtKeyFrames, List.isChain_append]
      by_cases fresh : viewing.delivered = []
      · have consecutive : GapsAtKeyFrames (viewing.stream.getFrames viewing.user).outFrames := by
          cases hasMedia : viewing.stream.hasMedia with
          | false =>
              rw [get_frames_idle viewing.stream viewing.user hasMedia, pending_frames viewing.user idle]
              exact .nil
          | true =>
              obtain ⟨index, turns, added, out, run, all, _⟩ :=
                get_frames_delivery viewing.stream viewing.user ring few hasMedia idle low
              rw [all]
              exact gaps_of_consecutive added run.consecutive
        rw [fresh]
        exact ⟨fun _ => ⟨.nil, fun some => absurd fresh some⟩, fun _ => ⟨.nil, consecutive, by simp⟩⟩
      · obtain ⟨newest, final⟩ := Option.isSome_iff_exists.mp (List.getLast?_isSome.mpr fresh)
        obtain ⟨place, served⟩ := last newest final
        obtain ⟨index, added, run, all, _, resumes⟩ := get_frames_served viewing.stream viewing.user ring few
          (media fresh) idle (place ▸ served)
        have junction : (∀ earlier ∈ viewing.delivered.getLast?, ∀ later ∈ added.head?,
            later.index = earlier.index + 1 ∨ later.isKeyFrame = true) ↔ OverwrittenByKeyFrame viewing .getFrames := by
          rw [OverwrittenByKeyFrame, final, ← resumes, place]
          simp only [Option.mem_some_iff, forall_eq', fresh, ne_eq, not_false_eq_true, forall_const]
        rw [all, junction]
        constructor
        · intro both
          exact ⟨both.1, both.2.2⟩
        · intro both
          exact ⟨both.1, gaps_of_consecutive added run.consecutive, both.2⟩

theorem frame_index_run (contentLatency : Int) (events : List ViewEvent) :
    (run viewStep (.fresh contentLatency) events).stream.frameIndex = packetCount events - 1 := by
  induction events using List.reverseRecOn with
  | nil => rfl
  | append_singleton past event ih =>
      rw [run_snoc, packetCount, List.countP_append]
      rw [packetCount] at ih
      cases event with
      | addPacket packet =>
          rw [viewStep]
          dsimp only
          rw [add_packet_frame_index, ih]
          simp only [List.countP_singleton, ne_eq, reduceCtorEq, not_false_eq_true, decide_true, if_true]
          omega
      | getFrames => simpa [viewStep] using ih

theorem packet_count_le (past rest : List ViewEvent) : packetCount past ≤ packetCount (past ++ rest) := by
  rw [packetCount, packetCount, List.countP_append]
  exact Nat.le_add_right _ _

theorem view_run_sound (contentLatency : Int) (events : List ViewEvent) (few : packetCount events < 2147483648) :
    ViewSound (run viewStep (.fresh contentLatency) events) := by
  refine run_history (fun past viewing => packetCount past < 2147483648 → ViewSound viewing) (fun _ _ => True)
    (fun _ => fresh_view_sound contentLatency) ?_ events (fun _ _ _ _ => trivial) few
  intro past event _ soundBefore fewAfter
  have fewBefore := Nat.lt_of_le_of_lt (packet_count_le past [event]) fewAfter
  have index := frame_index_run contentLatency past
  have indexAfter := frame_index_run contentLatency (past ++ [event])
  cases event with
  | addPacket packet =>
      refine add_packet_view_sound _ packet ?_ (soundBefore fewBefore)
      rw [run_snoc, viewStep] at indexAfter
      dsimp only at indexAfter
      rw [add_packet_frame_index] at indexAfter
      omega
  | getFrames => exact get_frames_sound _ (by omega) (soundBefore fewBefore)

theorem gaps_at_key_frames_iff (contentLatency : Int) (events : List ViewEvent) (few : packetCount events < 2147483648) :
    GapsAtKeyFrames (run viewStep (.fresh contentLatency) events).delivered ↔
      ∀ pair ∈ met viewStep (.fresh contentLatency) events, OverwrittenByKeyFrame pair.1 pair.2 := by
  refine run_always_iff (fun viewing : Viewing => GapsAtKeyFrames viewing.delivered) OverwrittenByKeyFrame ?_ events ?_
  · exact .nil
  · intro past event rest cut
    have fewBefore : packetCount past < 2147483648 :=
      Nat.lt_of_le_of_lt (packet_count_le past (event :: rest)) (cut ▸ few)
    have index := frame_index_run contentLatency past
    exact gaps_step _ event (by omega) (view_run_sound contentLatency past fewBefore)

def videoHeader : Packet := { type := kPacketTypeVideo, capacity := 2, body := [0x17, 0] }

def interFrame : Packet := { type := kPacketTypeVideo, capacity := 2, body := [0x27, 1] }

def keyFrame : Packet := { videoHeader with body := [0x17, 1] }

def laggingPlayer : List ViewEvent :=
  [.addPacket videoHeader, .addPacket keyFrame, .addPacket { interFrame with timestamp := 40 }, .getFrames,
    .addPacket { interFrame with timestamp := 80 }, .addPacket { interFrame with timestamp := 120 },
    .addPacket { keyFrame with timestamp := 160 }, .addPacket { interFrame with timestamp := 200 }, .getFrames]

theorem gaps_at_key_frames_skipped :
    packetCount laggingPlayer < 2147483648 ∧
      (run viewStep (.fresh 40) laggingPlayer).delivered.map (fun pkt => pkt.index) = [0, 1, 2, 5, 6] ∧
      (GapsAtKeyFrames (run viewStep (.fresh 40) laggingPlayer).delivered ↔
        ∀ pair ∈ met viewStep (.fresh 40) laggingPlayer, OverwrittenByKeyFrame pair.1 pair.2) :=
  ⟨by decide, by decide +kernel, gaps_at_key_frames_iff 40 _ (by decide)⟩

theorem inter_frame_stamp (stream : LiveStream) : (stream.stamp interFrame).isKeyFrame = false := by
  have inter : isKeyFrame { interFrame with
      timestamp := (stream.timeCorrector.correctTimestamp interFrame).2
      index := toInt32 (stream.frameIndex + 1) } = false := by
    simp only [isKeyFrame, interFrame]
    decide
  simp only [LiveStream.stamp, inter, Bool.and_false, Bool.false_eq_true, if_false]
  change interFrame.isKeyFrame = false
  decide

theorem inter_frames_run (count : Nat) (viewing : Viewing)
    (first : ∀ slot pkt, viewing.stream.packetBuffer slot = some pkt → pkt.isKeyFrame = true → pkt.index = 0) :
    (run viewStep viewing (List.replicate count (.addPacket interFrame))).user = viewing.user ∧
      (run viewStep viewing (List.replicate count (.addPacket interFrame))).delivered = viewing.delivered ∧
      ∀ slot pkt, (run viewStep viewing (List.replicate count (.addPacket interFrame))).stream.packetBuffer slot =
        some pkt → pkt.isKeyFrame = true → pkt.index = 0 := by
  induction count generalizing viewing with
  | zero => exact ⟨rfl, rfl, first⟩
  | succ count ih =>
      refine ih (viewStep viewing (.addPacket interFrame)) ?_
      intro slot pkt found key
      rw [viewStep] at found
      dsimp only at found
      rw [add_packet_buffer] at found
      by_cases newest : slot = LiveStream.slot (viewing.stream.frameIndex + 1)
      · rw [newest, Function.update_self] at found
        cases found
        rw [inter_frame_stamp] at key
        cases key
      · rw [Function.update_of_ne newest] at found
        exact first slot pkt found key

def longGop (count : Nat) : List ViewEvent :=
  [.addPacket videoHeader, .getFrames] ++ List.replicate count (.addPacket interFrame)

theorem long_gop_count (count : Nat) : packetCount (longGop count) = count + 1 := by
  rw [packetCount, longGop, List.countP_append, List.countP_replicate, if_pos (by decide), Nat.add_comm]
  rfl

theorem long_gop_joined :
    (run viewStep (.fresh 3000) [.addPacket videoHeader, .getFrames]).user.outIndex = 0 ∧
      (run viewStep (.fresh 3000) [.addPacket videoHeader, .getFrames]).delivered ≠ [] ∧
      ∀ slot pkt, (run viewStep (.fresh 3000) [.addPacket videoHeader, .getFrames]).stream.packetBuffer slot =
        some pkt → pkt.isKeyFrame = true → pkt.index = 0 := by
  refine ⟨by decide +kernel, by decide +kernel, ?_⟩
  intro slot pkt found _
  change (LiveStream.addPacket {} videoHeader).packetBuffer slot = some pkt at found
  rw [add_packet_buffer] at found
  by_cases first : slot = LiveStream.slot (({} : LiveStream).frameIndex + 1)
  · rw [first, Function.update_self] at found
    cases found
    exact stamp_index {} videoHeader
  · rw [Function.update_of_ne first] at found
    cases found

theorem long_gop_overwritten (count : Nat) (long : 1001 ≤ count) (few : count < 2147483647) :
    ¬ OverwrittenByKeyFrame (run viewStep (.fresh 3000) (longGop count)) .getFrames := by
  obtain ⟨joined, served, first⟩ := long_gop_joined
  obtain ⟨user, delivered, keys⟩ := inter_frames_run count _ first
  rw [← run_append, ← longGop] at user delivered keys
  rw [← user] at joined
  rw [← delivered] at served
  have index := frame_index_run 3000 (longGop count)
  obtain ⟨ring, _⟩ := view_run_sound 3000 (longGop count) (by rw [long_gop_count]; omega)
  rw [long_gop_count] at index
  generalize run viewStep (.fresh 3000) (longGop count) = viewing at *
  have size : (packetBufferSize : Int) = 1000 := rfl
  have lags := (lagging_iff viewing.stream viewing.user ring.begun (by omega)).mpr (by omega)
  have declined : viewing.stream.Declines viewing.user := by
    rcases gop_by_latency_listed viewing.stream.gopMgr viewing.user.contentLatency with none | ⟨gop, listed, _⟩
    · exact .inl none
    · obtain ⟨low, high, recent⟩ := ring.gops gop listed
      obtain ⟨pkt, found, place⟩ := ring.window.filled gop.index low high (by omega)
      have first := keys _ pkt found (ring.keys gop listed pkt found place)
      omega
  obtain ⟨pkt, found, _, younger⟩ := window_read (by decide) ring.window (viewing.user.outIndex + 1)
    (by omega) (by omega)
  intro overwritten
  have zero := keys _ pkt found (overwritten served lags declined pkt found)
  have := younger (by omega)
  omega

theorem resumes_inside_gop :
    ¬ ∀ contentLatency events, packetCount events < 2147483648 →
      GapsAtKeyFrames (run viewStep (.fresh contentLatency) events).delivered := by
  intro claim
  have short : packetCount (longGop 1001 ++ [ViewEvent.getFrames]) < 2147483648 := by
    rw [packetCount, List.countP_append, ← packetCount, long_gop_count]
    decide
  have gaps := claim 3000 (longGop 1001 ++ [ViewEvent.getFrames]) short
  have index := frame_index_run 3000 (longGop 1001)
  rw [long_gop_count] at index
  have sound := view_run_sound 3000 (longGop 1001) (by rw [long_gop_count]; decide)
  rw [run_snoc, gaps_step _ _ (by omega) sound] at gaps
  exact long_gop_overwritten 1001 (by decide) (by decide) gaps.2

end Lssvc.Live
