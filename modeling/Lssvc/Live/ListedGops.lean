import Lssvc.Live.KeyFrameGaps

set_option autoImplicit false

namespace Lssvc.Live

open Lssvc.Foundation Lssvc.Mmedia

structure GopsHeld (stream : LiveStream) : Prop where
  held : ∀ gop ∈ stream.gopMgr.gops, ∃ pkt, stream.packetBuffer (LiveStream.slot gop.index) = some pkt ∧
    pkt.index = gop.index ∧ pkt.isKeyFrame = true
  increasing : stream.gopMgr.gops.Pairwise fun earlier later => earlier.index < later.index

-- addPacket makes a keyframe of what it finds to be one in the FLV tag header.
def StartsGop (pkt : Packet) : Prop := pkt.isKeyFrame = true ∨ (pkt.isVideo = true ∧ isKeyFrame pkt = true)

theorem stamp_key_frame (stream : LiveStream) (packet : Packet) :
    (stream.stamp packet).isKeyFrame = true ↔ StartsGop packet := by
  have stamped : stream.stamp packet =
      if packet.isVideo && isKeyFrame packet then
        { packet with
          timestamp := (stream.timeCorrector.correctTimestamp packet).2
          index := toInt32 (stream.frameIndex + 1)
          type := kPacketTypeVideo ||| kFrameTypeKeyFrame }
      else
        { packet with
          timestamp := (stream.timeCorrector.correctTimestamp packet).2
          index := toInt32 (stream.frameIndex + 1) } := rfl
  rw [stamped, StartsGop, ← Bool.and_eq_true]
  by_cases video : (packet.isVideo && isKeyFrame packet) = true
  · rw [if_pos video]
    refine ⟨fun _ => .inr video, fun _ => ?_⟩
    simp only [Packet.isKeyFrame]
    decide
  · rw [if_neg video]
    exact ⟨.inl, fun either => either.resolve_right video⟩

structure GopsListed (packets : List Packet) (stream : LiveStream) : Prop where
  sound : RingSound stream
  count : stream.frameIndex + 1 = packets.length
  increasing : stream.gopMgr.gops.Pairwise fun earlier later => earlier.index < later.index
  zero : (∃ gop ∈ stream.gopMgr.gops, gop.index = 0) ↔
    packets.length ≤ 1001 ∧ ∃ first ∈ packets.head?, StartsGop first

theorem add_packet_increasing (stream : LiveStream) (packet : Packet) (sound : RingSound stream)
    (few : stream.frameIndex + 1 < 2147483648)
    (increasing : stream.gopMgr.gops.Pairwise fun earlier later => earlier.index < later.index) :
    (stream.addPacket packet).gopMgr.gops.Pairwise fun earlier later => earlier.index < later.index := by
  have begun := sound.begun
  have exact : toInt32 (stream.frameIndex + 1) = stream.frameIndex + 1 := to_int32_exact _ ⟨by omega, by omega⟩
  have added : (stream.gopMgr.addFrame (stream.stamp packet)).gops.Pairwise
      fun earlier later => earlier.index < later.index := by
    rw [add_frame_gops]
    by_cases key : (stream.stamp packet).isKeyFrame = true
    · rw [if_pos key, List.pairwise_append]
      refine ⟨increasing, List.pairwise_singleton _ _, fun gop listed newest last => ?_⟩
      rw [List.mem_singleton.mp last, stamp_index, exact]
      exact Int.lt_add_one_of_le (sound.gops gop listed).2.1
    · rw [if_neg key]
      exact increasing
  rw [add_packet_gop_mgr]
  by_cases turned : stream.frameIndex + 1 - packetBufferSize > 0
  · rw [if_pos turned]
    exact added.filter _
  · rw [if_neg turned]
    exact added

theorem add_packet_zero (stream : LiveStream) (packet : Packet) (begun : -1 ≤ stream.frameIndex)
    (few : stream.frameIndex + 1 < 2147483648) :
    (∃ gop ∈ (stream.addPacket packet).gopMgr.gops, gop.index = 0) ↔
      stream.frameIndex + 1 ≤ 1000 ∧
        ((∃ gop ∈ stream.gopMgr.gops, gop.index = 0) ∨ (stream.frameIndex + 1 = 0 ∧ StartsGop packet)) := by
  have exact : toInt32 (stream.frameIndex + 1) = stream.frameIndex + 1 := to_int32_exact _ ⟨by omega, by omega⟩
  have size : (packetBufferSize : Int) = 1000 := rfl
  constructor
  · rintro ⟨gop, listed, zero⟩
    obtain ⟨origin, recent⟩ := add_packet_gops stream packet gop listed few begun
    refine ⟨by omega, ?_⟩
    rcases origin with earlier | ⟨now, key⟩
    · exact .inl ⟨gop, earlier, zero⟩
    · exact .inr ⟨now.symm.trans zero, (stamp_key_frame stream packet).mp key⟩
  · rintro ⟨young, old⟩
    have unturned : ¬ stream.frameIndex + 1 - packetBufferSize > 0 := by omega
    rw [add_packet_gop_mgr, if_neg unturned, add_frame_gops]
    rcases old with ⟨gop, listed, zero⟩ | ⟨first, starts⟩
    · by_cases key : (stream.stamp packet).isKeyFrame = true
      · rw [if_pos key]
        exact ⟨gop, List.mem_append_left _ listed, zero⟩
      · rw [if_neg key]
        exact ⟨gop, listed, zero⟩
    · rw [if_pos ((stamp_key_frame stream packet).mpr starts)]
      refine ⟨_, List.mem_append_right _ (List.mem_singleton_self _), ?_⟩
      rw [stamp_index, exact, first]

theorem gops_listed (packets : List Packet) (few : packets.length < 2147483648) :
    GopsListed packets (run LiveStream.addPacket {} packets) := by
  induction packets using List.reverseRecOn with
  | nil => exact ⟨fresh_ring_sound, rfl, .nil, by simp [run]⟩
  | append_singleton past packet ih =>
      have length : (past ++ [packet]).length = past.length + 1 := List.length_append
      obtain ⟨sound, count, increasing, zero⟩ := ih (by omega)
      have fewer : (run LiveStream.addPacket {} past).frameIndex + 1 < 2147483648 := by omega
      rw [run_snoc]
      refine ⟨add_packet_sound _ packet fewer sound, ?_, add_packet_increasing _ packet sound fewer increasing, ?_⟩
      · rw [add_packet_frame_index]
        omega
      · rw [add_packet_zero _ packet sound.begun fewer, zero]
        cases past with
        | nil =>
            rw [List.length_nil] at count
            simp [count]
        | cons first rest =>
            rw [List.length_cons] at count length
            have later : ¬ (run LiveStream.addPacket {} (first :: rest)).frameIndex + 1 = 0 := by omega
            simp only [later, false_and, or_false, List.cons_append, List.head?_cons, Option.mem_some_iff,
              exists_eq_left', List.length_cons, List.length_append, List.length_nil]
            constructor
            · rintro ⟨_, _, starts⟩
              exact ⟨by omega, starts⟩
            · rintro ⟨_, starts⟩
              exact ⟨by omega, by omega, starts⟩

theorem gops_held_of_ring (stream : LiveStream) (sound : RingSound stream)
    (increasing : stream.gopMgr.gops.Pairwise fun earlier later => earlier.index < later.index) :
    GopsHeld stream ↔ ¬ (stream.frameIndex = 1000 ∧ ∃ gop ∈ stream.gopMgr.gops, gop.index = 0) := by
  have size : (packetBufferSize : Int) = 1000 := rfl
  constructor
  · rintro ⟨held, _⟩ ⟨full, gop, listed, zero⟩
    obtain ⟨pkt, found, place, _⟩ := held gop listed
    have recent := (sound.window.held _ pkt found).2.2.1
    omega
  · intro kept
    refine ⟨fun gop listed => ?_, increasing⟩
    obtain ⟨low, high, recent⟩ := sound.gops gop listed
    have young : stream.frameIndex < gop.index + packetBufferSize := by
      rcases recent with young | ⟨zero, full⟩
      · exact young
      · exact absurd ⟨full, gop, listed, zero⟩ kept
    obtain ⟨pkt, found, place⟩ := sound.window.filled gop.index low high young
    exact ⟨pkt, found, place, sound.keys gop listed pkt found place⟩

theorem gops_held_iff (packets : List Packet) (few : packets.length < 2147483648) :
    GopsHeld (run LiveStream.addPacket {} packets) ↔
      ¬ (packets.length = 1001 ∧ ∃ first ∈ packets.head?, StartsGop first) := by
  obtain ⟨sound, count, increasing, zero⟩ := gops_listed packets few
  rw [gops_held_of_ring _ sound increasing, zero]
  constructor
  · rintro held ⟨length, starts⟩
    exact held ⟨by omega, by omega, starts⟩
  · rintro young ⟨full, _, starts⟩
    exact young ⟨by omega, starts⟩

def manyGops : List Packet := (List.replicate 500 [keyFrame, interFrame, interFrame]).flatten

theorem gops_held_wrapped : manyGops.length = 1500 ∧ GopsHeld (run LiveStream.addPacket {} manyGops) := by
  have length : manyGops.length = 1500 := by decide +kernel
  have few : manyGops.length < 2147483648 := by
    rw [length]
    decide
  refine ⟨length, (gops_held_iff manyGops few).mpr ?_⟩
  rintro ⟨exact, _⟩
  rw [length] at exact
  cases exact

-- Frame 1000 overwrites the keyframe in slot 0, and min_idx is 0 then.
theorem first_gop_overwritten :
    ¬ ∀ packets : List Packet, packets.length < 2147483648 → GopsHeld (run LiveStream.addPacket {} packets) := by
  intro claim
  have length : (List.replicate 1001 videoHeader).length = 1001 := List.length_replicate
  have few : (List.replicate 1001 videoHeader).length < 2147483648 := by
    rw [length]
    decide
  obtain ⟨sound, count, increasing, zero⟩ := gops_listed _ few
  refine (gops_held_of_ring _ sound increasing).mp (claim _ few) ⟨by omega, zero.mpr ⟨by omega, videoHeader, rfl, ?_⟩⟩
  exact .inr ⟨by decide, by decide⟩

end Lssvc.Live
