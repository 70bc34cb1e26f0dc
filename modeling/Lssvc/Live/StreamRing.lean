import Lssvc.Foundation.Ring
import Lssvc.Live.LiveStream

set_option autoImplicit false

namespace Lssvc.Live

open Lssvc.Foundation Lssvc.Mmedia

theorem note_header_ring (stream : LiveStream) (pkt : Packet) :
    (stream.noteHeader pkt).frameIndex = stream.frameIndex ∧
      (stream.noteHeader pkt).packetBuffer = stream.packetBuffer ∧
      (stream.noteHeader pkt).gopMgr = stream.gopMgr := by
  rw [LiveStream.noteHeader]
  dsimp only
  split_ifs <;> exact ⟨rfl, rfl, rfl⟩

theorem begin_add_ring (stream : LiveStream) (packet : Packet) :
    (stream.beginAdd packet).frameIndex = stream.frameIndex + 1 ∧
      (stream.beginAdd packet).packetBuffer = stream.packetBuffer ∧ (stream.beginAdd packet).gopMgr = stream.gopMgr := by
  rw [LiveStream.beginAdd]
  split_ifs
  · exact note_header_ring _ _
  · exact note_header_ring _ _
  · exact ⟨rfl, rfl, rfl⟩
  · exact ⟨rfl, rfl, rfl⟩

theorem add_packet_frame_index (stream : LiveStream) (packet : Packet) :
    (stream.addPacket packet).frameIndex = stream.frameIndex + 1 := by
  rw [LiveStream.addPacket]
  dsimp only
  split <;> exact (begin_add_ring stream packet).1

theorem add_packet_buffer (stream : LiveStream) (packet : Packet) :
    (stream.addPacket packet).packetBuffer =
      Function.update stream.packetBuffer (LiveStream.slot (stream.frameIndex + 1)) (some (stream.stamp packet)) := by
  obtain ⟨index, buffer, _⟩ := begin_add_ring stream packet
  rw [LiveStream.addPacket]
  dsimp only
  split <;> rw [index, buffer]

theorem add_packet_gop_mgr (stream : LiveStream) (packet : Packet) :
    (stream.addPacket packet).gopMgr =
      if stream.frameIndex + 1 - packetBufferSize > 0 then
        (stream.gopMgr.addFrame (stream.stamp packet)).clearExpiredGop
          (toInt32 (stream.frameIndex + 1 - packetBufferSize))
      else stream.gopMgr.addFrame (stream.stamp packet) := by
  obtain ⟨index, _, gopMgr⟩ := begin_add_ring stream packet
  rw [LiveStream.addPacket]
  dsimp only
  rw [index, gopMgr]
  split <;> rfl

theorem note_header_has_media (stream : LiveStream) (pkt : Packet) (hasMedia : stream.hasMedia = true) :
    (stream.noteHeader pkt).hasMedia = true := by
  simp only [LiveStream.hasMedia, Bool.or_eq_true] at hasMedia ⊢
  rw [LiveStream.noteHeader]
  dsimp only
  split_ifs <;> simp_all

theorem add_packet_has_media (stream : LiveStream) (packet : Packet) (hasMedia : stream.hasMedia = true) :
    (stream.addPacket packet).hasMedia = true := by
  have admitted : (stream.beginAdd packet).hasMedia = true := by
    rw [LiveStream.beginAdd]
    split_ifs
    · exact note_header_has_media _ _ hasMedia
    · exact note_header_has_media _ _ hasMedia
    · exact hasMedia
    · exact hasMedia
  rw [LiveStream.addPacket]
  dsimp only
  split <;> exact admitted

theorem note_header_ready (stream : LiveStream) (pkt : Packet) : (stream.noteHeader pkt).ready = stream.ready := by
  rw [LiveStream.noteHeader]
  dsimp only
  split_ifs <;> rfl

theorem add_packet_ready (stream : LiveStream) (packet : Packet) (ready : stream.ready = true) :
    (stream.addPacket packet).ready = true := by
  have admitted : (stream.beginAdd packet).ready = true := by
    rw [LiveStream.beginAdd]
    split_ifs
    · rw [note_header_ready]
      rfl
    · rw [note_header_ready]
      exact ready
    · rfl
    · exact ready
  rw [LiveStream.addPacket]
  dsimp only
  split <;> exact admitted

theorem add_frame_gops (mgr : GopMgr) (pkt : Packet) :
    (mgr.addFrame pkt).gops =
      if pkt.isKeyFrame = true then mgr.gops ++ [⟨pkt.index, pkt.getTimestamp⟩] else mgr.gops := by
  rw [GopMgr.addFrame]
  by_cases key : pkt.isKeyFrame = true
  · rw [if_pos key, if_pos key]
  · rw [if_neg key, if_neg key]

theorem stamp_index (stream : LiveStream) (packet : Packet) :
    (stream.stamp packet).index = toInt32 (stream.frameIndex + 1) := by
  rw [LiveStream.stamp]
  dsimp only
  split <;> rfl

-- The GOPs the manager still lists, against the ring. Of a full ring the GOP at
-- position 0 is expired only one packet after it is overwritten.
structure RingSound (stream : LiveStream) : Prop where
  begun : -1 ≤ stream.frameIndex
  window : Window packetBufferSize Packet.index stream.packetBuffer stream.frameIndex
  gops : ∀ gop ∈ stream.gopMgr.gops, 0 ≤ gop.index ∧ gop.index ≤ stream.frameIndex ∧
    (stream.frameIndex < gop.index + packetBufferSize ∨ gop.index = 0 ∧ stream.frameIndex = packetBufferSize)
  keys : ∀ gop ∈ stream.gopMgr.gops, ∀ pkt,
    stream.packetBuffer (LiveStream.slot gop.index) = some pkt → pkt.index = gop.index → pkt.isKeyFrame = true

theorem fresh_ring_sound : RingSound {} where
  begun := Int.le_refl _
  window := window_empty _ _
  gops := fun _ impossible => absurd impossible List.not_mem_nil
  keys := fun _ impossible => absurd impossible List.not_mem_nil

theorem add_packet_gops (stream : LiveStream) (packet : Packet) (gop : GopItemInfo)
    (listed : gop ∈ (stream.addPacket packet).gopMgr.gops)
    (few : stream.frameIndex + 1 < 2147483648) (begun : -1 ≤ stream.frameIndex) :
    (gop ∈ stream.gopMgr.gops ∨ gop.index = stream.frameIndex + 1 ∧ (stream.stamp packet).isKeyFrame = true) ∧
      (stream.frameIndex + 1 ≤ packetBufferSize ∨ stream.frameIndex + 1 < gop.index + packetBufferSize) := by
  have exact : toInt32 (stream.frameIndex + 1) = stream.frameIndex + 1 := to_int32_exact _ ⟨by omega, by omega⟩
  have size : (packetBufferSize : Int) = 1000 := rfl
  have bound : toInt32 (stream.frameIndex + 1 - packetBufferSize) = stream.frameIndex + 1 - packetBufferSize :=
    to_int32_exact _ ⟨by omega, by omega⟩
  have listedBefore (inFrames : gop ∈ (stream.gopMgr.addFrame (stream.stamp packet)).gops) :
      gop ∈ stream.gopMgr.gops ∨ gop.index = stream.frameIndex + 1 ∧ (stream.stamp packet).isKeyFrame = true := by
    rw [add_frame_gops] at inFrames
    by_cases key : (stream.stamp packet).isKeyFrame = true
    · rw [if_pos key, List.mem_append, List.mem_singleton] at inFrames
      rcases inFrames with earlier | rfl
      · exact .inl earlier
      · exact .inr ⟨(stamp_index stream packet).trans exact, key⟩
    · rw [if_neg key] at inFrames
      exact .inl inFrames
  rw [add_packet_gop_mgr] at listed
  by_cases turned : stream.frameIndex + 1 - packetBufferSize > 0
  · rw [if_pos turned, GopMgr.clearExpiredGop] at listed
    obtain ⟨inFrames, young⟩ := List.mem_filter.mp listed
    have recent : ¬ gop.index ≤ toInt32 (stream.frameIndex + 1 - packetBufferSize) := of_decide_eq_true young
    rw [bound] at recent
    exact ⟨listedBefore inFrames, .inr (by omega)⟩
  · rw [if_neg turned] at listed
    exact ⟨listedBefore listed, .inl (by omega)⟩

theorem add_packet_sound (stream : LiveStream) (packet : Packet) (few : stream.frameIndex + 1 < 2147483648)
    (sound : RingSound stream) : RingSound (stream.addPacket packet) := by
  obtain ⟨begun, window, gops, keys⟩ := sound
  have exact : toInt32 (stream.frameIndex + 1) = stream.frameIndex + 1 := to_int32_exact _ ⟨by omega, by omega⟩
  have size : (packetBufferSize : Int) = 1000 := rfl
  refine ⟨?_, ?_, ?_, ?_⟩
  · rw [add_packet_frame_index]
    omega
  · rw [add_packet_frame_index, add_packet_buffer]
    exact window_push (by decide) begun window _ ((stamp_index stream packet).trans exact)
  · intro gop listed
    obtain ⟨origin, recent⟩ := add_packet_gops stream packet gop listed few begun
    rw [add_packet_frame_index]
    rcases origin with earlier | ⟨now, _⟩
    · obtain ⟨low, high, _⟩ := gops gop earlier
      omega
    · omega
  · intro gop listed pkt found place
    rw [add_packet_buffer] at found
    by_cases newest : LiveStream.slot gop.index = LiveStream.slot (stream.frameIndex + 1)
    · rw [newest, Function.update_self] at found
      cases found
      obtain ⟨origin, _⟩ := add_packet_gops stream packet gop listed few begun
      rcases origin with earlier | ⟨_, key⟩
      · obtain ⟨_, high, _⟩ := gops gop earlier
        rw [stamp_index, exact] at place
        omega
      · exact key
    · rw [Function.update_of_ne newest] at found
      obtain ⟨origin, _⟩ := add_packet_gops stream packet gop listed few begun
      rcases origin with earlier | ⟨now, _⟩
      · exact keys gop earlier pkt found place
      · exact absurd (congrArg LiveStream.slot now) newest

theorem latency_search_listed (lastest contentLatency : Int) (gops : List GopItemInfo) (found : Int × Int) :
    (latencySearch lastest contentLatency gops found).1 = found.1 ∨
      ∃ gop ∈ gops, gop.index = (latencySearch lastest contentLatency gops found).1 := by
  induction gops generalizing found with
  | nil => exact .inl rfl
  | cons gop older ih =>
      rw [latencySearch]
      split
      · rcases ih (gop.index, toInt32 (lastest - gop.timestamp)) with same | ⟨other, listed, same⟩
        · exact .inr ⟨gop, List.mem_cons_self, same.symm⟩
        · exact .inr ⟨other, List.mem_cons_of_mem _ listed, same⟩
      · exact .inl rfl

theorem gop_by_latency_listed (mgr : GopMgr) (contentLatency : Int) :
    (mgr.getGopByLatency contentLatency).1 = -1 ∨
      ∃ gop ∈ mgr.gops, gop.index = (mgr.getGopByLatency contentLatency).1 := by
  rcases latency_search_listed mgr.lastestTimestamp contentLatency mgr.gops.reverse (-1, 0) with none | ⟨gop, listed, same⟩
  · exact .inl none
  · exact .inr ⟨gop, List.mem_reverse.mp listed, same⟩

structure Served (stream : LiveStream) (turns : Nat) (index : Int) (added : List Packet) : Prop where
  consecutive : added.IsChain fun earlier later => later.index = earlier.index + 1
  first : ∀ first ∈ added.head?, stream.packetBuffer (LiveStream.slot index) = some first
  inside : ∀ pkt ∈ added, 0 ≤ pkt.index ∧ pkt.index ≤ stream.frameIndex
  stops : added = [] ↔ turns = 0 ∨ index > stream.frameIndex

theorem served_cons (stream : LiveStream) (sound : RingSound stream) (turns : Nat) (index : Int) (pkt : Packet)
    (added : List Packet) (inside : ¬ index > stream.frameIndex)
    (found : stream.packetBuffer (LiveStream.slot index) = some pkt)
    (later : Served stream turns (pkt.index + 1) added) : Served stream (turns + 1) index (pkt :: added) := by
  have held := sound.window.held _ pkt found
  refine ⟨?_, by simpa using found, ?_, by simp [inside]⟩
  · cases added with
    | nil => exact .singleton _
    | cons next rest =>
        refine .cons_cons ?_ later.consecutive
        have inSlot := later.first next rfl
        have bound := (later.inside next List.mem_cons_self).2
        have notPast : pkt.index + 1 ≤ stream.frameIndex := by
          by_contra past
          exact absurd (later.stops.mpr (.inr (by omega))) (List.cons_ne_nil _ _)
        obtain ⟨other, read, same, _⟩ := window_read (by decide) sound.window (pkt.index + 1) (by omega) notPast
        cases inSlot.symm.trans read
        exact same (by omega)
  · intro other member
    rcases List.mem_cons.mp member with rfl | behind
    · exact ⟨held.1, held.2.1⟩
    · exact later.inside other behind

theorem next_frames_served (stream : LiveStream) (sound : RingSound stream) (turns : Nat) (index : Int)
    (user : PlayerUser) (low : 0 ≤ index) :
    ∃ added, Served stream turns index added ∧
      (stream.nextFrames turns index user).outFrames = user.outFrames ++ added ∧
      (stream.nextFrames turns index user).outIndex = (added.getLast?.map Packet.index).getD user.outIndex := by
  induction turns generalizing index user with
  | zero => exact ⟨[], ⟨.nil, by simp, by simp, by simp⟩, (List.append_nil _).symm, rfl⟩
  | succ turns ih =>
      rw [LiveStream.nextFrames]
      by_cases past : index > stream.frameIndex
      · rw [if_pos past]
        exact ⟨[], ⟨.nil, by simp, by simp, by simp [past]⟩, (List.append_nil _).symm, rfl⟩
      · obtain ⟨pkt, found, _⟩ := window_read (by decide) sound.window index low (by omega)
        have slotRead : stream.packetBuffer (LiveStream.slot index) = some pkt := found
        have held := sound.window.held _ pkt found
        rw [if_neg past]
        simp only [slotRead]
        obtain ⟨added, later, frames, last⟩ := ih (pkt.index + 1)
          { user with
            outFrames := user.outFrames ++ [pkt]
            outIndex := pkt.index
            outFrameTimestamp := toInt32 pkt.getTimestamp } (by omega)
        refine ⟨pkt :: added, served_cons stream sound turns index pkt added past slotRead later, ?_, ?_⟩
        · rw [frames, List.append_assoc]
          rfl
        · rw [last]
          cases added <;> simp [List.getLast?_cons]

end Lssvc.Live
