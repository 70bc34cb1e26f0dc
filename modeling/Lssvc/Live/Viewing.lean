import Lssvc.Foundation.Runs
import Lssvc.Live.StreamRing

set_option autoImplicit false

namespace Lssvc.Live

open Lssvc.Foundation Lssvc.Mmedia

structure Viewing where
  stream : LiveStream
  user : PlayerUser
  delivered : List Packet

inductive ViewEvent where
  | addPacket (packet : Packet)
  | getFrames
deriving DecidableEq, Repr

def PlayerUser.emptied (user : PlayerUser) : PlayerUser :=
  { user with metaPacket := none, audioHeader := none, videoHeader := none, outFrames := [] }

def Viewing.fresh (contentLatency : Int) : Viewing := ⟨{}, { contentLatency := contentLatency }, []⟩

def viewStep (viewing : Viewing) : ViewEvent → Viewing
  | .addPacket packet => { viewing with stream := viewing.stream.addPacket packet }
  | .getFrames =>
      let user := viewing.stream.getFrames viewing.user
      { viewing with user := user.emptied, delivered := viewing.delivered ++ user.outFrames }

def packetCount (events : List ViewEvent) : Nat := events.countP fun event => event ≠ .getFrames

def LiveStream.Declines (stream : LiveStream) (user : PlayerUser) : Prop :=
  (stream.gopMgr.getGopByLatency user.contentLatency).1 = -1 ∨
    (stream.gopMgr.getGopByLatency user.contentLatency).1 ≤ user.outIndex

theorem skip_frame_declined (stream : LiveStream) (user : PlayerUser) (declined : stream.Declines user) :
    stream.skipFrame user = user := by
  rw [LiveStream.skipFrame]
  exact if_pos declined

theorem skip_headers_kept (stream : LiveStream) (index : Int) (user : PlayerUser) :
    (stream.skipVideo index (stream.skipAudio index (stream.skipMeta index user))).outFrames = user.outFrames ∧
      (stream.skipVideo index (stream.skipAudio index (stream.skipMeta index user))).timeCorrector =
        user.timeCorrector := by
  have metaKept (user : PlayerUser) : (stream.skipMeta index user).outFrames = user.outFrames ∧
      (stream.skipMeta index user).timeCorrector = user.timeCorrector := by
    rw [LiveStream.skipMeta]
    repeat' split
    all_goals exact ⟨rfl, rfl⟩
  have audioKept (user : PlayerUser) : (stream.skipAudio index user).outFrames = user.outFrames ∧
      (stream.skipAudio index user).timeCorrector = user.timeCorrector := by
    rw [LiveStream.skipAudio]
    repeat' split
    all_goals exact ⟨rfl, rfl⟩
  have videoKept (user : PlayerUser) : (stream.skipVideo index user).outFrames = user.outFrames ∧
      (stream.skipVideo index user).timeCorrector = user.timeCorrector := by
    rw [LiveStream.skipVideo]
    repeat' split
    all_goals exact ⟨rfl, rfl⟩
  exact ⟨by rw [(videoKept _).1, (audioKept _).1, (metaKept _).1],
    by rw [(videoKept _).2, (audioKept _).2, (metaKept _).2]⟩

theorem skip_frame_moved (stream : LiveStream) (user : PlayerUser) (moved : ¬ stream.Declines user) :
    (stream.skipFrame user).outFrames = user.outFrames ∧
      (stream.skipFrame user).outIndex = (stream.gopMgr.getGopByLatency user.contentLatency).1 - 1 ∧
      (stream.skipFrame user).timeCorrector = user.timeCorrector := by
  let index := (stream.gopMgr.getGopByLatency user.contentLatency).1
  let headers := stream.skipVideo index (stream.skipAudio index (stream.skipMeta index user))
  have skipped : stream.skipFrame user = { headers with outIndex := index - 1 } := if_neg moved
  rw [skipped]
  exact ⟨(skip_headers_kept stream index user).1, rfl, (skip_headers_kept stream index user).2⟩

theorem lagging_iff (stream : LiveStream) (user : PlayerUser) (begun : -1 ≤ stream.frameIndex)
    (few : stream.frameIndex < 2147483648) :
    stream.lagging user = true ↔ user.outIndex < stream.frameIndex - packetBufferSize := by
  have size : (packetBufferSize : Int) = 1000 := rfl
  rw [LiveStream.lagging, to_int32_exact _ ⟨by omega, by omega⟩, decide_eq_true_iff]

theorem pending_frames (user : PlayerUser) (idle : user.pending = false) : user.outFrames = [] := by
  simp only [PlayerUser.pending, Bool.or_eq_false_iff, Bool.not_eq_false', List.isEmpty_iff] at idle
  exact idle.2

theorem get_frames_from (stream : LiveStream) (user : PlayerUser) (index : Int) (sound : RingSound stream)
    (empty : user.outFrames = []) (low : 0 ≤ index) (place : user.outIndex + 1 = index) :
    ∃ added, Served stream 10 index added ∧ (stream.getNextFrame user).outFrames = added ∧
      (stream.getNextFrame user).outIndex = (added.getLast?.map Packet.index).getD user.outIndex := by
  obtain ⟨added, served, frames, last⟩ := next_frames_served stream sound 10 index user low
  rw [LiveStream.getNextFrame, place]
  rw [empty] at frames
  exact ⟨added, served, frames, last⟩

theorem served_last (stream : LiveStream) (turns : Nat) (index out : Int) (added : List Packet)
    (served : Served stream (turns + 1) index added) (inside : index ≤ stream.frameIndex) (other : Int) :
    (added.getLast?.map Packet.index).getD out = (added.getLast?.map Packet.index).getD other := by
  cases last : added.getLast? with
  | none =>
      rw [List.getLast?_eq_none_iff, served.stops] at last
      omega
  | some pkt => rfl

def LiveStream.startIndex (stream : LiveStream) (user : PlayerUser) : Int :=
  (if stream.needSkip user = true then stream.skipFrame user else user).outIndex + 1

theorem start_index_cases (stream : LiveStream) (user : PlayerUser) :
    (stream.startIndex user = user.outIndex + 1 ∧ ¬ (stream.needSkip user = true ∧ ¬ stream.Declines user)) ∨
      (stream.needSkip user = true ∧ ¬ stream.Declines user ∧
        ∃ gop ∈ stream.gopMgr.gops, stream.startIndex user = gop.index ∧ user.outIndex < gop.index) := by
  by_cases moved : stream.needSkip user = true ∧ ¬ stream.Declines user
  · obtain ⟨need, accepts⟩ := moved
    obtain ⟨notFound, ahead⟩ := not_or.mp accepts
    rcases gop_by_latency_listed stream.gopMgr user.contentLatency with none | ⟨gop, listed, same⟩
    · exact absurd none notFound
    · refine .inr ⟨need, accepts, gop, listed, ?_, by omega⟩
      rw [LiveStream.startIndex, if_pos need, (skip_frame_moved stream user accepts).2.1, ← same, Int.sub_add_cancel]
  · refine .inl ⟨?_, moved⟩
    by_cases need : stream.needSkip user = true
    · rw [LiveStream.startIndex, if_pos need,
        skip_frame_declined stream user (not_not.mp fun accepts => moved ⟨need, accepts⟩)]
    · rw [LiveStream.startIndex, if_neg need]

theorem start_index_ahead (stream : LiveStream) (user : PlayerUser) (sound : RingSound stream)
    (served : 0 ≤ user.outIndex) :
    0 ≤ stream.startIndex user ∧ user.outIndex < stream.startIndex user ∧
      (user.outIndex + 1 < stream.startIndex user →
        stream.needSkip user = true ∧ (stream.skipFrame user).outIndex ≠ user.outIndex) := by
  rcases start_index_cases stream user with ⟨next, _⟩ | ⟨need, _, gop, listed, place, ahead⟩
  · exact ⟨by omega, by omega, fun gap => absurd gap (by omega)⟩
  · have low := (sound.gops gop listed).1
    refine ⟨by omega, by omega, fun gap => ⟨need, ?_⟩⟩
    rw [LiveStream.startIndex, if_pos need] at gap
    omega

theorem get_frames_started (stream : LiveStream) (user : PlayerUser) (sound : RingSound stream)
    (hasMedia : stream.hasMedia = true) (idle : user.pending = false) (served : 0 ≤ user.outIndex) :
    ∃ added, Served stream 10 (stream.startIndex user) added ∧ (stream.getFrames user).outFrames = added ∧
      (stream.getFrames user).outIndex = (added.getLast?.map Packet.index).getD user.outIndex := by
  have empty := pending_frames user idle
  have low := (start_index_ahead stream user sound served).1
  rw [LiveStream.getFrames, if_neg (by simp [hasMedia, idle]), if_pos served]
  rcases start_index_cases stream user with ⟨next, stays⟩ | ⟨need, accepts, gop, listed, place, _⟩
  · have same : (if stream.needSkip user = true then stream.skipFrame user else user) = user := by
      by_cases need : stream.needSkip user = true
      · rw [if_pos need, skip_frame_declined stream user (not_not.mp fun accepts => stays ⟨need, accepts⟩)]
      · rw [if_neg need]
    rw [same]
    exact get_frames_from stream user (stream.startIndex user) sound empty low next.symm
  · have high := (sound.gops gop listed).2.1
    have from' : (stream.skipFrame user).outIndex + 1 = stream.startIndex user := by
      rw [LiveStream.startIndex, if_pos need]
    obtain ⟨added, run, all, last⟩ := get_frames_from stream (stream.skipFrame user) (stream.startIndex user) sound
      ((skip_frame_moved stream user accepts).1.trans empty) low from'
    rw [if_pos need]
    exact ⟨added, run, all, last.trans (served_last stream 9 _ _ added run (place ▸ high) _)⟩

theorem get_frames_served (stream : LiveStream) (user : PlayerUser) (sound : RingSound stream)
    (few : stream.frameIndex < 2147483648) (hasMedia : stream.hasMedia = true) (idle : user.pending = false)
    (served : 0 ≤ user.outIndex) :
    ∃ index added, Served stream 10 index added ∧ (stream.getFrames user).outFrames = added ∧
      (stream.getFrames user).outIndex = (added.getLast?.map Packet.index).getD user.outIndex ∧
      ((∀ first ∈ added.head?, first.index = user.outIndex + 1 ∨ first.isKeyFrame = true) ↔
        (stream.lagging user = true → stream.Declines user →
          ∀ pkt, stream.packetBuffer (LiveStream.slot (user.outIndex + 1)) = some pkt → pkt.isKeyFrame = true)) := by
  have size : (packetBufferSize : Int) = 1000 := rfl
  obtain ⟨added, run, all, last⟩ := get_frames_started stream user sound hasMedia idle served
  refine ⟨stream.startIndex user, added, run, all, last, ?_⟩
  rcases start_index_cases stream user with ⟨next, stays⟩ | ⟨_, accepts, gop, listed, place, ahead⟩
  · rw [next] at run
    rw [lagging_iff stream user sound.begun few]
    cases added with
    | nil =>
        have past := run.stops.mp rfl
        exact ⟨fun _ lags => by omega, fun _ first impossible => by cases impossible⟩
    | cons first rest =>
        have notPast : user.outIndex + 1 ≤ stream.frameIndex := by
          by_contra past
          exact absurd (run.stops.mpr (.inr (by omega))) (List.cons_ne_nil _ _)
        obtain ⟨item, read, recent, old⟩ := window_read (by decide) sound.window (user.outIndex + 1) (by omega) notPast
        cases (run.first first rfl).symm.trans read
        simp only [List.head?_cons, Option.mem_some_iff, forall_eq']
        by_cases lags : user.outIndex < stream.frameIndex - packetBufferSize
        · have need : stream.needSkip user = true := by
            rw [LiveStream.needSkip, (lagging_iff stream user sound.begun few).mpr lags, Bool.true_or]
          have declined : stream.Declines user := not_not.mp fun accepts => stays ⟨need, accepts⟩
          have skipped := old (by omega)
          constructor
          · rintro (next | key) _ _ pkt other
            · omega
            · cases other.symm.trans read
              exact key
          · exact fun resumes => .inr (resumes lags declined first read)
        · exact ⟨fun _ impossible => absurd impossible lags, fun _ => .inl (recent (by omega))⟩
  · obtain ⟨low, high, recent⟩ := sound.gops gop listed
    obtain ⟨key, found, exactPlace⟩ := sound.window.filled gop.index low high (by omega)
    refine ⟨fun _ _ declined => absurd declined accepts, fun _ first head => .inr ?_⟩
    have slotRead := run.first first head
    rw [place] at slotRead
    cases slotRead.symm.trans found
    exact sound.keys gop listed key found exactPlace

theorem locate_headers_kept (stream : LiveStream) (index : Int) (user : PlayerUser) :
    (stream.locateVideo index (stream.locateAudio index (stream.locateMeta index user))).outFrames = user.outFrames ∧
      (stream.locateVideo index (stream.locateAudio index (stream.locateMeta index user))).outIndex = user.outIndex ∧
      (stream.locateVideo index (stream.locateAudio index (stream.locateMeta index user))).timeCorrector =
        user.timeCorrector := by
  have metaKept (user : PlayerUser) : (stream.locateMeta index user).outFrames = user.outFrames ∧
      (stream.locateMeta index user).outIndex = user.outIndex ∧
      (stream.locateMeta index user).timeCorrector = user.timeCorrector := by
    rw [LiveStream.locateMeta]
    dsimp only
    split <;> exact ⟨rfl, rfl, rfl⟩
  have audioKept (user : PlayerUser) : (stream.locateAudio index user).outFrames = user.outFrames ∧
      (stream.locateAudio index user).outIndex = user.outIndex ∧
      (stream.locateAudio index user).timeCorrector = user.timeCorrector := by
    rw [LiveStream.locateAudio]
    dsimp only
    split <;> exact ⟨rfl, rfl, rfl⟩
  have videoKept (user : PlayerUser) : (stream.locateVideo index user).outFrames = user.outFrames ∧
      (stream.locateVideo index user).outIndex = user.outIndex ∧
      (stream.locateVideo index user).timeCorrector = user.timeCorrector := by
    rw [LiveStream.locateVideo]
    dsimp only
    split <;> exact ⟨rfl, rfl, rfl⟩
  exact ⟨by rw [(videoKept _).1, (audioKept _).1, (metaKept _).1],
    by rw [(videoKept _).2.1, (audioKept _).2.1, (metaKept _).2.1],
    by rw [(videoKept _).2.2, (audioKept _).2.2, (metaKept _).2.2]⟩

theorem locate_gop_out (stream : LiveStream) (user : PlayerUser) :
    (stream.locateGop user).2.outFrames = user.outFrames ∧
      ((stream.locateGop user).2.outIndex = user.outIndex ∨
        ∃ gop ∈ stream.gopMgr.gops, (stream.locateGop user).2.outIndex = gop.index - 1) := by
  rw [LiveStream.locateGop]
  dsimp only
  rcases gop_by_latency_listed stream.gopMgr user.contentLatency with none | ⟨gop, listed, same⟩
  · rw [if_pos none]
    exact ⟨rfl, .inl rfl⟩
  · rw [← same]
    split
    · exact ⟨rfl, .inl rfl⟩
    · obtain ⟨frames, out, _⟩ := locate_headers_kept stream gop.index { user with outIndex := gop.index - 1 }
      split
      · exact ⟨frames, .inr ⟨gop, listed, out⟩⟩
      · exact ⟨frames, .inr ⟨gop, listed, out⟩⟩

theorem get_frames_first (stream : LiveStream) (user : PlayerUser) (sound : RingSound stream)
    (hasMedia : stream.hasMedia = true) (idle : user.pending = false) (unserved : user.outIndex = -1) :
    ∃ index turns added out, Served stream turns index added ∧ (stream.getFrames user).outFrames = added ∧ -1 ≤ out ∧
      (stream.getFrames user).outIndex = (added.getLast?.map Packet.index).getD out := by
  have empty := pending_frames user idle
  obtain ⟨frames, place⟩ := locate_gop_out stream user
  have low : -1 ≤ (stream.locateGop user).2.outIndex := by
    rcases place with same | ⟨gop, listed, same⟩
    · omega
    · have := (sound.gops gop listed).1
      omega
  rw [LiveStream.getFrames, if_neg (by simp [hasMedia, idle]), if_neg (by omega)]
  cases located : stream.locateGop user with
  | mk success moved =>
      rw [located] at frames low
      cases success with
      | true =>
          obtain ⟨added, run, all, last⟩ := get_frames_from stream moved _ sound (frames.trans empty)
            (by dsimp only at low; omega) rfl
          exact ⟨_, 10, added, moved.outIndex, run, all, low, last⟩
      | false =>
          exact ⟨0, 0, [], moved.outIndex, ⟨.nil, by simp, by simp, by simp⟩, frames.trans empty, low, rfl⟩

theorem get_frames_delivery (stream : LiveStream) (user : PlayerUser) (sound : RingSound stream)
    (few : stream.frameIndex < 2147483648) (hasMedia : stream.hasMedia = true) (idle : user.pending = false)
    (low : -1 ≤ user.outIndex) :
    ∃ index turns added out, Served stream turns index added ∧ (stream.getFrames user).outFrames = added ∧ -1 ≤ out ∧
      (0 ≤ user.outIndex → out = user.outIndex) ∧
      (stream.getFrames user).outIndex = (added.getLast?.map Packet.index).getD out := by
  by_cases served : 0 ≤ user.outIndex
  · obtain ⟨index, added, run, all, place, _⟩ := get_frames_served stream user sound few hasMedia idle served
    exact ⟨index, 10, added, _, run, all, low, fun _ => rfl, place⟩
  · obtain ⟨index, turns, added, out, run, all, bound, place⟩ :=
      get_frames_first stream user sound hasMedia idle (by omega)
    exact ⟨index, turns, added, out, run, all, bound, fun impossible => absurd impossible served, place⟩

structure ViewSound (viewing : Viewing) : Prop where
  ring : RingSound viewing.stream
  idle : viewing.user.pending = false
  low : -1 ≤ viewing.user.outIndex
  last : ∀ pkt ∈ viewing.delivered.getLast?, viewing.user.outIndex = pkt.index ∧ 0 ≤ pkt.index
  media : viewing.delivered ≠ [] → viewing.stream.hasMedia = true

theorem fresh_view_sound (contentLatency : Int) : ViewSound (.fresh contentLatency) where
  ring := fresh_ring_sound
  idle := rfl
  low := Int.le_refl _
  last := fun _ impossible => by cases impossible
  media := fun impossible => absurd rfl impossible

theorem get_frames_idle (stream : LiveStream) (user : PlayerUser) (noMedia : stream.hasMedia = false) :
    stream.getFrames user = user := by
  rw [LiveStream.getFrames, if_pos (by simp [noMedia])]

theorem get_frames_sound (viewing : Viewing) (few : viewing.stream.frameIndex < 2147483648)
    (sound : ViewSound viewing) : ViewSound (viewStep viewing .getFrames) := by
  obtain ⟨ring, idle, low, last, media⟩ := sound
  have emptied (user : PlayerUser) : user.emptied.pending = false := rfl
  have empty := pending_frames viewing.user idle
  cases hasMedia : viewing.stream.hasMedia with
  | false =>
      rw [viewStep, get_frames_idle viewing.stream viewing.user hasMedia, empty]
      rw [List.append_nil]
      exact ⟨ring, emptied _, low, last, media⟩
  | true =>
      obtain ⟨index, turns, added, out, run, all, bound, before, place⟩ :=
        get_frames_delivery viewing.stream viewing.user ring few hasMedia idle low
      rw [viewStep, all]
      refine ⟨ring, emptied _, ?_, ?_, fun _ => hasMedia⟩
      · change -1 ≤ (viewing.stream.getFrames viewing.user).outIndex
        rw [place]
        cases final : added.getLast? with
        | none => exact bound
        | some pkt =>
            have := (run.inside pkt (List.mem_of_getLast? final)).1
            simp only [Option.map_some, Option.getD_some]
            omega
      · intro pkt final
        change (viewing.stream.getFrames viewing.user).outIndex = pkt.index ∧ _
        rw [place]
        dsimp only at final
        rw [List.getLast?_append] at final
        cases newest : added.getLast? with
        | none =>
            rw [newest] at final
            have was := last pkt final
            simp only [Option.map_none, Option.getD_none]
            rw [before (was.1 ▸ was.2)]
            exact was
        | some other =>
            rw [newest] at final
            cases final
            exact ⟨rfl, (run.inside _ (List.mem_of_getLast? newest)).1⟩

theorem add_packet_view_sound (viewing : Viewing) (packet : Packet) (few : viewing.stream.frameIndex + 1 < 2147483648)
    (sound : ViewSound viewing) : ViewSound (viewStep viewing (.addPacket packet)) :=
  ⟨add_packet_sound viewing.stream packet few sound.ring, sound.idle, sound.low, sound.last,
    fun some => add_packet_has_media viewing.stream packet (sound.media some)⟩

end Lssvc.Live
