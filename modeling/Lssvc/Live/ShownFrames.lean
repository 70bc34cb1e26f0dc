import Lssvc.Live.DeliveryOrder
import Lssvc.Live.PlayerTimestamps
import Lssvc.Mmedia.OutgoingQueue

set_option autoImplicit false

namespace Lssvc.Live

open Lssvc.Foundation Lssvc.Mmedia

structure Posted where
  message : OutMessage
  frame : Bool

def framesOf (log : List Posted) : List Packet := (log.filter Posted.frame).map fun posted => posted.message.packet

def headerPosted (pkt : Packet) : Posted := ⟨⟨pkt, 0, true⟩, false⟩

def framesPosted (user : PlayerUser) : List Posted :=
  (pushedFrom user.timeCorrector user.outFrames).map fun pushed => ⟨⟨pushed.packet, pushed.timestamp, false⟩, true⟩

def postedBy (user : PlayerUser) (ctx : RtmpSender) : List Posted :=
  if ctx.ready then
    match user.metaPacket, user.audioHeader, user.videoHeader with
    | some pkt, _, _ => [headerPosted pkt]
    | none, some pkt, _ => [headerPosted pkt]
    | none, none, some pkt => [headerPosted pkt]
    | none, none, none => framesPosted user
  else []

def PlayerConn.posts (stream : LiveStream) (conn : PlayerConn) : List Posted :=
  match conn.user with
  | none => []
  | some user => if ¬ stream.ready || ¬ stream.hasMedia then [] else postedBy (stream.getFrames user) conn.context

theorem post_pending_cases (user : PlayerUser) (conn : PlayerConn) :
    (postedBy user conn.context = [] ∧ (postPending user conn).context = conn.context ∧
        (postPending user conn).user = some user) ∨
      (∃ pkt next, conn.context.ready = true ∧ postedBy user conn.context = [headerPosted pkt] ∧
        (postPending user conn).context = contextStep conn.context (.pushFrames [(headerPosted pkt).message]) ∧
        (postPending user conn).user = some next ∧ next.outFrames = user.outFrames ∧
        next.outIndex = user.outIndex) ∨
      (∃ next, conn.context.ready = true ∧ user.outFrames ≠ [] ∧
        postedBy user conn.context = framesPosted user ∧
        (postPending user conn).context =
          contextStep conn.context (.pushFrames ((framesPosted user).map Posted.message)) ∧
        (postPending user conn).user = some next ∧ next.outFrames = [] ∧ next.outIndex = user.outIndex) := by
  cases ready : conn.context.ready with
  | false =>
      refine .inl ?_
      simp only [postedBy, ready, Bool.false_eq_true, if_false, postPending, postPushed, pushFrame, pushFrames]
      split
      · simp
      · simp
      · simp
      · split <;> simp
  | true =>
      have header (pkt : Packet) (after : PlayerUser → PlayerUser) :
          (postPushed conn (pushFrame user conn.context pkt true) after).context =
              contextStep conn.context (.pushFrames [(headerPosted pkt).message]) ∧
            (postPushed conn (pushFrame user conn.context pkt true) after).user = some (after user) := by
        simp [postPushed, pushFrame, contextStep, ready, headerPosted, buildAll]
      rw [postedBy, if_pos ready, postPending]
      cases metaCase : user.metaPacket with
      | some pkt => exact .inr (.inl ⟨pkt, _, rfl, rfl, (header pkt _).1, (header pkt _).2, rfl, rfl⟩)
      | none =>
          cases audioCase : user.audioHeader with
          | some pkt => exact .inr (.inl ⟨pkt, _, rfl, rfl, (header pkt _).1, (header pkt _).2, rfl, rfl⟩)
          | none =>
              cases videoCase : user.videoHeader with
              | some pkt => exact .inr (.inl ⟨pkt, _, rfl, rfl, (header pkt _).1, (header pkt _).2, rfl, rfl⟩)
              | none =>
                  by_cases waiting : user.outFrames ≠ []
                  · refine .inr (.inr ⟨{ user with
                      timeCorrector := correctAll user.timeCorrector user.outFrames
                      outFrames := [] }, rfl, waiting, rfl, ?_, ?_, rfl, rfl⟩)
                    · simp [waiting, postPushed, pushFrames, contextStep, ready, push_frames_from_pushed, framesPosted,
                        Function.comp_def]
                    · simp [waiting, postPushed, pushFrames, ready, push_frames_from_pushed, metaCase, audioCase,
                        videoCase]
                  · have empty := not_not.mp waiting
                    exact .inl (by simp [empty, framesPosted, pushedFrom])

theorem post_pending_sleeps (user : PlayerUser) (conn : PlayerConn) (awake : conn.active = true)
    (asleep : (postPending user conn).active = false) :
    user.pending = false ∧ postedBy user conn.context = [] := by
  rw [postPending] at asleep
  split at asleep
  · cases awake.symm.trans asleep
  · cases awake.symm.trans asleep
  · cases awake.symm.trans asleep
  · rename_i metaNone audioNone videoNone
    split at asleep
    · cases awake.symm.trans asleep
    · rename_i waiting
      have empty := not_not.mp waiting
      simp [PlayerUser.pending, postedBy, framesPosted, pushedFrom, metaNone, audioNone, videoNone, empty]

theorem frames_of_append (left right : List Posted) : framesOf (left ++ right) = framesOf left ++ framesOf right := by
  simp [framesOf]

theorem frames_of_frames (user : PlayerUser) : framesOf (framesPosted user) = user.outFrames := by
  simp [framesOf, framesPosted, List.filter_map, Function.comp_def, pushed_from_packets]

theorem next_frames_few (stream : LiveStream) (turns : Nat) (index : Int) (user : PlayerUser) :
    (stream.nextFrames turns index user).outFrames.length ≤ user.outFrames.length + turns := by
  induction turns generalizing index user with
  | zero => exact Nat.le_refl _
  | succ turns ih =>
      rw [LiveStream.nextFrames]
      split
      · exact Nat.le_add_right _ _
      · split
        · exact Nat.le_add_right _ _
        · refine Nat.le_trans (ih _ _) ?_
          simp
          omega

theorem get_frames_few (stream : LiveStream) (user : PlayerUser) (few : user.outFrames.length ≤ kRtmpSingleMax) :
    (stream.getFrames user).outFrames.length ≤ kRtmpSingleMax := by
  have most : kRtmpSingleMax = 10 := rfl
  have from' (moved : PlayerUser) (empty : moved.outFrames = []) :
      (stream.getNextFrame moved).outFrames.length ≤ kRtmpSingleMax := by
    have added := next_frames_few stream 10 (moved.outIndex + 1) moved
    rw [empty] at added
    exact added
  rw [LiveStream.getFrames]
  split
  · exact few
  · rename_i called
    have empty : user.outFrames = [] := by
      simp only [Bool.not_eq_true, Bool.or_eq_true, decide_eq_true_eq, not_or] at called
      exact pending_frames user (Bool.not_eq_true _ ▸ called.2)
    split
    · split
      · exact from' _ ((skip_frame_kept stream user).1.trans empty)
      · exact from' user empty
    · have kept := (locate_gop_kept stream user).1
      split
      · rename_i moved located
        rw [located] at kept
        exact from' moved (kept.trans empty)
      · rename_i moved located
        rw [located] at kept
        rw [kept]
        exact few

structure Shown (stream : LiveStream) (user : PlayerUser) (shown : List Packet) : Prop where
  view : ViewSound ⟨stream, user.emptied, shown ++ user.outFrames⟩
  order : ((shown ++ user.outFrames).map Packet.index).Pairwise (· < ·)
  past : ∀ pkt ∈ shown ++ user.outFrames, pkt.index ≤ stream.frameIndex
  few : user.outFrames.length ≤ kRtmpSingleMax

theorem emptied_idle (user : PlayerUser) (idle : user.pending = false) : user.emptied = user := by
  simp only [PlayerUser.pending, Bool.or_eq_false_iff, Option.isSome_eq_false_iff, Option.isNone_iff_eq_none,
    Bool.not_eq_false', List.isEmpty_iff] at idle
  obtain ⟨⟨⟨metaNone, audioNone⟩, videoNone⟩, empty⟩ := idle
  cases user
  cases metaNone
  cases audioNone
  cases videoNone
  cases empty
  rfl

theorem get_frames_behind (viewing : Viewing) (few : viewing.stream.frameIndex < 2147483648) (sound : ViewSound viewing)
    (order : (viewing.delivered.map Packet.index).Pairwise (· < ·)) :
    ((viewing.delivered ++ (viewing.stream.getFrames viewing.user).outFrames).map Packet.index).Pairwise (· < ·) := by
  rw [← List.isChain_iff_pairwise, List.isChain_map, List.isChain_append]
  rw [← List.isChain_iff_pairwise, List.isChain_map] at order
  refine ⟨order, ?_, fun last newest first given => ?_⟩
  · rw [← handed_packets, List.isChain_map]
    exact (handed_chain viewing few sound).imp fun _ _ follows => follows.1
  · rw [← handed_packets, List.head?_map] at given
    obtain ⟨delivery, handed, rfl⟩ := Option.map_eq_some_iff.mp given
    exact (handed_follows viewing sound (viewing.delivered.map fun pkt => ⟨pkt, false, 0⟩)
      (by simp [Function.comp_def]) ⟨last, false, 0⟩ (by simp [Option.mem_def.mp newest]) delivery handed).1

theorem get_frames_past (stream : LiveStream) (user : PlayerUser) (few : stream.frameIndex < 2147483648)
    (ring : RingSound stream) (idle : user.pending = false) (low : -1 ≤ user.outIndex) :
    ∀ pkt ∈ (stream.getFrames user).outFrames, pkt.index ≤ stream.frameIndex := by
  cases hasMedia : stream.hasMedia with
  | false =>
      rw [get_frames_idle stream user hasMedia, pending_frames user idle]
      exact List.forall_mem_nil _
  | true =>
      obtain ⟨index, turns, added, out, run, all, _⟩ := get_frames_delivery stream user ring few hasMedia idle low
      rw [all]
      exact fun pkt inside => (run.inside pkt inside).2

theorem get_frames_shown (stream : LiveStream) (user : PlayerUser) (shown : List Packet)
    (few : stream.frameIndex < 2147483648) (sound : Shown stream user shown) :
    Shown stream (stream.getFrames user) shown := by
  obtain ⟨view, order, past, frames⟩ := sound
  cases pending : user.pending with
  | true =>
      rw [LiveStream.getFrames, if_pos (by simp [pending])]
      exact ⟨view, order, past, frames⟩
  | false =>
      rw [pending_frames user pending, List.append_nil] at view order past
      rw [emptied_idle user pending] at view
      exact ⟨get_frames_sound _ few view, get_frames_behind _ few view order,
        List.forall_mem_append.mpr ⟨past, get_frames_past stream user few view.ring pending view.low⟩,
        get_frames_few stream user frames⟩

theorem shown_moved (stream : LiveStream) (user next : PlayerUser) (shown posted : List Packet)
    (sound : Shown stream user shown) (place : next.outIndex = user.outIndex)
    (frames : posted ++ next.outFrames = user.outFrames) : Shown stream next (shown ++ posted) := by
  obtain ⟨⟨ring, _, low, last, media⟩, order, past, few⟩ := sound
  rw [← frames, ← List.append_assoc] at last media order past
  have fewer : next.outFrames.length ≤ user.outFrames.length := by
    rw [← frames, List.length_append]
    exact Nat.le_add_left _ _
  refine ⟨⟨ring, rfl, ?_, ?_, media⟩, order, past, Nat.le_trans fewer few⟩
  · change -1 ≤ next.outIndex
    rw [place]
    exact low
  · intro pkt final
    change next.outIndex = pkt.index ∧ 0 ≤ pkt.index
    rw [place]
    exact last pkt final

theorem add_packet_shown (stream : LiveStream) (packet : Packet) (user : PlayerUser) (shown : List Packet)
    (few : stream.frameIndex + 1 < 2147483648) (sound : Shown stream user shown) :
    Shown (stream.addPacket packet) user shown := by
  refine ⟨add_packet_view_sound ⟨stream, user.emptied, shown ++ user.outFrames⟩ packet few sound.view, sound.order,
    fun pkt inside => ?_, sound.few⟩
  have earlier := sound.past pkt inside
  rw [add_packet_frame_index]
  omega

theorem get_frames_newest (stream : LiveStream) (user : PlayerUser) (shown : List Packet)
    (hasMedia : stream.hasMedia = true) (sound : Shown stream user shown)
    (none' : (stream.getFrames user).pending = false) (last : Packet) (newest : last ∈ shown.getLast?) : last.index = stream.frameIndex := by
  obtain ⟨view, _, past, _⟩ := sound
  have idle : user.pending = false := by
    cases pending : user.pending with
    | false => rfl
    | true =>
        rw [LiveStream.getFrames, if_pos (by simp [pending])] at none'
        exact pending.symm.trans none'
  rw [pending_frames user idle, List.append_nil] at view past
  rw [emptied_idle user idle] at view
  obtain ⟨place, served⟩ := view.last last newest
  have seen := past last (List.mem_of_getLast? newest)
  dsimp only at place
  obtain ⟨added, run, all, _⟩ := get_frames_started stream user view.ring hasMedia idle (place ▸ served)
  have beyond : stream.startIndex user > stream.frameIndex := by
    have stops := run.stops.mp (all.symm.trans (pending_frames _ none'))
    omega
  rcases start_index_cases stream user with ⟨next, _⟩ | ⟨_, _, gop, listed, start, _⟩
  · omega
  · have high := (view.ring.gops gop listed).2.1
    dsimp only at high
    omega

end Lssvc.Live
