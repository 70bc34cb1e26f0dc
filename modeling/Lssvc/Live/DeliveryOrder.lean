import Lssvc.Live.KeyFrameGaps

set_option autoImplicit false

namespace Lssvc.Live

open Lssvc.Foundation Lssvc.Mmedia

def LiveStream.skipMoves (stream : LiveStream) (user : PlayerUser) : Bool :=
  stream.hasMedia && !user.pending && decide (0 ≤ user.outIndex) && stream.needSkip user &&
    (stream.skipFrame user).outIndex != user.outIndex

structure Delivery where
  packet : Packet
  skipped : Bool
  latest : Int

def Viewing.handed (viewing : Viewing) : List Delivery :=
  match (viewing.stream.getFrames viewing.user).outFrames with
  | [] => []
  | first :: rest =>
      ⟨first, viewing.stream.skipMoves viewing.user, viewing.stream.frameIndex⟩ ::
        rest.map fun pkt => ⟨pkt, false, viewing.stream.frameIndex⟩

def Viewing.handedBy (viewing : Viewing) : ViewEvent → List Delivery
  | .addPacket _ => []
  | .getFrames => viewing.handed

def deliveries (start : Viewing) (events : List ViewEvent) : List Delivery :=
  (met viewStep start events).flatMap fun pair => pair.1.handedBy pair.2

def GapExplained (earlier later : Delivery) : Prop :=
  earlier.packet.index + 1 < later.packet.index →
    later.skipped = true ∨ earlier.packet.index + 1 ≤ later.latest - packetBufferSize

def Follows (earlier later : Delivery) : Prop :=
  earlier.packet.index < later.packet.index ∧ GapExplained earlier later

theorem deliveries_snoc (start : Viewing) (past : List ViewEvent) (event : ViewEvent) :
    deliveries start (past ++ [event]) = deliveries start past ++ (run viewStep start past).handedBy event := by
  rw [deliveries, met_append, List.flatMap_append]
  simp only [met, List.flatMap_cons, List.flatMap_nil, List.append_nil]
  rfl

theorem handed_packets (viewing : Viewing) :
    viewing.handed.map Delivery.packet = (viewing.stream.getFrames viewing.user).outFrames := by
  rw [Viewing.handed]
  cases (viewing.stream.getFrames viewing.user).outFrames with
  | nil => rfl
  | cons first rest => simp only [List.map_cons, List.map_map, Function.comp_def, List.map_id']

theorem deliveries_packets (start : Viewing) (events : List ViewEvent) (none : start.delivered = []) :
    (deliveries start events).map Delivery.packet = (run viewStep start events).delivered := by
  induction events using List.reverseRecOn with
  | nil => exact none.symm
  | append_singleton past event ih =>
      rw [deliveries_snoc, run_snoc, List.map_append, ih]
      cases event with
      | addPacket packet => exact List.append_nil _
      | getFrames => exact congrArg _ (handed_packets _)

theorem first_follows (stream : LiveStream) (user : PlayerUser) (sound : RingSound stream)
    (hasMedia : stream.hasMedia = true) (idle : user.pending = false) (served : 0 ≤ user.outIndex) (first : Packet)
    (given : first ∈ (stream.getFrames user).outFrames.head?) :
    user.outIndex < first.index ∧
      (user.outIndex + 1 < first.index →
        stream.skipMoves user = true ∨ user.outIndex + 1 ≤ stream.frameIndex - packetBufferSize) := by
  obtain ⟨added, run, all, _⟩ := get_frames_started stream user sound hasMedia idle served
  rw [all] at given
  have slotRead := run.first first given
  have inside : stream.startIndex user ≤ stream.frameIndex := by
    by_contra past
    rw [run.stops.mpr (.inr (by omega))] at given
    cases given
  obtain ⟨low, ahead, moves⟩ := start_index_ahead stream user sound served
  obtain ⟨item, read, recent, old⟩ := window_read (by decide) sound.window (stream.startIndex user) low inside
  cases slotRead.symm.trans read
  by_cases overwritten : stream.startIndex user + packetBufferSize ≤ stream.frameIndex
  · have younger := old overwritten
    exact ⟨by omega, fun _ => .inr (by omega)⟩
  · have exact_place := recent (by omega)
    refine ⟨by omega, fun gap => .inl ?_⟩
    rw [LiveStream.skipMoves, hasMedia, idle, decide_eq_true served]
    simpa using moves (by omega)

theorem handed_chain (viewing : Viewing) (few : viewing.stream.frameIndex < 2147483648) (sound : ViewSound viewing) :
    viewing.handed.IsChain Follows := by
  have consecutive : (viewing.stream.getFrames viewing.user).outFrames.IsChain
      fun earlier later => later.index = earlier.index + 1 := by
    cases hasMedia : viewing.stream.hasMedia with
    | false =>
        rw [get_frames_idle viewing.stream viewing.user hasMedia, pending_frames viewing.user sound.idle]
        exact .nil
    | true =>
        obtain ⟨index, turns, added, out, run, all, _⟩ :=
          get_frames_delivery viewing.stream viewing.user sound.ring few hasMedia sound.idle sound.low
        rw [all]
        exact run.consecutive
  rw [← handed_packets, List.isChain_map] at consecutive
  exact consecutive.imp fun earlier later next => ⟨by omega, fun gap => absurd gap (by omega)⟩

theorem handed_follows (viewing : Viewing) (sound : ViewSound viewing) (log : List Delivery)
    (same : log.map Delivery.packet = viewing.delivered) (last : Delivery) (newest : last ∈ log.getLast?)
    (first : Delivery) (given : first ∈ viewing.handed.head?) : Follows last first := by
  have final : last.packet ∈ viewing.delivered.getLast? := by
    rw [← same, List.getLast?_map, Option.mem_def.mp newest]
    rfl
  obtain ⟨place, served⟩ := sound.last last.packet final
  have some' : viewing.delivered ≠ [] := by
    intro empty
    rw [empty] at final
    cases final
  rw [Viewing.handed] at given
  cases frames : (viewing.stream.getFrames viewing.user).outFrames with
  | nil =>
      rw [frames] at given
      cases given
  | cons front rest =>
      rw [frames] at given
      cases given
      have follows := first_follows viewing.stream viewing.user sound.ring (sound.media some') sound.idle
        (place ▸ served) front (by rw [frames]; rfl)
      rw [place] at follows
      exact follows

theorem deliveries_step (viewing : Viewing) (event : ViewEvent) (few : viewing.stream.frameIndex < 2147483648)
    (sound : ViewSound viewing) (log : List Delivery) (same : log.map Delivery.packet = viewing.delivered)
    (chain : log.IsChain Follows) : (log ++ viewing.handedBy event).IsChain Follows := by
  cases event with
  | addPacket packet => exact (List.append_nil log).symm ▸ chain
  | getFrames =>
      rw [List.isChain_append]
      exact ⟨chain, handed_chain viewing few sound, fun last newest first given =>
        handed_follows viewing sound log same last newest first given⟩

theorem deliveries_chain (contentLatency : Int) (events : List ViewEvent) (few : packetCount events < 2147483648) :
    (deliveries (.fresh contentLatency) events).IsChain Follows := by
  induction events using List.reverseRecOn with
  | nil => exact .nil
  | append_singleton past event ih =>
      have fewBefore := Nat.lt_of_le_of_lt (packet_count_le past [event]) few
      have index := frame_index_run contentLatency past
      rw [deliveries_snoc]
      exact deliveries_step _ event (by omega) (view_run_sound contentLatency past fewBefore) _
        (deliveries_packets _ past rfl) (ih fewBefore)

theorem delivery_order (contentLatency : Int) (events : List ViewEvent) (few : packetCount events < 2147483648) :
    (deliveries (.fresh contentLatency) events).map Delivery.packet =
        (run viewStep (.fresh contentLatency) events).delivered ∧
      ((run viewStep (.fresh contentLatency) events).delivered.map Packet.index).Pairwise (· < ·) ∧
      (deliveries (.fresh contentLatency) events).IsChain GapExplained := by
  have chain := deliveries_chain contentLatency events few
  have same := deliveries_packets (.fresh contentLatency) events rfl
  refine ⟨same, ?_, chain.imp fun _ _ follows => follows.2⟩
  rw [← same, List.map_map, ← List.isChain_iff_pairwise, List.isChain_map]
  exact chain.imp fun _ _ follows => follows.1

theorem delivery_order_joined :
    packetCount [.addPacket videoHeader, .getFrames, .addPacket interFrame, .getFrames] < 2147483648 ∧
      ((run viewStep (.fresh 3000)
        [.addPacket videoHeader, .getFrames, .addPacket interFrame, .getFrames]).delivered.map
          Packet.index).Pairwise (· < ·) :=
  ⟨by decide, (delivery_order 3000 _ (by decide)).2.1⟩

end Lssvc.Live
