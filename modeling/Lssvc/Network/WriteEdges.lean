import Lssvc.Foundation.Runs
import Lssvc.Network.EventLoop

set_option autoImplicit false

namespace Lssvc.Network

open Lssvc.Foundation

def TcpConnection.EdgeLost (conn : TcpConnection) : Prop :=
  conn.spinning = false ∧ conn.ioVecList ≠ [] ∧ 0 < conn.room ∧ conn.wantsWrite = true ∧ conn.pending = false

def ConnAction.Rearms : ConnAction → Prop
  | .send _ => True
  | .sendBytes size => size ≠ 0
  | .arrive => True
  | .drain _ => False

def TcpConnection.Misread (conn : TcpConnection) : Prop :=
  conn.pending = true ∧ conn.readable = true ∧ conn.ioVecList ≠ [] ∧ 0 < conn.room ∧ conn.wantsWrite = true

def EdgeKept (conn : TcpConnection) : LoopEvent → Prop
  | .action _ => True
  | .epollWait _ during => conn.spinning = false → conn.Misread → ∃ action ∈ during, action.Rearms

theorem enabled_not_lost (conn : TcpConnection) : ¬ (conn.enableWriting true).EdgeLost := by
  rintro ⟨_, _, writable, _, quiet⟩
  have room : 0 < conn.room := writable
  rw [TcpConnection.enableWriting] at quiet
  simp [room] at quiet

theorem disabled_not_lost (conn : TcpConnection) : ¬ (conn.enableWriting false).EdgeLost := fun lost =>
  absurd lost.2.2.2.1 Bool.false_ne_true

theorem empty_not_lost (conn : TcpConnection) (empty : conn.ioVecList = []) : ¬ conn.EdgeLost := fun lost => lost.2.1 empty

theorem full_not_lost (conn : TcpConnection) (full : conn.room = 0) : ¬ conn.EdgeLost := fun lost => by
  have writable := lost.2.2.1
  omega

theorem send_list_not_lost (conn : TcpConnection) (sizes : List Nat) : ¬ (conn.sendList sizes).EdgeLost := by
  rw [TcpConnection.sendList]
  dsimp only
  by_cases some' : conn.ioVecList ++ sizes ≠ []
  · rw [if_pos some']
    exact enabled_not_lost _
  · rw [if_neg some']
    exact empty_not_lost _ (not_not.mp some')

theorem send_bytes_lost_iff (conn : TcpConnection) (size : Nat) :
    (conn.sendBytes size).EdgeLost ↔ conn.EdgeLost ∧ size = 0 := by
  rw [TcpConnection.sendBytes]
  by_cases empty : conn.ioVecList = []
  · have before := empty_not_lost conn empty
    rw [if_pos empty]
    refine ⟨fun lost => absurd lost ?_, fun lost => absurd lost.1 before⟩
    split
    · exact enabled_not_lost _
    · split
      · exact empty_not_lost _ empty
      · exact enabled_not_lost _
  · rw [if_neg empty]
    by_cases some' : size > 0
    · rw [if_pos some']
      exact ⟨fun lost => absurd lost (enabled_not_lost _), fun lost => by omega⟩
    · rw [if_neg some']
      exact ⟨fun lost => ⟨lost, by omega⟩, fun lost => lost.1⟩

theorem drain_lost_iff (conn : TcpConnection) (n : Nat) : (conn.drain n).EdgeLost ↔ conn.EdgeLost := by
  rw [TcpConnection.drain, TcpConnection.EdgeLost, TcpConnection.EdgeLost]
  by_cases full : conn.room = 0
  · simp only [full, decide_true, Bool.and_true, Bool.or_eq_false_iff, Nat.lt_irrefl, false_and, and_false, iff_false]
    rintro ⟨_, _, _, wants, _, quiet⟩
    exact absurd (wants.symm.trans quiet) (by decide)
  · have writable : 0 < conn.room := Nat.pos_of_ne_zero full
    have more : 0 < conn.room + (n + 1) := by omega
    simp [full, writable, more]

theorem act_lost_iff (conn : TcpConnection) (action : ConnAction) :
    (conn.act action).EdgeLost ↔ conn.EdgeLost ∧ ¬ action.Rearms := by
  cases action with
  | send sizes => exact ⟨fun lost => absurd lost (send_list_not_lost conn sizes), fun lost => absurd trivial lost.2⟩
  | sendBytes size => exact (send_bytes_lost_iff conn size).trans (and_congr_right fun _ => not_not.symm)
  | arrive => exact ⟨fun lost => absurd (show true = false from lost.2.2.2.2) (by decide), fun lost => absurd trivial lost.2⟩
  | drain n => exact (drain_lost_iff conn n).trans ⟨fun lost => ⟨lost, id⟩, And.left⟩

theorem acts_lost_iff (conn : TcpConnection) (during : List ConnAction) :
    (conn.acts during).EdgeLost ↔ conn.EdgeLost ∧ ∀ action ∈ during, ¬ action.Rearms := by
  induction during generalizing conn with
  | nil => exact ⟨fun lost => ⟨lost, fun _ impossible => absurd impossible List.not_mem_nil⟩, And.left⟩
  | cons action during ih =>
      rw [TcpConnection.acts, List.foldl_cons, List.forall_mem_cons, ← and_assoc, ← act_lost_iff]
      exact ih (conn.act action)

theorem erase_written_sum (ret : Nat) (list : List Nat) (bounded : ret ≤ list.sum) :
    (eraseWritten ret list).sum = list.sum - ret := by
  induction list generalizing ret with
  | nil => rw [eraseWritten, List.sum_nil, Nat.zero_sub]
  | cons len list ih =>
      rw [List.sum_cons] at bounded
      rw [eraseWritten]
      by_cases done : ret = 0
      · rw [if_pos done, done, Nat.sub_zero]
      · rw [if_neg done]
        by_cases part : len > ret
        · rw [if_pos part, List.sum_cons, List.sum_cons]
          omega
        · rw [if_neg part, ih (ret - len) (by omega), List.sum_cons]
          omega

theorem writev_done (conn : TcpConnection) : conn.writev.ioVecList.sum = 0 ∨ conn.writev.room = 0 := by
  have left := erase_written_sum (min conn.room conn.ioVecList.sum) conn.ioVecList (Nat.min_le_right _ _)
  change (eraseWritten _ _).sum = 0 ∨ conn.room - min conn.room conn.ioVecList.sum = 0
  omega

theorem write_loop_done (conn : TcpConnection) (taken : List Nat) :
    (conn.writeLoop taken).ioVecList = [] ∨ (conn.writeLoop taken).ioVecList.sum = 0 ∨ (conn.writeLoop taken).room = 0 := by
  induction taken generalizing conn with
  | nil => exact .inr (writev_done conn)
  | cons n taken ih =>
      rw [TcpConnection.writeLoop]
      by_cases empty : conn.writev.ioVecList = []
      · rw [if_pos empty]
        exact .inl empty
      · rw [if_neg empty]
        exact ih (conn.writev.drain n)

theorem on_write_not_lost (conn : TcpConnection) (taken : List Nat) (during : List ConnAction) :
    ¬ (conn.onWrite taken during).EdgeLost := by
  have drained (other : TcpConnection) : ¬ ((other.enableWriting false).acts during).EdgeLost := fun lost =>
    disabled_not_lost other ((acts_lost_iff _ during).mp lost).1
  rw [TcpConnection.onWrite]
  by_cases some' : conn.ioVecList ≠ []
  · rw [if_pos some']
    dsimp only
    by_cases empty : (conn.writeLoop taken).ioVecList = []
    · rw [if_pos empty]
      exact drained _
    · rw [if_neg empty]
      by_cases spins : (conn.writeLoop taken).ioVecList.sum = 0
      · rw [if_pos spins]
        exact fun lost => absurd (show true = false from lost.1) (by decide)
      · rw [if_neg spins]
        exact full_not_lost _ (((write_loop_done conn taken).resolve_left empty).resolve_left spins)
  · rw [if_neg some']
    exact drained _

theorem epoll_wait_lost_iff (conn : TcpConnection) (running : conn.spinning = false) (good : ¬ conn.EdgeLost)
    (taken : List Nat) (during : List ConnAction) :
    (conn.epollWait taken during).EdgeLost ↔ conn.Misread ∧ ∀ action ∈ during, ¬ action.Rearms := by
  rw [TcpConnection.epollWait]
  by_cases pending : conn.pending = true
  · rw [if_pos pending]
    by_cases input : conn.readable = true
    · have handler : dispatch conn.flags = .onRead := by simp [dispatch, TcpConnection.flags, input]
      rw [handler]
      have unread : ∀ other : TcpConnection, ({ other with readable := false } : TcpConnection).EdgeLost ↔ other.EdgeLost :=
        fun _ => Iff.rfl
      have quiet : ({ conn with pending := false } : TcpConnection).EdgeLost ↔ conn.Misread :=
        ⟨fun lost => ⟨pending, input, lost.2.1, lost.2.2.1, lost.2.2.2.1⟩,
          fun misread => ⟨running, misread.2.2.1, misread.2.2.2.1, misread.2.2.2.2, rfl⟩⟩
      exact (unread _).trans ((acts_lost_iff _ during).trans (and_congr_left fun _ => quiet))
    · have never : ¬ conn.Misread := fun misread => input misread.2.1
      refine ⟨fun lost => absurd lost ?_, fun misread => absurd misread.1 never⟩
      by_cases output : conn.flags.output = true
      · have handler : dispatch conn.flags = .onWrite := by
          simp only [Bool.not_eq_true] at input
          simp only [TcpConnection.flags] at output
          simp [dispatch, TcpConnection.flags, input, output]
        rw [handler]
        exact on_write_not_lost _ taken during
      · have handler : dispatch conn.flags = .nothing := by
          simp only [Bool.not_eq_true] at input output
          simp only [TcpConnection.flags] at output
          simp [dispatch, TcpConnection.flags, input, output]
        rw [handler]
        rintro ⟨_, _, writable, wants, _⟩
        refine output ?_
        have room : 0 < conn.room := writable
        have interest : conn.wantsWrite = true := wants
        simp [TcpConnection.flags, room, interest]
  · rw [if_neg pending]
    exact ⟨fun lost => absurd lost good, fun misread => absurd misread.1.1 pending⟩

theorem loop_step_lost_iff (conn : TcpConnection) (good : ¬ conn.EdgeLost) (event : LoopEvent) :
    ¬ (loopStep conn event).EdgeLost ↔ EdgeKept conn event := by
  unfold loopStep
  cases running : conn.spinning with
  | true =>
      rw [if_pos rfl]
      refine ⟨fun _ => ?_, fun _ => good⟩
      cases event with
      | action action => trivial
      | epollWait taken during => exact fun idle => absurd (running.symm.trans idle) (by decide)
  | false =>
      rw [if_neg Bool.false_ne_true]
      cases event with
      | action action => exact ⟨fun _ => trivial, fun _ lost => good ((act_lost_iff conn action).mp lost).1⟩
      | epollWait taken during =>
          refine (not_congr (epoll_wait_lost_iff conn running good taken during)).trans ?_
          rw [EdgeKept]
          constructor
          · intro kept _ misread
            by_contra none
            exact kept ⟨misread, fun action inside rearms => none ⟨action, inside, rearms⟩⟩
          · rintro kept ⟨misread, quiet⟩
            obtain ⟨action, inside, rearms⟩ := kept running misread
            exact quiet action inside rearms

theorem no_edge_lost_iff (room : Nat) (readable : Bool) (events : List LoopEvent) :
    (∀ past rest, events = past ++ rest → ¬ (run loopStep (.fresh room readable) past).EdgeLost) ↔
      ∀ pair ∈ met loopStep (.fresh room readable) events, EdgeKept pair.1 pair.2 :=
  run_throughout_iff (fun conn => ¬ conn.EdgeLost) EdgeKept (empty_not_lost _ rfl)
    (fun past event good => loop_step_lost_iff (run loopStep (.fresh room readable) past) good event) events

-- Room for half of the data, and a request that comes in together with the room
-- for the other half.
theorem edge_lost_to_read :
    (run loopStep (.fresh 5 false)
      [.action (.send [10]), .epollWait [] [], .action .arrive, .action (.drain 4), .epollWait [] []]).EdgeLost := by
  refine ⟨?_, ?_, ?_, ?_, ?_⟩ <;> decide

end Lssvc.Network
