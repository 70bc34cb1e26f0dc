import Lssvc.Foundation.Rounds
import Lssvc.Foundation.Words
import Mathlib.Data.Set.Defs

set_option autoImplicit false

namespace Lssvc.Network

open Lssvc.Foundation

structure UdpBufferNode where
  addr : Nat
  size : Nat
  sockAddr : Nat
  sockLen : Nat
deriving DecidableEq, Repr

-- The datagram's size, -1 with EINTR, EAGAIN or EWOULDBLOCK, or -1 with another
-- errno.
inductive SendtoResult where
  | sent
  | transient
  | hard
deriving DecidableEq, Repr

-- The sending half of LSSUdpSocket. Datagrams are numbered as they are submitted,
-- and those that sendto has transmitted are on record.
structure UdpSocket where
  bufferList : List (UdpBufferNode × Nat) := []
  submitted : Nat := 0
  transmitted : List (UdpBufferNode × Nat) := []
  errnoTransient : Bool := false
  wantsWrite : Bool := false
  closed : Bool := false
  completions : Nat := 0
deriving DecidableEq, Repr

def UdpSocket.enableWriting (s : UdpSocket) (en : Bool) : UdpSocket := { s with wantsWrite := en }

def UdpSocket.onClose (s : UdpSocket) : UdpSocket := { s with closed := true }

def UdpSocket.writeCompleteCb (s : UdpSocket) : UdpSocket := { s with completions := s.completions + 1 }

-- A call that succeeds leaves errno as it is.
def UdpSocket.sendto (s : UdpSocket) (node : UdpBufferNode × Nat) : SendtoResult → UdpSocket × Int
  | .sent => ({ s with transmitted := s.transmitted ++ [node] }, node.1.size)
  | .transient => ({ s with errnoTransient := true }, -1)
  | .hard => ({ s with errnoTransient := false }, -1)

def UdpSocket.popFront (s : UdpSocket) : UdpSocket := { s with bufferList := s.bufferList.tail }

def UdpSocket.endRound (s : UdpSocket) : Call UdpSocket :=
  if s.bufferList = [] then .returned s.writeCompleteCb else .going s

-- One round of `while (true)`. The result of sendto is kept in an int.
def UdpSocket.round (s : UdpSocket) (result : SendtoResult) : Call UdpSocket :=
  match s.bufferList with
  | [] => .returned s.writeCompleteCb
  | buf :: _ =>
      let (s, value) := s.sendto buf result
      let ret := toInt32 value
      if ret > 0 then s.popFront.endRound
      else if ret < 0 then
        if s.errnoTransient = false then .returned s.onClose else .returned s
      else s.endRound

def UdpSocket.onWrite (s : UdpSocket) (results : List SendtoResult) : Call UdpSocket :=
  if s.closed then .returned s
  else if s.bufferList = [] then .returned s.writeCompleteCb
  else rounds UdpSocket.round s results

def UdpSocket.sendList (s : UdpSocket) (list : List UdpBufferNode) : UdpSocket :=
  let s := { s with
    bufferList := s.bufferList ++ list.zipIdx s.submitted
    submitted := s.submitted + list.length }
  if s.bufferList ≠ [] then s.enableWriting true else s

def UdpSocket.enqueue (s : UdpSocket) (node : UdpBufferNode × Nat) : UdpSocket :=
  { s with bufferList := s.bufferList ++ [node] }.enableWriting true

-- sendInLoop of a buffer, where `result` is what sendto returns if it is called.
def UdpSocket.sendBuf (s : UdpSocket) (node : UdpBufferNode) (result : SendtoResult) : UdpSocket :=
  let numbered := (node, s.submitted)
  let s := { s with submitted := s.submitted + 1 }
  if s.bufferList = [] then
    let (s, ret) := s.sendto numbered result
    if ret > 0 then s else s.enqueue numbered
  else s.enqueue numbered

inductive UdpEvent where
  | sendList (list : List UdpBufferNode)
  | sendBuf (node : UdpBufferNode) (result : SendtoResult)
  | onWrite (results : List SendtoResult)
deriving DecidableEq, Repr

def udpStep (s : UdpSocket) : UdpEvent → Call UdpSocket
  | .sendList list => .returned (s.sendList list)
  | .sendBuf node result => .returned (s.sendBuf node result)
  | .onWrite results => s.onWrite results

def UdpEvent.nodes : UdpEvent → List UdpBufferNode
  | .sendList list => list
  | .sendBuf node _ => [node]
  | .onWrite _ => []

def UdpEvent.Soft : UdpEvent → Prop
  | .sendList _ => True
  | .sendBuf _ result => result ≠ .hard
  | .onWrite results => .hard ∉ results

def UdpSocket.InOrder (s : UdpSocket) : Prop := (s.transmitted.map Prod.snd).Pairwise (· < ·)

def UdpSocket.WriteReturns (s : UdpSocket) : Prop :=
  ∀ results : Nat → SendtoResult, (∀ call, results call ≠ .hard) → Returns s.onWrite results

def FitsInt (size : Nat) : Prop := 0 < toInt32 size

instance (size : Nat) : Decidable (FitsInt size) := inferInstanceAs (Decidable (_ < _))

structure Fifo (s : UdpSocket) : Prop where
  numbers : (s.transmitted ++ s.bufferList).map Prod.snd = List.range s.submitted
  sizes : ∀ node ∈ s.bufferList, FitsInt node.1.size

theorem fifo_in_order (s : UdpSocket) (fifo : Fifo s) : s.InOrder := by
  have ordered : ((s.transmitted ++ s.bufferList).map Prod.snd).Pairwise (· < ·) := by
    rw [fifo.numbers]
    exact List.pairwise_lt_range
  rw [List.map_append] at ordered
  exact (List.pairwise_append.mp ordered).1

theorem fits_int_positive (size : Nat) (fits : FitsInt size) : 0 < size := by
  refine Nat.pos_of_ne_zero fun zero => ?_
  rw [zero] at fits
  exact absurd fits (by decide)

theorem minus_one : toInt32 (-1) = -1 := by decide

theorem round_transient (s : UdpSocket) (some' : s.bufferList ≠ []) :
    s.round .transient = .returned { s with errnoTransient := true } := by
  obtain ⟨buf, rest, front⟩ := List.exists_cons_of_ne_nil some'
  rw [UdpSocket.round, front]
  dsimp only [UdpSocket.sendto]
  rw [minus_one, if_neg (by decide), if_pos (by decide), if_neg (by decide)]
  rw [front]

theorem round_fits (s : UdpSocket) (buf : UdpBufferNode × Nat) (rest : List (UdpBufferNode × Nat))
    (front : s.bufferList = buf :: rest) (fits : FitsInt buf.1.size) (result : SendtoResult) (soft : result ≠ .hard) :
    (result = .sent ∧ s.round result =
        ({ s with transmitted := s.transmitted ++ [buf], bufferList := rest } : UdpSocket).endRound) ∨
      (result = .transient ∧ s.round result = .returned { s with errnoTransient := true }) := by
  cases result with
  | sent =>
      refine .inl ⟨rfl, ?_⟩
      rw [UdpSocket.round, front]
      dsimp only [UdpSocket.sendto]
      have positive : toInt32 buf.1.size > 0 := fits
      rw [if_pos positive, UdpSocket.popFront]
      dsimp only
      rw [front, List.tail_cons]
  | transient =>
      exact .inr ⟨rfl, round_transient s (by rw [front]; exact List.cons_ne_nil _ _)⟩
  | hard => exact absurd rfl soft

theorem end_round_state (s : UdpSocket) (fifo : Fifo s) : Fifo s.endRound.state := by
  rw [UdpSocket.endRound]
  split_ifs
  · exact ⟨fifo.numbers, fifo.sizes⟩
  · exact fifo

theorem round_fifo (s : UdpSocket) (result : SendtoResult) (soft : result ≠ .hard) (fifo : Fifo s) :
    Fifo (s.round result).state := by
  cases front : s.bufferList with
  | nil =>
      rw [UdpSocket.round, front]
      exact ⟨fifo.numbers, fifo.sizes⟩
  | cons buf rest =>
      obtain ⟨numbers, sizes⟩ := fifo
      rw [front] at numbers sizes
      obtain ⟨fits, later⟩ := List.forall_mem_cons.mp sizes
      rcases round_fits s buf rest front fits result soft with ⟨_, taken⟩ | ⟨_, failed⟩
      · rw [taken]
        refine end_round_state _ ⟨?_, later⟩
        rw [List.append_assoc]
        exact numbers
      · rw [failed]
        refine ⟨?_, ?_⟩
        · rw [Call.state, front]
          exact numbers
        · rw [Call.state, front]
          exact sizes

theorem on_write_fifo (s : UdpSocket) (results : List SendtoResult) (soft : .hard ∉ results) (fifo : Fifo s) :
    Fifo (s.onWrite results).state := by
  rw [UdpSocket.onWrite]
  split_ifs
  · exact fifo
  · exact ⟨fifo.numbers, fifo.sizes⟩
  · exact rounds_invariant Fifo results
      (fun state result listed held => round_fifo state result (fun same => soft (same ▸ listed)) held) s fifo

theorem enqueue_fifo (s : UdpSocket) (node : UdpBufferNode) (fifo : Fifo s) (fits : FitsInt node.size) :
    Fifo (({ s with submitted := s.submitted + 1 } : UdpSocket).enqueue (node, s.submitted)) := by
  refine ⟨?_, List.forall_mem_append.mpr ⟨fifo.sizes, List.forall_mem_singleton.mpr fits⟩⟩
  change (s.transmitted ++ (s.bufferList ++ [(node, s.submitted)])).map Prod.snd = List.range (s.submitted + 1)
  rw [← List.append_assoc, List.map_append, fifo.numbers, List.range_succ]
  rfl

theorem send_buf_sent (s : UdpSocket) (node : UdpBufferNode) (empty : s.bufferList = []) (positive : 0 < node.size) :
    s.sendBuf node .sent =
      { s with submitted := s.submitted + 1, transmitted := s.transmitted ++ [(node, s.submitted)] } := by
  rw [UdpSocket.sendBuf]
  dsimp only
  rw [if_pos empty]
  exact if_pos (Int.natCast_pos.mpr positive)

theorem send_buf_fifo (s : UdpSocket) (node : UdpBufferNode) (result : SendtoResult) (soft : result ≠ .hard)
    (fifo : Fifo s) (fits : FitsInt node.size) : Fifo (s.sendBuf node result) := by
  by_cases empty : s.bufferList = []
  · cases result with
    | sent =>
        have numbers := fifo.numbers
        rw [empty, List.append_nil] at numbers
        rw [send_buf_sent s node empty (fits_int_positive node.size fits)]
        refine ⟨?_, fifo.sizes⟩
        dsimp only
        rw [empty, List.append_nil, List.map_append, numbers, List.range_succ]
        rfl
    | transient =>
        obtain ⟨numbers, sizes⟩ := enqueue_fifo s node fifo fits
        rw [UdpSocket.sendBuf]
        dsimp only
        rw [if_pos empty]
        exact ⟨numbers, sizes⟩
    | hard => exact absurd rfl soft
  · rw [UdpSocket.sendBuf]
    dsimp only
    rw [if_neg empty]
    exact enqueue_fifo s node fifo fits

theorem send_list_fifo (s : UdpSocket) (list : List UdpBufferNode) (fifo : Fifo s)
    (fits : ∀ node ∈ list, FitsInt node.size) : Fifo (s.sendList list) := by
  have appended : Fifo { s with
      bufferList := s.bufferList ++ list.zipIdx s.submitted
      submitted := s.submitted + list.length } := by
    refine ⟨?_, List.forall_mem_append.mpr ⟨fifo.sizes, fun node inside => fits node.1 (List.fst_mem_of_mem_zipIdx inside)⟩⟩
    dsimp only
    rw [← List.append_assoc, List.map_append, fifo.numbers, List.zipIdx_map_snd, List.range_eq_range',
      List.range_eq_range', ← List.range'_append_1, Nat.zero_add]
  rw [UdpSocket.sendList]
  dsimp only
  split_ifs
  · exact ⟨appended.numbers, appended.sizes⟩
  · exact appended

theorem end_round_going {s next : UdpSocket} (goes : s.endRound = .going next) : next = s := by
  rw [UdpSocket.endRound] at goes
  split_ifs at goes
  cases goes
  rfl

theorem on_write_waiting_udp (s : UdpSocket) (isOpen : s.closed = false) (waiting : s.bufferList ≠ []) :
    s.onWrite = rounds UdpSocket.round s := by
  funext results
  rw [UdpSocket.onWrite, if_neg (ne_true_of_eq_false isOpen), if_neg waiting]

theorem fifo_returns (s : UdpSocket) (fifo : Fifo s) : s.WriteReturns := by
  intro results soft
  by_cases closed : s.closed = true
  · exact ⟨0, s, if_pos closed⟩
  · by_cases empty : s.bufferList = []
    · refine ⟨0, s.writeCompleteCb, ?_⟩
      rw [UdpSocket.onWrite, if_neg closed, if_pos empty]
    · have suits : Suits (fun _ result => result ≠ .hard) (rounds UdpSocket.round s) results := fun count _ _ => soft count
      rw [on_write_waiting_udp s (Bool.eq_false_iff.mpr closed) empty]
      refine returns_of_measure Fifo (fun state => state.bufferList.length) fifo ?_ suits
      intro state result next held fine goes
      have kept := round_fifo state result fine held
      rw [goes] at kept
      refine ⟨kept, ?_⟩
      cases front : state.bufferList with
      | nil =>
          rw [UdpSocket.round, front] at goes
          cases goes
      | cons buf rest =>
          have fits := held.sizes buf (by rw [front]; exact List.mem_cons_self)
          rcases round_fits state buf rest front fits result fine with ⟨_, taken⟩ | ⟨_, failed⟩
          · rw [end_round_going (taken.symm.trans goes)]
            exact Nat.lt_succ_self _
          · cases failed.symm.trans goes

theorem udp_step_fifo (s : UdpSocket) (event : UdpEvent) (soft : event.Soft)
    (sizes : ∀ node ∈ event.nodes, FitsInt node.size) (fifo : Fifo s) : Fifo (udpStep s event).state := by
  cases event with
  | sendList list => exact send_list_fifo s list fifo sizes
  | sendBuf node result => exact send_buf_fifo s node result soft fifo (sizes node (List.mem_singleton_self node))
  | onWrite results => exact on_write_fifo s results soft fifo

theorem run_fifo (events : List UdpEvent)
    (fine : ∀ event ∈ events, event.Soft ∧ ∀ node ∈ event.nodes, FitsInt node.size) :
    Fifo (run (follow udpStep) (.returned {}) events).state :=
  run_follow_invariant Fifo events
    (fun s event listed fifo => udp_step_fifo s event (fine event listed).1 (fine event listed).2 fifo) {}
    ⟨rfl, List.forall_mem_nil _⟩

theorem round_zero (s : UdpSocket) (node : UdpBufferNode × Nat) (rest : List (UdpBufferNode × Nat))
    (front : s.bufferList = node :: rest) (zero : toInt32 node.1.size = 0) :
    s.round .sent = .going { s with transmitted := s.transmitted ++ [node] } := by
  have waiting : ({ s with transmitted := s.transmitted ++ [node] } : UdpSocket).bufferList ≠ [] := by
    rw [front]
    exact List.cons_ne_nil _ _
  have goesOn : ({ s with transmitted := s.transmitted ++ [node] } : UdpSocket).endRound = .going _ := if_neg waiting
  rw [← goesOn, UdpSocket.round, front]
  dsimp only [UdpSocket.sendto]
  rw [zero, if_neg (Int.lt_irrefl 0), if_neg (Int.lt_irrefl 0), front]

theorem zero_never_returns (s : UdpSocket) (isOpen : s.closed = false) (node : UdpBufferNode × Nat)
    (front : s.bufferList = [node]) (zero : toInt32 node.1.size = 0) : ¬ s.WriteReturns := by
  intro returns
  have suits : Suits (fun _ _ => True) (rounds UdpSocket.round s) fun _ => .sent := fun _ _ _ => trivial
  have loop := returns (fun _ => .sent) fun _ impossible => by cases impossible
  rw [on_write_waiting_udp s isOpen (by rw [front]; exact List.cons_ne_nil _ _)] at loop
  refine never_returns (fun state => state.bufferList = [node]) front ?_ suits loop
  intro _ state waits _
  exact ⟨_, round_zero state node [] waits zero, waits⟩

theorem round_negative (s : UdpSocket) (node : UdpBufferNode × Nat) (rest : List (UdpBufferNode × Nat))
    (front : s.bufferList = node :: rest) (negative : toInt32 node.1.size < 0) (errno : s.errnoTransient = true) :
    s.round .sent = .returned { s with transmitted := s.transmitted ++ [node] } := by
  rw [UdpSocket.round, front]
  dsimp only [UdpSocket.sendto]
  rw [if_neg (Int.not_lt.mpr (Int.le_of_lt negative)), if_pos negative, if_neg (by rw [errno]; decide), front]

theorem negative_twice (node : UdpBufferNode) (negative : toInt32 node.size < 0) :
    ¬ (run (follow udpStep) (.returned {})
      [.sendList [node], .onWrite [.transient], .onWrite [.sent], .onWrite [.sent]]).state.InOrder := by
  let queued : UdpSocket := ({} : UdpSocket).sendList [node]
  let failed : UdpSocket := { queued with errnoTransient := true }
  let once : UdpSocket := { failed with transmitted := [(node, 0)] }
  let twice : UdpSocket := { failed with transmitted := [(node, 0), (node, 0)] }
  have waiting : ({} : UdpSocket).sendList [node] = queued := rfl
  have first : queued.onWrite [.transient] = .returned failed := by
    rw [on_write_waiting_udp queued rfl (List.cons_ne_nil _ _)]
    exact rounds_cons_returned [] (round_transient queued (List.cons_ne_nil _ _))
  have second : failed.onWrite [.sent] = .returned once := by
    rw [on_write_waiting_udp failed rfl (List.cons_ne_nil _ _)]
    exact rounds_cons_returned [] (round_negative failed (node, 0) [] rfl negative rfl)
  have third : once.onWrite [.sent] = .returned twice := by
    rw [on_write_waiting_udp once rfl (List.cons_ne_nil _ _)]
    exact rounds_cons_returned [] (round_negative once (node, 0) [] rfl negative rfl)
  have whole : run (follow udpStep) (.returned {})
      [.sendList [node], .onWrite [.transient], .onWrite [.sent], .onWrite [.sent]] = .returned twice := by
    rw [run_follow_cons, udpStep, waiting, run_follow_cons, udpStep, first, run_follow_cons, udpStep, second,
      run_follow_cons, udpStep, third]
    rfl
  rw [whole]
  intro inOrder
  exact absurd (List.rel_of_pairwise_cons inOrder List.mem_cons_self) (Nat.lt_irrefl 0)

theorem udp_queue_iff (sizes : Set Nat) :
    (∀ events : List UdpEvent, (∀ event ∈ events, event.Soft ∧ ∀ node ∈ event.nodes, node.size ∈ sizes) →
        (run (follow udpStep) (.returned {}) events).state.InOrder ∧
          ∀ s, run (follow udpStep) (.returned {}) events = .returned s → s.WriteReturns) ↔
      ∀ size ∈ sizes, FitsInt size := by
  constructor
  · intro sound size allowed
    by_contra misfit
    have submit : (UdpEvent.sendList [⟨0, size, 0, 0⟩]).Soft ∧
        ∀ node ∈ (UdpEvent.sendList [⟨0, size, 0, 0⟩]).nodes, node.size ∈ sizes :=
      ⟨trivial, List.forall_mem_singleton.mpr allowed⟩
    have write (result : SendtoResult) (soft : result ≠ .hard) :
        (UdpEvent.onWrite [result]).Soft ∧ ∀ node ∈ (UdpEvent.onWrite [result]).nodes, node.size ∈ sizes :=
      ⟨fun listed => soft (List.mem_singleton.mp listed).symm, List.forall_mem_nil _⟩
    rcases Int.lt_or_eq_of_le (Int.not_lt.mp misfit) with negative | zero
    · refine negative_twice ⟨0, size, 0, 0⟩ negative (sound _ ?_).1
      refine List.forall_mem_cons.mpr ⟨submit, List.forall_mem_cons.mpr ⟨write .transient (by decide),
        List.forall_mem_cons.mpr ⟨write .sent (by decide), List.forall_mem_singleton.mpr (write .sent (by decide))⟩⟩⟩
    · exact zero_never_returns _ rfl (⟨0, size, 0, 0⟩, 0) rfl zero
        ((sound [.sendList [⟨0, size, 0, 0⟩]] (List.forall_mem_singleton.mpr submit)).2 _ rfl)
  · intro fits events fine
    have fifo := run_fifo events fun event listed =>
      ⟨(fine event listed).1, fun node inside => fits node.size ((fine event listed).2 node inside)⟩
    refine ⟨fifo_in_order _ fifo, fun s reached => ?_⟩
    rw [reached] at fifo
    exact fifo_returns s fifo

-- Sent at once and queued as well.
theorem empty_datagram_repeated :
    ¬ ∀ events : List UdpEvent, (∀ event ∈ events, event.Soft) →
      (run (follow udpStep) (.returned {}) events).state.InOrder ∧
        ∀ s, run (follow udpStep) (.returned {}) events = .returned s → s.WriteReturns := by
  intro claim
  have soft : ∀ event ∈ [UdpEvent.sendBuf ⟨0, 0, 0, 0⟩ .sent, .onWrite [.sent]], event.Soft := by
    refine List.forall_mem_cons.mpr ⟨?_, List.forall_mem_singleton.mpr ?_⟩
    · exact fun same => (by cases same)
    · exact fun listed => (by cases List.mem_singleton.mp listed)
  have inOrder := (claim _ soft).1
  exact absurd inOrder (show ¬ List.Pairwise _ _ by decide)

end Lssvc.Network
