import Lssvc.Foundation.Rounds
import Lssvc.Network.WriteEdges

set_option autoImplicit false

namespace Lssvc.Network

open Lssvc.Foundation

-- An entry of io_vec_list_, and what the buffers hold. Nobody changes a buffer
-- that is queued.
structure IoVec where
  base : UInt64
  len : UInt64
deriving DecidableEq, Repr

abbrev Memory := UInt64 → UInt8

def IoVec.size (vec : IoVec) : Nat := vec.len.toNat

def IoVec.bytes (mem : Memory) (vec : IoVec) : List UInt8 :=
  (List.range vec.size).map fun i => mem (vec.base + UInt64.ofNat i)

def described (mem : Memory) (vecs : List IoVec) : List UInt8 := vecs.flatMap (IoVec.bytes mem)

-- `iov_base += ret; iov_len -= ret`
def IoVec.advance (vec : IoVec) (ret : Nat) : IoVec := ⟨vec.base + UInt64.ofNat ret, vec.len - UInt64.ofNat ret⟩

def eraseVecs : Nat → List IoVec → List IoVec
  | _, [] => []
  | ret, vec :: list =>
      if ret = 0 then vec :: list
      else if vec.size > ret then vec.advance ret :: list
      else eraseVecs (ret - vec.size) list

-- A count, -1 with EINTR, EAGAIN or EWOULDBLOCK, or -1 with another errno.
inductive WriteResult where
  | accepted (n : Nat)
  | transient
  | hard
deriving DecidableEq, Repr

-- The sending half of a connection, with the bytes the kernel has accepted, the
-- number of entries of each writev, and io_vec_list_ at each call of
-- write_complete_cb_.
structure TcpOutput where
  ioVecList : List IoVec := []
  wantsWrite : Bool := false
  closed : Bool := false
  accepted : List UInt8 := []
  gathered : List Nat := []
  completions : List (List IoVec) := []
deriving DecidableEq, Repr

def TcpOutput.sizes (out : TcpOutput) : List Nat := out.ioVecList.map IoVec.size

def TcpOutput.enableWriting (out : TcpOutput) (en : Bool) : TcpOutput := { out with wantsWrite := en }

def TcpOutput.writeCompleteCb (out : TcpOutput) : TcpOutput :=
  { out with completions := out.completions ++ [out.ioVecList] }

def TcpOutput.onClose (out : TcpOutput) : TcpOutput := { out with closed := true }

def TcpOutput.sendInLoop (out : TcpOutput) (list : List IoVec) : TcpOutput :=
  if out.closed then out
  else
    let out := { out with ioVecList := out.ioVecList ++ list }
    if out.ioVecList ≠ [] then out.enableWriting true else out

def TcpOutput.take (mem : Memory) (out : TcpOutput) (n : Nat) : TcpOutput :=
  { out with
    accepted := out.accepted ++ (described mem out.ioVecList).take n
    ioVecList := eraseVecs n out.ioVecList }

-- One round of `while (true)`.
def TcpOutput.writev (mem : Memory) (out : TcpOutput) (result : WriteResult) : Call TcpOutput :=
  let out := { out with gathered := out.gathered ++ [out.ioVecList.length] }
  match result with
  | .accepted n =>
      let out := out.take mem n
      if out.ioVecList = [] then .returned (out.enableWriting false).writeCompleteCb else .going out
  | .transient => .returned out
  | .hard => .returned out.onClose

-- What write_complete_cb_ sends comes behind the call: it is the last thing
-- onWrite does.
def TcpOutput.onWrite (mem : Memory) (out : TcpOutput) (results : List WriteResult) : Call TcpOutput :=
  if out.closed then .returned out
  else if out.ioVecList ≠ [] then rounds (TcpOutput.writev mem) out results
  else .returned (out.enableWriting false).writeCompleteCb

inductive OutputEvent where
  | send (list : List IoVec)
  | onWrite (results : List WriteResult)
deriving DecidableEq, Repr

def OutputEvent.sent : OutputEvent → List IoVec
  | .send list => list
  | .onWrite _ => []

def outputStep (mem : Memory) (out : TcpOutput) : OutputEvent → Call TcpOutput
  | .send list => .returned (out.sendInLoop list)
  | .onWrite results => out.onWrite mem results

section Erase

variable (mem : Memory)

theorem bytes_length (vec : IoVec) : (vec.bytes mem).length = vec.size := by
  rw [IoVec.bytes, List.length_map, List.length_range]

theorem advance_size (vec : IoVec) (ret : Nat) (inside : ret ≤ vec.size) : (vec.advance ret).size = vec.size - ret := by
  have bound : vec.size < UInt64.size := vec.len.toNat_lt
  have small : (UInt64.ofNat ret).toNat = ret := UInt64.toNat_ofNat_of_lt' (by omega)
  have below : UInt64.ofNat ret ≤ vec.len := by
    rw [UInt64.le_iff_toNat_le, small]
    exact inside
  rw [IoVec.size, IoVec.advance]
  dsimp only
  rw [UInt64.toNat_sub_of_le _ _ below, small]
  rfl

theorem advance_bytes (vec : IoVec) (ret : Nat) (inside : ret ≤ vec.size) :
    (vec.advance ret).bytes mem = (vec.bytes mem).drop ret := by
  have later : (List.range vec.size).drop ret = (List.range (vec.size - ret)).map (ret + ·) := by
    rw [List.range_eq_range', List.drop_range', ← List.range'_eq_map_range, Nat.mul_one, Nat.zero_add]
  rw [IoVec.bytes, advance_size vec ret inside, IoVec.bytes, ← List.map_drop, later, List.map_map]
  refine List.map_congr_left fun i _ => congrArg mem ?_
  rw [IoVec.advance, UInt64.add_assoc, ← UInt64.ofNat_add]

theorem erase_described (ret : Nat) (vecs : List IoVec) :
    described mem (eraseVecs ret vecs) = (described mem vecs).drop ret := by
  induction vecs generalizing ret with
  | nil => rw [eraseVecs, described, List.flatMap_nil, List.drop_nil]
  | cons vec vecs ih =>
      have whole : described mem (vec :: vecs) = vec.bytes mem ++ described mem vecs := List.flatMap_cons
      rw [eraseVecs, whole]
      by_cases done : ret = 0
      · rw [if_pos done, done, List.drop_zero]
        exact whole
      · rw [if_neg done]
        by_cases part : vec.size > ret
        · have rest : described mem (vec.advance ret :: vecs) = (vec.advance ret).bytes mem ++ described mem vecs :=
            List.flatMap_cons
          rw [if_pos part, rest, advance_bytes mem vec ret (Nat.le_of_lt part)]
          rw [List.drop_append_of_le_length (by rw [bytes_length]; exact Nat.le_of_lt part)]
        · have behind : (vec.bytes mem).drop ret = [] :=
            List.drop_eq_nil_of_le (by rw [bytes_length]; exact Nat.not_lt.mp part)
          rw [if_neg part, ih (ret - vec.size), List.drop_append, bytes_length, behind, List.nil_append]

theorem erase_sizes (ret : Nat) (vecs : List IoVec) :
    (eraseVecs ret vecs).map IoVec.size = eraseWritten ret (vecs.map IoVec.size) := by
  induction vecs generalizing ret with
  | nil => rfl
  | cons vec vecs ih =>
      rw [eraseVecs, List.map_cons, eraseWritten]
      by_cases done : ret = 0
      · rw [if_pos done, if_pos done]
        rfl
      · rw [if_neg done, if_neg done]
        by_cases part : vec.size > ret
        · rw [if_pos part, if_pos part, List.map_cons, advance_size vec ret (Nat.le_of_lt part)]
        · rw [if_neg part, if_neg part]
          exact ih (ret - vec.size)

theorem writev_counts (conn : TcpConnection) (out : TcpOutput) (same : conn.ioVecList = out.sizes) :
    conn.writev.ioVecList = (out.take mem (min conn.room conn.ioVecList.sum)).sizes := by
  rw [TcpConnection.writev]
  dsimp only
  rw [same]
  exact (erase_sizes _ out.ioVecList).symm

end Erase

def OutputEvent.Fails : OutputEvent → Prop
  | .send _ => False
  | .onWrite results => .hard ∈ results

def sentVecs (events : List OutputEvent) : List IoVec := events.flatMap OutputEvent.sent

section Fidelity

variable (mem : Memory)

def TcpOutput.stream (out : TcpOutput) : List UInt8 := out.accepted ++ described mem out.ioVecList

theorem take_stream (out : TcpOutput) (n : Nat) : (out.take mem n).stream mem = out.stream mem := by
  rw [TcpOutput.stream, TcpOutput.take]
  dsimp only
  rw [erase_described, List.append_assoc, List.take_append_drop]
  rfl

structure SameStream (before after : TcpOutput) : Prop where
  stream : after.stream mem = before.stream mem
  completions : (∀ list ∈ before.completions, list = []) → ∀ list ∈ after.completions, list = []

theorem same_stream_trans {first second third : TcpOutput} (left : SameStream mem first second)
    (right : SameStream mem second third) : SameStream mem first third :=
  ⟨right.stream.trans left.stream, fun empty => right.completions (left.completions empty)⟩

theorem complete_stream (out : TcpOutput) (written : out.ioVecList = []) :
    SameStream mem out (out.enableWriting false).writeCompleteCb := by
  refine ⟨rfl, fun empty list listed => ?_⟩
  rcases List.mem_append.mp listed with earlier | now
  · exact empty list earlier
  · exact (List.mem_singleton.mp now).trans written

theorem writev_stream (out : TcpOutput) (result : WriteResult) :
    SameStream mem out (out.writev mem result).state := by
  cases result with
  | accepted n =>
      rw [TcpOutput.writev]
      have taken : SameStream mem out
          (TcpOutput.take mem { out with gathered := out.gathered ++ [out.ioVecList.length] } n) :=
        ⟨take_stream mem _ n, id⟩
      split_ifs with written
      · exact same_stream_trans mem taken (complete_stream mem _ written)
      · exact taken
  | transient => exact ⟨rfl, id⟩
  | hard => exact ⟨rfl, id⟩

theorem on_write_stream (out : TcpOutput) (results : List WriteResult) :
    SameStream mem out (out.onWrite mem results).state := by
  rw [TcpOutput.onWrite]
  split_ifs with closed waiting
  · exact ⟨rfl, id⟩
  · exact rounds_invariant (SameStream mem out) results
      (fun state result _ same => same_stream_trans mem same (writev_stream mem state result)) out ⟨rfl, id⟩
  · exact complete_stream mem out (not_not.mp waiting)

theorem writev_open (out : TcpOutput) (result : WriteResult) (isOpen : out.closed = false) (soft : result ≠ .hard) :
    (out.writev mem result).state.closed = false := by
  cases result with
  | accepted n =>
      rw [TcpOutput.writev]
      split_ifs
      · exact isOpen
      · exact isOpen
  | transient => exact isOpen
  | hard => exact absurd rfl soft

theorem on_write_open (out : TcpOutput) (results : List WriteResult) (isOpen : out.closed = false)
    (soft : .hard ∉ results) : (out.onWrite mem results).state.closed = false := by
  rw [TcpOutput.onWrite, if_neg (ne_true_of_eq_false isOpen)]
  split_ifs
  · exact rounds_invariant (fun state => state.closed = false) results
      (fun state result listed stays => writev_open mem state result stays fun same => soft (same ▸ listed)) out isOpen
  · exact isOpen

theorem send_open (out : TcpOutput) (list : List IoVec) (isOpen : out.closed = false) :
    (out.sendInLoop list).ioVecList = out.ioVecList ++ list ∧ (out.sendInLoop list).closed = false ∧
      (out.sendInLoop list).accepted = out.accepted ∧ (out.sendInLoop list).completions = out.completions := by
  rw [TcpOutput.sendInLoop, if_neg (ne_true_of_eq_false isOpen)]
  dsimp only
  split_ifs
  · exact ⟨rfl, isOpen, rfl, rfl⟩
  · exact ⟨rfl, isOpen, rfl, rfl⟩

structure Faithful (events : List OutputEvent) (out : TcpOutput) : Prop where
  stream : ∃ past rest, events = past ++ rest ∧ out.stream mem = described mem (sentVecs past) ∧
    (out.closed = false → rest = [])
  isOpen : (∀ event ∈ events, ¬ event.Fails) → out.closed = false
  completions : ∀ list ∈ out.completions, list = []

theorem faithful_step (past : List OutputEvent) (event : OutputEvent) (out : TcpOutput)
    (faithful : Faithful mem past out) : Faithful mem (past ++ [event]) (outputStep mem out event).state := by
  obtain ⟨⟨sent, late, rfl, stream, early⟩, stays, completions⟩ := faithful
  have before (fine : ∀ other ∈ sent ++ late ++ [event], ¬ other.Fails) : out.closed = false :=
    stays fun other listed => fine other (List.mem_append_left _ listed)
  by_cases closed : out.closed = true
  · have ignored : outputStep mem out event = .returned out := by
      cases event with
      | send list => exact congrArg Call.returned (if_pos closed)
      | onWrite results => exact if_pos closed
    rw [ignored]
    exact ⟨⟨sent, late ++ [event], List.append_assoc _ _ _, stream,
      fun isOpen => absurd (closed.symm.trans isOpen) (by decide)⟩, before, completions⟩
  · have isOpen : out.closed = false := Bool.eq_false_iff.mpr closed
    cases early isOpen
    rw [List.append_nil] at before ⊢
    have more : sentVecs (sent ++ [event]) = sentVecs sent ++ event.sent := by
      rw [sentVecs, List.flatMap_append, List.flatMap_singleton]
      rfl
    cases event with
    | send list =>
        obtain ⟨queued, stillOpen, accepted, kept⟩ := send_open out list isOpen
        refine ⟨⟨sent ++ [.send list], [], (List.append_nil _).symm, ?_, fun _ => rfl⟩, fun _ => stillOpen, ?_⟩
        · rw [more, outputStep, Call.state, TcpOutput.stream, queued, accepted, described, List.flatMap_append,
            ← List.append_assoc, described, List.flatMap_append]
          exact congrArg (· ++ described mem list) stream
        · rw [outputStep]
          exact kept ▸ completions
    | onWrite results =>
        obtain ⟨same, empty⟩ := on_write_stream mem out results
        refine ⟨⟨sent ++ [.onWrite results], [], (List.append_nil _).symm, ?_, fun _ => rfl⟩, fun fine => ?_,
          empty completions⟩
        · rw [more, OutputEvent.sent, List.append_nil]
          exact same.trans stream
        · exact on_write_open mem out results isOpen
            (fine (.onWrite results) (List.mem_append_right _ (List.mem_singleton_self _)))

end Fidelity

section Gathered

variable (mem : Memory)

theorem erase_vecs_length (ret : Nat) (vecs : List IoVec) : (eraseVecs ret vecs).length ≤ vecs.length := by
  induction vecs generalizing ret with
  | nil => exact Nat.le_refl _
  | cons vec vecs ih =>
      rw [eraseVecs]
      split_ifs
      · exact Nat.le_refl _
      · exact Nat.le_refl _
      · exact Nat.le_trans (ih (ret - vec.size)) (Nat.le_succ _)

structure Gathers (limit : Nat) (out : TcpOutput) : Prop where
  queued : out.ioVecList.length ≤ limit
  gathered : ∀ count ∈ out.gathered, count ≤ limit

theorem writev_gathers (limit : Nat) (out : TcpOutput) (result : WriteResult) (gathers : Gathers limit out) :
    Gathers limit (out.writev mem result).state := by
  obtain ⟨queued, gathered⟩ := gathers
  have now : ∀ count ∈ out.gathered ++ [out.ioVecList.length], count ≤ limit :=
    List.forall_mem_append.mpr ⟨gathered, List.forall_mem_singleton.mpr queued⟩
  cases result with
  | accepted n =>
      have left := Nat.le_trans (erase_vecs_length n out.ioVecList) queued
      rw [TcpOutput.writev]
      split_ifs
      · exact ⟨left, now⟩
      · exact ⟨left, now⟩
  | transient => exact ⟨queued, now⟩
  | hard => exact ⟨queued, now⟩

theorem gathered_iff (out : TcpOutput) (isOpen : out.closed = false) (start : out.gathered = []) (limit : Nat) :
    (∀ results, ∀ count ∈ (out.onWrite mem results).state.gathered, count ≤ limit) ↔ out.ioVecList.length ≤ limit := by
  have empty : ∀ count ∈ out.gathered, count ≤ limit := by
    rw [start]
    exact List.forall_mem_nil _
  by_cases waiting : out.ioVecList ≠ []
  · constructor
    · intro every
      refine every [.transient] out.ioVecList.length ?_
      rw [TcpOutput.onWrite, if_neg (ne_true_of_eq_false isOpen), if_pos waiting]
      exact List.mem_append_right _ (List.mem_singleton_self _)
    · intro bounded results
      rw [TcpOutput.onWrite, if_neg (ne_true_of_eq_false isOpen), if_pos waiting]
      exact (rounds_invariant (Gathers limit) results (fun state result _ => writev_gathers mem limit state result) out
        ⟨bounded, empty⟩).gathered
  · constructor
    · intro _
      rw [not_not.mp waiting]
      exact Nat.zero_le limit
    · intro _ results
      rw [TcpOutput.onWrite, if_neg (ne_true_of_eq_false isOpen), if_neg waiting]
      exact empty

end Gathered

def shortWrites : List OutputEvent :=
  [.send [⟨16, 3⟩, ⟨32, 4⟩], .onWrite [.accepted 4, .transient], .send [⟨64, 1⟩], .onWrite [.accepted 3, .accepted 1]]

def byteOfAddress : Memory := fun address => UInt8.ofNat address.toNat

def shortWritten : TcpOutput := (run (follow (outputStep byteOfAddress)) (.returned {}) shortWrites).state

end Lssvc.Network
