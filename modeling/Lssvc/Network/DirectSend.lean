import Lssvc.Network.GatherWrite

set_option autoImplicit false

namespace Lssvc.Network

def WriteResult.sendLen : WriteResult → UInt64
  | .accepted n => UInt64.ofNat n
  | .transient => -1
  | .hard => -1

def TcpOutput.written (mem : Memory) (out : TcpOutput) (vec : IoVec) : WriteResult → TcpOutput
  | .accepted n => { out with accepted := out.accepted ++ (vec.bytes mem).take n }
  | .transient => out
  | .hard => out

def TcpOutput.queue (out : TcpOutput) (vec : IoVec) : TcpOutput :=
  { out with ioVecList := out.ioVecList ++ [vec] }.enableWriting true

-- sendInLoop of a buffer, where `result` is what write returns if it is called.
def TcpOutput.sendBuf (mem : Memory) (out : TcpOutput) (buf size : UInt64) (result : WriteResult) : TcpOutput :=
  if out.closed then out
  else if out.ioVecList = [] then
    let out := out.written mem ⟨buf, size⟩ result
    let sendLen := result.sendLen
    if sendLen < 0 ∧ result = .hard then out.onClose
    else
      let sendLen := if sendLen < 0 then 0 else sendLen
      let size := size - sendLen
      if size = 0 then out.writeCompleteCb
      else if size > 0 then out.queue ⟨buf + sendLen, size⟩
      else out
  else if size > 0 then out.queue ⟨buf, size⟩
  else out

def unwritten (mem : Memory) (vec : IoVec) : WriteResult → List UInt8
  | .accepted n => (vec.bytes mem).drop n
  | .transient => vec.bytes mem
  | .hard => []

def unsent (mem : Memory) (out : TcpOutput) (vec : IoVec) (result : WriteResult) : List UInt8 :=
  if out.ioVecList = [] then unwritten mem vec result else vec.bytes mem

structure SentFaithfully (mem : Memory) (before : TcpOutput) (vec : IoVec) (result : WriteResult) (after : TcpOutput) :
    Prop where
  queued : described mem after.ioVecList = described mem before.ioVecList ++ unsent mem before vec result
  completed : after.completions ≠ before.completions → before.ioVecList = [] ∧ result = .accepted vec.size
  closes : before.ioVecList = [] → result = .hard → after.closed = true

variable (mem : Memory)

theorem queue_described (out : TcpOutput) (vec : IoVec) :
    described mem (out.queue vec).ioVecList = described mem out.ioVecList ++ vec.bytes mem := by
  rw [described, TcpOutput.queue, TcpOutput.enableWriting]
  dsimp only
  rw [List.flatMap_append, List.flatMap_singleton]
  rfl

theorem send_buf_empty (out : TcpOutput) (isOpen : out.closed = false) (empty : out.ioVecList = []) (buf size : UInt64)
    (result : WriteResult) :
    out.sendBuf mem buf size result =
      if size - result.sendLen = 0 then (out.written mem ⟨buf, size⟩ result).writeCompleteCb
      else (out.written mem ⟨buf, size⟩ result).queue ⟨buf + result.sendLen, size - result.sendLen⟩ := by
  have never : ¬ result.sendLen < 0 := UInt64.not_lt_zero
  rw [TcpOutput.sendBuf, if_neg (ne_true_of_eq_false isOpen), if_pos empty]
  dsimp only
  rw [if_neg fun both => never both.1, if_neg never]
  by_cases done : size - result.sendLen = 0
  · rw [if_pos done, if_pos done]
  · rw [if_neg done, if_neg done, if_pos (UInt64.pos_iff_ne_zero.mpr done)]

theorem send_buf_queued (out : TcpOutput) (isOpen : out.closed = false) (waiting : out.ioVecList ≠ []) (buf size : UInt64)
    (some' : 0 < size) (result : WriteResult) : out.sendBuf mem buf size result = out.queue ⟨buf, size⟩ := by
  rw [TcpOutput.sendBuf, if_neg (ne_true_of_eq_false isOpen), if_neg waiting, if_pos some']

theorem written_kept (out : TcpOutput) (vec : IoVec) (result : WriteResult) :
    (out.written mem vec result).ioVecList = out.ioVecList ∧ (out.written mem vec result).closed = out.closed ∧
      (out.written mem vec result).completions = out.completions := by
  cases result with
  | accepted n => exact ⟨rfl, rfl, rfl⟩
  | transient => exact ⟨rfl, rfl, rfl⟩
  | hard => exact ⟨rfl, rfl, rfl⟩

theorem queue_sizes (out : TcpOutput) (vec : IoVec) : (out.queue vec).sizes = out.sizes ++ [vec.size] := List.map_append

theorem rest_size (size : UInt64) (n : Nat) (inside : n ≤ size.toNat) :
    (size - UInt64.ofNat n).toNat = size.toNat - n := advance_size ⟨0, size⟩ n inside

theorem failed_size (size : UInt64) : (size - (-1)).toNat = (size.toNat + 1) % UInt64.size := by
  have minus : (-1 : UInt64).toNat = 18446744073709551615 := rfl
  rw [UInt64.toNat_sub, minus, UInt64.size]
  omega

theorem send_buf_counts (conn : TcpConnection) (out : TcpOutput) (isOpen : out.closed = false)
    (same : conn.ioVecList = out.sizes) (buf size : UInt64) (some' : 0 < size) (small : size.toNat + 1 < UInt64.size) :
    (conn.sendBytes size.toNat).ioVecList =
      (out.sendBuf mem buf size (if conn.room = 0 then .transient else .accepted (min size.toNat conn.room))).sizes := by
  have positive : 0 < size.toNat := UInt64.lt_iff_toNat_lt.mp some'
  rw [TcpConnection.sendBytes]
  by_cases empty : out.ioVecList = []
  · have none' : conn.ioVecList = [] := by rw [same, TcpOutput.sizes, empty, List.map_nil]
    have sizes (result : WriteResult) : (out.written mem ⟨buf, size⟩ result).sizes = [] := by
      rw [TcpOutput.sizes, (written_kept mem out ⟨buf, size⟩ result).1, empty, List.map_nil]
    rw [if_pos none', send_buf_empty mem out isOpen empty]
    by_cases full : conn.room = 0
    · rw [if_pos full, if_pos ⟨full, Nat.ne_of_gt positive⟩]
      have more : (size - (-1)).toNat = size.toNat + 1 := (failed_size size).trans (Nat.mod_eq_of_lt small)
      have left : ¬ size - WriteResult.transient.sendLen = 0 := by
        rw [← UInt64.toNat_inj, UInt64.toNat_zero]
        exact fun nothing => absurd (more.symm.trans nothing) (Nat.succ_ne_zero _)
      rw [if_neg left, queue_sizes, sizes]
      change conn.ioVecList ++ [size.toNat + 1] = [] ++ [(size - (-1)).toNat]
      rw [none', more]
    · rw [if_neg full, if_neg fun both => full both.1]
      have rest := rest_size size (min size.toNat conn.room) (Nat.min_le_left _ _)
      by_cases fits : size.toNat ≤ conn.room
      · have nothing : size - (WriteResult.accepted (min size.toNat conn.room)).sendLen = 0 := by
          rw [← UInt64.toNat_inj, UInt64.toNat_zero]
          refine rest.trans ?_
          omega
        rw [if_pos fits, if_pos nothing]
        exact none'.trans (sizes _).symm
      · have left : ¬ size - (WriteResult.accepted (min size.toNat conn.room)).sendLen = 0 := by
          rw [← UInt64.toNat_inj, UInt64.toNat_zero]
          intro nothing
          have := rest.symm.trans nothing
          omega
        rw [if_neg fits, if_neg left, queue_sizes, sizes]
        change conn.ioVecList ++ [size.toNat - conn.room] =
          [] ++ [(size - UInt64.ofNat (min size.toNat conn.room)).toNat]
        rw [none', rest, Nat.min_eq_right (Nat.le_of_not_le fits)]
  · have waiting : conn.ioVecList ≠ [] := by
      rw [same]
      exact fun nothing => empty (List.map_eq_nil_iff.mp nothing)
    rw [if_neg waiting, if_pos positive, send_buf_queued mem out isOpen empty buf size some', queue_sizes, ← same]
    rfl

theorem behind_queue (out : TcpOutput) (isOpen : out.closed = false) (waiting : out.ioVecList ≠ []) (buf size : UInt64)
    (some' : 0 < size) (result : WriteResult) :
    SentFaithfully mem out ⟨buf, size⟩ result (out.sendBuf mem buf size result) := by
  rw [send_buf_queued mem out isOpen waiting buf size some' result]
  refine ⟨?_, fun changed => absurd rfl changed, fun empty => absurd empty waiting⟩
  rw [queue_described, unsent, if_neg waiting]

theorem counted (out : TcpOutput) (isOpen : out.closed = false) (empty : out.ioVecList = []) (buf size : UInt64) (n : Nat)
    (kernel : n ≤ size.toNat) :
    SentFaithfully mem out ⟨buf, size⟩ (.accepted n) (out.sendBuf mem buf size (.accepted n)) := by
  have rest := advance_bytes mem ⟨buf, size⟩ n kernel
  have left := rest_size size n kernel
  rw [send_buf_empty mem out isOpen empty]
  by_cases done : size - (WriteResult.accepted n).sendLen = 0
  · have all : n = size.toNat := by
      have nothing : 0 = size.toNat - n := (congrArg UInt64.toNat done).symm.trans left
      omega
    rw [if_pos done]
    refine ⟨?_, fun _ => ⟨empty, congrArg WriteResult.accepted all⟩, fun _ impossible => (by cases impossible)⟩
    have nothing : (IoVec.bytes mem ⟨buf, size⟩).drop n = [] :=
      List.drop_eq_nil_of_le (by rw [bytes_length]; exact Nat.le_of_eq all.symm)
    rw [unsent, if_pos empty, unwritten, nothing, List.append_nil]
    rfl
  · rw [if_neg done]
    refine ⟨?_, fun changed => absurd rfl changed, fun _ impossible => (by cases impossible)⟩
    rw [queue_described, unsent, if_pos empty, unwritten, ← rest]
    rfl

theorem uncounted (out : TcpOutput) (isOpen : out.closed = false) (empty : out.ioVecList = []) (buf size : UInt64)
    (result : WriteResult) (failed : result.sendLen = -1) (notAll : ∀ n, result ≠ .accepted n) :
    ¬ SentFaithfully mem out ⟨buf, size⟩ result (out.sendBuf mem buf size result) := by
  rintro ⟨queued, completed, closes⟩
  obtain ⟨list, closed, completions⟩ := written_kept mem out ⟨buf, size⟩ result
  rw [send_buf_empty mem out isOpen empty] at queued completed closes
  by_cases done : size - result.sendLen = 0
  · rw [if_pos done] at completed
    refine notAll _ (completed ?_).2
    rw [TcpOutput.writeCompleteCb, completions]
    exact fun same => absurd (congrArg List.length same) (by rw [List.length_append]; exact Nat.succ_ne_self _)
  · rw [if_neg done] at queued closes
    cases result with
    | accepted n => exact notAll n rfl
    | hard =>
        have stays : out.closed = true := closes empty rfl
        exact absurd (isOpen.symm.trans stays) Bool.false_ne_true
    | transient =>
        rw [queue_described, unsent, if_pos empty, unwritten] at queued
        have lengths := congrArg List.length (List.append_cancel_left queued)
        rw [bytes_length, bytes_length] at lengths
        have wraps : (size.toNat + 1) % UInt64.size = size.toNat := (failed_size size).symm.trans lengths
        have bound : size.toNat < UInt64.size := size.toNat_lt
        rw [UInt64.size] at wraps bound
        omega

theorem direct_send_iff (out : TcpOutput) (isOpen : out.closed = false) (buf size : UInt64) (some' : 0 < size)
    (result : WriteResult) (kernel : ∀ n, result = .accepted n → n ≤ size.toNat) :
    SentFaithfully mem out ⟨buf, size⟩ result (out.sendBuf mem buf size result) ↔
      out.ioVecList ≠ [] ∨ ∃ n, result = .accepted n := by
  by_cases empty : out.ioVecList = []
  · cases result with
    | accepted n => exact ⟨fun _ => .inr ⟨n, rfl⟩, fun _ => counted mem out isOpen empty buf size n (kernel n rfl)⟩
    | transient =>
        refine ⟨fun sent => absurd sent (uncounted mem out isOpen empty buf size _ rfl fun n other => by cases other), ?_⟩
        rintro (waiting | ⟨n, other⟩)
        · exact absurd empty waiting
        · cases other
    | hard =>
        refine ⟨fun sent => absurd sent (uncounted mem out isOpen empty buf size _ rfl fun n other => by cases other), ?_⟩
        rintro (waiting | ⟨n, other⟩)
        · exact absurd empty waiting
        · cases other
  · exact ⟨fun _ => .inl empty, fun _ => behind_queue mem out isOpen empty buf size some' result⟩

theorem direct_send_part :
    SentFaithfully byteOfAddress {} ⟨64, 1537⟩ (.accepted 1000) (({} : TcpOutput).sendBuf byteOfAddress 64 1537 (.accepted 1000)) ↔
      ({} : TcpOutput).ioVecList ≠ [] ∨ ∃ n, WriteResult.accepted 1000 = .accepted n := by
  refine direct_send_iff byteOfAddress {} rfl 64 1537 (by decide) (.accepted 1000) fun n same => ?_
  cases same
  decide

-- The byte before a handshake buffer is queued with it where the socket is full.
theorem full_socket_queues_more :
    ¬ SentFaithfully byteOfAddress {} ⟨64, 1537⟩ .transient (({} : TcpOutput).sendBuf byteOfAddress 64 1537 .transient) :=
  uncounted byteOfAddress {} rfl rfl 64 1537 .transient rfl fun n other => (by cases other)

end Lssvc.Network
