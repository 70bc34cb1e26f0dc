import Lssvc.Foundation.ByteOrder
import Lssvc.Network.ByteQueue

set_option autoImplicit false

namespace Lssvc.Network

open Lssvc.Foundation

-- The host is little-endian.
def htons (s : UInt16) : UInt16 := .ofNat (swapped 2 s.toNat)

def ntohs (s : UInt16) : UInt16 := .ofNat (swapped 2 s.toNat)

def htonl (i : UInt32) : UInt32 := .ofNat (swapped 4 i.toNat)

def ntohl (i : UInt32) : UInt32 := .ofNat (swapped 4 i.toNat)

def hton64 (n : UInt64) : UInt64 := .ofNat (swapped 8 n.toNat)

def ntoh64 (n : UInt64) : UInt64 := hton64 n

-- What a pointer to so many bytes finds at peek().
def MsgBuffer.load (b : MsgBuffer) (width : Nat) : Nat := hostValue ((b.buffer.drop b.head).take width)

def MsgBuffer.peekInt16 (b : MsgBuffer) : Except BufferFault UInt16 :=
  if b.readableBytes ≥ 2 then .ok (ntohs (.ofNat (b.load 2))) else .error .assertion

def MsgBuffer.peekInt32 (b : MsgBuffer) : Except BufferFault UInt32 :=
  if b.readableBytes ≥ 4 then .ok (ntohl (.ofNat (b.load 4))) else .error .assertion

-- The pointer is one to uint32_t.
def MsgBuffer.peekInt64 (b : MsgBuffer) : Except BufferFault UInt64 :=
  if b.readableBytes ≥ 8 then .ok (ntoh64 (.ofNat (b.load 4))) else .error .assertion

-- Nothing is retrieved.
def MsgBuffer.read (b : MsgBuffer) (len : Nat) : List UInt8 × MsgBuffer :=
  let len := if len > b.readableBytes then b.readableBytes else len
  ((b.buffer.drop b.head).take len, b)

def MsgBuffer.readInt16 (b : MsgBuffer) : Except BufferFault (UInt16 × MsgBuffer) := do
  let ret ← b.peekInt16
  .ok (ret, b.retrieve 2)

def MsgBuffer.readInt32 (b : MsgBuffer) : Except BufferFault (UInt32 × MsgBuffer) := do
  let ret ← b.peekInt32
  .ok (ret, b.retrieve 4)

def MsgBuffer.readInt64 (b : MsgBuffer) : Except BufferFault (UInt64 × MsgBuffer) := do
  let ret ← b.peekInt64
  .ok (ret, b.retrieve 8)

inductive IntValue where
  | int16 (s : UInt16)
  | int32 (i : UInt32)
  | int64 (l : UInt64)
deriving DecidableEq, Repr

inductive IntWidth where
  | int16
  | int32
  | int64
deriving DecidableEq, Repr

def IntValue.width : IntValue → IntWidth
  | .int16 _ => .int16
  | .int32 _ => .int32
  | .int64 _ => .int64

def IntWidth.size : IntWidth → Nat
  | .int16 => 2
  | .int32 => 4
  | .int64 => 8

def MsgBuffer.readInt (b : MsgBuffer) : IntWidth → Except BufferFault (IntValue × MsgBuffer)
  | .int16 => b.readInt16.map fun ret => (.int16 ret.1, ret.2)
  | .int32 => b.readInt32.map fun ret => (.int32 ret.1, ret.2)
  | .int64 => b.readInt64.map fun ret => (.int64 ret.1, ret.2)

section

variable (limit : Nat)

def MsgBuffer.appendInt16 (b : MsgBuffer) (s : UInt16) : Except BufferFault MsgBuffer :=
  b.append limit (hostBytes 2 (htons s).toNat)

def MsgBuffer.appendInt32 (b : MsgBuffer) (i : UInt32) : Except BufferFault MsgBuffer :=
  b.append limit (hostBytes 4 (htonl i).toNat)

def MsgBuffer.appendInt64 (b : MsgBuffer) (l : UInt64) : Except BufferFault MsgBuffer :=
  b.append limit (hostBytes 8 (hton64 l).toNat)

def MsgBuffer.appendInt (b : MsgBuffer) : IntValue → Except BufferFault MsgBuffer
  | .int16 s => b.appendInt16 limit s
  | .int32 i => b.appendInt32 limit i
  | .int64 l => b.appendInt64 limit l

def MsgBuffer.appendAll : MsgBuffer → List IntValue → Except BufferFault MsgBuffer
  | b, [] => .ok b
  | b, value :: values => do
      let b ← b.appendInt limit value
      b.appendAll values

end

def ReadsBack : MsgBuffer → List IntValue → Prop
  | _, [] => True
  | b, value :: values =>
      ∃ after, b.readInt value.width = .ok (value, after) ∧
        after.readable = b.readable.drop value.width.size ∧ ReadsBack after values

def IntValue.bytes : IntValue → List UInt8
  | .int16 s => (hostBytes 2 s.toNat).reverse
  | .int32 i => (hostBytes 4 i.toNat).reverse
  | .int64 l => (hostBytes 8 l.toNat).reverse

-- The lower half of a 64-bit value does not come back.
def IntValue.kept : IntValue → IntValue
  | .int64 l => .int64 (.ofNat (l.toNat / 4294967296 * 4294967296))
  | value => value

theorem width_size (width : IntWidth) : 2 ≤ width.size ∧ width.size ≤ 8 := by
  cases width <;> decide

theorem int_bytes_length (value : IntValue) : value.bytes.length = value.width.size := by
  cases value <;> rw [IntValue.bytes, List.length_reverse, host_bytes_length] <;> rfl

theorem kept_iff (value : IntValue) : value.kept = value ↔ ∀ l, value = .int64 l → 4294967296 ∣ l.toNat := by
  cases value with
  | int16 s => exact ⟨fun _ _ impossible => (IntValue.noConfusion impossible : False).elim, fun _ => rfl⟩
  | int32 i => exact ⟨fun _ _ impossible => (IntValue.noConfusion impossible : False).elim, fun _ => rfl⟩
  | int64 l =>
      have range := l.toNat_lt
      have exact : (UInt64.ofNat (l.toNat / 4294967296 * 4294967296)).toNat = l.toNat / 4294967296 * 4294967296 := by
        rw [UInt64.toNat_ofNat']
        omega
      rw [IntValue.kept, IntValue.int64.injEq, ← UInt64.toNat_inj, exact]
      constructor
      · rintro same _ ⟨⟩
        omega
      · intro divides
        have there := divides l rfl
        omega

theorem append_int (limit : Nat) (b : MsgBuffer) (value : IntValue) :
    b.appendInt limit value = b.append limit value.bytes := by
  cases value with
  | int16 s =>
      have small : swapped 2 s.toNat < 65536 := swapped_lt 2 _
      rw [MsgBuffer.appendInt, MsgBuffer.appendInt16, htons, UInt16.toNat_ofNat_of_lt' small, host_bytes_swapped]
      rfl
  | int32 i =>
      have small : swapped 4 i.toNat < 4294967296 := swapped_lt 4 _
      rw [MsgBuffer.appendInt, MsgBuffer.appendInt32, htonl, UInt32.toNat_ofNat_of_lt' small, host_bytes_swapped]
      rfl
  | int64 l =>
      have small : swapped 8 l.toNat < 18446744073709551616 := swapped_lt 8 _
      rw [MsgBuffer.appendInt, MsgBuffer.appendInt64, hton64, UInt64.toNat_ofNat_of_lt' small, host_bytes_swapped]
      rfl

theorem load_readable (b : MsgBuffer) (width : Nat) (inside : width ≤ b.readableBytes) :
    b.load width = hostValue (b.readable.take width) := by
  rw [MsgBuffer.load, MsgBuffer.readable, List.take_take, Nat.min_eq_left inside]

theorem upper_bytes (n : Nat) : (hostBytes 8 n).reverse.take 4 = (hostBytes 4 (n / 4294967296)).reverse := by
  have halves : hostBytes 8 n = hostBytes 4 n ++ hostBytes 4 (n / 4294967296) := host_bytes_add 4 4 n
  rw [halves, List.reverse_append]
  exact List.take_left' (by rw [List.length_reverse, host_bytes_length])

section

variable {limit : Nat} (addressable : limit < 4611686018427387904)
include addressable

theorem read_int {b : MsgBuffer} (value : IntValue) (rest : List UInt8) (stored : Stored limit b (value.bytes ++ rest)) :
    b.readInt value.width = .ok (value.kept, b.retrieve value.width.size) := by
  obtain ⟨readable, _, length⟩ := stored_bytes addressable stored
  have bytes := stored.queue.bytes
  rw [List.length_append, int_bytes_length] at length
  cases value with
  | int16 s =>
      have size : 2 ≤ b.readableBytes := by rw [readable, ← length]; exact Nat.le_add_right _ _
      have there : b.load 2 = swapped 2 s.toNat := by
        rw [load_readable b 2 size, bytes, IntValue.bytes, List.take_left' (by rw [List.length_reverse, host_bytes_length])]
        rfl
      have small : swapped 2 s.toNat < 65536 := swapped_lt 2 _
      have whole : ntohs (.ofNat (swapped 2 s.toNat)) = s := by
        rw [ntohs, UInt16.toNat_ofNat_of_lt' small, swapped_swapped 2 s.toNat s.toNat_lt, UInt16.ofNat_toNat]
      rw [IntValue.width, MsgBuffer.readInt, MsgBuffer.readInt16, MsgBuffer.peekInt16, if_pos size, there, whole]
      rfl
  | int32 i =>
      have size : 4 ≤ b.readableBytes := by rw [readable, ← length]; exact Nat.le_add_right _ _
      have there : b.load 4 = swapped 4 i.toNat := by
        rw [load_readable b 4 size, bytes, IntValue.bytes, List.take_left' (by rw [List.length_reverse, host_bytes_length])]
        rfl
      have small : swapped 4 i.toNat < 4294967296 := swapped_lt 4 _
      have whole : ntohl (.ofNat (swapped 4 i.toNat)) = i := by
        rw [ntohl, UInt32.toNat_ofNat_of_lt' small, swapped_swapped 4 i.toNat i.toNat_lt, UInt32.ofNat_toNat]
      rw [IntValue.width, MsgBuffer.readInt, MsgBuffer.readInt32, MsgBuffer.peekInt32, if_pos size, there, whole]
      rfl
  | int64 l =>
      have range := l.toNat_lt
      have size : 8 ≤ b.readableBytes := by rw [readable, ← length]; exact Nat.le_add_right _ _
      have there : b.load 4 = swapped 4 (l.toNat / 4294967296) := by
        rw [load_readable b 4 (by omega), bytes, IntValue.bytes, List.take_append_of_le_length
          (by rw [List.length_reverse, host_bytes_length]; decide), upper_bytes]
        rfl
      have small : swapped 4 (l.toNat / 4294967296) < 4294967296 := swapped_lt 4 _
      have upper : l.toNat / 4294967296 < 256 ^ 4 := by omega
      have whole : ntoh64 (.ofNat (swapped 4 (l.toNat / 4294967296))) = .ofNat (l.toNat / 4294967296 * 4294967296) := by
        rw [ntoh64, hton64, UInt64.toNat_ofNat_of_lt' (Nat.lt_trans small (by decide)),
          show swapped 8 (swapped 4 (l.toNat / 4294967296)) = 256 ^ 4 * swapped 4 (swapped 4 (l.toNat / 4294967296)) from
            swapped_narrow 4 4 _ small,
          swapped_swapped 4 _ upper, Nat.mul_comm]
        rfl
      rw [IntValue.width, MsgBuffer.readInt, MsgBuffer.readInt64, MsgBuffer.peekInt64, if_pos size, there, whole]
      rfl

theorem retrieve_readable {b : MsgBuffer} {queue : List UInt8} (stored : Stored limit b queue) (len : Nat) :
    (b.retrieve len).readable = queue.drop len := by
  obtain ⟨readable, _, length⟩ := stored_bytes addressable stored
  by_cases all : len ≥ b.readableBytes
  · rw [MsgBuffer.retrieve, if_pos all, retrieve_all_readable, List.drop_of_length_le (by omega)]
  · exact (retrieve_stored addressable stored len (Nat.not_le.mp all)).1.queue.bytes

theorem reads_back_iff (values : List IntValue) (b : MsgBuffer) (stored : Stored limit b (values.flatMap IntValue.bytes)) :
    ReadsBack b values ↔ ∀ value ∈ values, value.kept = value := by
  induction values generalizing b with
  | nil => exact ⟨fun _ _ impossible => absurd impossible (List.not_mem_nil), fun _ => trivial⟩
  | cons value values ih =>
      rw [List.flatMap_cons] at stored
      obtain ⟨readable, _, length⟩ := stored_bytes addressable stored
      have size := int_bytes_length value
      have read := read_int addressable value _ stored
      have left := retrieve_readable addressable stored value.width.size
      rw [← size, List.drop_left, size] at left
      have later : ReadsBack (b.retrieve value.width.size) values ↔ ∀ value ∈ values, value.kept = value := by
        cases values with
        | nil => exact ⟨fun _ _ impossible => absurd impossible (List.not_mem_nil), fun _ => trivial⟩
        | cons next values =>
            have more := width_size next.width
            have rest := int_bytes_length next
            rw [List.length_append, List.flatMap_cons, List.length_append] at length
            obtain ⟨held, _, _⟩ := retrieve_stored addressable stored value.width.size (by omega)
            rw [← size, List.drop_left, size] at held
            exact ih _ held
      rw [ReadsBack, List.forall_mem_cons, ← later]
      constructor
      · rintro ⟨after, got, -, back⟩
        obtain ⟨same, rfl⟩ := Prod.mk.inj (Except.ok.inj (got.symm.trans read))
        exact ⟨same.symm, back⟩
      · rintro ⟨same, back⟩
        rw [same] at read
        exact ⟨_, read, left.trans (by rw [stored.queue.bytes, ← size, List.drop_left]), back⟩

theorem append_int_stored {b : MsgBuffer} {queue : List UInt8} (stored : Stored limit b queue) (value : IntValue) :
    b.appendInt limit value = .error .badAlloc ∨
      ∃ b', b.appendInt limit value = .ok b' ∧ Stored limit b' (queue ++ value.bytes) := by
  have short : value.bytes.length ≤ 8 := by
    rw [int_bytes_length]
    exact (width_size value.width).2
  rw [append_int]
  exact append_stored addressable stored value.bytes (by omega)

theorem append_all_stored (values : List IntValue) {b : MsgBuffer} {queue : List UInt8} (stored : Stored limit b queue) :
    b.appendAll limit values = .error .badAlloc ∨
      ∃ b', b.appendAll limit values = .ok b' ∧ Stored limit b' (queue ++ values.flatMap IntValue.bytes) := by
  induction values generalizing b queue with
  | nil =>
      rw [List.flatMap_nil, List.append_nil]
      exact .inr ⟨b, rfl, stored⟩
  | cons value values ih =>
      rw [MsgBuffer.appendAll, List.flatMap_cons, ← List.append_assoc]
      rcases append_int_stored addressable stored value with failed | ⟨next, appended, held⟩
      · rw [failed]
        exact .inl rfl
      · rw [appended]
        exact ih held

end

-- What holds of every buffer. One with less than eight bytes behind its offset
-- is cut by retrieveAll to a length that the offset is not in.
structure Placed (limit : Nat) (b : MsgBuffer) : Prop where
  offset : kBufferOffset ≤ b.head
  order : b.head ≤ b.tail
  near : b.tail ≤ b.buffer.length + kBufferOffset
  small : b.buffer.length ≤ limit

theorem new_placed (limit len : Nat) (b : MsgBuffer) (made : newMsgBuffer limit len = .ok b) : Placed limit b := by
  rw [newMsgBuffer] at made
  split at made
  · rename_i available
    cases made
    refine ⟨Nat.le_refl _, Nat.le_refl _, Nat.le_add_left _ _, ?_⟩
    rw [List.length_replicate]
    exact available
  · cases made

theorem stored_placed {limit : Nat} {b : MsgBuffer} {queue : List UInt8} (stored : Stored limit b queue) :
    Placed limit b :=
  ⟨stored.queue.offset, stored.queue.order, Nat.le_trans stored.queue.inside (Nat.le_add_right _ _), stored.small⟩

theorem retrieve_all_placed {limit : Nat} {b : MsgBuffer} (placed : Placed limit b) (cap : b.cap ≤ limit) :
    Placed limit b.retrieveAll := by
  rw [MsgBuffer.retrieveAll]
  refine ⟨Nat.le_refl _, Nat.le_refl _, Nat.le_add_left _ _, ?_⟩
  split
  · simp only [resize, List.length_append, List.length_take, List.length_replicate]
    omega
  · exact placed.small

section

variable {limit : Nat} {b : MsgBuffer} (placed : Placed limit b)
include placed

theorem append_outside (bytes : List UInt8) (outside : b.buffer.length < b.tail)
    (short : bytes.length < 4611686018427387904) : b.append limit bytes = .error .outOfBounds := by
  have eight : kBufferOffset = 8 := rfl
  have near := placed.near
  have small := placed.small
  have enough : b.writableBytes ≥ bytes.length := by
    rw [MsgBuffer.writableBytes, toUint64]
    omega
  rw [MsgBuffer.append, MsgBuffer.ensureWriteableBytes, MsgBuffer.ensureFuel, if_pos enough]
  change b.write bytes = _
  rw [MsgBuffer.write, if_neg (by omega)]

theorem unread_stored (unread : b.readableBytes = 0) (inside : b.tail ≤ b.buffer.length) : Stored limit b [] := by
  refine ⟨⟨placed.offset, placed.order, inside, ?_⟩, placed.small⟩
  rw [MsgBuffer.readable, unread, List.take_zero]

theorem appended_reads_back_iff (addressable : limit < 4611686018427387904) (unread : b.readableBytes = 0) (values : List IntValue)
    (memory : b.appendAll limit values ≠ .error .badAlloc) :
    (∃ b', b.appendAll limit values = .ok b' ∧ ReadsBack b' values) ↔
      (values = [] ∨ b.tail ≤ b.buffer.length) ∧ ∀ value ∈ values, ∀ l, value = .int64 l → 4294967296 ∣ l.toNat := by
  have kept : (∀ value ∈ values, value.kept = value) ↔
      ∀ value ∈ values, ∀ l, value = .int64 l → 4294967296 ∣ l.toNat :=
    forall₂_congr fun value _ => kept_iff value
  rw [← kept]
  by_cases inside : b.tail ≤ b.buffer.length
  · rcases append_all_stored addressable values (unread_stored placed unread inside) with
      failed | ⟨b', appended, stored⟩
    · exact absurd failed memory
    · rw [List.nil_append] at stored
      constructor
      · rintro ⟨other, same, back⟩
        cases appended.symm.trans same
        exact ⟨.inr inside, (reads_back_iff addressable values b' stored).mp back⟩
      · rintro ⟨-, exact⟩
        exact ⟨b', appended, (reads_back_iff addressable values b' stored).mpr exact⟩
  · cases values with
    | nil => exact ⟨fun _ => ⟨.inl rfl, fun _ impossible => absurd impossible List.not_mem_nil⟩, fun _ => ⟨b, rfl, trivial⟩⟩
    | cons value values =>
        have short := (width_size value.width).2
        have failed : b.appendInt limit value = .error .outOfBounds := by
          rw [append_int]
          exact append_outside placed value.bytes (Nat.not_le.mp inside) (by rw [int_bytes_length]; omega)
        constructor
        · rintro ⟨b', appended, -⟩
          rw [MsgBuffer.appendAll, failed] at appended
          cases appended
        · rintro ⟨impossible | there, -⟩
          · cases impossible
          · exact absurd there inside

end

theorem read_front (b : MsgBuffer) (n : Nat) : (b.read n).1 = b.readable.take n := by
  have shorter : (if n > b.readableBytes then b.readableBytes else n) = min n b.readableBytes := by
    split <;> omega
  rw [MsgBuffer.read, MsgBuffer.readable, List.take_take]
  dsimp only
  rw [shorter]

theorem read_removes_iff (b : MsgBuffer) (n : Nat) :
    ((b.read n).1 = b.readable.take n ∧ (b.read n).2.readable = b.readable.drop n) ↔ n = 0 ∨ b.readable = [] := by
  rw [read_front, MsgBuffer.read]
  constructor
  · rintro ⟨-, removed⟩
    have length := congrArg List.length removed
    rw [List.length_drop] at length
    by_cases none : n = 0
    · exact .inl none
    · exact .inr (List.length_eq_zero_iff.mp (by dsimp only at length; omega))
  · rintro (rfl | empty)
    · exact ⟨rfl, List.drop_zero.symm⟩
    · refine ⟨rfl, ?_⟩
      dsimp only
      rw [empty, List.drop_nil]

theorem typed_access_iff (limit : Nat) (addressable : limit < 4611686018427387904) (b : MsgBuffer)
    (placed : Placed limit b) (unread : b.readableBytes = 0) (values : List IntValue)
    (memory : b.appendAll limit values ≠ .error .badAlloc) (c : MsgBuffer) (n : Nat) :
    ((∃ b', b.appendAll limit values = .ok b' ∧ ReadsBack b' values) ↔
      (values = [] ∨ b.tail ≤ b.buffer.length) ∧
        ∀ value ∈ values, ∀ l, value = IntValue.int64 l → 4294967296 ∣ l.toNat) ∧
    (((c.read n).1 = c.readable.take n ∧ (c.read n).2.readable = c.readable.drop n) ↔ n = 0 ∨ c.readable = []) :=
  ⟨appended_reads_back_iff placed addressable unread values memory, read_removes_iff c n⟩

theorem typed_access_mixed :
    let b : MsgBuffer := ⟨8, 8, List.replicate 32 0, 24⟩
    let values : List IntValue := [.int16 513, .int64 4294967296, .int32 67305985]
    ((∃ b', b.appendAll 1024 values = .ok b' ∧ ReadsBack b' values) ↔
      (values = [] ∨ b.tail ≤ b.buffer.length) ∧
        ∀ value ∈ values, ∀ l, value = IntValue.int64 l → 4294967296 ∣ l.toNat) ∧
    (((b.read 2).1 = b.readable.take 2 ∧ (b.read 2).2.readable = b.readable.drop 2) ↔ 2 = 0 ∨ b.readable = []) :=
  typed_access_iff 1024 (by decide) ⟨8, 8, List.replicate 32 0, 24⟩ ⟨by decide, by decide, by decide, by decide⟩ (by decide)
    [.int16 513, .int64 4294967296, .int32 67305985] (by decide) ⟨8, 8, List.replicate 32 0, 24⟩ 2

theorem typed_access_lost :
    let b : MsgBuffer := ⟨8, 8, List.replicate 32 0, 24⟩
    let held : MsgBuffer := ⟨8, 16, List.replicate 8 0 ++ [0, 0, 0, 0, 0, 0, 0, 1] ++ List.replicate 16 0, 24⟩
    newMsgBuffer 1024 24 = .ok b ∧ b.readableBytes = 0 ∧ b.appendAll 1024 [.int64 1] = .ok held ∧
      held.readInt .int64 = .ok (.int64 0, ⟨8, 8, held.buffer, 24⟩) ∧ ¬ ReadsBack held [.int64 1] ∧
      (held.read 3).1 = [0, 0, 0] ∧ (held.read 3).2.readable = [0, 0, 0, 0, 0, 0, 0, 1] := by
  intro b held
  have read : held.readInt .int64 = .ok (.int64 0, ⟨8, 8, held.buffer, 24⟩) := by decide
  refine ⟨by decide, by decide, by decide, read, ?_, by decide, by decide⟩
  rintro ⟨after, got, -⟩
  exact absurd (Prod.mk.inj (Except.ok.inj (got.symm.trans read))).1 (by decide)

end Lssvc.Network
