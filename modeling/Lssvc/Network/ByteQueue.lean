import Lssvc.Foundation.Runs
import Lssvc.Network.MsgBuffer

set_option autoImplicit false

namespace Lssvc.Network

open Lssvc.Foundation

structure ByteQueue (b : MsgBuffer) (queue : List UInt8) : Prop where
  offset : kBufferOffset ≤ b.head
  order : b.head ≤ b.tail
  inside : b.tail ≤ b.buffer.length
  bytes : b.readable = queue

-- cap_ is eight less than the size, and at least 8: retrieveAll never resizes.
structure BufferSound (limit : Nat) (b : MsgBuffer) (queue : List UInt8) : Prop where
  queue : ByteQueue b queue
  sized : b.buffer.length = b.cap + kBufferOffset
  least : kBufferOffset ≤ b.cap
  small : b.buffer.length ≤ limit

-- What holds of a buffer of any size: one with less than eight bytes behind its
-- offset is cut to that by retrieveAll.
structure Stored (limit : Nat) (b : MsgBuffer) (queue : List UInt8) : Prop where
  queue : ByteQueue b queue
  small : b.buffer.length ≤ limit

theorem BufferSound.stored {limit : Nat} {b : MsgBuffer} {queue : List UInt8} (sound : BufferSound limit b queue) :
    Stored limit b queue := ⟨sound.queue, sound.small⟩

-- No sum of ensureWriteableBytes passes the end of size_t, or a wrong sum makes
-- it ask for more memory than there is.
def SumsFit (limit : Nat) (b : MsgBuffer) (len : Nat) : Prop :=
  kBufferOffset + b.readableBytes + len + kBufferOffset < 18446744073709551616 ∨
    (18446744073709551616 ≤ kBufferOffset + b.readableBytes + len ∧ len + kBufferOffset < 18446744073709551616 ∧
      limit < b.buffer.length * 2 + kBufferOffset)

theorem new_sound (limit len : Nat) (least : kBufferOffset ≤ len) (fits : len + kBufferOffset < 18446744073709551616) :
    (limit < len + kBufferOffset ∧ newMsgBuffer limit len = .error .badAlloc) ∨
      (len + kBufferOffset ≤ limit ∧
        ∃ b, newMsgBuffer limit len = .ok b ∧ BufferSound limit b [] ∧ b.writableBytes = len) := by
  rw [newMsgBuffer, to_uint64_nat _ fits]
  by_cases available : len + kBufferOffset ≤ limit
  · rw [if_pos available]
    refine .inr ⟨available, _, rfl, ⟨⟨Nat.le_refl _, Nat.le_refl _, ?_, ?_⟩, List.length_replicate, least, ?_⟩, ?_⟩
    · rw [List.length_replicate]
      exact Nat.le_add_left _ _
    · rw [MsgBuffer.readable, MsgBuffer.readableBytes,
        to_uint64_sub kBufferOffset kBufferOffset (Nat.le_refl _) (by decide), Nat.sub_self, List.take_zero]
    · rw [List.length_replicate]
      exact available
    · rw [MsgBuffer.writableBytes, List.length_replicate, to_uint64_sub _ _ (Nat.le_add_left _ _) fits,
        Nat.add_sub_cancel]
  · rw [if_neg available]
    exact .inl ⟨Nat.not_le.mp available, rfl⟩

theorem new_wrapped (limit len : Nat) (wraps : 18446744073709551616 ≤ len + kBufferOffset) (small : len < 18446744073709551616)
    (some' : kBufferOffset ≤ limit) (bytes : List UInt8) (short : bytes.length < 4611686018427387904) (fuel : Nat) :
    ((newMsgBuffer limit len).bind fun newbuffer =>
      (newbuffer.ensureFuel limit (fuel + 1) bytes.length).bind fun newbuffer => newbuffer.write bytes) =
      .error .outOfBounds := by
  have eight : kBufferOffset = 8 := rfl
  have size : toUint64 (len + kBufferOffset : Nat) = len + kBufferOffset - 18446744073709551616 := by
    rw [toUint64]
    omega
  obtain ⟨tiny, made, tail, few⟩ : ∃ tiny : MsgBuffer, newMsgBuffer limit len = .ok tiny ∧ tiny.tail = kBufferOffset ∧
      tiny.buffer.length < kBufferOffset := by
    rw [newMsgBuffer, size, if_pos (by omega)]
    refine ⟨_, rfl, rfl, ?_⟩
    rw [List.length_replicate]
    omega
  have enough : tiny.writableBytes ≥ bytes.length := by
    rw [MsgBuffer.writableBytes, tail, toUint64]
    omega
  rw [made]
  change (tiny.ensureFuel limit (fuel + 1) bytes.length).bind _ = _
  rw [MsgBuffer.ensureFuel, if_pos enough]
  change tiny.write bytes = _
  rw [MsgBuffer.write, if_neg (by omega)]

theorem retrieve_all_readable (b : MsgBuffer) : b.retrieveAll.readable = [] := by
  rw [MsgBuffer.retrieveAll, MsgBuffer.readable, MsgBuffer.readableBytes,
    to_uint64_sub kBufferOffset kBufferOffset (Nat.le_refl _) (by decide), Nat.sub_self, List.take_zero]

-- A length that the int takes for a negative one becomes a huge iov_len.
theorem first_area_le (b : MsgBuffer) (valid : b.firstArea < 9223372036854775808) : b.firstArea ≤ b.writableBytes := by
  rw [MsgBuffer.firstArea, toUint64, toInt32] at valid ⊢
  omega

theorem areas_le (b : MsgBuffer) (valid : b.firstArea < 9223372036854775808) :
    b.areas ≤ b.writableBytes + 8192 := by
  have first := first_area_le b valid
  have size : extBufferSize = 8192 := rfl
  rw [MsgBuffer.areas]
  split <;> omega

section

variable {limit : Nat} (addressable : limit < 4611686018427387904)
include addressable

theorem stored_bytes {b : MsgBuffer} {queue : List UInt8} (stored : Stored limit b queue) :
    b.readableBytes = b.tail - b.head ∧ b.writableBytes = b.buffer.length - b.tail ∧ queue.length = b.tail - b.head := by
  obtain ⟨⟨_, order, inside, bytes⟩, small⟩ := stored
  have readable : b.readableBytes = b.tail - b.head := to_uint64_sub b.tail b.head order (by omega)
  refine ⟨readable, to_uint64_sub b.buffer.length b.tail inside (by omega), ?_⟩
  rw [← bytes, MsgBuffer.readable, readable, List.length_take, List.length_drop]
  omega

theorem readable_bytes {b : MsgBuffer} {queue : List UInt8} (sound : BufferSound limit b queue) :
    b.readableBytes = b.tail - b.head ∧ b.writableBytes = b.buffer.length - b.tail ∧ queue.length = b.tail - b.head :=
  stored_bytes addressable sound.stored

theorem write_stored {b : MsgBuffer} {queue : List UInt8} (stored : Stored limit b queue) (bytes : List UInt8)
    (room : bytes.length ≤ b.writableBytes) :
    ∃ b', b.write bytes = .ok b' ∧ Stored limit b' (queue ++ bytes) ∧ b'.buffer.length = b.buffer.length ∧
      b'.cap = b.cap ∧ b'.writableBytes = b.writableBytes - bytes.length := by
  obtain ⟨readable, writable, length⟩ := stored_bytes addressable stored
  obtain ⟨⟨offset, order, inside, held⟩, small⟩ := stored
  rw [writable] at room
  have fits : b.tail + bytes.length ≤ b.buffer.length := by omega
  have written : (b.buffer.take b.tail ++ bytes ++ b.buffer.drop (b.tail + bytes.length)).length = b.buffer.length := by
    simp only [List.length_append, List.length_take, List.length_drop]
    omega
  have after : toUint64 (((b.tail + bytes.length : Nat) : Int) - b.head) = b.tail + bytes.length - b.head :=
    to_uint64_sub _ _ (by omega) (by omega)
  rw [MsgBuffer.write, if_pos fits]
  refine ⟨_, rfl, ⟨⟨offset, ?_, ?_, ?_⟩, ?_⟩, written, rfl, ?_⟩
  · exact Nat.le_trans order (Nat.le_add_right _ _)
  · rw [written]
    exact fits
  · rw [MsgBuffer.readable, MsgBuffer.readableBytes, after, ← held, MsgBuffer.readable, readable]
    have front : (b.buffer.take b.tail).length = b.tail := List.length_take_of_le inside
    dsimp only
    rw [List.append_assoc, List.drop_append_of_le_length (by omega), List.take_append, List.length_drop, front,
      List.drop_take, List.take_take, Nat.min_eq_right (by omega),
      show b.tail + bytes.length - b.head - (b.tail - b.head) = bytes.length by omega, List.take_left]
  · rw [written]
    exact small
  · rw [MsgBuffer.writableBytes, written, writable, to_uint64_sub _ _ fits (by omega)]
    omega

theorem write_sound {b : MsgBuffer} {queue : List UInt8} (sound : BufferSound limit b queue) (bytes : List UInt8)
    (room : bytes.length ≤ b.writableBytes) :
    ∃ b', b.write bytes = .ok b' ∧ BufferSound limit b' (queue ++ bytes) ∧
      b'.writableBytes = b.writableBytes - bytes.length := by
  obtain ⟨b', written, stored, length, cap, left⟩ := write_stored addressable sound.stored bytes room
  exact ⟨b', written, ⟨stored.queue, by rw [length, cap]; exact sound.sized, by rw [cap]; exact sound.least,
    stored.small⟩, left⟩

theorem compact_stored {b : MsgBuffer} {queue : List UInt8} (stored : Stored limit b queue) :
    Stored limit b.compact queue ∧ b.compact.buffer.length = b.buffer.length ∧
      b.compact.writableBytes = b.head + b.writableBytes - kBufferOffset := by
  obtain ⟨readable, writable, length⟩ := stored_bytes addressable stored
  obtain ⟨⟨offset, order, inside, held⟩, small⟩ := stored
  have eight : kBufferOffset = 8 := rfl
  have count : b.readable.length = b.tail - b.head := by rw [held, length]
  have tail : toUint64 (kBufferOffset + b.readableBytes : Nat) = kBufferOffset + (b.tail - b.head) := by
    rw [readable, to_uint64_nat _ (by omega)]
  have moved : (b.buffer.take kBufferOffset ++ b.readable ++
      b.buffer.drop (kBufferOffset + b.readable.length)).length = b.buffer.length := by
    simp only [List.length_append, List.length_take, List.length_drop, count]
    omega
  rw [MsgBuffer.compact, tail]
  refine ⟨⟨⟨Nat.le_refl _, Nat.le_add_right _ _, ?_, ?_⟩, ?_⟩, moved, ?_⟩
  · dsimp only
    rw [moved]
    omega
  · have front : (b.buffer.take kBufferOffset).length = kBufferOffset := List.length_take_of_le (by omega)
    rw [MsgBuffer.readable, MsgBuffer.readableBytes]
    dsimp only
    rw [to_uint64_sub _ _ (Nat.le_add_right _ _) (by omega), Nat.add_sub_cancel_left, List.append_assoc,
      List.drop_left' front, ← count, List.take_left, held]
  · rw [moved]
    exact small
  · rw [MsgBuffer.writableBytes]
    dsimp only
    rw [moved, writable, to_uint64_sub _ _ (by omega) (by omega)]
    omega

theorem compact_sound {b : MsgBuffer} {queue : List UInt8} (sound : BufferSound limit b queue) :
    BufferSound limit b.compact queue ∧ b.compact.writableBytes = b.head + b.writableBytes - kBufferOffset := by
  obtain ⟨stored, length, left⟩ := compact_stored addressable sound.stored
  exact ⟨⟨stored.queue, length.trans sound.sized, sound.least, stored.small⟩, left⟩

theorem grow_sound {b : MsgBuffer} {queue : List UInt8} (stored : Stored limit b queue) (fuel len : Nat)
    (least : kBufferOffset ≤ len) (room : queue.length ≤ len) (fits : len + kBufferOffset < 18446744073709551616) :
    let grown := (newMsgBuffer limit len).bind fun newbuffer =>
      (newbuffer.ensureFuel limit (fuel + 1) b.readableBytes).bind fun newbuffer => newbuffer.write b.readable
    (limit < len + kBufferOffset ∧ grown = .error .badAlloc) ∨
      (len + kBufferOffset ≤ limit ∧
        ∃ b', grown = .ok b' ∧ BufferSound limit b' queue ∧ b'.writableBytes = len - queue.length) := by
  obtain ⟨readable, _, length⟩ := stored_bytes addressable stored
  rcases new_sound limit len least fits with ⟨long, failed⟩ | ⟨available, new, made, empty, writable⟩
  · exact .inl ⟨long, by rw [failed]; rfl⟩
  · have enough : new.writableBytes ≥ b.readableBytes := by omega
    obtain ⟨b', written, held, left⟩ := write_sound addressable empty b.readable (by rw [stored.queue.bytes]; omega)
    rw [stored.queue.bytes] at left held written
    refine .inr ⟨available, b', ?_, held, left.trans (by rw [writable])⟩
    rw [made]
    change (new.ensureFuel limit (fuel + 1) b.readableBytes).bind _ = _
    rw [MsgBuffer.ensureFuel, if_pos enough, stored.queue.bytes]
    exact written

theorem new_len_exact {b : MsgBuffer} {queue : List UInt8} (stored : Stored limit b queue) {len : Nat}
    (fits : kBufferOffset + b.readableBytes + len < 18446744073709551616) :
    b.newLen len = max (b.buffer.length * 2) (kBufferOffset + b.readableBytes + len) := by
  have small := stored.small
  rw [MsgBuffer.newLen, to_uint64_nat _ fits, to_uint64_nat _ (by omega)]
  split <;> omega

theorem new_len_wrapped {b : MsgBuffer} {queue : List UInt8} (sound : BufferSound limit b queue) {len : Nat}
    (wraps : 18446744073709551616 ≤ kBufferOffset + b.readableBytes + len)
    (fits : len + kBufferOffset < 18446744073709551616) : b.newLen len = b.buffer.length * 2 := by
  obtain ⟨readable, _, _⟩ := readable_bytes addressable sound
  have inside := sound.queue.inside
  have offset := sound.queue.offset
  have small := sound.small
  have wrapped : toUint64 (kBufferOffset + b.readableBytes + len : Nat) < b.buffer.length * 2 := by
    rw [toUint64]
    omega
  rw [MsgBuffer.newLen, to_uint64_nat (b.buffer.length * 2) (by omega), if_pos wrapped]

theorem ensure_sound {b : MsgBuffer} {queue : List UInt8} (sound : BufferSound limit b queue) (len : Nat)
    (size : len < 18446744073709551616) :
    (b.ensureWriteableBytes limit len = .error .badAlloc ∧ SumsFit limit b len) ∨
      (b.ensureWriteableBytes limit len = .error .outOfBounds ∧ ¬ SumsFit limit b len) ∨
      ∃ b', b.ensureWriteableBytes limit len = .ok b' ∧ BufferSound limit b' queue ∧
        (len ≤ b'.writableBytes ↔ SumsFit limit b len) := by
  have eight : kBufferOffset = 8 := rfl
  obtain ⟨readable, writable, length⟩ := readable_bytes addressable sound
  have order := sound.queue.order
  have inside := sound.queue.inside
  have offset := sound.queue.offset
  have small := sound.small
  rw [MsgBuffer.ensureWriteableBytes, MsgBuffer.ensureFuel, SumsFit]
  by_cases enough : b.writableBytes ≥ len
  · rw [if_pos enough]
    exact .inr (.inr ⟨b, rfl, sound, ⟨fun _ => .inl (by omega), fun _ => enough⟩⟩)
  rw [if_neg enough, to_uint64_nat (b.head + b.writableBytes) (by omega)]
  obtain ⟨moved, left⟩ := compact_sound addressable sound
  by_cases wraps : 18446744073709551616 ≤ len + kBufferOffset
  · -- the sum is below eight, so there always seems to be room in front
    have sum : b.head + b.writableBytes ≥ toUint64 (len + kBufferOffset : Nat) := by
      rw [toUint64]
      omega
    rw [if_pos sum]
    exact .inr (.inr ⟨b.compact, rfl, moved, ⟨fun _ => by omega, fun _ => by omega⟩⟩)
  rw [to_uint64_nat (len + kBufferOffset) (by omega)]
  by_cases front : b.head + b.writableBytes ≥ len + kBufferOffset
  · rw [if_pos front]
    exact .inr (.inr ⟨b.compact, rfl, moved, ⟨fun _ => .inl (by omega), fun _ => by omega⟩⟩)
  rw [if_neg front]
  by_cases sum : kBufferOffset + b.readableBytes + len < 18446744073709551616
  · have exact := new_len_exact addressable sound.stored sum
    by_cases last : kBufferOffset + b.readableBytes + len + kBufferOffset < 18446744073709551616
    · rcases grow_sound addressable sound.stored 0 (b.newLen len) (by omega) (by omega) (by omega) with
        ⟨_, failed⟩ | ⟨_, b', grown, held, room⟩
      · exact .inl ⟨failed, .inl last⟩
      · exact .inr (.inr ⟨b', grown, held, ⟨fun _ => .inl last, fun _ => by omega⟩⟩)
    · refine .inr (.inl ⟨?_, fun fits => by omega⟩)
      have same : b.readableBytes = b.readable.length := by rw [sound.queue.bytes, readable, length]
      have failed := new_wrapped limit (b.newLen len) (by omega) (by omega) (by omega) b.readable (by omega) 0
      rw [← same] at failed
      exact failed
  · have wrong := new_len_wrapped addressable sound (Nat.not_lt.mp sum) (by omega)
    rcases grow_sound addressable sound.stored 0 (b.newLen len) (by omega) (by omega) (by omega) with
      ⟨long, failed⟩ | ⟨available, b', grown, held, room⟩
    · exact .inl ⟨failed, .inr ⟨by omega, by omega, by omega⟩⟩
    · rw [wrong] at room available
      refine .inr (.inr ⟨b', grown, held, ⟨fun got => ?_, fun fits => ?_⟩⟩)
      · omega
      · omega

theorem ensure_stored {b : MsgBuffer} {queue : List UInt8} (stored : Stored limit b queue) (len : Nat)
    (short : len < 4611686018427387904) :
    b.ensureWriteableBytes limit len = .error .badAlloc ∨
      ∃ b', b.ensureWriteableBytes limit len = .ok b' ∧ Stored limit b' queue ∧ len ≤ b'.writableBytes := by
  have eight : kBufferOffset = 8 := rfl
  obtain ⟨readable, writable, length⟩ := stored_bytes addressable stored
  have order := stored.queue.order
  have inside := stored.queue.inside
  have offset := stored.queue.offset
  have small := stored.small
  rw [MsgBuffer.ensureWriteableBytes, MsgBuffer.ensureFuel]
  by_cases enough : b.writableBytes ≥ len
  · rw [if_pos enough]
    exact .inr ⟨b, rfl, stored, enough⟩
  rw [if_neg enough, to_uint64_nat (b.head + b.writableBytes) (by omega), to_uint64_nat (len + kBufferOffset) (by omega)]
  by_cases front : b.head + b.writableBytes ≥ len + kBufferOffset
  · obtain ⟨moved, _, left⟩ := compact_stored addressable stored
    rw [if_pos front]
    exact .inr ⟨b.compact, rfl, moved, by omega⟩
  rw [if_neg front]
  have length' := new_len_exact addressable stored (show kBufferOffset + b.readableBytes + len < 18446744073709551616 by omega)
  rcases grow_sound addressable stored 0 (b.newLen len) (by omega) (by omega) (by omega) with
    ⟨_, failed⟩ | ⟨_, b', grown, held, room⟩
  · exact .inl failed
  · exact .inr ⟨b', grown, held.stored, by omega⟩

theorem append_stored {b : MsgBuffer} {queue : List UInt8} (stored : Stored limit b queue) (bytes : List UInt8)
    (short : bytes.length < 4611686018427387904) :
    b.append limit bytes = .error .badAlloc ∨ ∃ b', b.append limit bytes = .ok b' ∧ Stored limit b' (queue ++ bytes) := by
  rw [MsgBuffer.append]
  rcases ensure_stored addressable stored bytes.length short with failed | ⟨b', ensured, held, room⟩
  · rw [failed]
    exact .inl rfl
  · obtain ⟨written, result, after, _⟩ := write_stored addressable held bytes room
    rw [ensured]
    exact .inr ⟨written, result, after⟩

theorem append_sound {b : MsgBuffer} {queue : List UInt8} (sound : BufferSound limit b queue) (bytes : List UInt8)
    (short : bytes.length < 4611686018427387904) :
    b.append limit bytes = .error .badAlloc ∨ ∃ b', b.append limit bytes = .ok b' ∧ BufferSound limit b' (queue ++ bytes) := by
  obtain ⟨readable, _, _⟩ := readable_bytes addressable sound
  have inside := sound.queue.inside
  have small := sound.small
  have fits : SumsFit limit b bytes.length := .inl (by rw [readable, kBufferOffset]; omega)
  rw [MsgBuffer.append]
  rcases ensure_sound addressable sound bytes.length (by omega) with
    ⟨failed, _⟩ | ⟨_, wraps⟩ | ⟨b', ensured, held, room⟩
  · rw [failed]
    exact .inl rfl
  · exact absurd fits wraps
  · obtain ⟨written, result, after, _⟩ := write_sound addressable held bytes (room.mpr fits)
    rw [ensured]
    exact .inr ⟨written, result, after⟩

theorem retrieve_all_sound {b : MsgBuffer} {queue : List UInt8} (sound : BufferSound limit b queue) :
    BufferSound limit b.retrieveAll [] := by
  have empty := retrieve_all_readable b
  obtain ⟨⟨_, _, _, _⟩, sized, least, small⟩ := sound
  have kept : ¬ b.buffer.length > toUint64 (b.cap * 2 : Nat) := by
    rw [to_uint64_nat _ (by omega)]
    omega
  rw [MsgBuffer.retrieveAll, if_neg kept] at empty ⊢
  refine ⟨⟨Nat.le_refl _, Nat.le_refl _, ?_, empty⟩, sized, least, small⟩
  dsimp only
  omega

theorem retrieve_stored {b : MsgBuffer} {queue : List UInt8} (stored : Stored limit b queue) (len : Nat)
    (part : len < b.readableBytes) :
    Stored limit (b.retrieve len) (queue.drop len) ∧ (b.retrieve len).buffer = b.buffer ∧ (b.retrieve len).cap = b.cap := by
  obtain ⟨readable, _, length⟩ := stored_bytes addressable stored
  obtain ⟨⟨offset, order, inside, held⟩, small⟩ := stored
  rw [MsgBuffer.retrieve, if_neg (Nat.not_le.mpr part), to_uint64_nat _ (by omega)]
  refine ⟨⟨⟨by dsimp only; omega, by dsimp only; omega, inside, ?_⟩, small⟩, rfl, rfl⟩
  rw [MsgBuffer.readable, MsgBuffer.readableBytes, to_uint64_sub _ _ (by dsimp only; omega) (by dsimp only; omega),
    ← held, MsgBuffer.readable, List.drop_take, List.drop_drop, readable, Nat.sub_add_eq]

theorem retrieve_sound {b : MsgBuffer} {queue : List UInt8} (sound : BufferSound limit b queue) (len : Nat) :
    BufferSound limit (b.retrieve len) (queue.drop len) := by
  obtain ⟨readable, _, length⟩ := readable_bytes addressable sound
  by_cases all : len ≥ b.readableBytes
  · rw [MsgBuffer.retrieve, if_pos all, List.drop_of_length_le (by omega)]
    exact retrieve_all_sound addressable sound
  · obtain ⟨stored, buffer, cap⟩ := retrieve_stored addressable sound.stored len (Nat.not_le.mp all)
    exact ⟨stored.queue, by rw [buffer, cap]; exact sound.sized, by rw [cap]; exact sound.least, stored.small⟩

theorem un_write_sound {b : MsgBuffer} {queue : List UInt8} (sound : BufferSound limit b queue) (offset : Nat)
    (held : offset ≤ b.readableBytes) :
    ∃ b', b.unWrite offset = .ok b' ∧ BufferSound limit b' (queue.take (queue.length - offset)) := by
  obtain ⟨readable, _, length⟩ := readable_bytes addressable sound
  obtain ⟨⟨low, order, inside, bytes⟩, sized, least, small⟩ := sound
  rw [MsgBuffer.unWrite, if_pos held, to_uint64_sub _ _ (by omega) (by omega)]
  refine ⟨_, rfl, ⟨low, by dsimp only; omega, by dsimp only; omega, ?_⟩, sized, least, small⟩
  rw [MsgBuffer.readable, MsgBuffer.readableBytes, to_uint64_sub _ _ (by dsimp only; omega) (by dsimp only; omega),
    length, ← bytes, MsgBuffer.readable, readable, List.take_take]
  congr 1
  dsimp only
  omega

theorem has_written_sound {b : MsgBuffer} {queue : List UInt8} (sound : BufferSound limit b queue) (bytes : List UInt8)
    (room : bytes.length ≤ b.writableBytes) :
    ∃ b', b.hasWritten bytes = .ok b' ∧ BufferSound limit b' (queue ++ bytes) := by
  obtain ⟨b', written, held, _⟩ := write_sound addressable sound bytes room
  rw [MsgBuffer.hasWritten, if_pos room]
  exact ⟨b', written, held⟩

theorem read_fd_sound {b : MsgBuffer} {queue : List UInt8} (sound : BufferSound limit b queue) (bytes : List UInt8)
    (valid : b.firstArea < 9223372036854775808) (total : bytes.length ≤ b.areas) :
    b.readFd limit bytes = .error .badAlloc ∨
      ∃ b', b.readFd limit bytes = .ok b' ∧ BufferSound limit b' (queue ++ bytes) := by
  obtain ⟨_, writable, _⟩ := readable_bytes addressable sound
  have small := sound.small
  rw [MsgBuffer.readFd]
  by_cases inside : bytes.length ≤ b.writableBytes
  · obtain ⟨b', written, held, _⟩ := write_sound addressable sound bytes inside
    rw [if_pos inside]
    exact .inr ⟨b', written, held⟩
  · rw [if_neg inside]
    have second := areas_le b valid
    have front : (bytes.take b.writableBytes).length = b.writableBytes := List.length_take_of_le (by omega)
    obtain ⟨full, written, held, _⟩ := write_sound addressable sound (bytes.take b.writableBytes) (Nat.le_of_eq front)
    have rest : (bytes.drop b.writableBytes).length < 4611686018427387904 := by
      rw [List.length_drop]
      omega
    rw [written]
    rcases append_sound addressable held (bytes.drop b.writableBytes) rest with failed | ⟨b', appended, after⟩
    · exact .inl failed
    · rw [List.append_assoc, List.take_append_drop] at after
      exact .inr ⟨b', appended, after⟩

end

def queueOp (queues : Nat → List UInt8) : BufferOp → (Nat → List UInt8)
  | .build i _ => Function.update queues i []
  | .append i bytes => Function.update queues i (queues i ++ bytes)
  | .appendBuffer i j => Function.update queues i (queues i ++ queues j)
  | .hasWritten i bytes => Function.update queues i (queues i ++ bytes)
  | .retrieve i len => Function.update queues i ((queues i).drop len)
  | .retrieveAll i => Function.update queues i []
  | .ensureWriteableBytes _ _ => queues
  | .unWrite i offset => Function.update queues i ((queues i).take ((queues i).length - offset))
  | .swap i j => Function.update (Function.update queues i (queues j)) j (queues i)
  | .readFd i bytes => Function.update queues i (queues i ++ bytes)

def asked : BufferOp → Option (Nat × Nat)
  | .ensureWriteableBytes i len => some (i, len)
  | _ => none

-- Buffers with the queues they stand for, and what the last operation asked of
-- ensureWriteableBytes.
structure BufferRun where
  buffers : Except BufferFault (Nat → MsgBuffer)
  queues : Nat → List UInt8
  ensured : Option (Nat × Nat)

def BufferRun.fresh (limit : Nat) : BufferRun where
  buffers := (newMsgBuffer limit kBufferDefaultLength).map fun b _ => b
  queues := fun _ => []
  ensured := none

def bufferStep (limit : Nat) (state : BufferRun) (op : BufferOp) : BufferRun where
  buffers := state.buffers.bind fun buffers => bufferOp limit buffers op
  queues := queueOp state.queues op
  ensured := asked op

structure QueuesHeld (buffers : Nat → MsgBuffer) (queues : Nat → List UInt8) (ensured : Option (Nat × Nat)) : Prop where
  queue : ∀ i, ByteQueue (buffers i) (queues i)
  room : ∀ i len, ensured = some (i, len) → len ≤ (buffers i).writableBytes

-- An exception ends the run; a copy outside the vector is no end.
def BufferRun.Right (state : BufferRun) : Prop :=
  match state.buffers with
  | .error fault => fault = .badAlloc
  | .ok buffers => QueuesHeld buffers state.queues state.ensured

-- Lengths are size_t, no object has 2^62 bytes, and readv fills no more than its
-- two areas, of which it takes none as long as 2^63.
def OpAllowed (buffers : Nat → MsgBuffer) : BufferOp → Prop
  | .build _ len => kBufferOffset ≤ len ∧ len < 18446744073709551616
  | .append _ bytes => bytes.length < 4611686018427387904
  | .hasWritten i bytes => bytes.length ≤ (buffers i).writableBytes
  | .ensureWriteableBytes _ len => len < 18446744073709551616
  | .unWrite i offset => offset ≤ (buffers i).readableBytes
  | .readFd i bytes => (buffers i).firstArea < 9223372036854775808 ∧ 0 < bytes.length ∧ bytes.length ≤ (buffers i).areas
  | _ => True

def OpFits (limit : Nat) (buffers : Nat → MsgBuffer) : BufferOp → Prop
  | .build _ len => len + kBufferOffset < 18446744073709551616
  | .ensureWriteableBytes i len => SumsFit limit (buffers i) len
  | _ => True

def BufferRun.Allowed (state : BufferRun) (op : BufferOp) : Prop :=
  ∀ buffers, state.buffers = .ok buffers → OpAllowed buffers op

def BufferRun.Fits (limit : Nat) (state : BufferRun) (op : BufferOp) : Prop :=
  ∀ buffers, state.buffers = .ok buffers → OpFits limit buffers op

structure BuffersSound (limit : Nat) (buffers : Nat → MsgBuffer) (queues : Nat → List UInt8)
    (ensured : Option (Nat × Nat)) : Prop where
  sound : ∀ i, BufferSound limit (buffers i) (queues i)
  room : ∀ i len, ensured = some (i, len) → len ≤ (buffers i).writableBytes

def BufferRun.Sound (limit : Nat) (state : BufferRun) : Prop :=
  state.buffers = .error .badAlloc ∨
    ∃ buffers, state.buffers = .ok buffers ∧ BuffersSound limit buffers state.queues state.ensured

theorem update_sound {limit : Nat} {buffers : Nat → MsgBuffer} {queues : Nat → List UInt8}
    (sound : ∀ i, BufferSound limit (buffers i) (queues i)) (i : Nat) (b : MsgBuffer) (queue : List UInt8)
    (here : BufferSound limit b queue) (other : Nat) :
    BufferSound limit (Function.update buffers i b other) (Function.update queues i queue other) := by
  by_cases same : other = i
  · subst same
    rw [Function.update_self, Function.update_self]
    exact here
  · rw [Function.update_of_ne same, Function.update_of_ne same]
    exact sound other

theorem sound_right (limit : Nat) (state : BufferRun) (sound : state.Sound limit) : state.Right := by
  rcases sound with failed | ⟨buffers, held, sound, room⟩
  · rw [BufferRun.Right, failed]
  · rw [BufferRun.Right, held]
    exact ⟨fun i => (sound i).queue, room⟩

section

variable {limit : Nat} {buffers : Nat → MsgBuffer} {queues : Nat → List UInt8}
  (sound : ∀ i, BufferSound limit (buffers i) (queues i))
include sound

theorem mapped_sound (i : Nat) (result : Except BufferFault MsgBuffer) (queue : List UInt8)
    (outcome : result = .error .badAlloc ∨ ∃ b, result = .ok b ∧ BufferSound limit b queue) :
    BufferRun.Sound limit ⟨result.map (Function.update buffers i), Function.update queues i queue, none⟩ := by
  rcases outcome with failed | ⟨b, made, here⟩
  · rw [failed]
    exact .inl rfl
  · rw [made]
    exact .inr ⟨_, rfl, update_sound sound i b queue here, fun _ _ impossible => by cases impossible⟩

theorem build_right_iff (i len : Nat) (least : kBufferOffset ≤ len) (size : len < 18446744073709551616) :
    let next : BufferRun := ⟨(newMsgBuffer limit len).map (Function.update buffers i), Function.update queues i [], none⟩
    (next.Right → len + kBufferOffset < 18446744073709551616) ∧
      (len + kBufferOffset < 18446744073709551616 → next.Sound limit) := by
  have small := (sound i).small
  have sized := (sound i).sized
  refine ⟨fun right => ?_, fun fits => ?_⟩
  · by_contra wraps
    have eight : kBufferOffset = 8 := rfl
    have short : toUint64 (len + kBufferOffset : Nat) < kBufferOffset := by
      rw [toUint64]
      omega
    rw [newMsgBuffer, if_pos (by omega)] at right
    have inside := (right.queue i).inside
    rw [Function.update_self, List.length_replicate] at inside
    dsimp only at inside
    omega
  · refine mapped_sound sound i _ [] ?_
    rcases new_sound limit len least fits with ⟨_, failed⟩ | ⟨_, b, made, empty, _⟩
    · exact .inl failed
    · exact .inr ⟨b, made, empty⟩

variable (addressable : limit < 4611686018427387904)
include addressable

theorem ensure_right_iff (i len : Nat) (size : len < 18446744073709551616) :
    let next : BufferRun :=
      ⟨((buffers i).ensureWriteableBytes limit len).map (Function.update buffers i), queues, some (i, len)⟩
    (next.Right → SumsFit limit (buffers i) len) ∧ (SumsFit limit (buffers i) len → next.Sound limit) := by
  rcases ensure_sound addressable (sound i) len size with
    ⟨failed, fits⟩ | ⟨failed, wraps⟩ | ⟨b, ensured, held, room⟩
  · rw [failed]
    exact ⟨fun _ => fits, fun _ => .inl rfl⟩
  · rw [failed]
    exact ⟨fun right => (BufferFault.noConfusion right : False).elim, fun fits => absurd fits wraps⟩
  · rw [ensured]
    refine ⟨fun right => ?_, fun fits => .inr ⟨_, rfl, fun other => ?_, fun other wanted same => ?_⟩⟩
    · have got := right.room i len rfl
      rw [Function.update_self] at got
      exact room.mp got
    · have kept := update_sound sound i b (queues i) held other
      rw [Function.update_eq_self] at kept
      exact kept
    · cases same
      rw [Function.update_self]
      exact room.mpr fits

theorem append_buffer_sound (i j : Nat) :
    BufferRun.Sound limit ⟨bufferOp limit buffers (.appendBuffer i j), Function.update queues i (queues i ++ queues j), none⟩ := by
  obtain ⟨readable, _, length⟩ := readable_bytes addressable (sound j)
  obtain ⟨readable', _, _⟩ := readable_bytes addressable (sound i)
  have small := (sound j).small
  have inside := (sound j).queue.inside
  have small' := (sound i).small
  have inside' := (sound i).queue.inside
  have fits : SumsFit limit (buffers i) (buffers j).readableBytes := .inl (by rw [readable', readable, kBufferOffset]; omega)
  rw [bufferOp]
  rcases ensure_sound addressable (sound i) (buffers j).readableBytes (by omega) with
    ⟨failed, _⟩ | ⟨_, wraps⟩ | ⟨b, ensured, held, room⟩
  · rw [failed]
    exact .inl rfl
  · exact absurd fits wraps
  · have moved := update_sound sound i b (queues i) held j
    rw [Function.update_eq_self] at moved
    have bytes : (Function.update buffers i b j).readable = queues j := moved.queue.bytes
    have enough := room.mpr fits
    obtain ⟨b', written, after, _⟩ := write_sound addressable held (queues j) (by omega)
    rw [ensured]
    change BufferRun.Sound limit ⟨(b.write _).map _, _, _⟩
    rw [bytes]
    exact mapped_sound sound i _ _ (.inr ⟨b', written, after⟩)

theorem op_right_iff (op : BufferOp) (allowed : OpAllowed buffers op) :
    let next : BufferRun := ⟨bufferOp limit buffers op, queueOp queues op, asked op⟩
    (next.Right → OpFits limit buffers op) ∧ (OpFits limit buffers op → next.Sound limit) := by
  cases op with
  | build i len => exact build_right_iff sound i len allowed.1 allowed.2
  | append i bytes =>
      exact ⟨fun _ => trivial, fun _ => mapped_sound sound i _ _ (append_sound addressable (sound i) bytes allowed)⟩
  | appendBuffer i j => exact ⟨fun _ => trivial, fun _ => append_buffer_sound sound addressable i j⟩
  | hasWritten i bytes =>
      exact ⟨fun _ => trivial, fun _ => mapped_sound sound i _ _ (.inr (has_written_sound addressable (sound i) bytes allowed))⟩
  | retrieve i len =>
      exact ⟨fun _ => trivial, fun _ => .inr ⟨_, rfl, update_sound sound i _ _ (retrieve_sound addressable (sound i) len),
        fun _ _ impossible => by cases impossible⟩⟩
  | retrieveAll i =>
      exact ⟨fun _ => trivial, fun _ => .inr ⟨_, rfl, update_sound sound i _ _ (retrieve_all_sound addressable (sound i)),
        fun _ _ impossible => by cases impossible⟩⟩
  | ensureWriteableBytes i len => exact ensure_right_iff sound addressable i len allowed
  | unWrite i offset =>
      exact ⟨fun _ => trivial, fun _ => mapped_sound sound i _ _ (.inr (un_write_sound addressable (sound i) offset allowed))⟩
  | swap i j =>
      exact ⟨fun _ => trivial, fun _ => .inr ⟨_, rfl,
        update_sound (update_sound sound i _ _ (sound j)) j _ _ (sound i), fun _ _ impossible => by cases impossible⟩⟩
  | readFd i bytes =>
      exact ⟨fun _ => trivial, fun _ => mapped_sound sound i _ _
        (read_fd_sound addressable (sound i) bytes allowed.1 allowed.2.2)⟩

end

theorem byte_queues_iff (limit : Nat) (addressable : limit < 4611686018427387904) (ops : List BufferOp)
    (allowed : ∀ pair ∈ met (bufferStep limit) (.fresh limit) ops, pair.1.Allowed pair.2) :
    (∀ past rest, ops = past ++ rest → (run (bufferStep limit) (.fresh limit) past).Right) ↔
      ∀ pair ∈ met (bufferStep limit) (.fresh limit) ops, pair.1.Fits limit pair.2 := by
  refine run_kept_iff (sound_right limit) ?_ (.fresh limit) ?_ ops allowed
  · rintro ⟨result, queues, ensured⟩ op sound allowed
    rcases sound with failed | ⟨buffers, held, sound, _⟩
    · dsimp only at failed
      subst failed
      refine ⟨fun _ buffers impossible => ?_, fun _ => .inl rfl⟩
      cases impossible
    · dsimp only at held
      subst held
      obtain ⟨needed, kept⟩ := op_right_iff sound addressable op (allowed buffers rfl)
      exact ⟨fun right _ same => by cases same; exact needed right, fun fits => kept (fits buffers rfl)⟩
  · rcases new_sound limit kBufferDefaultLength (by decide) (by decide) with ⟨_, failed⟩ | ⟨_, b, made, empty, _⟩
    · exact .inl (by rw [BufferRun.fresh, failed]; rfl)
    · exact .inr ⟨fun _ => b, by rw [BufferRun.fresh, made]; rfl, fun _ => empty, fun _ _ impossible => by cases impossible⟩

theorem fresh_buffers (limit : Nat) (available : kBufferDefaultLength + kBufferOffset ≤ limit)
    (addressable : limit < 4611686018427387904) :
    ∃ b, (BufferRun.fresh limit).buffers = .ok (fun _ => b) ∧ BufferSound limit b [] ∧ b.readableBytes = 0 := by
  rcases new_sound limit kBufferDefaultLength (by decide) (by decide) with ⟨long, _⟩ | ⟨_, b, made, empty, _⟩
  · exact absurd available (Nat.not_le.mpr long)
  · obtain ⟨readable, _, length⟩ := readable_bytes addressable empty
    exact ⟨b, by rw [BufferRun.fresh, made]; rfl, empty, readable.trans length.symm⟩

theorem byte_queues_grown :
    140737488355328 < 4611686018427387904 ∧
      ∀ past rest, [BufferOp.ensureWriteableBytes 0 4096, .append 0 [1, 2, 3], .retrieve 0 1, .swap 0 1] = past ++ rest →
        (run (bufferStep 140737488355328) (.fresh 140737488355328) past).Right := by
  obtain ⟨b, fresh, _, empty⟩ := fresh_buffers 140737488355328 (by decide) (by decide)
  refine ⟨by decide, (byte_queues_iff 140737488355328 (by decide) _ ?_).mpr ?_⟩
  all_goals
    simp only [met, List.forall_mem_cons, List.not_mem_nil, false_implies, implies_true, and_true]
    refine ⟨fun buffers same => ?_, fun _ _ => ?_, fun _ _ => trivial, fun _ _ => trivial⟩
  · exact (by decide : 4096 < 18446744073709551616)
  · exact (by decide : 3 < 4611686018427387904)
  · rw [fresh] at same
    cases same
    exact .inl (by rw [empty]; decide)
  · trivial

theorem fresh_ensured {limit : Nat} (available : kBufferDefaultLength + kBufferOffset ≤ limit)
    (addressable : limit < 4611686018427387904) (len : Nat) (size : len < 18446744073709551616)
    (right : (run (bufferStep limit) (.fresh limit) [.ensureWriteableBytes 0 len]).Right) :
    len + kBufferOffset < 18446744073709551616 := by
  obtain ⟨b, fresh, sound, empty⟩ := fresh_buffers limit available addressable
  have state : run (bufferStep limit) (.fresh limit) [.ensureWriteableBytes 0 len] =
      ⟨(b.ensureWriteableBytes limit len).map (Function.update (fun _ => b) 0), fun _ => [], some (0, len)⟩ := by
    rw [run, List.foldl_cons, List.foldl_nil, bufferStep, fresh]
    rfl
  rw [state] at right
  have fits := (ensure_right_iff (fun _ => sound) addressable 0 len size).1 right
  rw [SumsFit, empty] at fits
  omega

-- SIZE_MAX and kBufferOffset make 7.
theorem ensured_no_room :
    (BufferRun.fresh 140737488355328).Allowed (.ensureWriteableBytes 0 18446744073709551615) ∧
      ¬ (run (bufferStep 140737488355328) (.fresh 140737488355328) [.ensureWriteableBytes 0 18446744073709551615]).Right :=
  ⟨fun _ _ => (by decide : 18446744073709551615 < 18446744073709551616),
    mt (fresh_ensured (by decide) (by decide) 18446744073709551615 (by decide)) (by decide)⟩

end Lssvc.Network
