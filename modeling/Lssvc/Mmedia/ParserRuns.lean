import Lssvc.Mmedia.Backlog
import Lssvc.Mmedia.MessageLength

set_option autoImplicit false

namespace Lssvc.Mmedia

open Lssvc.Foundation

theorem receive_invariant (Inv : RtmpIn → Prop)
    (waits : ∀ st next total buf, Inv st → parseChunk st total buf = .wait next → Inv next)
    (takes : ∀ st next total buf chunk, Inv st → parseChunk st total buf = .take next chunk → Inv next)
    (pieces : List Bytes) (outcome : ParseOutcome) (holds : Inv outcome.state) : Inv (receive outcome pieces).state := by
  induction pieces generalizing outcome with
  | nil => exact holds
  | cons piece pieces ih =>
      refine ih (arrive outcome piece) ?_
      rw [arrive]
      split
      · exact holds
      · exact parse_loop_invariant Inv waits takes outcome.state _ _ holds

theorem receive_sound (pieces : List Bytes) : Sound (receive (.idle .fresh) pieces).state :=
  receive_invariant Sound (fun st next total buf sound => parse_chunk_wait_sound st next total buf sound)
    (fun st next total buf chunk sound => parse_chunk_take_sound st next total buf chunk sound) pieces _ fresh_sound

def InPacket.Unfilled (packet : InPacket) : Prop := packet.body ≠ [] → packet.getSpace ≠ 0

def Unfilled (st : RtmpIn) : Prop := ∀ csid packet, (st.streams csid).packet = some packet → packet.Unfilled

theorem unfilled_put (st : RtmpIn) (csid : Nat) (stream : InStream) (unfilled : Unfilled st)
    (own : ∀ packet, stream.packet = some packet → packet.Unfilled) : Unfilled (st.put csid stream) := by
  intro other packet pending
  by_cases same : other = csid
  · subst same
    rw [put_same] at pending
    exact own packet pending
  · rw [RtmpIn.put] at pending
    dsimp only at pending
    rw [Function.update_of_ne same] at pending
    exact unfilled other packet pending

theorem unfilled_same (packet other : InPacket) (capacity : other.capacity = packet.capacity)
    (body : other.body = packet.body) (unfilled : packet.Unfilled) : other.Unfilled := by
  intro nonempty
  rw [body] at nonempty
  rw [InPacket.getSpace, capacity, body]
  exact unfilled nonempty

theorem opened_unfilled (st : RtmpIn) (h : ChunkHeader) (unfilled : Unfilled st) : (st.opened h).packet.Unfilled := by
  rw [RtmpIn.opened, startChunk]
  cases pending : (st.streams h.csid).packet with
  | none => exact fun nonempty => absurd rfl nonempty
  | some packet => exact unfilled_same packet _ rfl rfl (unfilled h.csid packet pending)

theorem extended_unfilled (total : Nat) (buf : Bytes) (st : RtmpIn) (h : ChunkHeader) (s : OpenStream) (parsed : Nat)
    (unfilled : Unfilled st) (read : readExtended total buf h (st.opened h) = .ok (s, parsed)) : s.packet.Unfilled := by
  obtain ⟨capacity, body, _⟩ := read_extended_packet total buf h _ s parsed read
  exact unfilled_same _ _ capacity body (opened_unfilled st h unfilled)

theorem wait_unfilled (st next : RtmpIn) (total : Nat) (buf : Bytes) (unfilled : Unfilled st)
    (waited : parseChunk st total buf = .wait next) : Unfilled next := by
  rcases parse_chunk_wait st next total buf waited with rfl | ⟨h, _, rfl | ⟨s, parsed, extendedRead, rfl⟩⟩
  · exact unfilled
  · refine unfilled_put st h.csid _ unfilled ?_
    rintro packet ⟨rfl⟩
    exact opened_unfilled st h unfilled
  · refine unfilled_put st h.csid _ unfilled ?_
    rintro packet ⟨rfl⟩
    exact extended_unfilled total buf st h s parsed unfilled extendedRead

theorem message_complete_streams (pkt : Packet) (st : RtmpIn) : (messageComplete pkt st).streams = st.streams := by
  rw [messageComplete, handleChunkSize]
  split
  · split <;> rfl
  · rfl

theorem message_complete_empty (pkt : Packet) (st : RtmpIn) (empty : pkt.body = []) : messageComplete pkt st = st := by
  rw [messageComplete, handleChunkSize, Packet.getPacketSize, empty]
  split <;> rfl

theorem take_unfilled (st next : RtmpIn) (total : Nat) (buf : Bytes) (chunk : Chunk) (unfilled : Unfilled st)
    (taken : parseChunk st total buf = .take next chunk) : Unfilled next := by
  obtain ⟨h, s, parsed, _, _, copied⟩ := parse_chunk_taken st next total buf chunk taken
  obtain ⟨_, _, finished⟩ := copy_body_taken st next total buf h s parsed chunk copied
  obtain ⟨body, _, ⟨_, _, rfl⟩ | ⟨more, _, rfl⟩⟩ := finish_chunk_cases st next buf h s parsed _ chunk finished
  · have without := unfilled_put st h.csid ⟨some s.packet.header, none, s.delta, s.ext⟩ unfilled (by
      rintro packet ⟨⟩)
    intro csid packet pending
    rw [message_complete_streams] at pending
    exact without csid packet pending
  · refine unfilled_put st h.csid _ unfilled ?_
    rintro packet ⟨rfl⟩
    exact fun _ => more

theorem fresh_unfilled : Unfilled .fresh := by
  rintro csid packet ⟨⟩

theorem receive_unfilled (pieces : List Bytes) : Unfilled (receive (.idle .fresh) pieces).state :=
  receive_invariant Unfilled (fun st next total buf unfilled => wait_unfilled st next total buf unfilled)
    (fun st next total buf chunk unfilled => take_unfilled st next total buf chunk unfilled) pieces _ fresh_unfilled

theorem closed_take (st next : RtmpIn) (buf : Bytes) (chunk : Chunk) (unfilled : Unfilled st)
    (closed : st.inChunkSize ≤ 0) (takes : TakesFront st buf next chunk) :
    ¬ chunk.Delivers ∧ next.inChunkSize ≤ 0 ∧ Unfilled next := by
  obtain ⟨total, _, _, taken⟩ := takes
  obtain ⟨h, s, parsed, _, extendedRead, copied⟩ := parse_chunk_taken st next total buf chunk taken
  obtain ⟨copies, _, finished⟩ := copy_body_taken st next total buf h s parsed chunk copied
  have nothing : (min s.packet.getSpace st.inChunkSize).toNat = 0 := by omega
  obtain ⟨body, length, result⟩ := finish_chunk_cases st next buf h s parsed _ chunk finished
  rw [nothing, List.length_eq_zero_iff] at length
  subst length
  have after := take_unfilled st next total buf chunk unfilled taken
  rcases result with ⟨full, delivered, rfl⟩ | ⟨_, delivered, rfl⟩
  · have empty : (s.packet.append []).complete.body = [] := by
      by_contra nonempty
      have body : (s.packet.append []).body = s.packet.body := List.append_nil _
      exact unfilled_same s.packet (s.packet.append []) rfl body
        (extended_unfilled total buf st h s parsed unfilled extendedRead) nonempty full
    rw [message_complete_empty _ _ empty] at after ⊢
    refine ⟨?_, closed, after⟩
    rintro ⟨message, same, nonempty⟩
    cases delivered.symm.trans same
    exact nonempty empty
  · refine ⟨?_, closed, after⟩
    rintro ⟨message, same, _⟩
    rw [delivered] at same
    cases same

theorem closed_drains (st last : RtmpIn) (buf rest : Bytes) (chunks : List Chunk) (unfilled : Unfilled st)
    (closed : st.inChunkSize ≤ 0) (drains : Drains st buf chunks last rest) :
    (¬ ∃ chunk ∈ chunks, chunk.Delivers) ∧ last.inChunkSize ≤ 0 := by
  induction drains with
  | done =>
      refine ⟨?_, closed⟩
      rintro ⟨chunk, impossible, _⟩
      cases impossible
  | take st next last buf rest chunk chunks taken _ ih =>
      obtain ⟨nothing, still, after⟩ := closed_take st next buf chunk unfilled closed taken
      obtain ⟨silent, final⟩ := ih after still
      refine ⟨?_, final⟩
      rintro ⟨other, inList, delivers⟩
      rcases List.mem_cons.mp inList with rfl | later
      · exact nothing delivers
      · exact silent ⟨other, later, delivers⟩

end Lssvc.Mmedia
