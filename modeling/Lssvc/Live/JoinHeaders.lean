import Lssvc.Foundation.Runs
import Lssvc.Live.ListedGops

set_option autoImplicit false

namespace Lssvc.Live

open Lssvc.Foundation Lssvc.Mmedia

inductive HeaderKind where
  | metadata
  | audio
  | video
deriving DecidableEq, Repr

def HeaderKind.holds (kind : HeaderKind) (pkt : Packet) : Bool :=
  match kind with
  | .metadata => isCodecHeader pkt && pkt.isMeta
  | .audio => isCodecHeader pkt && pkt.isAudio
  | .video => isCodecHeader pkt && pkt.isVideo

def HeaderKind.saved (kind : HeaderKind) (headers : CodecHeader) : HeaderList :=
  match kind with
  | .metadata => headers.metaPackets
  | .audio => headers.audioHeaderPackets
  | .video => headers.videoHeaderPackets

def HeaderKind.given (kind : HeaderKind) (user : PlayerUser) : Option Packet :=
  match kind with
  | .metadata => user.metaPacket
  | .audio => user.audioHeader
  | .video => user.videoHeader

def keptPackets (packets : List Packet) : List Packet :=
  (met LiveStream.addPacket {} packets).map fun pair => pair.1.stamp pair.2

def headersOf (kind : HeaderKind) (packets : List Packet) : List Packet := (keptPackets packets).filter kind.holds

def HandsOutHighest (headers : List Packet) (g : Int) (given : Option Packet) : Prop :=
  ∀ header ∈ headers, header.index ≤ g →
    ∃ pkt ∈ headers, given = some pkt ∧ pkt.index ≤ g ∧ header.index ≤ pkt.index

-- Of the headers that the getter chooses from, the newest one is the highest at
-- or before `g`. At an index of 0 it chooses from all of them.
def NewestIsHighest (headers : List Packet) (g : Int) : Prop :=
  ∀ header ∈ headers, header.index ≤ g →
    ∃ newest ∈ (headers.filter fun pkt => g ≤ 0 ∨ pkt.index ≤ g).getLast?,
      newest.index ≤ g ∧ header.index ≤ newest.index

theorem kept_packets_snoc (packets : List Packet) (packet : Packet) :
    keptPackets (packets ++ [packet]) =
      keptPackets packets ++ [(run LiveStream.addPacket {} packets).stamp packet] := by
  rw [keptPackets, met_append, List.map_append]
  rfl

theorem headers_of_snoc (kind : HeaderKind) (packets : List Packet) (packet : Packet) :
    headersOf kind (packets ++ [packet]) =
      if kind.holds ((run LiveStream.addPacket {} packets).stamp packet) = true then
        headersOf kind packets ++ [(run LiveStream.addPacket {} packets).stamp packet]
      else headersOf kind packets := by
  rw [headersOf, kept_packets_snoc, List.filter_append, headersOf, List.filter_singleton]
  cases kind.holds ((run LiveStream.addPacket {} packets).stamp packet) with
  | false => exact List.append_nil _
  | true => rfl

theorem meta_type (pkt : Packet) (isMeta : pkt.isMeta = true) : pkt.isAudio = false ∧ pkt.isVideo = false := by
  have type : pkt.type = kPacketTypeMeta := by simpa [Packet.isMeta] using isMeta
  rw [Packet.isAudio, Packet.isVideo, type]
  decide

theorem audio_type (pkt : Packet) (isAudio : pkt.isAudio = true) : pkt.isVideo = false := by
  have type : pkt.type = kPacketTypeAudio := by simpa [Packet.isAudio] using isAudio
  rw [Packet.isVideo, type]
  decide

theorem parse_codec_header_saved (kind : HeaderKind) (headers : CodecHeader) (pkt : Packet)
    (header : isCodecHeader pkt = true) :
    kind.saved (headers.parseCodecHeader pkt) =
      if kind.holds pkt = true then (kind.saved headers).save pkt else kind.saved headers := by
  rw [CodecHeader.parseCodecHeader]
  by_cases isMeta : pkt.isMeta = true
  · obtain ⟨notAudio, notVideo⟩ := meta_type pkt isMeta
    rw [if_pos isMeta]
    cases kind <;> simp [HeaderKind.holds, HeaderKind.saved, header, isMeta, notAudio, notVideo]
  · rw [if_neg isMeta]
    by_cases isAudio : pkt.isAudio = true
    · have notVideo := audio_type pkt isAudio
      rw [if_pos isAudio]
      cases kind <;> simp [HeaderKind.holds, HeaderKind.saved, header, isMeta, isAudio, notVideo]
    · rw [if_neg isAudio]
      cases isVideo : pkt.isVideo <;>
        cases kind <;> simp [HeaderKind.holds, HeaderKind.saved, header, isMeta, isAudio, isVideo]

theorem note_header_media (stream : LiveStream) (pkt : Packet) (header : isCodecHeader pkt = true) :
    (stream.noteHeader pkt).codecHeaders = stream.codecHeaders.parseCodecHeader pkt ∧
      (stream.noteHeader pkt).hasAudio = (stream.hasAudio || HeaderKind.audio.holds pkt) ∧
      (stream.noteHeader pkt).hasVideo = (stream.hasVideo || HeaderKind.video.holds pkt) ∧
      (stream.noteHeader pkt).hasMeta = stream.hasMeta := by
  rw [LiveStream.noteHeader]
  simp only [HeaderKind.holds, header, Bool.true_and]
  by_cases isVideo : pkt.isVideo = true
  · have notAudio : pkt.isAudio = false := by
      by_contra isAudio
      rw [audio_type pkt (by simpa using isAudio)] at isVideo
      cases isVideo
    simp [isVideo, notAudio]
  · rw [if_neg isVideo]
    by_cases isAudio : pkt.isAudio = true
    · simp [isVideo, isAudio]
    · rw [if_neg isAudio]
      by_cases isMeta : pkt.isMeta = true <;> simp [isVideo, isAudio, isMeta]

theorem begin_add_media (stream : LiveStream) (packet : Packet) :
    (stream.beginAdd packet).codecHeaders =
        (if isCodecHeader (stream.stamp packet) = true then
          stream.codecHeaders.parseCodecHeader (stream.stamp packet)
        else stream.codecHeaders) ∧
      (stream.beginAdd packet).hasAudio = (stream.hasAudio || HeaderKind.audio.holds (stream.stamp packet)) ∧
      (stream.beginAdd packet).hasVideo = (stream.hasVideo || HeaderKind.video.holds (stream.stamp packet)) ∧
      (stream.beginAdd packet).hasMeta = stream.hasMeta := by
  rw [LiveStream.beginAdd]
  by_cases header : isCodecHeader (stream.stamp packet) = true
  · simp only [if_pos header]
    split
    · exact note_header_media _ _ header
    · exact note_header_media _ _ header
  · simp only [if_neg header]
    split <;> simp [HeaderKind.holds, LiveStream.setReady, header]

theorem add_packet_media (stream : LiveStream) (packet : Packet) :
    (stream.addPacket packet).codecHeaders = (stream.beginAdd packet).codecHeaders ∧
      (stream.addPacket packet).hasAudio = (stream.beginAdd packet).hasAudio ∧
      (stream.addPacket packet).hasVideo = (stream.beginAdd packet).hasVideo ∧
      (stream.addPacket packet).hasMeta = (stream.beginAdd packet).hasMeta := by
  rw [LiveStream.addPacket]
  dsimp only
  split <;> exact ⟨rfl, rfl, rfl, rfl⟩

theorem add_packet_saved (kind : HeaderKind) (stream : LiveStream) (packet : Packet) :
    kind.saved (stream.addPacket packet).codecHeaders =
      if kind.holds (stream.stamp packet) = true then (kind.saved stream.codecHeaders).save (stream.stamp packet)
      else kind.saved stream.codecHeaders := by
  rw [(add_packet_media stream packet).1, (begin_add_media stream packet).1]
  by_cases header : isCodecHeader (stream.stamp packet) = true
  · rw [if_pos header]
    exact parse_codec_header_saved kind _ _ header
  · have none : kind.holds (stream.stamp packet) = false := by
      cases kind <;> simp [HeaderKind.holds, header]
    rw [if_neg header, none]
    rfl

-- The lists of headers and the flags, against the packets added. has_meta_ is
-- never set.
structure HeadersSound (packets : List Packet) (stream : LiveStream) : Prop where
  saved : ∀ kind, (HeaderKind.saved kind stream.codecHeaders).packets = headersOf kind packets
  last : ∀ kind, (HeaderKind.saved kind stream.codecHeaders).last = (headersOf kind packets).getLast?
  audio : stream.hasAudio = true ↔ headersOf .audio packets ≠ []
  video : stream.hasVideo = true ↔ headersOf .video packets ≠ []
  metadata : stream.hasMeta = false

theorem flag_snoc (kind : HeaderKind) (packets : List Packet) (packet : Packet) (flag : Bool)
    (before : flag = true ↔ headersOf kind packets ≠ []) :
    (flag || kind.holds ((run LiveStream.addPacket {} packets).stamp packet)) = true ↔
      headersOf kind (packets ++ [packet]) ≠ [] := by
  rw [Bool.or_eq_true, before, headers_of_snoc]
  cases kind.holds ((run LiveStream.addPacket {} packets).stamp packet) with
  | false => simp
  | true => simp

theorem headers_sound (packets : List Packet) : HeadersSound packets (run LiveStream.addPacket {} packets) := by
  refine run_history HeadersSound (fun _ _ => True) ?_ ?_ packets (fun _ _ _ _ => trivial)
  · refine ⟨?_, ?_, ⟨nofun, fun some => absurd rfl some⟩, ⟨nofun, fun some => absurd rfl some⟩, rfl⟩
    · intro kind
      cases kind <;> rfl
    · intro kind
      cases kind <;> rfl
  · intro past packet _ sound
    obtain ⟨_, hasAudio, hasVideo, hasMeta⟩ := add_packet_media (run LiveStream.addPacket {} past) packet
    obtain ⟨_, audioNow, videoNow, metaNow⟩ := begin_add_media (run LiveStream.addPacket {} past) packet
    refine ⟨?_, ?_, ?_, ?_, ?_⟩
    · intro kind
      rw [add_packet_saved, headers_of_snoc]
      split
      · exact congrArg (· ++ _) (sound.saved kind)
      · exact sound.saved kind
    · intro kind
      rw [add_packet_saved, headers_of_snoc]
      split
      · exact (List.getLast?_concat ..).symm
      · exact sound.last kind
    · rw [hasAudio, audioNow]
      exact flag_snoc .audio past packet _ sound.audio
    · rw [hasVideo, videoNow]
      exact flag_snoc .video past packet _ sound.video
    · rw [hasMeta, metaNow]
      exact sound.metadata

theorem header_list_get (headers : HeaderList) (last : headers.last = headers.packets.getLast?) (g : Int) :
    headers.get g =
      ((headers.packets.filter fun pkt => g ≤ 0 ∨ pkt.index ≤ g).getLast?).or headers.packets.getLast? := by
  rw [HeaderList.get]
  by_cases low : g ≤ 0
  · rw [if_pos low, last]
    simp [low]
  · rw [if_neg low, last, List.getLast?_filter]
    simp only [low, false_or]
    cases headers.packets.reverse.find? fun pkt => decide (pkt.index ≤ g) <;> rfl

theorem get_hands_out_highest (headers : HeaderList) (last : headers.last = headers.packets.getLast?) (g : Int) :
    HandsOutHighest headers.packets g (headers.get g) ↔ NewestIsHighest headers.packets g := by
  rw [header_list_get headers last]
  constructor
  · intro highest header inList low
    obtain ⟨pkt, _, given, below, above⟩ := highest header inList low
    cases chosen : (headers.packets.filter fun pkt => g ≤ 0 ∨ pkt.index ≤ g).getLast? with
    | none =>
        have inFilter : header ∈ headers.packets.filter fun pkt => g ≤ 0 ∨ pkt.index ≤ g :=
          List.mem_filter.mpr ⟨inList, by simp [low]⟩
        rw [List.getLast?_eq_none_iff.mp chosen] at inFilter
        cases inFilter
    | some newest =>
        rw [chosen] at given
        cases given
        exact ⟨pkt, rfl, below, above⟩
  · intro newestHighest header inList low
    obtain ⟨newest, chosen, below, above⟩ := newestHighest header inList low
    refine ⟨newest, (List.mem_filter.mp (List.mem_of_getLast? chosen)).1, ?_, below, above⟩
    rw [Option.mem_def.mp chosen]
    rfl

theorem headers_last (packets : List Packet) (stream : LiveStream) (sound : HeadersSound packets stream)
    (kind : HeaderKind) :
    (kind.saved stream.codecHeaders).last = (kind.saved stream.codecHeaders).packets.getLast? := by
  rw [sound.last, sound.saved]

theorem header_list_get_none (headers : HeaderList) (last : headers.last = headers.packets.getLast?) (g : Int) :
    headers.get g = none ↔ headers.packets = [] := by
  rw [header_list_get headers last, Option.or_eq_none_iff, List.getLast?_eq_none_iff]
  constructor
  · exact fun both => List.getLast?_eq_none_iff.mp both.2
  · intro empty
    rw [empty]
    exact ⟨rfl, rfl⟩

theorem locate_meta_sound (packets : List Packet) (stream : LiveStream) (sound : HeadersSound packets stream)
    (g : Int) (user : PlayerUser) :
    stream.locateMeta g user = { user with waitMeta := false } := by
  rw [LiveStream.locateMeta, sound.metadata, Bool.and_false]

theorem locate_audio_sound (packets : List Packet) (stream : LiveStream) (sound : HeadersSound packets stream)
    (g : Int) (user : PlayerUser) (waits : user.waitAudio = true) (fresh : user.audioHeader = none) :
    ∃ place, stream.locateAudio g user =
      { user with
        waitAudio := false
        audioHeader := stream.codecHeaders.getAudioHeader g
        audioHeaderIndex := place } := by
  have none := header_list_get_none _ (headers_last packets stream sound .audio) g
  rw [sound.saved .audio] at none
  rw [LiveStream.locateAudio, waits, Bool.true_and]
  cases chosen : stream.codecHeaders.getAudioHeader g with
  | none =>
      have off : stream.hasAudio = false := by
        by_contra on
        exact sound.audio.mp (by simpa using on) (none.mp chosen)
      rw [off]
      exact ⟨user.audioHeaderIndex, by rw [← fresh]⟩
  | some pkt =>
      have on : stream.hasAudio = true := sound.audio.mpr fun empty => by
        cases chosen.symm.trans (none.mpr empty)
      rw [on]
      exact ⟨pkt.index, rfl⟩

theorem locate_video_sound (packets : List Packet) (stream : LiveStream) (sound : HeadersSound packets stream)
    (g : Int) (user : PlayerUser) (waits : user.waitVideo = true) (fresh : user.videoHeader = none) :
    ∃ place, stream.locateVideo g user =
      { user with
        waitVideo := false
        videoHeader := stream.codecHeaders.getVideoHeader g
        videoHeaderIndex := place } := by
  have none := header_list_get_none _ (headers_last packets stream sound .video) g
  rw [sound.saved .video] at none
  rw [LiveStream.locateVideo, waits, Bool.true_and]
  cases chosen : stream.codecHeaders.getVideoHeader g with
  | none =>
      have off : stream.hasVideo = false := by
        by_contra on
        exact sound.video.mp (by simpa using on) (none.mp chosen)
      rw [off]
      exact ⟨user.videoHeaderIndex, by rw [← fresh]⟩
  | some pkt =>
      have on : stream.hasVideo = true := sound.video.mpr fun empty => by
        cases chosen.symm.trans (none.mpr empty)
      rw [on]
      exact ⟨pkt.index, rfl⟩

theorem locate_gop_sound (packets : List Packet) (stream : LiveStream) (sound : HeadersSound packets stream)
    (contentLatency : Int) (g : Int) (found : (stream.gopMgr.getGopByLatency contentLatency).1 = g) :
    (g = -1 → stream.locateGop { contentLatency := contentLatency } = (false, { contentLatency := contentLatency })) ∧
      (g ≠ -1 → (stream.locateGop { contentLatency := contentLatency }).1 = true ∧
        (stream.locateGop { contentLatency := contentLatency }).2.outIndex = g - 1 ∧
        (stream.locateGop { contentLatency := contentLatency }).2.metaPacket = none ∧
        (stream.locateGop { contentLatency := contentLatency }).2.audioHeader = stream.codecHeaders.getAudioHeader g ∧
        (stream.locateGop { contentLatency := contentLatency }).2.videoHeader =
          stream.codecHeaders.getVideoHeader g) := by
  rw [LiveStream.locateGop]
  dsimp only
  rw [found]
  constructor
  · exact fun nothing => if_pos nothing
  · intro located
    rw [if_neg located, locate_meta_sound packets stream sound]
    obtain ⟨audioPlace, audio⟩ := locate_audio_sound packets stream sound g
      { contentLatency := contentLatency, outIndex := g - 1, waitMeta := false } rfl rfl
    obtain ⟨videoPlace, video⟩ := locate_video_sound packets stream sound g
      { contentLatency := contentLatency
        outIndex := g - 1
        waitMeta := false
        waitAudio := false
        audioHeader := stream.codecHeaders.getAudioHeader g
        audioHeaderIndex := audioPlace } rfl rfl
    rw [audio, video]
    exact ⟨rfl, rfl, rfl, rfl, rfl⟩

theorem joined_headers_iff (packets : List Packet) (contentLatency : Int) (user : PlayerUser)
    (located : (run LiveStream.addPacket {} packets).locateGop { contentLatency := contentLatency } = (true, user)) :
    (∀ kind : HeaderKind, HandsOutHighest (headersOf kind packets) (user.outIndex + 1) (kind.given user)) ↔
      (∀ header ∈ headersOf .metadata packets, user.outIndex + 1 < header.index) ∧
        NewestIsHighest (headersOf .audio packets) (user.outIndex + 1) ∧
        NewestIsHighest (headersOf .video packets) (user.outIndex + 1) := by
  have sound := headers_sound packets
  obtain ⟨waits, finds⟩ := locate_gop_sound packets _ sound contentLatency _ rfl
  have found : ((run LiveStream.addPacket {} packets).gopMgr.getGopByLatency contentLatency).1 ≠ -1 := by
    intro nothing
    cases (waits nothing).symm.trans located
  obtain ⟨_, place, noMeta, audio, video⟩ := finds found
  rw [located] at place noMeta audio video
  have start : user.outIndex + 1 =
      ((run LiveStream.addPacket {} packets).gopMgr.getGopByLatency contentLatency).1 := by
    rw [show user.outIndex = _ from place, Int.sub_add_cancel]
  have audioIff := get_hands_out_highest _ (headers_last packets _ sound .audio) (user.outIndex + 1)
  have videoIff := get_hands_out_highest _ (headers_last packets _ sound .video) (user.outIndex + 1)
  rw [sound.saved] at audioIff videoIff
  rw [← start] at audio video
  have audioGiven : HeaderKind.audio.given user =
      (HeaderKind.audio.saved (run LiveStream.addPacket {} packets).codecHeaders).get (user.outIndex + 1) := audio
  have videoGiven : HeaderKind.video.given user =
      (HeaderKind.video.saved (run LiveStream.addPacket {} packets).codecHeaders).get (user.outIndex + 1) := video
  rw [← audioIff, ← videoIff, ← audioGiven, ← videoGiven]
  constructor
  · intro highest
    refine ⟨fun header inList => ?_, highest .audio, highest .video⟩
    by_contra low
    obtain ⟨pkt, _, given, _⟩ := highest .metadata header inList (by omega)
    cases noMeta.symm.trans given
  · rintro ⟨metaLater, audioHighest, videoHighest⟩ kind
    cases kind with
    | metadata => exact fun header inList low => absurd low (by have := metaLater header inList; omega)
    | audio => exact audioHighest
    | video => exact videoHighest

theorem frame_index_packets (packets : List Packet) :
    (run LiveStream.addPacket {} packets).frameIndex = packets.length - 1 := by
  induction packets using List.reverseRecOn with
  | nil => rfl
  | append_singleton past packet ih =>
      rw [run_snoc, add_packet_frame_index, ih, List.length_append, List.length_singleton]
      omega

theorem kept_packets_order (packets : List Packet) (few : packets.length ≤ 2147483648) :
    (keptPackets packets).Pairwise (fun earlier later => earlier.index < later.index) ∧
      ∀ pkt ∈ keptPackets packets, 0 ≤ pkt.index ∧ pkt.index < packets.length := by
  induction packets using List.reverseRecOn with
  | nil => exact ⟨.nil, fun _ impossible => absurd impossible List.not_mem_nil⟩
  | append_singleton past packet ih =>
      rw [List.length_append, List.length_singleton] at few ⊢
      obtain ⟨order, range⟩ := ih (by omega)
      have place : ((run LiveStream.addPacket {} past).stamp packet).index = past.length := by
        rw [stamp_index, frame_index_packets, Int.sub_add_cancel, to_int32_exact _ ⟨by omega, by omega⟩]
      rw [kept_packets_snoc]
      refine ⟨List.pairwise_append.mpr ⟨order, List.pairwise_singleton _ _, ?_⟩, ?_⟩
      · intro earlier inPast newest last
        rw [List.mem_singleton.mp last, place]
        exact (range earlier inPast).2
      · refine List.forall_mem_append.mpr ⟨fun pkt inPast => ?_, List.forall_mem_singleton.mpr ?_⟩
        · have := range pkt inPast
          omega
        · omega

theorem last_of_sorted (headers : List Packet)
    (order : headers.Pairwise fun earlier later => earlier.index < later.index) (last : Packet)
    (isLast : last ∈ headers.getLast?) : ∀ header ∈ headers, header.index ≤ last.index := by
  obtain ⟨front, rfl⟩ := List.getLast?_eq_some_iff.mp isLast
  intro header inList
  rcases List.mem_append.mp inList with earlier | final
  · exact Int.le_of_lt ((List.pairwise_append.mp order).2.2 header earlier last (List.mem_singleton_self _))
  · rw [List.mem_singleton.mp final]

theorem newest_is_highest_sorted (headers : List Packet) (g : Int)
    (order : headers.Pairwise fun earlier later => earlier.index < later.index)
    (low : ∀ header ∈ headers, 0 ≤ header.index) :
    NewestIsHighest headers g ↔ 0 < g ∨ (∀ header ∈ headers, g < header.index) ∨ headers.length = 1 := by
  constructor
  · intro newest
    by_contra none
    rw [not_or, not_or] at none
    obtain ⟨atZero, early, several⟩ := none
    have every : (headers.filter fun pkt => g ≤ 0 ∨ pkt.index ≤ g) = headers :=
      List.filter_eq_self.mpr fun header _ => by simp; omega
    refine early fun header inList => ?_
    by_contra below
    obtain ⟨last, isLast, lastLow, _⟩ := newest header inList (by omega)
    rw [every] at isLast
    obtain ⟨front, rfl⟩ := List.getLast?_eq_some_iff.mp isLast
    -- The last header has index 0, so none stands before it.
    cases front with
    | nil => exact several rfl
    | cons first rest =>
        have ahead := (List.pairwise_cons.mp order).1 last (List.mem_append_right _ (List.mem_singleton_self _))
        have := low first List.mem_cons_self
        omega
  · intro fine header inList below
    have inFilter : header ∈ headers.filter fun pkt => g ≤ 0 ∨ pkt.index ≤ g :=
      List.mem_filter.mpr ⟨inList, by simp [below]⟩
    obtain ⟨newest, isNewest⟩ := Option.isSome_iff_exists.mp
      (List.getLast?_isSome.mpr (List.ne_nil_of_mem inFilter))
    refine ⟨newest, isNewest, ?_, last_of_sorted _ (order.filter _) newest isNewest header inFilter⟩
    obtain ⟨inHeaders, chosen⟩ := List.mem_filter.mp (List.mem_of_getLast? isNewest)
    rcases fine with positive | later | single
    · rcases of_decide_eq_true chosen with impossible | low
      · omega
      · exact low
    · exact absurd (later header inList) (by omega)
    · obtain ⟨only, rfl⟩ := List.length_eq_one_iff.mp single
      rw [List.mem_singleton.mp inHeaders, ← List.mem_singleton.mp inList]
      exact below

theorem newest_is_highest_iff (kind : HeaderKind) (packets : List Packet) (few : packets.length ≤ 2147483648) (g : Int) :
    NewestIsHighest (headersOf kind packets) g ↔
      0 < g ∨ (∀ header ∈ headersOf kind packets, g < header.index) ∨ (headersOf kind packets).length = 1 := by
  obtain ⟨order, range⟩ := kept_packets_order packets few
  exact newest_is_highest_sorted _ g (order.filter _) fun header inList =>
    (range header (List.mem_filter.mp inList).1).1

theorem joining_headers_iff (packets : List Packet) (contentLatency : Int) (user : PlayerUser)
    (located : (run LiveStream.addPacket {} packets).locateGop { contentLatency := contentLatency } = (true, user)) :
    ((∀ kind : HeaderKind, HandsOutHighest (headersOf kind packets) (user.outIndex + 1) (kind.given user)) ↔
      (∀ header ∈ headersOf .metadata packets, user.outIndex + 1 < header.index) ∧
        NewestIsHighest (headersOf .audio packets) (user.outIndex + 1) ∧
        NewestIsHighest (headersOf .video packets) (user.outIndex + 1)) ∧
      (packets.length ≤ 2147483648 → ∀ kind g, NewestIsHighest (headersOf kind packets) g ↔
        0 < g ∨ (∀ header ∈ headersOf kind packets, g < header.index) ∨ (headersOf kind packets).length = 1) :=
  ⟨joined_headers_iff packets contentLatency user located,
    fun few kind g => newest_is_highest_iff kind packets few g⟩

def audioHeader : Packet := { type := kPacketTypeAudio, capacity := 2, body := [0xaf, 0] }

def metaMessage : Packet := { type := kPacketTypeMeta, capacity := 2, body := [2, 0] }

def joinedUser (packets : List Packet) : PlayerUser :=
  ((run LiveStream.addPacket {} packets).locateGop { contentLatency := 3000 }).2

theorem joining_headers_audio :
    (run LiveStream.addPacket {} [audioHeader, videoHeader]).locateGop { contentLatency := 3000 } =
        (true, joinedUser [audioHeader, videoHeader]) ∧
      ((∀ kind : HeaderKind, HandsOutHighest (headersOf kind [audioHeader, videoHeader])
          ((joinedUser [audioHeader, videoHeader]).outIndex + 1) (kind.given (joinedUser [audioHeader, videoHeader]))) ↔
        (∀ header ∈ headersOf .metadata [audioHeader, videoHeader],
            (joinedUser [audioHeader, videoHeader]).outIndex + 1 < header.index) ∧
          NewestIsHighest (headersOf .audio [audioHeader, videoHeader])
            ((joinedUser [audioHeader, videoHeader]).outIndex + 1) ∧
          NewestIsHighest (headersOf .video [audioHeader, videoHeader])
            ((joinedUser [audioHeader, videoHeader]).outIndex + 1)) :=
  ⟨Prod.ext (by decide) rfl,
    (joining_headers_iff [audioHeader, videoHeader] 3000 (joinedUser [audioHeader, videoHeader])
      (Prod.ext (by decide) rfl)).1⟩

-- The metadata is never handed out, and of two video headers the player that
-- starts at the first is given the second.
theorem header_not_handed_out :
    (¬ ∀ (packets : List Packet) (contentLatency : Int) (user : PlayerUser),
      (run LiveStream.addPacket {} packets).locateGop { contentLatency := contentLatency } = (true, user) →
        HandsOutHighest (headersOf .metadata packets) (user.outIndex + 1) user.metaPacket) ∧
      ¬ ∀ (packets : List Packet) (contentLatency : Int) (user : PlayerUser),
        (run LiveStream.addPacket {} packets).locateGop { contentLatency := contentLatency } = (true, user) →
          HandsOutHighest (headersOf .video packets) (user.outIndex + 1) user.videoHeader := by
  constructor
  · intro claim
    have served := claim [metaMessage, videoHeader] 3000 (joinedUser [metaMessage, videoHeader])
      (Prod.ext (by decide) rfl)
    obtain ⟨pkt, _, given, _⟩ := served _ (List.mem_singleton_self _) (by decide)
    have none : (joinedUser [metaMessage, videoHeader]).metaPacket = none := by decide
    cases none.symm.trans given
  · intro claim
    have served := claim [videoHeader, videoHeader] 3000 (joinedUser [videoHeader, videoHeader])
      (Prod.ext (by decide) rfl)
    obtain ⟨pkt, _, given, low, _⟩ := served _ List.mem_cons_self (by decide)
    have second : (joinedUser [videoHeader, videoHeader]).videoHeader.map Packet.index = some 1 := by decide
    have start : (joinedUser [videoHeader, videoHeader]).outIndex = -1 := by decide
    rw [given] at second
    have place : pkt.index = 1 := by simpa using second
    omega

end Lssvc.Live
