import Lssvc.Mmedia.Bytes

set_option autoImplicit false

namespace Lssvc.Mmedia

def kRtmpHandShakePacketSize : Nat := 1536
def kSha256DigestLength : Nat := 32
def kPlayerKeyOpenPartLen : Nat := 30
def kServerKeyOpenPartLen : Nat := 36

def rtmpServerVer : Bytes := [0x0d, 0x0e, 0x0a, 0x0d]
def rtmpClientVer : Bytes := [0x0c, 0x00, 0x0d, 0x0e]

def rtmpKeyTail : Bytes :=
  [0xF0, 0xEE, 0xC2, 0x4A, 0x80, 0x68, 0xBE, 0xE8, 0x2E, 0x00, 0xD0, 0xD1, 0x02, 0x9E, 0x7E, 0x57,
    0x6E, 0xEC, 0x5D, 0x2D, 0x29, 0x80, 0x6F, 0xAB, 0x93, 0xB8, 0xE6, 0x36, 0xCF, 0xEB, 0x31, 0xAE]

def asciiBytes (text : String) : Bytes := text.toList.map fun c => UInt8.ofNat c.toNat

def rtmpPlayerKey : Bytes := asciiBytes "Genuine Adobe Flash Player 001" ++ rtmpKeyTail
def rtmpServerKey : Bytes := asciiBytes "Genuine Adobe Flash Media Server 001" ++ rtmpKeyTail

-- memcpy into the middle of an array.
def overwrite (bytes : Bytes) (place : Nat) (data : Bytes) : Bytes :=
  bytes.take place ++ data ++ bytes.drop (place + data.length)

def slice (bytes : Bytes) (place len : Nat) : Bytes := (bytes.drop place).take len

theorem overwrite_length (bytes : Bytes) (place : Nat) (data : Bytes) (fits : place + data.length ≤ bytes.length) :
    (overwrite bytes place data).length = bytes.length := by
  simp only [overwrite, List.length_append, List.length_take, List.length_drop]
  omega

theorem overwrite_take (bytes : Bytes) (place : Nat) (data : Bytes) (inside : place ≤ bytes.length) :
    (overwrite bytes place data).take place = bytes.take place := by
  rw [overwrite, List.append_assoc]
  exact List.take_left' (List.length_take_of_le inside)

theorem overwrite_drop (bytes : Bytes) (place : Nat) (data : Bytes) (inside : place ≤ bytes.length) :
    (overwrite bytes place data).drop (place + data.length) = bytes.drop (place + data.length) := by
  rw [overwrite]
  exact List.drop_left' (by rw [List.length_append, List.length_take_of_le inside])

theorem overwrite_here (bytes : Bytes) (place : Nat) (data : Bytes) (inside : place ≤ bytes.length) :
    slice (overwrite bytes place data) place data.length = data := by
  rw [slice, overwrite, List.append_assoc, List.drop_left' (List.length_take_of_le inside)]
  exact List.take_left

theorem overwrite_before (bytes : Bytes) (place : Nat) (data : Bytes) (start len : Nat)
    (inside : place ≤ bytes.length) (before : start + len ≤ place) :
    slice (overwrite bytes place data) start len = slice bytes start len := by
  have cut (whole : Bytes) : slice whole start len = slice (whole.take place) start len := by
    rw [slice, slice, List.drop_take, List.take_take, Nat.min_eq_left (by omega)]
  rw [cut (overwrite bytes place data), overwrite_take bytes place data inside, ← cut]

theorem overwrite_after (bytes : Bytes) (place : Nat) (data : Bytes) (start len : Nat)
    (inside : place ≤ bytes.length) (after : place + data.length ≤ start) :
    slice (overwrite bytes place data) start len = slice bytes start len := by
  have cut (whole : Bytes) : slice whole start len =
      slice (whole.drop (place + data.length)) (start - (place + data.length)) len := by
    rw [slice, slice, List.drop_drop, Nat.add_sub_cancel' after]
  rw [cut (overwrite bytes place data), overwrite_drop bytes place data inside, ← cut]

theorem overwrite_tail (bytes : Bytes) (place : Nat) (data : Bytes) (inside : 1 + place ≤ bytes.length) :
    (overwrite bytes (1 + place) data).drop 1 = overwrite (bytes.drop 1) place data := by
  have long : (bytes.take (1 + place)).length = 1 + place := List.length_take_of_le inside
  rw [overwrite, overwrite, List.append_assoc, List.drop_append_of_le_length (by omega), List.drop_take,
    List.drop_drop, List.append_assoc, Nat.add_sub_cancel_left, Nat.add_assoc]

-- HMAC-SHA256 of a key and the bytes crunched.
abbrev Hmac : Type := Bytes → Bytes → { digest : Bytes // digest.length = kSha256DigestLength }

section

variable (hmac : Hmac)

def calculateDigest (src : Bytes) (gap : Nat) (key : Bytes) : Bytes :=
  if gap = 0 then (hmac key src).val
  else (hmac key (src.take gap ++ src.drop (gap + kSha256DigestLength))).val

def verifyDigest (buf : Bytes) (digestPos : Nat) (key : Bytes) : Bool :=
  slice buf digestPos kSha256DigestLength == calculateDigest hmac buf digestPos key

def getDigestOffset (buf : Bytes) (off modVal : Nat) : Nat :=
  (slice buf off 4).foldl (fun offset byte => offset + byte.toNat) 0 % modVal + (off + 4)

def openKey (client : Bool) : Bytes :=
  if client then rtmpPlayerKey.take kPlayerKeyOpenPartLen else rtmpServerKey.take kServerKeyOpenPartLen

def versionOf (client : Bool) : Bytes := if client then rtmpClientVer else rtmpServerVer

def createC1S1 (isClient isComplexHandshake : Bool) (random : Nat → UInt8) : Bytes :=
  let drawn := (List.range (kRtmpHandShakePacketSize + 1)).map random
  let packet := overwrite (overwrite drawn 0 [3]) 1 [0, 0, 0, 0]
  if isComplexHandshake then
    let offset := getDigestOffset (packet.drop 1) 8 728
    let packet := overwrite packet 5 (versionOf isClient)
    overwrite packet (1 + offset) (calculateDigest hmac (packet.drop 1) offset (openKey isClient))
  else overwrite packet 5 [0, 0, 0, 0]

-- is_complex_handshake_ afterwards, and the offset.
def checkC1S1 (isClient isComplexHandshake : Bool) (data : Bytes) : Bool × Int :=
  if data.length ≠ kRtmpHandShakePacketSize + 1 then (isComplexHandshake, -1)
  else if slice data 0 1 ≠ [3] then (isComplexHandshake, -1)
  else if slice data 5 4 = [0, 0, 0, 0] then (false, 0)
  else if isComplexHandshake then
    let handshake := data.drop 1
    let offset := getDigestOffset handshake 8 728
    if verifyDigest hmac handshake offset (openKey (!isClient)) then (true, offset)
    else
      let offset := getDigestOffset handshake 772 728
      if verifyDigest hmac handshake offset (openKey (!isClient)) then (true, offset) else (true, -1)
  else (isComplexHandshake, -1)

def wholeKey (client : Bool) : Bytes := if client then rtmpPlayerKey else rtmpServerKey

-- data is the C1 or S1 received, without the byte in front of it.
def createC2S2 (isClient isComplexHandshake : Bool) (random : Nat → UInt8) (now : Nat) (data : Bytes) (offset : Nat) :
    Bytes :=
  let drawn := (List.range kRtmpHandShakePacketSize).map random
  let packet := overwrite (overwrite drawn 0 (data.take 8)) 0 (writeUint32T now)
  if isComplexHandshake then
    let digest := calculateDigest hmac (slice data offset 32) 0 (wholeKey isClient)
    overwrite packet (kRtmpHandShakePacketSize - 32)
      (calculateDigest hmac (packet.take (kRtmpHandShakePacketSize - 32)) 0 digest)
  else packet

theorem calculate_digest_length (src : Bytes) (gap : Nat) (key : Bytes) :
    (calculateDigest hmac src gap key).length = kSha256DigestLength := by
  rw [calculateDigest]
  split
  · exact (hmac key src).property
  · exact (hmac key _).property

theorem version_length (client : Bool) : (versionOf client).length = 4 := by cases client <;> rfl

theorem version_nonzero (client : Bool) : versionOf client ≠ [0, 0, 0, 0] := by cases client <;> decide

theorem digest_offset_range (buf : Bytes) (off : Nat) :
    off + 4 ≤ getDigestOffset buf off 728 ∧ getDigestOffset buf off 728 < off + 732 := by
  have bound := Nat.mod_lt ((slice buf off 4).foldl (fun offset byte => offset + byte.toNat) 0)
    (show 0 < 728 by decide)
  rw [getDigestOffset]
  omega

-- A digest written at its own place is found there: neither the offset nor what
-- is hashed depends on it.
theorem signed_verifies (body key : Bytes) (whole : body.length = kRtmpHandShakePacketSize) :
    let offset := getDigestOffset body 8 728
    let signed := overwrite body offset (calculateDigest hmac body offset key)
    getDigestOffset signed 8 728 = offset ∧ verifyDigest hmac signed offset key = true := by
  intro offset signed
  obtain ⟨low, high⟩ : 12 ≤ offset ∧ offset < 740 := digest_offset_range body 8
  have size : kRtmpHandShakePacketSize = 1536 := rfl
  have digest := calculate_digest_length hmac body offset key
  have inside : offset ≤ body.length := by omega
  have hashed : calculateDigest hmac signed offset key = calculateDigest hmac body offset key := by
    have front := overwrite_take body offset (calculateDigest hmac body offset key) inside
    have back := overwrite_drop body offset (calculateDigest hmac body offset key) inside
    rw [digest] at back
    rw [calculateDigest, calculateDigest, if_neg (by omega), if_neg (by omega), front, back]
  refine ⟨?_, ?_⟩
  · rw [getDigestOffset, overwrite_before body offset _ 8 4 inside (by omega)]
    rfl
  · rw [verifyDigest, hashed, ← digest, overwrite_here body offset _ inside]
    exact beq_self_eq_true _

theorem create_c2s2_length (isClient isComplexHandshake : Bool) (random : Nat → UInt8) (now : Nat) (data : Bytes)
    (offset : Nat) :
    (createC2S2 hmac isClient isComplexHandshake random now data offset).length = kRtmpHandShakePacketSize := by
  let drawn := (List.range kRtmpHandShakePacketSize).map random
  let packet := overwrite (overwrite drawn 0 (data.take 8)) 0 (writeUint32T now)
  have size : kRtmpHandShakePacketSize = 1536 := rfl
  have drawnLength : drawn.length = kRtmpHandShakePacketSize := by rw [List.length_map, List.length_range]
  have copied : (overwrite drawn 0 (data.take 8)).length = kRtmpHandShakePacketSize := by
    rw [overwrite_length drawn 0 _ (by rw [drawnLength, List.length_take]; omega), drawnLength]
  have stamped : (writeUint32T now).length = 4 := rfl
  have packetLength : packet.length = kRtmpHandShakePacketSize := by
    rw [overwrite_length _ 0 _ (by rw [copied, stamped]; omega), copied]
  cases isComplexHandshake with
  | false => exact packetLength
  | true =>
      have digest := calculate_digest_length hmac (packet.take (kRtmpHandShakePacketSize - 32)) 0
        (calculateDigest hmac (slice data offset 32) 0 (wholeKey isClient))
      have digestSize : kSha256DigestLength = 32 := rfl
      exact (overwrite_length packet _ _ (by rw [digest]; omega)).trans packetLength

def plainC1S1 (random : Nat → UInt8) : Bytes :=
  overwrite (overwrite ((List.range (kRtmpHandShakePacketSize + 1)).map random) 0 [3]) 1 [0, 0, 0, 0]

def createdOffset (random : Nat → UInt8) : Nat := getDigestOffset ((plainC1S1 random).drop 1) 8 728

theorem plain_c1s1 (random : Nat → UInt8) :
    (plainC1S1 random).length = 1537 ∧ slice (plainC1S1 random) 0 1 = [3] := by
  let drawn := (List.range (kRtmpHandShakePacketSize + 1)).map random
  have drawnLength : drawn.length = 1537 := by
    rw [List.length_map, List.length_range]
    rfl
  have firstLength : (overwrite drawn 0 [3]).length = 1537 := by
    rw [overwrite_length drawn 0 [3] (by rw [drawnLength]; decide), drawnLength]
  refine ⟨?_, ?_⟩
  · exact (overwrite_length _ 1 [0, 0, 0, 0] (by rw [firstLength]; decide)).trans firstLength
  · rw [plainC1S1, overwrite_before _ 1 _ 0 1 (by rw [firstLength]; decide) (by decide)]
    exact overwrite_here drawn 0 [3] (Nat.zero_le _)

theorem check_finds_created (isClient : Bool) (random : Nat → UInt8) :
    (createC1S1 hmac isClient true random).length = kRtmpHandShakePacketSize + 1 ∧
      checkC1S1 hmac (!isClient) true (createC1S1 hmac isClient true random) = (true, (createdOffset random : Int)) := by
  let offset := createdOffset random
  let plain := plainC1S1 random
  let packet := overwrite plain 5 (versionOf isClient)
  let digest := calculateDigest hmac (packet.drop 1) offset (openKey isClient)
  have created : createC1S1 hmac isClient true random = overwrite packet (1 + offset) digest := rfl
  have size : kRtmpHandShakePacketSize = 1536 := rfl
  have digestSize : kSha256DigestLength = 32 := rfl
  have version := version_length isClient
  obtain ⟨low, high⟩ : 12 ≤ offset ∧ offset < 740 := digest_offset_range _ 8
  obtain ⟨plainLength, plainFirst⟩ : plain.length = 1537 ∧ slice plain 0 1 = [3] := plain_c1s1 random
  have digestLength : digest.length = kSha256DigestLength := calculate_digest_length hmac _ _ _
  have packetLength : packet.length = 1537 := by
    rw [overwrite_length plain 5 _ (by rw [plainLength, version]; decide), plainLength]
  have signedLength : (overwrite packet (1 + offset) digest).length = kRtmpHandShakePacketSize + 1 := by
    rw [overwrite_length packet _ _ (by omega), packetLength, size]
  have first : slice (overwrite packet (1 + offset) digest) 0 1 = [3] := by
    rw [overwrite_before packet _ _ 0 1 (by omega) (by omega), overwrite_before plain 5 _ 0 1 (by omega) (by omega),
      plainFirst]
  have versionAt : slice (overwrite packet (1 + offset) digest) 5 4 = versionOf isClient := by
    rw [overwrite_before packet _ _ 5 4 (by omega) (by omega), ← version]
    exact overwrite_here plain 5 _ (by omega)
  have sameOffset : getDigestOffset (packet.drop 1) 8 728 = offset := by
    have tail : packet.drop 1 = overwrite (plain.drop 1) 4 (versionOf isClient) := overwrite_tail plain 4 _ (by omega)
    rw [tail, getDigestOffset, overwrite_after (plain.drop 1) 4 _ 8 4 (by rw [List.length_drop]; omega) (by omega)]
    rfl
  obtain ⟨offsetFound, verified⟩ := signed_verifies hmac (packet.drop 1) (openKey isClient) (by
    rw [List.length_drop]
    omega)
  rw [sameOffset] at offsetFound verified
  have offsetHere : getDigestOffset (overwrite (packet.drop 1) offset digest) 8 728 = offset := offsetFound
  have tail : (overwrite packet (1 + offset) digest).drop 1 = overwrite (packet.drop 1) offset digest :=
    overwrite_tail packet offset digest (by omega)
  rw [created]
  refine ⟨signedLength, ?_⟩
  rw [checkC1S1, if_neg (fun short => short signedLength), first, if_neg (fun other => other rfl), versionAt,
    if_neg (version_nonzero isClient), if_pos rfl, tail]
  dsimp only
  rw [offsetHere, Bool.not_not]
  exact if_pos verified

theorem check_accepts_created (isClient : Bool) (random : Nat → UInt8) :
    (createC1S1 hmac isClient true random).length = kRtmpHandShakePacketSize + 1 ∧
      ∃ offset : Nat, checkC1S1 hmac (!isClient) true (createC1S1 hmac isClient true random) = (true, (offset : Int)) :=
  ⟨(check_finds_created hmac isClient random).1, createdOffset random, (check_finds_created hmac isClient random).2⟩

theorem created_digest (isClient : Bool) (random : Nat → UInt8) :
    let versioned := (overwrite (plainC1S1 random) 5 (versionOf isClient)).drop 1
    slice ((createC1S1 hmac isClient true random).drop 1) (createdOffset random) kSha256DigestLength =
      calculateDigest hmac versioned (createdOffset random) (openKey isClient) := by
  intro versioned
  have size : kSha256DigestLength = 32 := rfl
  have version := version_length isClient
  obtain ⟨low, high⟩ : 12 ≤ createdOffset random ∧ createdOffset random < 740 := digest_offset_range _ 8
  have digest := calculate_digest_length hmac versioned (createdOffset random) (openKey isClient)
  have plain := (plain_c1s1 random).1
  have whole : (overwrite (plainC1S1 random) 5 (versionOf isClient)).length = 1537 := by
    rw [overwrite_length _ 5 _ (by omega), plain]
  have tail : (createC1S1 hmac isClient true random).drop 1 =
      overwrite versioned (createdOffset random) (calculateDigest hmac versioned (createdOffset random) (openKey isClient)) :=
    overwrite_tail (overwrite (plainC1S1 random) 5 (versionOf isClient)) (createdOffset random) _ (by omega)
  rw [tail, ← digest]
  exact overwrite_here versioned _ _ (by rw [List.length_drop]; omega)

theorem complex_digest_agrees (isClient : Bool) (random : Nat → UInt8) (packet : Bytes) :
    (checkC1S1 hmac (!isClient) true (createC1S1 hmac isClient true random) = (true, (createdOffset random : Int)) ∧
      0 < createdOffset random ∧
      slice ((createC1S1 hmac isClient true random).drop 1) (createdOffset random) kSha256DigestLength =
        calculateDigest hmac ((overwrite (plainC1S1 random) 5 (versionOf isClient)).drop 1) (createdOffset random)
          (openKey isClient)) ∧
    (12 ≤ getDigestOffset packet 8 728 ∧ getDigestOffset packet 8 728 + 32 ≤ kRtmpHandShakePacketSize) ∧
    (12 ≤ getDigestOffset packet 772 728 ∧ getDigestOffset packet 772 728 + 32 ≤ kRtmpHandShakePacketSize) := by
  have size : kRtmpHandShakePacketSize = 1536 := rfl
  obtain ⟨here, _⟩ : 12 ≤ createdOffset random ∧ createdOffset random < 740 := digest_offset_range _ 8
  obtain ⟨low, high⟩ := digest_offset_range packet 8
  obtain ⟨low', high'⟩ := digest_offset_range packet 772
  exact ⟨⟨(check_finds_created hmac isClient random).2, by omega, created_digest hmac isClient random⟩,
    ⟨by omega, by omega⟩, by omega, by omega⟩

end

end Lssvc.Mmedia
