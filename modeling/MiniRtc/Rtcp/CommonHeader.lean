import MiniRtc.Rtcp.Wire

/-!
# The common header of RTCP packets

`RtcpCommonHeader` of `rtcp_common_header.cpp`. `Parse` gives the header of the packet at the start
of a buffer, with the pointer to its payload, or it rejects the buffer.

An `RtcpBlock` is a packet as it stands in a buffer: type, format, payload and padding that fit
together. `parse_block` says that its header is parsed as it is, and `block_of_parse` that `Parse`
accepts nothing else.
-/

namespace MiniRtc

open Wire

/-- `RtcpCommonHeader`, where the payload is the buffer from its first byte on. -/
structure RtcpCommonHeader where
  packetType : Byte
  countOrFormat : Byte
  paddingSize : Nat
  payloadSize : Nat
  payload : List Byte
  deriving DecidableEq

namespace RtcpCommonHeader

/-- `kHeaderSizeBytes`. -/
def kHeaderSizeBytes : Nat := 4

/-- `Create`. -/
def create (version hasPadding countOrFormat payloadType : Byte)
    (lengthInWordsMinusOne : BitVec 16) : List Byte :=
  [(version <<< 6) ||| (hasPadding <<< 5) ||| countOrFormat, payloadType] ++
    bytesOfUint16 lengthInWordsMinusOne

/-- `Parse` behind the length check: the padding is taken off the payload. -/
def parsePadding (hasPadding : Bool) (packetType countOrFormat : Byte) (payloadSize : Nat)
    (payload : List Byte) : Option (Option RtcpCommonHeader) :=
  if hasPadding then
    if payloadSize = 0 then some none
    else
      match payload[payloadSize - 1]? with
      | none => none
      | some paddingSize =>
          if paddingSize = 0 then some none
          else if payloadSize < paddingSize.toNat then some none
          else
            some (some
              { packetType
                countOrFormat
                paddingSize := paddingSize.toNat
                payloadSize := payloadSize - paddingSize.toNat
                payload })
  else
    some (some
      { packetType
        countOrFormat
        paddingSize := 0
        payloadSize
        payload })

/-- `Parse`: `some none` rejects the buffer, and `none` has read outside of it. -/
def parse (buffer : List Byte) (sizeBytes : Nat) : Option (Option RtcpCommonHeader) :=
  if sizeBytes < kHeaderSizeBytes then some none
  else do
    let (first, p) ← takeUint8 buffer
    if first >>> 6 ≠ 2 then some none
    else do
      let (packetType, p) ← takeUint8 p
      let (length, payload) ← takeUint16 p
      if sizeBytes < kHeaderSizeBytes + length.toNat * 4 then some none
      else
        parsePadding (first &&& 0x20 != 0) packetType (first &&& 0x1F) (length.toNat * 4) payload

/-- `packet_size`. -/
def packetSize (h : RtcpCommonHeader) : Nat :=
  kHeaderSizeBytes + h.payloadSize + h.paddingSize

/-- `NextPacket`. -/
def nextPacket (h : RtcpCommonHeader) : List Byte :=
  h.payload.drop (h.payloadSize + h.paddingSize)

end RtcpCommonHeader

/-- A packet in a buffer. The last byte of a padding is its length. -/
structure RtcpBlock where
  packetType : Byte
  countOrFormat : BitVec 5
  payload : List Byte
  padding : List Byte := []
  aligned : 4 ∣ payload.length + padding.length
  fits : payload.length + padding.length < 4 * 2 ^ 16
  counted : ∀ last ∈ padding.getLast?, last.toNat = padding.length

namespace RtcpBlock

/-- Without padding there is nothing to count. -/
theorem counted_nil : ∀ last ∈ ([] : List Byte).getLast?, last.toNat = ([] : List Byte).length :=
  fun _ h => nomatch h

/-- The first byte: version, padding bit and format. -/
def firstByte (b : RtcpBlock) : Byte :=
  (2 : Byte) <<< 6 ||| (if b.padding = [] then (0 : Byte) else 1) <<< 5 |||
    b.countOrFormat.setWidth 8

/-- The number of words behind the first one. -/
def words (b : RtcpBlock) : BitVec 16 :=
  BitVec.ofNat 16 ((b.payload.length + b.padding.length) / 4)

/-- The bytes of a packet. -/
def bytes (b : RtcpBlock) : List Byte :=
  [b.firstByte, b.packetType] ++ bytesOfUint16 b.words ++ b.payload ++ b.padding

/-- The header of a packet that more bytes follow. -/
def header (b : RtcpBlock) (rest : List Byte) : RtcpCommonHeader where
  packetType := b.packetType
  countOrFormat := b.countOrFormat.setWidth 8
  paddingSize := b.padding.length
  payloadSize := b.payload.length
  payload := b.payload ++ b.padding ++ rest

end RtcpBlock

open RtcpCommonHeader

/-! ## Packets and their headers -/

theorem RtcpBlock.first_byte_fields (b : RtcpBlock) :
    b.firstByte >>> 6 = 2 ∧ (b.firstByte &&& 0x20 != 0) = decide (b.padding ≠ []) ∧
      b.firstByte &&& 0x1F = b.countOrFormat.setWidth 8 := by
  unfold RtcpBlock.firstByte
  generalize b.countOrFormat = format
  by_cases hpadding : b.padding = []
  · simp only [hpadding, if_true, ne_eq, not_true_eq_false, decide_false]
    revert format
    decide
  · simp only [hpadding, if_false, ne_eq, not_false_eq_true, decide_true]
    revert format
    decide

theorem RtcpBlock.words_to_nat (b : RtcpBlock) :
    b.words.toNat * 4 = b.payload.length + b.padding.length := by
  have hfits := b.fits
  have haligned := Nat.div_mul_cancel b.aligned
  rw [RtcpBlock.words, BitVec.toNat_ofNat, Nat.mod_eq_of_lt (by omega), haligned]

theorem RtcpBlock.bytes_length (b : RtcpBlock) :
    b.bytes.length = kHeaderSizeBytes + b.payload.length + b.padding.length := by
  simp [RtcpBlock.bytes, kHeaderSizeBytes]
  omega

/-- What `Create` writes before the payload of a packet without padding, for the size of the
packet. -/
theorem RtcpBlock.create_eq (b : RtcpBlock) (hpadding : b.padding = []) {bufferSize : Nat}
    (hsize : bufferSize = kHeaderSizeBytes + b.payload.length) :
    create 2 0 (b.countOrFormat.setWidth 8) b.packetType
        (BitVec.ofNat 16 ((bufferSize - kHeaderSizeBytes) / 4)) ++ b.payload = b.bytes := by
  rw [hsize, Nat.add_sub_cancel_left]
  simp [RtcpBlock.bytes, RtcpBlock.firstByte, RtcpBlock.words, RtcpCommonHeader.create, hpadding]

/-- A padding is as long as its last byte says. -/
theorem parse_padding_block (b : RtcpBlock) (rest : List Byte) :
    parsePadding (decide (b.padding ≠ [])) b.packetType (b.countOrFormat.setWidth 8)
        (b.payload.length + b.padding.length) (b.payload ++ b.padding ++ rest) =
      some (some (b.header rest)) := by
  unfold parsePadding
  by_cases hpadding : b.padding = []
  · simp [hpadding, RtcpBlock.header]
  · have hpos : 0 < b.padding.length := List.length_pos_of_ne_nil hpadding
    obtain ⟨last, hlast⟩ := Option.ne_none_iff_exists'.mp
      (mt List.getLast?_eq_none_iff.mp hpadding)
    have hcount : last.toNat = b.padding.length := b.counted last hlast
    have hread : (b.payload ++ b.padding ++ rest)[b.payload.length + b.padding.length - 1]? =
        some last := by
      rw [List.append_assoc, List.getElem?_append_right (by omega),
        List.getElem?_append_left (by omega), ← hlast, List.getLast?_eq_getElem?]
      congr 1
      omega
    have hne : last ≠ 0 := by
      rintro rfl
      simp at hcount
      omega
    simp only [ne_eq, hpadding, not_false_eq_true, decide_true, if_true, hread]
    rw [if_neg (by omega), if_neg hne, if_neg (by omega), hcount, Nat.add_sub_cancel]
    rfl

/-- The header of a packet is parsed as it is. -/
theorem parse_block (b : RtcpBlock) (rest : List Byte) :
    parse (b.bytes ++ rest) (b.bytes ++ rest).length = some (some (b.header rest)) := by
  obtain ⟨hversion, hpadding, hformat⟩ := b.first_byte_fields
  have hlength : (b.bytes ++ rest).length =
      kHeaderSizeBytes + (b.payload.length + b.padding.length) + rest.length := by
    rw [List.length_append, b.bytes_length]
    omega
  have hbytes : b.bytes ++ rest = b.firstByte :: b.packetType ::
      (bytesOfUint16 b.words ++ (b.payload ++ b.padding ++ rest)) := by
    simp [RtcpBlock.bytes]
  rw [hlength, hbytes]
  unfold parse
  rw [if_neg (by omega)]
  simp only [take_uint8_cons, Option.bind_eq_bind, Option.bind_some, hversion, ne_eq,
    not_true_eq_false, if_false, take_uint16_bytes, b.words_to_nat, hpadding, hformat]
  rw [if_neg (by omega)]
  exact parse_padding_block b rest

/-! ## What is accepted -/

/-- No read of the padding is outside of a payload that fits. -/
theorem parse_padding_inside {hasPadding : Bool} {packetType format : Byte} {payloadSize : Nat}
    {payload : List Byte} (h : payloadSize ≤ payload.length) :
    parsePadding hasPadding packetType format payloadSize payload ≠ none := by
  unfold parsePadding
  split_ifs with hpadding hempty
  · simp
  · rw [List.getElem?_eq_getElem (by omega)]
    dsimp only
    split_ifs <;> simp
  · simp

/-- `Parse` reads inside of its buffer. -/
theorem parse_inside (buffer : List Byte) : parse buffer buffer.length ≠ none := by
  unfold parse
  split_ifs with hshort
  · simp
  · have hfour : 4 ≤ buffer.length := by
      simp only [kHeaderSizeBytes] at hshort
      omega
    match buffer, hfour with
    | a :: b :: c :: d :: rest, _ =>
        simp only [takeUint8, takeUint16, Option.bind_eq_bind, Option.bind_some]
        split_ifs with hversion hsize
        · simp
        · simp
        · refine parse_padding_inside ?_
          simp only [kHeaderSizeBytes, List.length_cons] at hsize
          omega

/-- The first byte of a packet of this version is its padding bit and its format. -/
theorem first_byte_eq (a : Byte) (hversion : a >>> 6 = 2) :
    a = (2 : Byte) <<< 6 ||| (if (a &&& 0x20 != 0) = true then (1 : Byte) else 0) <<< 5 |||
      (a.setWidth 5).setWidth 8 ∧ a &&& 0x1F = (a.setWidth 5).setWidth 8 := by
  revert a
  decide

/-- What is left of a payload after its padding, and the padding. -/
theorem parse_padding_cases {hasPadding : Bool} {packetType format : Byte} {payloadSize : Nat}
    {p : List Byte} {h : RtcpCommonHeader} (hsize : payloadSize ≤ p.length)
    (hparse : parsePadding hasPadding packetType format payloadSize p = some (some h)) :
    ∃ payload padding rest, p = payload ++ padding ++ rest ∧
      payload.length + padding.length = payloadSize ∧ (padding ≠ [] ↔ hasPadding = true) ∧
      (∀ last ∈ padding.getLast?, last.toNat = padding.length) ∧
      h = ⟨packetType, format, padding.length, payload.length, p⟩ := by
  unfold parsePadding at hparse
  split_ifs at hparse with hpadding hempty
  · simp at hparse
  · rw [List.getElem?_eq_getElem (by omega)] at hparse
    -- the last byte of the packet says how much of it is padding
    generalize hcount : p[payloadSize - 1] = count at hparse
    dsimp only at hparse
    by_cases hzero : count = 0
    · simp [hzero] at hparse
    rw [if_neg hzero] at hparse
    by_cases hlong : payloadSize < count.toNat
    · simp [hlong] at hparse
    rw [if_neg hlong] at hparse
    obtain rfl := Option.some.inj (Option.some.inj hparse)
    have hpos : 0 < count.toNat := Nat.pos_of_ne_zero fun hnone =>
      hzero (BitVec.eq_of_toNat_eq hnone)
    have hlength : ((p.drop (payloadSize - count.toNat)).take count.toNat).length =
        count.toNat := by
      simp only [List.length_take, List.length_drop]
      omega
    refine ⟨p.take (payloadSize - count.toNat),
      (p.drop (payloadSize - count.toNat)).take count.toNat, p.drop payloadSize, ?_, ?_, ?_, ?_,
      ?_⟩
    · have hrest : p.drop payloadSize =
          (p.drop (payloadSize - count.toNat)).drop count.toNat := by
        rw [List.drop_drop]
        congr 1
        omega
      rw [hrest, List.append_assoc, List.take_append_drop, List.take_append_drop]
    · rw [hlength, List.length_take]
      omega
    · exact iff_of_true (List.ne_nil_of_length_pos (by omega)) hpadding
    · intro last hlast
      have hread : ((p.drop (payloadSize - count.toNat)).take count.toNat).getLast? =
          some count := by
        rw [List.getLast?_eq_getElem?, hlength, List.getElem?_take_of_lt (by omega),
          List.getElem?_drop, show payloadSize - count.toNat + (count.toNat - 1) =
            payloadSize - 1 by omega, List.getElem?_eq_getElem (by omega), hcount]
      rw [hread] at hlast
      obtain rfl := Option.some.inj hlast
      exact hlength.symm
    · rw [hlength, List.length_take, Nat.min_eq_left (by omega)]
  · obtain rfl := Option.some.inj (Option.some.inj hparse)
    refine ⟨p.take payloadSize, [], p.drop payloadSize, ?_, ?_, ?_, ?_, ?_⟩
    · rw [List.append_nil, List.take_append_drop]
    · simp [hsize]
    · simp [hpadding]
    · simp
    · simp [hsize]

/-- A buffer that is accepted starts with a packet. -/
theorem block_of_parse {buffer : List Byte} {h : RtcpCommonHeader}
    (hparse : parse buffer buffer.length = some (some h)) :
    ∃ (b : RtcpBlock) (rest : List Byte), buffer = b.bytes ++ rest ∧ h = b.header rest := by
  unfold parse at hparse
  by_cases hshort : buffer.length < kHeaderSizeBytes
  · simp [hshort] at hparse
  rw [if_neg hshort] at hparse
  have hfour : 4 ≤ buffer.length := Nat.le_of_not_lt hshort
  match buffer, hfour with
  | a :: type :: c :: d :: p, _ =>
      simp only [takeUint8, takeUint16, Option.bind_eq_bind, Option.bind_some] at hparse
      by_cases hversion : a >>> 6 = 2
      swap
      · rw [if_pos hversion] at hparse
        simp at hparse
      rw [if_neg (not_not.mpr hversion)] at hparse
      by_cases hsize : (a :: type :: c :: d :: p).length < kHeaderSizeBytes + (c ++ d).toNat * 4
      · rw [if_pos hsize] at hparse
        simp at hparse
      rw [if_neg hsize] at hparse
      have hroom : (c ++ d).toNat * 4 ≤ p.length := by
        simp only [kHeaderSizeBytes, List.length_cons] at hsize
        omega
      obtain ⟨hfirst, hformat⟩ := first_byte_eq a hversion
      obtain ⟨payload, padding, rest, rfl, htotal, hpadded, hcounted, rfl⟩ :=
        parse_padding_cases hroom hparse
      have hwords : BitVec.ofNat 16 ((payload.length + padding.length) / 4) = c ++ d := by
        rw [htotal, Nat.mul_div_cancel _ (by decide)]
        exact (BitVec.ofNat_toNat 16 _).trans (BitVec.setWidth_eq _)
      have hlength : (c ++ d).toNat < 2 ^ 16 := (c ++ d).isLt
      refine ⟨
        { packetType := type
          countOrFormat := a.setWidth 5
          payload
          padding
          aligned := by
            rw [htotal]
            exact Nat.dvd_mul_left 4 _
          fits := by omega
          counted := hcounted }, rest, ?_, ?_⟩
      · have hbit : (if padding = [] then (0 : Byte) else 1) =
            if (a &&& 0x20 != 0) = true then 1 else 0 := by
          by_cases hnone : padding = []
          · rw [if_pos hnone, if_neg (fun hset => hpadded.mpr hset hnone)]
          · rw [if_neg hnone, if_pos (hpadded.mp hnone)]
        simp only [RtcpBlock.bytes, RtcpBlock.firstByte, RtcpBlock.words, hbit, ← hfirst, hwords,
          bytes_of_append]
        simp
      · rw [hformat]
        rfl

/-- A packet that is cut off is rejected. -/
theorem parse_truncated (b : RtcpBlock) {p cut : List Byte} (hbytes : b.bytes = p ++ cut)
    (hcut : cut ≠ []) : parse p p.length = some none := by
  have hpos := List.length_pos_of_ne_nil hcut
  have hlength := congrArg List.length hbytes
  rw [b.bytes_length, List.length_append] at hlength
  unfold parse
  by_cases hshort : p.length < kHeaderSizeBytes
  · rw [if_pos hshort]
  · obtain ⟨q, rfl⟩ : ∃ q, p = b.firstByte :: b.packetType :: (bytesOfUint16 b.words ++ q) := by
      refine ⟨p.drop 4, ?_⟩
      have htake : p.take 4 = b.bytes.take 4 := by
        have hfour : 4 ≤ p.length := Nat.le_of_not_lt hshort
        rw [hbytes, List.take_append_of_le_length hfour]
      calc p = p.take 4 ++ p.drop 4 := (List.take_append_drop 4 p).symm
        _ = b.bytes.take 4 ++ p.drop 4 := by rw [htake]
        _ = b.firstByte :: b.packetType :: (bytesOfUint16 b.words ++ p.drop 4) := by
          simp [RtcpBlock.bytes, bytesOfUint16]
    rw [if_neg hshort]
    simp only [take_uint8_cons, take_uint16_bytes, Option.bind_eq_bind, Option.bind_some,
      b.first_byte_fields.1, ne_eq, not_true_eq_false, if_false]
    rw [if_pos]
    rw [b.words_to_nat]
    omega

end MiniRtc
