import Mathlib.Data.BitVec
import Mathlib.Tactic.Ring

/-!
# RTP packets

`RtpPacket` of `rtp_packet.cpp`. `Parse` reads the datagram through a function `read` that gives
the byte at an offset, and writes the fields of the packet as it goes, so that a packet keeps
what was written before a failure. A datagram is a list of bytes, and `build` is `Build`.

`headerBytes` and `absoluteSendTimeExtension` are the header and the extension block that the
packetizers write in front of a payload. The main result, `build_packet`, says that parsing
such a datagram gives the values back.
-/

namespace MiniRtc

/-- `uint8_t`. -/
abbrev Byte := BitVec 8

/-- `kFixedHeaderSize`. -/
def kFixedHeaderSize : Nat := 12

/-- `kRtpVersion`. -/
def kRtpVersion : Byte := 2

/-- `kMaxRtpCsrcSize`. -/
def kMaxRtpCsrcSize : Nat := 15

/-- `kOneByteExtensionProfileId`. -/
def kOneByteExtensionProfileId : BitVec 16 := 0xBEDE

/-- `MAX_NALU_LEN`, the most payload bytes of one packet. -/
def maxNaluLen : Nat := 1150

/-- The values of `rtp::PAYLOAD_TYPE` in use. The type of a received packet is any 7-bit number. -/
def payloadTypeUndefined : Byte := 0

/-- `PAYLOAD_TYPE::H264`. -/
def payloadTypeH264 : Byte := 96

/-- `PAYLOAD_TYPE::AV1`. -/
def payloadTypeAv1 : Byte := 99

/-- `PAYLOAD_TYPE::RTX`. -/
def payloadTypeRtx : Byte := 127

/-- `RtpPacket::Extension`. -/
structure Extension where
  id : Byte
  len : Nat
  dataOffset : Nat
  data : List Byte
  deriving DecidableEq

/-- `RtpPacket`. -/
structure RtpPacket where
  version : Byte := 0
  hasPadding : Bool := false
  hasExtension : Bool := false
  csrcCount : Nat := 0
  marker : Bool := false
  payloadType : Byte := 0
  sequenceNumber : BitVec 16 := 1
  timestamp : BitVec 32 := 0
  ssrc : BitVec 32 := 0
  csrcs : List (BitVec 32) := []
  extensionProfile : BitVec 16 := 0
  extensionLen : BitVec 16 := 0
  extensions : List Extension := []
  payloadOffset : Nat := 0
  payloadSize : Nat := 0
  paddingSize : Nat := 0
  buffer : List Byte := []
  size : Nat := 0
  deriving DecidableEq

/-- The byte at an offset of a datagram. -/
def byteAt (buffer : List Byte) (offset : Nat) : Byte :=
  buffer.getD offset 0

/-- The 16-bit number in network byte order at an offset. -/
def readUint16 (read : Nat → Byte) (offset : Nat) : BitVec 16 :=
  read offset ++ read (offset + 1)

/-- The 32-bit number in network byte order at an offset. -/
def readUint32 (read : Nat → Byte) (offset : Nat) : BitVec 32 :=
  read offset ++ read (offset + 1) ++ read (offset + 2) ++ read (offset + 3)

namespace RtpPacket

/-- The loop over the elements of a one-byte extension block. Every round advances, so
`fuel` rounds are enough for a block of `fuel` bytes. -/
def parseOneByteExtensions (read : Nat → Byte) (extensionEnd : Nat) :
    Nat → Nat → List Extension → List Extension × Bool
  | 0, _, extensions => (extensions, true)
  | fuel + 1, offset, extensions =>
      if offset < extensionEnd then
        let id := read offset >>> 4
        if id = 0 then parseOneByteExtensions read extensionEnd fuel (offset + 1) extensions
        else if id = 15 then (extensions, true)
        else
          let len := (read offset &&& 0x0F).toNat + 1
          if offset + 1 + len > extensionEnd then (extensions, false)
          else
            let extension :=
              { id
                len
                dataOffset := offset + 1
                data := (List.range len).map fun i => read (offset + 1 + i) }
            parseOneByteExtensions read extensionEnd fuel (offset + 1 + len)
              (extensions ++ [extension])
      else (extensions, true)

/-- The part of `Parse` for the fixed header and the contributing sources. -/
def parseFixedHeader (p : RtpPacket) (read : Nat → Byte) (size : Nat) : RtpPacket × Bool :=
  let p := { p with payloadOffset := 0, csrcs := [], extensions := [] }
  if size < kFixedHeaderSize then (p, false)
  else
    let p := { p with version := (read 0 >>> 6) &&& 0x03 }
    if p.version ≠ kRtpVersion then (p, false)
    else
      let p :=
        { p with
          hasPadding := (read 0).getLsbD 5
          hasExtension := (read 0).getLsbD 4
          csrcCount := (read 0 &&& 0x0f).toNat }
      if p.csrcCount > kMaxRtpCsrcSize then (p, false)
      else
        let p :=
          { p with
            marker := (read 1).getLsbD 7
            payloadType := read 1 &&& 0x7f
            sequenceNumber := readUint16 read 2
            timestamp := readUint32 read 4
            ssrc := readUint32 read 8
            payloadOffset := kFixedHeaderSize }
        if kFixedHeaderSize + p.csrcCount * 4 > size then (p, false)
        else
          ({ p with
              csrcs :=
                (List.range p.csrcCount).map fun i => readUint32 read (kFixedHeaderSize + i * 4)
              payloadOffset := kFixedHeaderSize + p.csrcCount * 4 }, true)

/-- The part of `Parse` for the extension block. -/
def parseExtensionBlock (p : RtpPacket) (read : Nat → Byte) (size : Nat) : RtpPacket × Bool :=
  if !p.hasExtension then (p, true)
  else if p.payloadOffset + 4 > size then (p, false)
  else
    let p :=
      { p with
        extensionProfile := readUint16 read p.payloadOffset
        extensionLen := readUint16 read (p.payloadOffset + 2)
        payloadOffset := p.payloadOffset + 4 }
    let totalExtLen := p.extensionLen.toNat * 4
    if p.payloadOffset + totalExtLen > size then (p, false)
    else
      let result :=
        if p.extensionProfile = kOneByteExtensionProfileId then
          parseOneByteExtensions read (p.payloadOffset + totalExtLen) totalExtLen
            p.payloadOffset p.extensions
        else (p.extensions, true)
      let p := { p with extensions := result.1 }
      if !result.2 then (p, false)
      else ({ p with payloadOffset := p.payloadOffset + totalExtLen }, true)

/-- The part of `Parse` for padding and payload. -/
def parsePayload (p : RtpPacket) (read : Nat → Byte) (size : Nat) : RtpPacket × Bool :=
  let p :=
    if p.hasPadding ∧ p.payloadOffset < size then
      let p := { p with paddingSize := (read (size - 1)).toNat }
      if p.paddingSize = 0 then { p with hasPadding := false } else p
    else { p with paddingSize := 0 }
  if p.payloadOffset + p.paddingSize > size then (p, false)
  else ({ p with payloadSize := size - p.payloadOffset - p.paddingSize }, true)

/-- `RtpPacket::Parse`. -/
def parse (p : RtpPacket) (read : Nat → Byte) (size : Nat) : RtpPacket × Bool :=
  let fixed := p.parseFixedHeader read size
  if !fixed.2 then (fixed.1, false)
  else
    let extended := fixed.1.parseExtensionBlock read size
    if !extended.2 then (extended.1, false)
    else extended.1.parsePayload read size

/-- `RtpPacket::Build`. -/
def build (p : RtpPacket) (buffer : List Byte) : RtpPacket × Bool :=
  let parsed := p.parse (byteAt buffer) buffer.length
  if !parsed.2 then (parsed.1, false)
  else ({ parsed.1 with buffer, size := buffer.length }, true)

/-- `Build` on a new packet, which nobody looks at when it fails. -/
def ofBuffer (buffer : List Byte) : Option RtpPacket :=
  let built := build {} buffer
  if built.2 then some built.1 else none

/-- The bytes from `Payload()` on, as many as `PayloadSize()` says. -/
def payload (p : RtpPacket) : List Byte :=
  (p.buffer.drop p.payloadOffset).take p.payloadSize

/-- `add_offset_to_payload`. -/
def addOffsetToPayload (p : RtpPacket) (offset : Nat) : RtpPacket :=
  { p with payloadOffset := p.payloadOffset + offset, payloadSize := p.payloadSize - offset }

/-- Moving the start of the payload drops its first bytes. -/
theorem payload_add_offset (p : RtpPacket) (offset : Nat) :
    (p.addOffsetToPayload offset).payload = p.payload.drop offset := by
  simp only [payload, addOffsetToPayload]
  rw [List.drop_take, List.drop_drop]

end RtpPacket

/-! ## What the packetizers write -/

/-- `IsValidOneByteExtensionId`. -/
def isValidOneByteExtensionId (id : Byte) : Bool :=
  decide (1 ≤ id.toNat ∧ id.toNat ≤ 14)

/-- An extension id that a packetizer accepts. -/
abbrev ExtensionId := { id : Byte // isValidOneByteExtensionId id = true }

/-- `SetAbsoluteSendTimeExtensionId`: an invalid id switches the extension off. -/
def setAbsoluteSendTimeExtensionId (extensionId : Option Byte) : Option ExtensionId :=
  match extensionId with
  | none => none
  | some id => if h : isValidOneByteExtensionId id = true then some ⟨id, h⟩ else none

/-- `AppendAbsoluteSendTimeExtension`: one extension of three bytes, which are written when the
packet is sent. -/
def absoluteSendTimeExtension : Option ExtensionId → List Byte
  | none => []
  | some id => [0xBE, 0xDE, 0, 1, (id.val <<< 4) ||| 2, 0, 0, 0]

/-- The two bytes of a 16-bit number in network byte order. -/
def bytesOfUint16 (x : BitVec 16) : List Byte :=
  [x.extractLsb' 8 8, x.extractLsb' 0 8]

/-- The four bytes of a 32-bit number in network byte order. -/
def bytesOfUint32 (x : BitVec 32) : List Byte :=
  [x.extractLsb' 24 8, x.extractLsb' 16 8, x.extractLsb' 8 8, x.extractLsb' 0 8]

/-- The fixed header without contributing sources. -/
def headerBytes (hasPadding hasExtension marker : Bool) (payloadType : Byte)
    (sequenceNumber : BitVec 16) (timestamp ssrc : BitVec 32) : List Byte :=
  [(kRtpVersion <<< 6) ||| ((BitVec.ofBool hasPadding).setWidth 8 <<< 5) |||
      ((BitVec.ofBool hasExtension).setWidth 8 <<< 4),
    ((BitVec.ofBool marker).setWidth 8 <<< 7) ||| payloadType] ++
    bytesOfUint16 sequenceNumber ++ bytesOfUint32 timestamp ++ bytesOfUint32 ssrc

/-- The bytes of a 16-bit number put together. -/
theorem append_bytes_of_uint16 (x : BitVec 16) :
    x.extractLsb' 8 8 ++ x.extractLsb' 0 8 = x := by
  have h : x.extractLsb' 8 8 ++ x.extractLsb' 0 8 = x.extractLsb' 0 (8 + 8) :=
    BitVec.extractLsb'_append_extractLsb'_eq_extractLsb' (by decide)
  rw [h]
  exact BitVec.extractLsb'_eq_self

/-- The bytes of a 32-bit number put together. -/
theorem append_bytes_of_uint32 (x : BitVec 32) :
    x.extractLsb' 24 8 ++ x.extractLsb' 16 8 ++ x.extractLsb' 8 8 ++ x.extractLsb' 0 8 = x := by
  have h1 : x.extractLsb' 24 8 ++ x.extractLsb' 16 8 = x.extractLsb' 16 (8 + 8) :=
    BitVec.extractLsb'_append_extractLsb'_eq_extractLsb' (by decide)
  have h2 : x.extractLsb' 16 (8 + 8) ++ x.extractLsb' 8 8 = x.extractLsb' 8 (8 + 8 + 8) :=
    BitVec.extractLsb'_append_extractLsb'_eq_extractLsb' (by decide)
  have h3 : x.extractLsb' 8 (8 + 8 + 8) ++ x.extractLsb' 0 8 =
      x.extractLsb' 0 (8 + 8 + 8 + 8) :=
    BitVec.extractLsb'_append_extractLsb'_eq_extractLsb' (by decide)
  rw [h1, h2, h3]
  exact BitVec.extractLsb'_eq_self

/-- What a parsed packet says about the datagram that a packetizer wrote. -/
structure Carries (p : RtpPacket) (marker : Bool) (payloadType : Byte)
    (sequenceNumber : BitVec 16) (timestamp ssrc : BitVec 32) (body : List Byte) : Prop where
  marker : p.marker = marker
  payloadType : p.payloadType = payloadType
  sequenceNumber : p.sequenceNumber = sequenceNumber
  timestamp : p.timestamp = timestamp
  ssrc : p.ssrc = ssrc
  payload : p.payload = body
  payloadSize : p.payloadSize = body.length

/-- The flags of the first byte. -/
theorem first_byte_fields (hasPadding hasExtension : Bool) :
    let first := (kRtpVersion <<< 6) ||| ((BitVec.ofBool hasPadding).setWidth 8 <<< 5) |||
      ((BitVec.ofBool hasExtension).setWidth 8 <<< 4)
    (first >>> 6) &&& 0x03 = kRtpVersion ∧ first.getLsbD 5 = hasPadding ∧
      first.getLsbD 4 = hasExtension ∧ (first &&& 0x0f).toNat = 0 := by
  cases hasPadding <;> cases hasExtension <;> decide

/-- Marker and payload type share the second byte. -/
theorem second_byte_fields (marker : Bool) (payloadType : Byte)
    (htype : payloadType.getLsbD 7 = false) :
    let second := ((BitVec.ofBool marker).setWidth 8 <<< 7) ||| payloadType
    second.getLsbD 7 = marker ∧ second &&& 0x7f = payloadType := by
  revert marker payloadType
  decide

/-- The fixed header of a packet without contributing sources. -/
theorem parse_fixed_header (p : RtpPacket) (hasPadding hasExtension marker : Bool)
    {payloadType : Byte} (htype : payloadType.getLsbD 7 = false) (sequenceNumber : BitVec 16)
    (timestamp ssrc : BitVec 32) (rest : List Byte) :
    let buffer := headerBytes hasPadding hasExtension marker payloadType sequenceNumber timestamp
      ssrc ++ rest
    p.parseFixedHeader (byteAt buffer) buffer.length =
      ({ p with
          version := kRtpVersion
          hasPadding
          hasExtension
          csrcCount := 0
          marker
          payloadType
          sequenceNumber
          timestamp
          ssrc
          csrcs := []
          extensions := []
          payloadOffset := kFixedHeaderSize }, true) := by
  intro buffer
  obtain ⟨hversion, hpad, hext, hcount⟩ := first_byte_fields hasPadding hasExtension
  obtain ⟨hmarker, hpt⟩ := second_byte_fields marker payloadType htype
  have hsize : buffer.length = 12 + rest.length := by
    simp [buffer, headerBytes, bytesOfUint16, bytesOfUint32]
    omega
  have hfirst : byteAt buffer 0 = (kRtpVersion <<< 6) |||
      ((BitVec.ofBool hasPadding).setWidth 8 <<< 5) |||
      ((BitVec.ofBool hasExtension).setWidth 8 <<< 4) := rfl
  have hsecond : byteAt buffer 1 =
      ((BitVec.ofBool marker).setWidth 8 <<< 7) ||| payloadType := rfl
  have hseq : readUint16 (byteAt buffer) 2 = sequenceNumber :=
    append_bytes_of_uint16 sequenceNumber
  have htime : readUint32 (byteAt buffer) 4 = timestamp := append_bytes_of_uint32 timestamp
  have hssrc : readUint32 (byteAt buffer) 8 = ssrc := append_bytes_of_uint32 ssrc
  have hlong : ¬ buffer.length < kFixedHeaderSize := by
    simp only [kFixedHeaderSize]
    omega
  have hroom : ¬ kFixedHeaderSize + 0 * 4 > buffer.length := by
    simp only [kFixedHeaderSize]
    omega
  simp only [RtpPacket.parseFixedHeader, hlong, if_false, hfirst, hversion, ne_eq,
    not_true_eq_false, hpad, hext, hcount, hsecond, hmarker, hpt, hseq, htime, hssrc, hroom,
    kMaxRtpCsrcSize, List.range_zero, List.map_nil]
  rfl

/-- The extension block with the three bytes of a send time. -/
def sendTimeExtension (id : ExtensionId) (a b c : Byte) : List Byte :=
  [0xBE, 0xDE, 0, 1, (id.val <<< 4) ||| 2, a, b, c]

/-- The extension block of a packet with a send time has one element. -/
theorem parse_extension_block {p : RtpPacket} (hext : p.hasExtension = true)
    (hnone : p.extensions = []) (id : ExtensionId) (a b c : Byte) (header rest : List Byte)
    (hoffset : p.payloadOffset = header.length) :
    let buffer := header ++ sendTimeExtension id a b c ++ rest
    p.parseExtensionBlock (byteAt buffer) buffer.length =
      ({ p with
          extensionProfile := kOneByteExtensionProfileId
          extensionLen := 1
          extensions := [{ id := id.val, len := 3, dataOffset := header.length + 5,
                           data := [a, b, c] }]
          payloadOffset := header.length + 8 }, true) := by
  intro buffer
  have hread : ∀ i, byteAt buffer (header.length + i) =
      byteAt (sendTimeExtension id a b c ++ rest) i := by
    intro i
    have hassoc : buffer = header ++ (sendTimeExtension id a b c ++ rest) :=
      List.append_assoc _ _ _
    rw [hassoc, byteAt, byteAt, List.getD_eq_getElem?_getD, List.getD_eq_getElem?_getD,
      List.getElem?_append_right (by omega), Nat.add_sub_cancel_left]
  have hsize : buffer.length = header.length + 8 + rest.length := by
    simp [buffer, sendTimeExtension]
    omega
  obtain ⟨id, hid⟩ := id
  have hfields : ∀ id : Byte, isValidOneByteExtensionId id = true →
      ((id <<< 4) ||| 2) >>> 4 = id ∧ id ≠ 0 ∧ id ≠ 15 ∧ (((id <<< 4) ||| 2) &&& 0x0F).toNat = 2 := by
    decide
  obtain ⟨hshift, hzero, hlast, hlen⟩ := hfields id hid
  have hprofile : readUint16 (byteAt buffer) header.length = kOneByteExtensionProfileId := by
    have h0 : byteAt buffer header.length = 0xBE := hread 0
    have h1 : byteAt buffer (header.length + 1) = 0xDE := hread 1
    rw [readUint16, h0, h1]
    decide
  have hcount : readUint16 (byteAt buffer) (header.length + 2) = 1 := by
    have h2 : byteAt buffer (header.length + 2) = 0 := hread 2
    have h3 : byteAt buffer (header.length + 2 + 1) = 1 := hread 3
    rw [readUint16, h2, h3]
    decide
  have hid4 : byteAt buffer (header.length + 4) = (id <<< 4) ||| 2 := hread 4
  have hdata : (List.range 3).map (fun i => byteAt buffer (header.length + 4 + 1 + i)) =
      [a, b, c] := by
    simp only [Nat.add_assoc, hread]
    rfl
  have hloop : RtpPacket.parseOneByteExtensions (byteAt buffer) (header.length + 4 + 1 * 4) (1 * 4)
      (header.length + 4) [] =
        ([{ id := id, len := 3, dataOffset := header.length + 5, data := [a, b, c] }], true) := by
    rw [RtpPacket.parseOneByteExtensions, if_pos (by omega)]
    simp only [hid4, hshift, hzero, hlast, hlen, if_false, hdata]
    rw [if_neg (by omega), RtpPacket.parseOneByteExtensions, if_neg (by omega)]
    rfl
  simp only [RtpPacket.parseExtensionBlock, hext, hoffset, hprofile, hcount, hnone, Bool.not_true,
    Bool.false_eq_true, if_false, if_true]
  rw [if_neg (by omega), if_neg (by simp; omega)]
  simp [hloop]

/-- The datagram of a packetizer: header, send time if it is switched on, and body. -/
def packetBytes (extensionId : Option ExtensionId) (marker : Bool) (payloadType : Byte)
    (sequenceNumber : BitVec 16) (timestamp ssrc : BitVec 32) (body : List Byte) : List Byte :=
  headerBytes false extensionId.isSome marker payloadType sequenceNumber timestamp ssrc ++
    absoluteSendTimeExtension extensionId ++ body

/-- After the header and the extension block, the rest of a datagram without padding is payload. -/
theorem of_buffer_eq {front body : List Byte} {fixed extended : RtpPacket}
    (hfixed : RtpPacket.parseFixedHeader {} (byteAt (front ++ body)) (front ++ body).length =
      (fixed, true))
    (hext : fixed.parseExtensionBlock (byteAt (front ++ body)) (front ++ body).length =
      (extended, true))
    (hpad : extended.hasPadding = false) (hoffset : extended.payloadOffset = front.length) :
    ∃ p, RtpPacket.ofBuffer (front ++ body) = some p ∧
      Carries p extended.marker extended.payloadType extended.sequenceNumber extended.timestamp
        extended.ssrc body := by
  have hpayload : extended.parsePayload (byteAt (front ++ body)) (front ++ body).length =
      ({ extended with paddingSize := 0, payloadSize := body.length }, true) := by
    simp [RtpPacket.parsePayload, hpad, hoffset]
  have hparse : RtpPacket.parse {} (byteAt (front ++ body)) (front ++ body).length =
      ({ extended with paddingSize := 0, payloadSize := body.length }, true) := by
    rw [RtpPacket.parse, hfixed, ← hpayload]
    simp only [Bool.not_true, Bool.false_eq_true, if_false, hext]
  refine ⟨{ extended with
      paddingSize := 0
      payloadSize := body.length
      buffer := front ++ body
      size := (front ++ body).length }, ?_, rfl, rfl, rfl, rfl, rfl, ?_, rfl⟩
  · rw [RtpPacket.ofBuffer, RtpPacket.build, hparse]
    rfl
  · simp [RtpPacket.payload, hoffset]

/-- Parsing the datagram of a packetizer gives back what it was made of. -/
theorem build_packet (extensionId : Option ExtensionId) (marker : Bool) {payloadType : Byte}
    (htype : payloadType.getLsbD 7 = false) (sequenceNumber : BitVec 16)
    (timestamp ssrc : BitVec 32) (body : List Byte) :
    ∃ p, RtpPacket.ofBuffer (packetBytes extensionId marker payloadType sequenceNumber timestamp
        ssrc body) = some p ∧
      Carries p marker payloadType sequenceNumber timestamp ssrc body := by
  have hfixed := parse_fixed_header {} false extensionId.isSome marker htype sequenceNumber timestamp
    ssrc (absoluteSendTimeExtension extensionId ++ body)
  rw [← List.append_assoc] at hfixed
  have hheader : (headerBytes false extensionId.isSome marker payloadType sequenceNumber timestamp
      ssrc).length = 12 := by
    simp [headerBytes, bytesOfUint16, bytesOfUint32]
  cases extensionId with
  | none => exact of_buffer_eq hfixed rfl rfl (by rw [List.length_append, hheader]; rfl)
  | some id =>
      exact of_buffer_eq hfixed (parse_extension_block rfl rfl id 0 0 0 _ body hheader.symm) rfl
        (by rw [List.length_append]; rfl)

/-- `ofBuffer` is `Build` when it succeeds. -/
theorem build_of_buffer {buffer : List Byte} {p : RtpPacket}
    (h : RtpPacket.ofBuffer buffer = some p) : RtpPacket.build {} buffer = (p, true) := by
  simp only [RtpPacket.ofBuffer] at h
  split_ifs at h with hok
  rw [← Option.some.inj h, ← hok]

/-- A parsed datagram is kept as it is. -/
theorem of_buffer_buffer {buffer : List Byte} {p : RtpPacket}
    (h : RtpPacket.ofBuffer buffer = some p) : p.buffer = buffer := by
  have hbuild := build_of_buffer h
  simp only [RtpPacket.build] at hbuild
  split_ifs at hbuild with hfail
  · simp at hbuild
  · rw [← (Prod.mk.inj hbuild).1]

/-- Cutting a payload every `n` bytes and putting the first `count` pieces together. -/
theorem flatten_chunks {α : Type*} (payload : List α) (n count : Nat) :
    ((List.range count).map fun i => (payload.drop (i * n)).take n).flatten =
      payload.take (count * n) := by
  induction count with
  | zero => simp
  | succ count ih =>
      rw [List.range_succ, List.map_append, List.flatten_append, ih, Nat.succ_mul, List.take_add]
      simp

end MiniRtc
