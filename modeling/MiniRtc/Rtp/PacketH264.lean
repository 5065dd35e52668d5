import MiniRtc.Rtp.Packet

/-!
# H.264 packets

`RtpPacketizerH264` of `rtp_packetizer_h264.cpp` and `RtpPacketH264` of `rtp_packet_h264.cpp`. A
payload of at most 1150 bytes becomes one packet with a header byte in front. A longer one is cut
into fragments, each behind two bytes that say which fragment is the first and which the last.

`nalu_packet_header_info` and `fua_packet_header_info` say what the receiver reads from the packets
of the sender, and `fragments_flatten` that the fragments make up the payload.
-/

namespace MiniRtc

/-- `NAL_UNIT_TYPE::NALU`. -/
def nalUnitTypeNalu : Byte := 1

/-- `NAL_UNIT_TYPE::FU_A`. -/
def nalUnitTypeFuA : Byte := 28

/-- The byte of an `FU_INDICATOR`. -/
def fuIndicatorByte (forbiddenBit nalReferenceIdc nalUnitType : Byte) : Byte :=
  (forbiddenBit <<< 7) ||| (nalReferenceIdc <<< 5) ||| nalUnitType

/-- The byte of an `FU_HEADER`. -/
def fuHeaderByte (start finish : Bool) (nalUnitType : Byte) : Byte :=
  ((BitVec.ofBool start).setWidth 8 <<< 7) ||| ((BitVec.ofBool finish).setWidth 8 <<< 6) |||
    nalUnitType

/-! ## The receiver's view -/

/-- `RtpPacketH264`. -/
structure RtpPacketH264 extends RtpPacket where
  forbiddenBit : Byte := 0
  nalReferenceIdc : Byte := 0
  nalUnitType : Byte := 0
  fuStart : Bool := false
  fuEnd : Bool := false
  fuRemainBit : Bool := false
  fuNalUnitType : Byte := 0
  deriving DecidableEq

/-- `GetFrameHeaderInfo` on a packet that was just built. The payload of a retransmission starts
with the original sequence number. -/
def RtpPacketH264.getFrameHeaderInfo (p : RtpPacket) : Option RtpPacketH264 :=
  let isRtx := p.payloadType = payloadTypeRtx
  let offset := if isRtx then 2 else 0
  if isRtx ∧ p.payloadSize < 2 then none
  else if p.payloadSize ≤ offset then none
  else
    let indicator := byteAt p.payload offset
    let forbiddenBit := (indicator >>> 7) &&& 0x01
    let nalReferenceIdc := (indicator >>> 5) &&& 0x03
    let nalUnitType := indicator &&& 0x1F
    if nalUnitType = nalUnitTypeNalu then
      some
        { p.addOffsetToPayload (1 + offset) with
          forbiddenBit
          nalReferenceIdc
          nalUnitType }
    else if nalUnitType = nalUnitTypeFuA then
      if p.payloadSize ≤ offset + 1 then none
      else
        let header := byteAt p.payload (1 + offset)
        some
          { p.addOffsetToPayload (2 + offset) with
            forbiddenBit
            nalReferenceIdc
            nalUnitType
            fuStart := header.getLsbD 7
            fuEnd := header.getLsbD 6
            fuRemainBit := header.getLsbD 5
            fuNalUnitType := header &&& 0x1F }
    else some { p with forbiddenBit, nalReferenceIdc, nalUnitType }

/-! ## The sender -/

/-- `RtpPacketizerH264`. -/
structure RtpPacketizerH264 where
  absSendTimeExtId : Option ExtensionId := none
  sequenceNumber : BitVec 16 := 0
  ssrc : BitVec 32 := 0

namespace RtpPacketizerH264

/-- The payload of a single packet. -/
def naluBody (payload : List Byte) : List Byte :=
  fuIndicatorByte 0 1 nalUnitTypeNalu :: payload

/-- The number of fragments of a payload. -/
def packetNum (payload : List Byte) : Nat :=
  payload.length / maxNaluLen + if payload.length % maxNaluLen ≠ 0 then 1 else 0

/-- The bytes of one fragment. The last one may be shorter. -/
def fragment (payload : List Byte) (index : Nat) : List Byte :=
  let lastPacketSize := payload.length % maxNaluLen
  (payload.drop (index * maxNaluLen)).take
    (if index = packetNum payload - 1 ∧ lastPacketSize > 0 then lastPacketSize else maxNaluLen)

/-- The payload of the packet of one fragment. -/
def fuaBody (payload : List Byte) (index : Nat) : List Byte :=
  fuIndicatorByte 0 0 nalUnitTypeFuA ::
    fuHeaderByte (index = 0) (index = packetNum payload - 1) nalUnitTypeFuA ::
    fragment payload index

/-- `BuildNalu`. The packet is kept when it parses. -/
def buildNalu (s : RtpPacketizerH264) (payload : List Byte) (rtpTimestamp : BitVec 32) :
    RtpPacketizerH264 × List RtpPacket :=
  let s := { s with sequenceNumber := s.sequenceNumber + 1 }
  (s, (RtpPacket.ofBuffer (packetBytes s.absSendTimeExtId true payloadTypeH264 s.sequenceNumber
    rtpTimestamp s.ssrc (naluBody payload))).toList)

/-- `BuildFua`. -/
def buildFua (s : RtpPacketizerH264) (payload : List Byte) (rtpTimestamp : BitVec 32) :
    RtpPacketizerH264 × List RtpPacket :=
  ({ s with sequenceNumber := s.sequenceNumber + BitVec.ofNat 16 (packetNum payload) },
    (List.range (packetNum payload)).filterMap fun index =>
      RtpPacket.ofBuffer (packetBytes s.absSendTimeExtId (index = packetNum payload - 1)
        payloadTypeH264 (s.sequenceNumber + 1 + BitVec.ofNat 16 index) rtpTimestamp s.ssrc
        (fuaBody payload index)))

/-- `Build`. -/
def build (s : RtpPacketizerH264) (payload : List Byte) (rtpTimestamp : BitVec 32) :
    RtpPacketizerH264 × List RtpPacket :=
  if payload.length ≤ maxNaluLen then s.buildNalu payload rtpTimestamp
  else s.buildFua payload rtpTimestamp

/-- Every fragment is the next piece of 1150 bytes, or what is left of the payload. -/
theorem fragment_eq (payload : List Byte) (index : Nat) :
    fragment payload index = (payload.drop (index * maxNaluLen)).take maxNaluLen := by
  unfold fragment
  simp only
  split_ifs with hlast
  · obtain ⟨hindex, hpos⟩ := hlast
    have hmod := Nat.div_add_mod payload.length maxNaluLen
    have hcut : index = payload.length / maxNaluLen := by
      rw [hindex, packetNum, if_pos (by omega), Nat.add_sub_cancel]
    have hsize : (payload.drop (index * maxNaluLen)).length = payload.length % maxNaluLen := by
      rw [List.length_drop, hcut, Nat.mul_comm]
      omega
    have hlt : payload.length % maxNaluLen < maxNaluLen := Nat.mod_lt _ (by decide)
    rw [← hsize, List.take_length, List.take_of_length_le (by omega)]
  · rfl

/-- The fragments make up the payload. -/
theorem fragments_flatten (payload : List Byte) :
    ((List.range (packetNum payload)).map (fragment payload)).flatten = payload := by
  have hmap : (List.range (packetNum payload)).map (fragment payload) =
      (List.range (packetNum payload)).map fun i =>
        (payload.drop (i * maxNaluLen)).take maxNaluLen :=
    List.map_congr_left fun i _ => fragment_eq payload i
  have hmod := Nat.div_add_mod payload.length maxNaluLen
  have hlt : payload.length % maxNaluLen < maxNaluLen := Nat.mod_lt _ (by decide)
  have hcover : payload.length ≤ packetNum payload * maxNaluLen := by
    unfold packetNum
    split_ifs with hzero
    · rw [Nat.add_mul, Nat.mul_comm]
      omega
    · rw [Nat.add_mul, Nat.mul_comm]
      omega
  rw [hmap, flatten_chunks, List.take_of_length_le hcover]

/-- A payload that does not fit into one packet has at least two fragments. -/
theorem two_le_packet_num {payload : List Byte} (h : maxNaluLen < payload.length) :
    2 ≤ packetNum payload := by
  unfold packetNum maxNaluLen at *
  split_ifs <;> omega

end RtpPacketizerH264

/-! ## What the receiver reads from a packet of the sender -/

/-- The receiver finds the whole payload behind the header byte of a single packet. -/
theorem nalu_packet_header_info {p : RtpPacket} {marker : Bool} {sequenceNumber : BitVec 16}
    {timestamp ssrc : BitVec 32} {payload : List Byte}
    (h : Carries p marker payloadTypeH264 sequenceNumber timestamp ssrc
      (RtpPacketizerH264.naluBody payload)) :
    ∃ q, RtpPacketH264.getFrameHeaderInfo p = some q ∧ q.timestamp = timestamp ∧
      q.sequenceNumber = sequenceNumber ∧ q.nalUnitType = nalUnitTypeNalu ∧
      q.payload = payload := by
  have htype : p.payloadType ≠ payloadTypeRtx := by
    rw [h.payloadType]
    decide
  have hsize : ¬ p.payloadSize ≤ 0 := by
    rw [h.payloadSize]
    simp [RtpPacketizerH264.naluBody]
  have hbyte : byteAt p.payload 0 &&& 0x1F = nalUnitTypeNalu := by
    rw [h.payload]
    change fuIndicatorByte 0 1 nalUnitTypeNalu &&& 0x1F = nalUnitTypeNalu
    decide
  refine ⟨_, by
    simp only [RtpPacketH264.getFrameHeaderInfo, htype, false_and, if_false, hsize, hbyte, if_true]
    rfl, h.timestamp, h.sequenceNumber, rfl, ?_⟩
  rw [RtpPacket.payload_add_offset, h.payload]
  rfl

/-- The receiver finds a fragment behind its two header bytes, and reads from them whether it is
the first and whether it is the last one. -/
theorem fua_packet_header_info {p : RtpPacket} {marker : Bool} {sequenceNumber : BitVec 16}
    {timestamp ssrc : BitVec 32} {payload : List Byte} {index : Nat}
    (h : Carries p marker payloadTypeH264 sequenceNumber timestamp ssrc
      (RtpPacketizerH264.fuaBody payload index)) :
    ∃ q, RtpPacketH264.getFrameHeaderInfo p = some q ∧ q.timestamp = timestamp ∧
      q.sequenceNumber = sequenceNumber ∧ q.nalUnitType = nalUnitTypeFuA ∧
      q.fuStart = decide (index = 0) ∧
      q.fuEnd = decide (index = RtpPacketizerH264.packetNum payload - 1) ∧
      q.payload = RtpPacketizerH264.fragment payload index := by
  have htype : p.payloadType ≠ payloadTypeRtx := by
    rw [h.payloadType]
    decide
  have hsize : ¬ p.payloadSize ≤ 0 ∧ ¬ p.payloadSize ≤ 0 + 1 := by
    rw [h.payloadSize]
    simp [RtpPacketizerH264.fuaBody]
  have hbyte : byteAt p.payload 0 &&& 0x1F = nalUnitTypeFuA := by
    rw [h.payload]
    change fuIndicatorByte 0 0 nalUnitTypeFuA &&& 0x1F = nalUnitTypeFuA
    decide
  have hfields : ∀ start finish : Bool,
      (fuHeaderByte start finish nalUnitTypeFuA).getLsbD 7 = start ∧
        (fuHeaderByte start finish nalUnitTypeFuA).getLsbD 6 = finish := by
    decide
  have hheader : byteAt p.payload (1 + 0) = fuHeaderByte (index = 0)
      (index = RtpPacketizerH264.packetNum payload - 1) nalUnitTypeFuA := by
    rw [h.payload]
    rfl
  refine ⟨_, by
    simp only [RtpPacketH264.getFrameHeaderInfo, htype, false_and, if_false, hsize.1, hsize.2,
      hbyte, show nalUnitTypeFuA ≠ nalUnitTypeNalu by decide, if_true, hheader]
    rfl, h.timestamp, h.sequenceNumber, rfl, (hfields _ _).1, (hfields _ _).2, ?_⟩
  rw [RtpPacket.payload_add_offset, h.payload]
  rfl

end MiniRtc
