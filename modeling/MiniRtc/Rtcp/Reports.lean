import MiniRtc.Rtcp.CommonHeader

/-!
# Sender and receiver reports

`RtcpReportBlock`, `SenderReport` and `ReceiverReport`: `Build` writes a report to the buffer of the
report, and `Parse` reads one from the payload of a packet.

A block holds its cumulative loss with the check of `SetCumulativeLost`, and a sender report its two
copies of the sender's SSRC with the fact that they agree, so that every value of these types is one
that the setters can produce. What `Build` writes is the packet `block` of the report, and what
stands in such a packet is read back.
-/

namespace MiniRtc

open Wire

/-- `RtcpReportBlock`: the fields that are sent. -/
@[ext]
structure RtcpReportBlock where
  sourceSsrc : BitVec 32 := 0
  fractionLost : Byte := 0
  cumulativeLost : BitVec 32 := 0
  extendedHighSeqNum : BitVec 32 := 0
  jitter : BitVec 32 := 0
  lastSr : BitVec 32 := 0
  delaySinceLastSr : BitVec 32 := 0
  lostFits : -2 ^ 23 ≤ cumulativeLost.toInt ∧ cumulativeLost.toInt < 2 ^ 23 := by decide
  deriving DecidableEq

/-- No loss fits into its field. -/
theorem no_loss_fits : -2 ^ 23 ≤ (0 : BitVec 32).toInt ∧ (0 : BitVec 32).toInt < 2 ^ 23 := by
  decide

/-- The sign of a 24-bit number is copied to a 32-bit one. -/
def extendLost (lost : BitVec 24) : BitVec 32 :=
  let cumulativeLost := lost.setWidth 32
  if cumulativeLost &&& 0x800000 ≠ 0 then cumulativeLost ||| 0xFF000000 else cumulativeLost

/-- Only the sign bit decides. -/
theorem extend_lost_eq (lost : BitVec 24) : extendLost lost = lost.signExtend 32 := by
  have hmask : (0x800000 : BitVec 32) = BitVec.twoPow 32 23 := by decide
  have hpow : BitVec.twoPow 32 23 ≠ 0 := by decide
  have hsign : (0xFF000000 : BitVec 32) = BitVec.allOnes 32 <<< 24 := by decide
  have hset : (lost.setWidth 32 &&& 0x800000 ≠ 0) ↔ lost.msb = true := by
    rw [hmask, BitVec.and_twoPow, BitVec.msb_eq_getLsbD_last, BitVec.getLsbD_setWidth]
    cases lost.getLsbD (24 - 1)
    · simp
    · simpa using hpow
  simp only [extendLost]
  ext i hi
  rw [BitVec.getElem_signExtend]
  by_cases hlow : i < 24
  · -- the low bits are copied, and the mask has none of them
    rw [dif_pos hlow]
    split_ifs
    · rw [BitVec.getElem_or, hsign, BitVec.getElem_shiftLeft, BitVec.getElem_setWidth,
        BitVec.getLsbD_eq_getElem hlow, decide_eq_true hlow, Bool.not_true, Bool.false_and,
        Bool.or_false]
    · rw [BitVec.getElem_setWidth, BitVec.getLsbD_eq_getElem hlow]
  · have hnone : lost.getLsbD i = false := BitVec.getLsbD_of_ge _ _ (Nat.le_of_not_lt hlow)
    rw [dif_neg hlow]
    by_cases hmsb : lost.msb = true
    · rw [if_pos (hset.mpr hmsb), BitVec.getElem_or, hsign, BitVec.getElem_shiftLeft,
        BitVec.getElem_setWidth, hnone, hmsb, decide_eq_false hlow, BitVec.getElem_allOnes]
      rfl
    · rw [if_neg (mt hset.mp hmsb), BitVec.getElem_setWidth, hnone]
      exact (Bool.eq_false_of_not_eq_true hmsb).symm

/-- A number in the signed 24-bit range is what its low bits extend to. -/
theorem extend_lost_set_width {lost : BitVec 32}
    (h : -2 ^ 23 ≤ lost.toInt ∧ lost.toInt < 2 ^ 23) : extendLost (lost.setWidth 24) = lost := by
  apply BitVec.eq_of_toInt_eq
  have hlt := lost.isLt
  rw [extend_lost_eq, BitVec.toInt_signExtend_of_le (by decide), BitVec.toInt_setWidth,
    Int.bmod_def]
  rw [BitVec.toInt_eq_toNat_cond] at h ⊢
  norm_num at h hlt ⊢
  split_ifs at h ⊢ <;> omega

theorem set_width_extend_lost (lost : BitVec 24) : (extendLost lost).setWidth 24 = lost := by
  rw [extend_lost_eq]
  ext i hi
  rw [BitVec.getElem_setWidth, BitVec.getLsbD_signExtend, decide_eq_true (by omega), if_pos hi,
    BitVec.getLsbD_eq_getElem hi, Bool.true_and]

namespace RtcpReportBlock

/-- `kLength`. -/
def kLength : Nat := 24

/-- `SetCumulativeLost`. -/
def setCumulativeLost (b : RtcpReportBlock) (cumulativeLost : BitVec 32) :
    Bool × RtcpReportBlock :=
  if h : -2 ^ 23 ≤ cumulativeLost.toInt ∧ cumulativeLost.toInt < 2 ^ 23 then
    (true, { b with cumulativeLost, lostFits := h })
  else (false, b)

/-- `Create`. -/
def create (b : RtcpReportBlock) : List Byte :=
  bytesOfUint32 b.sourceSsrc ++ [b.fractionLost] ++ bytesOfUint24 (b.cumulativeLost.setWidth 24) ++
    bytesOfUint32 b.extendedHighSeqNum ++ bytesOfUint32 b.jitter ++ bytesOfUint32 b.lastSr ++
    bytesOfUint32 b.delaySinceLastSr

/-- The loss of a block that is read is in range. -/
theorem extend_lost_fits (lost : BitVec 24) :
    -2 ^ 23 ≤ (extendLost lost).toInt ∧ (extendLost lost).toInt < 2 ^ 23 := by
  rw [extend_lost_eq, BitVec.toInt_signExtend_of_le (by decide)]
  exact ⟨BitVec.le_toInt lost, BitVec.toInt_lt⟩

/-- `Parse`, with the pointer behind the block. -/
def parse (p : List Byte) : Option (RtcpReportBlock × List Byte) := do
  let (sourceSsrc, p) ← takeUint32 p
  let (fractionLost, p) ← takeUint8 p
  let (lost, p) ← takeUint24 p
  let (extendedHighSeqNum, p) ← takeUint32 p
  let (jitter, p) ← takeUint32 p
  let (lastSr, p) ← takeUint32 p
  let (delaySinceLastSr, p) ← takeUint32 p
  some (
    { sourceSsrc
      fractionLost
      cumulativeLost := extendLost lost
      extendedHighSeqNum
      jitter
      lastSr
      delaySinceLastSr
      lostFits := extend_lost_fits lost }, p)

/-- The loop of both reports over their blocks. -/
def parseReports : Nat → List Byte → Option (List RtcpReportBlock × List Byte)
  | 0, p => some ([], p)
  | count + 1, p => do
      let (report, p) ← parse p
      let (reports, p) ← parseReports count p
      some (report :: reports, p)

end RtcpReportBlock

/-- `SenderInfo`. -/
structure SenderInfo where
  senderSsrc : BitVec 32
  ntpTsMsw : BitVec 32
  ntpTsLsw : BitVec 32
  rtpTs : BitVec 32
  senderPacketCount : BitVec 32
  senderOctetCount : BitVec 32
  deriving DecidableEq

/-- `SenderReport`, where the size of the buffer is its length. -/
structure SenderReport where
  senderSsrc : BitVec 32
  senderInfo : SenderInfo
  reports : List RtcpReportBlock
  buffer : List Byte
  sameSsrc : senderSsrc = senderInfo.senderSsrc
  deriving DecidableEq

/-- `ReceiverReport`, where the size of the buffer is its length. -/
structure ReceiverReport where
  senderSsrc : BitVec 32
  reports : List RtcpReportBlock
  buffer : List Byte
  deriving DecidableEq

/-- `RTCP_TYPE::SR`. -/
def kSenderReportType : Byte := 200

/-- `RTCP_TYPE::RR`. -/
def kReceiverReportType : Byte := 201

/-- `DEFAULT_SR_SIZE`. -/
def kSenderInfoLength : Nat := 24

/-- `DEFAULT_RR_SIZE`. -/
def kReceiverInfoLength : Nat := 4

open RtcpReportBlock RtcpCommonHeader

namespace SenderReport

/-- The six numbers of the sender. -/
def infoBytes (info : SenderInfo) : List Byte :=
  bytesOfUint32 info.senderSsrc ++ bytesOfUint32 info.ntpTsMsw ++ bytesOfUint32 info.ntpTsLsw ++
    bytesOfUint32 info.rtpTs ++ bytesOfUint32 info.senderPacketCount ++
    bytesOfUint32 info.senderOctetCount

/-- `Build`: a null pointer for too many blocks. -/
def build (s : SenderReport) : SenderReport × Option (List Byte) :=
  if s.reports.length > 0x1f then (s, none)
  else
    let bufferSize := kHeaderSizeBytes + kSenderInfoLength + s.reports.length * kLength
    let buffer :=
      RtcpCommonHeader.create 2 0 (BitVec.ofNat 8 s.reports.length) kSenderReportType
          (BitVec.ofNat 16 ((bufferSize - kHeaderSizeBytes) / 4)) ++
        infoBytes s.senderInfo ++ s.reports.flatMap RtcpReportBlock.create
    ({ s with buffer }, some buffer)

/-- `Parse`. The blocks are cleared before the payload is checked. -/
def parse (s : SenderReport) (packet : RtcpCommonHeader) : Option (Bool × SenderReport) :=
  let reportCount := packet.countOrFormat.toNat
  let requiredPayloadSize := kSenderInfoLength + reportCount * kLength
  if packet.payloadSize < requiredPayloadSize then some (false, { s with reports := [] })
  else do
    let (senderSsrc, p) ← takeUint32 packet.payload
    let (ntpTsMsw, p) ← takeUint32 p
    let (ntpTsLsw, p) ← takeUint32 p
    let (rtpTs, p) ← takeUint32 p
    let (senderPacketCount, p) ← takeUint32 p
    let (senderOctetCount, p) ← takeUint32 p
    let (reports, p) ← parseReports reportCount p
    let pos := packet.payload.length - p.length
    some (pos == requiredPayloadSize,
      { s with
        senderSsrc
        senderInfo :=
          { senderSsrc, ntpTsMsw, ntpTsLsw, rtpTs, senderPacketCount, senderOctetCount }
        reports
        sameSsrc := rfl })

end SenderReport

namespace ReceiverReport

/-- `Build`: a null pointer for too many blocks. -/
def build (s : ReceiverReport) : ReceiverReport × Option (List Byte) :=
  if s.reports.length > 0x1f then (s, none)
  else
    let bufferSize := kHeaderSizeBytes + kReceiverInfoLength + s.reports.length * kLength
    let buffer :=
      RtcpCommonHeader.create 2 0 (BitVec.ofNat 8 s.reports.length) kReceiverReportType
          (BitVec.ofNat 16 ((bufferSize - kHeaderSizeBytes) / 4)) ++
        bytesOfUint32 s.senderSsrc ++ s.reports.flatMap RtcpReportBlock.create
    ({ s with buffer }, some buffer)

/-- `Parse` gives the size of what was read. The blocks are cleared before the payload is checked. -/
def parse (s : ReceiverReport) (packet : RtcpCommonHeader) : Option (Nat × ReceiverReport) :=
  let reportCount := packet.countOrFormat.toNat
  let requiredPayloadSize := kReceiverInfoLength + reportCount * kLength
  if packet.payloadSize < requiredPayloadSize then some (0, { s with reports := [] })
  else do
    let (senderSsrc, p) ← takeUint32 packet.payload
    let (reports, p) ← parseReports reportCount p
    let pos := packet.payload.length - p.length
    some (pos, { s with senderSsrc, reports })

end ReceiverReport

/-! ## What was written is read -/

namespace RtcpReportBlock

theorem create_length (b : RtcpReportBlock) : b.create.length = kLength :=
  rfl

theorem parse_create (b : RtcpReportBlock) (rest : List Byte) :
    parse (b.create ++ rest) = some (b, rest) := by
  unfold parse create
  simp only [List.append_assoc, take_uint32_bytes, take_uint24_bytes, List.cons_append,
    List.nil_append, take_uint8_cons, Option.bind_eq_bind, Option.bind_some,
    extend_lost_set_width b.lostFits]

theorem flat_map_create_length (reports : List RtcpReportBlock) :
    (reports.flatMap create).length = reports.length * kLength := by
  simp [List.length_flatMap, create_length]

/-- The loop reads the blocks that were written, in their order. -/
theorem parse_reports_create (reports : List RtcpReportBlock) (rest : List Byte) :
    parseReports reports.length (reports.flatMap create ++ rest) = some (reports, rest) := by
  induction reports with
  | nil => rfl
  | cons report reports ih =>
      rw [List.flatMap_cons, List.append_assoc, List.length_cons, parseReports, parse_create]
      simp only [Option.bind_eq_bind, Option.bind_some, ih]

end RtcpReportBlock

/-- Every part of a buffer with the length of a block is one. -/
theorem exists_report_block {p : List Byte} (h : kLength ≤ p.length) :
    ∃ (b : RtcpReportBlock) (rest : List Byte), p = b.create ++ rest := by
  simp only [kLength] at h
  obtain ⟨sourceSsrc, p, rfl⟩ := exists_uint32_bytes (p := p) (by omega)
  rw [List.length_append, bytes_of_uint32_length] at h
  match p, h with
  | fractionLost :: p, h =>
      rw [List.length_cons] at h
      obtain ⟨lost, p, rfl⟩ := exists_uint24_bytes (p := p) (by omega)
      rw [List.length_append, bytes_of_uint24_length] at h
      obtain ⟨extendedHighSeqNum, p, rfl⟩ := exists_uint32_bytes (p := p) (by omega)
      rw [List.length_append, bytes_of_uint32_length] at h
      obtain ⟨jitter, p, rfl⟩ := exists_uint32_bytes (p := p) (by omega)
      rw [List.length_append, bytes_of_uint32_length] at h
      obtain ⟨lastSr, p, rfl⟩ := exists_uint32_bytes (p := p) (by omega)
      rw [List.length_append, bytes_of_uint32_length] at h
      obtain ⟨delaySinceLastSr, p, rfl⟩ := exists_uint32_bytes (p := p) (by omega)
      refine ⟨⟨sourceSsrc, fractionLost, extendLost lost, extendedHighSeqNum, jitter, lastSr,
        delaySinceLastSr, extend_lost_fits lost⟩, p, ?_⟩
      simp [RtcpReportBlock.create, set_width_extend_lost]

/-- Every part of a buffer with the length of a sender's numbers is some. -/
theorem exists_sender_info {p : List Byte} (h : kSenderInfoLength ≤ p.length) :
    ∃ (info : SenderInfo) (rest : List Byte), p = SenderReport.infoBytes info ++ rest := by
  simp only [kSenderInfoLength] at h
  obtain ⟨senderSsrc, p, rfl⟩ := exists_uint32_bytes (p := p) (by omega)
  rw [List.length_append, bytes_of_uint32_length] at h
  obtain ⟨ntpTsMsw, p, rfl⟩ := exists_uint32_bytes (p := p) (by omega)
  rw [List.length_append, bytes_of_uint32_length] at h
  obtain ⟨ntpTsLsw, p, rfl⟩ := exists_uint32_bytes (p := p) (by omega)
  rw [List.length_append, bytes_of_uint32_length] at h
  obtain ⟨rtpTs, p, rfl⟩ := exists_uint32_bytes (p := p) (by omega)
  rw [List.length_append, bytes_of_uint32_length] at h
  obtain ⟨senderPacketCount, p, rfl⟩ := exists_uint32_bytes (p := p) (by omega)
  rw [List.length_append, bytes_of_uint32_length] at h
  obtain ⟨senderOctetCount, p, rfl⟩ := exists_uint32_bytes (p := p) (by omega)
  refine ⟨⟨senderSsrc, ntpTsMsw, ntpTsLsw, rtpTs, senderPacketCount, senderOctetCount⟩, p, ?_⟩
  simp [SenderReport.infoBytes]

/-- The count of at most 31 blocks is the 5-bit field of a packet. -/
theorem set_width_count {count : Nat} (h : count ≤ 0x1f) :
    (BitVec.ofNat 5 count).setWidth 8 = BitVec.ofNat 8 count ∧
      (BitVec.ofNat 8 count).toNat = count := by
  constructor
  · apply BitVec.eq_of_toNat_eq
    simp only [BitVec.toNat_setWidth, BitVec.toNat_ofNat]
    omega
  · rw [BitVec.toNat_ofNat]
    omega

namespace SenderReport

/-- The packet of a report that is not too long. -/
def block (s : SenderReport) (h : s.reports.length ≤ 0x1f) : RtcpBlock where
  packetType := kSenderReportType
  countOrFormat := BitVec.ofNat 5 s.reports.length
  payload := infoBytes s.senderInfo ++ s.reports.flatMap RtcpReportBlock.create
  padding := []
  aligned := by
    rw [List.length_append, flat_map_create_length]
    simp [infoBytes, kLength]
    omega
  fits := by
    rw [List.length_append, flat_map_create_length]
    simp [infoBytes, kLength]
    omega
  counted := RtcpBlock.counted_nil

theorem payload_length (s : SenderReport) (h : s.reports.length ≤ 0x1f) :
    (s.block h).payload.length = kSenderInfoLength + s.reports.length * kLength := by
  show (infoBytes s.senderInfo ++ s.reports.flatMap RtcpReportBlock.create).length = _
  rw [List.length_append, flat_map_create_length]
  rfl

/-- `Build` writes the packet of the report, and nothing for too many blocks. -/
theorem build_eq (s : SenderReport) :
    s.build =
      if h : s.reports.length ≤ 0x1f then
        ({ s with buffer := (s.block h).bytes }, some (s.block h).bytes)
      else (s, none) := by
  unfold build
  by_cases hfew : s.reports.length ≤ 0x1f
  · have hsize : kHeaderSizeBytes + kSenderInfoLength + s.reports.length * kLength =
        kHeaderSizeBytes + (s.block hfew).payload.length := by
      rw [payload_length, Nat.add_assoc]
    have hbytes := (s.block hfew).create_eq rfl hsize
    rw [if_neg (Nat.not_lt.mpr hfew), dif_pos hfew, ← hbytes]
    simp only [block, (set_width_count hfew).1, List.append_assoc]
  · rw [if_pos (Nat.not_le.mp hfew), dif_neg hfew]

/-- What stands in the payload of a packet is read. -/
theorem parse_payload (t : SenderReport) {packet : RtcpCommonHeader} {info : SenderInfo}
    {reports : List RtcpReportBlock} {rest : List Byte}
    (hcount : packet.countOrFormat.toNat = reports.length)
    (hpayload : packet.payload = infoBytes info ++ (reports.flatMap RtcpReportBlock.create ++ rest))
    (hsize : kSenderInfoLength + reports.length * kLength ≤ packet.payloadSize) :
    t.parse packet =
      some (true,
        { t with
          senderSsrc := info.senderSsrc
          senderInfo := info
          reports
          sameSsrc := rfl }) := by
  have hpos : (infoBytes info ++ (reports.flatMap RtcpReportBlock.create ++ rest)).length -
      rest.length = kSenderInfoLength + reports.length * kLength := by
    rw [List.length_append, List.length_append, flat_map_create_length]
    show kSenderInfoLength + (reports.length * kLength + rest.length) - rest.length = _
    omega
  unfold parse
  simp only [hcount, hpayload, Nat.not_lt.mpr hsize, if_false]
  simp only [infoBytes, List.append_assoc, take_uint32_bytes, Option.bind_eq_bind,
    Option.bind_some, parse_reports_create] at hpos ⊢
  simp only [hpos, beq_self_eq_true]

/-- What stands in the packet of a report is read back. -/
theorem parse_block (s t : SenderReport) (h : s.reports.length ≤ 0x1f) (rest : List Byte) :
    t.parse ((s.block h).header rest) =
      some (true,
        { t with
          senderSsrc := s.senderSsrc
          senderInfo := s.senderInfo
          reports := s.reports
          sameSsrc := s.sameSsrc }) := by
  have hcount : ((s.block h).header rest).countOrFormat.toNat = s.reports.length := by
    show ((BitVec.ofNat 5 s.reports.length).setWidth 8).toNat = s.reports.length
    rw [(set_width_count h).1, (set_width_count h).2]
  have hpayload : ((s.block h).header rest).payload =
      infoBytes s.senderInfo ++ (s.reports.flatMap RtcpReportBlock.create ++ rest) := by
    simp [RtcpBlock.header, block]
  rw [t.parse_payload hcount hpayload (s.payload_length h).ge]
  simp only [s.sameSsrc]

end SenderReport

namespace ReceiverReport

/-- The packet of a report that is not too long. -/
def block (s : ReceiverReport) (h : s.reports.length ≤ 0x1f) : RtcpBlock where
  packetType := kReceiverReportType
  countOrFormat := BitVec.ofNat 5 s.reports.length
  payload := bytesOfUint32 s.senderSsrc ++ s.reports.flatMap RtcpReportBlock.create
  padding := []
  aligned := by
    rw [List.length_append, flat_map_create_length]
    simp [kLength]
    omega
  fits := by
    rw [List.length_append, flat_map_create_length]
    simp [kLength]
    omega
  counted := RtcpBlock.counted_nil

theorem payload_length (s : ReceiverReport) (h : s.reports.length ≤ 0x1f) :
    (s.block h).payload.length = kReceiverInfoLength + s.reports.length * kLength := by
  show (bytesOfUint32 s.senderSsrc ++ s.reports.flatMap RtcpReportBlock.create).length = _
  rw [List.length_append, flat_map_create_length]
  rfl

/-- `Build` writes the packet of the report, and nothing for too many blocks. -/
theorem build_eq (s : ReceiverReport) :
    s.build =
      if h : s.reports.length ≤ 0x1f then
        ({ s with buffer := (s.block h).bytes }, some (s.block h).bytes)
      else (s, none) := by
  unfold build
  by_cases hfew : s.reports.length ≤ 0x1f
  · have hsize : kHeaderSizeBytes + kReceiverInfoLength + s.reports.length * kLength =
        kHeaderSizeBytes + (s.block hfew).payload.length := by
      rw [payload_length, Nat.add_assoc]
    have hbytes := (s.block hfew).create_eq rfl hsize
    rw [if_neg (Nat.not_lt.mpr hfew), dif_pos hfew, ← hbytes]
    simp only [block, (set_width_count hfew).1, List.append_assoc]
  · rw [if_pos (Nat.not_le.mp hfew), dif_neg hfew]

/-- What stands in the payload of a packet is read. -/
theorem parse_payload (t : ReceiverReport) {packet : RtcpCommonHeader} {senderSsrc : BitVec 32}
    {reports : List RtcpReportBlock} {rest : List Byte}
    (hcount : packet.countOrFormat.toNat = reports.length)
    (hpayload : packet.payload =
      bytesOfUint32 senderSsrc ++ (reports.flatMap RtcpReportBlock.create ++ rest))
    (hsize : kReceiverInfoLength + reports.length * kLength ≤ packet.payloadSize) :
    t.parse packet =
      some (kReceiverInfoLength + reports.length * kLength, { t with senderSsrc, reports }) := by
  have hpos : (bytesOfUint32 senderSsrc ++
      (reports.flatMap RtcpReportBlock.create ++ rest)).length - rest.length =
        kReceiverInfoLength + reports.length * kLength := by
    rw [List.length_append, List.length_append, flat_map_create_length]
    show kReceiverInfoLength + (reports.length * kLength + rest.length) - rest.length = _
    omega
  unfold parse
  simp only [hcount, hpayload, Nat.not_lt.mpr hsize, if_false, take_uint32_bytes,
    Option.bind_eq_bind, Option.bind_some, parse_reports_create, hpos]

/-- What stands in the packet of a report is read back. -/
theorem parse_block (s t : ReceiverReport) (h : s.reports.length ≤ 0x1f) (rest : List Byte) :
    t.parse ((s.block h).header rest) =
      some (kReceiverInfoLength + s.reports.length * kLength,
        { t with senderSsrc := s.senderSsrc, reports := s.reports }) := by
  have hcount : ((s.block h).header rest).countOrFormat.toNat = s.reports.length := by
    show ((BitVec.ofNat 5 s.reports.length).setWidth 8).toNat = s.reports.length
    rw [(set_width_count h).1, (set_width_count h).2]
  have hpayload : ((s.block h).header rest).payload =
      bytesOfUint32 s.senderSsrc ++ (s.reports.flatMap RtcpReportBlock.create ++ rest) := by
    simp [RtcpBlock.header, block]
  exact t.parse_payload hcount hpayload (s.payload_length h).ge

end ReceiverReport

/-- A report with at most 31 blocks is built, its header is parsed, and the report that parses the
packet gets every field of it, whatever it held before and whatever follows the packet. A report
with more blocks is left as it is. -/
theorem reports_round_trip :
    (∀ (s t : SenderReport) (rest : List Byte), s.reports.length ≤ 31 →
      ∃ bytes header, s.build = ({ s with buffer := bytes }, some bytes) ∧
        RtcpCommonHeader.parse (bytes ++ rest) (bytes ++ rest).length = some (some header) ∧
        header.packetType = kSenderReportType ∧ header.packetSize = bytes.length ∧
        t.parse header =
          some (true,
            { t with
              senderSsrc := s.senderSsrc
              senderInfo := s.senderInfo
              reports := s.reports
              sameSsrc := s.sameSsrc })) ∧
      (∀ s : SenderReport, 31 < s.reports.length → s.build = (s, none)) ∧
      (∀ (s t : ReceiverReport) (rest : List Byte), s.reports.length ≤ 31 →
        ∃ bytes header, s.build = ({ s with buffer := bytes }, some bytes) ∧
          RtcpCommonHeader.parse (bytes ++ rest) (bytes ++ rest).length = some (some header) ∧
          header.packetType = kReceiverReportType ∧ header.packetSize = bytes.length ∧
          t.parse header =
            some (kReceiverInfoLength + s.reports.length * kLength,
              { t with senderSsrc := s.senderSsrc, reports := s.reports })) ∧
      ∀ s : ReceiverReport, 31 < s.reports.length → s.build = (s, none) := by
  refine ⟨?_, ?_, ?_, ?_⟩
  · intro s t rest hfew
    refine ⟨(s.block hfew).bytes, (s.block hfew).header rest, ?_, ?_, rfl, ?_, ?_⟩
    · rw [SenderReport.build_eq, dif_pos hfew]
    · exact parse_block (s.block hfew) rest
    · exact (s.block hfew).bytes_length.symm
    · exact SenderReport.parse_block s t hfew rest
  · intro s hmany
    rw [SenderReport.build_eq, dif_neg (Nat.not_le.mpr hmany)]
  · intro s t rest hfew
    refine ⟨(s.block hfew).bytes, (s.block hfew).header rest, ?_, ?_, rfl, ?_, ?_⟩
    · rw [ReceiverReport.build_eq, dif_pos hfew]
    · exact parse_block (s.block hfew) rest
    · exact (s.block hfew).bytes_length.symm
    · exact ReceiverReport.parse_block s t hfew rest
  · intro s hmany
    rw [ReceiverReport.build_eq, dif_neg (Nat.not_le.mpr hmany)]

end MiniRtc
