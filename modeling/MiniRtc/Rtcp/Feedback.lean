import MiniRtc.Qos.TransportFeedback
import MiniRtc.Rtcp.CommonHeader

/-!
# Congestion control feedback and intra requests on the wire

`Parse` of `congestion_control_feedback.cpp` and of `fir.cpp`. The feedback has a block for each
media source up to a pointer to the end of the payload, and `left` is the distance to it: the loop
may only stop at the end, so a last block without reports is not accepted.

For both packets, what stands in a payload of their form is read (`parse_media_blocks`,
`parse_fir_requests`), and a payload of another form is rejected (`parse_media_cases`).
-/

namespace MiniRtc

open Wire

/-- `CongestionControlFeedback::PacketInfo` as it is parsed, with an infinite offset below and above
all times. -/
structure FeedbackPacket where
  ssrc : BitVec 32
  sequenceNumber : BitVec 16
  arrivalTimeOffset : WithBot (WithTop ℤ)
  ecn : EcnMarking
  deriving DecidableEq

/-- `CongestionControlFeedback` as it is parsed. -/
structure ParsedFeedback where
  senderSsrc : BitVec 32
  packets : List FeedbackPacket
  reportTimestampCompactNtp : BitVec 32
  deriving DecidableEq

namespace ParsedFeedback

/-- `RtpFeedback::kPacketType`. -/
def kPacketType : Byte := 205

/-- `kFeedbackMessageType`. -/
def kFeedbackMessageType : Byte := 11

/-- `kSenderSsrcLength`. -/
def kSenderSsrcLength : Nat := 4

/-- `kTimestampLength`. -/
def kTimestampLength : Nat := 4

/-- `kHeaderPerMediaSssrcLength`. -/
def kHeaderPerMediaSssrcLength : Nat := 8

/-- `kPerPacketLength`. -/
def kPerPacketLength : Nat := 2

/-- `AtoToTimeDelta`. -/
def atoToTimeDelta (receiveInfo : BitVec 16) : WithBot (WithTop ℤ) :=
  let ato := receiveInfo &&& 0x1FFF
  if ato = 0x1FFE then ((⊤ : WithTop ℤ) : WithBot (WithTop ℤ))
  else if ato = 0x1FFF then ⊥
  else (((ato.toNat * 1000000 / 1024 : Nat) : ℤ) : WithTop ℤ)

/-- `ToEcnMarking`. -/
def toEcnMarking (receiveInfo : BitVec 16) : EcnMarking :=
  let ecn := (receiveInfo >>> 13) &&& 0b11
  if ecn = 1 then .ect1 else if ecn = 2 then .ect0 else if ecn = 3 then .ce else .notEct

/-- The packet of a report, which is the one at `i` behind the first. -/
def packetOf (ssrc : BitVec 32) (baseSeqno : BitVec 16) (i : Nat) (packetInfo : BitVec 16) :
    FeedbackPacket where
  ssrc
  sequenceNumber := baseSeqno + BitVec.ofNat 16 i
  arrivalTimeOffset := if packetInfo &&& 0x8000 ≠ 0 then atoToTimeDelta packetInfo else ⊥
  ecn := toEcnMarking packetInfo

/-- The loop over the reports of one source. -/
def readReports (ssrc : BitVec 32) (baseSeqno : BitVec 16) :
    Nat → Nat → List Byte → Option (List FeedbackPacket × List Byte)
  | _, 0, payload => some ([], payload)
  | i, count + 1, payload => do
      let (packetInfo, payload) ← takeUint16 payload
      let (packets, payload) ← readReports ssrc baseSeqno (i + 1) count payload
      some (packetOf ssrc baseSeqno i packetInfo :: packets, payload)

/-- The loop of `Parse`, where `left` is `payload_end - payload`. -/
def parseMedia (payload : List Byte) (left : ℤ) : Option (Option (List FeedbackPacket)) :=
  if _h : kHeaderPerMediaSssrcLength < left then
    (takeUint32 payload).bind fun (ssrc, payload) =>
    (takeUint16 payload).bind fun (baseSeqno, payload) =>
    (takeUint16 payload).bind fun (numReports, payload) =>
      let left := left - kHeaderPerMediaSssrcLength
      if kPerPacketLength * numReports.toNat > left then some none
      else
        (readReports ssrc baseSeqno 0 numReports.toNat payload).bind fun (packets, payload) =>
          let left := left - kPerPacketLength * numReports.toNat
          let odd := numReports.toNat % 2 ≠ 0
          (parseMedia (if odd then payload.drop 2 else payload)
            (if odd then left - 2 else left)).map (Option.map (packets ++ ·))
  else some (if left = 0 then some [] else none)
termination_by left.toNat
decreasing_by
  simp only [kHeaderPerMediaSssrcLength, kPerPacketLength] at _h ⊢
  split_ifs <;> omega

/-- `Parse`. -/
def parse (packet : RtcpCommonHeader) : Option (Option ParsedFeedback) :=
  if packet.payloadSize % 4 ≠ 0 ∨ packet.payloadSize < kSenderSsrcLength + kTimestampLength then
    some none
  else do
    let (senderSsrc, payload) ← takeUint32 packet.payload
    let (timestamp, _) ← takeUint32 (packet.payload.drop (packet.payloadSize - kTimestampLength))
    let packets ← parseMedia payload (packet.payloadSize - kSenderSsrcLength - kTimestampLength)
    some (packets.map (⟨senderSsrc, ·, timestamp⟩))

end ParsedFeedback

/-- `Fir::Request`. -/
structure FirRequest where
  ssrc : BitVec 32
  seqNr : Byte
  deriving DecidableEq

/-- `Fir`, with the SSRCs of its base classes. -/
structure Fir where
  senderSsrc : BitVec 32
  mediaSsrc : BitVec 32
  items : List FirRequest
  deriving DecidableEq

namespace Fir

/-- `kPacketType`. -/
def kPacketType : Byte := 206

/-- `kFeedbackMessageType`. -/
def kFeedbackMessageType : Byte := 4

/-- `kCommonFeedbackLength`. -/
def kCommonFeedbackLength : Nat := 8

/-- `kFciLength`. -/
def kFciLength : Nat := 8

/-- The loop over the requests, which skips three bytes of each. -/
def readRequests : Nat → List Byte → Option (List FirRequest)
  | 0, _ => some []
  | count + 1, nextFci => do
      let (ssrc, p) ← takeUint32 nextFci
      let (seqNr, _) ← takeUint8 p
      let requests ← readRequests count (nextFci.drop kFciLength)
      some (⟨ssrc, seqNr⟩ :: requests)

/-- `Parse`. -/
def parse (packet : RtcpCommonHeader) : Option (Option Fir) :=
  if packet.payloadSize < kCommonFeedbackLength + kFciLength then some none
  else if (packet.payloadSize - kCommonFeedbackLength) % kFciLength ≠ 0 then some none
  else do
    let (senderSsrc, p) ← takeUint32 packet.payload
    let (mediaSsrc, _) ← takeUint32 p
    let items ← readRequests ((packet.payloadSize - kCommonFeedbackLength) / kFciLength)
      (packet.payload.drop kCommonFeedbackLength)
    some (some ⟨senderSsrc, mediaSsrc, items⟩)

end Fir

/-! ## The blocks of a feedback -/

/-- The block of a media source, with two bytes of padding behind an odd number of reports. -/
structure MediaBlock where
  ssrc : BitVec 32
  baseSeqno : BitVec 16
  reports : List (BitVec 16)
  padding : List Byte
  fits : reports.length < 2 ^ 16
  aligned : padding.length = if reports.length % 2 ≠ 0 then 2 else 0

namespace MediaBlock

open ParsedFeedback

/-- The bytes of a block. -/
def bytes (b : MediaBlock) : List Byte :=
  bytesOfUint32 b.ssrc ++ bytesOfUint16 b.baseSeqno ++
    bytesOfUint16 (BitVec.ofNat 16 b.reports.length) ++ b.reports.flatMap bytesOfUint16 ++ b.padding

/-- The packets of the reports from the one at `i` on. -/
def packetsFrom (b : MediaBlock) (i : Nat) : List (BitVec 16) → List FeedbackPacket
  | [] => []
  | report :: reports => packetOf b.ssrc b.baseSeqno i report :: b.packetsFrom (i + 1) reports

/-- The packets of a block. -/
def packets (b : MediaBlock) : List FeedbackPacket :=
  b.packetsFrom 0 b.reports

theorem count_to_nat (b : MediaBlock) :
    (BitVec.ofNat 16 b.reports.length).toNat = b.reports.length := by
  rw [BitVec.toNat_ofNat, Nat.mod_eq_of_lt b.fits]

theorem bytes_length (b : MediaBlock) :
    b.bytes.length = 8 + 2 * b.reports.length + b.padding.length := by
  simp [bytes, List.length_flatMap]
  omega

theorem read_reports_bytes (b : MediaBlock) (rest : List Byte) (reports : List (BitVec 16)) :
    ∀ i, readReports b.ssrc b.baseSeqno i reports.length
      (reports.flatMap bytesOfUint16 ++ rest) = some (b.packetsFrom i reports, rest) := by
  induction reports with
  | nil => exact fun _ => rfl
  | cons report reports ih =>
      intro i
      rw [List.flatMap_cons, List.append_assoc, List.length_cons, readReports]
      simp only [take_uint16_bytes, Option.bind_eq_bind, Option.bind_some, ih]
      rfl

/-- One round of the loop reads a block. -/
theorem parse_media_cons (b : MediaBlock) (rest : List Byte) {left : ℤ} (hleft : 0 ≤ left)
    (hmore : b.reports = [] → left ≠ 0) :
    parseMedia (b.bytes ++ rest) (b.bytes.length + left) =
      (parseMedia rest left).map (Option.map (b.packets ++ ·)) := by
  have haligned := b.aligned
  obtain ⟨total, htotal⟩ : ∃ total : ℤ, total = b.bytes.length + left := ⟨_, rfl⟩
  have htotal' : total = 8 + 2 * b.reports.length + b.padding.length + left := by
    rw [htotal, b.bytes_length]
    push_cast
    rfl
  have hlong : (kHeaderPerMediaSssrcLength : ℤ) < total := by
    simp only [kHeaderPerMediaSssrcLength]
    by_cases hnone : b.reports = []
    · have hleft' := hmore hnone
      omega
    · have hpos := List.length_pos_of_ne_nil hnone
      omega
  have hroom : ¬ (kPerPacketLength * (b.reports.length : ℤ) >
      total - kHeaderPerMediaSssrcLength) := by
    simp only [kPerPacketLength, kHeaderPerMediaSssrcLength]
    omega
  rw [← htotal, parseMedia, dif_pos hlong]
  simp only [bytes, List.append_assoc, take_uint32_bytes, take_uint16_bytes, Option.bind_some,
    b.count_to_nat, if_neg hroom, b.read_reports_bytes]
  -- behind the reports stands the padding of an odd number of them
  by_cases hodd : b.reports.length % 2 ≠ 0
  · have htwo : b.padding.length = 2 := by rw [haligned, if_pos hodd]
    have hnext : total - kHeaderPerMediaSssrcLength - kPerPacketLength * b.reports.length - 2 =
        left := by
      simp only [kPerPacketLength, kHeaderPerMediaSssrcLength]
      omega
    rw [if_pos hodd, if_pos hodd, hnext, ← htwo, List.drop_left]
    rfl
  · have hzero : b.padding = [] := by
      rw [if_neg hodd] at haligned
      exact List.eq_nil_of_length_eq_zero haligned
    have hnext : total - kHeaderPerMediaSssrcLength - kPerPacketLength * b.reports.length =
        left := by
      rw [hzero] at htotal'
      simp only [kPerPacketLength, kHeaderPerMediaSssrcLength, List.length_nil] at htotal' ⊢
      omega
    rw [if_neg hodd, if_neg hodd, hnext, hzero]
    rfl

end MediaBlock

/-- The blocks of a feedback, of which the last one has reports. -/
def LastReports (blocks : List MediaBlock) : Prop :=
  ∀ last ∈ blocks.getLast?, last.reports ≠ []

namespace ParsedFeedback

theorem parse_media_zero (payload : List Byte) : parseMedia payload 0 = some (some []) := by
  rw [parseMedia]
  rfl

/-- The blocks are read in their order. -/
theorem parse_media_blocks (rest : List Byte) (blocks : List MediaBlock) : LastReports blocks →
    parseMedia (blocks.flatMap MediaBlock.bytes ++ rest) (blocks.flatMap MediaBlock.bytes).length =
      some (some (blocks.flatMap MediaBlock.packets)) := by
  induction blocks with
  | nil => exact fun _ => parse_media_zero rest
  | cons block blocks ih =>
      intro hlast
      have hmore : block.reports = [] →
          ((blocks.flatMap MediaBlock.bytes).length : ℤ) ≠ 0 := by
        intro hnone
        match blocks, hlast with
        | [], hlast => exact absurd hnone (hlast block rfl)
        | next :: blocks, _ =>
            rw [List.flatMap_cons, List.length_append, next.bytes_length]
            omega
      have hlast' : LastReports blocks := by
        intro last hmem
        refine hlast last ?_
        rw [List.getLast?_cons, Option.mem_def.mp hmem]
        rfl
      rw [List.flatMap_cons, List.append_assoc, List.length_append, Nat.cast_add,
        block.parse_media_cons _ (Int.natCast_nonneg _) hmore, ih hlast']
      rfl

/-- With room for a header and more, either the reports of the next source do not fit, or a block
stands there. -/
theorem next_block {payload : List Byte} {left : Nat} (hlong : 8 < left) (haligned : 4 ∣ left)
    (hleft : left ≤ payload.length) :
    parseMedia payload left = some none ∨
      ∃ (b : MediaBlock) (rest : List Byte) (left' : Nat), payload = b.bytes ++ rest ∧
        left = b.bytes.length + left' ∧ 4 ∣ left' := by
  obtain ⟨ssrc, p, rfl⟩ := exists_uint32_bytes (p := payload) (by omega)
  rw [List.length_append, bytes_of_uint32_length] at hleft
  obtain ⟨baseSeqno, p, rfl⟩ := exists_uint16_bytes (p := p) (by omega)
  rw [List.length_append, bytes_of_uint16_length] at hleft
  obtain ⟨numReports, p, rfl⟩ := exists_uint16_bytes (p := p) (by omega)
  rw [List.length_append, bytes_of_uint16_length] at hleft
  have hlong' : (kHeaderPerMediaSssrcLength : ℤ) < left := Int.ofNat_lt.mpr hlong
  by_cases hmany : kPerPacketLength * (numReports.toNat : ℤ) > left - kHeaderPerMediaSssrcLength
  · left
    rw [parseMedia, dif_pos hlong']
    simp only [take_uint32_bytes, take_uint16_bytes, Option.bind_some, if_pos hmany]
  · simp only [kPerPacketLength, kHeaderPerMediaSssrcLength] at hmany
    obtain ⟨reports, p, rfl, hcount⟩ := exists_items (fun _ => exists_uint16_bytes)
      bytes_of_uint16_length numReports.toNat p (by omega)
    have hlength : (reports.flatMap bytesOfUint16).length = 2 * reports.length := by
      simp [List.length_flatMap]
      omega
    rw [List.length_append, hlength] at hleft
    have hpadded : ∃ padding rest, p = padding ++ rest ∧
        padding.length = if reports.length % 2 ≠ 0 then 2 else 0 := by
      refine ⟨p.take (if reports.length % 2 ≠ 0 then 2 else 0), _,
        (List.take_append_drop _ p).symm, List.length_take_of_le ?_⟩
      split_ifs <;> omega
    obtain ⟨padding, rest, rfl, hpadding⟩ := hpadded
    right
    have hfits : reports.length < 2 ^ 16 := hcount ▸ numReports.isLt
    have hnum : BitVec.ofNat 16 reports.length = numReports := by
      rw [hcount, BitVec.ofNat_toNat, BitVec.setWidth_eq]
    refine ⟨⟨ssrc, baseSeqno, reports, padding, hfits, hpadding⟩, rest,
      left - (8 + 2 * reports.length + padding.length), ?_, ?_, ?_⟩
    · simp [MediaBlock.bytes, hnum]
    · rw [MediaBlock.bytes_length]
      show left = 8 + 2 * reports.length + padding.length +
        (left - (8 + 2 * reports.length + padding.length))
      split_ifs at hpadding <;> omega
    · split_ifs at hpadding <;> omega

/-- A payload of another form is rejected. -/
theorem parse_media_cases (size : Nat) : ∀ (payload : List Byte) (left : Nat), left ≤ size →
    4 ∣ left → left ≤ payload.length →
      parseMedia payload left = some none ∨
        ∃ (blocks : List MediaBlock) (rest : List Byte), LastReports blocks ∧
          payload = blocks.flatMap MediaBlock.bytes ++ rest ∧
          (blocks.flatMap MediaBlock.bytes).length = left := by
  induction size with
  | zero =>
      intro payload left hsize _ _
      obtain rfl := Nat.le_zero.mp hsize
      exact .inr ⟨[], payload, by simp [LastReports], rfl, rfl⟩
  | succ size ih =>
      intro payload left hsize haligned hleft
      by_cases hlong : 8 < left
      · obtain hreject | ⟨b, rest, left', rfl, rfl, haligned'⟩ :=
          next_block hlong haligned hleft
        · exact .inl hreject
        have hlength := b.bytes_length
        rw [List.length_append] at hleft
        have hmore : b.reports = [] → (left' : ℤ) ≠ 0 := by
          intro hnone
          have hpadding := b.aligned
          rw [hnone] at hlength hpadding
          simp only [List.length_nil] at hlength hpadding
          rw [if_neg (by decide)] at hpadding
          omega
        have hcons := b.parse_media_cons rest (Int.natCast_nonneg left') hmore
        rw [Nat.cast_add, hcons]
        obtain hreject | ⟨blocks, rest, hlast, rfl, hlength'⟩ :=
          ih rest left' (by omega) haligned' (by omega)
        · left
          rw [hreject]
          rfl
        · right
          refine ⟨b :: blocks, rest, ?_, ?_, ?_⟩
          · intro last hmem
            match blocks, hlast, hlength' with
            | [], _, hlength' =>
                obtain rfl := Option.some.inj hmem
                exact fun hnone => hmore hnone (by exact_mod_cast hlength'.symm)
            | next :: blocks, hlast, _ => exact hlast last hmem
          · rw [List.flatMap_cons, List.append_assoc]
          · rw [List.flatMap_cons, List.length_append, hlength']
      · by_cases hzero : left = 0
        · subst hzero
          exact .inr ⟨[], payload, by simp [LastReports], rfl, rfl⟩
        · left
          have hshort : ¬ (kHeaderPerMediaSssrcLength : ℤ) < left :=
            fun h => hlong (Int.ofNat_lt.mp h)
          rw [parseMedia, dif_neg hshort, if_neg (by exact_mod_cast hzero)]

end ParsedFeedback

/-! ## Requests -/

/-- The bytes of a request, with three reserved ones. -/
structure FirEntry where
  request : FirRequest
  reserved : BitVec 24

/-- The bytes of an entry. -/
def FirEntry.bytes (e : FirEntry) : List Byte :=
  bytesOfUint32 e.request.ssrc ++ [e.request.seqNr] ++ bytesOfUint24 e.reserved

theorem FirEntry.bytes_length (e : FirEntry) : e.bytes.length = Fir.kFciLength :=
  rfl

theorem exists_fir_entry {p : List Byte} (h : Fir.kFciLength ≤ p.length) :
    ∃ (e : FirEntry) (rest : List Byte), p = e.bytes ++ rest := by
  simp only [Fir.kFciLength] at h
  obtain ⟨ssrc, p, rfl⟩ := exists_uint32_bytes (p := p) (by omega)
  rw [List.length_append, bytes_of_uint32_length] at h
  match p, h with
  | seqNr :: p, h =>
      rw [List.length_cons] at h
      obtain ⟨reserved, rest, rfl⟩ := exists_uint24_bytes (p := p) (by omega)
      exact ⟨⟨⟨ssrc, seqNr⟩, reserved⟩, rest, by simp [FirEntry.bytes]⟩

/-- The requests are read in their order. -/
theorem Fir.read_requests_bytes (entries : List FirEntry) (rest : List Byte) :
    readRequests entries.length (entries.flatMap FirEntry.bytes ++ rest) =
      some (entries.map FirEntry.request) := by
  induction entries with
  | nil => rfl
  | cons entry entries ih =>
      have hdrop : (entry.bytes ++ (entries.flatMap FirEntry.bytes ++ rest)).drop kFciLength =
          entries.flatMap FirEntry.bytes ++ rest := by
        rw [← entry.bytes_length, List.drop_left]
      have hread : takeUint32 (entry.bytes ++ (entries.flatMap FirEntry.bytes ++ rest)) =
          some (entry.request.ssrc, entry.request.seqNr :: (bytesOfUint24 entry.reserved ++
            (entries.flatMap FirEntry.bytes ++ rest))) := by
        simp [FirEntry.bytes]
      rw [List.flatMap_cons, List.append_assoc, List.length_cons, readRequests, hread, hdrop, ih]
      rfl

end MiniRtc
