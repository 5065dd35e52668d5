import MiniRtc.Rtcp.Compound

/-!
# What RTCP packets say

An `RtcpMessage` is the content of a packet that the transport accepts, and `Represents` ties it to
the packet in a buffer. A handler accepts exactly the packets of messages, and what it does depends
on the message alone: not on the padding, and not on what follows the packet.
-/

namespace MiniRtc

open Wire RtcpReportBlock

/-- The content of a packet. -/
inductive RtcpMessage where
  | senderReport (info : SenderInfo) (reports : List RtcpReportBlock) (extension : List Byte)
  | receiverReport (senderSsrc : BitVec 32) (reports : List RtcpReportBlock)
      (extension : List Byte)
  | feedback (senderSsrc : BitVec 32) (blocks : List MediaBlock) (timestamp : BitVec 32)
  | nack (senderSsrc mediaSsrc : BitVec 32) (items : List PackedNack) (extension : List Byte)
  | fir (senderSsrc mediaSsrc : BitVec 32) (entries : List FirEntry)
  | unknown (packetType : Byte) (format : BitVec 5) (payload : List Byte)

/-- The packets that have a handler. -/
def HasHandler (packetType : Byte) (format : BitVec 5) : Prop :=
  packetType = kSenderReportType ∨ packetType = kReceiverReportType ∨
    packetType = ParsedFeedback.kPacketType ∧ (format = 11 ∨ format = 1) ∨
    packetType = Fir.kPacketType ∧ format = 4

namespace RtcpMessage

/-- The type of the packet. -/
def packetType : RtcpMessage → Byte
  | senderReport .. => kSenderReportType
  | receiverReport .. => kReceiverReportType
  | feedback .. => ParsedFeedback.kPacketType
  | nack .. => Nack.kPacketType
  | fir .. => Fir.kPacketType
  | unknown type _ _ => type

/-- The count or the format of the packet. -/
def format : RtcpMessage → BitVec 5
  | senderReport _ reports _ => BitVec.ofNat 5 reports.length
  | receiverReport _ reports _ => BitVec.ofNat 5 reports.length
  | feedback .. => 11
  | nack .. => 1
  | fir .. => 4
  | unknown _ format _ => format

/-- The payload of the packet. -/
def payload : RtcpMessage → List Byte
  | senderReport info reports extension =>
      SenderReport.infoBytes info ++ (reports.flatMap create ++ extension)
  | receiverReport senderSsrc reports extension =>
      bytesOfUint32 senderSsrc ++ (reports.flatMap create ++ extension)
  | feedback senderSsrc blocks timestamp =>
      bytesOfUint32 senderSsrc ++ (blocks.flatMap MediaBlock.bytes ++ bytesOfUint32 timestamp)
  | nack senderSsrc mediaSsrc items extension =>
      bytesOfUint32 senderSsrc ++ (bytesOfUint32 mediaSsrc ++
        (items.flatMap Nack.itemBytes ++ extension))
  | fir senderSsrc mediaSsrc entries =>
      bytesOfUint32 senderSsrc ++ (bytesOfUint32 mediaSsrc ++ entries.flatMap FirEntry.bytes)
  | unknown _ _ payload => payload

/-- What the parsers ask of the content. -/
def WellFormed : RtcpMessage → Prop
  | senderReport _ reports _ => reports.length ≤ 0x1f
  | receiverReport _ reports _ => reports.length ≤ 0x1f
  | feedback _ blocks _ => blocks ≠ [] ∧ LastReports blocks
  | nack _ _ items extension => items ≠ [] ∧ extension.length < 4
  | fir _ _ entries => entries ≠ []
  | unknown type format _ => ¬ HasHandler type format

/-- The calls of the controller for a message. -/
def calls : RtcpMessage → List RtcpCall
  | senderReport info reports _ =>
      [.onSenderReport ⟨info.senderSsrc, info, reports, [], rfl⟩]
  | receiverReport .. => []
  | feedback senderSsrc blocks timestamp =>
      [.onCongestionControlFeedback ⟨senderSsrc, blocks.flatMap MediaBlock.packets, timestamp⟩]
  | nack _ mediaSsrc items _ => [.onReceiveNack mediaSsrc (PackedNack.unpack items)]
  | fir _ _ entries => entries.map fun entry => .fullIntraRequest entry.request.ssrc
  | unknown .. => []

/-- The report blocks of a message with their sender. -/
def reportBlocks : RtcpMessage → List (BitVec 32 × RtcpReportBlock)
  | receiverReport senderSsrc reports _ => reports.map (senderSsrc, ·)
  | _ => []

/-- What a message leaves for the report blocks of the buffer. -/
def effect (clock : Nat → ClockReading) (info : RtcpPacketInfo) : RtcpMessage → RtcpPacketInfo
  | receiverReport senderSsrc reports _ =>
      reports.foldl (IceTransport.handleReportBlock clock senderSsrc)
        { info with remoteSsrc := senderSsrc }
  | _ => info

end RtcpMessage

/-- A packet has the content of a message. -/
structure RtcpBlock.Represents (b : RtcpBlock) (m : RtcpMessage) : Prop where
  packetType : b.packetType = m.packetType
  format : b.countOrFormat = m.format
  payload : b.payload = m.payload
  wellFormed : m.WellFormed

/-! ## A message is accepted -/

namespace IceTransport

variable {clock : Nat → ClockReading} {b : RtcpBlock}

theorem header_payload (rest : List Byte) :
    (b.header rest).payload = b.payload ++ (b.padding ++ rest) :=
  List.append_assoc ..

theorem parse_feedback_payload {packet : RtcpCommonHeader} {senderSsrc timestamp : BitVec 32}
    {blocks : List MediaBlock} {rest : List Byte} (hlast : LastReports blocks)
    (hpayload : packet.payload = bytesOfUint32 senderSsrc ++
      (blocks.flatMap MediaBlock.bytes ++ (bytesOfUint32 timestamp ++ rest)))
    (hsize : packet.payloadSize = 8 + (blocks.flatMap MediaBlock.bytes).length)
    (haligned : 4 ∣ packet.payloadSize) :
    ParsedFeedback.parse packet =
      some (some ⟨senderSsrc, blocks.flatMap MediaBlock.packets, timestamp⟩) := by
  have hfour : ¬ (packet.payloadSize % 4 ≠ 0 ∨ packet.payloadSize <
      ParsedFeedback.kSenderSsrcLength + ParsedFeedback.kTimestampLength) := by
    simp only [ParsedFeedback.kSenderSsrcLength, ParsedFeedback.kTimestampLength]
    omega
  have hend : packet.payload.drop (packet.payloadSize - ParsedFeedback.kTimestampLength) =
      bytesOfUint32 timestamp ++ rest := by
    have hlength : packet.payloadSize - ParsedFeedback.kTimestampLength =
        (bytesOfUint32 senderSsrc ++ blocks.flatMap MediaBlock.bytes).length := by
      rw [hsize, List.length_append, bytes_of_uint32_length]
      simp only [ParsedFeedback.kTimestampLength]
      omega
    rw [hlength, hpayload, ← List.append_assoc, List.drop_left]
  have hleft : (packet.payloadSize : ℤ) - ParsedFeedback.kSenderSsrcLength -
      ParsedFeedback.kTimestampLength = (blocks.flatMap MediaBlock.bytes).length := by
    simp only [ParsedFeedback.kSenderSsrcLength, ParsedFeedback.kTimestampLength]
    omega
  unfold ParsedFeedback.parse
  rw [if_neg hfour, hend, hpayload, hleft]
  simp only [take_uint32_bytes, Option.bind_eq_bind, Option.bind_some,
    ParsedFeedback.parse_media_blocks _ _ hlast]
  rfl

theorem parse_fir_payload {packet : RtcpCommonHeader} {senderSsrc mediaSsrc : BitVec 32}
    {entries : List FirEntry} {rest : List Byte} (hentries : entries ≠ [])
    (hpayload : packet.payload = bytesOfUint32 senderSsrc ++ (bytesOfUint32 mediaSsrc ++
      (entries.flatMap FirEntry.bytes ++ rest)))
    (hsize : packet.payloadSize = 8 + 8 * entries.length) :
    Fir.parse packet = some (some ⟨senderSsrc, mediaSsrc, entries.map FirEntry.request⟩) := by
  have hpos := List.length_pos_of_ne_nil hentries
  have hlong : ¬ packet.payloadSize < Fir.kCommonFeedbackLength + Fir.kFciLength := by
    simp only [Fir.kCommonFeedbackLength, Fir.kFciLength]
    omega
  have hwhole : ¬ (packet.payloadSize - Fir.kCommonFeedbackLength) % Fir.kFciLength ≠ 0 := by
    simp only [Fir.kCommonFeedbackLength, Fir.kFciLength]
    omega
  have hcount : (packet.payloadSize - Fir.kCommonFeedbackLength) / Fir.kFciLength =
      entries.length := by
    simp only [Fir.kCommonFeedbackLength, Fir.kFciLength]
    omega
  have hitems : packet.payload.drop Fir.kCommonFeedbackLength =
      entries.flatMap FirEntry.bytes ++ rest := by
    rw [hpayload, ← List.append_assoc]
    exact List.drop_left' rfl
  unfold Fir.parse
  rw [if_neg hlong, if_neg hwhole, hcount, hitems, hpayload]
  simp only [take_uint32_bytes, Option.bind_eq_bind, Option.bind_some, Fir.read_requests_bytes]

theorem blocks_aligned (blocks : List MediaBlock) :
    4 ∣ 8 + (blocks.flatMap MediaBlock.bytes).length := by
  induction blocks with
  | nil => exact ⟨2, rfl⟩
  | cons block blocks ih =>
      have haligned := block.aligned
      rw [List.flatMap_cons, List.length_append, block.bytes_length]
      split_ifs at haligned <;> omega

theorem packets_ne_nil {blocks : List MediaBlock} (hsome : blocks ≠ [])
    (hlast : LastReports blocks) : blocks.flatMap MediaBlock.packets ≠ [] := by
  have hmem := List.getLast_mem hsome
  have hreports := hlast _ (List.getLast?_eq_some_getLast hsome)
  refine fun hnone => hreports ?_
  have hnone' := List.flatMap_eq_nil_iff.mp hnone _ hmem
  cases hlist : (blocks.getLast hsome).reports with
  | nil => rfl
  | cons report reports =>
      rw [MediaBlock.packets, hlist] at hnone'
      exact absurd hnone' (List.cons_ne_nil _ _)

/-- A format is compared in the same way in 5 and in 8 bits. -/
theorem set_width_format (format : BitVec 5) :
    (format.setWidth 8 = ParsedFeedback.kFeedbackMessageType ↔ format = 11) ∧
      (format.setWidth 8 = BitVec.ofNat 8 Nack.kFeedbackMessageType ↔ format = 1) ∧
      (format.setWidth 8 = Fir.kFeedbackMessageType ↔ format = 4) := by
  revert format
  decide

/-- A packet of a message is handled as the message says. -/
theorem handle_represented {m : RtcpMessage} (h : b.Represents m) (rest : List Byte)
    (info : RtcpPacketInfo) :
    handleBlock clock true (b.header rest) info = some ⟨true, m.effect clock info, m.calls⟩ := by
  have htype : (b.header rest).packetType = m.packetType := h.packetType
  have hformat : (b.header rest).countOrFormat = m.format.setWidth 8 :=
    congrArg (BitVec.setWidth 8) h.format
  have hsize : (b.header rest).payloadSize = m.payload.length := congrArg List.length h.payload
  have hpayload : (b.header rest).payload = m.payload ++ (b.padding ++ rest) := by
    rw [header_payload, h.payload]
  have hwell := h.wellFormed
  unfold handleBlock
  rw [htype, hformat]
  cases m with
  | senderReport sender reports extension =>
      have hcount : (b.header rest).countOrFormat.toNat = reports.length := by
        rw [hformat]
        exact (congrArg BitVec.toNat (set_width_count hwell).1).trans (set_width_count hwell).2
      have hlong : kSenderInfoLength + reports.length * kLength ≤ (b.header rest).payloadSize := by
        rw [hsize, RtcpMessage.payload, List.length_append, List.length_append,
          flat_map_create_length, ← Nat.add_assoc]
        exact Nat.le_add_right _ _
      simp only [RtcpMessage.payload, List.append_assoc] at hpayload
      rw [RtcpMessage.packetType, if_pos rfl, handleSenderReport,
        SenderReport.parse_payload _ hcount (by simpa using hpayload) hlong]
      rfl
  | receiverReport senderSsrc reports extension =>
      have hcount : (b.header rest).countOrFormat.toNat = reports.length := by
        rw [hformat]
        exact (congrArg BitVec.toNat (set_width_count hwell).1).trans (set_width_count hwell).2
      have hlong : kReceiverInfoLength + reports.length * kLength ≤
          (b.header rest).payloadSize := by
        rw [hsize, RtcpMessage.payload, List.length_append, List.length_append,
          flat_map_create_length, ← Nat.add_assoc]
        exact Nat.le_add_right _ _
      have hsome : ¬ kReceiverInfoLength + reports.length * kLength = 0 := by
        simp only [kReceiverInfoLength]
        omega
      simp only [RtcpMessage.payload, List.append_assoc] at hpayload
      rw [RtcpMessage.packetType, if_neg (by decide), if_pos rfl, handleReceiverReport,
        ReceiverReport.parse_payload _ hcount hpayload hlong]
      simp only [Option.bind_eq_bind, Option.bind_some, if_neg hsome]
      rfl
  | feedback senderSsrc blocks timestamp =>
      obtain ⟨hsome, hlast⟩ := hwell
      have hlength : (b.header rest).payloadSize =
          8 + (blocks.flatMap MediaBlock.bytes).length := by
        rw [hsize, RtcpMessage.payload]
        simp only [List.length_append, bytes_of_uint32_length]
        omega
      simp only [RtcpMessage.payload, List.append_assoc] at hpayload
      rw [RtcpMessage.packetType, if_neg (by decide), if_neg (by decide), if_pos rfl,
        RtcpMessage.format, if_pos (by decide), handleCongestionControlFeedback,
        parse_feedback_payload hlast hpayload hlength (hlength ▸ blocks_aligned blocks)]
      simp only [Option.bind_eq_bind, Option.bind_some, if_neg (packets_ne_nil hsome hlast)]
      rfl
  | nack senderSsrc mediaSsrc items extension =>
      obtain ⟨hitems, hshort⟩ := hwell
      have hlength : (b.header rest).payloadSize =
          8 + items.length * 4 + extension.length := by
        rw [hsize, RtcpMessage.payload]
        simp [Nack.itemBytes, List.length_flatMap]
        omega
      simp only [RtcpMessage.payload, List.append_assoc] at hpayload
      rw [RtcpMessage.packetType, if_neg (by decide), if_neg (by decide), if_pos (by decide),
        RtcpMessage.format, if_neg (by decide), if_pos (by decide), handleNack,
        Nack.parse_payload _ hitems hpayload]
      · rfl
      · simp only [Nack.kCommonFeedbackLength, Nack.kNackItemLength]
        omega
      · simp only [Nack.kCommonFeedbackLength, Nack.kNackItemLength]
        omega
  | fir senderSsrc mediaSsrc entries =>
      have hlength : (b.header rest).payloadSize = 8 + 8 * entries.length := by
        rw [hsize, RtcpMessage.payload]
        simp [FirEntry.bytes, List.length_flatMap]
        omega
      simp only [RtcpMessage.payload, List.append_assoc] at hpayload
      rw [RtcpMessage.packetType, if_neg (by decide), if_neg (by decide), if_neg (by decide),
        if_pos rfl, RtcpMessage.format, if_pos (by decide), handleFir,
        parse_fir_payload hwell hpayload hlength]
      simp [whenPresent, RtcpMessage.effect, RtcpMessage.calls]
  | unknown type format payload =>
      -- Every handler of the switch would contradict that the message has none.
      have hnone : ¬ HasHandler type format := hwell
      simp only [HasHandler, not_or, not_and] at hnone
      obtain ⟨hsender, hreceiver, hfeedback, hfir⟩ := hnone
      obtain ⟨hcongestion, hnack, hintra⟩ := set_width_format format
      rw [RtcpMessage.packetType, RtcpMessage.format, if_neg hsender, if_neg hreceiver]
      split_ifs with htype' hformat' hformat'' hfirtype hformat'''
      · exact absurd (hcongestion.mp hformat') (hfeedback htype').1
      · exact absurd (hnack.mp hformat'') (hfeedback htype').2
      · rfl
      · exact absurd (hintra.mp hformat''') (hfir hfirtype)
      · rfl
      · rfl

/-! ## Nothing else is accepted -/

theorem sender_report_rejected (hnone : ∀ m, ¬ b.Represents m)
    (htype : b.packetType = kSenderReportType) (rest : List Byte) (info : RtcpPacketInfo) :
    handleSenderReport true (b.header rest) info = some ⟨false, info, []⟩ := by
  have hshort : b.payload.length < kSenderInfoLength + b.countOrFormat.toNat * kLength := by
    by_contra hlong
    rw [not_lt] at hlong
    obtain ⟨sender, p, hsender⟩ := exists_sender_info (p := b.payload) (by omega)
    have hinfo : (SenderReport.infoBytes sender).length = kSenderInfoLength := rfl
    rw [hsender, List.length_append, hinfo] at hlong
    obtain ⟨reports, extension, rfl, hcount⟩ := exists_items (fun _ => exists_report_block)
      create_length b.countOrFormat.toNat p (by omega)
    refine hnone (.senderReport sender reports extension) ⟨htype, ?_, hsender, ?_⟩
    · rw [RtcpMessage.format, hcount, BitVec.ofNat_toNat, BitVec.setWidth_eq]
    · have hformat := b.countOrFormat.isLt
      show reports.length ≤ 0x1f
      omega
  have hcount : (b.header rest).countOrFormat.toNat = b.countOrFormat.toNat :=
    BitVec.toNat_setWidth_of_le (by decide)
  unfold handleSenderReport SenderReport.parse
  rw [hcount]
  dsimp only
  rw [if_pos (show (b.header rest).payloadSize < _ from hshort)]
  rfl

theorem receiver_report_rejected (hnone : ∀ m, ¬ b.Represents m)
    (htype : b.packetType = kReceiverReportType) (rest : List Byte) (info : RtcpPacketInfo) :
    handleReceiverReport clock (b.header rest) info = some ⟨false, info, []⟩ := by
  have hshort : b.payload.length < kReceiverInfoLength + b.countOrFormat.toNat * kLength := by
    by_contra hlong
    rw [not_lt, kReceiverInfoLength] at hlong
    obtain ⟨senderSsrc, p, hsender⟩ := exists_uint32_bytes (p := b.payload) (by omega)
    rw [hsender, List.length_append, bytes_of_uint32_length] at hlong
    obtain ⟨reports, extension, rfl, hcount⟩ := exists_items (fun _ => exists_report_block)
      create_length b.countOrFormat.toNat p (by omega)
    refine hnone (.receiverReport senderSsrc reports extension) ⟨htype, ?_, hsender, ?_⟩
    · rw [RtcpMessage.format, hcount, BitVec.ofNat_toNat, BitVec.setWidth_eq]
    · have hformat := b.countOrFormat.isLt
      show reports.length ≤ 0x1f
      omega
  have hcount : (b.header rest).countOrFormat.toNat = b.countOrFormat.toNat :=
    BitVec.toNat_setWidth_of_le (by decide)
  unfold handleReceiverReport ReceiverReport.parse
  rw [hcount]
  dsimp only
  rw [if_pos (show (b.header rest).payloadSize < _ from hshort)]
  rfl

theorem nack_rejected (hnone : ∀ m, ¬ b.Represents m) (htype : b.packetType = Nack.kPacketType)
    (hformat : b.countOrFormat = 1) (rest : List Byte) (info : RtcpPacketInfo) :
    handleNack true (b.header rest) info = some ⟨false, info, []⟩ := by
  have hshort : b.payload.length < Nack.kCommonFeedbackLength + Nack.kNackItemLength := by
    by_contra hlong
    rw [not_lt, Nack.kCommonFeedbackLength, Nack.kNackItemLength] at hlong
    obtain ⟨senderSsrc, p, hsender⟩ := exists_uint32_bytes (p := b.payload) (by omega)
    rw [hsender, List.length_append, bytes_of_uint32_length] at hlong
    obtain ⟨mediaSsrc, p, rfl⟩ := exists_uint32_bytes (p := p) (by omega)
    rw [List.length_append, bytes_of_uint32_length] at hlong
    obtain ⟨items, extension, rfl, hcount⟩ := exists_items (fun _ => Nack.exists_item)
      Nack.item_bytes_length (p.length / 4) p (Nat.div_mul_le_self _ _)
    have hlength : (items.flatMap Nack.itemBytes).length = items.length * 4 := by
      simp [Nack.itemBytes, List.length_flatMap]
    rw [List.length_append, hlength] at hcount hlong
    refine hnone (.nack senderSsrc mediaSsrc items extension) ⟨htype, hformat, hsender, ?_, ?_⟩
    · refine List.ne_nil_of_length_pos ?_
      omega
    · omega
  unfold handleNack Nack.parse
  rw [if_pos (show (b.header rest).payloadSize < _ from hshort)]
  rfl

theorem fir_rejected (hnone : ∀ m, ¬ b.Represents m) (htype : b.packetType = Fir.kPacketType)
    (hformat : b.countOrFormat = 4) (rest : List Byte) (info : RtcpPacketInfo) :
    handleFir true (b.header rest) info = some ⟨false, info, []⟩ := by
  have hreject : Fir.parse (b.header rest) = some none := by
    unfold Fir.parse
    split_ifs with hshort hpartial
    · rfl
    · rfl
    · exfalso
      replace hshort : ¬ b.payload.length < 16 := hshort
      replace hpartial : ¬ (b.payload.length - 8) % 8 ≠ 0 := hpartial
      obtain ⟨senderSsrc, p, hsender⟩ := exists_uint32_bytes (p := b.payload) (by omega)
      rw [hsender, List.length_append, bytes_of_uint32_length] at hshort hpartial
      obtain ⟨mediaSsrc, p, rfl⟩ := exists_uint32_bytes (p := p) (by omega)
      rw [List.length_append, bytes_of_uint32_length] at hshort hpartial
      obtain ⟨entries, rest, rfl, hcount⟩ := exists_items (fun _ => exists_fir_entry)
        FirEntry.bytes_length (p.length / 8) p (Nat.div_mul_le_self _ _)
      have hlength : (entries.flatMap FirEntry.bytes).length = entries.length * 8 := by
        simp [FirEntry.bytes, List.length_flatMap]
      rw [List.length_append, hlength] at hcount hshort hpartial
      obtain rfl : rest = [] := List.eq_nil_of_length_eq_zero (by omega)
      rw [List.append_nil] at hsender
      refine hnone (.fir senderSsrc mediaSsrc entries) ⟨htype, hformat, hsender, ?_⟩
      refine List.ne_nil_of_length_pos ?_
      simp only [List.length_nil] at hshort
      omega
  unfold handleFir
  rw [hreject]
  rfl

theorem feedback_rejected (hnone : ∀ m, ¬ b.Represents m)
    (htype : b.packetType = ParsedFeedback.kPacketType) (hformat : b.countOrFormat = 11)
    (rest : List Byte) (info : RtcpPacketInfo) :
    handleCongestionControlFeedback true (b.header rest) info = some ⟨false, info, []⟩ := by
  by_cases hbad : b.payload.length % 4 ≠ 0 ∨ b.payload.length < 8
  · have hbad' : (b.header rest).payloadSize % 4 ≠ 0 ∨ (b.header rest).payloadSize <
        ParsedFeedback.kSenderSsrcLength + ParsedFeedback.kTimestampLength := hbad
    unfold handleCongestionControlFeedback ParsedFeedback.parse
    rw [if_pos hbad']
    rfl
  · obtain ⟨senderSsrc, p, hsender⟩ := exists_uint32_bytes (p := b.payload) (by omega)
    rw [hsender, List.length_append, bytes_of_uint32_length] at hbad
    obtain ⟨timestamp, tail, htail⟩ := exists_uint32_bytes (p := p.drop (p.length - 4)) (by
      rw [List.length_drop]
      omega)
    have hnil : tail = [] := by
      have hlength := congrArg List.length htail
      rw [List.length_drop, List.length_append, bytes_of_uint32_length] at hlength
      exact List.eq_nil_of_length_eq_zero (by omega)
    obtain ⟨q, hq⟩ : ∃ q, p = q ++ bytesOfUint32 timestamp := by
      refine ⟨p.take (p.length - 4), ?_⟩
      rw [hnil, List.append_nil] at htail
      rw [← htail, List.take_append_drop]
    have hlength : p.length = q.length + 4 := by
      rw [hq, List.length_append, bytes_of_uint32_length]
    have hpayload : (b.header rest).payload = bytesOfUint32 senderSsrc ++
        (q ++ (bytesOfUint32 timestamp ++ (b.padding ++ rest))) := by
      rw [header_payload, hsender, hq]
      simp only [List.append_assoc]
    have hsize : (b.header rest).payloadSize = 8 + q.length := by
      show b.payload.length = _
      rw [hsender, List.length_append, bytes_of_uint32_length, hlength]
      omega
    obtain hreject | ⟨blocks, rest', hlast, hblocks, hblocks'⟩ :=
      ParsedFeedback.parse_media_cases q.length
        (q ++ (bytesOfUint32 timestamp ++ (b.padding ++ rest))) q.length le_rfl (by omega)
        (by rw [List.length_append]; omega)
    · have hleft : ((8 + q.length : Nat) : ℤ) - ParsedFeedback.kSenderSsrcLength -
          ParsedFeedback.kTimestampLength = q.length := by
        simp only [ParsedFeedback.kSenderSsrcLength, ParsedFeedback.kTimestampLength]
        omega
      have hdrop : (bytesOfUint32 senderSsrc ++
          (q ++ (bytesOfUint32 timestamp ++ (b.padding ++ rest)))).drop
            (8 + q.length - ParsedFeedback.kTimestampLength) =
              bytesOfUint32 timestamp ++ (b.padding ++ rest) := by
        have hskip : 8 + q.length - ParsedFeedback.kTimestampLength =
            (bytesOfUint32 senderSsrc ++ q).length := by
          rw [List.length_append, bytes_of_uint32_length, ParsedFeedback.kTimestampLength]
          omega
        rw [hskip, ← List.append_assoc, List.drop_left]
      unfold handleCongestionControlFeedback ParsedFeedback.parse
      rw [hsize, hpayload, hdrop, hleft, if_neg (by
        simp only [ParsedFeedback.kSenderSsrcLength, ParsedFeedback.kTimestampLength]
        omega)]
      simp only [take_uint32_bytes, Option.bind_eq_bind, Option.bind_some, hreject]
      rfl
    · obtain ⟨rfl, -⟩ := List.append_inj hblocks hblocks'.symm
      by_cases hsome : blocks = []
      · -- without blocks there are no packets
        subst hsome
        have hparse := parse_feedback_payload hlast hpayload hsize (by omega)
        unfold handleCongestionControlFeedback
        rw [hparse]
        rfl
      · refine absurd ⟨htype, hformat, ?_, hsome, hlast⟩
          (hnone (.feedback senderSsrc blocks timestamp))
        rw [hsender, hq]
        rfl

/-- A packet of no message is rejected, and nothing is done for it. -/
theorem handle_rejected (hnone : ∀ m, ¬ b.Represents m) (rest : List Byte)
    (info : RtcpPacketInfo) :
    handleBlock clock true (b.header rest) info = some ⟨false, info, []⟩ := by
  have hknown : HasHandler b.packetType b.countOrFormat := by
    by_contra hunknown
    exact hnone (.unknown b.packetType b.countOrFormat b.payload) ⟨rfl, rfl, rfl, hunknown⟩
  have hheader : (b.header rest).packetType = b.packetType := rfl
  have hcount : (b.header rest).countOrFormat = b.countOrFormat.setWidth 8 := rfl
  unfold handleBlock
  rw [hheader, hcount]
  obtain htype | htype | ⟨htype, hformat | hformat⟩ | ⟨htype, hformat⟩ := hknown
  · rw [htype, if_pos rfl, sender_report_rejected hnone htype]
  · rw [htype, if_neg (by decide), if_pos rfl, receiver_report_rejected hnone htype]
  · rw [htype, hformat, if_neg (by decide), if_neg (by decide), if_pos rfl, if_pos (by decide),
      feedback_rejected hnone htype hformat]
  · rw [htype, hformat, if_neg (by decide), if_neg (by decide), if_pos rfl, if_neg (by decide),
      if_pos (by decide), nack_rejected hnone htype hformat]
  · rw [htype, hformat, if_neg (by decide), if_neg (by decide), if_neg (by decide), if_pos rfl,
      if_pos (by decide), fir_rejected hnone htype hformat]

end IceTransport

end MiniRtc
