import MiniRtc.Qos.TransportFeedback
import Mathlib.Data.List.SplitBy

/-!
# The congestion control feedback packet

`Create` and `Parse` of `congestion_control_feedback.cpp`, with a packet as its fields: a block for
every SSRC, and in a block one word for every sequence number from the first one on. The length is
computed from the sequence numbers alone and must fit into the packet of the RTCP sender.

`create_reports` says that reports in runs of consecutive numbers, one for each SSRC, are created when
they are few enough, and read back as they are.
-/

namespace MiniRtc

/-- `IP_PACKET_SIZE`, the size of the buffer. -/
def kIpPacketSize : Nat := 1500

/-- The largest packet of the RTCP sender of a video receiver. -/
def kMaxRtcpPacketSize : Nat := 1200

/-- The block of an SSRC, as it is written. -/
structure ReportBlock where
  ssrc : BitVec 32
  beginSeq : BitVec 16
  numReports : BitVec 16
  reports : List (BitVec 16)

/-- A feedback packet, as it is written. -/
structure FeedbackMessage where
  senderSsrc : BitVec 32
  blocks : List ReportBlock
  reportTimestamp : BitVec 32

/-- What `Create` does: it finds no room, writes beyond the buffer, or writes the packet. -/
inductive CreateResult where
  | bufferFull
  | overrun
  | created (message : FeedbackMessage)

namespace CongestionControlFeedback

/-- Two reports in one block. -/
def sameSsrc (a b : PacketInfo) : Bool :=
  a.ssrc == b.ssrc

/-- The runs of reports with one SSRC. -/
def runsOf (packets : List PacketInfo) : List (List PacketInfo) :=
  packets.splitBy sameSsrc

/-- `increase_size_per_ssrc`: a header, a word for each report, and the alignment. -/
def blockSize (numberOfPackets : Nat) : Nat :=
  8 + 2 * numberOfPackets + if numberOfPackets % 2 ≠ 0 then 2 else 0

/-- The number of reports of a run, from its first and its last number. -/
def numberOfPackets : List PacketInfo → Nat
  | [] => 0
  | first :: rest =>
      (((first :: rest).getLast (by simp)).sequenceNumber - first.sequenceNumber + 1).toNat

/-- `BlockLength`. -/
def blockLength (packets : List PacketInfo) : Nat :=
  12 + ((runsOf packets).map fun run => blockSize (numberOfPackets run)).sum

/-- How much is written. -/
def writtenLength (packets : List PacketInfo) : Nat :=
  12 + ((runsOf packets).map fun run => blockSize run.length).sum

/-- `To2BitEcn`. -/
def to2BitEcn : EcnMarking → BitVec 16
  | .notEct => 0
  | .ect1 => 0x2000
  | .ect0 => 0x4000
  | .ce => 0x6000

/-- `To13bitAto`, where `ticks` is the conversion of an offset in floating point. -/
def to13BitAto (ticks : ℤ → BitVec 16) (arrivalTimeOffset : ℤ) : BitVec 16 :=
  if arrivalTimeOffset < 0 then 0x1FFF else ticks arrivalTimeOffset

/-- The word of a report. -/
def packetInfoWord (ticks : ℤ → BitVec 16) (report : PacketInfo) : BitVec 16 :=
  match report.arrivalTimeOffset with
  | none => 0
  | some offset => 0x8000 ||| to2BitEcn report.ecn ||| to13BitAto ticks offset

/-- `write_report_for_ssrc`. -/
def blockOf (ticks : ℤ → BitVec 16) : List PacketInfo → ReportBlock
  | [] => ⟨0, 0, 0, []⟩
  | first :: rest =>
      { ssrc := first.ssrc
        beginSeq := first.sequenceNumber
        numReports := BitVec.ofNat 16 (first :: rest).length
        reports := (first :: rest).map (packetInfoWord ticks) }

/-- `Create` at the start of an empty buffer. -/
def create (ticks : ℤ → BitVec 16) (senderSsrc : BitVec 32) (maxLength : Nat)
    (feedback : CongestionControlFeedback) : CreateResult :=
  if maxLength < blockLength feedback.packets then .bufferFull
  else if kIpPacketSize < writtenLength feedback.packets then .overrun
  else
    .created {
      senderSsrc
      blocks := (runsOf feedback.packets).map (blockOf ticks)
      reportTimestamp := feedback.reportTimestampCompactNtp }

end CongestionControlFeedback

/-- The packets that `Parse` finds received in a block. -/
def ReportBlock.receivedKeys (block : ReportBlock) : List SsrcAndRtpSequencenumber :=
  (block.reports.take block.numReports.toNat).zipIdx.filterMap fun report =>
    if report.1.msb then
      some { ssrc := block.ssrc
             rtpSequenceNumber := block.beginSeq + BitVec.ofNat 16 report.2 }
    else none

/-- The packets that `Parse` finds received. -/
def FeedbackMessage.receivedKeys (message : FeedbackMessage) : List SsrcAndRtpSequencenumber :=
  message.blocks.flatMap ReportBlock.receivedKeys

namespace CongestionControlFeedback

variable {ticks : ℤ → BitVec 16}

/-- A run of reports about one SSRC and consecutive numbers. -/
def Consecutive (run : List PacketInfo) : Prop :=
  ∃ (ssrc : BitVec 32) (start : ℤ), ∀ (i : Nat) (report : PacketInfo), run[i]? = some report →
    report.ssrc = ssrc ∧ report.sequenceNumber = BitVec.ofInt 16 (start + i)

/-- The reports of a run have one SSRC. -/
theorem Consecutive.ssrc_eq {run : List PacketInfo} (h : Consecutive run) {a b : PacketInfo}
    (ha : a ∈ run) (hb : b ∈ run) : a.ssrc = b.ssrc := by
  obtain ⟨ssrc, start, hrun⟩ := h
  obtain ⟨i, hi⟩ := List.mem_iff_getElem?.mp ha
  obtain ⟨j, hj⟩ := List.mem_iff_getElem?.mp hb
  exact (hrun i a hi).1.trans (hrun j b hj).1.symm

/-- The numbers of a run count on from the first one. -/
theorem Consecutive.number_eq {first : PacketInfo} {rest : List PacketInfo}
    (h : Consecutive (first :: rest)) {i : Nat} {report : PacketInfo}
    (hi : (first :: rest)[i]? = some report) :
    report.sequenceNumber = first.sequenceNumber + BitVec.ofNat 16 i := by
  obtain ⟨ssrc, start, hrun⟩ := h
  rw [(hrun i report hi).2, (hrun 0 first rfl).2, BitVec.ofInt_add, BitVec.ofInt_natCast]
  simp

/-- The number of reports that `BlockLength` takes for a run is its length. -/
theorem number_of_packets_eq {run : List PacketInfo} (h : Consecutive run)
    (hshort : run.length < 2 ^ 16) : numberOfPackets run = run.length := by
  cases run with
  | nil => rfl
  | cons first rest =>
      have hlast : (first :: rest)[rest.length]? = some ((first :: rest).getLast (by simp)) := by
        rw [List.getLast_eq_getElem]
        exact List.getElem?_eq_getElem _
      show (((first :: rest).getLast (by simp)).sequenceNumber - first.sequenceNumber + 1).toNat = _
      have hnext : BitVec.ofNat 16 rest.length + 1 = BitVec.ofNat 16 (first :: rest).length :=
        (BitVec.ofNat_add rest.length 1).symm
      rw [h.number_eq hlast, BitVec.add_comm first.sequenceNumber, BitVec.add_sub_cancel, hnext,
        BitVec.toNat_ofNat, Nat.mod_eq_of_lt hshort]

/-- The word of a report says whether the packet was received. -/
theorem msb_packet_info_word (report : PacketInfo) :
    (packetInfoWord ticks report).msb = report.arrivalTimeOffset.isSome := by
  unfold packetInfoWord
  cases report.arrivalTimeOffset with
  | none => exact BitVec.msb_zero
  | some offset =>
      have hfirst : (0x8000 : BitVec 16).msb = true := by decide
      simp only [BitVec.msb_or, hfirst, Bool.true_or, Option.isSome_some]

/-- Reading the block of a run gives the reports that are received. -/
theorem mem_received_keys_block {run : List PacketInfo} (h : Consecutive run)
    (hshort : run.length < 2 ^ 16) {key : SsrcAndRtpSequencenumber} :
    key ∈ (blockOf ticks run).receivedKeys ↔
      ∃ report ∈ run, report.arrivalTimeOffset.isSome = true ∧ report.key = key := by
  cases run with
  | nil => simp [blockOf, ReportBlock.receivedKeys]
  | cons first rest =>
      have hkey : ∀ (i : Nat) (report : PacketInfo), (first :: rest)[i]? = some report →
          report.key = { ssrc := first.ssrc
                         rtpSequenceNumber := first.sequenceNumber + BitVec.ofNat 16 i } := by
        intro i report hi
        unfold PacketInfo.key
        rw [h.number_eq hi, h.ssrc_eq (List.mem_of_getElem? hi) List.mem_cons_self]
      have htake : (blockOf ticks (first :: rest)).reports.take
          (blockOf ticks (first :: rest)).numReports.toNat =
          (first :: rest).map (packetInfoWord ticks) := by
        refine List.take_of_length_le ?_
        show _ ≤ (BitVec.ofNat 16 (first :: rest).length).toNat
        rw [BitVec.toNat_ofNat, Nat.mod_eq_of_lt hshort]
        exact le_of_eq (List.length_map _)
      unfold ReportBlock.receivedKeys
      rw [htake, List.mem_filterMap]
      constructor
      · rintro ⟨⟨word, i⟩, hin, hreport⟩
        obtain hword := List.mem_zipIdx_iff_getElem?.mp hin
        rw [List.getElem?_map, Option.map_eq_some_iff] at hword
        obtain ⟨report, hi, rfl⟩ := hword
        simp only [msb_packet_info_word] at hreport
        split_ifs at hreport with hreceived
        refine ⟨report, List.mem_of_getElem? hi, hreceived, ?_⟩
        rw [hkey i report hi]
        exact Option.some.inj hreport
      · rintro ⟨report, hin, hreceived, rfl⟩
        obtain ⟨i, hi⟩ := List.mem_iff_getElem?.mp hin
        refine ⟨(packetInfoWord ticks report, i), ?_, ?_⟩
        · rw [List.mem_zipIdx_iff_getElem?, List.getElem?_map, hi]
          rfl
        · simp only [msb_packet_info_word, hreceived, if_true]
          rw [hkey i report hi]
          rfl

/-- The blocks are the runs that the reports were joined from. -/
theorem runs_of_flatten {runs : List (List PacketInfo)} (hruns : ∀ run ∈ runs, Consecutive run)
    (hdistinct : runs.Pairwise fun a b => ∀ x ∈ a, ∀ y ∈ b, x.ssrc ≠ y.ssrc) :
    runsOf runs.flatten = runs.filter fun run => run ≠ [] := by
  have hflatten : runs.flatten = (runs.filter fun run => run ≠ []).flatten := by
    induction runs with
    | nil => rfl
    | cons run rest ih =>
        have hrest := ih (fun other hin => hruns other (List.mem_cons_of_mem _ hin))
          (List.pairwise_cons.mp hdistinct).2
        cases run with
        | nil => simpa using hrest
        | cons first later => simpa using hrest
  unfold runsOf
  rw [hflatten]
  refine List.splitBy_flatten (by simp) (fun run hin => ?_) ?_
  · have hrun := hruns run (List.mem_filter.mp hin).1
    refine List.Pairwise.isChain (List.pairwise_iff_forall_sublist.mpr fun {a b} hsub => ?_)
    exact beq_iff_eq.mpr (hrun.ssrc_eq (hsub.subset (by simp)) (hsub.subset (by simp)))
  · refine List.Pairwise.isChain ?_
    refine List.Pairwise.imp_of_mem (fun {a b} ha hb hne => ?_) (hdistinct.filter _)
    have hna : a ≠ [] := by simpa using (List.mem_filter.mp ha).2
    have hnb : b ≠ [] := by simpa using (List.mem_filter.mp hb).2
    refine ⟨hna, hnb, ?_⟩
    exact beq_eq_false_iff_ne.mpr (hne _ (List.getLast_mem hna) _ (List.head_mem hnb))

/-- The computed length is what is written when no run is longer than the numbers go. -/
theorem block_length_eq {runs : List (List PacketInfo)} (hruns : ∀ run ∈ runs, Consecutive run)
    (hdistinct : runs.Pairwise fun a b => ∀ x ∈ a, ∀ y ∈ b, x.ssrc ≠ y.ssrc)
    (hshort : ∀ run ∈ runs.filter (fun run => run ≠ []), run.length < 2 ^ 16) :
    blockLength runs.flatten = writtenLength runs.flatten := by
  unfold blockLength writtenLength
  rw [runs_of_flatten hruns hdistinct]
  congr 2
  refine List.map_congr_left fun run hin => ?_
  rw [number_of_packets_eq (hruns run (List.mem_filter.mp hin).1) (hshort run hin)]

/-- Reports in runs of consecutive numbers, one for each SSRC, are created when there is room for
them, and the packets that are read as received are those with an offset. -/
theorem create_reports {senderSsrc : BitVec 32} {maxLength : Nat} {compactNtp : BitVec 32}
    {runs : List (List PacketInfo)} (hruns : ∀ run ∈ runs, Consecutive run)
    (hdistinct : runs.Pairwise fun a b => ∀ x ∈ a, ∀ y ∈ b, x.ssrc ≠ y.ssrc)
    (hroom : 12 + ((runs.filter fun run => run ≠ []).map fun run => blockSize run.length).sum ≤
      maxLength) (hmax : maxLength ≤ kIpPacketSize) :
    ∃ message, create ticks senderSsrc maxLength ⟨runs.flatten, compactNtp⟩ = .created message ∧
      ∀ key, key ∈ message.receivedKeys ↔ ∃ run ∈ runs, ∃ report ∈ run,
        report.arrivalTimeOffset.isSome = true ∧ report.key = key := by
  have hsplit := runs_of_flatten hruns hdistinct
  have hshort : ∀ run ∈ runs.filter (fun run => run ≠ []), run.length < 2 ^ 16 := by
    intro run hin
    have hle := List.single_le_sum (fun _ _ => Nat.zero_le _) _
      (List.mem_map_of_mem (f := fun run => blockSize run.length) hin)
    unfold blockSize at hle
    unfold kIpPacketSize at hmax
    unfold blockSize at hroom
    omega
  have hlength := block_length_eq hruns hdistinct hshort
  have hwritten : writtenLength runs.flatten ≤ maxLength := by
    unfold writtenLength
    rw [hsplit]
    exact hroom
  refine ⟨{
    senderSsrc
    blocks := (runsOf runs.flatten).map (blockOf ticks)
    reportTimestamp := compactNtp }, ?_, fun key => ?_⟩
  · unfold create
    rw [if_neg (by rw [hlength]; exact not_lt.mpr hwritten),
      if_neg (not_lt.mpr (hwritten.trans hmax))]
  · show key ∈ ((runsOf runs.flatten).map (blockOf ticks)).flatMap ReportBlock.receivedKeys ↔ _
    rw [hsplit, List.mem_flatMap]
    constructor
    · rintro ⟨block, hblock, hkey⟩
      obtain ⟨run, hrun, rfl⟩ := List.mem_map.mp hblock
      have hin := (List.mem_filter.mp hrun).1
      exact ⟨run, hin, (mem_received_keys_block (hruns run hin) (hshort run hrun)).mp hkey⟩
    · rintro ⟨run, hin, report, hreport, hkey⟩
      have hrun : run ∈ runs.filter fun run => run ≠ [] :=
        List.mem_filter.mpr ⟨hin, by simpa using List.ne_nil_of_mem hreport⟩
      exact ⟨_, List.mem_map_of_mem hrun,
        (mem_received_keys_block (hruns run hin) (hshort run hrun)).mpr ⟨report, hreport, hkey⟩⟩

/-- Reports without room are not created: the computed length is too large, or it wraps and the
buffer is too small. -/
theorem create_ne_created {senderSsrc : BitVec 32} {maxLength : Nat} {compactNtp : BitVec 32}
    {runs : List (List PacketInfo)} (hruns : ∀ run ∈ runs, Consecutive run)
    (hdistinct : runs.Pairwise fun a b => ∀ x ∈ a, ∀ y ∈ b, x.ssrc ≠ y.ssrc)
    (hfull : maxLength < writtenLength runs.flatten) (message : FeedbackMessage) :
    create ticks senderSsrc maxLength ⟨runs.flatten, compactNtp⟩ ≠ .created message := by
  intro hcreated
  unfold create at hcreated
  split_ifs at hcreated with hroom hwritten
  have hsplit := runs_of_flatten hruns hdistinct
  have hlength : blockLength runs.flatten = writtenLength runs.flatten := by
    refine block_length_eq hruns hdistinct fun run hin => ?_
    have hle := List.single_le_sum (fun _ _ => Nat.zero_le _) _
      (List.mem_map_of_mem (f := fun run => blockSize run.length) hin)
    simp only [writtenLength, hsplit, kIpPacketSize, blockSize] at hle hwritten
    omega
  exact hroom (hlength ▸ hfull)

end CongestionControlFeedback

end MiniRtc
