import MiniRtc.Foundation.Run
import MiniRtc.Qos.TransportFeedback
import MiniRtc.Rtcp.Reports

/-!
# Loss statistics in receiver reports

The statistics that `InsertRtpPacket` keeps of original media packets, the report block that `SendRR`
makes of them, and the differences of successive reports that the sender computes in
`OnReceiverReport`.

The number of the last packet stands where the highest one is meant, in 16 bits, and the loss is
counted from it. So a report is exact only when the last packet is the highest one and no number has
wrapped. `reports_exact_iff` gives the condition for all reports of a run; the rest of it comes from
the offset that keeps a negative loss out of the reports.
-/

namespace MiniRtc

/-! ## The receiver -/

/-- The statistics of a `RtpVideoReceiver`. Times are in microseconds. -/
structure ReceiverStatistics where
  fractionLost : Byte := 0
  cumulativeLost : ℤ := 0
  jitter : BitVec 32 := 0
  extendedHighSeqNum : BitVec 16 := 0
  cumulativeLoss : ℤ := 0
  lastReportCumulativeLoss : ℤ := 0
  cumulativeLossRtcpOffset : ℤ := 0
  lastReceiveTime : Option ℤ := none
  lastPayloadTypeFrequency : Nat := 0
  lastExtendedHighSeqNum : BitVec 16 := 0
  jitterQ4 : BitVec 32 := 0
  lastReceivedTimestamp : BitVec 32 := 0
  hasReceivedMediaPacket : Bool := false
  lastRemoteNtpTimestamp : BitVec 32 := 0
  lastArrivalNtpTimestamp : BitVec 32 := 0

namespace ReceiverStatistics

/-- `ReviseFrequencyAndJitter`. -/
def reviseFrequencyAndJitter (s : ReceiverStatistics) (payloadTypeFrequency : Nat) :
    ReceiverStatistics :=
  if payloadTypeFrequency = s.lastPayloadTypeFrequency then s
  else if payloadTypeFrequency ≠ 0 then
    { s with
      jitterQ4 :=
        if s.lastPayloadTypeFrequency ≠ 0 then
          BitVec.ofNat 32 (s.jitterQ4.toNat * payloadTypeFrequency / s.lastPayloadTypeFrequency)
        else s.jitterQ4
      lastPayloadTypeFrequency := payloadTypeFrequency }
  else s

/-- The jitter after a packet with a new timestamp. -/
def updateJitter (s : ReceiverStatistics) (now lastReceiveTime : ℤ) (timestamp : BitVec 32) :
    ReceiverStatistics :=
  let receiveDiff := now - lastReceiveTime
  let receiveDiffRtp := BitVec.ofInt 32 (divideRoundToNearest (receiveDiff * 90000) 1000000)
  let timeDiffSamples := (receiveDiffRtp - (timestamp - s.lastReceivedTimestamp)).toInt
  let s := s.reviseFrequencyAndJitter 90000
  let jitterQ4 :=
    if timeDiffSamples < 5 * 90000 ∧ timeDiffSamples > -5 * 90000 then
      let jitterDiffQ4 := BitVec.ofNat 32 timeDiffSamples.natAbs <<< 4 - s.jitterQ4
      s.jitterQ4 + (jitterDiffQ4 + 8).sshiftRight 4
    else s.jitterQ4
  { s with jitterQ4, jitter := jitterQ4 >>> 4 }

/-- The part of `InsertRtpPacket` that counts an original media packet. -/
def onMediaPacket (s : ReceiverStatistics) (sequenceNumber : BitVec 16) (timestamp : BitVec 32)
    (now : ℤ) : ReceiverStatistics :=
  let s := { s with cumulativeLoss := s.cumulativeLoss - 1 }
  let s :=
    if s.lastReceiveTime.isNone then
      { s with
        lastExtendedHighSeqNum := sequenceNumber - 1
        extendedHighSeqNum := sequenceNumber - 1
        lastReceiveTime := some now }
    else s
  let s := { s with
    cumulativeLoss :=
      s.cumulativeLoss + ((sequenceNumber.toNat : ℤ) - (s.extendedHighSeqNum.toNat : ℤ))
    extendedHighSeqNum := sequenceNumber }
  let jittered :=
    if timestamp ≠ s.lastReceivedTimestamp then
      s.updateJitter now (s.lastReceiveTime.getD now) timestamp
    else s
  { s with
    jitter := jittered.jitter
    jitterQ4 := jittered.jitterQ4
    lastPayloadTypeFrequency := jittered.lastPayloadTypeFrequency
    lastReceivedTimestamp := timestamp
    lastReceiveTime := some now
    hasReceivedMediaPacket := true }

/-- The share of lost packets since the last report, on a scale to 255. -/
def fractionSinceLast (s : ReceiverStatistics) : Byte :=
  let expSinceLast : ℤ := (s.extendedHighSeqNum.toNat : ℤ) - (s.lastExtendedHighSeqNum.toNat : ℤ)
  let lostSinceLast := s.cumulativeLoss - s.lastReportCumulativeLoss
  if expSinceLast > 0 ∧ lostSinceLast > 0 then
    BitVec.ofInt 8 ((255 * lostSinceLast).tdiv expSinceLast)
  else 0

/-- The cumulative loss of a report, and the offset of the reports after it. A negative loss is
reported as zero, and the offset counts from it. -/
def reportedLoss (s : ReceiverStatistics) : ℤ × ℤ :=
  let cumulativeLost := s.cumulativeLoss + s.cumulativeLossRtcpOffset
  let (cumulativeLost, cumulativeLossRtcpOffset) :=
    if cumulativeLost < 0 then (0, -s.cumulativeLoss)
    else (cumulativeLost, s.cumulativeLossRtcpOffset)
  (if cumulativeLost > 0x7fffff then 0x7fffff else cumulativeLost, cumulativeLossRtcpOffset)

/-- `SendRR`, with the report block that it sends. -/
def sendRR (s : ReceiverStatistics) (remoteSsrc now : BitVec 32) :
    ReceiverStatistics × RtcpReportBlock :=
  let loss := s.reportedLoss
  let delaySinceLastSr : BitVec 32 :=
    if s.lastRemoteNtpTimestamp ≠ 0 then now - s.lastArrivalNtpTimestamp else 0
  let report : RtcpReportBlock :=
    { sourceSsrc := remoteSsrc
      fractionLost := s.fractionSinceLast
      extendedHighSeqNum := s.extendedHighSeqNum.setWidth 32
      jitter := s.jitter
      lastSr := s.lastRemoteNtpTimestamp
      delaySinceLastSr
      lostFits := no_loss_fits }
  ({ s with
      fractionLost := s.fractionSinceLast
      cumulativeLost := loss.1
      cumulativeLossRtcpOffset := loss.2
      lastExtendedHighSeqNum := s.extendedHighSeqNum
      lastReportCumulativeLoss := s.cumulativeLoss },
    (report.setCumulativeLost (BitVec.ofInt 32 loss.1)).2)

end ReceiverStatistics

/-! ## The sender -/

/-- `LossReport`. -/
structure LossReport where
  extendedHighestSequenceNumber : BitVec 32 := 0
  cumulativeLost : ℤ := 0

/-- `TransportLossReport`. -/
structure TransportLossReport where
  receiveTime : ℤ
  startTime : ℤ
  endTime : ℤ
  packetsLostDelta : ℤ
  packetsReceivedDelta : ℤ

/-- What an `IceTransportController` keeps of the reports on its streams. -/
structure LossReports where
  lastReportBlocks : BitVec 32 → Option LossReport := fun _ => none
  lastReportBlockTime : ℤ := 0

namespace LossReports

/-- One pass of the loop in `OnReceiverReport`, with the two sums. -/
def addBlock (acc : LossReports × BitVec 32 × ℤ) (reportBlock : RtcpReportBlock) :
    LossReports × BitVec 32 × ℤ :=
  let deltas :=
    match acc.1.lastReportBlocks reportBlock.sourceSsrc with
    | none => acc.2
    | some last =>
        (acc.2.1 + (reportBlock.extendedHighSeqNum - last.extendedHighestSequenceNumber),
          acc.2.2 + (reportBlock.cumulativeLost.toInt - last.cumulativeLost))
  let lastReport : LossReport :=
    { extendedHighestSequenceNumber := reportBlock.extendedHighSeqNum
      cumulativeLost := reportBlock.cumulativeLost.toInt }
  ({ acc.1 with
      lastReportBlocks :=
        Function.update acc.1.lastReportBlocks reportBlock.sourceSsrc (some lastReport) }, deltas)

/-- The packets and the lost packets since the last reports, as `OnReceiverReport` sums them up. -/
def deltas (s : LossReports) (reportBlockDatas : List RtcpReportBlock) : LossReports × ℤ × ℤ :=
  let sums := reportBlockDatas.foldl addBlock (s, 0, 0)
  (sums.1, sums.2.1.toInt, sums.2.2)

/-- The end of `OnReceiverReport`, with the message for the controller. -/
def onReceiverReport (s : LossReports) (now : ℤ) (reportBlockDatas : List RtcpReportBlock) :
    LossReports × Option TransportLossReport :=
  if reportBlockDatas = [] then (s, none)
  else
    let (s, totalPacketsDelta, totalPacketsLostDelta) := s.deltas reportBlockDatas
    let packetsReceivedDelta := totalPacketsDelta - totalPacketsLostDelta
    if totalPacketsDelta = 0 then (s, none)
    else if packetsReceivedDelta < 1 then (s, none)
    else
      ({ s with lastReportBlockTime := now },
        some
          { receiveTime := now
            startTime := s.lastReportBlockTime
            endTime := now
            packetsLostDelta := totalPacketsLostDelta
            packetsReceivedDelta })

end LossReports

/-! ## What the statistics count -/

/-- A cumulative loss as a report holds it. -/
def clampLoss (loss : ℤ) : ℤ :=
  min 0x7fffff (max 0 loss)

namespace ReceiverStatistics

variable (s : ReceiverStatistics)

/-- What a packet changes of the counts. -/
theorem on_media_packet_counts (sequenceNumber : BitVec 16) (timestamp : BitVec 32) (now : ℤ) :
    (s.onMediaPacket sequenceNumber timestamp now).extendedHighSeqNum = sequenceNumber ∧
      (s.onMediaPacket sequenceNumber timestamp now).cumulativeLoss = s.cumulativeLoss - 1 +
        ((sequenceNumber.toNat : ℤ) - ((if s.lastReceiveTime.isNone then sequenceNumber - 1
          else s.extendedHighSeqNum).toNat : ℤ)) ∧
      (s.onMediaPacket sequenceNumber timestamp now).cumulativeLossRtcpOffset =
        s.cumulativeLossRtcpOffset ∧
      (s.onMediaPacket sequenceNumber timestamp now).lastReceiveTime = some now ∧
      (s.onMediaPacket sequenceNumber timestamp now).hasReceivedMediaPacket = true := by
  cases hlast : s.lastReceiveTime with
  | none => simp [onMediaPacket, hlast]
  | some lastReceiveTime => simp [onMediaPacket, hlast]

/-- A report holds the clamped loss, and a negative one moves the offset. -/
theorem reported_loss_eq :
    s.reportedLoss = (clampLoss (s.cumulativeLoss + s.cumulativeLossRtcpOffset),
      if s.cumulativeLoss + s.cumulativeLossRtcpOffset < 0 then -s.cumulativeLoss
      else s.cumulativeLossRtcpOffset) := by
  unfold reportedLoss clampLoss
  by_cases hnegative : s.cumulativeLoss + s.cumulativeLossRtcpOffset < 0
  · have hclamp : min 0x7fffff (max 0 (s.cumulativeLoss + s.cumulativeLossRtcpOffset)) = 0 := by
      omega
    simp only [if_pos hnegative, hclamp]
    rfl
  · simp only [if_neg hnegative]
    split_ifs <;> exact Prod.ext (by omega) rfl

/-- The counts in a report. -/
theorem send_rr_block (remoteSsrc now : BitVec 32) :
    (s.sendRR remoteSsrc now).2.sourceSsrc = remoteSsrc ∧
      (s.sendRR remoteSsrc now).2.extendedHighSeqNum = s.extendedHighSeqNum.setWidth 32 ∧
      (s.sendRR remoteSsrc now).2.cumulativeLost.toInt =
        clampLoss (s.cumulativeLoss + s.cumulativeLossRtcpOffset) := by
  have hloss : s.reportedLoss.1 = clampLoss (s.cumulativeLoss + s.cumulativeLossRtcpOffset) :=
    congrArg Prod.fst s.reported_loss_eq
  have hbounds : 0 ≤ s.reportedLoss.1 ∧ s.reportedLoss.1 ≤ 0x7fffff := by
    rw [hloss]
    unfold clampLoss
    omega
  have htoInt : (BitVec.ofInt 32 s.reportedLoss.1).toInt = s.reportedLoss.1 :=
    BitVec.toInt_ofInt_eq_self (by decide) (by omega) (by omega)
  unfold sendRR RtcpReportBlock.setCumulativeLost
  simp only
  rw [dif_pos (by rw [htoInt]; omega)]
  exact ⟨rfl, rfl, htoInt.trans hloss⟩

end ReceiverStatistics

/-! ## Runs -/

/-- The packets that a receiver has received, by their numbers without wrap. -/
structure ReceivedPackets where
  first : ℤ
  highest : ℤ
  last : ℤ
  count : Nat

namespace ReceivedPackets

/-- The packets with one more. -/
def add (received : Option ReceivedPackets) (number : ℤ) : ReceivedPackets :=
  match received with
  | none => { first := number, highest := number, last := number, count := 1 }
  | some r =>
      { first := r.first, highest := max r.highest number, last := number, count := r.count + 1 }

/-- The packets that are missing. Copies make up for them, so it can be negative. -/
def loss (r : ReceivedPackets) : ℤ :=
  r.highest - r.first + 1 - r.count

end ReceivedPackets

/-- A receiver and the sender of its packets, with what was received so far and what was received
before the last report. -/
structure LossRun where
  statistics : ReceiverStatistics := {}
  lossReports : LossReports := {}
  received : Option ReceivedPackets := none
  reported : Option ReceivedPackets := none

/-- What happens in a run. A packet of an obsolete frame is dropped, it is not received. -/
inductive LossEvent where
  | packet (number : ℤ) (timestamp : BitVec 32) (now : ℤ) (obsolete : Bool)
  | report (now : BitVec 32) (senderNow : ℤ)

namespace LossRun

/-- One event. A report is sent when a packet has been received, and it reaches the sender. -/
def step (remoteSsrc : BitVec 32) (s : LossRun) : LossEvent → LossRun
  | .packet number timestamp now obsolete =>
      if obsolete then s
      else
        { s with
          statistics := s.statistics.onMediaPacket (BitVec.ofInt 16 number) timestamp now
          received := some (ReceivedPackets.add s.received number) }
  | .report now senderNow =>
      if s.statistics.hasReceivedMediaPacket then
        let result := s.statistics.sendRR remoteSsrc now
        { s with
          statistics := result.1
          lossReports := (s.lossReports.onReceiverReport senderNow [result.2]).1
          reported := s.received }
      else s

/-- The first packet has a 16-bit number, and later ones are within `2 ^ 15` of the highest. -/
def InWindow (s : LossRun) : LossEvent → Prop
  | .packet number _ _ obsolete => obsolete = false →
      (s.received = none → 0 ≤ number ∧ number < 2 ^ 16) ∧
        ∀ r ∈ s.received, |number - r.highest| ≤ 2 ^ 15
  | .report _ _ => True

/-- A report has the highest number and the clamped loss, and its differences from the report before
are the packets that were expected and those that were lost in between. -/
def Exact (remoteSsrc : BitVec 32) (s : LossRun) : LossEvent → Prop
  | .packet _ _ _ _ => True
  | .report now _ => ∀ r ∈ s.received,
      let reportBlock := (s.statistics.sendRR remoteSsrc now).2
      (reportBlock.extendedHighSeqNum.toNat : ℤ) = r.highest ∧
        reportBlock.cumulativeLost.toInt = clampLoss r.loss ∧
        ∀ before ∈ s.reported,
          (s.lossReports.deltas [reportBlock]).2 =
            (r.highest - before.highest, r.loss - before.loss)

/-- The last packet before a report is the highest one, and has not wrapped. Where the first number
is 0, nothing is missing at the first report, and the loss at two successive reports is not negative
or the same. -/
def LastHighest (s : LossRun) : LossEvent → Prop
  | .packet _ _ _ _ => True
  | .report _ _ => ∀ r ∈ s.received, r.last = r.highest ∧ r.highest < 2 ^ 16 ∧
      (s.reported = none → r.first ≠ 0 ∨ r.loss ≤ 0) ∧
      ∀ before ∈ s.reported, 0 ≤ before.loss ∧ 0 ≤ r.loss ∨ r.loss = before.loss

instance (s : LossRun) (event : LossEvent) : Decidable (s.InWindow event) :=
  match event with
  | .packet number _ _ obsolete => inferInstanceAs (Decidable (obsolete = false →
      (s.received = none → 0 ≤ number ∧ number < 2 ^ 16) ∧
        ∀ r ∈ s.received, |number - r.highest| ≤ 2 ^ 15))
  | .report _ _ => isTrue trivial

instance (remoteSsrc : BitVec 32) (s : LossRun) (event : LossEvent) :
    Decidable (s.Exact remoteSsrc event) :=
  match event with
  | .packet _ _ _ _ => isTrue trivial
  | .report now _ => inferInstanceAs (Decidable (∀ r ∈ s.received,
      ((s.statistics.sendRR remoteSsrc now).2.extendedHighSeqNum.toNat : ℤ) = r.highest ∧
        (s.statistics.sendRR remoteSsrc now).2.cumulativeLost.toInt = clampLoss r.loss ∧
        ∀ before ∈ s.reported, (s.lossReports.deltas [(s.statistics.sendRR remoteSsrc now).2]).2 =
          (r.highest - before.highest, r.loss - before.loss)))

instance (s : LossRun) (event : LossEvent) : Decidable (s.LastHighest event) :=
  match event with
  | .packet _ _ _ _ => isTrue trivial
  | .report _ _ => inferInstanceAs (Decidable (∀ r ∈ s.received,
      r.last = r.highest ∧ r.highest < 2 ^ 16 ∧
      (s.reported = none → r.first ≠ 0 ∨ r.loss ≤ 0) ∧
      ∀ before ∈ s.reported, 0 ≤ before.loss ∧ 0 ≤ r.loss ∨ r.loss = before.loss))

/-- How far the loss that is counted from a first number lies from the loss. -/
def drift (first : ℤ) : ℤ :=
  first - 1 - (first - 1) % 2 ^ 16

/-- The counts are those of the packets, with the number of the last one in the place of the highest
one. -/
structure Counts (s : ReceiverStatistics) (r : ReceivedPackets) : Prop where
  received : s.lastReceiveTime.isNone = false ∧ s.hasReceivedMediaPacket = true
  number : s.extendedHighSeqNum = BitVec.ofInt 16 r.last
  loss : s.cumulativeLoss = r.last % 2 ^ 16 - (r.first - 1) % 2 ^ 16 - r.count
  first : 0 ≤ r.first ∧ r.first < 2 ^ 16 ∧ r.first ≤ r.highest
  near : r.last ≤ r.highest ∧ r.highest - r.last ≤ 2 ^ 15
  count : 1 ≤ r.count

/-- After exact reports, the offset makes up for the drift and for a negative loss, and the sender
has the last report. -/
structure Reported (remoteSsrc : BitVec 32) (s : LossRun) (before : ReceivedPackets) : Prop where
  first : ∀ r, s.received = some r → r.first = before.first
  highest : 0 ≤ before.highest ∧ before.highest < 2 ^ 16 ∧ before.loss < 2 ^ 16
  offset : s.statistics.cumulativeLossRtcpOffset + drift before.first = max 0 (-before.loss)
  sender : s.lossReports.lastReportBlocks remoteSsrc = some
    { extendedHighestSequenceNumber := BitVec.ofInt 32 before.highest
      cumulativeLost := clampLoss before.loss }

/-- The state of a run whose reports were exact. -/
structure Keeps (remoteSsrc : BitVec 32) (s : LossRun) : Prop where
  fresh : s.received = none → s.statistics.lastReceiveTime = none ∧
    s.statistics.cumulativeLoss = 0 ∧ s.statistics.hasReceivedMediaPacket = false ∧
    s.reported = none
  counts : ∀ r, s.received = some r → Counts s.statistics r
  unreported : s.reported = none → s.statistics.cumulativeLossRtcpOffset = 0 ∧
    s.lossReports.lastReportBlocks remoteSsrc = none
  reported : ∀ before, s.reported = some before → s.Reported remoteSsrc before

variable {remoteSsrc : BitVec 32} {s : LossRun}

theorem keeps_new : Keeps remoteSsrc {} where
  fresh := fun _ => ⟨rfl, rfl, rfl, rfl⟩
  counts := fun _ hr => by cases hr
  unreported := fun _ => ⟨rfl, rfl⟩
  reported := fun _ hbefore => by cases hbefore

/-- A 16-bit number as an integer. -/
theorem to_nat_of_int (number : ℤ) : ((BitVec.ofInt 16 number).toNat : ℤ) = number % 2 ^ 16 := by
  rw [BitVec.toNat_ofInt]
  omega

/-- The first packet is counted from the number before it, which wraps for the number 0. -/
theorem counts_first {statistics : ReceiverStatistics} {number : ℤ}
    (hfresh : statistics.lastReceiveTime = none ∧ statistics.cumulativeLoss = 0)
    (hnumber : 0 ≤ number ∧ number < 2 ^ 16) (timestamp : BitVec 32) (now : ℤ) :
    Counts (statistics.onMediaPacket (BitVec.ofInt 16 number) timestamp now)
      (ReceivedPackets.add none number) := by
  obtain ⟨hlast, hloss, -, htime, hreceived⟩ :=
    statistics.on_media_packet_counts (BitVec.ofInt 16 number) timestamp now
  have hbefore : BitVec.ofInt 16 number - 1 = BitVec.ofInt 16 (number - 1) := by
    rw [Int.sub_eq_add_neg, BitVec.ofInt_add, BitVec.ofInt_neg, BitVec.sub_eq_add_neg]
    rfl
  rw [hfresh.1, hfresh.2, Option.isNone_none, if_pos rfl, hbefore, to_nat_of_int,
    to_nat_of_int] at hloss
  refine ⟨⟨by rw [htime]; rfl, hreceived⟩, hlast, ?_, ⟨hnumber.1, hnumber.2, le_refl _⟩,
    ⟨le_refl _, ?_⟩, le_refl _⟩
  · rw [hloss]
    show (0 : ℤ) - 1 + _ = number % 2 ^ 16 - (number - 1) % 2 ^ 16 - ((1 : Nat) : ℤ)
    push_cast
    ring
  · show number - number ≤ _
    omega

/-- Further packets are counted by their distance from the last one, so the distances add up. -/
theorem counts_next {statistics : ReceiverStatistics} {r : ReceivedPackets} {number : ℤ}
    (h : Counts statistics r) (hnear : |number - r.highest| ≤ 2 ^ 15) (timestamp : BitVec 32)
    (now : ℤ) :
    Counts (statistics.onMediaPacket (BitVec.ofInt 16 number) timestamp now)
      (ReceivedPackets.add (some r) number) := by
  obtain ⟨hlast, hloss, -, htime, hreceived⟩ :=
    statistics.on_media_packet_counts (BitVec.ofInt 16 number) timestamp now
  have hclose := abs_le.mp hnear
  rw [if_neg (by rw [h.received.1]; decide), h.number, to_nat_of_int, to_nat_of_int,
    h.loss] at hloss
  refine ⟨⟨by rw [htime]; rfl, hreceived⟩, hlast, ?_, ⟨h.first.1, h.first.2.1, ?_⟩,
    ⟨le_max_right _ _, ?_⟩, Nat.le_succ_of_le h.count⟩
  · rw [hloss]
    show _ = number % 2 ^ 16 - (r.first - 1) % 2 ^ 16 - ((r.count + 1 : Nat) : ℤ)
    push_cast
    ring
  · exact h.first.2.2.trans (le_max_left _ _)
  · show max r.highest number - number ≤ _
    omega

/-- A packet is counted, and leaves the reports as they are. -/
theorem keeps_packet (h : s.Keeps remoteSsrc) {number : ℤ} {timestamp : BitVec 32} {now : ℤ}
    {obsolete : Bool} (hwindow : s.InWindow (.packet number timestamp now obsolete)) :
    (s.step remoteSsrc (.packet number timestamp now obsolete)).Keeps remoteSsrc := by
  unfold step
  simp only
  by_cases hobsolete : obsolete = true
  · rw [if_pos hobsolete]
    exact h
  rw [if_neg hobsolete]
  obtain ⟨hnew, hnear⟩ := hwindow (Bool.eq_false_of_not_eq_true hobsolete)
  have hoffset := (s.statistics.on_media_packet_counts (BitVec.ofInt 16 number) timestamp
    now).2.2.1
  have hcounts : Counts (s.statistics.onMediaPacket (BitVec.ofInt 16 number) timestamp now)
      (ReceivedPackets.add s.received number) := by
    cases hr : s.received with
    | none =>
        obtain ⟨htime, hloss, -, -⟩ := h.fresh hr
        exact counts_first ⟨htime, hloss⟩ (hnew hr) timestamp now
    | some r => exact counts_next (h.counts r hr) (hnear r hr) timestamp now
  refine ⟨fun hr => (Option.some_ne_none _ hr).elim, fun r hr => ?_, fun hnone => ?_,
    fun before hbefore => ?_⟩
  · obtain rfl := Option.some.inj hr
    exact hcounts
  · rw [hoffset]
    exact h.unreported hnone
  · have hold := h.reported before hbefore
    refine ⟨fun r hr => ?_, hold.highest, ?_, hold.sender⟩
    · obtain rfl := Option.some.inj hr
      cases hr' : s.received with
      | none =>
          rw [(h.fresh hr').2.2.2] at hbefore
          cases hbefore
      | some r => exact hold.first r hr'
    · rw [hoffset]
      exact hold.offset

/-! ## Reports -/

/-- A report has the highest number where the last packet is the highest and has not wrapped. -/
theorem highest_reported_iff {statistics : ReceiverStatistics} {r : ReceivedPackets}
    (h : Counts statistics r) :
    ((statistics.extendedHighSeqNum.setWidth 32).toNat : ℤ) = r.highest ↔
      r.last = r.highest ∧ r.highest < 2 ^ 16 := by
  have hlow := h.first
  have hnear := h.near
  have hwidth : ((statistics.extendedHighSeqNum.setWidth 32).toNat : ℤ) = r.last % 2 ^ 16 := by
    rw [BitVec.toNat_setWidth_of_le (by decide), h.number, to_nat_of_int]
  rw [hwidth]
  omega

/-- The loss that is counted, where the last packet is the highest. -/
theorem counted_loss {statistics : ReceiverStatistics} {r : ReceivedPackets}
    (h : Counts statistics r) (hlast : r.last = r.highest) (hwrap : r.highest < 2 ^ 16) :
    statistics.cumulativeLoss = r.loss + drift r.first := by
  have hlow := h.first
  rw [h.loss, hlast]
  unfold drift ReceivedPackets.loss
  omega

/-- The sender computes differences once it has a report. -/
theorem deltas_of_report (lossReports : LossReports) (reportBlock : RtcpReportBlock)
    (lastReport : Option LossReport)
    (hlast : lossReports.lastReportBlocks reportBlock.sourceSsrc = lastReport) :
    (lossReports.deltas [reportBlock]).2 = (match lastReport with
      | none => (0, 0)
      | some last =>
          ((reportBlock.extendedHighSeqNum - last.extendedHighestSequenceNumber).toInt,
            reportBlock.cumulativeLost.toInt - last.cumulativeLost)) ∧
      ∀ now, (lossReports.onReceiverReport now [reportBlock]).1.lastReportBlocks
        reportBlock.sourceSsrc = some
          { extendedHighestSequenceNumber := reportBlock.extendedHighSeqNum
            cumulativeLost := reportBlock.cumulativeLost.toInt } := by
  constructor
  · unfold LossReports.deltas LossReports.addBlock
    rw [List.foldl_cons, List.foldl_nil]
    simp only [hlast]
    cases lastReport with
    | none => rfl
    | some last =>
        exact Prod.ext (congrArg BitVec.toInt (BitVec.zero_add _)) (Int.zero_add _)
  · intro now
    unfold LossReports.onReceiverReport LossReports.deltas LossReports.addBlock
    rw [if_neg (List.cons_ne_nil _ _), List.foldl_cons, List.foldl_nil]
    simp only
    split_ifs <;> exact Function.update_self ..

/-- The number 0 is counted from 65535, all other first numbers from the number before them. -/
theorem drift_eq {first : ℤ} (hlow : 0 ≤ first) (hhigh : first < 2 ^ 16) :
    drift first = if first = 0 then -2 ^ 16 else 0 := by
  unfold drift
  split_ifs with hzero
  · rw [hzero]
    decide
  · omega

/-- The loss before the wrap is small. -/
theorem loss_lt {statistics : ReceiverStatistics} {r : ReceivedPackets}
    (h : Counts statistics r) (hwrap : r.highest < 2 ^ 16) : r.loss < 2 ^ 16 := by
  have hlow := h.first
  have hcount := h.count
  unfold ReceivedPackets.loss
  omega

/-- The difference of two highest numbers before the wrap. -/
theorem to_int_of_difference {high low : ℤ} {number : BitVec 32} (hnumber : (number.toNat : ℤ) = high)
    (hhigh : high < 2 ^ 16) (hlow : 0 ≤ low ∧ low < 2 ^ 16) :
    (number - BitVec.ofInt 32 low).toInt = high - low := by
  have heq : number = BitVec.ofInt 32 high := by
    rw [← hnumber, BitVec.ofInt_natCast, BitVec.ofNat_toNat, BitVec.setWidth_eq]
  have hdifference : number - BitVec.ofInt 32 low = BitVec.ofInt 32 (high - low) := by
    rw [heq, Int.sub_eq_add_neg, BitVec.ofInt_add, BitVec.ofInt_neg, BitVec.sub_eq_add_neg]
  rw [hdifference]
  exact BitVec.toInt_ofInt_eq_self (by decide) (by omega) (by omega)

/-- After exact reports, the condition on the packets decides whether a report is exact. -/
theorem exact_iff (h : s.Keeps remoteSsrc) (now : BitVec 32) (senderNow : ℤ) :
    s.LastHighest (.report now senderNow) ↔ s.Exact remoteSsrc (.report now senderNow) := by
  refine forall₂_congr fun r hr => ?_
  have hcounts := h.counts r hr
  obtain ⟨hssrc, hnumber, hlost⟩ := s.statistics.send_rr_block remoteSsrc now
  simp only
  rw [hnumber, highest_reported_iff hcounts, hlost, and_assoc]
  refine and_congr_right fun hlast => and_congr_right fun hwrap => ?_
  have hloss := counted_loss hcounts hlast hwrap
  have hsmall := loss_lt hcounts hwrap
  cases hreported : s.reported with
  | none =>
      obtain ⟨hoffset, -⟩ := h.unreported hreported
      have hdrift := drift_eq hcounts.first.1 hcounts.first.2.1
      rw [hloss, hoffset, hdrift]
      unfold clampLoss
      constructor
      · rintro ⟨hfirst, -⟩
        refine ⟨?_, fun before hbefore => by cases hbefore⟩
        have hfirst' := hfirst rfl
        split_ifs <;> omega
      · rintro ⟨hclamp, -⟩
        refine ⟨fun _ => ?_, fun before hbefore => by cases hbefore⟩
        by_cases hzero : r.first = 0
        · rw [if_pos hzero] at hclamp
          omega
        · exact .inl hzero
  | some before =>
      have hbefore := h.reported before hreported
      have hfirst := hbefore.first r hr
      have hoffset := hbefore.offset
      have hnumber' : (((s.statistics.sendRR remoteSsrc now).2.extendedHighSeqNum).toNat : ℤ) =
          r.highest := by
        rw [hnumber]
        exact (highest_reported_iff hcounts).mpr ⟨hlast, hwrap⟩
      have hsum : s.statistics.cumulativeLoss + s.statistics.cumulativeLossRtcpOffset =
          r.loss + max 0 (-before.loss) := by
        rw [hloss, hfirst]
        omega
      have hdeltas : (s.lossReports.deltas [(s.statistics.sendRR remoteSsrc now).2]).2 =
          (r.highest - before.highest,
            clampLoss (r.loss + max 0 (-before.loss)) - clampLoss before.loss) := by
        have hsender := (congrArg s.lossReports.lastReportBlocks hssrc).trans hbefore.sender
        rw [(deltas_of_report _ _ _ hsender).1, ← hsum, ← hlost]
        exact Prod.ext (to_int_of_difference hnumber' hwrap
          ⟨hbefore.highest.1, hbefore.highest.2.1⟩) rfl
      have hbound := hbefore.highest.2.2
      rw [hsum]
      unfold clampLoss at hdeltas ⊢
      constructor
      · rintro ⟨-, hlater⟩
        have hcase := hlater before rfl
        refine ⟨by omega, fun b hb => ?_⟩
        obtain rfl := Option.some.inj hb
        rw [hdeltas]
        exact Prod.ext rfl (by show min _ _ - min _ _ = _; omega)
      · rintro ⟨hclamp, hdelta⟩
        have hsecond := congrArg Prod.snd (hdeltas.symm.trans (hdelta before rfl))
        simp only at hsecond
        refine ⟨fun hnone => (Option.some_ne_none _ hnone).elim, fun b hb => ?_⟩
        obtain rfl := Option.some.inj hb
        omega

/-- An exact report is remembered by both sides. -/
theorem keeps_report (h : s.Keeps remoteSsrc) (now : BitVec 32) (senderNow : ℤ)
    (hexact : s.LastHighest (.report now senderNow)) :
    (s.step remoteSsrc (.report now senderNow)).Keeps remoteSsrc := by
  unfold step
  simp only
  cases hr : s.received with
  | none =>
      rw [if_neg (by rw [(h.fresh hr).2.2.1]; decide)]
      exact h
  | some r =>
      have hcounts := h.counts r hr
      rw [if_pos hcounts.received.2]
      obtain ⟨hlast, hwrap, hfirst, hlater⟩ := hexact r hr
      obtain ⟨hssrc, hnumber, hlost⟩ := s.statistics.send_rr_block remoteSsrc now
      have hloss := counted_loss hcounts hlast hwrap
      have hsmall := loss_lt hcounts hwrap
      have hdrift := drift_eq hcounts.first.1 hcounts.first.2.1
      -- What was counted and the offset before decide the report and the next offset.
      have hcase : clampLoss (s.statistics.cumulativeLoss +
            s.statistics.cumulativeLossRtcpOffset) = clampLoss r.loss ∧
          (if s.statistics.cumulativeLoss + s.statistics.cumulativeLossRtcpOffset < 0 then
            -s.statistics.cumulativeLoss else s.statistics.cumulativeLossRtcpOffset) +
            drift r.first = max 0 (-r.loss) := by
        cases hreported : s.reported with
        | none =>
            obtain ⟨hoffset, -⟩ := h.unreported hreported
            have hfirst' := hfirst hreported
            rw [hloss, hoffset, hdrift]
            unfold clampLoss
            split_ifs <;> omega
        | some before =>
            have hbefore := h.reported before hreported
            have hsame := hbefore.first r hr
            have hoffset := hbefore.offset
            rw [← hsame] at hoffset
            have hlater' := hlater before hreported
            rw [hloss]
            unfold clampLoss
            split_ifs <;> omega
      have hblocks := (deltas_of_report s.lossReports (s.statistics.sendRR remoteSsrc now).2 _
        rfl).2 senderNow
      rw [hssrc, hlost, hcase.1] at hblocks
      refine ⟨fun hnone => (Option.some_ne_none r hnone).elim, fun r' hr' => ?_,
        fun hnone => (Option.some_ne_none r hnone).elim, fun before hbefore => ?_⟩
      · obtain rfl := Option.some.inj hr'
        exact ⟨hcounts.received, hcounts.number, hcounts.loss, hcounts.first, hcounts.near,
          hcounts.count⟩
      · obtain rfl := Option.some.inj hbefore
        refine ⟨fun r' hr' => ?_, ⟨?_, hwrap, hsmall⟩, ?_, ?_⟩
        · rw [Option.some.inj hr']
        · exact hcounts.first.1.trans hcounts.first.2.2
        · show s.statistics.reportedLoss.2 + drift r.first = _
          rw [ReceiverStatistics.reported_loss_eq]
          exact hcase.2
        · rw [hblocks]
          have hhighest : (s.statistics.sendRR remoteSsrc now).2.extendedHighSeqNum =
              BitVec.ofInt 32 r.highest := by
            rw [← (highest_reported_iff hcounts).mpr ⟨hlast, hwrap⟩, ← hnumber,
              BitVec.ofInt_natCast, BitVec.ofNat_toNat, BitVec.setWidth_eq]
          rw [hhighest]

/-- All reports of a run are exact if and only if at each of them the last packet is the highest one
and has not wrapped, the loss does not pass below zero between reports, and nothing is missing after
a first number 0. -/
theorem reports_exact_iff (remoteSsrc : BitVec 32) (events : List LossEvent)
    (h : Run.Along (step remoteSsrc) InWindow {} events) :
    Run.Along (step remoteSsrc) (Exact remoteSsrc) {} events ↔
      Run.Along (step remoteSsrc) LastHighest {} events := by
  refine Run.along_congr (I := Keeps remoteSsrc) h (fun s event hs _ => ?_)
    (fun s event hs hwindow hcondition => ?_) keeps_new
  · cases event with
    | packet number timestamp now obsolete => exact Iff.rfl
    | report now senderNow => exact (exact_iff hs now senderNow).symm
  · cases event with
    | packet number timestamp now obsolete => exact keeps_packet hs hwindow
    | report now senderNow => exact keeps_report hs now senderNow hcondition

/-- Losses, a packet that comes late and two reports. -/
theorem reports_exact_iff_reordered :
    let events : List LossEvent := [.packet 10 0 0 false, .packet 12 0 1 false,
      .packet 11 0 2 false, .packet 14 0 3 false, .report 5 100, .packet 17 0 4 false,
      .report 6 200]
    Run.Along (step 1) InWindow {} events ∧ Run.Along (step 1) (Exact 1) {} events := by
  intro events
  have hwindow : Run.Along (step 1) InWindow {} events := by decide +kernel
  have hcondition : Run.Along (step 1) LastHighest {} events := by decide +kernel
  exact ⟨hwindow, (reports_exact_iff 1 events hwindow).mpr hcondition⟩

/-- Two packets around the wrap: the highest number is reported as 0. -/
theorem report_after_wrap :
    let events : List LossEvent := [.packet 65535 0 0 false, .packet 65536 0 1 false, .report 5 100]
    Run.Along (step 1) InWindow {} events ∧ ¬ Run.Along (step 1) (Exact 1) {} events := by
  decide +kernel

end LossRun

end MiniRtc
