import MiniRtc.Foundation.OrderedMap
import MiniRtc.Numerics.Histogram
import MiniRtc.Numerics.SequenceNumber
import MiniRtc.Qos.VideoRecoveryTiming

/-!
# The NACK requester

The state and the operations of `nack_requester.cc`. Every operation that reads the clock takes
the time `now` in microseconds, and an operation that returns a batch returns it next to the
new state. `nackList` and `recoveredList` are ordered containers with the comparator
`descendingSeqNumComp`, so they are lists with the oldest sequence number first as long as
their members lie close together; that this is the case for `nackList` is the subject of
`MiniRtc.Qos.NackWindow`.

A missing time (`none`) is `Timestamp::MinusInfinity()`.
-/

namespace MiniRtc

/-- Oldest age, in packets, of a NACK entry or a recovered packet. -/
def kMaxPacketAge : Nat := 10000

/-- Most entries of the NACK list. -/
def kMaxNackPackets : Nat := 1000

/-- The round-trip time assumed before the first sample, in milliseconds. -/
def kDefaultRttMs : ℤ := 100

/-- Successful requests of one packet before giving up. -/
def kMaxNackRetries : Nat := 100

/-- Reordered packets remembered by the histogram. -/
def kMaxReorderedPackets : Nat := 128

/-- Buckets of the histogram. -/
def kNumReorderingBuckets : Nat := 10

/-- Pause after a send attempt, in microseconds. -/
def kFailedSendRetryDelayUs : ℤ := 20000

/-- Pause before the first request of a packet, in microseconds. -/
def kDefaultSendNackDelayUs : ℤ := 10000

/-- `NackInfo`: what is known about one missing packet. -/
structure NackInfo where
  seqNum : BitVec 16
  sendAtSeqNum : BitVec 16
  createdAtTime : ℤ
  sentAtTime : Option ℤ := none
  lastSendAttemptTime : Option ℤ := none
  retries : Nat := 0
  sendPending : Bool := false
  deriving DecidableEq

/-- `NackRequester`. -/
structure NackRequester where
  nackList : List (BitVec 16 × NackInfo) := []
  recoveredList : List (BitVec 16) := []
  reorderingHistogram : Histogram :=
    Histogram.new kNumReorderingBuckets kMaxReorderedPackets
  initialized : Bool := false
  rttMs : ℤ := kDefaultRttMs
  hasRttSample : Bool := false
  keyframeRequestPending : Bool := false
  newestSeqNum : BitVec 16 := 0
  deriving DecidableEq

/-- `now - time >= delay`, where nothing is longer ago than a time that never was. -/
def elapsedAtLeast (now : ℤ) (time : Option ℤ) (delay : ℤ) : Bool :=
  match time with
  | none => true
  | some time => decide (delay ≤ now - time)

/-- `DivideRoundToNearest(value, 1000)`, the milliseconds of a time in microseconds. -/
def microsToMillis (us : ℤ) : ℤ :=
  if us < 0 then
    us.tdiv 1000 - if -(us.tmod 1000) > 500 then 1 else 0
  else us.tdiv 1000 + if us.tmod 1000 > 499 then 1 else 0

namespace NackRequester

/-- `UpdateRtt`: samples outside `(0, 2000]` are ignored, later ones are smoothed. -/
def updateRtt (s : NackRequester) (rttMs : ℤ) : NackRequester :=
  if rttMs ≤ 0 ∨ rttMs > 2000 then s
  else if s.hasRttSample then { s with rttMs := (3 * s.rttMs + rttMs).tdiv 4 }
  else { s with rttMs := rttMs, hasRttSample := true }

/-- `UpdateReorderingStatistics`. -/
def updateReorderingStatistics (s : NackRequester) (seqNum : BitVec 16) : NackRequester :=
  { s with
    reorderingHistogram :=
      s.reorderingHistogram.add (reverseDiff s.newestSeqNum seqNum).toNat }

/-- `WaitNumberOfPackets`. -/
def waitNumberOfPackets (s : NackRequester) (probability : ℚ) : Nat :=
  if s.reorderingHistogram.numValues = 0 then 0
  else s.reorderingHistogram.inverseCdf probability

/-- One iteration of the insertion loop of `AddPacketsToNack`. -/
def addPacketToNack (s : NackRequester) (now : ℤ) (list : List (BitVec 16 × NackInfo))
    (seqNum : BitVec 16) : List (BitVec 16 × NackInfo) :=
  if (OrderedMap.find? descendingSeqNumComp id seqNum s.recoveredList).isSome then list
  else
    OrderedMap.insertOrAssign descendingSeqNumComp Prod.fst
      (seqNum,
        { seqNum
          sendAtSeqNum := seqNum + BitVec.ofNat 16 (s.waitNumberOfPackets (1 / 2))
          createdAtTime := now })
      list

/-- The sequence numbers `start, start + 1, …` before `finish`. -/
def seqNumRange (start finish : BitVec 16) : List (BitVec 16) :=
  (List.range (forwardDiff start finish).toNat).map fun i => start + BitVec.ofNat 16 i

/-- `AddPacketsToNack`: entries beyond the age limit go first. A list that would become too
long is cleared and a keyframe is requested instead. -/
def addPacketsToNack (s : NackRequester) (now : ℤ) (seqNumStart seqNumEnd : BitVec 16) :
    NackRequester :=
  let nackList := OrderedMap.lowerBound descendingSeqNumComp Prod.fst
    (seqNumEnd - BitVec.ofNat 16 kMaxPacketAge) s.nackList
  let numNewNacks := (forwardDiff seqNumStart seqNumEnd).toNat
  if nackList.length + numNewNacks > kMaxNackPackets then
    { s with nackList := [], keyframeRequestPending := true }
  else
    { s with
      nackList :=
        (seqNumRange seqNumStart seqNumEnd).foldl (s.addPacketToNack now) nackList }

/-- `NackFilterOptions`: which condition makes an entry due in `GetNackBatch`. -/
inductive NackFilterOptions where
  | seqNumOnly
  | timeOnly
  deriving DecidableEq

/-- The time, in microseconds, between two requests of a packet. -/
def retryDelayUs (s : NackRequester) (info : NackInfo) : ℤ :=
  1000 * s.rttMs *
    (if info.retries > 0 then
      VideoRecovery.nackRetryRttMultiplier s.hasRttSample info.retries else 1)

/-- Whether `GetNackBatch` puts an entry into the batch. -/
def isDue (s : NackRequester) (options : NackFilterOptions) (now : ℤ) (info : NackInfo) : Bool :=
  let considerSeqNum := options ≠ .timeOnly
  let considerTimestamp := options ≠ .seqNumOnly
  let delayTimedOut := decide (kDefaultSendNackDelayUs ≤ now - info.createdAtTime)
  let nackOnRttPassed := elapsedAtLeast now info.sentAtTime (s.retryDelayUs info)
  let sendAttemptBackoffPassed :=
    elapsedAtLeast now info.lastSendAttemptTime kFailedSendRetryDelayUs
  let nackOnSeqNumPassed :=
    info.sentAtTime.isNone && aheadOrAt s.newestSeqNum info.sendAtSeqNum
  !info.sendPending && delayTimedOut && sendAttemptBackoffPassed &&
    ((considerSeqNum && nackOnSeqNumPassed) || (considerTimestamp && nackOnRttPassed))

/-- `GetNackBatch`: collect the due entries, oldest first, and mark them as being sent. -/
def getNackBatch (s : NackRequester) (options : NackFilterOptions) (now : ℤ) :
    NackRequester × List (BitVec 16) :=
  let due := fun entry : BitVec 16 × NackInfo => s.isDue options now entry.2
  ({ s with
      nackList := s.nackList.map fun entry =>
        if due entry then (entry.1, { entry.2 with sendPending := true }) else entry },
    (s.nackList.filter due).map fun entry => entry.2.seqNum)

/-- `ProcessNacks`. -/
def processNacks (s : NackRequester) (now : ℤ) : NackRequester × List (BitVec 16) :=
  s.getNackBatch .timeOnly now

/-- The round-trip sample of an out-of-order packet: only the answer to a single request can
be attributed to it. -/
def sampleRtt (s : NackRequester) (now : ℤ) (isRecovered : Bool) (info : NackInfo) :
    NackRequester :=
  match info.sentAtTime with
  | some sentAt =>
      if isRecovered ∧ info.retries = 1 then s.updateRtt (microsToMillis (now - sentAt)) else s
  | none => s

/-- The branch of `OnReceivedPacket` for a packet behind the newest one. -/
def onOutOfOrderPacket (s : NackRequester) (now : ℤ) (seqNum : BitVec 16)
    (isRecovered : Bool) : NackRequester :=
  let s :=
    match OrderedMap.find? descendingSeqNumComp Prod.fst seqNum s.nackList with
    | some entry =>
        let s := s.sampleRtt now isRecovered entry.2
        { s with nackList := OrderedMap.erase descendingSeqNumComp Prod.fst seqNum s.nackList }
    | none => s
  if isRecovered then s else s.updateReorderingStatistics seqNum

/-- The branch of `OnReceivedPacket` for a recovered packet ahead of the newest one. -/
def onRecoveredPacket (s : NackRequester) (seqNum : BitVec 16) : NackRequester :=
  { s with
    recoveredList :=
      OrderedMap.lowerBound descendingSeqNumComp id (seqNum - BitVec.ofNat 16 kMaxPacketAge)
        (OrderedMap.insertOrAssign descendingSeqNumComp id seqNum s.recoveredList) }

/-- `OnReceivedPacket`. -/
def onReceivedPacket (s : NackRequester) (now : ℤ) (seqNum : BitVec 16) (isRecovered : Bool) :
    NackRequester × List (BitVec 16) :=
  if !s.initialized then ({ s with newestSeqNum := seqNum, initialized := true }, [])
  else if seqNum = s.newestSeqNum then (s, [])
  else if aheadOf s.newestSeqNum seqNum then
    (s.onOutOfOrderPacket now seqNum isRecovered, [])
  else if isRecovered then (s.onRecoveredPacket seqNum, [])
  else
    let s := s.addPacketsToNack now (s.newestSeqNum + 1) seqNum
    { s with newestSeqNum := seqNum }.getNackBatch .seqNumOnly now

/-- The entry after the report of a batch that contained it. Only a successful send counts. -/
def reportedInfo (now : ℤ) (sendSuccessful : Bool) (info : NackInfo) : NackInfo :=
  let info := { info with sendPending := false, lastSendAttemptTime := some now }
  if sendSuccessful then { info with retries := info.retries + 1, sentAtTime := some now }
  else info

/-- One iteration of `OnNackBatchSent`. -/
def onNackSent (now : ℤ) (sendSuccessful : Bool) (list : List (BitVec 16 × NackInfo))
    (sequenceNumber : BitVec 16) : List (BitVec 16 × NackInfo) :=
  match OrderedMap.find? descendingSeqNumComp Prod.fst sequenceNumber list with
  | none => list
  | some (seqNum, info) =>
      if !info.sendPending then list
      else if sendSuccessful ∧
          (reportedInfo now sendSuccessful info).retries ≥ kMaxNackRetries then
        OrderedMap.erase descendingSeqNumComp Prod.fst seqNum list
      else
        OrderedMap.insertOrAssign descendingSeqNumComp Prod.fst
          (seqNum, reportedInfo now sendSuccessful info) list

/-- `OnNackBatchSent`: the transport reports whether it accepted a batch. -/
def onNackBatchSent (s : NackRequester) (now : ℤ) (nackBatch : List (BitVec 16))
    (sendSuccessful : Bool) : NackRequester :=
  { s with nackList := nackBatch.foldl (onNackSent now sendSuccessful) s.nackList }

/-- `ConsumeKeyFrameRequest`. -/
def consumeKeyFrameRequest (s : NackRequester) : NackRequester × Bool :=
  ({ s with keyframeRequestPending := false }, s.keyframeRequestPending)

/-- `ClearUpTo`. -/
def clearUpTo (s : NackRequester) (seqNum : BitVec 16) : NackRequester :=
  { s with
    nackList := OrderedMap.upperBound descendingSeqNumComp Prod.fst seqNum s.nackList
    recoveredList := OrderedMap.upperBound descendingSeqNumComp id seqNum s.recoveredList }

/-- `HasPendingNacks`. -/
def hasPendingNacks (s : NackRequester) : Bool :=
  !s.nackList.isEmpty

/-- `HasPendingNacksUpTo`: the upper bound is not the first element. -/
def hasPendingNacksUpTo (s : NackRequester) (seqNum : BitVec 16) : Bool :=
  (OrderedMap.upperBound descendingSeqNumComp Prod.fst seqNum s.nackList).length
    ≠ s.nackList.length

/-! ## What receiving a packet can do -/

/-- A round-trip sample touches only the round-trip estimate. -/
theorem update_rtt_eq (s : NackRequester) (sample : ℤ) :
    ∃ rttMs hasRttSample, s.updateRtt sample =
      { s with rttMs := rttMs, hasRttSample := hasRttSample } := by
  unfold updateRtt
  split_ifs
  · exact ⟨s.rttMs, s.hasRttSample, rfl⟩
  · exact ⟨_, s.hasRttSample, rfl⟩
  · exact ⟨_, _, rfl⟩

theorem sample_rtt_eq (s : NackRequester) (now : ℤ) (isRecovered : Bool) (info : NackInfo) :
    ∃ rttMs hasRttSample, s.sampleRtt now isRecovered info =
      { s with rttMs := rttMs, hasRttSample := hasRttSample } := by
  unfold sampleRtt
  split
  · split_ifs
    · exact update_rtt_eq s _
    · exact ⟨s.rttMs, s.hasRttSample, rfl⟩
  · exact ⟨s.rttMs, s.hasRttSample, rfl⟩

/-- An out-of-order packet takes its number off the list; besides that only the round-trip
estimate and the histogram can change. -/
theorem on_out_of_order_packet_eq (s : NackRequester) (now : ℤ) (seqNum : BitVec 16)
    (isRecovered : Bool) :
    ∃ rttMs hasRttSample histogram, s.onOutOfOrderPacket now seqNum isRecovered =
      { s with
        nackList := OrderedMap.erase descendingSeqNumComp Prod.fst seqNum s.nackList
        rttMs := rttMs
        hasRttSample := hasRttSample
        reorderingHistogram := histogram } := by
  unfold onOutOfOrderPacket
  cases hfind : OrderedMap.find? descendingSeqNumComp Prod.fst seqNum s.nackList with
  | none =>
      simp only [OrderedMap.erase_of_find_none hfind]
      split_ifs
      · exact ⟨s.rttMs, s.hasRttSample, s.reorderingHistogram, rfl⟩
      · exact ⟨s.rttMs, s.hasRttSample, _, rfl⟩
  | some entry =>
      obtain ⟨rttMs, hasRttSample, hsample⟩ := sample_rtt_eq s now isRecovered entry.2
      simp only [hsample]
      split_ifs
      · exact ⟨rttMs, hasRttSample, s.reorderingHistogram, rfl⟩
      · exact ⟨rttMs, hasRttSample, _, rfl⟩

/-- The entries that survive the age limit when the newest packet becomes `seqNum`. -/
def youngEntries (s : NackRequester) (seqNum : BitVec 16) : List (BitVec 16 × NackInfo) :=
  OrderedMap.lowerBound descendingSeqNumComp Prod.fst
    (seqNum - BitVec.ofNat 16 kMaxPacketAge) s.nackList

/-- The NACK list after the numbers between the newest packet and `seqNum` were added. -/
def extendedEntries (s : NackRequester) (now : ℤ) (seqNum : BitVec 16) :
    List (BitVec 16 × NackInfo) :=
  (seqNumRange (s.newestSeqNum + 1) seqNum).foldl (s.addPacketToNack now)
    (s.youngEntries seqNum)

/-- The packet moves the newest sequence number so far that the list overflows. -/
def overflowsAt (s : NackRequester) (seqNum : BitVec 16) : Prop :=
  kMaxNackPackets <
    (s.youngEntries seqNum).length + (forwardDiff (s.newestSeqNum + 1) seqNum).toNat

instance (s : NackRequester) (seqNum : BitVec 16) : Decidable (s.overflowsAt seqNum) :=
  inferInstanceAs (Decidable (_ < _))

theorem add_packets_to_nack_eq (s : NackRequester) (now : ℤ) (seqNum : BitVec 16) :
    s.addPacketsToNack now (s.newestSeqNum + 1) seqNum =
      if s.overflowsAt seqNum then { s with nackList := [], keyframeRequestPending := true }
      else { s with nackList := s.extendedEntries now seqNum } :=
  rfl

/-- The outcomes of `onReceivedPacket`, one constructor per branch. -/
inductive Reception (s : NackRequester) (now : ℤ) (seqNum : BitVec 16) :
    Bool → NackRequester × List (BitVec 16) → Prop where
  | first (isRecovered) (hinit : s.initialized = false) :
      Reception s now seqNum isRecovered
        ({ s with newestSeqNum := seqNum, initialized := true }, [])
  | newest (isRecovered) (hinit : s.initialized = true) (heq : seqNum = s.newestSeqNum) :
      Reception s now seqNum isRecovered (s, [])
  | outOfOrder (isRecovered rttMs hasRttSample histogram) (hinit : s.initialized = true)
      (hbehind : aheadOf s.newestSeqNum seqNum = true) :
      Reception s now seqNum isRecovered
        ({ s with
            nackList := OrderedMap.erase descendingSeqNumComp Prod.fst seqNum s.nackList
            rttMs := rttMs
            hasRttSample := hasRttSample
            reorderingHistogram := histogram }, [])
  | recovered (hinit : s.initialized = true) (hahead : aheadOf seqNum s.newestSeqNum = true) :
      Reception s now seqNum true (s.onRecoveredPacket seqNum, [])
  | overflow (hinit : s.initialized = true) (hahead : aheadOf seqNum s.newestSeqNum = true)
      (hfull : s.overflowsAt seqNum) :
      Reception s now seqNum false
        ({ s with nackList := [], keyframeRequestPending := true, newestSeqNum := seqNum }, [])
  | advance (hinit : s.initialized = true) (hahead : aheadOf seqNum s.newestSeqNum = true)
      (hroom : ¬ s.overflowsAt seqNum) :
      Reception s now seqNum false
        ({ s with nackList := s.extendedEntries now seqNum, newestSeqNum := seqNum }.getNackBatch
          .seqNumOnly now)

/-- Every reception is one of these outcomes. -/
theorem on_received_packet_reception (s : NackRequester) (now : ℤ) (seqNum : BitVec 16)
    (isRecovered : Bool) :
    Reception s now seqNum isRecovered (s.onReceivedPacket now seqNum isRecovered) := by
  unfold onReceivedPacket
  split_ifs with hinit heq hbehind hrec
  · exact .first _ (by simpa using hinit)
  · exact .newest _ (by simpa using hinit) heq
  · obtain ⟨rttMs, hasRttSample, histogram, hout⟩ :=
      on_out_of_order_packet_eq s now seqNum isRecovered
    rw [hout]
    exact .outOfOrder _ _ _ _ (by simpa using hinit) hbehind
  all_goals
    have hahead : aheadOf seqNum s.newestSeqNum = true :=
      (ahead_of_total (by decide) heq).resolve_right hbehind
  · subst hrec
    exact .recovered (by simpa using hinit) hahead
  · have hfalse : isRecovered = false := by simpa using hrec
    subst hfalse
    rw [add_packets_to_nack_eq]
    by_cases hfull : s.overflowsAt seqNum
    · rw [if_pos hfull]
      exact .overflow (by simpa using hinit) hahead hfull
    · rw [if_neg hfull]
      exact .advance (by simpa using hinit) hahead hfull

end NackRequester

end MiniRtc
