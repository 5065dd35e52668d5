import MiniRtc.Foundation.OrderedMap
import MiniRtc.Foundation.Run
import MiniRtc.Numerics.SequenceNumber
import Mathlib.Data.List.Sort

/-!
# The feedback adapter of the sender

`TransportFeedbackAdapter` of `transport_feedback_adapter.cc`, which remembers what was sent until
the receiver reports on it. A packet is known by its transport sequence number in the history, and
by its SSRC and RTP sequence number in the reports. Times are in microseconds, and a time at
infinity is `none`.

The data that the pacer attaches to a packet is passed on without being looked at, so it is a type
variable.
-/

namespace MiniRtc

/-! ## Sequence numbers without wrap -/

/-- `SeqNumUnwrapper`. -/
structure SeqNumUnwrapper (w : Nat) where
  lastUnwrapped : ℤ := 0
  lastValue : Option (BitVec w) := none

namespace SeqNumUnwrapper

variable {w : Nat}

/-- `Delta`: the way from one number to the next, forwards or backwards. -/
def delta (lastValue newValue : BitVec w) : ℤ :=
  let result : ℤ := (forwardDiff lastValue newValue).toNat
  if aheadOrAt newValue lastValue then result else result - 2 ^ w

/-- `Unwrap`. -/
def unwrap (u : SeqNumUnwrapper w) (value : BitVec w) : SeqNumUnwrapper w × ℤ :=
  let unwrapped :=
    match u.lastValue with
    | none => (value.toNat : ℤ)
    | some lastValue => u.lastUnwrapped + delta lastValue value
  ({ lastUnwrapped := unwrapped, lastValue := some value }, unwrapped)

/-- A number that is unwrapped again stays where it is. -/
theorem unwrap_again (u : SeqNumUnwrapper w) (value : BitVec w) :
    (u.unwrap value).1.unwrap value = u.unwrap value := by
  have hdelta : delta value value = 0 := by
    have hahead : aheadOrAt value value = true := by
      unfold aheadOrAt forwardDiff
      have hpos : 0 < 2 ^ (w - 1) := Nat.two_pow_pos _
      rw [BitVec.sub_self, BitVec.toNat_zero, if_neg (by omega)]
      exact decide_eq_true hpos
    unfold delta
    rw [hahead]
    simp [forwardDiff]
  unfold unwrap
  simp only [hdelta, add_zero]

end SeqNumUnwrapper

/-! ## Network routes -/

/-- `AdapterType`. -/
inductive AdapterType where
  | unknown
  | ethernet
  | wifi
  | cellular
  | vpn
  | loopback
  | any
  | cellular2g
  | cellular3g
  | cellular4g
  | cellular5g
  deriving DecidableEq

/-- `RouteEndpoint`. -/
structure RouteEndpoint where
  adapterType : AdapterType := .unknown
  adapterId : BitVec 16 := 0
  networkId : BitVec 16 := 0
  usesTurn : Bool := false
  deriving DecidableEq

/-- `NetworkRoute`. -/
structure NetworkRoute where
  connected : Bool := false
  localEnd : RouteEndpoint := {}
  remoteEnd : RouteEndpoint := {}
  lastSentPacketId : ℤ := -1
  packetOverhead : ℤ := 0
  deriving DecidableEq

/-- The fields that `NetworkRouteComparator` looks at. -/
structure RouteKey where
  networkIds : BitVec 16 × BitVec 16
  adapterIds : BitVec 16 × BitVec 16
  usesTurn : Bool × Bool
  connected : Bool
  deriving DecidableEq

/-- Routes with the same key are one route to the map of bytes in flight. -/
def NetworkRoute.key (r : NetworkRoute) : RouteKey where
  networkIds := (r.localEnd.networkId, r.remoteEnd.networkId)
  adapterIds := (r.localEnd.adapterId, r.remoteEnd.adapterId)
  usesTurn := (r.localEnd.usesTurn, r.remoteEnd.usesTurn)
  connected := r.connected

/-! ## Packets and reports -/

/-- `webrtc::SentPacket`. -/
structure SentPacket (Info : Type*) where
  sendTime : Option ℤ := none
  size : Nat
  priorUnackedData : Nat := 0
  pacingInfo : Info
  audio : Bool
  sequenceNumber : ℤ
  dataInFlight : ℤ := 0

/-- `SsrcAndRtpSequencenumber`. -/
structure SsrcAndRtpSequencenumber where
  ssrc : BitVec 32
  rtpSequenceNumber : BitVec 16
  deriving DecidableEq

/-- `PacketFeedback`. -/
structure PacketFeedback (Info : Type*) where
  creationTime : ℤ
  sent : SentPacket Info
  networkRoute : NetworkRoute
  ssrc : BitVec 32
  rtpSequenceNumber : BitVec 16

/-- The key of a packet in reports. -/
def PacketFeedback.key {Info : Type*} (p : PacketFeedback Info) : SsrcAndRtpSequencenumber :=
  { ssrc := p.ssrc, rtpSequenceNumber := p.rtpSequenceNumber }

/-- The fields of an `RtpPacketToSend` that the adapter reads. -/
structure TrackedPacket where
  transportSequenceNumber : Option ℤ
  ssrc : BitVec 32
  sequenceNumber : BitVec 16
  size : Nat
  isAudio : Bool := false

/-- The key of a packet in reports. -/
def TrackedPacket.key (p : TrackedPacket) : SsrcAndRtpSequencenumber :=
  { ssrc := p.ssrc, rtpSequenceNumber := p.sequenceNumber }

/-- `rtc::SentPacket`. -/
structure RtcSentPacket where
  packetId : ℤ
  sendTimeMs : ℤ
  includedInFeedback : Bool
  includedInAllocation : Bool
  packetSizeBytes : Nat

/-- `EcnMarking`. -/
inductive EcnMarking where
  | notEct
  | ect1
  | ect0
  | ce
  deriving DecidableEq

/-- `CongestionControlFeedback::PacketInfo`. A packet that did not arrive has no offset. -/
structure PacketInfo where
  ssrc : BitVec 32
  sequenceNumber : BitVec 16
  arrivalTimeOffset : Option ℤ
  ecn : EcnMarking := .notEct
  deriving DecidableEq

/-- The key of a report. -/
def PacketInfo.key (i : PacketInfo) : SsrcAndRtpSequencenumber :=
  { ssrc := i.ssrc, rtpSequenceNumber := i.sequenceNumber }

/-- `CongestionControlFeedback`. -/
structure CongestionControlFeedback where
  packets : List PacketInfo
  reportTimestampCompactNtp : BitVec 32

/-- `PacketResult`. A packet that did not arrive has no receive time. -/
structure PacketResult (Info : Type*) where
  sentPacket : SentPacket Info
  receiveTime : Option ℤ
  ecn : EcnMarking

/-- `TransportPacketsFeedback`. -/
structure TransportPacketsFeedback (Info : Type*) where
  feedbackTime : ℤ
  packetFeedbacks : List (PacketResult Info)
  dataInFlight : ℤ
  transportSupportsEcn : Bool

/-- `RecentlyAcknowledgedPacket`. -/
structure RecentlyAcknowledgedPacket where
  key : SsrcAndRtpSequencenumber
  acknowledgmentTime : ℤ
  generation : Nat

/-- `DivideRoundToNearest` for a positive divisor. -/
def divideRoundToNearest (dividend divisor : ℤ) : ℤ :=
  if dividend < 0 then
    if -(dividend.tmod divisor) > divisor.tdiv 2 then dividend.tdiv divisor - 1
    else dividend.tdiv divisor
  else if dividend.tmod divisor > (divisor - 1).tdiv 2 then dividend.tdiv divisor + 1
  else dividend.tdiv divisor

/-- `CompactNtpIntervalToTimeDelta`. -/
def compactNtpIntervalToTimeDelta (compactNtpInterval : BitVec 32) : ℤ :=
  let value : ℤ :=
    if compactNtpInterval.toNat > 0x80000000 then compactNtpInterval.toNat - 2 ^ 32
    else compactNtpInterval.toNat
  divideRoundToNearest (value * 1000000) 65536

/-- `kSendTimeHistoryWindow`. -/
def kSendTimeHistoryWindow : ℤ := 60000000

/-! ## Bytes in flight -/

/-- `InFlightBytesTracker`. -/
abbrev InFlightBytesTracker := RouteKey → Option ℤ

namespace InFlightBytesTracker

variable {Info : Type*}

/-- `AddInFlightPacketBytes`. -/
def add (f : InFlightBytesTracker) (p : PacketFeedback Info) : InFlightBytesTracker :=
  Function.update f p.networkRoute.key (some ((f p.networkRoute.key).getD 0 + p.sent.size))

/-- `RemoveInFlightPacketBytes`. -/
def remove (f : InFlightBytesTracker) (p : PacketFeedback Info) : InFlightBytesTracker :=
  if p.sent.sendTime.isNone then f
  else
    match f p.networkRoute.key with
    | none => f
    | some bytes =>
        Function.update f p.networkRoute.key
          (if bytes - p.sent.size = 0 then none else some (bytes - p.sent.size))

/-- `GetOutstandingData`. -/
def outstanding (f : InFlightBytesTracker) (r : NetworkRoute) : ℤ :=
  (f r.key).getD 0

end InFlightBytesTracker

/-! ## The adapter -/

/-- `TransportFeedbackAdapter`. -/
structure TransportFeedbackAdapter (Info : Type*) where
  pendingUntrackedSize : Nat := 0
  seqNumUnwrapper : SeqNumUnwrapper 16 := {}
  lastAckSeqNum : ℤ := -1
  inFlight : InFlightBytesTracker := fun _ => none
  networkRoute : NetworkRoute := {}
  currentOffset : Option ℤ := none
  lastFeedbackCompactNtpTime : Option (BitVec 32) := none
  rtpToTransportSequenceNumber : SsrcAndRtpSequencenumber → Option ℤ := fun _ => none
  history : List (PacketFeedback Info) := []
  recentlyAcknowledgedPackets : SsrcAndRtpSequencenumber → Option Nat := fun _ => none
  recentlyAcknowledgedPacketsInOrder : List RecentlyAcknowledgedPacket := []
  acknowledgmentGeneration : Nat := 0

namespace TransportFeedbackAdapter

variable {Info : Type*}

/-- The transport sequence number of a packet of the history. -/
def transportNumber (p : PacketFeedback Info) : ℤ :=
  p.sent.sequenceNumber

/-- The order of the history. -/
def before (a b : ℤ) : Bool :=
  decide (a < b)

/-- `GetOutstandingData`. -/
def getOutstandingData (s : TransportFeedbackAdapter Info) : ℤ :=
  s.inFlight.outstanding s.networkRoute

/-- The loop of `PruneRecentlyAcknowledgedPackets`. -/
def prune (now : ℤ) :
    List RecentlyAcknowledgedPacket → (SsrcAndRtpSequencenumber → Option Nat) →
      List RecentlyAcknowledgedPacket × (SsrcAndRtpSequencenumber → Option Nat)
  | [], recent => ([], recent)
  | acknowledged :: rest, recent =>
      if now - acknowledged.acknowledgmentTime > kSendTimeHistoryWindow then
        prune now rest
          (if recent acknowledged.key = some acknowledged.generation then
            Function.update recent acknowledged.key none
          else recent)
      else (acknowledged :: rest, recent)

/-- `PruneRecentlyAcknowledgedPackets`. -/
def pruneRecentlyAcknowledgedPackets (s : TransportFeedbackAdapter Info) (now : ℤ) :
    TransportFeedbackAdapter Info :=
  let pruned := prune now s.recentlyAcknowledgedPacketsInOrder s.recentlyAcknowledgedPackets
  { s with
    recentlyAcknowledgedPacketsInOrder := pruned.1
    recentlyAcknowledgedPackets := pruned.2 }

/-- `RememberAcknowledgedPacket`. -/
def rememberAcknowledgedPacket (s : TransportFeedbackAdapter Info)
    (key : SsrcAndRtpSequencenumber) (acknowledgmentTime : ℤ) : TransportFeedbackAdapter Info :=
  let generation := s.acknowledgmentGeneration + 1
  { s with
    acknowledgmentGeneration := generation
    recentlyAcknowledgedPackets := Function.update s.recentlyAcknowledgedPackets key generation
    recentlyAcknowledgedPacketsInOrder :=
      s.recentlyAcknowledgedPacketsInOrder ++ [{ key, acknowledgmentTime, generation }] }

/-- `WasRecentlyAcknowledged`. -/
def wasRecentlyAcknowledged (s : TransportFeedbackAdapter Info)
    (key : SsrcAndRtpSequencenumber) : Bool :=
  (s.recentlyAcknowledgedPackets key).isSome

/-- The loop of `AddPacket` over the oldest packets of the history. -/
def expire (creationTime lastAckSeqNum : ℤ) :
    List (PacketFeedback Info) → InFlightBytesTracker →
      (SsrcAndRtpSequencenumber → Option ℤ) →
      List (PacketFeedback Info) × InFlightBytesTracker × (SsrcAndRtpSequencenumber → Option ℤ)
  | [], inFlight, mapping => ([], inFlight, mapping)
  | p :: rest, inFlight, mapping =>
      if creationTime - p.creationTime > kSendTimeHistoryWindow then
        expire creationTime lastAckSeqNum rest
          (if p.sent.sequenceNumber > lastAckSeqNum then inFlight.remove p else inFlight)
          (Function.update mapping p.key none)
      else (p :: rest, inFlight, mapping)

/-- The part of `AddPacket` that drops old packets. -/
def expireHistory (s : TransportFeedbackAdapter Info) (creationTime : ℤ) :
    TransportFeedbackAdapter Info :=
  let expired := expire creationTime s.lastAckSeqNum s.history s.inFlight
    s.rtpToTransportSequenceNumber
  { s with
    history := expired.1
    inFlight := expired.2.1
    rtpToTransportSequenceNumber := expired.2.2 }

/-- The packet that `AddPacket` writes to the history. -/
def newFeedback (s : TransportFeedbackAdapter Info) (packetToSend : TrackedPacket)
    (pacingInfo : Info) (overheadBytes : Nat) (creationTime sequenceNumber : ℤ) :
    PacketFeedback Info :=
  { creationTime
    sent :=
      { size := packetToSend.size + overheadBytes
        pacingInfo
        audio := packetToSend.isAudio
        sequenceNumber }
    networkRoute := s.networkRoute
    ssrc := packetToSend.ssrc
    rtpSequenceNumber := packetToSend.sequenceNumber }

/-- `emplace` into the map from report keys to transport sequence numbers. -/
def emplaceMapping (mapping : SsrcAndRtpSequencenumber → Option ℤ)
    (key : SsrcAndRtpSequencenumber) (sequenceNumber : ℤ) : SsrcAndRtpSequencenumber → Option ℤ :=
  if (mapping key).isSome then mapping else Function.update mapping key (some sequenceNumber)

/-- `emplace` into the history. -/
def emplaceHistory (history : List (PacketFeedback Info)) (p : PacketFeedback Info) :
    List (PacketFeedback Info) :=
  if (OrderedMap.find? before transportNumber p.sent.sequenceNumber history).isSome then history
  else OrderedMap.insertOrAssign before transportNumber p history

/-- `AddPacket`. -/
def addPacket (s : TransportFeedbackAdapter Info) (packetToSend : TrackedPacket)
    (pacingInfo : Info) (overheadBytes : Nat) (creationTime : ℤ) :
    TransportFeedbackAdapter Info :=
  match packetToSend.transportSequenceNumber with
  | none => s
  | some transportSequenceNumber =>
      let s := s.pruneRecentlyAcknowledgedPackets creationTime
      let unwrapped := s.seqNumUnwrapper.unwrap (BitVec.ofInt 16 transportSequenceNumber)
      let feedback := s.newFeedback packetToSend pacingInfo overheadBytes creationTime unwrapped.2
      let s := { s with seqNumUnwrapper := unwrapped.1 }.expireHistory creationTime
      { s with
        recentlyAcknowledgedPackets :=
          Function.update s.recentlyAcknowledgedPackets feedback.key none
        rtpToTransportSequenceNumber :=
          emplaceMapping s.rtpToTransportSequenceNumber feedback.key unwrapped.2
        history := emplaceHistory s.history feedback }

/-- `RemovePacket`. -/
def removePacket (s : TransportFeedbackAdapter Info) (packetToSend : TrackedPacket) :
    TransportFeedbackAdapter Info × Bool :=
  match s.rtpToTransportSequenceNumber packetToSend.key with
  | none => (s, false)
  | some sequenceNumber =>
      let s :=
        match OrderedMap.find? before transportNumber sequenceNumber s.history with
        | none => s
        | some p =>
            { s with
              inFlight := if p.sent.sendTime.isSome then s.inFlight.remove p else s.inFlight
              history := OrderedMap.erase before transportNumber sequenceNumber s.history }
      ({ s with
          rtpToTransportSequenceNumber :=
            Function.update s.rtpToTransportSequenceNumber packetToSend.key none }, true)

/-- `ProcessSentPacket`. -/
def processSentPacket (s : TransportFeedbackAdapter Info) (sentPacket : RtcSentPacket) :
    TransportFeedbackAdapter Info × Option (SentPacket Info) :=
  let sendTime := sentPacket.sendTimeMs * 1000
  if sentPacket.includedInFeedback ∨ sentPacket.packetId ≠ -1 then
    let unwrapped := s.seqNumUnwrapper.unwrap (BitVec.ofInt 16 sentPacket.packetId)
    let s := { s with seqNumUnwrapper := unwrapped.1 }
    match OrderedMap.find? before transportNumber unwrapped.2 s.history with
    | none => (s, none)
    | some p =>
        let updated :=
          { p with
            sent :=
              { p.sent with
                sendTime := some sendTime
                priorUnackedData := p.sent.priorUnackedData + s.pendingUntrackedSize } }
        let s := { s with pendingUntrackedSize := 0 }
        if p.sent.sendTime.isSome then
          ({ s with
              history := OrderedMap.insertOrAssign before transportNumber updated s.history }, none)
        else
          let inFlight :=
            if updated.sent.sequenceNumber > s.lastAckSeqNum then s.inFlight.add updated
            else s.inFlight
          let sent := { updated.sent with dataInFlight := inFlight.outstanding s.networkRoute }
          ({ s with
              inFlight
              history := OrderedMap.insertOrAssign before transportNumber
                { updated with sent } s.history }, some sent)
  else if sentPacket.includedInAllocation then
    ({ s with pendingUntrackedSize := s.pendingUntrackedSize + sentPacket.packetSizeBytes }, none)
  else (s, none)

/-- The packets of the history that an acknowledgement covers for the first time. -/
def newlyCovered (s : TransportFeedbackAdapter Info) (transportSeqNum : ℤ) :
    List (PacketFeedback Info) :=
  (OrderedMap.upperBound before transportNumber s.lastAckSeqNum s.history).takeWhile fun p =>
    !before transportSeqNum (transportNumber p)

/-- The first part of `RetrievePacketFeedback` by transport sequence number. -/
def acknowledgeUpTo (s : TransportFeedbackAdapter Info) (transportSeqNum : ℤ) :
    TransportFeedbackAdapter Info :=
  if transportSeqNum > s.lastAckSeqNum then
    { s with
      inFlight := (s.newlyCovered transportSeqNum).foldl InFlightBytesTracker.remove s.inFlight
      lastAckSeqNum := transportSeqNum }
  else s

/-- `RetrievePacketFeedback`. -/
def retrievePacketFeedback (s : TransportFeedbackAdapter Info) (key : SsrcAndRtpSequencenumber)
    (received : Bool) : TransportFeedbackAdapter Info × Option (PacketFeedback Info) :=
  match s.rtpToTransportSequenceNumber key with
  | none => (s, none)
  | some transportSeqNum =>
      let s := s.acknowledgeUpTo transportSeqNum
      match OrderedMap.find? before transportNumber transportSeqNum s.history with
      | none => (s, none)
      | some p =>
          if p.sent.sendTime.isNone then (s, none)
          else if received then
            ({ s with
                rtpToTransportSequenceNumber :=
                  Function.update s.rtpToTransportSequenceNumber p.key none
                history := OrderedMap.erase before transportNumber transportSeqNum s.history },
              some p)
          else (s, some p)

/-- What the loop of `ProcessCongestionControlFeedback` carries from one report to the next. -/
structure ReportProgress (Info : Type*) where
  adapter : TransportFeedbackAdapter Info
  results : List (PacketResult Info)
  supportsEcn : Bool

/-- One round of the loop of `ProcessCongestionControlFeedback`. -/
def processPacketInfo (currentOffset receiveTime : ℤ) (acc : ReportProgress Info)
    (packetInfo : PacketInfo) : ReportProgress Info :=
  let received := packetInfo.arrivalTimeOffset.isSome
  let retrieved := acc.adapter.retrievePacketFeedback packetInfo.key received
  match retrieved.2 with
  | none => { acc with adapter := retrieved.1 }
  | some p =>
      let s :=
        if received then retrieved.1.rememberAcknowledgedPacket packetInfo.key receiveTime
        else retrieved.1
      if p.networkRoute ≠ s.networkRoute then { acc with adapter := s }
      else
        { adapter := s
          results := acc.results ++
            [{ sentPacket := p.sent
               receiveTime := packetInfo.arrivalTimeOffset.map fun offset => currentOffset - offset
               ecn := packetInfo.ecn }]
          supportsEcn :=
            if received then acc.supportsEcn && decide (packetInfo.ecn ≠ .notEct)
            else acc.supportsEcn }

/-- The offset that a feedback message is read with. -/
def nextOffset (s : TransportFeedbackAdapter Info) (feedback : CongestionControlFeedback)
    (receiveTime : ℤ) : ℤ :=
  let feedbackDelta := s.lastFeedbackCompactNtpTime.elim 0 fun last =>
    compactNtpIntervalToTimeDelta (feedback.reportTimestampCompactNtp - last)
  if feedbackDelta < 0 then receiveTime else s.currentOffset.getD receiveTime + feedbackDelta

/-- What the loop of `ProcessCongestionControlFeedback` starts with. -/
def reportStart (s : TransportFeedbackAdapter Info) (feedback : CongestionControlFeedback)
    (receiveTime : ℤ) : ReportProgress Info :=
  let s := s.pruneRecentlyAcknowledgedPackets receiveTime
  { adapter :=
      { s with
        currentOffset := some (s.nextOffset feedback receiveTime)
        lastFeedbackCompactNtpTime := some feedback.reportTimestampCompactNtp }
    results := []
    supportsEcn := true }

/-- The loop of `ProcessCongestionControlFeedback`. -/
def processReports (s : TransportFeedbackAdapter Info) (feedback : CongestionControlFeedback)
    (receiveTime : ℤ) : ReportProgress Info :=
  feedback.packets.foldl (processPacketInfo (s.nextOffset feedback receiveTime) receiveTime)
    (s.reportStart feedback receiveTime)

/-- `ProcessCongestionControlFeedback` with `ToTransportFeedback`. -/
def processCongestionControlFeedback (s : TransportFeedbackAdapter Info)
    (feedback : CongestionControlFeedback) (receiveTime : ℤ) :
    TransportFeedbackAdapter Info × Option (TransportPacketsFeedback Info) :=
  if feedback.packets = [] then (s.pruneRecentlyAcknowledgedPackets receiveTime, none)
  else
    let progress := s.processReports feedback receiveTime
    if progress.results = [] then (progress.adapter, none)
    else
      (progress.adapter,
        some
          { feedbackTime := receiveTime
            packetFeedbacks := progress.results.mergeSort fun lhs rhs =>
              decide (lhs.sentPacket.sequenceNumber ≤ rhs.sentPacket.sequenceNumber)
            dataInFlight := progress.adapter.getOutstandingData
            transportSupportsEcn := progress.supportsEcn })

/-- The calls that are made while the route stays the same. -/
inductive Call (Info : Type*) where
  | addPacket (packetToSend : TrackedPacket) (pacingInfo : Info) (overheadBytes : Nat)
      (creationTime : ℤ)
  | removePacket (packetToSend : TrackedPacket)
  | processSentPacket (sentPacket : RtcSentPacket)
  | processCongestionControlFeedback (feedback : CongestionControlFeedback) (receiveTime : ℤ)

/-- One call. -/
def step (s : TransportFeedbackAdapter Info) : Call Info → TransportFeedbackAdapter Info
  | .addPacket packetToSend pacingInfo overheadBytes creationTime =>
      s.addPacket packetToSend pacingInfo overheadBytes creationTime
  | .removePacket packetToSend => (s.removePacket packetToSend).1
  | .processSentPacket sentPacket => (s.processSentPacket sentPacket).1
  | .processCongestionControlFeedback feedback receiveTime =>
      (s.processCongestionControlFeedback feedback receiveTime).1

/-- The feedback that a call returns. -/
def returned (s : TransportFeedbackAdapter Info) :
    Call Info → Option (TransportPacketsFeedback Info)
  | .processCongestionControlFeedback feedback receiveTime =>
      (s.processCongestionControlFeedback feedback receiveTime).2
  | _ => none

/-- The calls together with changes of the route. -/
inductive Action (Info : Type*) where
  | call (call : Call Info)
  | setNetworkRoute (networkRoute : NetworkRoute)

/-- One call or one change of the route. -/
def act (s : TransportFeedbackAdapter Info) : Action Info → TransportFeedbackAdapter Info
  | .call call => s.step call
  | .setNetworkRoute networkRoute => { s with networkRoute }

/-! ## The history as a sorted map -/

/-- The history is sorted by transport sequence number, and has one packet for each number. -/
def Ordered (s : TransportFeedbackAdapter Info) : Prop :=
  OrderedMap.Ranked transportNumber (fun _ => True) id s.history

/-- The order of the history compares the numbers. -/
theorem before_iff (x y : ℤ) : True → True → (before x y = true ↔ id x < id y) :=
  fun _ _ => decide_eq_true_iff

/-- No number is before itself. -/
theorem before_irrefl (x : ℤ) : before x x = false :=
  decide_eq_false (lt_irrefl x)

/-- Numbers that are not before each other are equal. -/
theorem before_connected (x y : ℤ) (hxy : before x y = false) (hyx : before y x = false) :
    x = y :=
  le_antisymm (not_lt.mp (of_decide_eq_false hyx)) (not_lt.mp (of_decide_eq_false hxy))

/-- A lookup in the history finds the packet of the number. -/
theorem find_history_iff {history : List (PacketFeedback Info)}
    (h : OrderedMap.Ranked transportNumber (fun _ => True) id history) {number : ℤ}
    {p : PacketFeedback Info} :
    OrderedMap.find? before transportNumber number history = some p ↔
      p ∈ history ∧ p.sent.sequenceNumber = number :=
  OrderedMap.find_eq_some_iff before_iff before_connected trivial h

/-- What an expired history keeps is its end. -/
theorem expire_suffix (creationTime lastAckSeqNum : ℤ) (history : List (PacketFeedback Info))
    (inFlight : InFlightBytesTracker) (mapping : SsrcAndRtpSequencenumber → Option ℤ) :
    (expire creationTime lastAckSeqNum history inFlight mapping).1 <:+ history := by
  induction history generalizing inFlight mapping with
  | nil => exact List.suffix_refl _
  | cons p rest ih =>
      unfold expire
      split
      · exact (ih _ _).trans (List.suffix_cons p rest)
      · exact List.suffix_refl _

/-- `emplace` keeps the order. -/
theorem ranked_emplace {history : List (PacketFeedback Info)} (p : PacketFeedback Info)
    (h : OrderedMap.Ranked transportNumber (fun _ => True) id history) :
    OrderedMap.Ranked transportNumber (fun _ => True) id (emplaceHistory history p) := by
  unfold emplaceHistory
  split_ifs
  · exact h
  · exact OrderedMap.ranked_insert_or_assign before_iff trivial h

/-- `AddPacket` keeps the order. -/
theorem ordered_add {s : TransportFeedbackAdapter Info} (h : s.Ordered)
    (packetToSend : TrackedPacket) (pacingInfo : Info) (overheadBytes : Nat) (creationTime : ℤ) :
    (s.addPacket packetToSend pacingInfo overheadBytes creationTime).Ordered := by
  unfold addPacket
  split
  · exact h
  · exact ranked_emplace _ (h.sublist (expire_suffix _ _ _ _ _).sublist)

/-- `RemovePacket` keeps the order. -/
theorem ordered_remove {s : TransportFeedbackAdapter Info} (h : s.Ordered)
    (packetToSend : TrackedPacket) : (s.removePacket packetToSend).1.Ordered := by
  unfold removePacket
  split
  · exact h
  · simp only
    split
    · exact h
    · exact h.sublist (OrderedMap.erase_sublist _ _)

/-- A packet of the history after `ProcessSentPacket` has found it. -/
structure SentAgain (p q : PacketFeedback Info) : Prop where
  sendTime : q.sent.sendTime.isSome = true
  sequenceNumber : q.sent.sequenceNumber = p.sent.sequenceNumber
  size : q.sent.size = p.sent.size
  pacingInfo : q.sent.pacingInfo = p.sent.pacingInfo
  networkRoute : q.networkRoute = p.networkRoute
  key : q.key = p.key

/-- The parts of the adapter that `ProcessSentPacket` leaves alone. -/
structure SameButSent (s s' : TransportFeedbackAdapter Info) : Prop where
  lastAckSeqNum : s'.lastAckSeqNum = s.lastAckSeqNum
  networkRoute : s'.networkRoute = s.networkRoute
  mapping : s'.rtpToTransportSequenceNumber = s.rtpToTransportSequenceNumber
  recent : s'.recentlyAcknowledgedPackets = s.recentlyAcknowledgedPackets
  inOrder : s'.recentlyAcknowledgedPacketsInOrder = s.recentlyAcknowledgedPacketsInOrder
  generation : s'.acknowledgmentGeneration = s.acknowledgmentGeneration

/-- `ProcessSentPacket` finds no packet of the number, or gives the packet a send time. Its bytes
are counted when it had none and was not acknowledged yet. -/
theorem process_sent_cases (s : TransportFeedbackAdapter Info) (sentPacket : RtcSentPacket) :
    let s' := (s.processSentPacket sentPacket).1
    SameButSent s s' ∧
      ((sentPacket.includedInFeedback → OrderedMap.find? before transportNumber
            (s.seqNumUnwrapper.unwrap (BitVec.ofInt 16 sentPacket.packetId)).2 s.history = none) ∧
          s'.history = s.history ∧ s'.inFlight = s.inFlight ∨
        ∃ p q, OrderedMap.find? before transportNumber
            (s.seqNumUnwrapper.unwrap (BitVec.ofInt 16 sentPacket.packetId)).2 s.history = some p ∧
          SentAgain p q ∧
          s'.history = OrderedMap.insertOrAssign before transportNumber q s.history ∧
          s'.inFlight =
            if p.sent.sendTime.isNone ∧ p.sent.sequenceNumber > s.lastAckSeqNum then
              s.inFlight.add q
            else s.inFlight) := by
  unfold processSentPacket
  simp only
  split
  · split
    · rename_i hnone
      exact ⟨⟨rfl, rfl, rfl, rfl, rfl, rfl⟩, Or.inl ⟨fun _ => hnone, rfl, rfl⟩⟩
    · rename_i p hfound
      split
      · rename_i hsent
        refine ⟨⟨rfl, rfl, rfl, rfl, rfl, rfl⟩, Or.inr ⟨p, _, hfound, ?_, rfl, ?_⟩⟩
        · exact ⟨rfl, rfl, rfl, rfl, rfl, rfl⟩
        · rw [if_neg]
          rintro ⟨hnone, -⟩
          rw [Option.isNone_iff_eq_none] at hnone
          rw [hnone] at hsent
          cases hsent
      · rename_i hunsent
        refine ⟨⟨rfl, rfl, rfl, rfl, rfl, rfl⟩, Or.inr ⟨p, _, hfound, ?_, rfl, ?_⟩⟩
        · exact ⟨rfl, rfl, rfl, rfl, rfl, rfl⟩
        · have hnone : p.sent.sendTime.isNone = true := by simpa using hunsent
          simp only [hnone, true_and]
          rfl
  · rename_i huntracked
    have hnot : ¬ sentPacket.includedInFeedback = true := fun hin => huntracked (Or.inl hin)
    split
    · exact ⟨⟨rfl, rfl, rfl, rfl, rfl, rfl⟩, Or.inl ⟨fun hin => absurd hin hnot, rfl, rfl⟩⟩
    · exact ⟨⟨rfl, rfl, rfl, rfl, rfl, rfl⟩, Or.inl ⟨fun hin => absurd hin hnot, rfl, rfl⟩⟩

/-- `ProcessSentPacket` keeps the order. -/
theorem ordered_sent {s : TransportFeedbackAdapter Info} (h : s.Ordered)
    (sentPacket : RtcSentPacket) : (s.processSentPacket sentPacket).1.Ordered := by
  rcases (s.process_sent_cases sentPacket).2 with ⟨-, hsame, -⟩ | ⟨p, q, -, -, hhistory, -⟩
  · unfold Ordered
    rw [hsame]
    exact h
  · unfold Ordered
    rw [hhistory]
    exact OrderedMap.ranked_insert_or_assign before_iff trivial h

/-- `RetrievePacketFeedback` keeps the order. -/
theorem ordered_retrieve {s : TransportFeedbackAdapter Info} (h : s.Ordered)
    (key : SsrcAndRtpSequencenumber) (received : Bool) :
    (s.retrievePacketFeedback key received).1.Ordered := by
  unfold retrievePacketFeedback
  split
  · exact h
  · have hacknowledged : ∀ number, (s.acknowledgeUpTo number).Ordered := by
      intro number
      unfold acknowledgeUpTo
      split_ifs
      · exact h
      · exact h
    simp only
    split
    · exact hacknowledged _
    · split_ifs
      · exact hacknowledged _
      · exact (hacknowledged _).sublist (OrderedMap.erase_sublist _ _)
      · exact hacknowledged _

/-- What a property of the adapter has to survive in order to survive the reports of a feedback
message. -/
theorem processed_of_retrieved {P : TransportFeedbackAdapter Info → Prop}
    (hretrieve : ∀ s key received, P s → P (s.retrievePacketFeedback key received).1)
    (hremember : ∀ s key time, P s → P (s.rememberAcknowledgedPacket key time))
    (currentOffset receiveTime : ℤ) (packetInfo : PacketInfo) (acc : ReportProgress Info)
    (h : P acc.adapter) : P (processPacketInfo currentOffset receiveTime acc packetInfo).adapter := by
  unfold processPacketInfo
  have hretrieved := hretrieve acc.adapter packetInfo.key packetInfo.arrivalTimeOffset.isSome h
  simp only
  split
  · exact hretrieved
  · split_ifs
    · exact hremember _ _ _ hretrieved
    · exact hremember _ _ _ hretrieved
    · exact hretrieved
    · exact hretrieved

/-- A property that survives pruning, the clock readings and every report survives a feedback
message. -/
theorem feedback_of_processed {P : TransportFeedbackAdapter Info → Prop}
    (hprune : ∀ s now, P s → P (s.pruneRecentlyAcknowledgedPackets now))
    (hclock : ∀ (s : TransportFeedbackAdapter Info) offset time, P s →
      P { s with currentOffset := offset, lastFeedbackCompactNtpTime := time })
    (hretrieve : ∀ s key received, P s → P (s.retrievePacketFeedback key received).1)
    (hremember : ∀ s key time, P s → P (s.rememberAcknowledgedPacket key time))
    {s : TransportFeedbackAdapter Info} (h : P s) (feedback : CongestionControlFeedback)
    (receiveTime : ℤ) : P (s.processCongestionControlFeedback feedback receiveTime).1 := by
  have hreports : P (s.processReports feedback receiveTime).adapter := by
    unfold processReports reportStart
    refine List.foldlRecOn feedback.packets _
      (motive := fun acc : ReportProgress Info => P acc.adapter)
      (hclock _ _ _ (hprune s receiveTime h)) fun acc hacc packetInfo _ => ?_
    exact processed_of_retrieved hretrieve hremember _ _ packetInfo acc hacc
  unfold processCongestionControlFeedback
  split_ifs
  · exact hprune s receiveTime h
  · simp only
    split_ifs
    · exact hreports
    · exact hreports

/-- Every call keeps the order. -/
theorem ordered_step {s : TransportFeedbackAdapter Info} (h : s.Ordered) (call : Call Info) :
    (s.step call).Ordered := by
  cases call with
  | addPacket packetToSend pacingInfo overheadBytes creationTime =>
      exact ordered_add h packetToSend pacingInfo overheadBytes creationTime
  | removePacket packetToSend => exact ordered_remove h packetToSend
  | processSentPacket sentPacket => exact ordered_sent h sentPacket
  | processCongestionControlFeedback feedback receiveTime =>
      exact feedback_of_processed (P := Ordered) (fun _ _ hs => hs) (fun _ _ _ hs => hs)
        (fun _ key received hs => ordered_retrieve hs key received) (fun _ _ _ hs => hs) h feedback
        receiveTime

/-- After any calls and changes of the route the history is sorted. -/
theorem ordered_run (actions : List (Action Info)) :
    (actions.foldl act ({} : TransportFeedbackAdapter Info)).Ordered := by
  induction actions using List.reverseRecOn with
  | nil => exact ⟨by simp, List.Pairwise.nil⟩
  | append_singleton earlier action ih =>
      rw [List.foldl_append]
      cases action with
      | call call => exact ordered_step ih call
      | setNetworkRoute networkRoute => exact ih

end TransportFeedbackAdapter

end MiniRtc
