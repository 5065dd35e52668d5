import MiniRtc.Qos.QueueTimes
import MiniRtc.Qos.BitrateProber
import MiniRtc.Qos.PacedSender

/-!
# The pacing controller

`PacingController` of `pacing_controller.cc` with its packet sender, `PacedSender`. It is a leaky
bucket: the packets that are sent are a debt, which the pacing rate pays back, and a packet from the
queue has to wait for that. Probes, audio and retransmissions do not wait.

The clock and the padding packets come from outside, at every place where the source asks for them.
The packet sender is not shut down, and it has no error correction packets to fetch.
-/

namespace MiniRtc

/-- What the pacer asks for: the time, and padding packets for a number of bytes. -/
structure PacerEnvironment (Env Content : Type*) where
  currentTime : Env → ℤ × Env
  generatePadding : ℤ → Env → List (PacedPacket (PacketBody Content)) × Env

/-- What `PacedSender` adds to the controller: the next numbers, and what was handed to
`on_sent_packet_func_`. -/
structure PacketSender (Content : Type*) where
  transportSeq : ℤ := 0
  ssrcSeq : BitVec 32 → BitVec 16 := fun _ => 1
  sent : List (PacedPacket (PacketBody Content) × PacedPacketInfo) := []

/-- `PacingController`. -/
structure PacingController (Env Content : Type*) where
  env : Env
  packetSender : PacketSender Content := {}
  drainLargeQueues : Bool := true
  keyframeFlushing : Bool := true
  transportOverheadPerPacket : ℤ := 0
  sendBurstInterval : ℤ := 40000
  lastTimestamp : ℤ
  paused : Bool := false
  mediaDebt : ℤ := 0
  paddingDebt : ℤ := 0
  pacingRate : ℤ := 0
  adjustedMediaRate : ℤ := 0
  paddingRate : ℤ := 0
  prober : BitrateProber := {}
  probingSendFailure : Bool := false
  lastProcessTime : ℤ
  lastSendTime : ℤ
  firstSentPacketTime : Option ℤ := none
  seenFirstPacket : Bool := false
  packetQueue : TimedPacketQueue Content
  congested : Bool := false
  queueTimeLimit : ℤ := 2000000
  accountForAudio : Bool := false
  includeOverhead : Bool := false
  circuitBreakerThreshold : ℕ := 65536

namespace PacingController

/-- `kCongestedPacketInterval`. -/
def kCongestedPacketInterval : ℤ :=
  500000

/-- `kMaxDebtInTime`. -/
def kMaxDebtInTime : ℤ :=
  500000

/-- `kMaxElapsedTime`. -/
def kMaxElapsedTime : ℤ :=
  2000000

/-- `kPausedProcessInterval`. -/
def kPausedProcessInterval : ℤ :=
  kCongestedPacketInterval

/-- `kTargetPaddingDuration`. -/
def kTargetPaddingDuration : ℤ :=
  5000

/-- `kMaxPaddingReplayDuration`. -/
def kMaxPaddingReplayDuration : ℤ :=
  50000

/-- `kMaxEarlyProbeProcessing`. -/
def kMaxEarlyProbeProcessing : ℤ :=
  1000

/-- `kMaxBurstSize`. -/
def kMaxBurstSize : ℤ :=
  63000

variable {Env Content : Type*}

/-! ## Queries -/

/-- `QueueSizeData`. -/
def queueSizeData (s : PacingController Env Content) : ℤ :=
  if s.includeOverhead then
    s.packetQueue.sizePayload + s.packetQueue.sizePackets * s.transportOverheadPerPacket
  else s.packetQueue.sizePayload

/-- `NextUnpacedSendTime`, unless it is minus infinity. Audio is not paced, and retransmissions are
fast. -/
def nextUnpacedSendTime (s : PacingController Env Content) : Option ℤ :=
  (s.packetQueue.leadingPacketEnqueueTime .audio).or
    s.packetQueue.leadingPacketEnqueueTimeForRetransmission

/-- `ShouldSendKeepalive`. Padding is sent if the pacer is silent. -/
def shouldSendKeepalive (s : PacingController Env Content) (now : ℤ) : Bool :=
  decide (kCongestedPacketInterval ≤ now - s.lastSendTime)

/-- The time of the next probe, if there is one that was not blocked. -/
def probeTime (s : PacingController Env Content) (now : ℤ) : Option ℤ :=
  if s.prober.isProbing && !s.probingSendFailure then
    match s.prober.nextProbe with
    | .minusInfinity => some now
    | .micros due => some due
    | .plusInfinity => none
  else none

/-- The time at which the debts allow the next packet or padding. -/
def drainedTime (s : PacingController Env Content) : ℤ :=
  if 0 < s.adjustedMediaRate ∧ s.packetQueue.empty = false then
    let drainTime := sendDuration s.mediaDebt s.adjustedMediaRate
    let sendBurstInterval :=
      min s.sendBurstInterval (sendDuration kMaxBurstSize s.adjustedMediaRate)
    s.lastProcessTime + if drainTime < sendBurstInterval then 0 else drainTime
  else if 0 < s.paddingRate ∧ s.packetQueue.empty = true then
    let drainTime := max (sendDuration s.mediaDebt s.adjustedMediaRate)
      (sendDuration s.paddingDebt s.paddingRate)
    s.lastProcessTime +
      if drainTime = 0 ∧ (s.mediaDebt ≠ 0 ∨ s.paddingDebt ≠ 0) then 1 else drainTime
  else s.lastProcessTime + kPausedProcessInterval

/-- `NextSendTime`, but for the expiration of the first probe cluster. -/
def plannedSendTime (s : PacingController Env Content) (now : ℤ) : ℤ :=
  if s.paused then s.lastSendTime + kPausedProcessInterval
  else
    match s.probeTime now with
    | some probeTime => probeTime
    | none =>
        match s.nextUnpacedSendTime with
        | some unpacedSendTime => unpacedSendTime
        | none =>
            if s.congested ∨ s.seenFirstPacket = false then
              s.lastSendTime + kCongestedPacketInterval
            else min s.drainedTime (s.lastSendTime + kPausedProcessInterval)

/-- `PaddingToAdd`. -/
def paddingToAdd (s : PacingController Env Content) (recommendedProbeSize dataSent : ℤ) : ℤ :=
  if s.packetQueue.empty = false then 0
  else if s.congested then 0
  else if recommendedProbeSize ≠ 0 then
    if dataSent < recommendedProbeSize then recommendedProbeSize - dataSent else 0
  else if 0 < s.paddingRate ∧ s.paddingDebt = 0 then
    bytesDuring s.paddingRate kTargetPaddingDuration
  else 0

/-- The bytes of a packet that count. -/
def packetSize (s : PacingController Env Content) (p : PacedPacket (PacketBody Content)) : ℤ :=
  p.content.payloadSize + p.content.paddingSize +
    if s.includeOverhead then p.content.headersSize + s.transportOverheadPerPacket else 0

/-! ## Budgets -/

/-- `UpdateTimeAndGetElapsed`. -/
def updateTimeAndGetElapsed (s : PacingController Env Content) (now : ℤ) :
    ℤ × PacingController Env Content :=
  if now < s.lastProcessTime then (0, s)
  else (min (now - s.lastProcessTime) kMaxElapsedTime, { s with lastProcessTime := now })

/-- `UpdateBudgetWithElapsedTime`. -/
def updateBudgetWithElapsedTime (s : PacingController Env Content) (delta : ℤ) :
    PacingController Env Content :=
  { s with
    mediaDebt := s.mediaDebt - min s.mediaDebt (bytesDuring s.adjustedMediaRate delta)
    paddingDebt := s.paddingDebt - min s.paddingDebt (bytesDuring s.paddingRate delta) }

/-- The budgets for the time that has passed. -/
def elapse (s : PacingController Env Content) (now : ℤ) : PacingController Env Content :=
  let (elapsed, s) := s.updateTimeAndGetElapsed now
  s.updateBudgetWithElapsedTime elapsed

/-- `UpdatePaddingBudgetWithSentData`. -/
def updatePaddingBudgetWithSentData (s : PacingController Env Content) (size : ℤ) :
    PacingController Env Content :=
  { s with
    paddingDebt := min (s.paddingDebt + size) (bytesDuring s.paddingRate kMaxDebtInTime) }

/-- `UpdateBudgetWithSentData`. -/
def updateBudgetWithSentData (s : PacingController Env Content) (size : ℤ) :
    PacingController Env Content :=
  { s with
    mediaDebt := min (s.mediaDebt + size) (bytesDuring s.adjustedMediaRate kMaxDebtInTime)
  }.updatePaddingBudgetWithSentData size

/-- The budgets after a packet. Audio only counts when it is accounted for. -/
def accountSent (s : PacingController Env Content) (packetType : RtpPacketMediaType)
    (packetSize : ℤ) : PacingController Env Content :=
  if (packetType ≠ .audio ∨ s.accountForAudio) ∧ 0 < packetSize then
    s.updateBudgetWithSentData packetSize
  else s

/-- `OnPacketSent`. -/
def onPacketSent (s : PacingController Env Content) (packetType : RtpPacketMediaType)
    (packetSize sendTime : ℤ) : PacingController Env Content :=
  { s.accountSent packetType packetSize with
    firstSentPacketTime :=
      if s.firstSentPacketTime = none ∧ packetType ≠ RtpPacketMediaType.padding then some sendTime
      else s.firstSentPacketTime
    lastSendTime := sendTime }

/-- `MaybeUpdateMediaRateDueToLongQueue`. -/
def maybeUpdateMediaRateDueToLongQueue (s : PacingController Env Content) (now : ℤ) :
    PacingController Env Content :=
  if s.drainLargeQueues = false ∨ s.queueSizeData ≤ 0 then
    { s with adjustedMediaRate := s.pacingRate }
  else
    let packetQueue := s.packetQueue.updateAverageQueueTime now
    let avgTimeLeft := max 1000 (s.queueTimeLimit - packetQueue.averageQueueTime)
    { s with
      packetQueue
      adjustedMediaRate := max s.pacingRate (rateOver s.queueSizeData avgTimeLeft) }

/-! ## Packets -/

variable (world : PacerEnvironment Env Content)

/-- `CurrentTime`: the time of the clock, unless it goes back. -/
def currentTime (s : PacingController Env Content) : ℤ × PacingController Env Content :=
  let (time, env) := world.currentTime s.env
  (max time s.lastTimestamp, { s with env, lastTimestamp := max time s.lastTimestamp })

/-- `NextSendTime`. -/
def nextSendTime (s : PacingController Env Content) : ℤ × PacingController Env Content :=
  let (now, s) := s.currentTime world
  (match s.prober.nextClusterExpiration with
    | none => s.plannedSendTime now
    | some clusterExpiration => min (s.plannedSendTime now) clusterExpiration, s)

/-- Whether `EnqueuePacket` drops what is queued for the stream of a packet. -/
def flushes (s : PacingController Env Content) (p : PacedPacket (PacketBody Content)) : Bool :=
  s.keyframeFlushing && decide (p.packetType = .video) && p.isKeyFrame && p.isFirstPacketOfFrame &&
    !s.packetQueue.lanes.hasKeyframePackets p.ssrc

/-- The prober learns of a packet, which may unblock a probe. -/
def announce (s : PacingController Env Content) (p : PacedPacket (PacketBody Content)) :
    PacingController Env Content :=
  let prober := s.prober.onIncomingPacket p.content.payloadSize
  { s with
    prober
    probingSendFailure := if prober.isProbing then false else s.probingSendFailure }

/-- When the queue is empty, the time that has passed is no budget for the packet. -/
def fastForward (s : PacingController Env Content) (now : ℤ) : PacingController Env Content :=
  if s.packetQueue.empty then
    let (next, s) := s.nextSendTime world
    s.elapse (min now next)
  else s

/-- `EnqueuePacket`. -/
def enqueuePacket (s : PacingController Env Content) (p : PacedPacket (PacketBody Content)) :
    PacingController Env Content :=
  let s :=
    if s.flushes p then
      { s with packetQueue := s.packetQueue.removePacketsForSsrc p.ssrc }
    else s
  let (now, s) := (s.announce p).currentTime world
  let s := s.fastForward world now
  { s with
    packetQueue := s.packetQueue.push now p
    seenFirstPacket := true }.maybeUpdateMediaRateDueToLongQueue now

/-- `PacedSender::EnqueuePacketOnQueue`, with the next transport sequence number. -/
def enqueuePacketOnQueue (s : PacingController Env Content)
    (p : PacedPacket (PacketBody Content)) : PacingController Env Content :=
  { s with
    packetSender := { s.packetSender with transportSeq := s.packetSender.transportSeq + 1 }
  }.enqueuePacket world { p with transportSequenceNumber := some s.packetSender.transportSeq }

/-- Padding packets with the transport sequence numbers from `transportSeq` on. -/
def numberPadding (transportSeq : ℤ) :
    List (PacedPacket (PacketBody Content)) → List (PacedPacket (PacketBody Content))
  | [] => []
  | p :: rest =>
      { p with
        packetType := .padding
        transportSequenceNumber := some transportSeq } :: numberPadding (transportSeq + 1) rest

/-- `PacedSender::GeneratePadding`. -/
def generatePadding (s : PacingController Env Content) (size : ℤ) :
    List (PacedPacket (PacketBody Content)) × PacingController Env Content :=
  let (padding, env) := world.generatePadding size s.env
  (numberPadding s.packetSender.transportSeq padding,
    { s with
      env
      packetSender :=
        { s.packetSender with
          transportSeq := s.packetSender.transportSeq + padding.length } })

/-- `PacedSender::SendPacket`. -/
def sendPacket (s : PacingController Env Content) (p : PacedPacket (PacketBody Content))
    (clusterInfo : PacedPacketInfo) : PacingController Env Content :=
  { s with
    packetSender :=
      { s.packetSender with
        ssrcSeq := Function.update s.packetSender.ssrcSeq p.ssrc
          (s.packetSender.ssrcSeq p.ssrc + 1)
        sent := s.packetSender.sent ++
          [({ p with sequenceNumber := s.packetSender.ssrcSeq p.ssrc }, clusterInfo)] } }

/-- A queued packet as it was pushed. -/
def ofQueued (p : QueuedPacket Content) : PacedPacket (PacketBody Content) :=
  { p with content := p.content.toPacketBody }

/-- `GetPendingPacket` from the queue. -/
def pendingQueued (s : PacingController Env Content) (isProbe : Bool) (targetSendTime now : ℤ) :
    Option (PacedPacket (PacketBody Content)) × PacingController Env Content :=
  if s.packetQueue.empty then (none, s)
  else if s.nextUnpacedSendTime = none ∧ isProbe = false ∧
      (s.congested ∨ (now ≤ targetSendTime ∧ s.sendBurstInterval = 0 ∧
        targetSendTime < now + sendDuration s.mediaDebt s.adjustedMediaRate)) then (none, s)
  else
    match s.packetQueue.pop with
    | none => (none, s)
    | some (p, _, packetQueue) => (some (ofQueued p), { s with packetQueue })

/-- `GetPendingPacket`. A probe is opened by a padding packet. -/
def getPendingPacket (s : PacingController Env Content) (pacingInfo : PacedPacketInfo)
    (targetSendTime now : ℤ) :
    Option (PacedPacket (PacketBody Content)) × PacingController Env Content :=
  let isProbe := decide (pacingInfo.probeClusterId ≠ kNotAProbe)
  if isProbe && decide (pacingInfo.probeClusterBytesSent = 0) then
    match s.generatePadding world 1 with
    | (padding :: _, s) => (some padding, s)
    | ([], s) => s.pendingQueued isProbe targetSendTime now
  else s.pendingQueued isProbe targetSendTime now

/-! ## `ProcessPackets` -/

/-- The variables of the loop of `ProcessPackets`. -/
structure SendLoop (Env Content : Type*) where
  controller : PacingController Env Content
  pacingInfo : PacedPacketInfo
  targetSendTime : ℤ
  dataSent : ℤ := 0
  packetsSent : ℤ := 0

/-- A target that is too far behind the clock is moved, for the padding. -/
def replay (l : SendLoop Env Content) (now : ℤ) : SendLoop Env Content :=
  if kMaxPaddingReplayDuration < now - l.targetSendTime then
    { l with
      targetSendTime := now - kMaxPaddingReplayDuration
      controller :=
        { l.controller with
          lastProcessTime :=
            max l.controller.lastProcessTime (now - kMaxPaddingReplayDuration) } }
  else l

/-- The loop has sent a packet. -/
def sendPending (l : SendLoop Env Content) (p : PacedPacket (PacketBody Content)) (now : ℤ)
    (isProbing : Bool) : SendLoop Env Content :=
  let size := l.controller.packetSize p
  { l with
    controller := (l.controller.sendPacket p l.pacingInfo).onPacketSent p.packetType size now
    dataSent := l.dataSent + size
    packetsSent := l.packetsSent + 1
    pacingInfo :=
      if isProbing then
        { l.pacingInfo with
          probeClusterBytesSent := l.pacingInfo.probeClusterBytesSent + size }
      else l.pacingInfo }

/-- The loop of `ProcessPackets`, and whether its number of iterations has run out. -/
def sendLoop (now recommendedProbeSize : ℤ) (isProbing : Bool) :
    ℕ → SendLoop Env Content → SendLoop Env Content × Bool
  | 0, l => (l, true)
  | iterations + 1, l =>
      match l.controller.getPendingPacket world l.pacingInfo l.targetSendTime now with
      | (none, s) =>
          let l := replay { l with controller := s } now
          let paddingToAdd := l.controller.paddingToAdd recommendedProbeSize l.dataSent
          if 0 < paddingToAdd then
            match l.controller.generatePadding world paddingToAdd with
            | ([], s) =>
                ({ l with controller := s.updatePaddingBudgetWithSentData paddingToAdd }, false)
            | (padding, s) =>
                sendLoop now recommendedProbeSize isProbing iterations
                  { l with controller := padding.foldl (enqueuePacket world) s }
          else (l, false)
      | (some p, s) =>
          let l := sendPending { l with controller := s } p now isProbing
          if isProbing && decide (recommendedProbeSize ≤ l.dataSent) then (l, false)
          else
            let (next, s) := l.controller.nextSendTime world
            if now < next ∧ isProbing = false then
              ({ l with controller := s, targetSendTime := next }, false)
            else
              sendLoop now recommendedProbeSize isProbing iterations
                { l with
                  controller := s.elapse (min next now)
                  targetSendTime := min next now }

/-- The keep-alive of `ProcessPackets`. Padding is only sent after a first packet. -/
def sendKeepalive (s : PacingController Env Content) (now : ℤ) : PacingController Env Content :=
  if s.seenFirstPacket then
    let (padding, s) := s.generatePadding world 1
    let sent := padding.foldl (fun s p => s.sendPacket p {}) s
    sent.onPacketSent .padding
      (padding.map fun p => (p.content.payloadSize + p.content.paddingSize : ℤ)).sum now
  else s.onPacketSent .padding 0 now

/-- What `ProcessPackets` does after its loop. -/
def finishLoop (l : SendLoop Env Content) (isProbing : Bool) : PacingController Env Content :=
  let s :=
    if isProbing then
      let s := { l.controller with probingSendFailure := decide (l.dataSent = 0) }
      if l.dataSent = 0 then s
      else
        let (now, s) := s.currentTime world
        { s with prober := s.prober.probeSent now l.dataSent l.packetsSent }
    else l.controller
  let (now, s) := s.currentTime world
  s.maybeUpdateMediaRateDueToLongQueue now

/-- `ProcessPackets` when it is time to send. -/
def sendDue (s : PacingController Env Content) (targetSendTime now : ℤ) :
    PacingController Env Content :=
  let s := s.elapse targetSendTime
  let (prober, current) :=
    if s.prober.isProbing then s.prober.currentCluster now else (s.prober, none)
  let s := { s with prober }
  let pacingInfo := current.getD {}
  let isProbing := decide (pacingInfo.probeClusterId ≠ kNotAProbe)
  let recommendedProbeSize := if isProbing then s.prober.recommendedMinProbeSize else 0
  match sendLoop world now recommendedProbeSize isProbing s.circuitBreakerThreshold
      { controller := s, pacingInfo, targetSendTime } with
  | (l, true) => { l.controller with lastSendTime := now, lastProcessTime := now }
  | (l, false) => finishLoop world l isProbing

/-- `ProcessPackets`. -/
def processPackets (s : PacingController Env Content) : PacingController Env Content :=
  let (now, s) := s.currentTime world
  let (prober, removed) := s.prober.removeExpiredClusters (.micros now)
  let s := { s with
    prober
    probingSendFailure := if removed then false else s.probingSendFailure }
  let s := if s.shouldSendKeepalive now then s.sendKeepalive world now else s
  if s.paused then s
  else
    let earlyExecuteMargin := if s.prober.isProbing then kMaxEarlyProbeProcessing else 0
    let (targetSendTime, s) := s.nextSendTime world
    if now + earlyExecuteMargin < targetSendTime then s.elapse now
    else s.sendDue world targetSendTime now

/-! ## The other calls -/

/-- A new controller, with the configuration of `PacedSender`. The clock is read twice. -/
def new (env : Env) : PacingController Env Content :=
  let (lastTimestamp, env) := world.currentTime env
  let (lastProcessTime, env) := world.currentTime env
  { env
    lastTimestamp
    lastProcessTime
    lastSendTime := lastProcessTime
    packetQueue := { lastUpdateTime := lastProcessTime } }

/-- `CreateProbeClusters`. -/
def createProbeClusters (s : PacingController Env Content) (configs : List ProbeClusterConfig) :
    PacingController Env Content :=
  { s with
    prober := configs.foldl BitrateProber.createProbeCluster s.prober
    probingSendFailure := if configs = [] then s.probingSendFailure else false }

/-- `Pause`. -/
def pause (s : PacingController Env Content) : PacingController Env Content :=
  let (now, s) := s.currentTime world
  { s with
    paused := true
    packetQueue := s.packetQueue.setPauseState true now }

/-- `Resume`. The time of the pause is no budget. -/
def resume (s : PacingController Env Content) : PacingController Env Content :=
  let (now, s) := s.currentTime world
  { s with
    lastProcessTime := if s.paused then now else s.lastProcessTime
    paused := false
    packetQueue := s.packetQueue.setPauseState false now }

/-- `SetCongested`. -/
def setCongested (s : PacingController Env Content) (congested : Bool) :
    PacingController Env Content :=
  if s.congested && !congested then
    let (now, s) := s.currentTime world
    { s.elapse now with
      congested
      probingSendFailure := false }
  else { s with congested }

/-- `SetCircuitBreakerThreshold`. -/
def setCircuitBreakerThreshold (s : PacingController Env Content) (numIterations : ℕ) :
    PacingController Env Content :=
  { s with circuitBreakerThreshold := numIterations }

/-- `SetProbingEnabled`. -/
def setProbingEnabled (s : PacingController Env Content) (enabled : Bool) :
    PacingController Env Content :=
  { s with prober := s.prober.setEnabled enabled }

/-- `SetAccountForAudioPackets`. -/
def setAccountForAudioPackets (s : PacingController Env Content) (accountForAudio : Bool) :
    PacingController Env Content :=
  { s with accountForAudio }

/-- `SetIncludeOverhead`. -/
def setIncludeOverhead (s : PacingController Env Content) : PacingController Env Content :=
  { s with includeOverhead := true }

/-- `SetTransportOverhead`. -/
def setTransportOverhead (s : PacingController Env Content) (overheadPerPacket : ℤ) :
    PacingController Env Content :=
  { s with transportOverheadPerPacket := overheadPerPacket }

/-- `SetSendBurstInterval`. -/
def setSendBurstInterval (s : PacingController Env Content) (burstInterval : ℤ) :
    PacingController Env Content :=
  { s with sendBurstInterval := burstInterval }

/-- `SetQueueTimeLimit`. -/
def setQueueTimeLimit (s : PacingController Env Content) (limit : ℤ) :
    PacingController Env Content :=
  { s with queueTimeLimit := limit }

/-- `SetPacingRates`. The padding rate is capped by the pacing rate. -/
def setPacingRates (s : PacingController Env Content) (pacingRate paddingRate : ℤ) :
    PacingController Env Content :=
  let (now, s) := { s with
    pacingRate
    paddingRate := min paddingRate pacingRate }.currentTime world
  s.maybeUpdateMediaRateDueToLongQueue now

/-- `SetAllowProbeWithoutMediaPacket`. -/
def setAllowProbeWithoutMediaPacket (s : PacingController Env Content) (allow : Bool) :
    PacingController Env Content :=
  let prober := s.prober.setAllowProbeWithoutMediaPacket allow
  { s with
    prober
    probingSendFailure := if allow && prober.isProbing then false else s.probingSendFailure }

/-- `AbortProbing`. -/
def abortProbing (s : PacingController Env Content) : PacingController Env Content :=
  { s with
    prober := s.prober.abortProbing
    probingSendFailure := false }

/-- `RemovePacketsForSsrc`. -/
def removePacketsForSsrc (s : PacingController Env Content) (ssrc : BitVec 32) :
    PacingController Env Content :=
  { s with packetQueue := s.packetQueue.removePacketsForSsrc ssrc }

end PacingController

/-- A call of the controller. Packets are enqueued through `PacedSender`. -/
inductive PacingCall (Content : Type*) where
  | createProbeClusters (configs : List ProbeClusterConfig)
  | pause
  | resume
  | setCongested (congested : Bool)
  | setCircuitBreakerThreshold (numIterations : ℕ)
  | removePacketsForSsrc (ssrc : BitVec 32)
  | setProbingEnabled (enabled : Bool)
  | abortProbing
  | setPacingRates (pacingRate paddingRate : ℤ)
  | enqueuePacket (p : PacedPacket (PacketBody Content))
  | setAccountForAudioPackets (accountForAudio : Bool)
  | setIncludeOverhead
  | setTransportOverhead (overheadPerPacket : ℤ)
  | setSendBurstInterval (burstInterval : ℤ)
  | setAllowProbeWithoutMediaPacket (allow : Bool)
  | setQueueTimeLimit (limit : ℤ)
  | nextSendTime
  | processPackets

namespace PacingController

variable {Env Content : Type*} (world : PacerEnvironment Env Content)

/-- The controller after a call. -/
def act (s : PacingController Env Content) : PacingCall Content → PacingController Env Content
  | .createProbeClusters configs => s.createProbeClusters configs
  | .pause => s.pause world
  | .resume => s.resume world
  | .setCongested congested => s.setCongested world congested
  | .setCircuitBreakerThreshold numIterations => s.setCircuitBreakerThreshold numIterations
  | .removePacketsForSsrc ssrc => s.removePacketsForSsrc ssrc
  | .setProbingEnabled enabled => s.setProbingEnabled enabled
  | .abortProbing => s.abortProbing
  | .setPacingRates pacingRate paddingRate => s.setPacingRates world pacingRate paddingRate
  | .enqueuePacket p => s.enqueuePacketOnQueue world p
  | .setAccountForAudioPackets accountForAudio => s.setAccountForAudioPackets accountForAudio
  | .setIncludeOverhead => s.setIncludeOverhead
  | .setTransportOverhead overheadPerPacket => s.setTransportOverhead overheadPerPacket
  | .setSendBurstInterval burstInterval => s.setSendBurstInterval burstInterval
  | .setAllowProbeWithoutMediaPacket allow => s.setAllowProbeWithoutMediaPacket allow
  | .setQueueTimeLimit limit => s.setQueueTimeLimit limit
  | .nextSendTime => (s.nextSendTime world).2
  | .processPackets => s.processPackets world

/-- A call, and the packets that it hands to `on_sent_packet_func_`. -/
def step (s : PacingController Env Content) (call : PacingCall Content) :
    PacingController Env Content × List (PacedPacket (PacketBody Content) × PacedPacketInfo) :=
  (s.act world call, (s.act world call).packetSender.sent.drop s.packetSender.sent.length)

end PacingController

end MiniRtc
