import MiniRtc.Video.FrameAssembly

/-!
# The video receiver

The rest of `rtp_video_receiver.cpp`: `InsertRtpPacket` takes the packets of the network,
`Process` hands complete frames over, and both ask for key frames when packets stay lost. Every
function that reads the clock takes the time `now` in microseconds, and one that sends a key frame
request takes what the transport answers (`firSent`). The batches of NACKs that a function
prepares are returned.

One round of the loop in `Process` is `processIterate`. Which of its branches is taken is
`processBranch`, so that a result about the loop is a case analysis on `ProcessBranch`.
-/

namespace MiniRtc

/-- `FrameRecoveryTiming`. -/
structure FrameRecoveryTiming where
  softDeadlineMs : ℤ
  softFirConfirmationDelayMs : ℤ
  hardDeadlineMs : ℤ
  deriving DecidableEq

/-- `RtpVideoReceiver`. -/
structure RtpVideoReceiver extends FrameAssembly where
  remoteSsrc : BitVec 32 := 0
  rtxSsrc : BitVec 32 := 0
  mediaPayloadType : Byte := payloadTypeH264
  nack : NackRequester := {}
  awaitingKeyframe : Bool := false
  lastCompleteFrameTs : Option (BitVec 32) := none
  lastDiscardedFrameTs : Option (BitVec 32) := none
  keyframeRequestPending : Bool := false
  keyframeRequestStartedMs : ℤ := 0
  nextKeyframeRequestMs : ℤ := 0
  sequenceNumberFir : Byte := 0

/-- `kFirRetryIntervalMs`. -/
def kFirRetryIntervalMs : ℤ := 1500

/-- `kFailedFirRetryIntervalMs`. -/
def kFailedFirRetryIntervalMs : ℤ := 500

namespace RtpVideoReceiver

/-- `SetMediaConfig` on a new receiver. A retransmission stream has an SSRC of its own. -/
def ofMediaConfig (remoteSsrc rtxSsrc : BitVec 32) (mediaPayloadType : Byte) : RtpVideoReceiver :=
  { remoteSsrc
    rtxSsrc := if rtxSsrc ≠ remoteSsrc then rtxSsrc else 0
    mediaPayloadType }

/-- `RtxEnabled`. -/
def rtxEnabled (s : RtpVideoReceiver) : Bool :=
  s.rtxSsrc ≠ 0

/-! ## Key frame requests -/

/-- `SendKeyFrameRequest`: at most one request in 1500 ms, or 500 ms after a failed one. -/
def sendKeyFrameRequest (s : RtpVideoReceiver) (now : ℤ) (firSent enterAwaitingState : Bool) :
    RtpVideoReceiver × Bool :=
  let s := if enterAwaitingState then { s with awaitingKeyframe := true } else s
  let nowMs := microsToMillis now
  if nowMs < s.nextKeyframeRequestMs then (s, false)
  else
    let s := { s with sequenceNumberFir := s.sequenceNumberFir + 1 }
    if !firSent then
      ({ s with nextKeyframeRequestMs := nowMs + kFailedFirRetryIntervalMs }, false)
    else
      let s :=
        if !s.keyframeRequestPending then
          { s with keyframeRequestStartedMs := nowMs, keyframeRequestPending := true }
        else s
      ({ s with nextKeyframeRequestMs := nowMs + kFirRetryIntervalMs }, true)

/-- `RequestKeyFrame`. -/
def requestKeyFrame (s : RtpVideoReceiver) (now : ℤ) (firSent : Bool) : RtpVideoReceiver :=
  (s.sendKeyFrameRequest now firSent true).1

/-- A request when the time of the next one has come. -/
def retryKeyFrameRequest (s : RtpVideoReceiver) (now : ℤ) (firSent : Bool) : RtpVideoReceiver :=
  if s.nextKeyframeRequestMs ≤ microsToMillis now then
    (s.sendKeyFrameRequest now firSent false).1
  else s

/-- `MaybeRetryKeyFrameRequest`. -/
def maybeRetryKeyFrameRequest (s : RtpVideoReceiver) (now : ℤ) (firSent : Bool) :
    RtpVideoReceiver :=
  if !s.awaitingKeyframe then s
  else if s.pendingFrames.any fun entry => entry.2.isComplete && entry.2.isKeyframe then s
  else s.retryKeyFrameRequest now firSent

/-- `OnCompleteKeyFrame`. -/
def onCompleteKeyFrame (s : RtpVideoReceiver) : RtpVideoReceiver :=
  if !s.keyframeRequestPending then s
  else { s with keyframeRequestPending := false, keyframeRequestStartedMs := 0 }

/-! ## Packets -/

/-- `RestoreMediaPacketFromRtx`: the original sequence number stands in the first two bytes of the
payload, and the rest is the media packet under another payload type and SSRC. -/
def restoreMediaPacketFromRtx (s : RtpVideoReceiver) (rtxPacket : RtpPacket) : Option RtpPacket :=
  if rtxPacket.payloadType ≠ payloadTypeRtx ∨ rtxPacket.payloadSize < 2 ∨
      rtxPacket.payloadOffset < kFixedHeaderSize ∨ s.remoteSsrc = 0 ∨
      s.mediaPayloadType = payloadTypeUndefined ∨ s.mediaPayloadType = payloadTypeRtx then none
  else
    let rtxPayload := rtxPacket.payload
    let buffer := rtxPacket.buffer
    let mediaBuffer := buffer.take rtxPacket.payloadOffset ++ rtxPayload.drop 2 ++
      buffer.drop (rtxPacket.size - rtxPacket.paddingSize)
    RtpPacket.ofBuffer
      (byteAt mediaBuffer 0 :: ((byteAt mediaBuffer 1 &&& 0x80) ||| s.mediaPayloadType) ::
        rtxPayload.take 2 ++ (mediaBuffer.drop 4).take 4 ++ bytesOfUint32 s.remoteSsrc ++
        mediaBuffer.drop 12)

/-- The media packet that `InsertRtpPacket` goes on with, and whether it was recovered. -/
def mediaPacketOf (s : RtpVideoReceiver) (rtpPacket : RtpPacket) : Option (RtpPacket × Bool) :=
  if rtpPacket.payloadType = payloadTypeRtx then
    if s.rtxSsrc = 0 ∨ rtpPacket.ssrc ≠ s.rtxSsrc then none
    else (s.restoreMediaPacketFromRtx rtpPacket).map fun mediaPacket => (mediaPacket, true)
  else some (rtpPacket, false)

/-- `IsFrameTimestampObsolete`. -/
def isFrameTimestampObsolete (s : RtpVideoReceiver) (timestamp : BitVec 32) : Bool :=
  s.lastCompleteFrameTs.any (fun last => !aheadOf timestamp last) ||
    s.lastDiscardedFrameTs.any (fun last => !aheadOf timestamp last)

/-- The part of `InsertRtpPacket` that tells the NACK requester about a packet. -/
def trackSequenceNumber (s : RtpVideoReceiver) (now : ℤ) (firSent : Bool)
    (sequenceNumber : BitVec 16) (isRecovered : Bool) : RtpVideoReceiver × List (BitVec 16) :=
  if !s.rtxEnabled then (s, [])
  else
    let received := s.nack.onReceivedPacket now sequenceNumber isRecovered
    let consumed := received.1.consumeKeyFrameRequest
    let s := { s with nack := consumed.1 }
    (if consumed.2 then s.requestKeyFrame now firSent else s, received.2)

/-- The end of `InsertRtpPacket`: a payload that cannot be read leads to a key frame request. -/
def depacketize (s : RtpVideoReceiver) (now : ℤ) (firSent : Bool) (mediaPacket : RtpPacket) :
    RtpVideoReceiver :=
  let built := RtpPacket.ofBuffer mediaPacket.buffer
  if mediaPacket.payloadType = payloadTypeAv1 then
    match built.bind RtpPacketAv1.getFrameHeaderInfo with
    | none => s.requestKeyFrame now firSent
    | some p => { s with toFrameAssembly := s.processAv1RtpPacket now p }
  else if mediaPacket.payloadType = payloadTypeH264 then
    match built.bind RtpPacketH264.getFrameHeaderInfo with
    | none => s.requestKeyFrame now firSent
    | some p => { s with toFrameAssembly := s.processH264RtpPacket now p }
  else s

/-- `InsertRtpPacket`. -/
def insertRtpPacket (s : RtpVideoReceiver) (now : ℤ) (firSent : Bool) (rtpPacket : RtpPacket) :
    RtpVideoReceiver × List (BitVec 16) :=
  match s.mediaPacketOf rtpPacket with
  | none => (s, [])
  | some (mediaPacket, isRecovered) =>
      let payloadType := mediaPacket.payloadType
      let isMediaPayload := payloadType = s.mediaPayloadType
      if isMediaPayload ∧ s.isFrameTimestampObsolete mediaPacket.timestamp then
        if isRecovered then
          ({ s with nack := (s.nack.onReceivedPacket now mediaPacket.sequenceNumber true).1 }, [])
        else (s, [])
      else if RtpPacket.ofBuffer mediaPacket.buffer = none then (s, [])
      else
        let paddingPayloadType := s.mediaPayloadType - 1
        let isAuxiliaryPadding :=
          !isRecovered ∧ mediaPacket.ssrc ≠ s.remoteSsrc ∧ payloadType = paddingPayloadType
        let isMediaPadding := !isRecovered ∧ payloadType = paddingPayloadType
        if isAuxiliaryPadding then (s, [])
        else if ¬ isMediaPayload ∧ ¬ isMediaPadding then (s, [])
        else
          let tracked := s.trackSequenceNumber now firSent mediaPacket.sequenceNumber isRecovered
          if isMediaPadding then tracked
          else (tracked.1.depacketize now firSent mediaPacket, tracked.2)

/-- `OnReceiveRtpPacket` of the channel: only datagrams that parse are inserted. -/
def onReceiveRtpPacket (s : RtpVideoReceiver) (now : ℤ) (firSent : Bool) (datagram : List Byte) :
    RtpVideoReceiver × List (BitVec 16) :=
  if datagram.length < kFixedHeaderSize then (s, [])
  else
    match RtpPacket.ofBuffer datagram with
    | none => (s, [])
    | some rtpPacket => s.insertRtpPacket now firSent rtpPacket

/-- `OnRttUpdate`. -/
def onRttUpdate (s : RtpVideoReceiver) (rttMs : ℤ) : RtpVideoReceiver :=
  if !s.rtxEnabled then s else { s with nack := s.nack.updateRtt rttMs }

/-- `OnSenderReport`, as far as it concerns the timestamps of frames. The local time of the report
is what the clock makes of its NTP timestamp. -/
def onSenderReport (s : RtpVideoReceiver) (senderSsrc : BitVec 32) (ntpTimestamp : BitVec 64)
    (rtpTimestamp : BitVec 32) (localTimeUs : ℤ) : RtpVideoReceiver :=
  if senderSsrc ≠ s.remoteSsrc ∨ ntpTimestamp = 0 then s
  else
    { s with
      rtpTimestampMapper := s.rtpTimestampMapper.updateFromSenderReport rtpTimestamp localTimeUs }

/-! ## The worker -/

/-- `ProcessPendingNacks`, up to the batch that is sent. -/
def processPendingNacks (s : RtpVideoReceiver) (now : ℤ) : RtpVideoReceiver × List (BitVec 16) :=
  if !s.rtxEnabled then (s, [])
  else
    let prepared := s.nack.processNacks now
    ({ s with nack := prepared.1 }, prepared.2)

/-- `GetFrameRecoveryTiming`. -/
def getFrameRecoveryTiming (s : RtpVideoReceiver) : FrameRecoveryTiming :=
  if !s.rtxEnabled then ⟨80, 0, 200⟩
  else if !s.nack.hasRttSample then ⟨200, 100, 600⟩
  else
    let rttMs := max s.nack.rttMs 1
    { softDeadlineMs := VideoRecovery.softFrameRecoveryDeadlineMs rttMs
      softFirConfirmationDelayMs := VideoRecovery.softFirConfirmationDelayMs rttMs
      hardDeadlineMs := VideoRecovery.hardFrameRecoveryDeadlineMs rttMs }

/-- `MarkFrameDiscardedLocked`. -/
def markFrameDiscarded (s : RtpVideoReceiver) (timestamp : BitVec 32) : RtpVideoReceiver :=
  if s.lastDiscardedFrameTs.all fun last => aheadOf timestamp last then
    { s with lastDiscardedFrameTs := some timestamp }
  else s

/-- Whether the frame has to wait for retransmissions. -/
def hasBlockingNacks (s : RtpVideoReceiver) (frame : PendingFrame) : Bool :=
  match frame.lastSequenceNumber with
  | some last => s.nack.hasPendingNacksUpTo last
  | none => s.nack.hasPendingNacks

/-- `ClearUpTo` the last packet of a frame. -/
def clearNacksOf (s : RtpVideoReceiver) (frame : PendingFrame) : RtpVideoReceiver :=
  match frame.lastSequenceNumber with
  | some last => { s with nack := s.nack.clearUpTo last }
  | none => s

/-- The branches of the loop in `Process`. -/
inductive ProcessBranch where
  | empty
  | older
  | skipToKeyframe
  | deliverKeyframe
  | dropUntilKeyframe
  | deliver
  | hardTimeout
  | softStall
  | softFir
  | wait
  deriving DecidableEq

/-- The branch that the loop in `Process` takes for the first pending frame. -/
def processBranch (s : RtpVideoReceiver) (timing : FrameRecoveryTiming) (now : ℤ) :
    ProcessBranch :=
  match s.pendingFrames with
  | [] => .empty
  | (timestamp, frame) :: newer =>
      let frameAgeMs := microsToMillis now - frame.arrivalTime
      let isOlderThanDecodedFrame :=
        s.lastCompleteFrameTs.any fun last => !aheadOf timestamp last
      let newerCompleteKeyframeAvailable :=
        (s.awaitingKeyframe || frame.recoveryEscalated) &&
          !(frame.isComplete && frame.isKeyframe) &&
          newer.any fun entry => entry.2.isComplete && entry.2.isKeyframe
      if isOlderThanDecodedFrame then .older
      else if newerCompleteKeyframeAvailable then .skipToKeyframe
      else if frame.isComplete && s.awaitingKeyframe && frame.isKeyframe then .deliverKeyframe
      else if frame.isComplete && s.awaitingKeyframe then .dropUntilKeyframe
      else if frame.isComplete && !s.hasBlockingNacks frame then .deliver
      else if frameAgeMs > timing.hardDeadlineMs then .hardTimeout
      else if !frame.recoveryEscalated && decide (frameAgeMs > timing.softDeadlineMs) then
        .softStall
      else if frame.recoveryEscalated && !frame.softFirRequested &&
          decide (frameAgeMs > timing.softDeadlineMs + timing.softFirConfirmationDelayMs) then
        .softFir
      else .wait

/-- A frame that was handed to `on_receive_complete_frame_`, with what the receiver knew of it. -/
structure Delivery where
  timestamp : BitVec 32
  frame : ReceivedFrame
  isKeyframe : Bool
  lastSequenceNumber : Option (BitVec 16)
  deriving DecidableEq

/-- What one round of the loop in `Process` does: the new state, the frame that is handed over, if
there is one, and whether the loop goes on. -/
structure Iteration where
  receiver : RtpVideoReceiver
  delivered : Option Delivery := none
  continues : Bool

/-- The frame leaves the pending frames and is handed over. -/
def handOver (s : RtpVideoReceiver) (timestamp : BitVec 32) (frame : PendingFrame) : Iteration :=
  let s := { s with lastCompleteFrameTs := some timestamp }
  { receiver := if frame.frame.isSome && frame.isKeyframe then s.onCompleteKeyFrame else s
    delivered := frame.frame.map fun received =>
      { timestamp
        frame := received
        isKeyframe := frame.isKeyframe
        lastSequenceNumber := frame.lastSequenceNumber }
    continues := true }

/-- The frame is given up with everything that was collected of it. -/
def dropFrame (s : RtpVideoReceiver) (timestamp : BitVec 32) : Iteration :=
  { receiver := { s with toFrameAssembly := s.dropFrameAssembly timestamp }
    continues := true }

/-- One round of the loop in `Process`. -/
def processIterate (s : RtpVideoReceiver) (timing : FrameRecoveryTiming) (now : ℤ)
    (firSent : Bool) : Iteration :=
  match s.pendingFrames with
  | [] => { receiver := s, continues := false }
  | (timestamp, frame) :: newer =>
      let erased := { s with pendingFrames := newer }
      match s.processBranch timing now with
      | .empty => { receiver := s, continues := false }
      | .older => erased.dropFrame timestamp
      | .skipToKeyframe => { erased with awaitingKeyframe := true }.dropFrame timestamp
      | .deliverKeyframe =>
          ({ erased with awaitingKeyframe := false }.clearNacksOf frame).handOver timestamp frame
      | .dropUntilKeyframe => erased.dropFrame timestamp
      | .deliver => erased.handOver timestamp frame
      | .hardTimeout =>
          let timedOut := ({ erased with awaitingKeyframe := true }.clearNacksOf
            frame).markFrameDiscarded timestamp
          let dropped := (timedOut.dropFrame timestamp).receiver
          { receiver := dropped.retryKeyFrameRequest now firSent, continues := false }
      | .softStall =>
          { receiver :=
              { s with
                pendingFrames := (timestamp, { frame with recoveryEscalated := true }) :: newer }
            continues := false }
      | .softFir =>
          let requested :=
            { s with
              pendingFrames := (timestamp, { frame with softFirRequested := true }) :: newer }
          { receiver := requested.retryKeyFrameRequest now firSent, continues := false }
      | .wait => { receiver := s, continues := false }

end RtpVideoReceiver

end MiniRtc
