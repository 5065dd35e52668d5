import MiniRtc.Foundation.Run
import MiniRtc.Qos.NackSender
import MiniRtc.Video.PendingFrames

/-!
# Sessions of a video receiver

A `VideoSession` is a receiver at work: packets arrive, the worker runs `Process` again and again,
batches of NACKs are sent and reported, and the application asks for key frames. The steps are
taken in any order and at any time. A call of `Process` is not one step: it begins with
`process` and goes on with one `processIterate` for every round of its loop, so packets can arrive
between two rounds. `delivered` are the frames that were handed over so far.
-/

namespace MiniRtc

open RtpVideoReceiver

/-- A receiver, the part of each producer's NACK batch that was not reported yet, the call of
`Process` that is running, and what was handed over. -/
structure VideoSession where
  receiver : RtpVideoReceiver
  outstanding : Producer → List (BitVec 16) := fun _ => []
  processing : Option FrameRecoveryTiming := none
  delivered : List Delivery := []

namespace VideoSession

/-- The steps of a session. -/
inductive Action where
  | onReceiveRtpPacket (datagram : List Byte) (firSent : Bool)
  | sendDatagram (producer : Producer) (sendSuccessful : Bool)
  | process (firSent : Bool)
  | processIterate (firSent : Bool)
  | requestKeyFrame (firSent : Bool)
  | onRttUpdate (rttMs : ℤ)
  | onSenderReport (senderSsrc : BitVec 32) (ntpTimestamp : BitVec 64) (rtpTimestamp : BitVec 32)
      (localTimeUs : ℤ)

/-- The start of `Process`, before its loop. -/
def processStart (s : VideoSession) (now : ℤ) (firSent : Bool) : VideoSession :=
  let prepared := s.receiver.processPendingNacks now
  let receiver := prepared.1.maybeRetryKeyFrameRequest now firSent
  { s with
    receiver
    outstanding := Function.update s.outstanding .worker prepared.2
    processing := some receiver.getFrameRecoveryTiming }

/-- One step at the given time. A thread that is still sending a batch does nothing else, and
there is only one worker. -/
def step (s : VideoSession) : ℤ × Action → VideoSession
  | (now, .onReceiveRtpPacket datagram firSent) =>
      if s.outstanding .ingestion = [] then
        let received := s.receiver.onReceiveRtpPacket now firSent datagram
        { s with
          receiver := received.1
          outstanding := Function.update s.outstanding .ingestion received.2 }
      else s
  | (now, .sendDatagram producer sendSuccessful) =>
      { s with
        receiver :=
          { s.receiver with
            nack := s.receiver.nack.onNackBatchSent now
              ((s.outstanding producer).take kMaxNackIdsPerRtcpPacket) sendSuccessful }
        outstanding :=
          Function.update s.outstanding producer
            ((s.outstanding producer).drop kMaxNackIdsPerRtcpPacket) }
  | (now, .process firSent) =>
      if s.outstanding .worker = [] ∧ s.processing = none then s.processStart now firSent else s
  | (now, .processIterate firSent) =>
      match s.processing with
      | none => s
      | some timing =>
          if s.outstanding .worker = [] then
            let round := s.receiver.processIterate timing now firSent
            { s with
              receiver := round.receiver
              processing := if round.continues then some timing else none
              delivered := s.delivered ++ round.delivered.toList }
          else s
  | (now, .requestKeyFrame firSent) =>
      { s with receiver := s.receiver.requestKeyFrame now firSent }
  | (_, .onRttUpdate rttMs) => { s with receiver := s.receiver.onRttUpdate rttMs }
  | (_, .onSenderReport senderSsrc ntpTimestamp rtpTimestamp localTimeUs) =>
      { s with
        receiver := s.receiver.onSenderReport senderSsrc ntpTimestamp rtpTimestamp localTimeUs }

/-- A session with a new receiver. -/
def start (remoteSsrc rtxSsrc : BitVec 32) (mediaPayloadType : Byte) : VideoSession :=
  { receiver := ofMediaConfig remoteSsrc rtxSsrc mediaPayloadType }

/-- A session after a list of steps. -/
def run (s : VideoSession) (actions : List (ℤ × Action)) : VideoSession :=
  actions.foldl step s

theorem run_append (s : VideoSession) (first second : List (ℤ × Action)) :
    s.run (first ++ second) = (s.run first).run second :=
  List.foldl_append

/-- A datagram of the H.264 stream with SSRC 1. -/
def h264Datagram (sequenceNumber : BitVec 16) (timestamp : BitVec 32) (payload : List Byte) :
    List Byte :=
  packetBytes none false payloadTypeH264 sequenceNumber timestamp 1 payload

/-- A datagram of the retransmission stream with SSRC 2, for a packet of the H.264 stream. -/
def rtxDatagram (sequenceNumber originalSequenceNumber : BitVec 16) (timestamp : BitVec 32)
    (payload : List Byte) : List Byte :=
  packetBytes none false payloadTypeRtx sequenceNumber timestamp 2
    (bytesOfUint16 originalSequenceNumber ++ payload)

/-! ## Steps by what they touch -/

/-- What a step does, apart from the accounts of sent requests and batches. -/
inductive Effect (s : VideoSession) : ℤ × Action → VideoSession → Prop where
  | receive (now datagram firSent outstanding) (hidle : s.outstanding .ingestion = []) :
      Effect s (now, .onReceiveRtpPacket datagram firSent)
        { s with
          receiver := (s.receiver.onReceiveRtpPacket now firSent datagram).1
          outstanding }
  | round (now firSent timing processing iteration)
      (hprocessing : s.processing = some timing)
      (hround : Round s.receiver timing now iteration)
      (hiteration : s.receiver.processIterate timing now firSent = iteration)
      (hworker : s.outstanding .worker = []) :
      Effect s (now, .processIterate firSent)
        { s with
          receiver := iteration.receiver
          processing
          delivered := s.delivered ++ iteration.delivered.toList }
  | quiet (action nack awaiting requestPending startedMs nextMs fir mapper outstanding processing)
      (hawaiting : s.receiver.awaitingKeyframe = true → awaiting = true) :
      Effect s action
        { s with
          receiver :=
            { s.receiver with
              nack := nack
              awaitingKeyframe := awaiting
              keyframeRequestPending := requestPending
              keyframeRequestStartedMs := startedMs
              nextKeyframeRequestMs := nextMs
              sequenceNumberFir := fir
              rtpTimestampMapper := mapper }
          outstanding
          processing }

/-- Every step has one of these effects. -/
theorem step_effect (s : VideoSession) (action : ℤ × Action) :
    Effect s action (s.step action) := by
  obtain ⟨now, action⟩ := action
  cases action with
  | onReceiveRtpPacket datagram firSent =>
      simp only [step]
      split_ifs with hidle
      · exact .receive now datagram firSent _ hidle
      · exact .quiet _ s.receiver.nack s.receiver.awaitingKeyframe _ _ _ _ _ _ _ id
  | sendDatagram producer sendSuccessful =>
      exact .quiet _ _ s.receiver.awaitingKeyframe _ _ _ _ _ _ _ id
  | process firSent =>
      simp only [step]
      split_ifs with hidle
      · obtain ⟨requestPending, startedMs, nextMs, fir, hretry⟩ :=
          (s.receiver.processPendingNacks now).1.maybe_retry_key_frame_request_eq now firSent
        simp only [processStart, hretry]
        simp only [processPendingNacks]
        split_ifs
        · exact .quiet _ _ s.receiver.awaitingKeyframe _ _ _ _ _ _ _ id
        · exact .quiet _ _ s.receiver.awaitingKeyframe _ _ _ _ _ _ _ id
      · exact .quiet _ s.receiver.nack s.receiver.awaitingKeyframe _ _ _ _ _ _ _ id
  | processIterate firSent =>
      simp only [step]
      cases hprocessing : s.processing with
      | none => exact .quiet _ s.receiver.nack s.receiver.awaitingKeyframe _ _ _ _ _ _ _ id
      | some timing =>
          by_cases hidle : s.outstanding .worker = []
          · simp only [hidle, if_true]
            exact .round now firSent timing _ _ hprocessing
              (s.receiver.process_iterate_round timing now firSent) rfl hidle
          · simp only [hidle, if_false]
            exact .quiet _ s.receiver.nack s.receiver.awaitingKeyframe _ _ _ _ _ _ _ id
  | requestKeyFrame firSent =>
      obtain ⟨requestPending, startedMs, nextMs, fir, hrequest⟩ :=
        s.receiver.request_key_frame_eq now firSent
      simp only [step, hrequest]
      exact .quiet _ s.receiver.nack true _ _ _ _ _ _ _ fun _ => rfl
  | onRttUpdate rttMs =>
      simp only [step, onRttUpdate]
      split_ifs
      · exact .quiet _ s.receiver.nack s.receiver.awaitingKeyframe _ _ _ _ _ _ _ id
      · exact .quiet _ _ s.receiver.awaitingKeyframe _ _ _ _ _ _ _ id
  | onSenderReport senderSsrc ntpTimestamp rtpTimestamp localTimeUs =>
      simp only [step, onSenderReport]
      split_ifs
      · exact .quiet _ s.receiver.nack s.receiver.awaitingKeyframe _ _ _ _ _ _ _ id
      · exact .quiet _ s.receiver.nack s.receiver.awaitingKeyframe _ _ _ _ _ _ _ id

end VideoSession

end MiniRtc
