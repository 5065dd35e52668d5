import MiniRtc.Qos.NackGaps
import MiniRtc.Video.KeyframeGate

/-!
# The media stream and its sequence numbers

The packets of the media stream are the media packets, original or restored from a retransmission,
and the padding packets with the SSRC of the stream. `reported?` is the call of `OnReceivedPacket`
that `InsertRtpPacket` makes for such a packet, and `NackChange` lists what a step of a session does
to the NACK requester. `Positioned` runs a session next to the positions of its newest packet and of
all packets of the stream that arrived.
-/

namespace MiniRtc

open Circle RtpVideoReceiver

namespace RtpVideoReceiver

/-- A packet, original or recovered, belongs to the media stream: it carries media, or it is
padding with the SSRC of the stream. -/
def InStream (s : RtpVideoReceiver) (packet : RtpPacket × Bool) : Prop :=
  packet.1.payloadType = s.mediaPayloadType ∨
    (packet.2 = false ∧ packet.1.payloadType = s.mediaPayloadType - 1 ∧
      packet.1.ssrc = s.remoteSsrc)

instance (s : RtpVideoReceiver) (packet : RtpPacket × Bool) : Decidable (s.InStream packet) :=
  inferInstanceAs (Decidable (_ ∨ _))

/-- The packet of the media stream in a datagram, and whether it was recovered. -/
def streamPacket? (s : RtpVideoReceiver) (datagram : List Byte) : Option (RtpPacket × Bool) :=
  if datagram.length < kFixedHeaderSize then none
  else ((RtpPacket.ofBuffer datagram).bind s.mediaPacketOf).filter fun packet => s.InStream packet

/-- An original media packet of a frame that is over: `InsertRtpPacket` returns before the NACK
requester is told. -/
def IsPassedOver (s : RtpVideoReceiver) (packet : RtpPacket × Bool) : Prop :=
  packet.2 = false ∧ packet.1.payloadType = s.mediaPayloadType ∧
    s.isFrameTimestampObsolete packet.1.timestamp = true

instance (s : RtpVideoReceiver) (packet : RtpPacket × Bool) : Decidable (s.IsPassedOver packet) :=
  inferInstanceAs (Decidable (_ ∧ _ ∧ _))

/-- The arguments with which `OnReceivedPacket` is called for a datagram. -/
def reported? (s : RtpVideoReceiver) (datagram : List Byte) : Option (BitVec 16 × Bool) :=
  ((s.streamPacket? datagram).filter fun packet => ¬ s.IsPassedOver packet).map fun packet =>
    (packet.1.sequenceNumber, packet.2)

section Receive

variable {s : RtpVideoReceiver} {now : ℤ} {firSent : Bool} {datagram : List Byte}

/-- A reception of a recovered packet prepares no batch. -/
theorem on_received_recovered_batch (nack : NackRequester) (now : ℤ) (seqNum : BitVec 16) :
    (nack.onReceivedPacket now seqNum true).2 = [] := by
  have hcases := nack.on_received_packet_reception now seqNum true
  generalize nack.onReceivedPacket now seqNum true = result at hcases ⊢
  cases hcases <;> rfl

/-- The NACK part of a packet, when retransmission is on. -/
theorem track_sequence_number_nack (s : RtpVideoReceiver) (hrtx : s.rtxEnabled = true) (now : ℤ)
    (firSent : Bool) (sequenceNumber : BitVec 16) (isRecovered : Bool) :
    (s.trackSequenceNumber now firSent sequenceNumber isRecovered).1.nack =
        { (s.nack.onReceivedPacket now sequenceNumber isRecovered).1 with
          keyframeRequestPending := false } ∧
      (s.trackSequenceNumber now firSent sequenceNumber isRecovered).2 =
        (s.nack.onReceivedPacket now sequenceNumber isRecovered).2 := by
  obtain ⟨_, _, _, _, _, heq, -⟩ :=
    s.track_sequence_number_eq now firSent sequenceNumber isRecovered
  rw [heq]
  simp only [hrtx, if_true, NackRequester.consumeKeyFrameRequest, true_and]
  simp only [trackSequenceNumber, hrtx, Bool.not_true, Bool.false_eq_true, if_false]

/-- Reading the payload leaves the NACK requester alone. -/
theorem depacketize_nack {mediaPacket : RtpPacket} (hbuilt : Built mediaPacket) :
    (s.depacketize now firSent mediaPacket).nack = s.nack := by
  have hcases := s.depacketize_cases now firSent hbuilt
  generalize s.depacketize now firSent mediaPacket = s' at hcases ⊢
  cases hcases with
  | unread =>
      obtain ⟨_, _, _, _, hrequest⟩ := s.request_key_frame_eq now firSent
      rw [hrequest]
  | av1 | h264 | other => rfl

/-- What a datagram does to the NACK requester. -/
theorem receive_nack (hrtx : s.rtxEnabled = true) (now : ℤ) (firSent : Bool)
    (datagram : List Byte) :
    (s.reported? datagram = none ∧ s.onReceiveRtpPacket now firSent datagram = (s, [])) ∨
    ∃ seqNum isRecovered pending, s.reported? datagram = some (seqNum, isRecovered) ∧
      (s.onReceiveRtpPacket now firSent datagram).1.nack =
        { (s.nack.onReceivedPacket now seqNum isRecovered).1 with
          keyframeRequestPending := pending } ∧
      (s.onReceiveRtpPacket now firSent datagram).2 =
        (s.nack.onReceivedPacket now seqNum isRecovered).2 ∧
      (isRecovered = false → s.Overflows seqNum →
        (s.onReceiveRtpPacket now firSent datagram).1.awaitingKeyframe = true) := by
  unfold onReceiveRtpPacket reported? streamPacket?
  by_cases hshort : datagram.length < kFixedHeaderSize
  · simp [hshort]
  · simp only [hshort, if_false]
    cases hbuffer : RtpPacket.ofBuffer datagram with
    | none => simp
    | some rtpPacket =>
        simp only [Option.bind_some]
        have hbuilt := built_of_buffer hbuffer
        have hcases := s.insert_rtp_packet_insertion now firSent rtpPacket
        generalize s.insertRtpPacket now firSent rtpPacket = result at hcases ⊢
        cases hcases with
        | dropped hnone => simp [hnone]
        | obsolete mediaPacket hmedia htype hobsolete =>
            left
            have hover : s.IsPassedOver (mediaPacket, false) := ⟨rfl, htype, hobsolete⟩
            simp [hmedia, hover]
        | late mediaPacket hmedia htype hobsolete =>
            right
            have hin : s.InStream (mediaPacket, true) := Or.inl htype
            refine ⟨mediaPacket.sequenceNumber, true, _, ?_, rfl,
              (on_received_recovered_batch s.nack now mediaPacket.sequenceNumber).symm, by simp⟩
            simp [hmedia, hin, IsPassedOver]
        | ignored mediaPacket isRecovered hmedia hother =>
            left
            have hout : ¬ s.InStream (mediaPacket, isRecovered) := by
              rcases hother with ⟨hne, hnot⟩ | hnone
              · exact fun hin => hin.elim hne hnot
              · have hbuilt' : Built mediaPacket := media_packet_built hbuilt hmedia
                exact absurd (hnone.symm.trans hbuilt') (by simp)
            simp [hmedia, hout]
        | padding mediaPacket hmedia hpadding hssrc =>
            right
            have hin : s.InStream (mediaPacket, false) := Or.inr ⟨rfl, hpadding, hssrc⟩
            have hover : ¬ s.IsPassedOver (mediaPacket, false) := fun hover =>
              ne_sub_one s.mediaPayloadType (hover.2.1.symm.trans hpadding)
            obtain ⟨hnack, hbatch⟩ :=
              s.track_sequence_number_nack hrtx now firSent mediaPacket.sequenceNumber false
            refine ⟨mediaPacket.sequenceNumber, false, _, ?_, hnack, hbatch,
              fun _ hoverflow => track_overflow_awaiting hoverflow⟩
            simp [hmedia, hin, hover]
        | media mediaPacket isRecovered hmedia htype hfresh =>
            right
            have hbuilt' : Built mediaPacket := media_packet_built hbuilt hmedia
            have hin : s.InStream (mediaPacket, isRecovered) := Or.inl htype
            have hover : ¬ s.IsPassedOver (mediaPacket, isRecovered) := fun hover => by
              simpa [hfresh] using hover.2.2
            obtain ⟨hnack, hbatch⟩ :=
              s.track_sequence_number_nack hrtx now firSent mediaPacket.sequenceNumber isRecovered
            refine ⟨mediaPacket.sequenceNumber, isRecovered, _, ?_,
              (depacketize_nack hbuilt').trans hnack, hbatch, ?_⟩
            · simp [hmedia, hin, hover]
            · rintro rfl hoverflow
              exact depacketize_keeps_awaiting hbuilt' (track_overflow_awaiting hoverflow)

end Receive

end RtpVideoReceiver

namespace VideoSession

/-- The packet of the media stream that arrives in a step. -/
def arrival? (s : VideoSession) : ℤ × Action → Option (RtpPacket × Bool)
  | (_, .onReceiveRtpPacket datagram _) =>
      if s.outstanding .ingestion = [] then s.receiver.streamPacket? datagram else none
  | _ => none

/-- The call of `OnReceivedPacket` in a step. -/
def report? (s : VideoSession) : ℤ × Action → Option (BitVec 16 × Bool)
  | (_, .onReceiveRtpPacket datagram _) =>
      if s.outstanding .ingestion = [] then s.receiver.reported? datagram else none
  | _ => none

/-- What a step does to the NACK requester. -/
inductive NackChange (s : VideoSession) : ℤ × Action → NackRequester → Prop where
  | received (now datagram firSent seqNum isRecovered pending)
      (hreport : s.report? (now, .onReceiveRtpPacket datagram firSent) =
        some (seqNum, isRecovered)) :
      NackChange s (now, .onReceiveRtpPacket datagram firSent)
        { (s.receiver.nack.onReceivedPacket now seqNum isRecovered).1 with
          keyframeRequestPending := pending }
  | prepared (now firSent) :
      NackChange s (now, .process firSent) (s.receiver.nack.processNacks now).1
  | sent (now producer sendSuccessful) :
      NackChange s (now, .sendDatagram producer sendSuccessful)
        (s.receiver.nack.onNackBatchSent now
          ((s.outstanding producer).take kMaxNackIdsPerRtcpPacket) sendSuccessful)
  | sampled (now rttMs) :
      NackChange s (now, .onRttUpdate rttMs) (s.receiver.nack.updateRtt rttMs)
  | cleared (now firSent last) :
      NackChange s (now, .processIterate firSent) (s.receiver.nack.clearUpTo last)
  | kept (action) (hreport : s.report? action = none) : NackChange s action s.receiver.nack

/-- Clearing the requests of a frame. -/
theorem clear_nacks_of_cases (s : RtpVideoReceiver) (frame : PendingFrame) :
    (s.clearNacksOf frame).nack = s.nack ∨
      ∃ last, frame.lastSequenceNumber = some last ∧
        (s.clearNacksOf frame).nack = s.nack.clearUpTo last := by
  unfold clearNacksOf
  cases frame.lastSequenceNumber with
  | none => exact Or.inl rfl
  | some last => exact Or.inr ⟨last, rfl, rfl⟩

/-- Every step changes the NACK requester in one of these ways, when retransmission is on. -/
theorem step_nack_change {s : VideoSession} (hrtx : s.receiver.rtxEnabled = true)
    (action : ℤ × Action) : NackChange s action (s.step action).receiver.nack := by
  obtain ⟨now, action⟩ := action
  cases action with
  | onReceiveRtpPacket datagram firSent =>
      simp only [step]
      split_ifs with hidle
      · rcases receive_nack hrtx now firSent datagram with
          ⟨hnone, hsame⟩ | ⟨seqNum, isRecovered, pending, hreport, hnack, -⟩
        · simp only [hsame]
          exact .kept _ (by simp [report?, hidle, hnone])
        · simp only [hnack]
          exact .received now datagram firSent seqNum isRecovered pending
            (by simp [report?, hidle, hreport])
      · exact .kept _ (by simp [report?, hidle])
  | sendDatagram producer sendSuccessful => exact .sent now producer sendSuccessful
  | process firSent =>
      simp only [step]
      split_ifs with hidle
      · obtain ⟨_, _, _, _, hretry⟩ :=
          (s.receiver.processPendingNacks now).1.maybe_retry_key_frame_request_eq now firSent
        simp only [processStart, hretry]
        simp only [processPendingNacks, hrtx, Bool.not_true, Bool.false_eq_true, if_false]
        exact .prepared now firSent
      · exact .kept _ rfl
  | processIterate firSent =>
      simp only [step]
      cases hprocessing : s.processing with
      | none => exact .kept _ rfl
      | some timing =>
          by_cases hworker : s.outstanding .worker = []
          · simp only [hworker, if_true]
            have hround := s.receiver.process_iterate_round timing now firSent
            generalize s.receiver.processIterate timing now firSent = iteration at hround ⊢
            cases hround with
            | idle | drop | skip | deliver | escalate => exact .kept _ rfl
            | keyframe timestamp frame | timeout timestamp frame =>
                rcases clear_nacks_of_cases s.receiver frame with hsame | ⟨last, -, hclear⟩
                · simp only [hsame]
                  exact .kept _ rfl
                · simp only [hclear]
                  exact .cleared now firSent last
          · simp only [hworker, if_false]
            exact .kept _ rfl
  | requestKeyFrame firSent =>
      obtain ⟨_, _, _, _, hrequest⟩ := s.receiver.request_key_frame_eq now firSent
      simp only [step, hrequest]
      exact .kept _ rfl
  | onRttUpdate rttMs =>
      simp only [step, onRttUpdate, hrtx, Bool.not_true, Bool.false_eq_true, if_false]
      exact .sampled now rttMs
  | onSenderReport senderSsrc ntpTimestamp rtpTimestamp localTimeUs =>
      simp only [step, onSenderReport]
      split_ifs <;> exact .kept _ rfl

/-- No step changes the SSRCs or the payload type. -/
theorem step_config (s : VideoSession) (action : ℤ × Action) :
    (s.step action).receiver.rtxEnabled = s.receiver.rtxEnabled := by
  have heffect := s.step_effect action
  generalize s.step action = s' at heffect ⊢
  cases heffect with
  | receive now datagram firSent =>
      obtain ⟨_, _, _, _, _, _, _, heq⟩ := s.receiver.receive_eq now firSent datagram
      simp only [heq, rtxEnabled]
  | quiet => rfl
  | round now firSent timing processing iteration hprocessing hround => cases hround <;> rfl

end VideoSession

/-- A session with the position of its newest packet and those of all packets of the stream that
arrived. -/
structure Positioned where
  session : VideoSession
  newest : ℤ := 0
  received : List ℤ := []

namespace Positioned

open VideoSession

/-- The NACK requester of the session. -/
def nack (a : Positioned) : NackRequester :=
  a.session.receiver.nack

/-- A step of the session. A packet has its position when it arrives, and the newest position moves
when the requester is told. -/
def step (a : Positioned) (action : ℤ × Action) : Positioned :=
  { session := a.session.step action
    newest :=
      match a.session.report? action with
      | none => a.newest
      | some (seqNum, isRecovered) => a.nack.newestAfter a.newest seqNum isRecovered
    received :=
      match a.session.arrival? action with
      | none => a.received
      | some (packet, _) => a.nack.positionOf a.newest packet.sequenceNumber :: a.received }

/-- A new session. -/
def start (remoteSsrc rtxSsrc : BitVec 32) (mediaPayloadType : Byte) : Positioned :=
  { session := VideoSession.start remoteSsrc rtxSsrc mediaPayloadType }

/-- Retransmission is on, and the positions belong to the numbers of the requester. -/
structure Consistent (a : Positioned) : Prop where
  rtx : a.session.receiver.rtxEnabled = true
  wellFormed : a.nack.WellFormed
  located : a.nack.Located a.newest

/-- Every step keeps the positions consistent. -/
theorem step_consistent {a : Positioned} (h : a.Consistent) (action : ℤ × Action) :
    (a.step action).Consistent := by
  suffices hnack : ∀ nack, NackChange a.session action nack →
      nack.WellFormed ∧ nack.Located (a.step action).newest by
    obtain ⟨hwellFormed, hlocated⟩ := hnack _ (step_nack_change h.rtx action)
    exact ⟨(a.session.step_config action).trans h.rtx, hwellFormed, hlocated⟩
  intro nack hchange
  have hwellFormed : (a.session.receiver.nack).WellFormed := h.wellFormed
  cases hchange with
  | received now datagram firSent seqNum isRecovered pending hreport =>
      have hafter := NackRequester.on_received_packet_window hwellFormed now seqNum isRecovered
      refine ⟨⟨hafter.window, hafter.length_le, hafter.unused⟩, ?_⟩
      simp only [step, hreport]
      exact NackRequester.on_received_packet_located h.located now seqNum isRecovered
  | prepared now firSent => exact ⟨NackRequester.get_nack_batch_window hwellFormed _ now, h.located⟩
  | sent now producer sendSuccessful =>
      exact ⟨NackRequester.on_nack_batch_sent_window hwellFormed now _ sendSuccessful, h.located⟩
  | sampled now rttMs =>
      obtain ⟨rtt, hasSample, heq⟩ := a.session.receiver.nack.update_rtt_eq rttMs
      rw [heq]
      exact ⟨⟨hwellFormed.window, hwellFormed.length_le, hwellFormed.unused⟩, h.located⟩
  | cleared now firSent last =>
      exact ⟨NackRequester.clear_up_to_window hwellFormed last, h.located⟩
  | kept action hreport =>
      simp only [step, hreport]
      exact ⟨hwellFormed, h.located⟩

theorem start_consistent {remoteSsrc rtxSsrc : BitVec 32} {mediaPayloadType : Byte}
    (hrtx : (start remoteSsrc rtxSsrc mediaPayloadType).session.receiver.rtxEnabled = true) :
    (start remoteSsrc rtxSsrc mediaPayloadType).Consistent :=
  ⟨hrtx, NackRequester.initial_window, fun hinit => by
    simp [start, nack, VideoSession.start, ofMediaConfig] at hinit⟩

end Positioned

end MiniRtc
