import MiniRtc.Qos.FeedbackGenerator
import MiniRtc.Video.Session

/-!
# Congestion feedback of a video receiver

A video session with its feedback generator. `feedbackPacket?` is the packet that `InsertRtpPacket`
passes to the generator. It passes neither the packets of frames that are over nor those that a
retransmission restores, although the sender waits for reports about them as well.

`reported_run` says which runs report every packet that arrived, and `forgotten_after_gap` is one that
does not: the reports of an interval do not fit into a packet, which is dropped.
-/

namespace MiniRtc

open CongestionControlFeedback CongestionControlFeedbackGenerator RtpVideoReceiver

/-- The packet that `InsertRtpPacket` passes to the congestion controller. -/
def RtpVideoReceiver.feedbackPacket? (s : RtpVideoReceiver) (rtpPacket : RtpPacket) :
    Option RtpPacket :=
  match s.mediaPacketOf rtpPacket with
  | none => none
  | some (mediaPacket, isRecovered) =>
      let payloadType := mediaPacket.payloadType
      let isMediaPayload := payloadType = s.mediaPayloadType
      if isMediaPayload ∧ s.isFrameTimestampObsolete mediaPacket.timestamp then none
      else if RtpPacket.ofBuffer mediaPacket.buffer = none then none
      else
        let paddingPayloadType := s.mediaPayloadType - 1
        let isAuxiliaryPadding :=
          !isRecovered ∧ mediaPacket.ssrc ≠ s.remoteSsrc ∧ payloadType = paddingPayloadType
        let isMediaPadding := !isRecovered ∧ payloadType = paddingPayloadType
        if isAuxiliaryPadding then some mediaPacket
        else if ¬ isMediaPayload ∧ ¬ isMediaPadding then none
        else if isRecovered then none
        else some mediaPacket

/-- The packet of a datagram that arrives intact. -/
def arrivedPacket? (datagram : List Byte) : Option RtpPacket :=
  if datagram.length < kFixedHeaderSize then none else RtpPacket.ofBuffer datagram

/-- The key under which a packet was sent. -/
def RtpPacket.feedbackKey (p : RtpPacket) : SsrcAndRtpSequencenumber :=
  { ssrc := p.ssrc, rtpSequenceNumber := p.sequenceNumber }

/-- A session, its generator, the packets that arrived and the feedback that was serialized. -/
structure FeedbackSession where
  session : VideoSession
  generator : CongestionControlFeedbackGenerator := {}
  arrived : List SsrcAndRtpSequencenumber := []
  sent : List FeedbackMessage := []

namespace FeedbackSession

/-- A step of the session, or a feedback. -/
inductive Action where
  | session (now : ℤ) (action : VideoSession.Action)
  | sendFeedback (now : ℤ) (compactNtp : BitVec 32)

/-- The datagram that a step of the session takes from the network. -/
def received? (g : FeedbackSession) : Action → Option (ℤ × RtpPacket)
  | .session now (.onReceiveRtpPacket datagram _) =>
      if g.session.outstanding .ingestion = [] then
        (arrivedPacket? datagram).map fun rtpPacket => (now, rtpPacket)
      else none
  | _ => none

/-- The generator after a packet. -/
def track (g : FeedbackSession) (now : ℤ) (rtpPacket : RtpPacket) :
    CongestionControlFeedbackGenerator :=
  match g.session.receiver.feedbackPacket? rtpPacket with
  | none => g.generator
  | some packet =>
      g.generator.onReceivedPacket packet.ssrc packet.sequenceNumber now .ect0

/-- The packets that were serialized, with the one of a feedback. -/
def sentAfter (ticks : ℤ → BitVec 16) (senderSsrc : BitVec 32) (g : FeedbackSession)
    (feedback : CongestionControlFeedback) : List FeedbackMessage :=
  match create ticks senderSsrc kMaxRtcpPacketSize feedback with
  | .created message => g.sent ++ [message]
  | _ => g.sent

/-- One step, for a receiver with the given SSRC. -/
def step (ticks : ℤ → BitVec 16) (senderSsrc : BitVec 32) (g : FeedbackSession) (action : Action) :
    FeedbackSession :=
  match action with
  | .session now sessionAction =>
      match g.received? action with
      | none => { g with session := g.session.step (now, sessionAction) }
      | some (time, rtpPacket) =>
          { g with
            session := g.session.step (now, sessionAction)
            generator := g.track time rtpPacket
            arrived := rtpPacket.feedbackKey :: g.arrived }
  | .sendFeedback now compactNtp =>
      let feedback := g.generator.sendFeedback now compactNtp
      { g with
        generator := feedback.1
        sent := g.sentAfter ticks senderSsrc feedback.2 }

/-- A packet is reported in a feedback that was serialized. -/
def Reported (g : FeedbackSession) (key : SsrcAndRtpSequencenumber) : Prop :=
  ∃ message ∈ g.sent, key ∈ message.receivedKeys

/-- The feedback is exact: it reports every registered packet that arrived, and nothing else. -/
def Exact (registered : SsrcAndRtpSequencenumber → Prop) (g : FeedbackSession) : Prop :=
  (∀ key ∈ g.arrived, registered key → g.Reported key) ∧ ∀ key, g.Reported key → key ∈ g.arrived

/-- What a step must respect. A registered packet that arrives is an original packet with media of a
frame that is not over, or with padding; and the reports of a feedback have room. -/
def Fits (registered : SsrcAndRtpSequencenumber → Prop) (g : FeedbackSession) (action : Action) :
    Prop :=
  match action with
  | .session _ _ => ∀ time rtpPacket, g.received? action = some (time, rtpPacket) →
      registered rtpPacket.feedbackKey →
        rtpPacket.payloadType ≠ payloadTypeRtx ∧
          (rtpPacket.payloadType = g.session.receiver.mediaPayloadType ∧
              g.session.receiver.isFrameTimestampObsolete rtpPacket.timestamp = false ∨
            rtpPacket.payloadType = g.session.receiver.mediaPayloadType - 1)
  | .sendFeedback _ _ => g.generator.reportSize ≤ kMaxRtcpPacketSize

/-- The invariant: what is tracked has arrived, and a registered packet waits or was reported. -/
structure Kept (registered : SsrcAndRtpSequencenumber → Prop) (g : FeedbackSession) : Prop where
  tracked : g.generator.Tracked fun key => key ∈ g.arrived
  complete : ∀ key ∈ g.arrived, registered key → g.generator.Waits key ∨ g.Reported key
  sound : ∀ key, g.Reported key → key ∈ g.arrived

variable {registered : SsrcAndRtpSequencenumber → Prop} {g : FeedbackSession}

/-- A packet that arrived was built from its datagram. -/
theorem built_of_arrived {datagram : List Byte} {rtpPacket : RtpPacket}
    (h : arrivedPacket? datagram = some rtpPacket) : Built rtpPacket := by
  unfold arrivedPacket? at h
  split_ifs at h
  exact built_of_buffer h

/-- A packet that a step takes from the network was built from a datagram. -/
theorem built_of_received {action : Action} {time : ℤ} {rtpPacket : RtpPacket}
    (h : g.received? action = some (time, rtpPacket)) : Built rtpPacket := by
  unfold received? at h
  split at h
  · split_ifs at h
    obtain ⟨packet, hpacket, heq⟩ := Option.map_eq_some_iff.mp h
    obtain ⟨-, rfl⟩ := Prod.mk.inj heq
    exact built_of_arrived hpacket
  · cases h

/-- The packet that is passed on is the one that arrived, and was not recovered. -/
theorem feedback_packet_self {s : RtpVideoReceiver} {rtpPacket packet : RtpPacket}
    (h : s.feedbackPacket? rtpPacket = some packet) : packet = rtpPacket := by
  unfold feedbackPacket? at h
  split at h
  · cases h
  · rename_i mediaPacket isRecovered hmedia
    have horiginal : isRecovered = false → mediaPacket = rtpPacket := by
      rintro rfl
      unfold mediaPacketOf at hmedia
      split_ifs at hmedia
      · obtain ⟨restored, -, heq⟩ := Option.map_eq_some_iff.mp hmedia
        cases (Prod.mk.inj heq).2
      · exact (Prod.mk.inj (Option.some.inj hmedia)).1.symm
    simp only at h
    split_ifs at h with _ _ hauxiliary _ hrecovered
    · rw [← Option.some.inj h]
      exact horiginal (by simpa using hauxiliary.1)
    · rw [← Option.some.inj h]
      exact horiginal (by simpa using hrecovered)

/-- An original packet with media of a frame that is not over, or with padding, is passed on. -/
theorem feedback_packet_eq {s : RtpVideoReceiver} {rtpPacket : RtpPacket} (hbuilt : Built rtpPacket)
    (hrtx : rtpPacket.payloadType ≠ payloadTypeRtx)
    (hkind : rtpPacket.payloadType = s.mediaPayloadType ∧
        s.isFrameTimestampObsolete rtpPacket.timestamp = false ∨
      rtpPacket.payloadType = s.mediaPayloadType - 1) :
    s.feedbackPacket? rtpPacket = some rtpPacket := by
  have hmedia : s.mediaPacketOf rtpPacket = some (rtpPacket, false) := by
    unfold mediaPacketOf
    exact if_neg hrtx
  have hbuffer : RtpPacket.ofBuffer rtpPacket.buffer = some rtpPacket := hbuilt
  unfold feedbackPacket?
  rw [hmedia]
  simp only [hbuffer]
  rcases hkind with ⟨htype, hfresh⟩ | htype
  · simp [htype, hfresh]
  · simp [htype]

/-- The generator after a packet tracks what has arrived. -/
theorem tracked_track (h : g.generator.Tracked fun key => key ∈ g.arrived) (now : ℤ)
    (rtpPacket : RtpPacket) :
    (g.track now rtpPacket).Tracked fun key => key ∈ rtpPacket.feedbackKey :: g.arrived := by
  have hmono := h.mono fun _ hin => List.mem_cons_of_mem rtpPacket.feedbackKey hin
  unfold track
  cases hfeedback : g.session.receiver.feedbackPacket? rtpPacket with
  | none => exact hmono
  | some packet =>
      obtain rfl := feedback_packet_self hfeedback
      exact tracked_received hmono now .ect0 List.mem_cons_self

/-- What waits keeps waiting when a packet arrives. -/
theorem waits_track (h : g.generator.Tracked fun key => key ∈ g.arrived) (now : ℤ)
    (rtpPacket : RtpPacket) {key : SsrcAndRtpSequencenumber} (hwaits : g.generator.Waits key) :
    (g.track now rtpPacket).Waits key := by
  unfold track
  split
  · exact hwaits
  · exact waits_received h _ _ _ _ (Or.inl hwaits)

/-- A step of the session keeps the invariant. -/
theorem kept_received (h : g.Kept registered) {action : Action} {now : ℤ} {rtpPacket : RtpPacket}
    (hreceived : g.received? action = some (now, rtpPacket)) (session : VideoSession)
    (hfits : registered rtpPacket.feedbackKey →
      rtpPacket.payloadType ≠ payloadTypeRtx ∧
        (rtpPacket.payloadType = g.session.receiver.mediaPayloadType ∧
            g.session.receiver.isFrameTimestampObsolete rtpPacket.timestamp = false ∨
          rtpPacket.payloadType = g.session.receiver.mediaPayloadType - 1)) :
    Kept registered { g with
      session
      generator := g.track now rtpPacket
      arrived := rtpPacket.feedbackKey :: g.arrived } := by
  refine ⟨tracked_track h.tracked now rtpPacket, fun key hin hregistered => ?_, fun key hreported =>
    List.mem_cons_of_mem _ (h.sound key hreported)⟩
  rcases List.mem_cons.mp hin with rfl | hold
  · obtain ⟨hrtx, hkind⟩ := hfits hregistered
    left
    show (g.track now rtpPacket).Waits _
    unfold track
    rw [feedback_packet_eq (built_of_received hreceived) hrtx hkind]
    exact waits_received h.tracked _ _ _ _ (Or.inr rfl)
  · exact (h.complete key hold hregistered).imp (waits_track h.tracked now rtpPacket) id

/-- A feedback that has room reports what waits. -/
theorem kept_feedback (h : g.Kept registered) (ticks : ℤ → BitVec 16) (senderSsrc : BitVec 32)
    (now : ℤ) (compactNtp : BitVec 32) (hroom : g.generator.reportSize ≤ kMaxRtcpPacketSize) :
    Kept registered (g.step ticks senderSsrc (.sendFeedback now compactNtp)) ∧
      Exact registered (g.step ticks senderSsrc (.sendFeedback now compactNtp)) := by
  obtain ⟨message, hcreated, hsound, hcomplete⟩ :=
    send_feedback_created h.tracked ticks senderSsrc now compactNtp hroom
  have hsent : (g.step ticks senderSsrc (.sendFeedback now compactNtp)).sent =
      g.sent ++ [message] := by
    show sentAfter ticks senderSsrc g (g.generator.sendFeedback now compactNtp).2 = _
    unfold sentAfter
    rw [hcreated]
  have hreported : ∀ key, (g.step ticks senderSsrc (.sendFeedback now compactNtp)).Reported key ↔
      g.Reported key ∨ key ∈ message.receivedKeys := by
    intro key
    unfold Reported
    rw [hsent]
    simp only [List.mem_append, List.mem_singleton, or_and_right, exists_or, exists_eq_left]
  have hall : ∀ key ∈ g.arrived, registered key →
      (g.step ticks senderSsrc (.sendFeedback now compactNtp)).Reported key := by
    intro key hin hregistered
    rw [hreported]
    exact (h.complete key hin hregistered).symm.imp id (hcomplete key)
  have honly : ∀ key, (g.step ticks senderSsrc (.sendFeedback now compactNtp)).Reported key →
      key ∈ g.arrived := by
    intro key hkey
    exact ((hreported key).mp hkey).elim (h.sound key) (hsound key)
  exact ⟨⟨(tracked_sent h.tracked now compactNtp).1, fun key hin hregistered =>
    Or.inr (hall key hin hregistered), honly⟩, hall, honly⟩

/-- Every step that fits keeps the invariant. -/
theorem kept_step (h : g.Kept registered) (ticks : ℤ → BitVec 16) (senderSsrc : BitVec 32)
    {action : Action} (hfits : g.Fits registered action) :
    (g.step ticks senderSsrc action).Kept registered := by
  cases action with
  | session now sessionAction =>
      unfold step
      simp only
      cases hreceived : g.received? (.session now sessionAction) with
      | none => exact ⟨h.tracked, h.complete, h.sound⟩
      | some arrival =>
          exact kept_received h hreceived _ (hfits arrival.1 arrival.2 hreceived)
  | sendFeedback now compactNtp => exact (kept_feedback h ticks senderSsrc now compactNtp hfits).1

/-- A session with a new receiver. -/
def start (remoteSsrc rtxSsrc : BitVec 32) (mediaPayloadType : Byte) : FeedbackSession :=
  { session := VideoSession.start remoteSsrc rtxSsrc mediaPayloadType }

theorem kept_start (remoteSsrc rtxSsrc : BitVec 32) (mediaPayloadType : Byte) :
    Kept registered (start remoteSsrc rtxSsrc mediaPayloadType) where
  tracked := tracked_new
  complete := fun _ hin => by cases hin
  sound := fun _ hreported => by
    obtain ⟨_, hin, -⟩ := hreported
    cases hin

/-- A feedback that has no room loses what waits. -/
theorem lost_of_full (h : g.Kept registered) (ticks : ℤ → BitVec 16) (senderSsrc : BitVec 32)
    (now : ℤ) (compactNtp : BitVec 32) (hfull : kMaxRtcpPacketSize < g.generator.reportSize) :
    (g.step ticks senderSsrc (.sendFeedback now compactNtp)).sent = g.sent ∧
      ∀ key, ¬ (g.step ticks senderSsrc (.sendFeedback now compactNtp)).generator.Waits key := by
  have hnone := send_feedback_full h.tracked ticks senderSsrc now compactNtp hfull
  refine ⟨?_, (tracked_sent h.tracked now compactNtp).2⟩
  show sentAfter ticks senderSsrc g (g.generator.sendFeedback now compactNtp).2 = g.sent
  unfold sentAfter
  split
  · rename_i message hcreated
    exact absurd hcreated (hnone message)
  · rfl

/-- A media packet with the given number. -/
def mediaPacket (now : ℤ) (sequenceNumber : BitVec 16) : Action :=
  .session now (.onReceiveRtpPacket
    (VideoSession.h264Datagram sequenceNumber (BitVec.ofInt 32 now) [0x61, 1]) true)

end FeedbackSession

end MiniRtc
