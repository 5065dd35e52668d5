import MiniRtc.Video.Receiver

/-!
# What the functions of the receiver can do

Each of the larger functions of the receiver has a small number of outcomes. They are listed here
once, with what decides for them: `Insertion` for a packet, `Depacketized` for its payload and
`Round` for a round of the loop in `Process`. Later results are case analyses on these lists and
do not unfold the functions.
-/

namespace MiniRtc

namespace RtpVideoReceiver

/-- A key frame request can set the flag, and keeps account of the requests. -/
theorem send_key_frame_request_eq (s : RtpVideoReceiver) (now : ℤ)
    (firSent enterAwaitingState : Bool) :
    ∃ requestPending startedMs nextMs fir,
      (s.sendKeyFrameRequest now firSent enterAwaitingState).1 =
        { s with
          awaitingKeyframe := s.awaitingKeyframe || enterAwaitingState
          keyframeRequestPending := requestPending
          keyframeRequestStartedMs := startedMs
          nextKeyframeRequestMs := nextMs
          sequenceNumberFir := fir } := by
  cases enterAwaitingState with
  | false =>
      simp only [sendKeyFrameRequest, Bool.or_false, Bool.false_eq_true, if_false]
      split_ifs <;> exact ⟨_, _, _, _, rfl⟩
  | true =>
      simp only [sendKeyFrameRequest, Bool.or_true, if_true]
      split_ifs <;> exact ⟨_, _, _, _, rfl⟩

theorem request_key_frame_eq (s : RtpVideoReceiver) (now : ℤ) (firSent : Bool) :
    ∃ requestPending startedMs nextMs fir, s.requestKeyFrame now firSent =
      { s with
        awaitingKeyframe := true
        keyframeRequestPending := requestPending
        keyframeRequestStartedMs := startedMs
        nextKeyframeRequestMs := nextMs
        sequenceNumberFir := fir } := by
  simpa [requestKeyFrame] using s.send_key_frame_request_eq now firSent true

theorem retry_key_frame_request_eq (s : RtpVideoReceiver) (now : ℤ) (firSent : Bool) :
    ∃ requestPending startedMs nextMs fir, s.retryKeyFrameRequest now firSent =
      { s with
        keyframeRequestPending := requestPending
        keyframeRequestStartedMs := startedMs
        nextKeyframeRequestMs := nextMs
        sequenceNumberFir := fir } := by
  unfold retryKeyFrameRequest
  split_ifs
  · simpa using s.send_key_frame_request_eq now firSent false
  · exact ⟨_, _, _, _, rfl⟩

theorem maybe_retry_key_frame_request_eq (s : RtpVideoReceiver) (now : ℤ) (firSent : Bool) :
    ∃ requestPending startedMs nextMs fir, s.maybeRetryKeyFrameRequest now firSent =
      { s with
        keyframeRequestPending := requestPending
        keyframeRequestStartedMs := startedMs
        nextKeyframeRequestMs := nextMs
        sequenceNumberFir := fir } := by
  unfold maybeRetryKeyFrameRequest
  split_ifs
  · exact ⟨_, _, _, _, rfl⟩
  · exact ⟨_, _, _, _, rfl⟩
  · exact s.retry_key_frame_request_eq now firSent

/-- The outcomes of `insertRtpPacket`, one constructor per way through the function. -/
inductive Insertion (s : RtpVideoReceiver) (now : ℤ) (firSent : Bool) (rtpPacket : RtpPacket) :
    RtpVideoReceiver × List (BitVec 16) → Prop where
  | dropped (h : s.mediaPacketOf rtpPacket = none) : Insertion s now firSent rtpPacket (s, [])
  | obsolete (mediaPacket) (h : s.mediaPacketOf rtpPacket = some (mediaPacket, false))
      (hmedia : mediaPacket.payloadType = s.mediaPayloadType)
      (hobsolete : s.isFrameTimestampObsolete mediaPacket.timestamp = true) :
      Insertion s now firSent rtpPacket (s, [])
  | late (mediaPacket) (h : s.mediaPacketOf rtpPacket = some (mediaPacket, true))
      (hmedia : mediaPacket.payloadType = s.mediaPayloadType)
      (hobsolete : s.isFrameTimestampObsolete mediaPacket.timestamp = true) :
      Insertion s now firSent rtpPacket
        ({ s with nack := (s.nack.onReceivedPacket now mediaPacket.sequenceNumber true).1 }, [])
  | ignored (mediaPacket isRecovered)
      (h : s.mediaPacketOf rtpPacket = some (mediaPacket, isRecovered))
      (hother : (mediaPacket.payloadType ≠ s.mediaPayloadType ∧
          ¬ (isRecovered = false ∧ mediaPacket.payloadType = s.mediaPayloadType - 1 ∧
            mediaPacket.ssrc = s.remoteSsrc)) ∨
        RtpPacket.ofBuffer mediaPacket.buffer = none) :
      Insertion s now firSent rtpPacket (s, [])
  | padding (mediaPacket) (h : s.mediaPacketOf rtpPacket = some (mediaPacket, false))
      (hpadding : mediaPacket.payloadType = s.mediaPayloadType - 1)
      (hssrc : mediaPacket.ssrc = s.remoteSsrc) :
      Insertion s now firSent rtpPacket
        (s.trackSequenceNumber now firSent mediaPacket.sequenceNumber false)
  | media (mediaPacket isRecovered)
      (h : s.mediaPacketOf rtpPacket = some (mediaPacket, isRecovered))
      (hmedia : mediaPacket.payloadType = s.mediaPayloadType)
      (hfresh : s.isFrameTimestampObsolete mediaPacket.timestamp = false) :
      Insertion s now firSent rtpPacket
        ((s.trackSequenceNumber now firSent mediaPacket.sequenceNumber
            isRecovered).1.depacketize now firSent mediaPacket,
          (s.trackSequenceNumber now firSent mediaPacket.sequenceNumber isRecovered).2)

/-- A payload type is not the padding type one below it. -/
theorem ne_sub_one (payloadType : Byte) : payloadType ≠ payloadType - 1 := by
  revert payloadType
  decide

/-- Every insertion has one of these outcomes. -/
theorem insert_rtp_packet_insertion (s : RtpVideoReceiver) (now : ℤ) (firSent : Bool)
    (rtpPacket : RtpPacket) :
    Insertion s now firSent rtpPacket (s.insertRtpPacket now firSent rtpPacket) := by
  unfold insertRtpPacket
  split
  · rename_i hnone
    exact .dropped hnone
  · rename_i mediaPacket isRecovered hsome
    simp only
    split_ifs with hobsolete hrecovered hbuffer hauxiliary hother hpadding
    · subst hrecovered
      exact .late mediaPacket hsome hobsolete.1 hobsolete.2
    · obtain rfl : isRecovered = false := by simpa using hrecovered
      exact .obsolete mediaPacket hsome hobsolete.1 hobsolete.2
    · exact .ignored mediaPacket isRecovered hsome (Or.inr hbuffer)
    · refine .ignored mediaPacket isRecovered hsome (Or.inl ⟨?_, ?_⟩)
      · rw [hauxiliary.2.2]
        exact (ne_sub_one s.mediaPayloadType).symm
      · exact fun hpadding => hauxiliary.2.1 hpadding.2.2
    · refine .ignored mediaPacket isRecovered hsome (Or.inl ⟨hother.1, ?_⟩)
      exact fun hpadding => hother.2 ⟨by simp [hpadding.1], hpadding.2.1⟩
    · obtain rfl : isRecovered = false := by simpa using hpadding.1
      refine .padding mediaPacket hsome hpadding.2 ?_
      by_contra hssrc
      exact hauxiliary ⟨by simp, hssrc, hpadding.2⟩
    · have hmedia : mediaPacket.payloadType = s.mediaPayloadType := by
        by_contra hne
        exact hother ⟨hne, hpadding⟩
      refine .media mediaPacket isRecovered hsome hmedia ?_
      by_contra hfresh
      exact hobsolete ⟨hmedia, by simpa using hfresh⟩

/-- Reading the payload leaves timestamp and sequence number alone. -/
theorem h264_header_info_fields {p : RtpPacket} {q : RtpPacketH264}
    (h : RtpPacketH264.getFrameHeaderInfo p = some q) :
    q.timestamp = p.timestamp ∧ q.sequenceNumber = p.sequenceNumber := by
  simp only [RtpPacketH264.getFrameHeaderInfo] at h
  split_ifs at h <;> obtain rfl := Option.some.inj h <;> exact ⟨rfl, rfl⟩

theorem av1_header_info_fields {p : RtpPacket} {q : RtpPacketAv1}
    (h : RtpPacketAv1.getFrameHeaderInfo p = some q) :
    q.timestamp = p.timestamp ∧ q.sequenceNumber = p.sequenceNumber := by
  simp only [RtpPacketAv1.getFrameHeaderInfo] at h
  split_ifs at h
  obtain rfl := Option.some.inj h
  exact ⟨rfl, rfl⟩

/-- The outcomes of `depacketize`. -/
inductive Depacketized (s : RtpVideoReceiver) (now : ℤ) (firSent : Bool)
    (mediaPacket : RtpPacket) : RtpVideoReceiver → Prop where
  | unread : Depacketized s now firSent mediaPacket (s.requestKeyFrame now firSent)
  | av1 (p : RtpPacketAv1) (htime : p.timestamp = mediaPacket.timestamp)
      (hseq : p.sequenceNumber = mediaPacket.sequenceNumber) :
      Depacketized s now firSent mediaPacket
        { s with toFrameAssembly := s.processAv1RtpPacket now p }
  | h264 (p : RtpPacketH264) (htime : p.timestamp = mediaPacket.timestamp)
      (hseq : p.sequenceNumber = mediaPacket.sequenceNumber) :
      Depacketized s now firSent mediaPacket
        { s with toFrameAssembly := s.processH264RtpPacket now p }
  | other : Depacketized s now firSent mediaPacket s

/-- A packet that was built from its buffer. -/
def Built (p : RtpPacket) : Prop :=
  RtpPacket.ofBuffer p.buffer = some p

theorem built_of_buffer {buffer : List Byte} {p : RtpPacket}
    (h : RtpPacket.ofBuffer buffer = some p) : Built p := by
  rw [Built, of_buffer_buffer h]
  exact h

/-- The media packet of a packet from the network was built from its buffer. -/
theorem media_packet_built {s : RtpVideoReceiver} {rtpPacket mediaPacket : RtpPacket}
    {isRecovered : Bool} (hbuilt : Built rtpPacket)
    (h : s.mediaPacketOf rtpPacket = some (mediaPacket, isRecovered)) : Built mediaPacket := by
  unfold mediaPacketOf at h
  split_ifs at h
  · obtain ⟨restored, hrestored, heq⟩ := Option.map_eq_some_iff.mp h
    obtain ⟨rfl, -⟩ := Prod.mk.inj heq
    unfold restoreMediaPacketFromRtx at hrestored
    split_ifs at hrestored
    exact built_of_buffer hrestored
  · obtain ⟨rfl, -⟩ := Prod.mk.inj (Option.some.inj h)
    exact hbuilt

theorem depacketize_cases (s : RtpVideoReceiver) (now : ℤ) (firSent : Bool)
    {mediaPacket : RtpPacket} (hbuilt : Built mediaPacket) :
    Depacketized s now firSent mediaPacket (s.depacketize now firSent mediaPacket) := by
  have hbuffer : RtpPacket.ofBuffer mediaPacket.buffer = some mediaPacket := hbuilt
  simp only [depacketize, hbuffer, Option.bind_some]
  split_ifs
  · cases hread : RtpPacketAv1.getFrameHeaderInfo mediaPacket with
    | none => exact .unread
    | some p =>
        obtain ⟨htime, hseq⟩ := av1_header_info_fields hread
        exact .av1 p htime hseq
  · cases hread : RtpPacketH264.getFrameHeaderInfo mediaPacket with
    | none => exact .unread
    | some p =>
        obtain ⟨htime, hseq⟩ := h264_header_info_fields hread
        exact .h264 p htime hseq
  · exact .other

/-- A datagram is dropped, or a packet that was built from it is inserted. -/
theorem on_receive_rtp_packet_cases (s : RtpVideoReceiver) (now : ℤ) (firSent : Bool)
    (datagram : List Byte) :
    s.onReceiveRtpPacket now firSent datagram = (s, []) ∨
      ∃ rtpPacket, RtpPacket.ofBuffer datagram = some rtpPacket ∧ Built rtpPacket ∧
        s.onReceiveRtpPacket now firSent datagram = s.insertRtpPacket now firSent rtpPacket := by
  unfold onReceiveRtpPacket
  split_ifs
  · exact Or.inl rfl
  · cases hbuffer : RtpPacket.ofBuffer datagram with
    | none => exact Or.inl rfl
    | some rtpPacket => exact Or.inr ⟨rtpPacket, rfl, built_of_buffer hbuffer, rfl⟩

/-- The frame is newer than the last one that was handed over. -/
def IsNewer (s : RtpVideoReceiver) (timestamp : BitVec 32) : Prop :=
  ∀ last, s.lastCompleteFrameTs = some last → aheadOf timestamp last = true

/-- The frames that are put together, without the first pending one. -/
def withoutFrame (s : RtpVideoReceiver) (timestamp : BitVec 32)
    (newer : List (BitVec 32 × PendingFrame)) : FrameAssembly :=
  FrameAssembly.dropFrameAssembly { s.toFrameAssembly with pendingFrames := newer } timestamp

/-- What is handed over for a pending frame. -/
def deliveryOf (timestamp : BitVec 32) (frame : PendingFrame) : Option Delivery :=
  frame.frame.map fun received =>
    { timestamp
      frame := received
      isKeyframe := frame.isKeyframe
      lastSequenceNumber := frame.lastSequenceNumber }

/-- The outcomes of a round of the loop in `Process`, with what decides for them. -/
inductive Round (s : RtpVideoReceiver) (timing : FrameRecoveryTiming) (now : ℤ) :
    Iteration → Prop where
  | idle (hbranch : s.processBranch timing now = .empty ∨ s.processBranch timing now = .wait) :
      Round s timing now { receiver := s, continues := false }
  | drop (timestamp frame newer) (hpending : s.pendingFrames = (timestamp, frame) :: newer)
      (hbranch : s.processBranch timing now = .older ∨
        s.processBranch timing now = .dropUntilKeyframe) :
      Round s timing now
        { receiver := { s with toFrameAssembly := s.withoutFrame timestamp newer }
          continues := true }
  | skip (timestamp frame newer) (hpending : s.pendingFrames = (timestamp, frame) :: newer)
      (hbranch : s.processBranch timing now = .skipToKeyframe) :
      Round s timing now
        { receiver :=
            { s with
              toFrameAssembly := s.withoutFrame timestamp newer
              awaitingKeyframe := true }
          continues := true }
  | keyframe (timestamp frame newer requestPending startedMs)
      (hpending : s.pendingFrames = (timestamp, frame) :: newer)
      (hbranch : s.processBranch timing now = .deliverKeyframe)
      (hnewer : s.IsNewer timestamp) (hcomplete : frame.isComplete = true)
      (hawaiting : s.awaitingKeyframe = true) (hkey : frame.isKeyframe = true) :
      Round s timing now
        { receiver :=
            { s with
              pendingFrames := newer
              nack := (s.clearNacksOf frame).nack
              awaitingKeyframe := false
              lastCompleteFrameTs := some timestamp
              keyframeRequestPending := requestPending
              keyframeRequestStartedMs := startedMs }
          delivered := deliveryOf timestamp frame
          continues := true }
  | deliver (timestamp frame newer requestPending startedMs)
      (hpending : s.pendingFrames = (timestamp, frame) :: newer)
      (hbranch : s.processBranch timing now = .deliver) (hnewer : s.IsNewer timestamp)
      (hcomplete : frame.isComplete = true) (hawaiting : s.awaitingKeyframe = false)
      (hclear : s.hasBlockingNacks frame = false) :
      Round s timing now
        { receiver :=
            { s with
              pendingFrames := newer
              lastCompleteFrameTs := some timestamp
              keyframeRequestPending := requestPending
              keyframeRequestStartedMs := startedMs }
          delivered := deliveryOf timestamp frame
          continues := true }
  | timeout (timestamp frame newer requestPending startedMs nextMs fir)
      (hpending : s.pendingFrames = (timestamp, frame) :: newer)
      (hbranch : s.processBranch timing now = .hardTimeout) (hnewer : s.IsNewer timestamp) :
      Round s timing now
        { receiver :=
            { s with
              toFrameAssembly := s.withoutFrame timestamp newer
              nack := (s.clearNacksOf frame).nack
              awaitingKeyframe := true
              lastDiscardedFrameTs := (s.markFrameDiscarded timestamp).lastDiscardedFrameTs
              keyframeRequestPending := requestPending
              keyframeRequestStartedMs := startedMs
              nextKeyframeRequestMs := nextMs
              sequenceNumberFir := fir }
          continues := false }
  | escalate (timestamp frame newer escalated requested requestPending startedMs nextMs fir)
      (hpending : s.pendingFrames = (timestamp, frame) :: newer)
      (hbranch : s.processBranch timing now = .softStall ∨
        s.processBranch timing now = .softFir) :
      Round s timing now
        { receiver :=
            { s with
              pendingFrames :=
                (timestamp,
                  { frame with
                    recoveryEscalated := escalated
                    softFirRequested := requested }) :: newer
              keyframeRequestPending := requestPending
              keyframeRequestStartedMs := startedMs
              nextKeyframeRequestMs := nextMs
              sequenceNumberFir := fir }
          continues := false }

/-- Handing a frame over, apart from the account of the answered request. -/
theorem hand_over_eq (s : RtpVideoReceiver) (timestamp : BitVec 32) (frame : PendingFrame) :
    ∃ requestPending startedMs, s.handOver timestamp frame =
      { receiver :=
          { s with
            lastCompleteFrameTs := some timestamp
            keyframeRequestPending := requestPending
            keyframeRequestStartedMs := startedMs }
        delivered := deliveryOf timestamp frame
        continues := true } := by
  simp only [handOver, onCompleteKeyFrame]
  split_ifs <;> exact ⟨_, _, rfl⟩

/-- Forgetting NACKs commutes with the other changes of a round. -/
theorem clear_nacks_of_eq (s : RtpVideoReceiver) (frame : PendingFrame)
    (newer : List (BitVec 32 × PendingFrame)) (awaiting : Bool) :
    clearNacksOf { s with pendingFrames := newer, awaitingKeyframe := awaiting } frame =
      { s with
        pendingFrames := newer
        awaitingKeyframe := awaiting
        nack := (s.clearNacksOf frame).nack } := by
  unfold clearNacksOf
  cases frame.lastSequenceNumber <;> rfl

/-- The receiver after a hard timeout. -/
theorem timed_out_eq (s : RtpVideoReceiver) (timestamp : BitVec 32) (frame : PendingFrame)
    (newer : List (BitVec 32 × PendingFrame)) :
    ((markFrameDiscarded (clearNacksOf
        { s with pendingFrames := newer, awaitingKeyframe := true } frame) timestamp).dropFrame
          timestamp).receiver =
      { s with
        toFrameAssembly := s.withoutFrame timestamp newer
        nack := (s.clearNacksOf frame).nack
        awaitingKeyframe := true
        lastDiscardedFrameTs := (s.markFrameDiscarded timestamp).lastDiscardedFrameTs } := by
  rw [clear_nacks_of_eq]
  unfold markFrameDiscarded
  split_ifs <;> rfl

/-- What holds when the frame is not older than the last one that was handed over. -/
theorem is_newer_of_not_any {s : RtpVideoReceiver} {timestamp : BitVec 32}
    (h : ¬ (s.lastCompleteFrameTs.any fun last => !aheadOf timestamp last) = true) :
    s.IsNewer timestamp := by
  intro last hlast
  simpa [hlast] using h

/-- Every round has one of these outcomes. -/
theorem process_iterate_round (s : RtpVideoReceiver) (timing : FrameRecoveryTiming) (now : ℤ)
    (firSent : Bool) : Round s timing now (s.processIterate timing now firSent) := by
  unfold processIterate
  cases hpending : s.pendingFrames with
  | nil => exact .idle (Or.inl (by simp [processBranch, hpending]))
  | cons entry newer =>
      obtain ⟨timestamp, frame⟩ := entry
      simp only
      cases hbranch : s.processBranch timing now with
      | empty => exact .idle (Or.inl hbranch)
      | wait => exact .idle (Or.inr hbranch)
      | older => exact .drop timestamp frame newer hpending (Or.inl hbranch)
      | dropUntilKeyframe => exact .drop timestamp frame newer hpending (Or.inr hbranch)
      | skipToKeyframe => exact .skip timestamp frame newer hpending hbranch
      | softStall =>
          exact .escalate timestamp frame newer true frame.softFirRequested _ _ _ _ hpending
            (Or.inl hbranch)
      | softFir =>
          obtain ⟨requestPending, startedMs, nextMs, fir, hretry⟩ := retry_key_frame_request_eq
            { s with
              pendingFrames := (timestamp, { frame with softFirRequested := true }) :: newer }
            now firSent
          simp only [hretry]
          exact .escalate timestamp frame newer frame.recoveryEscalated true _ _ _ _ hpending
            (Or.inr hbranch)
      | deliverKeyframe =>
          have hcond := hbranch
          simp only [processBranch, hpending] at hcond
          split_ifs at hcond with holder hskip hdeliver
          simp only [Bool.and_eq_true] at hdeliver
          simp only [clear_nacks_of_eq]
          obtain ⟨requestPending, startedMs, hhand⟩ := hand_over_eq
            { s with
              pendingFrames := newer
              awaitingKeyframe := false
              nack := (s.clearNacksOf frame).nack } timestamp frame
          rw [hhand]
          exact .keyframe timestamp frame newer requestPending startedMs hpending hbranch
            (is_newer_of_not_any holder) hdeliver.1.1 hdeliver.1.2 hdeliver.2
      | deliver =>
          have hcond := hbranch
          simp only [processBranch, hpending] at hcond
          split_ifs at hcond with holder hskip hkeyframe hawaiting hdeliver
          simp only [Bool.and_eq_true, Bool.not_eq_true'] at hdeliver
          obtain ⟨requestPending, startedMs, hhand⟩ :=
            hand_over_eq { s with pendingFrames := newer } timestamp frame
          rw [hhand]
          refine .deliver timestamp frame newer requestPending startedMs hpending hbranch
            (is_newer_of_not_any holder) hdeliver.1 ?_ hdeliver.2
          simpa [hdeliver.1] using hawaiting
      | hardTimeout =>
          have hcond := hbranch
          simp only [processBranch, hpending] at hcond
          split_ifs at hcond with holder
          simp only [timed_out_eq]
          obtain ⟨requestPending, startedMs, nextMs, fir, hretry⟩ := retry_key_frame_request_eq
            { s with
              toFrameAssembly := s.withoutFrame timestamp newer
              nack := (s.clearNacksOf frame).nack
              awaitingKeyframe := true
              lastDiscardedFrameTs := (s.markFrameDiscarded timestamp).lastDiscardedFrameTs }
            now firSent
          rw [hretry]
          exact .timeout timestamp frame newer requestPending startedMs nextMs fir hpending hbranch
            (is_newer_of_not_any holder)

end RtpVideoReceiver

end MiniRtc
