import MiniRtc.Video.ReceiverOutcomes

/-!
# The pending frames of a receiver

Packets change the pending frames only by writing the entry of their own timestamp, either with
one more packet or as a complete frame (`Written`). `receive_pending` turns this into a rule: a
property of the pending frames that survives such a write survives every packet.
-/

namespace MiniRtc

namespace FrameAssembly

/-- What a packet can write under a timestamp. -/
inductive Written (s : FrameAssembly) (timestamp : BitVec 32) : PendingFrame → Prop where
  | tracked (now : ℤ) (sequenceNumber : BitVec 16) :
      Written s timestamp (trackedFrame now sequenceNumber ((s.pendingFrame? timestamp).getD {}))
  | committed (frame : ReceivedFrame) (arrivalTime : ℤ) (isKeyframe : Bool)
      (endSequenceNumber : BitVec 16) :
      Written s timestamp
        { frame := some frame
          isComplete := true
          arrivalTime
          isKeyframe
          lastSequenceNumber := some endSequenceNumber }

section

variable {I : List (BitVec 32 × PendingFrame) → Prop} {s : FrameAssembly} {now : ℤ}

theorem commit_pending {timestamp : BitVec 32}
    (hwrite : ∀ (s : FrameAssembly) pendingFrame, Written s timestamp pendingFrame →
      I s.pendingFrames → I (s.setPendingFrame timestamp pendingFrame).pendingFrames)
    (h : I s.pendingFrames) (frame : ReceivedFrame) (isKeyframe : Bool)
    (endSequenceNumber : BitVec 16) (require : Bool) :
    I (s.commitPendingFrame now timestamp frame isKeyframe endSequenceNumber
      require).pendingFrames := by
  rcases commit_pending_frame_eq s now timestamp frame isKeyframe endSequenceNumber require with
    ⟨-, -, hsame⟩ | ⟨arrivalTime, hset⟩
  · rw [hsame]
    exact h
  · rw [hset]
    exact hwrite s _ (.committed frame arrivalTime isKeyframe endSequenceNumber) h

/-- A property of the pending frames that survives the writes of a packet survives the packet. -/
theorem process_h264_pending {p : RtpPacketH264}
    (hwrite : ∀ (s : FrameAssembly) pendingFrame, Written s p.timestamp pendingFrame →
      I s.pendingFrames → I (s.setPendingFrame p.timestamp pendingFrame).pendingFrames)
    (h : I s.pendingFrames) : I (s.processH264RtpPacket now p).pendingFrames := by
  unfold processH264RtpPacket
  split_ifs
  · refine commit_pending hwrite ?_ _ _ _ _
    exact h
  · simp only [checkIsH264FrameCompleted]
    have htracked := hwrite
      { s with
        incompleteH264FrameList :=
          Function.update s.incompleteH264FrameList p.sequenceNumber (some p) } _
      (.tracked now p.sequenceNumber) h
    split
    · exact htracked
    · refine commit_pending hwrite ?_ _ _ _ _
      exact htracked
  · exact h

theorem process_av1_pending {p : RtpPacketAv1}
    (hwrite : ∀ (s : FrameAssembly) pendingFrame, Written s p.timestamp pendingFrame →
      I s.pendingFrames → I (s.setPendingFrame p.timestamp pendingFrame).pendingFrames)
    (h : I s.pendingFrames) : I (s.processAv1RtpPacket now p).pendingFrames := by
  simp only [processAv1RtpPacket, checkIsAv1FrameCompleted]
  have htracked := hwrite
    { s with
      incompleteAv1FrameList :=
        Function.update s.incompleteAv1FrameList p.sequenceNumber (some p) } _
    (.tracked now p.sequenceNumber) h
  split
  · exact htracked
  · refine commit_pending hwrite ?_ _ _ _ _
    exact htracked

end

/-- Every complete frame has its bytes and its last sequence number. -/
def Filled (pendingFrames : List (BitVec 32 × PendingFrame)) : Prop :=
  ∀ entry ∈ pendingFrames, entry.2.isComplete = true →
    entry.2.frame.isSome = true ∧ entry.2.lastSequenceNumber.isSome = true

theorem Filled.write {s : FrameAssembly} {timestamp : BitVec 32} {pendingFrame : PendingFrame}
    (hwritten : Written s timestamp pendingFrame) (h : Filled s.pendingFrames) :
    Filled (s.setPendingFrame timestamp pendingFrame).pendingFrames := by
  intro entry hentry hcomplete
  rcases mem_of_mem_set hentry with rfl | hold
  · cases hwritten with
    | committed frame arrivalTime isKeyframe endSequenceNumber => exact ⟨rfl, rfl⟩
    | tracked now sequenceNumber =>
        obtain ⟨arrivalTime, last, htracked⟩ :=
          tracked_frame_eq now sequenceNumber ((s.pendingFrame? timestamp).getD {})
        simp only [htracked] at hcomplete ⊢
        cases hfind : s.pendingFrame? timestamp with
        | none => simp [hfind] at hcomplete
        | some found =>
            simp only [hfind, Option.getD_some] at hcomplete ⊢
            exact ⟨(h _ (mem_of_pending_frame hfind) hcomplete).1, rfl⟩
  · exact h entry hold hcomplete

end FrameAssembly

namespace RtpVideoReceiver

open FrameAssembly

section Packet

variable {I : List (BitVec 32 × PendingFrame) → Prop} {s : RtpVideoReceiver} {now : ℤ}
  {firSent : Bool}

/-- The NACK part of a packet leaves the pending frames alone. -/
theorem track_sequence_number_eq (s : RtpVideoReceiver) (now : ℤ) (firSent : Bool)
    (sequenceNumber : BitVec 16) (isRecovered : Bool) :
    ∃ awaiting requestPending startedMs nextMs fir,
      (s.trackSequenceNumber now firSent sequenceNumber isRecovered).1 =
        { s with
          nack :=
            if s.rtxEnabled then
              (s.nack.onReceivedPacket now sequenceNumber
                isRecovered).1.consumeKeyFrameRequest.1
            else s.nack
          awaitingKeyframe := awaiting
          keyframeRequestPending := requestPending
          keyframeRequestStartedMs := startedMs
          nextKeyframeRequestMs := nextMs
          sequenceNumberFir := fir } ∧
      awaiting = (s.awaitingKeyframe || (s.rtxEnabled &&
        (s.nack.onReceivedPacket now sequenceNumber isRecovered).1.keyframeRequestPending)) := by
  unfold trackSequenceNumber
  cases hrtx : s.rtxEnabled with
  | false => exact ⟨_, _, _, _, _, rfl, by simp⟩
  | true =>
      simp only [Bool.not_true, Bool.false_eq_true, if_false, if_true, Bool.true_and]
      cases hpending :
          (s.nack.onReceivedPacket now sequenceNumber isRecovered).1.keyframeRequestPending with
      | false =>
          simp only [NackRequester.consumeKeyFrameRequest, hpending, Bool.false_eq_true, if_false]
          exact ⟨_, _, _, _, _, rfl, by simp⟩
      | true =>
          simp only [NackRequester.consumeKeyFrameRequest, hpending, if_true]
          obtain ⟨requestPending, startedMs, nextMs, fir, hrequest⟩ := request_key_frame_eq
            { s with
              nack :=
                { (s.nack.onReceivedPacket now sequenceNumber isRecovered).1 with
                  keyframeRequestPending := false } } now firSent
          exact ⟨_, _, _, _, _, hrequest, by simp⟩

/-- A packet changes the frames that are put together, the NACK requester and the key frame
requests, and nothing else. -/
theorem receive_eq (s : RtpVideoReceiver) (now : ℤ) (firSent : Bool) (datagram : List Byte) :
    ∃ assembly nack awaiting requestPending startedMs nextMs fir,
      (s.onReceiveRtpPacket now firSent datagram).1 =
        { s with
          toFrameAssembly := assembly
          nack := nack
          awaitingKeyframe := awaiting
          keyframeRequestPending := requestPending
          keyframeRequestStartedMs := startedMs
          nextKeyframeRequestMs := nextMs
          sequenceNumberFir := fir } := by
  rcases s.on_receive_rtp_packet_cases now firSent datagram with
    hnone | ⟨rtpPacket, -, hbuilt, hinsert⟩
  · rw [hnone]
    exact ⟨_, _, _, _, _, _, _, rfl⟩
  · rw [hinsert]
    have hcases := s.insert_rtp_packet_insertion now firSent rtpPacket
    generalize s.insertRtpPacket now firSent rtpPacket = result at hcases ⊢
    cases hcases with
    | dropped | obsolete | late | ignored => exact ⟨_, _, _, _, _, _, _, rfl⟩
    | padding mediaPacket hmedia hpadding =>
        obtain ⟨_, _, _, _, _, heq, -⟩ :=
          s.track_sequence_number_eq now firSent mediaPacket.sequenceNumber false
        exact ⟨_, _, _, _, _, _, _, heq⟩
    | media mediaPacket isRecovered hmedia htype hfresh =>
        obtain ⟨_, _, _, _, _, heq, -⟩ :=
          s.track_sequence_number_eq now firSent mediaPacket.sequenceNumber isRecovered
        have hread := depacketize_cases
          (s.trackSequenceNumber now firSent mediaPacket.sequenceNumber isRecovered).1 now firSent
          (media_packet_built hbuilt hmedia)
        generalize hresult : (s.trackSequenceNumber now firSent mediaPacket.sequenceNumber
          isRecovered).1.depacketize now firSent mediaPacket = r at hread ⊢
        rw [heq] at hread
        cases hread with
        | unread =>
            obtain ⟨_, _, _, _, hrequest⟩ := request_key_frame_eq _ now firSent
            exact ⟨_, _, _, _, _, _, _, hrequest⟩
        | av1 | h264 | other => exact ⟨_, _, _, _, _, _, _, rfl⟩

/-- Reading the payload of a packet keeps what its writes keep. -/
theorem depacketize_pending {mediaPacket : RtpPacket} (hbuilt : Built mediaPacket)
    (hwrite : ∀ (s : FrameAssembly) pendingFrame, Written s mediaPacket.timestamp pendingFrame →
      I s.pendingFrames →
        I (s.setPendingFrame mediaPacket.timestamp pendingFrame).pendingFrames)
    (h : I s.pendingFrames) : I (s.depacketize now firSent mediaPacket).pendingFrames := by
  generalize hs' : s.depacketize now firSent mediaPacket = s'
  have hcases := s.depacketize_cases now firSent hbuilt
  rw [hs'] at hcases
  cases hcases with
  | unread =>
      obtain ⟨requestPending, startedMs, nextMs, fir, hrequest⟩ :=
        s.request_key_frame_eq now firSent
      rw [hrequest]
      exact h
  | av1 p htime hseq =>
      rw [← htime] at hwrite
      exact process_av1_pending hwrite h
  | h264 p htime hseq =>
      rw [← htime] at hwrite
      exact process_h264_pending hwrite h
  | other => exact h

/-- A property of the pending frames that survives the writes of fresh packets survives every
packet. -/
theorem receive_pending {datagram : List Byte}
    (hwrite : ∀ timestamp, s.isFrameTimestampObsolete timestamp = false →
      ∀ (s : FrameAssembly) pendingFrame, Written s timestamp pendingFrame →
        I s.pendingFrames → I (s.setPendingFrame timestamp pendingFrame).pendingFrames)
    (h : I s.pendingFrames) :
    I (s.onReceiveRtpPacket now firSent datagram).1.pendingFrames := by
  rcases s.on_receive_rtp_packet_cases now firSent datagram with
    hnone | ⟨rtpPacket, -, hbuilt, hinsert⟩
  · rw [hnone]
    exact h
  · rw [hinsert]
    have htracked : ∀ sequenceNumber isRecovered,
        I (s.trackSequenceNumber now firSent sequenceNumber isRecovered).1.pendingFrames := by
      intro sequenceNumber isRecovered
      obtain ⟨_, _, _, _, _, heq, -⟩ :=
        s.track_sequence_number_eq now firSent sequenceNumber isRecovered
      rw [heq]
      exact h
    generalize hresult : s.insertRtpPacket now firSent rtpPacket = result
    have hcases := s.insert_rtp_packet_insertion now firSent rtpPacket
    rw [hresult] at hcases
    cases hcases with
    | dropped | obsolete | late | ignored => exact h
    | padding mediaPacket hmedia hpadding => exact htracked mediaPacket.sequenceNumber false
    | media mediaPacket isRecovered hmedia htype hfresh =>
        exact depacketize_pending (media_packet_built hbuilt hmedia)
          (hwrite mediaPacket.timestamp hfresh) (htracked mediaPacket.sequenceNumber isRecovered)

end Packet

/-- A round removes the first pending frame or changes what was done for its recovery. -/
theorem round_pending {s : RtpVideoReceiver} {timing : FrameRecoveryTiming} {now : ℤ}
    {iteration : Iteration} (h : Round s timing now iteration) :
    iteration.receiver.pendingFrames = s.pendingFrames ∨
      ∃ timestamp frame newer, s.pendingFrames = (timestamp, frame) :: newer ∧
        (iteration.receiver.pendingFrames = newer ∨
          ∃ escalated requested, iteration.receiver.pendingFrames =
            (timestamp,
              { frame with
                recoveryEscalated := escalated
                softFirRequested := requested }) :: newer) := by
  cases h with
  | idle => exact Or.inl rfl
  | drop timestamp frame newer hpending =>
      exact Or.inr ⟨timestamp, frame, newer, hpending, Or.inl rfl⟩
  | skip timestamp frame newer hpending =>
      exact Or.inr ⟨timestamp, frame, newer, hpending, Or.inl rfl⟩
  | keyframe timestamp frame newer _ _ hpending =>
      exact Or.inr ⟨timestamp, frame, newer, hpending, Or.inl rfl⟩
  | deliver timestamp frame newer _ _ hpending =>
      exact Or.inr ⟨timestamp, frame, newer, hpending, Or.inl rfl⟩
  | timeout timestamp frame newer _ _ _ _ hpending =>
      exact Or.inr ⟨timestamp, frame, newer, hpending, Or.inl rfl⟩
  | escalate timestamp frame newer escalated requested _ _ _ _ hpending =>
      exact Or.inr ⟨timestamp, frame, newer, hpending, Or.inr ⟨escalated, requested, rfl⟩⟩

/-- A round keeps complete frames filled. -/
theorem round_filled {s : RtpVideoReceiver} {timing : FrameRecoveryTiming} {now : ℤ}
    {iteration : Iteration} (hround : Round s timing now iteration)
    (h : Filled s.pendingFrames) : Filled iteration.receiver.pendingFrames := by
  rcases round_pending hround with
    hsame | ⟨timestamp, frame, newer, hpending, htail | ⟨escalated, requested, hhead⟩⟩
  · rw [hsame]
    exact h
  · rw [htail]
    exact fun entry hentry => h entry (hpending ▸ List.mem_cons_of_mem _ hentry)
  · rw [hhead]
    intro entry hentry hcomplete
    rcases List.mem_cons.mp hentry with rfl | hnewer
    · exact h (timestamp, frame) (hpending ▸ List.mem_cons_self) hcomplete
    · exact h entry (hpending ▸ List.mem_cons_of_mem _ hnewer) hcomplete

/-- A complete frame at the front can be handed over. -/
theorem delivery_of_filled {s : RtpVideoReceiver} {timestamp : BitVec 32} {frame : PendingFrame}
    {newer : List (BitVec 32 × PendingFrame)} (h : Filled s.pendingFrames)
    (hpending : s.pendingFrames = (timestamp, frame) :: newer)
    (hcomplete : frame.isComplete = true) :
    ∃ received, deliveryOf timestamp frame =
      some ⟨timestamp, received, frame.isKeyframe, frame.lastSequenceNumber⟩ := by
  have hsome : frame.frame.isSome = true :=
    (h (timestamp, frame) (hpending ▸ List.mem_cons_self) hcomplete).1
  obtain ⟨received, hreceived⟩ := Option.isSome_iff_exists.mp hsome
  exact ⟨received, by simp [deliveryOf, hreceived]⟩

theorem last_of_filled {s : RtpVideoReceiver} {timestamp : BitVec 32} {frame : PendingFrame}
    {newer : List (BitVec 32 × PendingFrame)} (h : Filled s.pendingFrames)
    (hpending : s.pendingFrames = (timestamp, frame) :: newer)
    (hcomplete : frame.isComplete = true) : ∃ last, frame.lastSequenceNumber = some last :=
  Option.isSome_iff_exists.mp
    (h (timestamp, frame) (hpending ▸ List.mem_cons_self) hcomplete).2

end RtpVideoReceiver

end MiniRtc
