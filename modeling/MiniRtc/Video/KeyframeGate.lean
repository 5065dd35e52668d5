import MiniRtc.Video.Session

/-!
# The key frame gate

While `awaitingKeyframe` is set, `Process` hands no frame over but a key frame. `Raises` lists what
sets the flag, `gate_step` is the step lemma, and `keyframe_gate` follows the flag through
every run of a session.
-/

namespace MiniRtc

open RtpVideoReceiver FrameAssembly

namespace RtpVideoReceiver

/-- The payload of the packet cannot be read. -/
def Unreadable (mediaPacket : RtpPacket) : Prop :=
  (mediaPacket.payloadType = payloadTypeAv1 ∧
    RtpPacketAv1.getFrameHeaderInfo mediaPacket = none) ∨
  (mediaPacket.payloadType = payloadTypeH264 ∧
    RtpPacketH264.getFrameHeaderInfo mediaPacket = none)

/-- Counting the packet overflows the list of missing packets. -/
def Overflows (s : RtpVideoReceiver) (sequenceNumber : BitVec 16) : Prop :=
  s.rtxEnabled = true ∧ s.nack.initialized = true ∧
    aheadOf sequenceNumber s.nack.newestSeqNum = true ∧ s.nack.overflowsAt sequenceNumber

/-- The packet is a media packet whose payload cannot be read, or a packet of the media stream that
overflows the list of missing packets. -/
def RequestsKeyframe (s : RtpVideoReceiver) (rtpPacket : RtpPacket) : Prop :=
  ∃ mediaPacket isRecovered, s.mediaPacketOf rtpPacket = some (mediaPacket, isRecovered) ∧
    ((mediaPacket.payloadType = s.mediaPayloadType ∧
        s.isFrameTimestampObsolete mediaPacket.timestamp = false ∧
        (Unreadable mediaPacket ∨
          (isRecovered = false ∧ s.Overflows mediaPacket.sequenceNumber))) ∨
      (isRecovered = false ∧ mediaPacket.payloadType = s.mediaPayloadType - 1 ∧
        mediaPacket.ssrc = s.remoteSsrc ∧ s.Overflows mediaPacket.sequenceNumber))

section Receive

variable {s : RtpVideoReceiver} {now : ℤ} {firSent : Bool}

/-- The NACK part of a packet keeps the flag. -/
theorem track_keeps_awaiting {sequenceNumber : BitVec 16} {isRecovered : Bool}
    (h : s.awaitingKeyframe = true) :
    (s.trackSequenceNumber now firSent sequenceNumber isRecovered).1.awaitingKeyframe = true := by
  obtain ⟨awaiting, _, _, _, _, heq, hawaiting⟩ :=
    s.track_sequence_number_eq now firSent sequenceNumber isRecovered
  rw [heq]
  simp [hawaiting, h]

/-- An overflow sets the flag. -/
theorem track_overflow_awaiting {sequenceNumber : BitVec 16} (h : s.Overflows sequenceNumber) :
    (s.trackSequenceNumber now firSent sequenceNumber false).1.awaitingKeyframe = true := by
  obtain ⟨hrtx, hinit, hahead, hfull⟩ := h
  obtain ⟨awaiting, _, _, _, _, heq, hawaiting⟩ :=
    s.track_sequence_number_eq now firSent sequenceNumber false
  have hpending :
      (s.nack.onReceivedPacket now sequenceNumber false).1.keyframeRequestPending = true := by
    have hne : sequenceNumber ≠ s.nack.newestSeqNum := by
      rintro rfl
      simp at hahead
    have hbehind : aheadOf s.nack.newestSeqNum sequenceNumber = false :=
      ahead_of_asymm (by decide) hahead
    simp only [NackRequester.onReceivedPacket, hinit, hne, hbehind, Bool.not_true,
      Bool.false_eq_true, if_false, NackRequester.add_packets_to_nack_eq, hfull, if_true]
    rfl
  rw [heq]
  simp [hawaiting, hrtx, hpending]

/-- Reading the payload keeps the flag. -/
theorem depacketize_keeps_awaiting {mediaPacket : RtpPacket} (hbuilt : Built mediaPacket)
    (h : s.awaitingKeyframe = true) :
    (s.depacketize now firSent mediaPacket).awaitingKeyframe = true := by
  generalize hs' : s.depacketize now firSent mediaPacket = s'
  have hcases := s.depacketize_cases now firSent hbuilt
  rw [hs'] at hcases
  cases hcases with
  | unread =>
      obtain ⟨_, _, _, _, hrequest⟩ := s.request_key_frame_eq now firSent
      rw [hrequest]
  | av1 | h264 | other => exact h

/-- A payload that cannot be read sets the flag. -/
theorem depacketize_unreadable {mediaPacket : RtpPacket} (hbuilt : Built mediaPacket)
    (h : Unreadable mediaPacket) :
    (s.depacketize now firSent mediaPacket).awaitingKeyframe = true := by
  have hbuffer : RtpPacket.ofBuffer mediaPacket.buffer = some mediaPacket := hbuilt
  obtain ⟨_, _, _, _, hrequest⟩ := s.request_key_frame_eq now firSent
  rcases h with ⟨htype, hnone⟩ | ⟨htype, hnone⟩
  · simp only [depacketize, hbuffer, Option.bind_some, htype, if_true, hnone, hrequest]
  · have hne : payloadTypeH264 ≠ payloadTypeAv1 := by decide
    simp only [depacketize, hbuffer, Option.bind_some, htype, hne, if_true, if_false, hnone,
      hrequest]

/-- A packet keeps the flag. -/
theorem receive_keeps_awaiting {datagram : List Byte} (h : s.awaitingKeyframe = true) :
    (s.onReceiveRtpPacket now firSent datagram).1.awaitingKeyframe = true := by
  rcases s.on_receive_rtp_packet_cases now firSent datagram with
    hnone | ⟨rtpPacket, -, hbuilt, hinsert⟩
  · rw [hnone]
    exact h
  · rw [hinsert]
    generalize hresult : s.insertRtpPacket now firSent rtpPacket = result
    have hcases := s.insert_rtp_packet_insertion now firSent rtpPacket
    rw [hresult] at hcases
    cases hcases with
    | dropped | obsolete | late | ignored => exact h
    | padding mediaPacket hmedia hpadding => exact track_keeps_awaiting h
    | media mediaPacket isRecovered hmedia htype hfresh =>
        exact depacketize_keeps_awaiting (media_packet_built hbuilt hmedia)
          (track_keeps_awaiting h)

/-- A packet that cannot be read or overflows the list of missing packets sets the flag. -/
theorem insert_requests_keyframe {rtpPacket : RtpPacket} (hbuilt : Built rtpPacket)
    (h : s.RequestsKeyframe rtpPacket) :
    (s.insertRtpPacket now firSent rtpPacket).1.awaitingKeyframe = true := by
  obtain ⟨mediaPacket, isRecovered, hmedia, hcase⟩ := h
  have hbuilt' : Built mediaPacket := media_packet_built hbuilt hmedia
  have hsame : ∀ {other isRecovered'}, s.mediaPacketOf rtpPacket = some (other, isRecovered') →
      other = mediaPacket ∧ isRecovered' = isRecovered := fun hother =>
    Prod.mk.inj (Option.some.inj (hother.symm.trans hmedia))
  generalize hresult : s.insertRtpPacket now firSent rtpPacket = result
  have hcases := s.insert_rtp_packet_insertion now firSent rtpPacket
  rw [hresult] at hcases
  cases hcases with
  | dropped hnone => simp [hnone] at hmedia
  | obsolete other hother htype hobsolete | late other hother htype hobsolete =>
      obtain ⟨rfl, -⟩ := hsame hother
      rcases hcase with ⟨-, hfresh, -⟩ | ⟨-, hpadding, -⟩
      · simp [hfresh] at hobsolete
      · exact absurd (htype.symm.trans hpadding) (ne_sub_one _)
  | ignored other _ hother hignored =>
      obtain ⟨rfl, rfl⟩ := hsame hother
      rcases hignored with ⟨hne, hnot⟩ | hnone
      · rcases hcase with ⟨htype, -⟩ | ⟨hrecovered, hpadding, hssrc, -⟩
        · exact absurd htype hne
        · exact absurd ⟨hrecovered, hpadding, hssrc⟩ hnot
      · exact absurd (hnone.symm.trans hbuilt') (by simp)
  | padding other hother hpadding =>
      obtain ⟨rfl, rfl⟩ := hsame hother
      rcases hcase with ⟨htype, -⟩ | ⟨-, -, -, hoverflow⟩
      · exact absurd (htype.symm.trans hpadding) (ne_sub_one _)
      · exact track_overflow_awaiting hoverflow
  | media other _ hother htype hfresh =>
      obtain ⟨rfl, rfl⟩ := hsame hother
      rcases hcase with ⟨-, -, hunreadable | ⟨rfl, hoverflow⟩⟩ | ⟨-, hpadding, -⟩
      · exact depacketize_unreadable hbuilt' hunreadable
      · exact depacketize_keeps_awaiting hbuilt' (track_overflow_awaiting hoverflow)
      · exact absurd (htype.symm.trans hpadding) (ne_sub_one _)

end Receive

end RtpVideoReceiver

namespace VideoSession

/-- The steps that set the flag: a packet that cannot be read or overflows the list of missing
packets, a request of the application, the hard deadline, and skipping to a newer key frame. -/
def Raises (s : VideoSession) : ℤ × Action → Prop
  | (_, .onReceiveRtpPacket datagram _) =>
      s.outstanding .ingestion = [] ∧ kFixedHeaderSize ≤ datagram.length ∧
        ∃ rtpPacket, RtpPacket.ofBuffer datagram = some rtpPacket ∧
          s.receiver.RequestsKeyframe rtpPacket
  | (_, .requestKeyFrame _) => True
  | (now, .processIterate _) =>
      s.outstanding .worker = [] ∧ ∃ timing, s.processing = some timing ∧
        (s.receiver.processBranch timing now = .hardTimeout ∨
          s.receiver.processBranch timing now = .skipToKeyframe)
  | _ => False

/-- After each of these steps the flag is set. -/
theorem raises_awaiting {s : VideoSession} {action : ℤ × Action} (h : s.Raises action) :
    (s.step action).receiver.awaitingKeyframe = true := by
  obtain ⟨now, action⟩ := action
  cases action with
  | onReceiveRtpPacket datagram firSent =>
      obtain ⟨hidle, hlong, rtpPacket, hbuffer, hrequests⟩ := h
      have hreceive : s.receiver.onReceiveRtpPacket now firSent datagram =
          s.receiver.insertRtpPacket now firSent rtpPacket := by
        simp only [onReceiveRtpPacket, hbuffer, if_neg (Nat.not_lt.mpr hlong)]
      simp only [step, hidle, if_true, hreceive]
      exact insert_requests_keyframe (built_of_buffer hbuffer) hrequests
  | requestKeyFrame firSent =>
      obtain ⟨_, _, _, _, hrequest⟩ := s.receiver.request_key_frame_eq now firSent
      simp only [step, hrequest]
  | processIterate firSent =>
      obtain ⟨hidle, timing, hprocessing, hbranch⟩ := h
      simp only [step, hprocessing, hidle, if_true]
      have hround := s.receiver.process_iterate_round timing now firSent
      generalize s.receiver.processIterate timing now firSent = iteration at hround ⊢
      cases hround with
      | skip | timeout => rfl
      | idle hother | drop _ _ _ _ hother | keyframe _ _ _ _ _ _ hother
      | deliver _ _ _ _ _ _ hother | escalate _ _ _ _ _ _ _ _ _ _ hother =>
          rcases hbranch with hbranch | hbranch <;> simp [hbranch] at hother
  | sendDatagram | process | onRttUpdate | onSenderReport => exact h.elim

/-- Complete frames stay filled. -/
theorem filled_step {s : VideoSession} (h : Filled s.receiver.pendingFrames)
    (action : ℤ × Action) : Filled (s.step action).receiver.pendingFrames := by
  generalize hs' : s.step action = s'
  have heffect := s.step_effect action
  rw [hs'] at heffect
  cases heffect with
  | receive now datagram firSent =>
      exact receive_pending (fun _ _ _ _ hwritten hfilled => hfilled.write hwritten) h
  | round now firSent timing processing iteration hprocessing hround =>
      exact round_filled hround h
  | quiet => exact h

/-- A step hands nothing over and keeps the flag, or hands one frame over, which is a key frame
when the flag was set. -/
theorem gate_step {s : VideoSession} (h : Filled s.receiver.pendingFrames)
    (action : ℤ × Action) :
    ((s.step action).delivered = s.delivered ∧
      (s.receiver.awaitingKeyframe = true →
        (s.step action).receiver.awaitingKeyframe = true)) ∨
    ∃ delivery, (s.step action).delivered = s.delivered ++ [delivery] ∧
      (s.receiver.awaitingKeyframe = true → delivery.isKeyframe = true) := by
  generalize hs' : s.step action = s'
  have heffect := s.step_effect action
  rw [hs'] at heffect
  cases heffect with
  | receive now datagram firSent => exact Or.inl ⟨rfl, fun h => receive_keeps_awaiting h⟩
  | quiet _ _ _ _ _ _ _ _ _ _ hawaiting => exact Or.inl ⟨rfl, hawaiting⟩
  | round now firSent timing processing iteration hprocessing hround =>
      cases hround with
      | idle | drop | escalate => exact Or.inl ⟨by simp, id⟩
      | skip | timeout => exact Or.inl ⟨by simp, fun _ => rfl⟩
      | deliver timestamp frame newer _ _ hpending hbranch hnewer hcomplete hawaiting =>
          obtain ⟨received, hreceived⟩ := delivery_of_filled h hpending hcomplete
          refine Or.inr ⟨⟨timestamp, received, frame.isKeyframe, frame.lastSequenceNumber⟩,
            by simp only [hreceived, Option.toList_some], ?_⟩
          intro hset
          simp [hawaiting] at hset
      | keyframe timestamp frame newer _ _ hpending hbranch hnewer hcomplete hawaiting hkey =>
          -- the frame is there, so clearing the flag comes with a key frame
          obtain ⟨received, hreceived⟩ := delivery_of_filled h hpending hcomplete
          exact Or.inr ⟨⟨timestamp, received, frame.isKeyframe, frame.lastSequenceNumber⟩,
            by simp only [hreceived, Option.toList_some], fun _ => hkey⟩

/-- From a state with the flag set on, the first frame that is handed over is a key frame. -/
theorem gate_run {s : VideoSession} (h : Filled s.receiver.pendingFrames)
    (hawaiting : s.receiver.awaitingKeyframe = true) (actions : List (ℤ × Action)) :
    (s.run actions).delivered = s.delivered ∨
      ∃ delivery others, (s.run actions).delivered = s.delivered ++ delivery :: others ∧
        delivery.isKeyframe = true := by
  -- what was handed over stays handed over
  have hgrows : ∀ (s : VideoSession) (actions : List (ℤ × Action)),
      Filled s.receiver.pendingFrames → ∃ others, (s.run actions).delivered =
        s.delivered ++ others := by
    intro s actions
    induction actions generalizing s with
    | nil => exact fun _ => ⟨[], by simp [run]⟩
    | cons action rest ih =>
        intro hfilled
        obtain ⟨others, hothers⟩ := ih (s.step action) (filled_step hfilled action)
        rcases gate_step hfilled action with ⟨hsame, -⟩ | ⟨delivery, hone, -⟩
        · exact ⟨others, by rw [← hsame]; exact hothers⟩
        · refine ⟨delivery :: others, ?_⟩
          change ((s.step action).run rest).delivered = _
          rw [hothers, hone, List.append_assoc]
          rfl
  induction actions generalizing s with
  | nil => exact Or.inl rfl
  | cons action rest ih =>
      rcases gate_step h action with ⟨hsame, hkept⟩ | ⟨delivery, hone, hkey⟩
      · rcases ih (filled_step h action) (hkept hawaiting) with hnone | hsome
        · exact Or.inl (hnone.trans hsame)
        · rw [hsame] at hsome
          exact Or.inr hsome
      · obtain ⟨others, hothers⟩ := hgrows (s.step action) rest (filled_step h action)
        refine Or.inr ⟨delivery, others, ?_, hkey hawaiting⟩
        change ((s.step action).run rest).delivered = _
        rw [hothers, hone, List.append_assoc]
        rfl

theorem filled_run {s : VideoSession} (h : Filled s.receiver.pendingFrames)
    (actions : List (ℤ × Action)) : Filled (s.run actions).receiver.pendingFrames := by
  induction actions generalizing s with
  | nil => exact h
  | cons action rest ih => exact ih (filled_step h action)

theorem filled_start (remoteSsrc rtxSsrc : BitVec 32) (mediaPayloadType : Byte) :
    Filled (start remoteSsrc rtxSsrc mediaPayloadType).receiver.pendingFrames := by
  intro entry hentry
  simp [start, ofMediaConfig] at hentry

/-- The key frame gate: in every run, each of the five causes sets the flag, and once it is set,
the next frame that is handed over is a key frame. -/
theorem keyframe_gate (remoteSsrc rtxSsrc : BitVec 32) (mediaPayloadType : Byte)
    (actions : List (ℤ × Action)) :
    Run.Along step
        (fun s action => s.Raises action → (s.step action).receiver.awaitingKeyframe = true)
        (start remoteSsrc rtxSsrc mediaPayloadType) actions ∧
      ∀ first rest, actions = first ++ rest →
        ((start remoteSsrc rtxSsrc mediaPayloadType).run first).receiver.awaitingKeyframe = true →
        ∀ delivery others,
          ((start remoteSsrc rtxSsrc mediaPayloadType).run actions).delivered =
            ((start remoteSsrc rtxSsrc mediaPayloadType).run first).delivered ++
              delivery :: others →
          delivery.isKeyframe = true := by
  have hfilled := filled_start remoteSsrc rtxSsrc mediaPayloadType
  generalize start remoteSsrc rtxSsrc mediaPayloadType = s at hfilled ⊢
  constructor
  · clear hfilled
    induction actions generalizing s with
    | nil => trivial
    | cons action rest ih => exact ⟨raises_awaiting, ih (s.step action)⟩
  · rintro first rest rfl hawaiting delivery others hdelivered
    rw [run_append] at hdelivered
    rcases gate_run (filled_run hfilled first) hawaiting rest with hnone | ⟨key, others', hsome, hkey⟩
    · rw [hnone] at hdelivered
      simp at hdelivered
    · rw [hsome, List.append_cancel_left_eq] at hdelivered
      obtain ⟨rfl, -⟩ := List.cons.inj hdelivered
      exact hkey

end VideoSession

end MiniRtc
