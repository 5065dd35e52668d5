import MiniRtc.Video.Session

/-!
# What stays behind of a frame

A timestamp is in use when a buffer of incomplete frames holds one of its packets or one of its
markers is set (`InUse`). A receiver is tidy when every timestamp in use has a pending frame.
Packets keep a receiver tidy, and so does giving a frame up, which calls `DropFrameAssembly`.
Handing a frame over does not: it relies on `PopCompleteFrame` having removed the packets of the
frame, and a packet that arrives again between the two is left behind. `tidy_run_iff` says that
nothing else goes wrong.
-/

namespace MiniRtc

open RtpVideoReceiver FrameAssembly

namespace FrameAssembly

/-- A packet or a marker of the timestamp is still there. -/
def InUse (s : FrameAssembly) (timestamp : BitVec 32) : Prop :=
  (s.fuaStartSequenceNumbers timestamp).isSome = true ∨
    (s.fuaEndSequenceNumbers timestamp).isSome = true ∨
    (∃ x p, s.incompleteH264FrameList x = some p ∧ p.timestamp = timestamp) ∨
    ∃ x p, s.incompleteAv1FrameList x = some p ∧ p.timestamp = timestamp

/-- The timestamp has a pending frame. -/
def IsPending (s : FrameAssembly) (timestamp : BitVec 32) : Prop :=
  timestamp ∈ s.pendingFrames.map Prod.fst

/-- Every timestamp in use has a pending frame. -/
def Tidy (s : FrameAssembly) : Prop :=
  ∀ timestamp, s.InUse timestamp → s.IsPending timestamp

section Packet

variable {s : FrameAssembly} {now : ℤ} {timestamp : BitVec 32}

theorem is_pending_set_self (pendingFrame : PendingFrame) :
    (s.setPendingFrame timestamp pendingFrame).IsPending timestamp :=
  List.mem_map.mpr ⟨_, mem_set_self, rfl⟩

/-- Storing a pending frame removes no timestamp. -/
theorem IsPending.set {other : BitVec 32} (h : s.IsPending other) (pendingFrame : PendingFrame) :
    (s.setPendingFrame timestamp pendingFrame).IsPending other := by
  obtain ⟨entry, hentry, rfl⟩ := List.mem_map.mp h
  have hor : entry ∈ (s.setPendingFrame timestamp pendingFrame).pendingFrames ∨
      (entry.1 = timestamp ∧ s.pendingFrame? timestamp = some entry.2) := mem_set_or hentry
  rcases hor with hmem | ⟨hkey, -⟩
  · exact List.mem_map_of_mem hmem
  · rw [hkey]
    exact is_pending_set_self pendingFrame

/-- A commit changes no buffer and removes no timestamp. -/
theorem Tidy.commit (h : s.Tidy) (frame : ReceivedFrame) (isKeyframe : Bool)
    (endSequenceNumber : BitVec 16) (requireExistingEntry : Bool) :
    (s.commitPendingFrame now timestamp frame isKeyframe endSequenceNumber
      requireExistingEntry).Tidy := by
  rcases commit_pending_frame_eq s now timestamp frame isKeyframe endSequenceNumber
    requireExistingEntry with ⟨-, -, hsame⟩ | ⟨arrivalTime, hset⟩
  · rw [hsame]
    exact h
  · rw [hset]
    exact fun other hother => (h other hother).set _

/-- Markers are set only for a timestamp that has a pending frame. -/
theorem Tidy.markers (h : s.Tidy) (hpending : s.IsPending timestamp)
    (sequenceNumber : BitVec 16) (isStart isEnd : Bool) :
    (s.setFrameMarkers timestamp sequenceNumber isStart isEnd).Tidy := by
  intro other hother
  by_cases hsame : other = timestamp
  · rw [hsame]
    exact hpending
  · refine h other ?_
    rcases hother with hstart | hfinish | hpackets
    · refine Or.inl ?_
      cases isStart with
      | false => simpa [setFrameMarkers] using hstart
      | true => simpa [setFrameMarkers, hsame] using hstart
    · refine Or.inr (Or.inl ?_)
      cases isEnd with
      | false => simpa [setFrameMarkers] using hfinish
      | true => simpa [setFrameMarkers, hsame] using hfinish
    · exact Or.inr (Or.inr hpackets)

/-- Removing markers keeps the state tidy. -/
theorem Tidy.clear (h : s.Tidy) (timestamp : BitVec 32) :
    (s.clearFrameMarkers timestamp).Tidy := by
  intro other hother
  refine h other ?_
  rcases hother with hstart | hfinish | hpackets
  · refine Or.inl ?_
    by_cases hsame : other = timestamp
    · simp [clearFrameMarkers, hsame] at hstart
    · simpa [clearFrameMarkers, hsame] using hstart
  · refine Or.inr (Or.inl ?_)
    by_cases hsame : other = timestamp
    · simp [clearFrameMarkers, hsame] at hfinish
    · simpa [clearFrameMarkers, hsame] using hfinish
  · exact Or.inr (Or.inr hpackets)

/-- A packet is stored and its frame is tracked. -/
theorem Tidy.track_h264 (h : s.Tidy) (now : ℤ) (p : RtpPacketH264) :
    (FrameAssembly.trackPendingFramePacket
      { s with
        incompleteH264FrameList :=
          Function.update s.incompleteH264FrameList p.sequenceNumber (some p) }
      now p.timestamp p.sequenceNumber).Tidy := by
  rintro other (hstart | hfinish | ⟨x, q, hq, rfl⟩ | hav1)
  · exact (h other (Or.inl hstart)).set _
  · exact (h other (Or.inr (Or.inl hfinish))).set _
  · have hslot : Function.update s.incompleteH264FrameList p.sequenceNumber (some p) x =
        some q := hq
    by_cases hx : x = p.sequenceNumber
    · obtain rfl : p = q := by simpa [hx] using hslot
      exact is_pending_set_self _
    · rw [Function.update_of_ne hx] at hslot
      exact (h q.timestamp (Or.inr (Or.inr (Or.inl ⟨x, q, hslot, rfl⟩)))).set _
  · exact (h other (Or.inr (Or.inr (Or.inr hav1)))).set _

theorem Tidy.track_av1 (h : s.Tidy) (now : ℤ) (p : RtpPacketAv1) :
    (FrameAssembly.trackPendingFramePacket
      { s with
        incompleteAv1FrameList :=
          Function.update s.incompleteAv1FrameList p.sequenceNumber (some p) }
      now p.timestamp p.sequenceNumber).Tidy := by
  rintro other (hstart | hfinish | hh264 | ⟨x, q, hq, rfl⟩)
  · exact (h other (Or.inl hstart)).set _
  · exact (h other (Or.inr (Or.inl hfinish))).set _
  · exact (h other (Or.inr (Or.inr (Or.inl hh264)))).set _
  · have hslot : Function.update s.incompleteAv1FrameList p.sequenceNumber (some p) x =
        some q := hq
    by_cases hx : x = p.sequenceNumber
    · obtain rfl : p = q := by simpa [hx] using hslot
      exact is_pending_set_self _
    · rw [Function.update_of_ne hx] at hslot
      exact (h q.timestamp (Or.inr (Or.inr (Or.inr ⟨x, q, hslot, rfl⟩)))).set _

/-- Taking packets out of the buffers keeps the state tidy. -/
theorem Tidy.remove {s' : FrameAssembly} (h : s.Tidy)
    (hh264 : ∀ x p, s'.incompleteH264FrameList x = some p → s.incompleteH264FrameList x = some p)
    (hav1 : ∀ x p, s'.incompleteAv1FrameList x = some p → s.incompleteAv1FrameList x = some p)
    (hstart : s'.fuaStartSequenceNumbers = s.fuaStartSequenceNumbers)
    (hfinish : s'.fuaEndSequenceNumbers = s.fuaEndSequenceNumbers)
    (hpending : s'.pendingFrames = s.pendingFrames) : s'.Tidy := by
  intro other hother
  have hused : s.InUse other := by
    rcases hother with hmarker | hmarker | ⟨x, p, hp, rfl⟩ | ⟨x, p, hp, rfl⟩
    · exact Or.inl (hstart ▸ hmarker)
    · exact Or.inr (Or.inl (hfinish ▸ hmarker))
    · exact Or.inr (Or.inr (Or.inl ⟨x, p, hh264 x p hp, rfl⟩))
    · exact Or.inr (Or.inr (Or.inr ⟨x, p, hav1 x p hp, rfl⟩))
  have hold : other ∈ s.pendingFrames.map Prod.fst := h other hused
  rw [← hpending] at hold
  exact hold

theorem Tidy.pop_h264 (h : s.Tidy) (startSeq endSeq : BitVec 16) (packetCount : Nat) :
    (s.popCompleteFrame now startSeq endSeq packetCount timestamp).Tidy := by
  refine Tidy.commit (Tidy.clear ?_ timestamp) _ _ _ _
  exact h.remove (fun x p hp => Slots.vacate_eq_some hp) (fun x p hp => hp) rfl rfl rfl

theorem Tidy.pop_av1 (h : s.Tidy) (startSeq endSeq : BitVec 16) (packetCount : Nat) :
    (s.popCompleteAv1Frame now startSeq endSeq packetCount timestamp).Tidy := by
  refine Tidy.commit (Tidy.clear ?_ timestamp) _ _ _ _
  exact h.remove (fun x p hp => hp) (fun x p hp => Slots.vacate_eq_some hp) rfl rfl rfl

/-- An H.264 packet keeps the state tidy. -/
theorem Tidy.process_h264 (h : s.Tidy) (p : RtpPacketH264) :
    (s.processH264RtpPacket now p).Tidy := by
  unfold processH264RtpPacket
  split_ifs
  · exact Tidy.commit (s := (s.createReceivedFrame now _ p.timestamp).1) h _ _ _ _
  · simp only [checkIsH264FrameCompleted]
    have htracked := (h.track_h264 now p).markers (is_pending_set_self _)
      p.sequenceNumber p.fuStart p.fuEnd
    split
    · exact htracked
    · exact htracked.pop_h264 _ _ _
  · exact h

/-- An AV1 packet keeps the state tidy. -/
theorem Tidy.process_av1 (h : s.Tidy) (p : RtpPacketAv1) :
    (s.processAv1RtpPacket now p).Tidy := by
  simp only [processAv1RtpPacket, checkIsAv1FrameCompleted]
  have htracked := (h.track_av1 now p).markers (is_pending_set_self _)
    p.sequenceNumber p.av1FrameStart p.av1FrameEnd
  split
  · exact htracked
  · exact htracked.pop_av1 _ _ _

end Packet

/-- `DropFrameAssembly` leaves nothing of a timestamp behind and adds nothing. -/
theorem in_use_drop {s : FrameAssembly} {timestamp other : BitVec 32}
    (h : (s.dropFrameAssembly timestamp).InUse other) : other ≠ timestamp ∧ s.InUse other := by
  rcases h with hstart | hfinish | ⟨x, p, hp, rfl⟩ | ⟨x, p, hp, rfl⟩
  · by_cases hsame : other = timestamp
    · simp [dropFrameAssembly, clearFrameMarkers, hsame] at hstart
    · simp only [dropFrameAssembly, clearFrameMarkers, Function.update_of_ne hsame] at hstart
      exact ⟨hsame, Or.inl hstart⟩
  · by_cases hsame : other = timestamp
    · simp [dropFrameAssembly, clearFrameMarkers, hsame] at hfinish
    · simp only [dropFrameAssembly, clearFrameMarkers, Function.update_of_ne hsame] at hfinish
      exact ⟨hsame, Or.inr (Or.inl hfinish)⟩
  · obtain ⟨hold, hne⟩ := Option.filter_eq_some_iff.mp hp
    exact ⟨by simpa using hne, Or.inr (Or.inr (Or.inl ⟨x, p, hold, rfl⟩))⟩
  · obtain ⟨hold, hne⟩ := Option.filter_eq_some_iff.mp hp
    exact ⟨by simpa using hne, Or.inr (Or.inr (Or.inr ⟨x, p, hold, rfl⟩))⟩

/-- The first pending frame is removed: the state stays tidy when nothing of it is left, or its
timestamp has another entry. -/
theorem tidy_erase_iff {s : FrameAssembly} {timestamp : BitVec 32} {frame : PendingFrame}
    {newer : List (BitVec 32 × PendingFrame)} (h : s.Tidy)
    (hpending : s.pendingFrames = (timestamp, frame) :: newer) :
    FrameAssembly.Tidy { s with pendingFrames := newer } ↔
      (s.InUse timestamp → timestamp ∈ newer.map Prod.fst) := by
  constructor
  · exact fun htidy hused => htidy timestamp hused
  · intro hleft other hother
    have hold : other ∈ s.pendingFrames.map Prod.fst := h other hother
    rw [hpending, List.map_cons, List.mem_cons] at hold
    rcases hold with rfl | hnewer
    · exact hleft hother
    · exact hnewer

/-- A frame that is given up leaves the state tidy. -/
theorem Tidy.drop {s : FrameAssembly} {timestamp : BitVec 32} {frame : PendingFrame}
    {newer : List (BitVec 32 × PendingFrame)} (h : s.Tidy)
    (hpending : s.pendingFrames = (timestamp, frame) :: newer) :
    (FrameAssembly.dropFrameAssembly { s with pendingFrames := newer } timestamp).Tidy := by
  intro other hother
  obtain ⟨hne, hused⟩ := in_use_drop hother
  have hold : other ∈ s.pendingFrames.map Prod.fst := h other hused
  rw [hpending, List.map_cons, List.mem_cons] at hold
  exact hold.resolve_left hne

end FrameAssembly

namespace RtpVideoReceiver

/-- Every packet keeps a receiver tidy. -/
theorem receive_tidy {s : RtpVideoReceiver} (h : s.Tidy) (now : ℤ) (firSent : Bool)
    (datagram : List Byte) : (s.onReceiveRtpPacket now firSent datagram).1.Tidy := by
  have htracked : ∀ sequenceNumber isRecovered,
      (s.trackSequenceNumber now firSent sequenceNumber isRecovered).1.Tidy := by
    intro sequenceNumber isRecovered
    obtain ⟨_, _, _, _, _, heq, -⟩ :=
      s.track_sequence_number_eq now firSent sequenceNumber isRecovered
    rw [heq]
    exact h
  rcases s.on_receive_rtp_packet_cases now firSent datagram with
    hnone | ⟨rtpPacket, -, hbuilt, hinsert⟩
  · rw [hnone]
    exact h
  · rw [hinsert]
    have hcases := s.insert_rtp_packet_insertion now firSent rtpPacket
    generalize s.insertRtpPacket now firSent rtpPacket = result at hcases ⊢
    cases hcases with
    | dropped | obsolete | late | ignored => exact h
    | padding mediaPacket hmedia hpadding => exact htracked mediaPacket.sequenceNumber false
    | media mediaPacket isRecovered hmedia htype hfresh =>
        have hbefore := htracked mediaPacket.sequenceNumber isRecovered
        generalize (s.trackSequenceNumber now firSent mediaPacket.sequenceNumber
          isRecovered).1 = r at hbefore ⊢
        have hread := r.depacketize_cases now firSent (media_packet_built hbuilt hmedia)
        generalize r.depacketize now firSent mediaPacket = r' at hread ⊢
        cases hread with
        | unread =>
            obtain ⟨_, _, _, _, hrequest⟩ := r.request_key_frame_eq now firSent
            rw [hrequest]
            exact hbefore
        | av1 p htime hseq => exact hbefore.process_av1 p
        | h264 p htime hseq => exact hbefore.process_h264 p
        | other => exact hbefore

end RtpVideoReceiver

namespace VideoSession

/-- The step hands a frame over of which a packet or a marker stays behind. -/
def LeavesBehind (s : VideoSession) : ℤ × Action → Prop
  | (now, .processIterate _) =>
      s.outstanding .worker = [] ∧ ∃ timing, s.processing = some timing ∧
        (s.receiver.processBranch timing now = .deliver ∨
          s.receiver.processBranch timing now = .deliverKeyframe) ∧
        ∃ timestamp frame newer, s.receiver.pendingFrames = (timestamp, frame) :: newer ∧
          s.receiver.InUse timestamp ∧ timestamp ∉ newer.map Prod.fst
  | _ => False

/-- A step that leaves nothing behind keeps a receiver tidy. -/
theorem tidy_step {s : VideoSession} (h : s.receiver.Tidy) {action : ℤ × Action}
    (hclean : ¬ s.LeavesBehind action) : (s.step action).receiver.Tidy := by
  have heffect := s.step_effect action
  generalize s.step action = s' at heffect ⊢
  cases heffect with
  | receive now datagram firSent => exact receive_tidy h now firSent datagram
  | quiet => exact h
  | round now firSent timing processing iteration hprocessing hround hiteration hworker =>
      have hleft : ∀ timestamp frame newer,
          s.receiver.pendingFrames = (timestamp, frame) :: newer →
          (s.receiver.processBranch timing now = .deliver ∨
            s.receiver.processBranch timing now = .deliverKeyframe) →
          s.receiver.InUse timestamp → timestamp ∈ newer.map Prod.fst := by
        intro timestamp frame newer hpending hbranch hused
        by_contra hgone
        exact hclean ⟨hworker, timing, hprocessing, hbranch, timestamp, frame, newer, hpending,
          hused, hgone⟩
      cases hround with
      | idle => exact h
      | drop timestamp frame newer hpending | skip timestamp frame newer hpending
      | timeout timestamp frame newer _ _ _ _ hpending => exact h.drop hpending
      | deliver timestamp frame newer _ _ hpending hbranch =>
          exact (tidy_erase_iff h hpending).mpr (hleft timestamp frame newer hpending
            (Or.inl hbranch))
      | keyframe timestamp frame newer _ _ hpending hbranch =>
          exact (tidy_erase_iff h hpending).mpr (hleft timestamp frame newer hpending
            (Or.inr hbranch))
      | escalate timestamp frame newer _ _ _ _ _ _ hpending =>
          intro other hother
          have hold : other ∈ s.receiver.pendingFrames.map Prod.fst := h other hother
          rw [hpending] at hold
          exact hold

/-- A step that leaves something behind does not. -/
theorem not_tidy_of_leaves_behind {s : VideoSession} (h : s.receiver.Tidy)
    {action : ℤ × Action} (hleft : s.LeavesBehind action) : ¬ (s.step action).receiver.Tidy := by
  obtain ⟨now, action⟩ := action
  cases action with
  | processIterate firSent =>
      obtain ⟨hworker, timing, hprocessing, hbranch, timestamp, frame, newer, hpending, hused,
        hgone⟩ := hleft
      simp only [step, hprocessing, hworker, if_true]
      have hround := s.receiver.process_iterate_round timing now firSent
      generalize s.receiver.processIterate timing now firSent = iteration at hround ⊢
      cases hround with
      | deliver timestamp' frame' newer' _ _ hpending'
      | keyframe timestamp' frame' newer' _ _ hpending' =>
          obtain ⟨heq, rfl⟩ := List.cons.inj (hpending'.symm.trans hpending)
          exact fun htidy => hgone ((tidy_erase_iff h hpending).mp htidy hused)
      | idle hother | drop _ _ _ _ hother | escalate _ _ _ _ _ _ _ _ _ _ hother =>
          rcases hbranch with hbranch | hbranch <;> simp [hbranch] at hother
      | skip _ _ _ _ hother | timeout _ _ _ _ _ _ _ _ hother =>
          rcases hbranch with hbranch | hbranch <;> simp [hbranch] at hother
  | onReceiveRtpPacket | sendDatagram | process | requestKeyFrame | onRttUpdate
  | onSenderReport => exact hleft.elim

/-- All states of a run are tidy if and only if no step of it leaves something behind. -/
theorem tidy_run_iff (remoteSsrc rtxSsrc : BitVec 32) (mediaPayloadType : Byte)
    (actions : List (ℤ × Action)) :
    (∀ first rest, actions = first ++ rest →
      ((start remoteSsrc rtxSsrc mediaPayloadType).run first).receiver.Tidy) ↔
      Run.Along step (fun s action => ¬ s.LeavesBehind action)
        (start remoteSsrc rtxSsrc mediaPayloadType) actions := by
  refine Run.invariant_iff_along (I := fun s : VideoSession => s.receiver.Tidy) ?_ ?_
  · intro s action htidy
    constructor
    · exact fun hnext hleft => not_tidy_of_leaves_behind htidy hleft hnext
    · exact tidy_step htidy
  · intro timestamp hused
    simp [start, ofMediaConfig, InUse] at hused

/-- A frame of two fragments, of which the first one arrives twice before `Process` runs. -/
def repeatedFragmentRun : List (ℤ × Action) :=
  [(1000, .onReceiveRtpPacket (h264Datagram 10 3000 [0x1C, 0x85, 1]) true),
    (1100, .onReceiveRtpPacket (h264Datagram 11 3000 [0x1C, 0x45, 2]) true),
    (1200, .onReceiveRtpPacket (h264Datagram 10 3000 [0x1C, 0x85, 1]) true),
    (2000, .process true),
    (2000, .processIterate true),
    (2000, .processIterate true)]

/-- After the frame was handed over, the repeated fragment and its marker are left and no frame is
pending. -/
theorem repeated_fragment_stays :
    ((start 1 2 payloadTypeH264).run repeatedFragmentRun).delivered.map Delivery.timestamp =
        [3000] ∧
      ((start 1 2 payloadTypeH264).run repeatedFragmentRun).processing = none ∧
      ¬ ((start 1 2 payloadTypeH264).run repeatedFragmentRun).receiver.Tidy := by
  have hpending : ((start 1 2 payloadTypeH264).run
      repeatedFragmentRun).receiver.pendingFrames = [] := by decide +kernel
  refine ⟨by decide +kernel, by decide +kernel, fun htidy => ?_⟩
  have hleft : (3000 : BitVec 32) ∈ ((start 1 2 payloadTypeH264).run
      repeatedFragmentRun).receiver.pendingFrames.map Prod.fst :=
    htidy 3000 (Or.inl (by decide +kernel))
  rw [hpending] at hleft
  simp at hleft

end VideoSession

end MiniRtc
