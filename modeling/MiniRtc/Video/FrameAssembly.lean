import MiniRtc.Foundation.OrderedMap
import MiniRtc.Foundation.Slots
import MiniRtc.Numerics.SequenceNumber
import MiniRtc.Qos.NackRequester
import MiniRtc.Rtp.PacketAv1
import MiniRtc.Rtp.PacketH264
import MiniRtc.Rtp.Timestamp

/-!
# Putting frames together

The part of `rtp_video_receiver.cpp` that collects the packets of a frame: the buffers of incomplete
frames, the markers of their first and last packets, and the pending frames. The buffers are
functions from sequence numbers and the marker maps functions from timestamps. `pendingFrames` is
an ordered container whose comparator `rtpTimestampLess` is an order only on timestamps that lie
close together.

The two codecs store their packets in buffers of their own and share the markers. What they have
in common is `completeRange`: the range between the markers of a timestamp, if it is short enough
and all its packets are there.
-/

namespace MiniRtc

/-- `kMaxPacketsPerFrame`. -/
def kMaxPacketsPerFrame : Nat := 4096

/-- `ReceivedFrame`. -/
structure ReceivedFrame where
  data : List Byte
  receivedTimestampUs : ℤ
  capturedTimestampUs : ℤ
  deriving DecidableEq

/-- `RtpVideoReceiver::PendingFrame`. -/
structure PendingFrame where
  frame : Option ReceivedFrame := none
  isComplete : Bool := false
  arrivalTime : ℤ := 0
  isKeyframe : Bool := false
  lastSequenceNumber : Option (BitVec 16) := none
  recoveryEscalated : Bool := false
  softFirRequested : Bool := false
  deriving DecidableEq

/-- `RtpVideoReceiver::RtpTimestampLess`. -/
def rtpTimestampLess (lhs rhs : BitVec 32) : Bool :=
  decide (lhs ≠ rhs) && aheadOf rhs lhs

/-- `FramePacketCount`. Zero stands for a range that is too long. -/
def framePacketCount (startSequenceNumber endSequenceNumber : BitVec 16) : Nat :=
  let packetCount := (endSequenceNumber - startSequenceNumber).toNat + 1
  if packetCount ≤ kMaxPacketsPerFrame then packetCount else 0

/-- Whether an IDR slice starts behind a start code at an offset. -/
def isIdrAt (data : List Byte) (offset : Nat) : Bool :=
  let nalOffset :=
    if byteAt data offset = 0 ∧ byteAt data (offset + 1) = 0 ∧ byteAt data (offset + 2) = 1 then
      offset + 3
    else if offset + 4 < data.length ∧ byteAt data offset = 0 ∧ byteAt data (offset + 1) = 0 ∧
        byteAt data (offset + 2) = 0 ∧ byteAt data (offset + 3) = 1 then
      offset + 4
    else 0
  nalOffset ≠ 0 ∧ nalOffset < data.length ∧ byteAt data nalOffset &&& 0x1f = 5

/-- `IsH264KeyFrame`. -/
def isH264KeyFrame (data : List Byte) : Bool :=
  (List.range (data.length - 3)).any (isIdrAt data)

/-- The members of `RtpVideoReceiver` in which frames are put together. -/
structure FrameAssembly where
  incompleteH264FrameList : BitVec 16 → Option RtpPacketH264 := fun _ => none
  incompleteAv1FrameList : BitVec 16 → Option RtpPacketAv1 := fun _ => none
  fuaStartSequenceNumbers : BitVec 32 → Option (BitVec 16) := fun _ => none
  fuaEndSequenceNumbers : BitVec 32 → Option (BitVec 16) := fun _ => none
  pendingFrames : List (BitVec 32 × PendingFrame) := []
  rtpTimestampMapper : RtpTimestampMapper := {}

namespace FrameAssembly

/-- The pending frame of a timestamp. -/
def pendingFrame? (s : FrameAssembly) (timestamp : BitVec 32) : Option PendingFrame :=
  (OrderedMap.find? rtpTimestampLess Prod.fst timestamp s.pendingFrames).map Prod.snd

/-- Store a pending frame under its timestamp. -/
def setPendingFrame (s : FrameAssembly) (timestamp : BitVec 32) (pendingFrame : PendingFrame) :
    FrameAssembly :=
  { s with
    pendingFrames :=
      OrderedMap.insertOrAssign rtpTimestampLess Prod.fst (timestamp, pendingFrame)
        s.pendingFrames }

/-- The pending frame after one more of its packets arrived. -/
def trackedFrame (now : ℤ) (sequenceNumber : BitVec 16) (pendingFrame : PendingFrame) :
    PendingFrame :=
  let pendingFrame :=
    if pendingFrame.arrivalTime = 0 then
      { pendingFrame with arrivalTime := microsToMillis now }
    else pendingFrame
  match pendingFrame.lastSequenceNumber with
  | none => { pendingFrame with lastSequenceNumber := some sequenceNumber }
  | some last =>
      if aheadOf sequenceNumber last then
        { pendingFrame with lastSequenceNumber := some sequenceNumber }
      else pendingFrame

/-- `TrackPendingFramePacket`. -/
def trackPendingFramePacket (s : FrameAssembly) (now : ℤ) (timestamp : BitVec 32)
    (sequenceNumber : BitVec 16) : FrameAssembly :=
  s.setPendingFrame timestamp
    (trackedFrame now sequenceNumber ((s.pendingFrame? timestamp).getD {}))

/-- `GetFrameSequenceRange`: start, end and length of the range of a timestamp. -/
def getFrameSequenceRange (s : FrameAssembly) (timestamp : BitVec 32) :
    Option (BitVec 16 × BitVec 16 × Nat) :=
  match s.fuaStartSequenceNumbers timestamp, s.fuaEndSequenceNumbers timestamp with
  | some start, some finish =>
      let packetCount := framePacketCount start finish
      if packetCount = 0 then none else some (start, finish, packetCount)
  | _, _ => none

/-- `CommitPendingFrame`. -/
def commitPendingFrame (s : FrameAssembly) (now : ℤ) (timestamp : BitVec 32)
    (frame : ReceivedFrame) (isKeyframe : Bool) (endSequenceNumber : BitVec 16)
    (requireExistingEntry : Bool) : FrameAssembly :=
  match s.pendingFrame? timestamp, requireExistingEntry with
  | none, true => s
  | pendingFrame, _ =>
      let arrivalTime := (pendingFrame.getD {}).arrivalTime
      s.setPendingFrame timestamp
        { frame := some frame
          isComplete := true
          arrivalTime := if arrivalTime ≠ 0 then arrivalTime else microsToMillis now
          isKeyframe
          lastSequenceNumber := some endSequenceNumber }

/-- `ClearFrameMarkers`. -/
def clearFrameMarkers (s : FrameAssembly) (timestamp : BitVec 32) : FrameAssembly :=
  { s with
    fuaStartSequenceNumbers := Function.update s.fuaStartSequenceNumbers timestamp none
    fuaEndSequenceNumbers := Function.update s.fuaEndSequenceNumbers timestamp none }

/-- Set the markers that the packet with this sequence number carries. -/
def setFrameMarkers (s : FrameAssembly) (timestamp : BitVec 32) (sequenceNumber : BitVec 16)
    (isStart isEnd : Bool) : FrameAssembly :=
  { s with
    fuaStartSequenceNumbers :=
      if isStart then Function.update s.fuaStartSequenceNumbers timestamp (some sequenceNumber)
      else s.fuaStartSequenceNumbers
    fuaEndSequenceNumbers :=
      if isEnd then Function.update s.fuaEndSequenceNumbers timestamp (some sequenceNumber)
      else s.fuaEndSequenceNumbers }

/-- `CreateReceivedFrame`. -/
def createReceivedFrame (s : FrameAssembly) (now : ℤ) (data : List Byte) (timestamp : BitVec 32) :
    FrameAssembly × ReceivedFrame :=
  let captured := s.rtpTimestampMapper.toLocalTimeUs timestamp now
  ({ s with rtpTimestampMapper := captured.1 },
    { data, receivedTimestampUs := now, capturedTimestampUs := captured.2 })

/-- The range of a timestamp when all its packets are in the buffer. -/
def completeRange {P : Type} (s : FrameAssembly) (frameList : BitVec 16 → Option P)
    (timestampOf : P → BitVec 32) (timestamp : BitVec 32) :
    Option (BitVec 16 × BitVec 16 × Nat) :=
  match s.getFrameSequenceRange timestamp with
  | none => none
  | some (start, finish, packetCount) =>
      if Slots.covered frameList (fun p => timestampOf p = timestamp) start packetCount then
        some (start, finish, packetCount)
      else none

/-! ## H.264 -/

/-- `PopCompleteFrame`. -/
def popCompleteFrame (s : FrameAssembly) (now : ℤ) (startSeq endSeq : BitVec 16)
    (packetCount : Nat) (timestamp : BitVec 32) : FrameAssembly :=
  let header :=
    match s.incompleteH264FrameList startSeq with
    | some first => [fuIndicatorByte first.forbiddenBit first.nalReferenceIdc first.fuNalUnitType]
    | none => []
  let data := header ++
    Slots.gather s.incompleteH264FrameList (fun p => p.payload) startSeq packetCount
  let s :=
    { s with
      incompleteH264FrameList := Slots.vacate s.incompleteH264FrameList startSeq packetCount }
  let created := s.createReceivedFrame now data timestamp
  (created.1.clearFrameMarkers timestamp).commitPendingFrame now timestamp created.2
    (isH264KeyFrame created.2.data) endSeq true

/-- `CheckIsH264FrameCompleted`. -/
def checkIsH264FrameCompleted (s : FrameAssembly) (now : ℤ) (p : RtpPacketH264)
    (isStart isEnd : Bool) : FrameAssembly :=
  let s := s.trackPendingFramePacket now p.timestamp p.sequenceNumber
  let s := s.setFrameMarkers p.timestamp p.sequenceNumber isStart isEnd
  match s.completeRange s.incompleteH264FrameList (fun q => q.timestamp) p.timestamp with
  | none => s
  | some (startSeq, endSeq, packetCount) =>
      s.popCompleteFrame now startSeq endSeq packetCount p.timestamp

/-- `ProcessH264RtpPacket`. -/
def processH264RtpPacket (s : FrameAssembly) (now : ℤ) (p : RtpPacketH264) : FrameAssembly :=
  if p.nalUnitType = nalUnitTypeNalu then
    let created := s.createReceivedFrame now
      (fuIndicatorByte p.forbiddenBit p.nalReferenceIdc p.nalUnitType :: p.payload) p.timestamp
    created.1.commitPendingFrame now p.timestamp created.2 (isH264KeyFrame created.2.data)
      p.sequenceNumber false
  else if p.nalUnitType = nalUnitTypeFuA then
    let s :=
      { s with
        incompleteH264FrameList :=
          Function.update s.incompleteH264FrameList p.sequenceNumber (some p) }
    s.checkIsH264FrameCompleted now p p.fuStart p.fuEnd
  else s

/-! ## AV1 -/

/-- The end of `CheckIsAv1FrameCompleted`, when the frame is complete. -/
def popCompleteAv1Frame (s : FrameAssembly) (now : ℤ) (startSeq endSeq : BitVec 16)
    (packetCount : Nat) (timestamp : BitVec 32) : FrameAssembly :=
  let isKeyframe := (s.incompleteAv1FrameList startSeq).any RtpPacketAv1.isKeyFrame
  let data := Slots.gather s.incompleteAv1FrameList (fun p => p.payload) startSeq packetCount
  let s :=
    { s with
      incompleteAv1FrameList := Slots.vacate s.incompleteAv1FrameList startSeq packetCount }
  let created := s.createReceivedFrame now data timestamp
  (created.1.clearFrameMarkers timestamp).commitPendingFrame now timestamp created.2 isKeyframe
    endSeq true

/-- `CheckIsAv1FrameCompleted`. -/
def checkIsAv1FrameCompleted (s : FrameAssembly) (now : ℤ) (p : RtpPacketAv1) : FrameAssembly :=
  let s := s.trackPendingFramePacket now p.timestamp p.sequenceNumber
  let s := s.setFrameMarkers p.timestamp p.sequenceNumber p.av1FrameStart p.av1FrameEnd
  match s.completeRange s.incompleteAv1FrameList (fun q => q.timestamp) p.timestamp with
  | none => s
  | some (startSeq, endSeq, packetCount) =>
      s.popCompleteAv1Frame now startSeq endSeq packetCount p.timestamp

/-- `ProcessAv1RtpPacket`. -/
def processAv1RtpPacket (s : FrameAssembly) (now : ℤ) (p : RtpPacketAv1) : FrameAssembly :=
  let s :=
    { s with
      incompleteAv1FrameList :=
        Function.update s.incompleteAv1FrameList p.sequenceNumber (some p) }
  s.checkIsAv1FrameCompleted now p

/-! ## Giving frames up -/

/-- `DropFrameAssembly`. -/
def dropFrameAssembly (s : FrameAssembly) (timestamp : BitVec 32) : FrameAssembly :=
  let s := s.clearFrameMarkers timestamp
  { s with
    incompleteH264FrameList := fun x =>
      (s.incompleteH264FrameList x).filter fun p => p.timestamp ≠ timestamp
    incompleteAv1FrameList := fun x =>
      (s.incompleteAv1FrameList x).filter fun p => p.timestamp ≠ timestamp }

/-! ## The pending frames -/

/-- The comparator identifies no two timestamps. -/
theorem rtp_timestamp_connected (x y : BitVec 32) (hxy : rtpTimestampLess x y = false)
    (hyx : rtpTimestampLess y x = false) : x = y := by
  by_contra hne
  have hne' : y ≠ x := fun h => hne h.symm
  simp only [rtpTimestampLess, hne, hne', ne_eq, not_false_eq_true, decide_true, Bool.true_and]
    at hxy hyx
  exact hne (eq_of_not_ahead_of (by decide) x y hyx hxy)

theorem rtp_timestamp_irrefl (x : BitVec 32) : rtpTimestampLess x x = false := by
  simp [rtpTimestampLess]

section Pending

variable {s : FrameAssembly} {timestamp : BitVec 32} {pendingFrame : PendingFrame}
  {entry : BitVec 32 × PendingFrame}

/-- What is found under a timestamp is one of its pending frames. -/
theorem mem_of_pending_frame (h : s.pendingFrame? timestamp = some pendingFrame) :
    (timestamp, pendingFrame) ∈ s.pendingFrames := by
  obtain ⟨⟨key, found⟩, hfind, rfl⟩ := Option.map_eq_some_iff.mp h
  obtain ⟨hmem, hkey⟩ := OrderedMap.find_some rtp_timestamp_connected hfind
  simp only at hkey
  exact hkey ▸ hmem

theorem pending_frame_set_self :
    (s.setPendingFrame timestamp pendingFrame).pendingFrame? timestamp = some pendingFrame := by
  have hfind : OrderedMap.find? rtpTimestampLess Prod.fst timestamp
      (s.setPendingFrame timestamp pendingFrame).pendingFrames = some (timestamp, pendingFrame) :=
    OrderedMap.find_insert_or_assign_self rtp_timestamp_irrefl (timestamp, pendingFrame)
      s.pendingFrames
  rw [pendingFrame?, hfind]
  rfl

theorem mem_set_self :
    (timestamp, pendingFrame) ∈ (s.setPendingFrame timestamp pendingFrame).pendingFrames :=
  OrderedMap.mem_insert_or_assign_self _ _

theorem mem_of_mem_set (h : entry ∈ (s.setPendingFrame timestamp pendingFrame).pendingFrames) :
    entry = (timestamp, pendingFrame) ∨ entry ∈ s.pendingFrames :=
  OrderedMap.mem_of_mem_insert_or_assign h

/-- Storing a pending frame replaces at most the one that was found under its timestamp. -/
theorem mem_set_or (h : entry ∈ s.pendingFrames) :
    entry ∈ (s.setPendingFrame timestamp pendingFrame).pendingFrames ∨
      (entry.1 = timestamp ∧ s.pendingFrame? timestamp = some entry.2) := by
  rcases OrderedMap.mem_insert_or_assign_or (a := (timestamp, pendingFrame)) h with hmem | hfind
  · exact Or.inl hmem
  · refine Or.inr ⟨(OrderedMap.find_some rtp_timestamp_connected hfind).2, ?_⟩
    simp only [pendingFrame?]
    simp only at hfind
    rw [hfind]
    rfl

end Pending

/-- Another packet changes neither the bytes of a pending frame nor whether it is complete. -/
theorem tracked_frame_eq (now : ℤ) (sequenceNumber : BitVec 16) (pendingFrame : PendingFrame) :
    ∃ arrivalTime last, trackedFrame now sequenceNumber pendingFrame =
      { pendingFrame with arrivalTime := arrivalTime, lastSequenceNumber := some last } := by
  obtain ⟨frame, isComplete, arrivalTime, isKeyframe, last, escalated, requested⟩ := pendingFrame
  cases last with
  | none =>
      simp only [trackedFrame]
      split_ifs <;> exact ⟨_, _, rfl⟩
  | some last =>
      simp only [trackedFrame]
      split_ifs <;> simp only <;> split_ifs <;> exact ⟨_, _, rfl⟩

/-- A committed frame is stored as complete, unless an entry is required and missing. -/
theorem commit_pending_frame_eq (s : FrameAssembly) (now : ℤ) (timestamp : BitVec 32)
    (frame : ReceivedFrame) (isKeyframe : Bool) (endSequenceNumber : BitVec 16)
    (requireExistingEntry : Bool) :
    (s.pendingFrame? timestamp = none ∧ requireExistingEntry = true ∧
      s.commitPendingFrame now timestamp frame isKeyframe endSequenceNumber requireExistingEntry =
        s) ∨
    ∃ arrivalTime,
      s.commitPendingFrame now timestamp frame isKeyframe endSequenceNumber requireExistingEntry =
        s.setPendingFrame timestamp
          { frame := some frame
            isComplete := true
            arrivalTime
            isKeyframe
            lastSequenceNumber := some endSequenceNumber } := by
  unfold commitPendingFrame
  split
  · rename_i hnone
    exact Or.inl ⟨hnone, rfl, rfl⟩
  · exact Or.inr ⟨_, rfl⟩

/-- A commit changes the pending frames only. -/
theorem commit_pending_only (s : FrameAssembly) (now : ℤ) (timestamp : BitVec 32)
    (frame : ReceivedFrame) (isKeyframe : Bool) (endSequenceNumber : BitVec 16)
    (requireExistingEntry : Bool) :
    ∃ pendingFrames,
      s.commitPendingFrame now timestamp frame isKeyframe endSequenceNumber requireExistingEntry =
        { s with pendingFrames } := by
  rcases commit_pending_frame_eq s now timestamp frame isKeyframe endSequenceNumber
    requireExistingEntry with ⟨-, -, hsame⟩ | ⟨arrivalTime, hset⟩
  · exact ⟨s.pendingFrames, hsame⟩
  · exact ⟨_, hset⟩

end FrameAssembly

end MiniRtc
