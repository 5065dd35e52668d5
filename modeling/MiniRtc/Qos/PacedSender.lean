import MiniRtc.Qos.PacketQueue

/-!
# The pacer

`PacedSender` of `paced_sender.cpp` with the parts of `PacingController` that put packets into the
queue and take them out. The transport sequence number is given to a packet when it is enqueued or
generated as padding, and the RTP sequence number when it is sent.

When packets are sent depends on budgets, probes and timers, so every order of the calls below is
allowed. One call sends one packet at most.
-/

namespace MiniRtc

/-- `PacedSender` with its `PacingController`. -/
structure PacedSender (Content : Type*) where
  packetQueue : PrioritizedPacketQueue Content := {}
  transportSeq : ℤ := 0
  ssrcSeq : BitVec 32 → BitVec 16 := fun _ => 1
  seenFirstPacket : Bool := false

/-- What happens to the pacer. -/
inductive PacerCall (Content : Type*) where
  | enqueuePackets (packets : List (PacedPacket Content))
  | removePacketsForSsrc (ssrc : BitVec 32)
  /-- `ProcessPackets` gets the next packet from the queue and sends it. -/
  | sendNext
  /-- `ProcessPackets` sends the keep-alive that was generated for it. -/
  | sendKeepalive (padding : PacedPacket Content)
  /-- `GetPendingPacket` opens a probe with a padding packet. -/
  | sendProbePadding (padding : PacedPacket Content)
  /-- `ProcessPackets` fills an empty queue with padding. -/
  | queuePadding (padding : List (PacedPacket Content))

namespace PacedSender

variable {Content : Type*}

/-- Whether `PacingController::EnqueuePacket` drops what is queued for the stream of a packet. -/
def flushes (s : PacedSender Content) (p : PacedPacket Content) : Bool :=
  decide (p.packetType = .video) && p.isKeyFrame && p.isFirstPacketOfFrame &&
    !s.packetQueue.hasKeyframePackets p.ssrc

/-- `PacingController::EnqueuePacket` with key frame flushing. -/
def enqueuePacket (s : PacedSender Content) (p : PacedPacket Content) : PacedSender Content :=
  { s with
    packetQueue :=
      (if s.flushes p then s.packetQueue.removePacketsForSsrc p.ssrc else s.packetQueue).push p
    seenFirstPacket := true }

/-- The packet with the next transport sequence number. -/
def numbered (s : PacedSender Content) (p : PacedPacket Content) : PacedPacket Content :=
  { p with transportSequenceNumber := some s.transportSeq }

/-- `EnqueuePacketOnQueue`. -/
def enqueuePacketOnQueue (s : PacedSender Content) (p : PacedPacket Content) :
    PacedSender Content :=
  { s with transportSeq := s.transportSeq + 1 }.enqueuePacket (s.numbered p)

/-- One packet of `GeneratePadding`, which the padding packetizer made. -/
def generatePadding (s : PacedSender Content) (padding : PacedPacket Content) :
    PacedSender Content × PacedPacket Content :=
  ({ s with transportSeq := s.transportSeq + 1 },
    s.numbered { padding with packetType := .padding })

/-- `GeneratePadding` and the enqueueing of its packet. -/
def enqueuePadding (s : PacedSender Content) (padding : PacedPacket Content) :
    PacedSender Content :=
  (s.generatePadding padding).1.enqueuePacket (s.generatePadding padding).2

/-- `SendPacket` up to the call of `on_sent_packet_func_`. -/
def sendPacket (s : PacedSender Content) (p : PacedPacket Content) :
    PacedSender Content × Option (PacedPacket Content) :=
  ({ s with ssrcSeq := Function.update s.ssrcSeq p.ssrc (s.ssrcSeq p.ssrc + 1) },
    some { p with sequenceNumber := s.ssrcSeq p.ssrc })

/-- A call, and the packet that it hands to `on_sent_packet_func_`. -/
def step (s : PacedSender Content) :
    PacerCall Content → PacedSender Content × Option (PacedPacket Content)
  | .enqueuePackets packets => (packets.foldl enqueuePacketOnQueue s, none)
  | .removePacketsForSsrc ssrc =>
      ({ s with packetQueue := s.packetQueue.removePacketsForSsrc ssrc }, none)
  | .sendNext =>
      match s.packetQueue.pop with
      | none => (s, none)
      | some (p, packetQueue) => { s with packetQueue }.sendPacket p
  | .sendKeepalive padding =>
      if s.seenFirstPacket then
        (s.generatePadding padding).1.sendPacket (s.generatePadding padding).2
      else (s, none)
  | .sendProbePadding padding =>
      (s.generatePadding padding).1.sendPacket (s.generatePadding padding).2
  | .queuePadding padding =>
      if s.packetQueue.empty then (padding.foldl enqueuePadding s, none) else (s, none)

/-! ## What is queued -/

/-- A packet is in the queue. -/
def Queued (s : PacedSender Content) (p : PacedPacket Content) : Prop :=
  ∃ ssrc level, p ∈ s.packetQueue.lane ssrc level

/-- Putting a packet into the queue leaves at most the queued packets and this one. -/
theorem queued_enqueue {s : PacedSender Content} {p x : PacedPacket Content}
    (h : (s.enqueuePacket p).Queued x) : s.Queued x ∨ x = p := by
  obtain ⟨ssrc, level, hx⟩ := h
  have hkept : ∀ y ∈ (if s.flushes p then s.packetQueue.removePacketsForSsrc p.ssrc
      else s.packetQueue).lane ssrc level, s.Queued y := by
    intro y hy
    split_ifs at hy
    · rw [PrioritizedPacketQueue.lane_remove] at hy
      split_ifs at hy
      · cases hy
      · exact ⟨ssrc, level, hy⟩
    · exact ⟨ssrc, level, hy⟩
  have hpushed : x ∈ ((if s.flushes p then s.packetQueue.removePacketsForSsrc p.ssrc
      else s.packetQueue).push p).lane ssrc level := hx
  generalize (if s.flushes p then s.packetQueue.removePacketsForSsrc p.ssrc
      else s.packetQueue) = queue at hkept hpushed
  rw [PrioritizedPacketQueue.lane_push] at hpushed
  split_ifs at hpushed
  · rcases List.mem_append.mp hpushed with hold | hnew
    · exact Or.inl (hkept x hold)
    · exact Or.inr (List.mem_singleton.mp hnew)
  · exact Or.inl (hkept x hpushed)

/-- The content of a lane after packets are put into the queue: nothing is reordered. -/
theorem contents_enqueue (s : PacedSender Content) (p : PacedPacket Content) (ssrc : BitVec 32)
    (level : Fin 5) :
    (((s.enqueuePacket p).packetQueue.lane ssrc level).map fun q => q.content).Sublist
      ((s.packetQueue.lane ssrc level).map (fun q => q.content) ++
        if p.ssrc = ssrc ∧ p.priorityLevel = level then [p.content] else []) := by
  have hkept : ∀ queue : PrioritizedPacketQueue Content,
      (if s.flushes p then s.packetQueue.removePacketsForSsrc p.ssrc else s.packetQueue) = queue →
      (queue.lane ssrc level).Sublist (s.packetQueue.lane ssrc level) := by
    rintro queue rfl
    split_ifs
    · rw [PrioritizedPacketQueue.lane_remove]
      split_ifs
      · exact List.nil_sublist _
      · exact List.Sublist.refl _
    · exact List.Sublist.refl _
  unfold enqueuePacket
  simp only
  generalize hqueue : (if s.flushes p then s.packetQueue.removePacketsForSsrc p.ssrc
      else s.packetQueue) = queue
  have hsublist := (hkept queue hqueue).map fun q => q.content
  rw [PrioritizedPacketQueue.lane_push]
  by_cases hown : p.ssrc = ssrc ∧ p.priorityLevel = level
  · rw [if_pos ⟨hown.1.symm, hown.2.symm⟩, if_pos hown, List.map_append]
    exact hsublist.append_right _
  · rw [if_neg fun hboth => hown ⟨hboth.1.symm, hboth.2.symm⟩, if_neg hown, List.append_nil]
    exact hsublist

/-- The content of a lane after a list of packets was put into the queue. -/
theorem contents_enqueue_all {enqueue : PacedSender Content → PacedPacket Content →
      PacedSender Content} (levelOf : PacedPacket Content → Fin 5) (ssrc : BitVec 32) (level : Fin 5)
    (hone : ∀ s p, (((enqueue s p).packetQueue.lane ssrc level).map fun q => q.content).Sublist
      ((s.packetQueue.lane ssrc level).map (fun q => q.content) ++
        if p.ssrc = ssrc ∧ levelOf p = level then [p.content] else []))
    (packets : List (PacedPacket Content)) (s : PacedSender Content) :
    (((packets.foldl enqueue s).packetQueue.lane ssrc level).map fun q => q.content).Sublist
      ((s.packetQueue.lane ssrc level).map (fun q => q.content) ++
        (packets.filter fun p => decide (p.ssrc = ssrc ∧ levelOf p = level)).map
          fun q => q.content) := by
  induction packets generalizing s with
  | nil => simp
  | cons p rest ih =>
      refine (ih (enqueue s p)).trans ?_
      rw [List.filter_cons]
      refine ((hone s p).append_right _).trans ?_
      rw [List.append_assoc]
      refine List.Sublist.append_left ?_ _
      by_cases hown : p.ssrc = ssrc ∧ levelOf p = level
      · rw [if_pos hown, if_pos (decide_eq_true hown)]
        exact List.Sublist.refl _
      · rw [if_neg hown, if_neg (by simpa using hown)]
        exact List.Sublist.refl _

/-- The queue stays well-formed when a packet is put into it. -/
theorem filed_enqueue {s : PacedSender Content} (h : s.packetQueue.Filed)
    (p : PacedPacket Content) : (s.enqueuePacket p).packetQueue.Filed := by
  unfold enqueuePacket
  simp only
  split_ifs
  · exact PrioritizedPacketQueue.filed_push (PrioritizedPacketQueue.filed_remove h _) _
  · exact PrioritizedPacketQueue.filed_push h _

/-- The queue stays well-formed. -/
theorem filed_step {s : PacedSender Content} (h : s.packetQueue.Filed)
    (call : PacerCall Content) : (s.step call).1.packetQueue.Filed := by
  cases call with
  | enqueuePackets packets =>
      exact List.foldlRecOn packets _ (motive := fun s : PacedSender Content => s.packetQueue.Filed) h
        fun s hs p _ => filed_enqueue hs _
  | removePacketsForSsrc ssrc => exact PrioritizedPacketQueue.filed_remove h ssrc
  | sendNext =>
      unfold step
      simp only
      split
      · exact h
      · rename_i p packetQueue hpop
        exact (PrioritizedPacketQueue.popped_of_pop h hpop).filed
  | sendKeepalive padding =>
      unfold step
      simp only
      split_ifs
      · exact h
      · exact h
  | sendProbePadding padding => exact h
  | queuePadding padding =>
      unfold step
      simp only
      split_ifs
      · exact List.foldlRecOn padding _ (motive := fun s : PacedSender Content => s.packetQueue.Filed) h
          fun s hs p _ => filed_enqueue hs _
      · exact h

end PacedSender

end MiniRtc
