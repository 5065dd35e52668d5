import MiniRtc.Qos.SendRules

/-!
# Probes among the packets

What `ProcessPackets` hands over for a cluster is one probe, with the bytes of its packets. The loop
counts these bytes, and tells the prober at most of its incoming packets.
-/

namespace MiniRtc.PacingController

variable {Env Content : Type*} {world : PacerEnvironment Env Content}
  {s s' : PacingController Env Content} {now : ℤ}

/-! ## The probe among packets -/

/-- The probe among the packets that a call has handed over: those of a cluster, unless they have no
bytes. Its time is that of the call. -/
def probeOf (s : PacingController Env Content) (now : ℤ)
    (sent : List (PacedPacket (PacketBody Content) × PacedPacketInfo)) : Option SentProbe :=
  match sent.filter fun x => decide (x.2.probeClusterId ≠ kNotAProbe) with
  | [] => none
  | first :: rest =>
      let size := ((first :: rest).map fun x => s.packetSize x.1).sum
      if size = 0 then none else some ⟨first.2.probeClusterId, now, size⟩

theorem probe_of_media (s : PacingController Env Content) (now : ℤ)
    {sent : List (PacedPacket (PacketBody Content) × PacedPacketInfo)}
    (h : ∀ x ∈ sent, x.2.probeClusterId = kNotAProbe) : s.probeOf now sent = none := by
  have hnone : sent.filter (fun x => decide (x.2.probeClusterId ≠ kNotAProbe)) = [] :=
    List.filter_eq_nil_iff.mpr fun x hx => by simp [h x hx]
  unfold probeOf
  rw [hnone]

/-- Packets that are no probes do not count. -/
theorem probe_of_append (s : PacingController Env Content) (now : ℤ)
    {media sent : List (PacedPacket (PacketBody Content) × PacedPacketInfo)}
    (h : ∀ x ∈ media, x.2.probeClusterId = kNotAProbe) :
    s.probeOf now (media ++ sent) = s.probeOf now sent := by
  have hnone : media.filter (fun x => decide (x.2.probeClusterId ≠ kNotAProbe)) = [] :=
    List.filter_eq_nil_iff.mpr fun x hx => by simp [h x hx]
  unfold probeOf
  rw [List.filter_append, hnone, List.nil_append]

/-- The packets of one cluster are one probe. -/
theorem probe_of_cluster (s : PacingController Env Content) (now : ℤ) {cluster : ℤ}
    (hcluster : cluster ≠ kNotAProbe)
    {sent : List (PacedPacket (PacketBody Content) × PacedPacketInfo)}
    (h : ∀ x ∈ sent, x.2.probeClusterId = cluster) :
    s.probeOf now sent =
      if (sent.map fun x => s.packetSize x.1).sum = 0 then none
      else some ⟨cluster, now, (sent.map fun x => s.packetSize x.1).sum⟩ := by
  have hall : sent.filter (fun x => decide (x.2.probeClusterId ≠ kNotAProbe)) = sent :=
    List.filter_eq_self.mpr fun x hx => by simp [h x hx, hcluster]
  unfold probeOf
  rw [hall]
  cases sent with
  | nil => rfl
  | cons first rest =>
      simp only
      rw [h first List.mem_cons_self]

/-- The bytes of a packet depend on the overhead only. -/
theorem packet_size_congr (h : s'.includeOverhead = s.includeOverhead ∧
    s'.transportOverheadPerPacket = s.transportOverheadPerPacket)
    (p : PacedPacket (PacketBody Content)) : s'.packetSize p = s.packetSize p := by
  unfold packetSize
  rw [h.1, h.2]

theorem probe_of_congr (h : s'.includeOverhead = s.includeOverhead ∧
    s'.transportOverheadPerPacket = s.transportOverheadPerPacket) (now : ℤ)
    (sent : List (PacedPacket (PacketBody Content) × PacedPacketInfo)) :
    s'.probeOf now sent = s.probeOf now sent := by
  have hsize : (fun x : PacedPacket (PacketBody Content) × PacedPacketInfo => s'.packetSize x.1) =
      fun x => s.packetSize x.1 := funext fun x => packet_size_congr h x.1
  unfold probeOf
  rw [hsize]

/-! ## Steps beside the probes -/

/-- A step that tells the prober at most of packets, and leaves their sizes alone. -/
structure Steady (s s' : PacingController Env Content) : Prop extends Onward s s' where
  overhead : s'.includeOverhead = s.includeOverhead ∧
    s'.transportOverheadPerPacket = s.transportOverheadPerPacket

/-- A step that leaves the prober and the clock as they are too. -/
structure SameProbing (s s' : PacingController Env Content) : Prop where
  prober : s'.prober = s.prober
  clock : s'.lastTimestamp = s.lastTimestamp
  failure : s'.probingSendFailure = s.probingSendFailure
  overhead : s'.includeOverhead = s.includeOverhead ∧
    s'.transportOverheadPerPacket = s.transportOverheadPerPacket

variable {s'' : PacingController Env Content}

theorem Steady.refl (s : PacingController Env Content) : Steady s s where
  toOnward := Onward.refl s
  overhead := ⟨rfl, rfl⟩

theorem Steady.trans (h : Steady s s') (h' : Steady s' s'') : Steady s s'' where
  toOnward := h.toOnward.trans h'.toOnward
  overhead := ⟨h'.overhead.1.trans h.overhead.1, h'.overhead.2.trans h.overhead.2⟩

theorem Quiet.steady (h : Quiet s s') : Steady s s' where
  toOnward := h.toOnward
  overhead := h.overhead

theorem SameProbing.trans (h : SameProbing s s') (h' : SameProbing s' s'') :
    SameProbing s s'' where
  prober := h'.prober.trans h.prober
  clock := h'.clock.trans h.clock
  failure := h'.failure.trans h.failure
  overhead := ⟨h'.overhead.1.trans h.overhead.1, h'.overhead.2.trans h.overhead.2⟩

theorem SameProbing.steady (h : SameProbing s s') : Steady s s' where
  toOnward := Onward.of_prober h.prober (le_of_eq h.clock.symm) h.failure
  overhead := h.overhead

variable (world) in
/-- Enqueueing packets tells the prober of them. -/
theorem steady_enqueue_all (packets : List (PacedPacket (PacketBody Content)))
    (s : PacingController Env Content) : Steady s (packets.foldl (enqueuePacket world) s) := by
  induction packets generalizing s with
  | nil => exact Steady.refl s
  | cons p rest ih =>
      have hone := enqueued world s p
      exact Steady.trans ⟨hone.onward, hone.overhead⟩ (ih (s.enqueuePacket world p))

/-- Making padding hands over nothing and leaves the prober alone. -/
theorem same_padding {size : ℤ} {padding : List (PacedPacket (PacketBody Content))}
    (h : s.generatePadding world size = (padding, s')) :
    SameProbing s s' ∧ s'.packetSender.sent = s.packetSender.sent := by
  unfold generatePadding at h
  obtain ⟨-, rfl⟩ := Prod.mk.inj h
  exact ⟨⟨rfl, rfl, rfl, rfl, rfl⟩, rfl⟩

/-- Handing packets over leaves the prober alone. -/
theorem same_send_all (pacingInfo : PacedPacketInfo)
    (packets : List (PacedPacket (PacketBody Content))) (s : PacingController Env Content) :
    SameProbing s (packets.foldl (fun s p => s.sendPacket p pacingInfo) s) := by
  induction packets generalizing s with
  | nil => exact ⟨rfl, rfl, rfl, rfl, rfl⟩
  | cons p rest ih =>
      have hone : SameProbing s (s.sendPacket p pacingInfo) := ⟨rfl, rfl, rfl, rfl, rfl⟩
      exact hone.trans (ih (s.sendPacket p pacingInfo))

/-- Counting a packet that was sent leaves the prober alone. -/
theorem same_packet_sent (s : PacingController Env Content) (packetType : RtpPacketMediaType)
    (packetSize sendTime : ℤ) : SameProbing s (s.onPacketSent packetType packetSize sendTime) := by
  unfold onPacketSent accountSent
  split_ifs
  · exact ⟨rfl, rfl, rfl, rfl, rfl⟩
  · exact ⟨rfl, rfl, rfl, rfl, rfl⟩
  · exact ⟨rfl, rfl, rfl, rfl, rfl⟩
  · exact ⟨rfl, rfl, rfl, rfl, rfl⟩

variable (world) in
/-- The keep-alive reads no clock and leaves the prober alone. -/
theorem same_keepalive (now : ℤ) : SameProbing s (s.sendKeepalive world now) := by
  unfold sendKeepalive
  split_ifs
  · generalize hmade : s.generatePadding world 1 = made
    obtain ⟨padding, s'⟩ := made
    obtain ⟨hpadding, -⟩ := same_padding hmade
    exact (hpadding.trans (same_send_all _ padding s')).trans (same_packet_sent _ _ _ now)
  · exact same_packet_sent s .padding 0 now

/-! ## What the loop hands over -/

/-- What the loop hands over belongs to its cluster, and its bytes are counted. -/
structure Batch (l l' : SendLoop Env Content) : Prop where
  onward : Onward l.controller l'.controller
  overhead : l'.controller.includeOverhead = l.controller.includeOverhead ∧
    l'.controller.transportOverheadPerPacket = l.controller.transportOverheadPerPacket
  info : l'.pacingInfo.probeClusterId = l.pacingInfo.probeClusterId
  sent : ∃ new, l'.controller.packetSender.sent = l.controller.packetSender.sent ++ new ∧
    (∀ x ∈ new, x.2.probeClusterId = l.pacingInfo.probeClusterId) ∧
    l'.dataSent = l.dataSent + (new.map fun x => l.controller.packetSize x.1).sum

theorem Batch.steady {l l' : SendLoop Env Content} (h : Batch l l') :
    Steady l.controller l'.controller where
  toOnward := h.onward
  overhead := h.overhead

theorem Batch.trans {l l' l'' : SendLoop Env Content} (h : Batch l l') (h' : Batch l' l'') :
    Batch l l'' := by
  obtain ⟨new, hsent, hids, hsize⟩ := h.sent
  obtain ⟨new', hsent', hids', hsize'⟩ := h'.sent
  have hsame : (fun x : PacedPacket (PacketBody Content) × PacedPacketInfo =>
      l'.controller.packetSize x.1) = fun x => l.controller.packetSize x.1 :=
    funext fun x => packet_size_congr h.overhead x.1
  have hsteady := h.steady.trans h'.steady
  refine ⟨hsteady.toOnward, hsteady.overhead, h'.info.trans h.info, new ++ new', ?_, ?_, ?_⟩
  · rw [hsent', hsent, List.append_assoc]
  · intro x hx
    rcases List.mem_append.mp hx with hin | hin
    · exact hids x hin
    · exact (hids' x hin).trans h.info
  · rw [hsize', hsize, hsame, List.map_append, List.sum_append, add_assoc]

/-- A step that sends nothing. -/
theorem Batch.of_steady {l : SendLoop Env Content} (h : Steady l.controller s)
    (hsent : s.packetSender.sent = l.controller.packetSender.sent) (targetSendTime : ℤ) :
    Batch l { l with controller := s, targetSendTime } := by
  refine ⟨h.toOnward, h.overhead, rfl, [], ?_, fun x hx => (by cases hx), ?_⟩
  · rw [List.append_nil]
    exact hsent
  · show l.dataSent = l.dataSent + 0
    rw [add_zero]

/-- The loop hands over a pending packet. -/
theorem Batch.of_pending {l : SendLoop Env Content} {isProbing : Bool}
    {p : PacedPacket (PacketBody Content)}
    (hpending : l.controller.getPendingPacket world l.pacingInfo l.targetSendTime now =
      (some p, s)) : Batch l (sendPending { l with controller := s } p now isProbing) := by
  have hbefore : Steady l.controller s ∧
      s.packetSender.sent = l.controller.packetSender.sent := by
    rcases pending_cases hpending with
      ⟨-, rest, hmade⟩ | ⟨s₀, q, time, queue, hquiet, hpop, rfl, rfl, -⟩
    · obtain ⟨hsame, hsent⟩ := same_padding hmade
      exact ⟨hsame.steady, hsent⟩
    · have hpopped : SameProbing s₀ { s₀ with packetQueue := queue } := ⟨rfl, rfl, rfl, rfl, rfl⟩
      exact ⟨hquiet.steady.trans hpopped.steady, congrArg PacketSender.sent hquiet.sender⟩
  obtain ⟨hsteady, hsent⟩ := hbefore
  have hquiet := Quiet.packet_sent (s.sendPacket p l.pacingInfo) p.packetType (s.packetSize p) now
  have hsend : SameProbing s (s.sendPacket p l.pacingInfo) := ⟨rfl, rfl, rfl, rfl, rfl⟩
  have hafter := hsteady.trans (hsend.steady.trans hquiet.steady)
  refine ⟨hafter.toOnward, hafter.overhead, ?_,
    [({ p with sequenceNumber := s.packetSender.ssrcSeq p.ssrc }, l.pacingInfo)], ?_, ?_, ?_⟩
  · show (if isProbing then _ else l.pacingInfo : PacedPacketInfo).probeClusterId = _
    split_ifs
    · rfl
    · rfl
  · refine (congrArg PacketSender.sent hquiet.sender).trans ?_
    rw [← hsent]
    rfl
  · intro x hx
    rw [List.mem_singleton.mp hx]
  · show l.dataSent + s.packetSize p = l.dataSent + (l.controller.packetSize p + 0)
    rw [add_zero, packet_size_congr hsteady.overhead]

variable (world) in
/-- All that the loop hands over is one batch. -/
theorem batch_loop (now recommendedProbeSize : ℤ) (isProbing : Bool) (iterations : ℕ)
    (l : SendLoop Env Content) (hs : l.controller.packetQueue.Sound) :
    Batch l (sendLoop world now recommendedProbeSize isProbing iterations l).1 := by
  refine send_loop_rel (fun l l' l'' h h' => h.trans h') ?_ ?_ ?_ iterations l hs
  · intro l s targetSendTime hquiet
    exact Batch.of_steady hquiet.steady (congrArg PacketSender.sent hquiet.sender) targetSendTime
  · intro l size padding s _ _ hmade _
    obtain ⟨hsame, hsent⟩ := same_padding hmade
    have hsteady := hsame.steady.trans (steady_enqueue_all world padding s)
    refine Batch.of_steady hsteady ?_ l.targetSendTime
    exact (congrArg PacketSender.sent (enqueue_all world padding s).1).trans hsent
  · intro l p s _ hpending
    exact Batch.of_pending hpending

end MiniRtc.PacingController
