import MiniRtc.Foundation.Run
import MiniRtc.Qos.PacerSteps

/-!
# What may be sent

While the pacer is paused it only keeps the connection alive, and while it is congested it only does
that, and lets audio, retransmissions and probes through. `send_rules` says so for every call of
every run. What is sent from a congested queue is what was next in it, so this rests on the order of
the lanes.
-/

namespace MiniRtc.PacingController

variable {Env Content : Type*} {world : PacerEnvironment Env Content}
  {s s' : PacingController Env Content}

/-- Audio and retransmissions. -/
def Unpaced (p : PacedPacket (PacketBody Content)) : Prop :=
  p.packetType = .audio ∨ p.packetType = .retransmission

/-- Two packets are sent for the same probe cluster, or for none. -/
def SameCluster (a b : PacedPacketInfo) : Prop :=
  a = { b with probeClusterBytesSent := a.probeClusterBytesSent }

/-- Padding after half a second without a packet. -/
def Keepalive (s : PacingController Env Content) (now : ℤ)
    (sent : PacedPacket (PacketBody Content) × PacedPacketInfo) : Prop :=
  sent.1.packetType = .padding ∧ sent.2 = {} ∧ s.seenFirstPacket = true ∧
    kCongestedPacketInterval ≤ now - s.lastSendTime

/-- A packet that does not break through congestion, and a probe of a cluster that is pending. -/
def Permitted (congested : Bool) (clusters : List ProbeCluster)
    (sent : PacedPacket (PacketBody Content) × PacedPacketInfo) : Prop :=
  (congested = true → Unpaced sent.1 ∨ sent.2.probeClusterId ≠ kNotAProbe) ∧
    (sent.2.probeClusterId ≠ kNotAProbe →
      ∃ cluster ∈ clusters, SameCluster sent.2 (BitrateProber.ProbeCluster.info cluster))

/-- What a call hands over. -/
def Obeys (world : PacerEnvironment Env Content) (s : PacingController Env Content) :
    PacingCall Content → Prop
  | .processPackets => ∀ sent ∈ (step world s .processPackets).2,
      Keepalive s (s.currentTime world).1 sent ∨
        s.paused = false ∧ Permitted s.congested s.prober.clusters sent
  | call => (step world s call).2 = []

/-! ## The next packet of the queue -/

/-- A packet that is not paced is next when there is one. -/
theorem unpaced_popped (hs : s.packetQueue.Sound) (hunpaced : s.nextUnpacedSendTime ≠ none)
    {q : QueuedPacket Content} {time : ℤ} {queue : TimedPacketQueue Content}
    (hpop : s.packetQueue.pop = some (q, time, queue)) : Unpaced (ofQueued q) := by
  have hpopped := hs.popped hpop
  have hlevel : ∀ type, s.packetQueue.leadingPacketEnqueueTime type ≠ none →
      q.priorityLevel ≤ getPriorityForType type none := by
    intro type htime
    unfold TimedPacketQueue.leadingPacketEnqueueTime TimedPacketQueue.leadingEnqueueTime at htime
    split at htime
    · exact absurd rfl htime
    · rename_i ssrc others hstreams
      by_contra hlt
      have hlane := hpopped.priority ssrc _ (not_le.mp hlt)
      rw [hlane] at htime
      exact absurd rfl htime
  have hfirst : q.priorityLevel ≤ 1 := by
    unfold nextUnpacedSendTime at hunpaced
    by_cases haudio : s.packetQueue.leadingPacketEnqueueTime .audio = none
    · rw [haudio, Option.none_or] at hunpaced
      exact hlevel .retransmission hunpaced
    · exact (hlevel .audio haudio).trans (by decide)
  show q.packetType = _ ∨ q.packetType = _
  unfold PacedPacket.priorityLevel at hfirst
  cases htype : q.packetType with
  | audio => exact Or.inl rfl
  | retransmission => exact Or.inr rfl
  | video =>
      rw [htype] at hfirst
      exact absurd hfirst (by decide)
  | forwardErrorCorrection =>
      rw [htype] at hfirst
      exact absurd hfirst (by decide)
  | padding =>
      rw [htype] at hfirst
      exact absurd hfirst (by decide)

/-! ## The loop -/

/-- What the loop has sent is permitted. -/
structure Sends (l l' : SendLoop Env Content) : Prop where
  congested : l'.controller.congested = l.controller.congested
  info : SameCluster l'.pacingInfo l.pacingInfo
  sound : l'.controller.packetQueue.Sound
  sent : ∃ new, l'.controller.packetSender.sent = l.controller.packetSender.sent ++ new ∧
    ∀ x ∈ new, SameCluster x.2 l.pacingInfo ∧ (l.controller.congested = true →
      Unpaced x.1 ∨ x.2.probeClusterId ≠ kNotAProbe)

namespace SameCluster

theorem trans {a b c : PacedPacketInfo} (h : SameCluster a b) (h' : SameCluster b c) :
    SameCluster a c := by
  unfold SameCluster at h h' ⊢
  rw [h'] at h
  exact h

theorem id_eq {a b : PacedPacketInfo} (h : SameCluster a b) :
    a.probeClusterId = b.probeClusterId := by
  unfold SameCluster at h
  rw [h]

end SameCluster

theorem Sends.trans {l l' l'' : SendLoop Env Content} (h : Sends l l') (h' : Sends l' l'') :
    Sends l l'' := by
  obtain ⟨new, hsent, hnew⟩ := h.sent
  obtain ⟨new', hsent', hnew'⟩ := h'.sent
  refine ⟨h'.congested.trans h.congested, h'.info.trans h.info, h'.sound, new ++ new', ?_, ?_⟩
  · rw [hsent', hsent, List.append_assoc]
  · intro x hx
    rcases List.mem_append.mp hx with hin | hin
    · exact hnew x hin
    · obtain ⟨hinfo, hcongested⟩ := hnew' x hin
      exact ⟨hinfo.trans h.info, fun hc => hcongested (h.congested.trans hc)⟩

/-- A step that sends nothing. -/
theorem Sends.of_untouched {l : SendLoop Env Content} (h : Untouched l.controller s)
    (hs : l.controller.packetQueue.Sound) (targetSendTime : ℤ) :
    Sends l { l with controller := s, targetSendTime } := by
  refine ⟨h.congested, rfl, h.sound hs, [], ?_, fun x hx => by cases hx⟩
  rw [List.append_nil]
  exact congrArg PacketSender.sent h.sender

variable (world) in
/-- Enqueueing packets changes nothing that the rules look at. -/
theorem enqueue_all (packets : List (PacedPacket (PacketBody Content)))
    (s : PacingController Env Content) :
    (packets.foldl (enqueuePacket world) s).packetSender = s.packetSender ∧
      (packets.foldl (enqueuePacket world) s).congested = s.congested := by
  induction packets generalizing s with
  | nil => exact ⟨rfl, rfl⟩
  | cons p rest ih =>
      have hone := enqueued world s p
      obtain ⟨hsender, hcongested⟩ := ih (s.enqueuePacket world p)
      exact ⟨hsender.trans hone.sender, hcongested.trans hone.congested⟩

/-- Filling the queue with padding sends nothing. -/
theorem Sends.of_padding {l : SendLoop Env Content} {size : ℤ}
    {padding : List (PacedPacket (PacketBody Content))} (hs : l.controller.packetQueue.Sound)
    (hmade : l.controller.generatePadding world size = (padding, s)) :
    Sends l { l with controller := padding.foldl (enqueuePacket world) s } := by
  obtain ⟨hsender, hcongested⟩ := enqueue_all world padding s
  have hqueue := queue_padding hmade
  have hsame : s.packetSender.sent = l.controller.packetSender.sent ∧
      s.congested = l.controller.congested := by
    unfold generatePadding at hmade
    obtain ⟨-, rfl⟩ := Prod.mk.inj hmade
    exact ⟨rfl, rfl⟩
  refine ⟨hcongested.trans hsame.2, rfl, ?_, [], ?_, fun x hx => by cases hx⟩
  · exact sound_enqueue_all padding (hqueue ▸ hs)
  · rw [List.append_nil]
    exact (congrArg PacketSender.sent hsender).trans hsame.1

/-- The loop sends a packet that is pending. -/
theorem Sends.of_pending {l : SendLoop Env Content} {now : ℤ} {isProbing : Bool}
    {p : PacedPacket (PacketBody Content)} (hs : l.controller.packetQueue.Sound)
    (hpending : l.controller.getPendingPacket world l.pacingInfo l.targetSendTime now =
      (some p, s)) : Sends l (sendPending { l with controller := s } p now isProbing) := by
  have hbefore : s.packetSender.sent = l.controller.packetSender.sent ∧
      s.congested = l.controller.congested ∧ (l.controller.congested = true →
        Unpaced p ∨ l.pacingInfo.probeClusterId ≠ kNotAProbe) := by
    rcases pending_cases hpending with
      ⟨hprobe, rest, hmade⟩ | ⟨s₀, q, time, queue, hquiet, hpop, rfl, rfl, hreason⟩
    · unfold generatePadding at hmade
      obtain ⟨-, rfl⟩ := Prod.mk.inj hmade
      exact ⟨rfl, rfl, fun _ => Or.inr hprobe⟩
    · refine ⟨congrArg PacketSender.sent hquiet.sender, hquiet.congested, fun hcongested => ?_⟩
      rcases hreason with hunpaced | hprobe | hfree
      · exact Or.inl (unpaced_popped hs hunpaced hpop)
      · exact Or.inr hprobe
      · rw [hfree] at hcongested
        cases hcongested
  obtain ⟨hsent, hcongested, hreason⟩ := hbefore
  have hquiet := Quiet.packet_sent (s.sendPacket p l.pacingInfo) p.packetType (s.packetSize p) now
  have hpopped := sound_pending hpending hs
  have hsound : (s.sendPacket p l.pacingInfo).packetQueue.Sound := hpopped
  refine ⟨hquiet.congested.trans hcongested, ?_, hquiet.sound hsound,
    [({ p with sequenceNumber := s.packetSender.ssrcSeq p.ssrc }, l.pacingInfo)], ?_, ?_⟩
  · unfold sendPending SameCluster
    simp only
    split_ifs
    · rfl
    · rfl
  · refine (congrArg PacketSender.sent hquiet.sender).trans ?_
    rw [← hsent]
    rfl
  · intro x hx
    rw [List.mem_singleton.mp hx]
    exact ⟨rfl, hreason⟩

variable (world) in
/-- All that the loop sends is permitted. -/
theorem sends_loop (now recommendedProbeSize : ℤ) (isProbing : Bool) (iterations : ℕ)
    (l : SendLoop Env Content) (hs : l.controller.packetQueue.Sound) :
    Sends l (sendLoop world now recommendedProbeSize isProbing iterations l).1 := by
  refine send_loop_rel (R := fun l l' => l.controller.packetQueue.Sound → Sends l l')
    ?_ ?_ ?_ ?_ iterations l hs hs
  · intro l l' l'' h h' hs
    exact (h hs).trans (h' (h hs).sound)
  · intro l s targetSendTime hquiet hs
    exact Sends.of_untouched hquiet.toUntouched hs targetSendTime
  · intro l size padding s _ _ hmade _ hs
    exact Sends.of_padding hs hmade
  · intro l p s _ hpending hs
    exact Sends.of_pending hs hpending

/-! ## `ProcessPackets` -/

/-- The packet information of the loop is that of a pending cluster, or of none. -/
theorem info_of_cluster (now : ℤ) :
    (s.clusterNow now).2 = {} ∨ ∃ cluster ∈ s.prober.clusters,
      (s.clusterNow now).2 = BitrateProber.ProbeCluster.info cluster := by
  unfold clusterNow
  simp only
  split_ifs
  · unfold BitrateProber.currentCluster
    split
    · exact Or.inl rfl
    · rename_i cluster rest hclusters
      split_ifs
      · exact Or.inl rfl
      · split
        · exact Or.inl rfl
        · rename_i next later
          refine Or.inr ⟨next, ?_, rfl⟩
          rw [hclusters]
          exact List.mem_cons_of_mem _ List.mem_cons_self
      · refine Or.inr ⟨cluster, ?_, rfl⟩
        rw [hclusters]
        exact List.mem_cons_self
  · exact Or.inl rfl

variable (world) in
/-- What is due is permitted. -/
theorem due_permitted (targetSendTime now : ℤ) (hs : s.packetQueue.Sound) :
    (s.sendDue world targetSendTime now).packetQueue.Sound ∧
      ∃ new, (s.sendDue world targetSendTime now).packetSender.sent =
          s.packetSender.sent ++ new ∧
        ∀ x ∈ new, Permitted s.congested s.prober.clusters x := by
  obtain ⟨start, recommendedProbeSize, iterations, hstart, -, l, stopped, hloop, hend⟩ :=
    due_cases world s targetSendTime now
  have hsends := sends_loop world now recommendedProbeSize
    (decide ((s.clusterNow now).2.probeClusterId ≠ kNotAProbe)) iterations
    { controller := start, pacingInfo := (s.clusterNow now).2, targetSendTime }
    (hstart.sound hs)
  rw [hloop] at hsends
  obtain ⟨new, hsent, hnew⟩ := hsends.sent
  have hafter : Untouched l.controller (s.sendDue world targetSendTime now) := by
    rcases hend with ⟨-, hquiet⟩ | ⟨-, hfinish⟩
    · exact hquiet.toUntouched
    · rw [hfinish]
      exact untouched_finish l _
  refine ⟨hafter.sound hsends.sound, new, ?_, fun x hx => ?_⟩
  · rw [hafter.sender, hsent]
    show start.packetSender.sent ++ new = _
    rw [hstart.sender]
  · obtain ⟨hinfo, hcongested⟩ := hnew x hx
    refine ⟨fun hc => hcongested (hstart.congested.trans hc), fun hprobe => ?_⟩
    rcases info_of_cluster (s := s) now with hnone | ⟨cluster, hcluster, heq⟩
    · have hid := hinfo.id_eq
      rw [hnone] at hid
      exact absurd hid hprobe
    · exact ⟨cluster, hcluster, heq ▸ hinfo⟩

/-- Sending packets without a cluster touches nothing else. -/
theorem send_all (packets : List (PacedPacket (PacketBody Content)))
    (s : PacingController Env Content) :
    let s' := packets.foldl (fun s p => s.sendPacket p {}) s
    s'.packetQueue = s.packetQueue ∧ s'.congested = s.congested ∧ s'.paused = s.paused ∧
      s'.prober = s.prober ∧ ∃ new, s'.packetSender.sent = s.packetSender.sent ++ new ∧
        ∀ x ∈ new, x.2 = {} ∧ ∃ p ∈ packets, x.1.packetType = p.packetType := by
  induction packets generalizing s with
  | nil => exact ⟨rfl, rfl, rfl, rfl, [], (List.append_nil _).symm, fun x hx => by cases hx⟩
  | cons p rest ih =>
      obtain ⟨hqueue, hcongested, hpaused, hprober, new, hsent, hnew⟩ := ih (s.sendPacket p {})
      refine ⟨hqueue, hcongested, hpaused, hprober,
        ({ p with sequenceNumber := s.packetSender.ssrcSeq p.ssrc }, {}) :: new, hsent.trans ?_,
        fun x hx => ?_⟩
      · exact List.append_assoc _ [_] new
      · rcases List.mem_cons.mp hx with rfl | hin
        · exact ⟨rfl, p, List.mem_cons_self, rfl⟩
        · obtain ⟨hinfo, q, hq, htype⟩ := hnew x hin
          exact ⟨hinfo, q, List.mem_cons_of_mem _ hq, htype⟩

/-- Numbered padding is padding. -/
theorem type_of_padding {transportSeq : ℤ} {raw : List (PacedPacket (PacketBody Content))} :
    ∀ p ∈ numberPadding transportSeq raw, p.packetType = .padding := by
  induction raw generalizing transportSeq with
  | nil => exact fun p hp => by cases hp
  | cons first rest ih =>
      intro p hp
      rcases List.mem_cons.mp hp with rfl | hin
      · rfl
      · exact ih p hin

variable (world) in
/-- What the keep-alive sends. -/
theorem keepalive_sent (now : ℤ) (hs : s.packetQueue.Sound) :
    (s.sendKeepalive world now).packetQueue.Sound ∧
      (s.sendKeepalive world now).congested = s.congested ∧
      (s.sendKeepalive world now).paused = s.paused ∧
      (s.sendKeepalive world now).prober.clusters = s.prober.clusters ∧
      ∃ new, (s.sendKeepalive world now).packetSender.sent = s.packetSender.sent ++ new ∧
        ∀ x ∈ new, x.1.packetType = .padding ∧ x.2 = {} ∧ s.seenFirstPacket = true := by
  unfold sendKeepalive
  split_ifs with hseen
  · generalize hmade : s.generatePadding world 1 = made
    obtain ⟨padding, s'⟩ := made
    have hqueue := queue_padding hmade
    unfold generatePadding at hmade
    obtain ⟨rfl, rfl⟩ := Prod.mk.inj hmade
    obtain ⟨hsame, hcongested, hpaused, hprober, new, hsent, hnew⟩ :=
      send_all (numberPadding s.packetSender.transportSeq (world.generatePadding 1 s.env).1)
        (s.generatePadding world 1).2
    have hquiet := fun size => Quiet.packet_sent
      ((numberPadding s.packetSender.transportSeq (world.generatePadding 1 s.env).1).foldl
        (fun s p => s.sendPacket p {}) (s.generatePadding world 1).2) .padding size now
    refine ⟨(hquiet _).sound (hsame ▸ hs), (hquiet _).congested.trans hcongested,
      (hquiet _).paused.trans hpaused, (hquiet _).clusters.trans (congrArg _ hprober), new, ?_, ?_⟩
    · exact (congrArg PacketSender.sent (hquiet _).sender).trans hsent
    · intro x hx
      obtain ⟨hinfo, p, hp, htype⟩ := hnew x hx
      exact ⟨htype.trans (type_of_padding p hp), hinfo, hseen⟩
  · have hquiet := Quiet.packet_sent s .padding 0 now
    refine ⟨hquiet.sound hs, hquiet.congested, hquiet.paused, hquiet.clusters, [], ?_,
      fun x hx => by cases hx⟩
    rw [List.append_nil]
    exact congrArg PacketSender.sent hquiet.sender

/-- Expired clusters are the first ones. -/
theorem clusters_removed (p : BitrateProber) (now : Timestamp) {cluster : ProbeCluster}
    (h : cluster ∈ (p.removeExpiredClusters now).1.clusters) : cluster ∈ p.clusters := by
  have hmem : ∀ x, x ∈ p.clusters.dropWhile (fun cluster =>
      decide (BitrateProber.Expired now cluster)) → x ∈ p.clusters := fun x hx =>
    (List.dropWhile_sublist _).subset hx
  unfold BitrateProber.removeExpiredClusters at h
  simp only at h
  split_ifs at h
  · exact h
  · exact hmem _ h
  · exact hmem _ h
  · exact hmem _ h
  · exact hmem _ h

/-- `ProcessPackets` keeps the queue sound and obeys the rules. -/
theorem obeys_process (hs : s.packetQueue.Sound) :
    (s.processPackets world).packetQueue.Sound ∧ Obeys world s .processPackets := by
  obtain ⟨first, hfirst, hlast, hprober, alive, halive, hend⟩ := process_cases world s
  set now := (s.currentTime world).1
  have hclusters : ∀ cluster ∈ first.prober.clusters, cluster ∈ s.prober.clusters := by
    intro cluster hin
    rw [hprober.1] at hin
    exact clusters_removed s.prober (.micros now) hin
  -- Before the loop only the keep-alive is sent.
  have hbefore : alive.packetQueue.Sound ∧ alive.congested = s.congested ∧
      alive.paused = s.paused ∧ alive.prober.clusters = first.prober.clusters ∧
      ∃ new, alive.packetSender.sent = s.packetSender.sent ++ new ∧
        ∀ x ∈ new, Keepalive s now x := by
    rcases halive with rfl | ⟨hsilent, rfl⟩
    · refine ⟨hfirst.sound hs, hfirst.congested, hfirst.paused, rfl, [], ?_,
        fun x hx => by cases hx⟩
      rw [List.append_nil]
      exact congrArg PacketSender.sent hfirst.sender
    · obtain ⟨hsound, hcongested, hpaused, hsame, new, hsent, hnew⟩ :=
        keepalive_sent world now (hfirst.sound hs)
      refine ⟨hsound, hcongested.trans hfirst.congested, hpaused.trans hfirst.paused, hsame, new,
        ?_, fun x hx => ?_⟩
      · rw [hsent, hfirst.sender]
      · obtain ⟨htype, hinfo, hseen⟩ := hnew x hx
        refine ⟨htype, hinfo, hfirst.seen ▸ hseen, ?_⟩
        have hinterval : kCongestedPacketInterval ≤ now - first.lastSendTime :=
          of_decide_eq_true hsilent
        rwa [hlast] at hinterval
  obtain ⟨hsound, hcongested, hpaused, hsame, new, hsent, hnew⟩ := hbefore
  have hrest : (s.processPackets world).packetQueue.Sound ∧
      ∃ due, (s.processPackets world).packetSender.sent = s.packetSender.sent ++ new ++ due ∧
        ∀ x ∈ due, s.paused = false ∧ Permitted s.congested s.prober.clusters x := by
    rcases hend with hquiet | ⟨hrunning, -, hdue⟩
    · refine ⟨hquiet.sound hsound, [], ?_, fun x hx => by cases hx⟩
      rw [List.append_nil, hquiet.sender, hsent]
    · have hready := Quiet.next_send_time alive world
      obtain ⟨hsound', due, hdueSent, hpermitted⟩ :=
        due_permitted world (alive.nextSendTime world).1 now (hready.sound hsound)
      rw [hdue]
      refine ⟨hsound', due, ?_, fun x hx => ⟨hpaused ▸ hrunning, ?_⟩⟩
      · rw [hdueSent, hready.sender, hsent]
      · obtain ⟨hcong, hprobe⟩ := hpermitted x hx
        rw [hready.congested, hcongested] at hcong
        refine ⟨hcong, fun hne => ?_⟩
        obtain ⟨cluster, hin, heq⟩ := hprobe hne
        rw [hready.clusters, hsame] at hin
        exact ⟨cluster, hclusters cluster hin, heq⟩
  obtain ⟨hfinal, due, hall, hpermitted⟩ := hrest
  refine ⟨hfinal, fun x hx => ?_⟩
  have hdrop : (step world s .processPackets).2 = new ++ due := by
    show (s.processPackets world).packetSender.sent.drop _ = _
    rw [hall, List.append_assoc, List.drop_left]
  rw [hdrop] at hx
  rcases List.mem_append.mp hx with hin | hin
  · exact Or.inl (hnew x hin)
  · exact Or.inr (hpermitted x hin)

/-- The other calls hand over nothing. -/
theorem nothing_sent {call : PacingCall Content}
    (hsent : (s.act world call).packetSender.sent = s.packetSender.sent) :
    (step world s call).2 = [] := by
  show (s.act world call).packetSender.sent.drop _ = []
  rw [hsent, List.drop_length]

/-- Every call keeps the queue sound and obeys the rules. -/
theorem obeys_act (hs : s.packetQueue.Sound) (call : PacingCall Content) :
    (s.act world call).packetQueue.Sound ∧ Obeys world s call := by
  cases call with
  | createProbeClusters => exact ⟨hs, nothing_sent rfl⟩
  | pause => exact ⟨hs.pause _ _, nothing_sent rfl⟩
  | resume => exact ⟨hs.pause _ _, nothing_sent rfl⟩
  | setCongested congested =>
      have hquiet := fun now => Quiet.elapse (s.currentTime world).2 now
      show (s.setCongested world congested).packetQueue.Sound ∧ (step _ _ _).2 = []
      by_cases hcleared : (s.congested && !congested) = true
      · have heq : s.setCongested world congested =
            { (s.currentTime world).2.elapse (s.currentTime world).1 with
              congested
              probingSendFailure := false } := by
          unfold setCongested
          rw [if_pos hcleared]
        refine ⟨heq ▸ (hquiet _).sound hs, nothing_sent ?_⟩
        show (s.setCongested world congested).packetSender.sent = _
        rw [heq]
        exact congrArg PacketSender.sent (hquiet _).sender
      · have heq : s.setCongested world congested = { s with congested } := by
          unfold setCongested
          rw [if_neg hcleared]
        refine ⟨heq ▸ hs, nothing_sent ?_⟩
        show (s.setCongested world congested).packetSender.sent = _
        rw [heq]
  | setCircuitBreakerThreshold => exact ⟨hs, nothing_sent rfl⟩
  | removePacketsForSsrc ssrc => exact ⟨hs.remove ssrc, nothing_sent rfl⟩
  | setProbingEnabled => exact ⟨hs, nothing_sent rfl⟩
  | abortProbing => exact ⟨hs, nothing_sent rfl⟩
  | setPacingRates pacingRate paddingRate =>
      have hquiet := fun s : PacingController Env Content => Quiet.media_rate s
      exact ⟨(hquiet _ _).sound hs, nothing_sent (congrArg PacketSender.sent (hquiet _ _).sender)⟩
  | enqueuePacket p =>
      have hone := fun (s : PacingController Env Content) p => enqueued world s p
      have hsender : (s.enqueuePacketOnQueue world p).packetSender =
          { s.packetSender with transportSeq := s.packetSender.transportSeq + 1 } :=
        (hone _ _).sender
      refine ⟨(hone _ _).sound hs, nothing_sent ?_⟩
      show (s.enqueuePacketOnQueue world p).packetSender.sent = _
      rw [hsender]
  | setAccountForAudioPackets => exact ⟨hs, nothing_sent rfl⟩
  | setIncludeOverhead => exact ⟨hs, nothing_sent rfl⟩
  | setTransportOverhead => exact ⟨hs, nothing_sent rfl⟩
  | setSendBurstInterval => exact ⟨hs, nothing_sent rfl⟩
  | setAllowProbeWithoutMediaPacket => exact ⟨hs, nothing_sent rfl⟩
  | setQueueTimeLimit => exact ⟨hs, nothing_sent rfl⟩
  | nextSendTime => exact ⟨hs, nothing_sent rfl⟩
  | processPackets => exact obeys_process hs

/-- In every run of the pacing controller, nothing but keep-alives is sent while it is paused, and
nothing but keep-alives, audio, retransmissions and probes of pending clusters while it is
congested. -/
theorem send_rules (world : PacerEnvironment Env Content) (env : Env)
    (calls : List (PacingCall Content)) :
    Run.Along (act world) (Obeys world) (new world env) calls :=
  Run.along_of_invariant (I := fun s => s.packetQueue.Sound)
    (fun _ call hs => (obeys_act hs call).1) (fun _ call hs => (obeys_act hs call).2)
    (TimedPacketQueue.sound_new _) calls

end MiniRtc.PacingController
