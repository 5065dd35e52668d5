import MiniRtc.Qos.ProbeBatches

/-!
# When probes are handed over

The prober says when the next probe is due, and `Follows` ties the prober of the pacer to a history of
its own. `call_reports` says for each call of the pacer that the prober is told of the probe that is
handed over, and that the probe is in time.

A probe is not always due then: `NextSendTime` wakes the pacer for the expiration of a cluster too, and
`ProcessPackets` may run up to a millisecond early. The cluster is not expired yet, and gets another
probe.
-/

namespace MiniRtc.PacingController

open ProberHistory

variable {Env Content : Type*} {world : PacerEnvironment Env Content}
  {s s' : PacingController Env Content} {now : ℤ}

/-! ## When probes are handed over -/

/-- The next probe is due, or the first cluster expires, within the margin of `ProcessPackets`. -/
def Soon (p : BitrateProber) (now : ℤ) : Prop :=
  p.nextProbeTime.Reached (now + kMaxEarlyProbeProcessing) ∨
    ∃ expiration, p.nextClusterExpiration = some expiration ∧
      expiration ≤ now + kMaxEarlyProbeProcessing

theorem reached_mono {time : Timestamp} {early late : ℤ} (h : time.Reached early)
    (hle : early ≤ late) : time.Reached late := by
  cases time with
  | minusInfinity => trivial
  | micros us => exact le_trans (show us ≤ early from h) hle
  | plusInfinity => exact h

theorem Soon.mono {p : BitrateProber} {later : ℤ} (h : Soon p now) (hle : now ≤ later) :
    Soon p later := by
  rcases h with hreached | ⟨expiration, hnext, hexpires⟩
  · exact Or.inl (reached_mono hreached (by omega))
  · exact Or.inr ⟨expiration, hnext, by omega⟩

/-- What is late is due. -/
theorem reached_of_late {p : BitrateProber} {cluster : ProbeCluster}
    (hdelay : 0 ≤ p.config.maxProbeDelay) (h : p.Late now cluster) :
    p.nextProbeTime.Reached (now + kMaxEarlyProbeProcessing) := by
  unfold BitrateProber.Late Timestamp.LongPast at h
  cases htime : p.nextProbeTime with
  | minusInfinity => trivial
  | micros due =>
      rw [htime] at h
      have hpast : max p.config.maxProbeDelay (cluster.minProbeDelta * 2) < now - due := h
      have hmargin : (0 : ℤ) ≤ kMaxEarlyProbeProcessing := by decide
      have hfirst := le_max_left p.config.maxProbeDelay (cluster.minProbeDelta * 2)
      show due ≤ now + kMaxEarlyProbeProcessing
      omega
  | plusInfinity =>
      rw [htime] at h
      exact h.elim

/-- A cluster that is probed is due soon. -/
def DueSoon (p : BitrateProber) (now : ℤ) : Prop :=
  p.isProbing = true → p.clusters ≠ [] → Soon p now

/-- A prober that may become active is due soon when it does. -/
theorem DueSoon.activate {p : BitrateProber} (h : DueSoon p now) (packetSize : ℤ) :
    DueSoon (p.maybeSetActiveState packetSize) now := by
  unfold BitrateProber.maybeSetActiveState
  split_ifs
  · exact fun _ _ => Or.inl trivial
  · exact h

theorem DueSoon.announced {p p' : BitrateProber} (h : DueSoon p now) (hp : Announced p p') :
    DueSoon p' now := by
  obtain ⟨sizes, rfl⟩ := hp
  exact List.foldlRecOn sizes _ (motive := fun p => DueSoon p now) h
    fun p hp size _ => hp.activate size

/-- A probe that was blocked is still due. -/
def BlockedSoon (s : PacingController Env Content) : Prop :=
  s.probingSendFailure = true → DueSoon s.prober s.lastTimestamp

theorem BlockedSoon.onward (h : s.BlockedSoon) (hs : Onward s s') : s'.BlockedSoon := by
  intro hfailure
  have hdue : DueSoon s.prober s'.lastTimestamp := fun hprobing hclusters =>
    (h (hs.failure hfailure) hprobing hclusters).mono hs.clock
  exact hdue.announced hs.prober

variable (world) in
/-- When `NextSendTime` has come, a probe is due soon. -/
theorem soon_of_next (hlive : s.prober.isProbing = true → s.prober.nextProbeTime ≠ .plusInfinity)
    (hblocked : s.BlockedSoon) (hpaused : s.paused = false)
    (hnext : s.prober.isProbing = true → (s.nextSendTime world).1 ≤
      s.lastTimestamp + kMaxEarlyProbeProcessing) : DueSoon s.prober s.lastTimestamp := by
  intro hprobing hclusters
  have hle := hnext hprobing
  -- Without a failure the planned time is that of the next probe.
  have hplanned : ∀ now, s.plannedSendTime now ≤ s.lastTimestamp + kMaxEarlyProbeProcessing →
      Soon s.prober s.lastTimestamp := by
    intro now hplan
    by_cases hfailure : s.probingSendFailure = true
    · exact hblocked hfailure hprobing hclusters
    · have hactive : s.prober.nextProbe = s.prober.nextProbeTime := by
        unfold BitrateProber.nextProbe
        rw [if_neg]
        rintro (hidle | hnone)
        · exact hidle (of_decide_eq_true hprobing)
        · exact hclusters hnone
      unfold plannedSendTime probeTime at hplan
      rw [hprobing, Bool.eq_false_iff.mpr hfailure, hactive, hpaused] at hplan
      cases htime : s.prober.nextProbeTime with
      | minusInfinity =>
          refine Or.inl ?_
          rw [htime]
          trivial
      | micros due =>
          refine Or.inl ?_
          rw [htime] at hplan ⊢
          exact hplan
      | plusInfinity => exact absurd htime (hlive hprobing)
  unfold nextSendTime at hle
  simp only at hle
  split at hle
  · exact hplanned _ hle
  · rename_i clusterExpiration hexpiration
    rcases min_le_iff.mp hle with hplan | hexpires
    · exact hplanned _ hplan
    · exact Or.inr ⟨clusterExpiration, hexpiration, hexpires⟩

/-- The cluster that is probed is the first one, and it is due soon. -/
theorem cluster_now_cases (hs : DueSoon s.prober now)
    (hdelay : 0 ≤ s.prober.config.maxProbeDelay)
    (hprobe : (s.clusterNow now).2.probeClusterId ≠ kNotAProbe) :
    s.prober.isProbing = true ∧
      (s.clusterNow now).1 = (s.prober.currentCluster now).1 ∧
      (s.clusterNow now).1.probingState = .active ∧
      ∃ front rest, (s.clusterNow now).1.clusters = front :: rest ∧
        clusterId front = (s.clusterNow now).2.probeClusterId ∧
        ((s.clusterNow now).1.nextProbeTime.Reached (now + kMaxEarlyProbeProcessing) ∨
          (s.clusterNow now).1 = s.prober ∧ Soon s.prober now) := by
  unfold clusterNow at hprobe ⊢
  simp only at hprobe ⊢
  split_ifs at hprobe ⊢ with hprobing
  · refine ⟨hprobing, rfl, ?_⟩
    have hactive : s.prober.probingState = .active := of_decide_eq_true hprobing
    unfold BitrateProber.currentCluster at hprobe ⊢
    split at hprobe
    · exact absurd rfl hprobe
    · rename_i cluster rest hclusters
      rw [if_neg (not_not.mpr hactive)] at hprobe ⊢
      by_cases hlate : s.prober.Late now cluster
      · -- The late cluster is dropped, and the time of the next probe stays that of the late one.
        rw [if_pos hlate] at hprobe ⊢
        cases rest with
        | nil => exact absurd rfl hprobe
        | cons next later =>
            have hreached := reached_of_late hdelay hlate
            exact ⟨hactive, next, later, rfl, rfl, Or.inl hreached⟩
      · rw [if_neg hlate] at hprobe ⊢
        refine ⟨hactive, cluster, rest, hclusters, rfl, Or.inr ⟨rfl, hs hprobing ?_⟩⟩
        rw [hclusters]
        exact List.cons_ne_nil _ _
  · exact absurd rfl hprobe

/-- Dropping a late cluster leaves the next one due. -/
theorem DueSoon.current {p : BitrateProber} {later : ℤ} (h : DueSoon p later) (hle : now ≤ later)
    (hdelay : 0 ≤ p.config.maxProbeDelay) : DueSoon (p.currentCluster now).1 later := by
  unfold BitrateProber.currentCluster
  split
  · exact h
  · rename_i cluster rest hclusters
    split_ifs with hidle hlate
    · exact h
    · split
      · exact fun hprobing => by cases hprobing
      · rename_i next further
        exact fun _ _ => Or.inl (reached_mono (reached_of_late hdelay hlate) (by omega))
    · exact h

/-- An active prober learns nothing from packets. -/
theorem announced_active {p p' : BitrateProber} (h : Announced p p')
    (hactive : p.probingState = .active) : p' = p := by
  obtain ⟨sizes, rfl⟩ := h
  refine List.foldlRecOn sizes _ (motive := fun p' => p' = p) rfl fun p' hp size _ => ?_
  rw [hp]
  unfold BitrateProber.onIncomingPacket BitrateProber.maybeSetActiveState
  rw [if_neg]
  unfold BitrateProber.readyToSetActiveState
  rw [hactive]
  split_ifs
  · exact not_false
  · exact not_false

/-! ## The prober in the pacer -/

/-- The history of a prober is that of the pacer's. -/
structure Follows (s : PacingController Env Content) (h : ProberHistory) : Prop where
  prober : h.prober = s.prober
  sound : h.Sound
  queue : s.packetQueue.Sound
  overhead : 0 ≤ s.transportOverheadPerPacket
  blocked : s.BlockedSoon

variable {h : ProberHistory}

theorem sound_announced (hs : h.Sound) {p : BitrateProber} (hp : Announced h.prober p) :
    ProberHistory.Sound { h with prober := p } := by
  obtain ⟨sizes, rfl⟩ := hp
  exact List.foldlRecOn sizes _ (motive := fun p => ProberHistory.Sound { h with prober := p }) hs
    fun p hp size _ => hp.moved (maybe_set_active_moved hp.enabled size)

theorem Follows.onward (hf : Follows s h) (ho : Onward s s') (hqueue : s'.packetQueue.Sound)
    (hoverhead : 0 ≤ s'.transportOverheadPerPacket) :
    Follows s' { h with prober := s'.prober } where
  prober := rfl
  sound := sound_announced hf.sound (hf.prober ▸ ho.prober)
  queue := hqueue
  overhead := hoverhead
  blocked := hf.blocked.onward ho

theorem Follows.steady (hf : Follows s h) (hs : Steady s s') (hqueue : s'.packetQueue.Sound) :
    Follows s' { h with prober := s'.prober } := by
  refine hf.onward hs.toOnward hqueue ?_
  rw [hs.overhead.2]
  exact hf.overhead

/-- A cluster is probed in time: the probes of the cluster keep to its rate and its distance, or it
is in the last millisecond before the cluster expires. -/
def Timely (created : List ProbeClusterConfig) (before : List SentProbe) (probe : SentProbe) :
    Prop :=
  ∃ clusterConfig ∈ created, clusterConfig.id = probe.cluster ∧
    (PacedAfter kMaxEarlyProbeProcessing clusterConfig (probesOf before probe.cluster) probe.time ∨
      ∃ requested, clusterConfig.atTime = .micros requested ∧
        probe.time < requested + kProbeClusterTimeout ∧
        requested + kProbeClusterTimeout ≤ probe.time + kMaxEarlyProbeProcessing)

/-- What a call hands over is what the prober is told, a little later. -/
structure Reported (h h' : ProberHistory) (probe : Option SentProbe) : Prop where
  created : h'.created = h.created
  sent : probe = none ∧ h'.sent = h.sent ∨
    ∃ p later, probe = some p ∧ p.time ≤ later ∧
      h'.sent = h.sent ++ [{ p with time := later }] ∧ Timely h.created h.sent p

/-- A report does not depend on the prober. -/
theorem Reported.with_prober {h' : ProberHistory} {probe : Option SentProbe}
    (hr : Reported h h' probe) (p q : BitrateProber) :
    Reported { h with prober := p } { h' with prober := q } probe :=
  ⟨hr.created, hr.sent⟩

/-- A probe that is due soon is timely. -/
theorem timely_of_soon (hs : h.Sound) {front : ProbeCluster}
    (hfront : front ∈ h.prober.clusters.head?)
    (hfresh : ¬ BitrateProber.Expired (.micros now) front ∨
      h.prober.nextProbeTime.Reached (now + kMaxEarlyProbeProcessing))
    (hsoon : Soon h.prober now) (size : ℤ) :
    Timely h.created h.sent ⟨clusterId front, now, size⟩ := by
  have hpaced : h.prober.nextProbeTime.Reached (now + kMaxEarlyProbeProcessing) →
      Timely h.created h.sent ⟨clusterId front, now, size⟩ := by
    intro hdue
    obtain ⟨c, hc, hid, hpaced⟩ := paced_of_due hs hfront hdue
    exact ⟨c, hc, hid, Or.inl hpaced⟩
  rcases hsoon with hdue | ⟨expiration, hnext, hexpires⟩
  · exact hpaced hdue
  · rcases hfresh with hfresh | hdue
    · obtain ⟨c, hc, hid, -, -, hrequested⟩ :=
        hs.configured front (List.mem_of_mem_head? hfront)
      unfold BitrateProber.nextClusterExpiration at hnext
      rw [hfront, Option.bind_some] at hnext
      cases htime : front.requestedAt with
      | micros requested =>
          rw [htime] at hnext hrequested
          have hexpiration : requested + kProbeClusterTimeout = expiration :=
            Option.some.inj hnext
          refine ⟨c, hc, hid.symm, Or.inr ⟨requested, hrequested.symm, ?_, ?_⟩⟩
          · by_contra hlate
            refine hfresh ?_
            unfold BitrateProber.Expired
            rw [htime]
            show Timestamp.micros _ ≤ Timestamp.micros _
            rw [Timestamp.micros_le_micros]
            change ¬ now < requested + kProbeClusterTimeout at hlate
            omega
          · show requested + kProbeClusterTimeout ≤ now + _
            rw [hexpiration]
            exact hexpires
      | minusInfinity =>
          rw [htime] at hnext
          cases hnext
      | plusInfinity =>
          rw [htime] at hnext
          cases hnext
    · exact hpaced hdue

/-! ## `ProcessPackets` -/

/-- Packets have no negative sizes. -/
theorem sizes_nonneg (h : 0 ≤ s.transportOverheadPerPacket)
    (sent : List (PacedPacket (PacketBody Content) × PacedPacketInfo)) :
    0 ≤ (sent.map fun x => s.packetSize x.1).sum := by
  refine List.sum_nonneg fun size hsize => ?_
  obtain ⟨x, -, rfl⟩ := List.mem_map.mp hsize
  show 0 ≤ s.packetSize x.1
  unfold packetSize
  split_ifs
  · omega
  · omega

/-- What the prober is told after the loop. -/
def told (world : PacerEnvironment Env Content) (l : SendLoop Env Content) (isProbing : Bool) :
    PacingController Env Content :=
  if isProbing then
    let s := { l.controller with probingSendFailure := decide (l.dataSent = 0) }
    if l.dataSent = 0 then s
    else
      let (now, s) := s.currentTime world
      { s with prober := s.prober.probeSent now l.dataSent l.packetsSent }
  else l.controller

theorem onward_finish (l : SendLoop Env Content) (isProbing : Bool) :
    Onward (told world l isProbing) (finishLoop world l isProbing) :=
  (Quiet.current_time (told world l isProbing) world).toOnward.trans
    (Quiet.media_rate _ ((told world l isProbing).currentTime world).1).toOnward

/-- The start of the loop follows the history. -/
theorem follows_start (hf : Follows s h) (hclock : now ≤ s.lastTimestamp)
    {start : PacingController Env Content} (hstart : Untouched s start)
    (hprober : start.prober = (s.clusterNow now).1) (htime : start.lastTimestamp = s.lastTimestamp)
    (hfailure : start.probingSendFailure = s.probingSendFailure) :
    Follows start { h with prober := start.prober } := by
  have hdelay : 0 ≤ s.prober.config.maxProbeDelay := hf.prober ▸ hf.sound.delay
  have hcluster : (s.clusterNow now).1 = (s.prober.currentCluster now).1 ∨
      (s.clusterNow now).1 = s.prober := by
    unfold clusterNow
    simp only
    split_ifs
    · exact Or.inl rfl
    · exact Or.inr rfl
  refine ⟨rfl, ?_, hstart.sound hf.queue, ?_, fun hblocked => ?_⟩
  · rw [hprober]
    rcases hcluster with hcurrent | hsame
    · rw [hcurrent, ← hf.prober]
      exact hf.sound.moved (current_cluster_moved hf.sound.enabled now)
    · rw [hsame, ← hf.prober]
      exact hf.sound
  · rw [hstart.overhead.2]
    exact hf.overhead
  · have hdue := hf.blocked (hfailure ▸ hblocked)
    rw [hprober, htime]
    rcases hcluster with hcurrent | hsame
    · rw [hcurrent]
      exact hdue.current hclock hdelay
    · rw [hsame]
      exact hdue

/-- What the prober is told of a cluster that is due soon is timely. -/
theorem told_reports {l : SendLoop Env Content}
    (hf : Follows l.controller { h with prober := l.controller.prober })
    (hclock : now ≤ l.controller.lastTimestamp) {front : ProbeCluster}
    (hfront : front ∈ l.controller.prober.clusters.head?)
    (hprobing : l.controller.prober.isProbing = true) (hsize : 0 ≤ l.dataSent)
    (hfresh : ¬ BitrateProber.Expired (.micros now) front ∨
      l.controller.prober.nextProbeTime.Reached (now + kMaxEarlyProbeProcessing))
    (hsoon : Soon l.controller.prober now) :
    ∃ h', Follows (told world l true) h' ∧
      Reported h h'
        (if l.dataSent = 0 then none else some ⟨clusterId front, now, l.dataSent⟩) := by
  by_cases hzero : l.dataSent = 0
  · -- Nothing was sent for the cluster, and it stays due.
    have htold : told world l true = { l.controller with probingSendFailure := true } := by
      unfold told
      simp only [hzero, if_true, decide_true]
    rw [htold, if_pos hzero]
    refine ⟨{ h with prober := l.controller.prober }, ?_, rfl, Or.inl ⟨rfl, rfl⟩⟩
    exact ⟨rfl, hf.sound, hf.queue, hf.overhead, fun _ _ _ => hsoon.mono hclock⟩
  · -- The prober is told of the packets, with a new reading of the clock.
    set told₀ := { l.controller with probingSendFailure := decide (l.dataSent = 0) }
    set sentAt := (told₀.currentTime world).1
    have htold : told world l true = { (told₀.currentTime world).2 with
        prober := l.controller.prober.probeSent sentAt l.dataSent l.packetsSent } := by
      unfold told
      rw [if_pos rfl]
      simp only
      rw [if_neg hzero]
      rfl
    have hsent : (ProberHistory.step { h with prober := l.controller.prober }
        (.probeSent sentAt l.dataSent l.packetsSent)).sent =
          h.sent ++ [⟨clusterId front, sentAt, l.dataSent⟩] := by
      show h.sent ++ (l.controller.prober.clusters.head?.toList.map _) = _
      rw [hfront]
      rfl
    rw [htold, if_neg hzero]
    refine ⟨ProberHistory.step { h with prober := l.controller.prober }
      (.probeSent sentAt l.dataSent l.packetsSent), ?_, rfl,
      Or.inr ⟨⟨clusterId front, now, l.dataSent⟩, sentAt, rfl, ?_, hsent, ?_⟩⟩
    · refine ⟨rfl, sound_probe hf.sound hprobing hsize, hf.queue, hf.overhead, fun hfailed => ?_⟩
      have hfailure : decide (l.dataSent = 0) = true := hfailed
      exact absurd (of_decide_eq_true hfailure) hzero
    · exact hclock.trans (le_max_right _ _)
    · exact timely_of_soon hf.sound hfront hfresh hsoon l.dataSent

variable (world) in
/-- When it is time to send, the probe that is handed over is timely, and the prober hears of it. -/
theorem due_reports (targetSendTime : ℤ) (hf : Follows s h) (hclock : now ≤ s.lastTimestamp)
    (hdue : DueSoon s.prober now)
    (hfresh : ∀ front ∈ s.prober.clusters.head?, ¬ BitrateProber.Expired (.micros now) front)
    (hran : (s.dueLoop world targetSendTime now).2 = false) :
    ∃ h' new, Follows (s.sendDue world targetSendTime now) h' ∧
      (s.sendDue world targetSendTime now).packetSender.sent = s.packetSender.sent ++ new ∧
      Reported h h' (s.probeOf now new) := by
  obtain ⟨start, recommendedProbeSize, iterations, hstart, ⟨hprober, htime, hfailure, hsame⟩, l,
    stopped, hloop, hend⟩ := due_cases world s targetSendTime now
  have hnot : stopped = false := by
    rw [← hsame, hloop] at hran
    exact hran
  have hfinish : s.sendDue world targetSendTime now =
      finishLoop world l (decide ((s.clusterNow now).2.probeClusterId ≠ kNotAProbe)) := by
    rcases hend with ⟨hstopped, -⟩ | ⟨-, hfinish⟩
    · rw [hnot] at hstopped
      cases hstopped
    · exact hfinish
  -- The loop hands over one batch.
  have hfollows := follows_start hf hclock hstart hprober htime hfailure
  have hbatch := batch_loop world now recommendedProbeSize
    (decide ((s.clusterNow now).2.probeClusterId ≠ kNotAProbe)) iterations
    { controller := start, pacingInfo := (s.clusterNow now).2, targetSendTime } hfollows.queue
  have hsends := sends_loop world now recommendedProbeSize
    (decide ((s.clusterNow now).2.probeClusterId ≠ kNotAProbe)) iterations
    { controller := start, pacingInfo := (s.clusterNow now).2, targetSendTime } hfollows.queue
  rw [hloop] at hbatch hsends
  obtain ⟨new, hsent, hids, hsize⟩ := hbatch.sent
  have hloopFollows : Follows l.controller { h with prober := l.controller.prober } :=
    hfollows.steady hbatch.steady hsends.sound
  have hafter : Untouched l.controller (s.sendDue world targetSendTime now) := by
    rw [hfinish]
    exact untouched_finish l _
  have hoverhead : 0 ≤ (s.sendDue world targetSendTime now).transportOverheadPerPacket := by
    rw [hafter.overhead.2]
    exact hloopFollows.overhead
  have hlast : (s.sendDue world targetSendTime now).packetSender.sent =
      s.packetSender.sent ++ new := by
    rw [hafter.sender, hsent, ← hstart.sender]
  by_cases hprobe : (s.clusterNow now).2.probeClusterId ≠ kNotAProbe
  · rw [decide_eq_true hprobe] at hfinish
    obtain ⟨-, -, hactive, front, rest, hclusters, hid, hsoon⟩ :=
      cluster_now_cases hdue (hf.prober ▸ hf.sound.delay) hprobe
    have hcluster : l.controller.prober = (s.clusterNow now).1 :=
      (announced_active hbatch.onward.prober (by rw [hprober]; exact hactive)).trans hprober
    have hnow : now ≤ l.controller.lastTimestamp :=
      (hclock.trans (le_of_eq htime.symm)).trans hbatch.onward.clock
    have hsum : (new.map fun x => start.packetSize x.1).sum = l.dataSent := by
      rw [hsize]
      exact (zero_add _).symm
    have hreport : s.probeOf now new = if l.dataSent = 0 then none
        else some ⟨clusterId front, now, l.dataSent⟩ := by
      rw [← probe_of_congr hstart.overhead, probe_of_cluster start now hprobe hids, hsum, hid]
    have hfresh' : ¬ BitrateProber.Expired (.micros now) front ∨
        l.controller.prober.nextProbeTime.Reached (now + kMaxEarlyProbeProcessing) := by
      rcases hsoon with hreached | ⟨heq, -⟩
      · rw [hcluster]
        exact Or.inr hreached
      · refine Or.inl (hfresh front ?_)
        rw [← heq, hclusters]
        rfl
    have hsoon' : Soon l.controller.prober now := by
      rw [hcluster]
      rcases hsoon with hreached | ⟨heq, hsoon⟩
      · exact Or.inl hreached
      · rw [heq]
        exact hsoon
    obtain ⟨h', htold, hreported⟩ := told_reports (h := h) hloopFollows hnow
      (by rw [hcluster, hclusters]; rfl) (by rw [hcluster]; exact decide_eq_true hactive)
      (hsum ▸ sizes_nonneg hfollows.overhead new) hfresh' hsoon'
    have honward : Onward (told world l true) (s.sendDue world targetSendTime now) := by
      rw [hfinish]
      exact onward_finish l true
    refine ⟨_, new, htold.onward honward (hafter.sound hsends.sound) hoverhead, hlast, ?_⟩
    rw [hreport]
    exact hreported.with_prober h.prober _
  · rw [decide_eq_false hprobe] at hfinish
    have honward : Onward l.controller (s.sendDue world targetSendTime now) := by
      rw [hfinish]
      exact onward_finish l false
    refine ⟨_, new, hloopFollows.onward honward (hafter.sound hsends.sound) hoverhead, hlast, rfl,
      Or.inl ⟨?_, rfl⟩⟩
    exact probe_of_media s now fun x hx => (hids x hx).trans (not_not.mp hprobe)

/-- Expired clusters are gone, and when there were none nothing changes. -/
theorem remove_expired_cases (p : BitrateProber) (now : Timestamp) :
    (∀ front ∈ (p.removeExpiredClusters now).1.clusters.head?,
        ¬ BitrateProber.Expired now front) ∧
      ((p.removeExpiredClusters now).2 = false → (p.removeExpiredClusters now).1 = p) := by
  have hkept : (p.removeExpiredClusters now).1.clusters = p.clusters.dropWhile
      fun cluster => decide (BitrateProber.Expired now cluster) := by
    unfold BitrateProber.removeExpiredClusters
    simp only
    split_ifs with hlength
    · exact ((List.dropWhile_suffix _).eq_of_length hlength).symm
    · rfl
    · rfl
    · rfl
    · rfl
  refine ⟨fun front hfront => ?_, fun hnone => ?_⟩
  · rw [hkept] at hfront
    have hhead := List.head?_dropWhile_not
      (fun cluster => decide (BitrateProber.Expired now cluster)) p.clusters
    rw [show (p.clusters.dropWhile fun cluster =>
      decide (BitrateProber.Expired now cluster)).head? = some front from hfront] at hhead
    exact of_decide_eq_false hhead
  · unfold BitrateProber.removeExpiredClusters at hnone ⊢
    simp only at hnone ⊢
    split_ifs at hnone ⊢
    rfl

/-- Removing the expired clusters keeps the history. -/
theorem follows_removed (hf : Follows s h) {first : PacingController Env Content}
    (hfirst : Untouched s first)
    (hprober : first.prober = (s.prober.removeExpiredClusters (.micros now)).1)
    (hclock : s.lastTimestamp ≤ first.lastTimestamp)
    (hfailure : first.probingSendFailure = true → s.probingSendFailure = true ∧
      (s.prober.removeExpiredClusters (.micros now)).2 = false) :
    Follows first { h with prober := first.prober } := by
  refine ⟨rfl, ?_, hfirst.sound hf.queue, ?_, fun hblocked => ?_⟩
  · rw [hprober, ← hf.prober]
    exact hf.sound.moved (remove_expired_moved hf.sound.enabled _)
  · rw [hfirst.overhead.2]
    exact hf.overhead
  · obtain ⟨hbefore, hnone⟩ := hfailure hblocked
    rw [hprober, (remove_expired_cases s.prober (.micros now)).2 hnone]
    exact fun hprobing hclusters => (hf.blocked hbefore hprobing hclusters).mono hclock

variable (world) in
/-- A keep-alive, if there is one, hands over packets without a cluster. -/
theorem keepalive_media {alive : PacingController Env Content} (hqueue : s.packetQueue.Sound)
    (halive : alive = s ∨ s.shouldSendKeepalive now ∧ alive = s.sendKeepalive world now) :
    SameProbing s alive ∧ alive.packetQueue.Sound ∧
      ∃ media, alive.packetSender.sent = s.packetSender.sent ++ media ∧
        ∀ x ∈ media, x.2.probeClusterId = kNotAProbe := by
  rcases halive with rfl | ⟨-, rfl⟩
  · refine ⟨⟨rfl, rfl, rfl, rfl, rfl⟩, hqueue, [], ?_, fun x hx => by cases hx⟩
    rw [List.append_nil]
  · obtain ⟨hsound, -, -, -, media, hsent, hmedia⟩ := keepalive_sent world now hqueue
    refine ⟨same_keepalive world now, hsound, media, hsent, fun x hx => ?_⟩
    rw [(hmedia x hx).2.1]
    rfl

variable (world) in
/-- A probe that `ProcessPackets` hands over is timely, and the prober is told of it. -/
theorem process_reports (hf : Follows s h) (hran : ¬ s.Interrupted world) :
    ∃ h', Follows (s.processPackets world) h' ∧
      Reported h h' (s.probeOf (s.currentTime world).1 (step world s .processPackets).2) := by
  obtain ⟨first, hfirst, -, ⟨hprober, hclock, hfailure⟩, alive, halive, hend⟩ :=
    process_cases world s
  set now := (s.currentTime world).1 with hnow
  have hlater : s.lastTimestamp ≤ now := le_max_right _ _
  have hfirstFollows : Follows first { h with prober := first.prober } :=
    follows_removed hf hfirst hprober (hlater.trans (le_of_eq hclock.symm)) hfailure
  obtain ⟨hkept, hsound, media, hsent, hmedia⟩ :=
    keepalive_media world hfirstFollows.queue halive
  have hfollows := hfirstFollows.steady hkept.steady hsound
  have hclockAlive : alive.lastTimestamp = now := hkept.clock.trans hclock
  rw [hfirst.sender] at hsent
  have hstep : ∀ new, (s.processPackets world).packetSender.sent = s.packetSender.sent ++ new →
      (step world s .processPackets).2 = new := by
    intro new hnew
    show (s.processPackets world).packetSender.sent.drop _ = new
    rw [hnew, List.drop_left]
  rcases hend with hquiet | ⟨hpaused, ⟨hawake, hreached⟩, hprocess⟩
  · refine ⟨_, hfollows.steady hquiet.steady (hquiet.sound hfollows.queue), rfl, Or.inl ⟨?_, rfl⟩⟩
    rw [hstep media (by rw [hquiet.sender, hsent])]
    exact probe_of_media s now hmedia
  · set ready := (alive.nextSendTime world).2 with hready
    have hnext := Quiet.next_send_time alive world
    have hran' : (ready.dueLoop world (alive.nextSendTime world).1 now).2 = false := by
      rw [Bool.eq_false_iff]
      intro hbroken
      refine hran ?_
      unfold Interrupted
      rw [← hawake]
      exact ⟨hpaused, hreached, hbroken⟩
    have hdue : DueSoon alive.prober now := by
      rw [← hclockAlive]
      refine soon_of_next world ?_ hfollows.blocked hpaused fun hprobing => ?_
      · exact fun hprobing => hfollows.sound.live (of_decide_eq_true hprobing)
      · rw [if_pos hprobing, ← hclockAlive] at hreached
        exact hreached
    have hfresh : ∀ front ∈ ready.prober.clusters.head?,
        ¬ BitrateProber.Expired (.micros now) front := by
      intro front hfront
      change front ∈ alive.prober.clusters.head? at hfront
      rw [hkept.prober, hprober] at hfront
      exact (remove_expired_cases s.prober (.micros now)).1 front hfront
    obtain ⟨h', new, hfinal, hall, hreported⟩ := due_reports world
      (alive.nextSendTime world).1 (hfollows.steady hnext.steady (hnext.sound hfollows.queue))
      (by rw [← hclockAlive]; exact hnext.clock) hdue hfresh hran'
    have hsize : ready.includeOverhead = s.includeOverhead ∧
        ready.transportOverheadPerPacket = s.transportOverheadPerPacket :=
      ⟨hnext.overhead.1.trans (hkept.overhead.1.trans hfirst.overhead.1),
        hnext.overhead.2.trans (hkept.overhead.2.trans hfirst.overhead.2)⟩
    refine ⟨h', hprocess ▸ hfinal, ?_⟩
    rw [hstep (media ++ new) (by rw [hprocess, hall, hnext.sender, hsent, List.append_assoc]),
      probe_of_append s now hmedia, ← probe_of_congr hsize]
    exact ⟨hreported.created, hreported.sent⟩

/-! ## The other calls -/

/-- A call with a real overhead that leaves probing enabled and is not interrupted. Clusters come
from the probe controller only. -/
def LegalCall (world : PacerEnvironment Env Content) (s : PacingController Env Content) :
    PacingCall Content → Prop
  | .createProbeClusters _ => False
  | .setProbingEnabled enabled => enabled = true
  | .setTransportOverhead overheadPerPacket => 0 ≤ overheadPerPacket
  | .processPackets => ¬ s.Interrupted world
  | _ => True

instance decidableLegalCall (world : PacerEnvironment Env Content)
    (s : PacingController Env Content) :
    (call : PacingCall Content) → Decidable (LegalCall world s call)
  | .createProbeClusters _ => isFalse id
  | .setProbingEnabled _ => inferInstanceAs (Decidable (_ = true))
  | .setTransportOverhead _ => inferInstanceAs (Decidable (0 ≤ _))
  | .processPackets => inferInstanceAs (Decidable (¬ _))
  | .pause => isTrue trivial
  | .resume => isTrue trivial
  | .setCongested _ => isTrue trivial
  | .setCircuitBreakerThreshold _ => isTrue trivial
  | .removePacketsForSsrc _ => isTrue trivial
  | .abortProbing => isTrue trivial
  | .setPacingRates .. => isTrue trivial
  | .enqueuePacket _ => isTrue trivial
  | .setAccountForAudioPackets _ => isTrue trivial
  | .setIncludeOverhead => isTrue trivial
  | .setSendBurstInterval _ => isTrue trivial
  | .setAllowProbeWithoutMediaPacket _ => isTrue trivial
  | .setQueueTimeLimit _ => isTrue trivial
  | .nextSendTime => isTrue trivial

/-- A call that hands over nothing and leaves the prober to its history. -/
theorem Follows.told_nothing (hf : Follows s h) (call : PacingCall Content)
    (hsound : ProberHistory.Sound { h with prober := (s.act world call).prober })
    (hoverhead : 0 ≤ (s.act world call).transportOverheadPerPacket)
    (hblocked : (s.act world call).BlockedSoon) :
    Follows (s.act world call) { h with prober := (s.act world call).prober } :=
  ⟨rfl, hsound, (obeys_act hf.queue call).1, hoverhead, hblocked⟩

variable (world) in
/-- A congestion that ends clears the failure of the probes. -/
theorem steady_congested (congested : Bool) : Steady s (s.setCongested world congested) := by
  unfold setCongested
  split_ifs
  · have hquiet := (Quiet.current_time s world).trans
      (Quiet.elapse (s.currentTime world).2 (s.currentTime world).1)
    exact ⟨⟨hquiet.prober, hquiet.clock, fun hfailure => by cases hfailure⟩, hquiet.overhead⟩
  · exact ⟨Onward.of_prober rfl (le_refl _) rfl, rfl, rfl⟩

variable (world) in
/-- New rates may come with a drain of the queue. -/
theorem steady_rates (pacingRate paddingRate : ℤ) :
    Steady s (s.act world (.setPacingRates pacingRate paddingRate)) := by
  have hset : Steady s ({ s with
      pacingRate
      paddingRate := min paddingRate pacingRate }.currentTime world).2 :=
    ⟨Onward.of_prober rfl (Quiet.current_time s world).clock rfl, rfl, rfl⟩
  exact hset.trans (Quiet.media_rate _ (s.currentTime world).1).steady

variable (world) in
/-- A packet gets its transport sequence number and is enqueued. -/
theorem steady_enqueue (p : PacedPacket (PacketBody Content)) :
    Steady s (s.act world (.enqueuePacket p)) := by
  have hset : Steady s { s with
      packetSender := { s.packetSender with
        transportSeq := s.packetSender.transportSeq + 1 } } :=
    ⟨Onward.of_prober rfl (le_refl _) rfl, rfl, rfl⟩
  have hone := enqueued world { s with
    packetSender := { s.packetSender with transportSeq := s.packetSender.transportSeq + 1 } }
    { p with transportSequenceNumber := some s.packetSender.transportSeq }
  exact hset.trans ⟨hone.onward, hone.overhead⟩

/-- Such a call keeps the history. -/
theorem follows_call (hf : Follows s h) {call : PacingCall Content}
    (hcall : LegalCall world s call) (hprocess : call ≠ .processPackets) :
    Follows (s.act world call) { h with prober := (s.act world call).prober } := by
  have hqueue : (s.act world call).packetQueue.Sound := (obeys_act hf.queue call).1
  have hclock := Quiet.current_time s world
  cases call with
  | createProbeClusters => exact hcall.elim
  | processPackets => exact absurd rfl hprocess
  | pause => exact hf.onward (Onward.of_prober rfl hclock.clock rfl) hqueue hf.overhead
  | resume => exact hf.onward (Onward.of_prober rfl hclock.clock rfl) hqueue hf.overhead
  | setCongested congested => exact hf.steady (steady_congested world congested) hqueue
  | setProbingEnabled enabled =>
      have henabled : s.prober.setEnabled enabled = s.prober := by
        rw [show enabled = true from hcall]
        unfold BitrateProber.setEnabled
        rw [if_pos rfl, if_neg (hf.prober ▸ hf.sound.enabled)]
      exact hf.onward (Onward.of_prober henabled (le_refl _) rfl) hqueue hf.overhead
  | abortProbing =>
      refine hf.told_nothing _ ?_ hf.overhead fun hfailure => by cases hfailure
      show ProberHistory.Sound { h with prober := s.prober.abortProbing }
      rw [← hf.prober]
      exact hf.sound.moved (abort_moved hf.sound.enabled)
  | setPacingRates pacingRate paddingRate =>
      exact hf.steady (steady_rates world pacingRate paddingRate) hqueue
  | enqueuePacket p => exact hf.steady (steady_enqueue world p) hqueue
  | setTransportOverhead overheadPerPacket =>
      exact hf.onward (Onward.of_prober rfl (le_refl _) rfl) hqueue hcall
  | setAllowProbeWithoutMediaPacket allow =>
      have hdue : DueSoon s.prober s.lastTimestamp →
          DueSoon (s.prober.setAllowProbeWithoutMediaPacket allow) s.lastTimestamp := by
        intro hdue
        refine DueSoon.activate ?_ 0
        exact fun hprobing hclusters => hdue hprobing hclusters
      refine hf.told_nothing _ ?_ hf.overhead fun hfailure => hdue (hf.blocked ?_)
      · show ProberHistory.Sound { h with
          prober := s.prober.setAllowProbeWithoutMediaPacket allow }
        rw [← hf.prober]
        exact sound_step hf.sound (.setAllowProbeWithoutMediaPacket allow) trivial
      · change (if allow && (s.prober.setAllowProbeWithoutMediaPacket allow).isProbing then false
          else s.probingSendFailure) = true at hfailure
        split_ifs at hfailure
        exact hfailure
  | nextSendTime => exact hf.steady hclock.steady hqueue
  | setCircuitBreakerThreshold | removePacketsForSsrc | setAccountForAudioPackets
  | setIncludeOverhead | setSendBurstInterval | setQueueTimeLimit =>
      exact hf.onward (Onward.of_prober rfl (le_refl _) rfl) hqueue hf.overhead

/-- What any such call hands over is timely, and the prober is told of it. -/
theorem call_reports (hf : Follows s h) {call : PacingCall Content}
    (hcall : LegalCall world s call) :
    ∃ h', Follows (s.act world call) h' ∧
      Reported h h' (s.probeOf (s.currentTime world).1 (step world s call).2) := by
  by_cases hprocess : call = .processPackets
  · subst hprocess
    exact process_reports world hf hcall
  · refine ⟨_, follows_call hf hcall hprocess, rfl, Or.inl ⟨?_, rfl⟩⟩
    have hnone : (step world s call).2 = [] := by
      have hobeys : Obeys world s call := (obeys_act hf.queue call).2
      cases call with
      | processPackets => exact absurd rfl hprocess
      | createProbeClusters | pause | resume | setCongested | setCircuitBreakerThreshold
      | removePacketsForSsrc | setProbingEnabled | abortProbing | setPacingRates | enqueuePacket
      | setAccountForAudioPackets | setIncludeOverhead | setTransportOverhead
      | setSendBurstInterval | setAllowProbeWithoutMediaPacket | setQueueTimeLimit
      | nextSendTime => exact hobeys
    rw [hnone]
    rfl

/-- The prober gets clusters with new numbers. -/
theorem sound_create_all (configs : List ProbeClusterConfig) (hs : h.Sound)
    (hrates : ∀ c ∈ configs, 0 < c.targetDataRate)
    (hids : ((h.created ++ configs).map fun c => c.id).Nodup) :
    ProberHistory.Sound { h with
      prober := configs.foldl BitrateProber.createProbeCluster h.prober
      created := h.created ++ configs } := by
  induction configs generalizing h with
  | nil =>
      rw [List.append_nil]
      exact hs
  | cons c rest ih =>
      have hfresh : c.id ∉ h.created.map fun c => c.id := by
        rw [List.map_append, List.nodup_append] at hids
        intro hin
        exact hids.2.2 c.id hin c.id (List.mem_map_of_mem List.mem_cons_self) rfl
      have hone := sound_create hs hfresh (hrates c List.mem_cons_self)
      have hlist : h.created ++ c :: rest = (h.created ++ [c]) ++ rest := by simp
      rw [hlist] at hids ⊢
      exact ih hone (fun d hd => hrates d (List.mem_cons_of_mem _ hd)) hids

/-- The pacer gets them from the probe controller. -/
theorem create_reports (hf : Follows s h) {configs : List ProbeClusterConfig}
    (hrates : ∀ c ∈ configs, 0 < c.targetDataRate)
    (hids : ((h.created ++ configs).map fun c => c.id).Nodup) :
    Follows (s.createProbeClusters configs)
      { h with
        prober := configs.foldl BitrateProber.createProbeCluster h.prober
        created := h.created ++ configs } := by
  refine ⟨?_, sound_create_all configs hf.sound hrates hids, hf.queue, hf.overhead, fun hfailure => ?_⟩
  · show configs.foldl _ h.prober = configs.foldl _ s.prober
    rw [hf.prober]
  · change (if configs = [] then s.probingSendFailure else false) = true at hfailure
    split_ifs at hfailure with hnone
    show DueSoon (configs.foldl _ s.prober) s.lastTimestamp
    rw [hnone]
    exact hf.blocked hfailure

end MiniRtc.PacingController
