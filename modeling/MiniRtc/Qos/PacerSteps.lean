import MiniRtc.Qos.PacingController

/-!
# What the steps of the pacing controller do

Most of what `PacingController` does is about time and budgets, and leaves its packets alone:
`Quiet` says what stays. The packets are enqueued, taken from the queue, made as padding and sent by
few functions, and each of them has a lemma here. `send_loop_rel` is the induction over the loop of
`ProcessPackets`.
-/

namespace MiniRtc

namespace TimedPacketQueue

variable {Content : Type*} {q : TimedPacketQueue Content}

/-- The counters of the queue are about the packets in its lanes. -/
def Sound (q : TimedPacketQueue Content) : Prop :=
  ∃ creationTime watch entries, Accounted creationTime ⟨q, watch, entries⟩

/-- A new queue is sound. -/
theorem sound_new (creationTime : ℤ) :
    Sound ({ lastUpdateTime := creationTime } : TimedPacketQueue Content) :=
  ⟨creationTime, _, [], QueueHistory.accounted_start creationTime⟩

/-- A queue that a call leaves is sound. -/
theorem Sound.of_step (h : q.Sound) (call : QueueCall Content) {q' : TimedPacketQueue Content}
    (hcall : ∀ watch entries,
      (QueueHistory.step ⟨q, watch, entries⟩ call).queue = q') : q'.Sound := by
  obtain ⟨creationTime, watch, entries, ha⟩ := h
  have hstep := QueueHistory.accounted_step ha call
  have hqueue := hcall watch entries
  generalize QueueHistory.step ⟨q, watch, entries⟩ call = next at hstep hqueue
  obtain ⟨queue, watch, entries⟩ := next
  obtain rfl := hqueue
  exact ⟨creationTime, watch, entries, hstep⟩

/-- Pushing keeps the queue sound. -/
theorem Sound.push (h : q.Sound) (enqueueTime : ℤ) (p : PacedPacket (PacketBody Content)) :
    (q.push enqueueTime p).Sound :=
  h.of_step (.push enqueueTime p) fun _ _ => rfl

/-- Updating the times keeps the queue sound. -/
theorem Sound.update (h : q.Sound) (now : ℤ) : (q.updateAverageQueueTime now).Sound :=
  h.of_step (.updateAverageQueueTime now) fun _ _ => rfl

/-- Pausing and resuming keep the queue sound. -/
theorem Sound.pause (h : q.Sound) (paused : Bool) (now : ℤ) : (q.setPauseState paused now).Sound :=
  h.of_step (.setPauseState paused now) fun _ _ => rfl

/-- Removing a stream keeps the queue sound. -/
theorem Sound.remove (h : q.Sound) (ssrc : BitVec 32) : (q.removePacketsForSsrc ssrc).Sound :=
  h.of_step (.removePacketsForSsrc ssrc) fun _ _ => rfl

/-- Taking a packet keeps the queue sound. -/
theorem Sound.pop (h : q.Sound) {p : QueuedPacket Content} {time : ℤ}
    {q' : TimedPacketQueue Content} (hpop : q.pop = some (p, time, q')) : q'.Sound := by
  refine h.of_step .pop fun watch entries => ?_
  unfold QueueHistory.step
  simp only [hpop]

/-- A sound queue has its packets where they belong. -/
theorem Sound.filed (h : q.Sound) : q.lanes.Filed := by
  obtain ⟨_, _, _, ha⟩ := h
  exact ha.filed

/-- What a sound queue takes is the first packet of its lane. -/
theorem Sound.popped (h : q.Sound) {p : QueuedPacket Content} {time : ℤ}
    {q' : TimedPacketQueue Content} (hpop : q.pop = some (p, time, q')) :
    PrioritizedPacketQueue.Popped q.lanes p q'.lanes := by
  obtain ⟨_, _, _, ha⟩ := h
  exact (QueueHistory.pop_spec ha hpop).1

/-- The lanes lose what is taken. -/
theorem lanes_pop {p : QueuedPacket Content} {time : ℤ} {q' : TimedPacketQueue Content}
    (hpop : q.pop = some (p, time, q')) : q.lanes.pop = some (p, q'.lanes) := by
  unfold TimedPacketQueue.pop at hpop
  split_ifs at hpop
  obtain ⟨⟨front, lanes⟩, hlanes, heq⟩ := Option.map_eq_some_iff.mp hpop
  obtain ⟨rfl, htimes⟩ := Prod.mk.inj heq
  obtain ⟨-, rfl⟩ := Prod.mk.inj htimes
  exact hlanes

/-- A sound queue without packets has no streams in its turns. -/
theorem Sound.lanes_empty (h : q.Sound) (hempty : q.empty = true) : q.lanes.empty = true := by
  obtain ⟨_, _, entries, ha⟩ := h
  have hsize : q.sizePackets = 0 := of_decide_eq_true hempty
  have hnone : entries = [] := by
    have hcount := ha.counted.size
    exact List.length_eq_zero_iff.mp (by exact_mod_cast hcount.symm.trans hsize)
  refine decide_eq_true fun level => List.eq_nil_iff_forall_not_mem.mpr fun ssrc hin => ?_
  have hlane := (ha.filed.listed ssrc level).mp hin
  obtain ⟨p, hp⟩ := List.exists_mem_of_ne_nil _ hlane
  obtain ⟨e, he, -⟩ := (ha.queued p).mpr ⟨ssrc, level, hp⟩
  rw [hnone] at he
  cases he

end TimedPacketQueue

namespace PacingController

variable {Env Content : Type*}

/-- The packets and their numbers stay. -/
structure SamePackets (s s' : PacingController Env Content) : Prop where
  lanes : s'.packetQueue.lanes = s.packetQueue.lanes
  sound : s.packetQueue.Sound → s'.packetQueue.Sound
  sender : s'.packetSender = s.packetSender
  seen : s'.seenFirstPacket = s.seenFirstPacket
  flushing : s'.keyframeFlushing = s.keyframeFlushing

namespace SamePackets

variable {s s' s'' : PacingController Env Content}

theorem refl (s : PacingController Env Content) : SamePackets s s where
  lanes := rfl
  sound := id
  sender := rfl
  seen := rfl
  flushing := rfl

theorem trans (h : SamePackets s s') (h' : SamePackets s' s'') : SamePackets s s'' where
  lanes := h'.lanes.trans h.lanes
  sound := fun hs => h'.sound (h.sound hs)
  sender := h'.sender.trans h.sender
  seen := h'.seen.trans h.seen
  flushing := h'.flushing.trans h.flushing

/-- A step that leaves the packet queue as it is. -/
theorem of_queue (hqueue : s'.packetQueue = s.packetQueue)
    (hsender : s'.packetSender = s.packetSender) (hseen : s'.seenFirstPacket = s.seenFirstPacket)
    (hflushing : s'.keyframeFlushing = s.keyframeFlushing) : SamePackets s s' where
  lanes := by rw [hqueue]
  sound := fun hs => hqueue ▸ hs
  sender := hsender
  seen := hseen
  flushing := hflushing

end SamePackets

/-- The packets stay, and what the controller was told stays too. -/
structure Untouched (s s' : PacingController Env Content) : Prop extends SamePackets s s' where
  paused : s'.paused = s.paused
  congested : s'.congested = s.congested
  overhead : s'.includeOverhead = s.includeOverhead ∧
    s'.transportOverheadPerPacket = s.transportOverheadPerPacket

namespace Untouched

variable {s s' s'' : PacingController Env Content}

theorem refl (s : PacingController Env Content) : Untouched s s where
  toSamePackets := SamePackets.refl s
  paused := rfl
  congested := rfl
  overhead := ⟨rfl, rfl⟩

theorem trans (h : Untouched s s') (h' : Untouched s' s'') : Untouched s s'' where
  toSamePackets := h.toSamePackets.trans h'.toSamePackets
  paused := h'.paused.trans h.paused
  congested := h'.congested.trans h.congested
  overhead := ⟨h'.overhead.1.trans h.overhead.1, h'.overhead.2.trans h.overhead.2⟩

/-- A step that leaves the packet queue as it is. -/
theorem of_queue (hqueue : s'.packetQueue = s.packetQueue)
    (hsender : s'.packetSender = s.packetSender) (hseen : s'.seenFirstPacket = s.seenFirstPacket)
    (hflags : s'.paused = s.paused ∧ s'.congested = s.congested ∧
      s'.keyframeFlushing = s.keyframeFlushing ∧ s'.includeOverhead = s.includeOverhead ∧
      s'.transportOverheadPerPacket = s.transportOverheadPerPacket) : Untouched s s' where
  toSamePackets := SamePackets.of_queue hqueue hsender hseen hflags.2.2.1
  paused := hflags.1
  congested := hflags.2.1
  overhead := hflags.2.2.2

end Untouched

/-- The prober only learned of packets. -/
def Announced (p p' : BitrateProber) : Prop :=
  ∃ sizes : List ℤ, p' = sizes.foldl BitrateProber.onIncomingPacket p

/-- The time does not go back, and the prober at most learns of packets. -/
structure Onward (s s' : PacingController Env Content) : Prop where
  prober : Announced s.prober s'.prober
  clock : s.lastTimestamp ≤ s'.lastTimestamp
  failure : s'.probingSendFailure = true → s.probingSendFailure = true

namespace Onward

variable {s s' s'' : PacingController Env Content}

theorem refl (s : PacingController Env Content) : Onward s s where
  prober := ⟨[], rfl⟩
  clock := le_refl _
  failure := id

theorem trans (h : Onward s s') (h' : Onward s' s'') : Onward s s'' where
  prober := by
    obtain ⟨sizes, hsizes⟩ := h.prober
    obtain ⟨more, hmore⟩ := h'.prober
    exact ⟨sizes ++ more, by rw [List.foldl_append, ← hsizes, hmore]⟩
  clock := h.clock.trans h'.clock
  failure := fun hs => h.failure (h'.failure hs)

/-- A step that leaves the prober as it is. -/
theorem of_prober (hprober : s'.prober = s.prober) (hclock : s.lastTimestamp ≤ s'.lastTimestamp)
    (hfailure : s'.probingSendFailure = s.probingSendFailure) : Onward s s' where
  prober := ⟨[], hprober⟩
  clock := hclock
  failure := fun hs => hfailure ▸ hs

/-- Learning of packets leaves the clusters alone. -/
theorem clusters (h : Onward s s') : s'.prober.clusters = s.prober.clusters := by
  have hone : ∀ (p : BitrateProber) (size : ℤ), (p.onIncomingPacket size).clusters = p.clusters := by
    intro p size
    unfold BitrateProber.onIncomingPacket BitrateProber.maybeSetActiveState
    split_ifs
    · rfl
    · rfl
  obtain ⟨sizes, hsizes⟩ := h.prober
  rw [hsizes]
  exact List.foldlRecOn sizes _ (motive := fun p => p.clusters = s.prober.clusters) rfl
    fun p hp size _ => (hone p size).trans hp

end Onward

/-- What most steps leave alone. -/
structure Quiet (s s' : PacingController Env Content) : Prop extends
    Untouched s s', Onward s s'

namespace Quiet

variable {s s' s'' : PacingController Env Content}

theorem refl (s : PacingController Env Content) : Quiet s s where
  toUntouched := Untouched.refl s
  toOnward := Onward.refl s

theorem trans (h : Quiet s s') (h' : Quiet s' s'') : Quiet s s'' where
  toUntouched := h.toUntouched.trans h'.toUntouched
  toOnward := h.toOnward.trans h'.toOnward

/-- A step that leaves the packet queue as it is. -/
theorem of_queue (hqueue : s'.packetQueue = s.packetQueue)
    (hsender : s'.packetSender = s.packetSender) (hseen : s'.seenFirstPacket = s.seenFirstPacket)
    (hprobing : Onward s s')
    (hflags : s'.paused = s.paused ∧ s'.congested = s.congested ∧
      s'.keyframeFlushing = s.keyframeFlushing ∧ s'.includeOverhead = s.includeOverhead ∧
      s'.transportOverheadPerPacket = s.transportOverheadPerPacket) : Quiet s s' where
  toUntouched := Untouched.of_queue hqueue hsender hseen hflags
  toOnward := hprobing

/-- A step that leaves the prober and the clock as they are too. -/
theorem of_same (hqueue : s'.packetQueue = s.packetQueue)
    (hsender : s'.packetSender = s.packetSender) (hseen : s'.seenFirstPacket = s.seenFirstPacket)
    (hprobing : s'.prober = s.prober ∧ s'.lastTimestamp = s.lastTimestamp ∧
      s'.probingSendFailure = s.probingSendFailure)
    (hflags : s'.paused = s.paused ∧ s'.congested = s.congested ∧
      s'.keyframeFlushing = s.keyframeFlushing ∧ s'.includeOverhead = s.includeOverhead ∧
      s'.transportOverheadPerPacket = s.transportOverheadPerPacket) : Quiet s s' :=
  of_queue hqueue hsender hseen
    (Onward.of_prober hprobing.1 (le_of_eq hprobing.2.1.symm) hprobing.2.2) hflags

variable (s)

theorem elapse (now : ℤ) : Quiet s (s.elapse now) := by
  unfold PacingController.elapse updateTimeAndGetElapsed
  split_ifs
  · exact of_same rfl rfl rfl ⟨rfl, rfl, rfl⟩ ⟨rfl, rfl, rfl, rfl, rfl⟩
  · exact of_same rfl rfl rfl ⟨rfl, rfl, rfl⟩ ⟨rfl, rfl, rfl, rfl, rfl⟩

theorem padding_budget (size : ℤ) : Quiet s (s.updatePaddingBudgetWithSentData size) :=
  of_same rfl rfl rfl ⟨rfl, rfl, rfl⟩ ⟨rfl, rfl, rfl, rfl, rfl⟩

theorem packet_sent (packetType : RtpPacketMediaType) (packetSize sendTime : ℤ) :
    Quiet s (s.onPacketSent packetType packetSize sendTime) := by
  have haccount : Quiet s (s.accountSent packetType packetSize) := by
    unfold accountSent
    split_ifs
    · exact of_same rfl rfl rfl ⟨rfl, rfl, rfl⟩ ⟨rfl, rfl, rfl, rfl, rfl⟩
    · exact refl s
  exact haccount.trans (of_same rfl rfl rfl ⟨rfl, rfl, rfl⟩ ⟨rfl, rfl, rfl, rfl, rfl⟩)

theorem media_rate (now : ℤ) : Quiet s (s.maybeUpdateMediaRateDueToLongQueue now) := by
  unfold maybeUpdateMediaRateDueToLongQueue
  split_ifs
  · exact of_same rfl rfl rfl ⟨rfl, rfl, rfl⟩ ⟨rfl, rfl, rfl, rfl, rfl⟩
  · refine ⟨⟨⟨?_, fun hs => hs.update now, rfl, rfl, rfl⟩, rfl, rfl, rfl, rfl⟩,
      Onward.of_prober rfl (le_refl _) rfl⟩
    exact QueueHistory.lanes_update s.packetQueue now

theorem announce (p : PacedPacket (PacketBody Content)) : Quiet s (s.announce p) := by
  refine of_queue rfl rfl rfl ⟨⟨[p.content.payloadSize], rfl⟩, le_refl _, fun hfailure => ?_⟩
    ⟨rfl, rfl, rfl, rfl, rfl⟩
  have hset : (if (s.prober.onIncomingPacket p.content.payloadSize).isProbing then false
    else s.probingSendFailure) = true := hfailure
  split_ifs at hset
  exact hset

variable (world : PacerEnvironment Env Content)

theorem current_time : Quiet s (s.currentTime world).2 :=
  of_queue rfl rfl rfl (Onward.of_prober rfl (le_max_right _ _) rfl) ⟨rfl, rfl, rfl, rfl, rfl⟩

theorem next_send_time : Quiet s (s.nextSendTime world).2 :=
  current_time s world

theorem fast_forward (now : ℤ) : Quiet s (s.fastForward world now) := by
  unfold fastForward
  split_ifs
  · exact (next_send_time s world).trans (elapse _ _)
  · exact refl s

end Quiet

/-! ## Enqueueing -/

variable (world : PacerEnvironment Env Content) (s : PacingController Env Content)

/-- The lanes after the packets of the stream were dropped, if they are. -/
def flushed (p : PacedPacket (PacketBody Content)) :
    PrioritizedPacketQueue (QueuedBody Content) :=
  if s.flushes p then s.packetQueue.lanes.removePacketsForSsrc p.ssrc else s.packetQueue.lanes

/-- What `EnqueuePacket` does. -/
structure Enqueued (s : PacingController Env Content) (p : PacedPacket (PacketBody Content))
    (s' : PacingController Env Content) : Prop where
  lanes : ∃ enqueueTime node,
    s'.packetQueue.lanes = (s.flushed p).push (QueuedPacket.of p enqueueTime node)
  sound : s.packetQueue.Sound → s'.packetQueue.Sound
  sender : s'.packetSender = s.packetSender
  seen : s'.seenFirstPacket = true
  onward : Onward s s'
  paused : s'.paused = s.paused
  congested : s'.congested = s.congested
  flushing : s'.keyframeFlushing = s.keyframeFlushing
  overhead : s'.includeOverhead = s.includeOverhead ∧
    s'.transportOverheadPerPacket = s.transportOverheadPerPacket

theorem enqueued (p : PacedPacket (PacketBody Content)) :
    Enqueued s p (s.enqueuePacket world p) := by
  set first : PacingController Env Content :=
    if s.flushes p then
      { s with packetQueue := s.packetQueue.removePacketsForSsrc p.ssrc }
    else s with hfirst
  have hlanes : first.packetQueue.lanes = s.flushed p := by
    rw [hfirst]
    unfold flushed
    split_ifs
    · rfl
    · rfl
  have hsound : s.packetQueue.Sound → first.packetQueue.Sound := by
    intro hs
    rw [hfirst]
    split_ifs
    · exact hs.remove _
    · exact hs
  have hsame : first.packetSender = s.packetSender ∧ Onward s first ∧
      first.paused = s.paused ∧ first.congested = s.congested ∧
      first.keyframeFlushing = s.keyframeFlushing ∧ first.includeOverhead = s.includeOverhead ∧
      first.transportOverheadPerPacket = s.transportOverheadPerPacket := by
    rw [hfirst]
    split_ifs
    · exact ⟨rfl, Onward.of_prober rfl (le_refl _) rfl, rfl, rfl, rfl, rfl, rfl⟩
    · exact ⟨rfl, Onward.refl s, rfl, rfl, rfl, rfl, rfl⟩
  -- The prober hears of the packet, the clock is read, and an idle pacer catches up with it.
  have hbefore := (Quiet.announce first p).trans (Quiet.current_time (first.announce p) world)
  set now := ((first.announce p).currentTime world).1
  have hready := hbefore.trans (Quiet.fast_forward _ world now)
  set ready := ((first.announce p).currentTime world).2.fastForward world now
  set pushed : PacingController Env Content := { ready with
    packetQueue := ready.packetQueue.push now p
    seenFirstPacket := true } with hpush
  have hafter := Quiet.media_rate pushed now
  have honward : Onward ready pushed := Onward.of_prober rfl (le_refl _) rfl
  have hpushed : (ready.packetQueue.push now p).lanes =
      (s.flushed p).push (ready.packetQueue.queuedPacket now p) := by
    show ((ready.packetQueue.updateAverageQueueTime now).lanes.push _) = _
    rw [QueueHistory.lanes_update, hready.lanes, hlanes]
  obtain ⟨hsender, hprober, hpaused, hcongested, hflushing, hoverhead⟩ := hsame
  refine ⟨⟨_, _, hafter.lanes.trans hpushed⟩, fun hs => hafter.sound ?_, ?_, hafter.seen, ?_, ?_,
    ?_, ?_, ?_⟩
  · exact (hready.sound (hsound hs)).push now p
  · exact hafter.sender.trans (hready.sender.trans hsender)
  · exact (hprober.trans hready.toOnward).trans (honward.trans hafter.toOnward)
  · exact hafter.paused.trans (hready.paused.trans hpaused)
  · exact hafter.congested.trans (hready.congested.trans hcongested)
  · exact hafter.flushing.trans (hready.flushing.trans hflushing)
  · exact ⟨hafter.overhead.1.trans (hready.overhead.1.trans hoverhead.1),
      hafter.overhead.2.trans (hready.overhead.2.trans hoverhead.2)⟩

/-! ## Pending packets -/

variable {world s}

/-- Asking for padding and getting none changes nothing. -/
theorem quiet_of_no_padding {size : ℤ} {s' : PacingController Env Content}
    (h : s.generatePadding world size = ([], s')) :
    Quiet s s' ∧ s'.packetQueue = s.packetQueue := by
  unfold generatePadding at h
  simp only at h
  obtain ⟨hnone, rfl⟩ := Prod.mk.inj h
  have hlength : (world.generatePadding size s.env).1 = [] := by
    generalize (world.generatePadding size s.env).1 = padding at hnone
    cases padding with
    | nil => rfl
    | cons p rest => cases hnone
  refine ⟨Quiet.of_same rfl ?_ rfl ⟨rfl, rfl, rfl⟩ ⟨rfl, rfl, rfl, rfl, rfl⟩, rfl⟩
  simp [hlength]

/-- What `GetPendingPacket` takes from the queue is not paced, is a probe, or is sent without
congestion. -/
theorem pending_queued_cases {isProbe : Bool} {targetSendTime now : ℤ}
    {p : PacedPacket (PacketBody Content)} {s' : PacingController Env Content}
    (h : s.pendingQueued isProbe targetSendTime now = (some p, s')) :
    ∃ q time queue, s.packetQueue.pop = some (q, time, queue) ∧ p = ofQueued q ∧
      s' = { s with packetQueue := queue } ∧
      (s.nextUnpacedSendTime ≠ none ∨ isProbe = true ∨ s.congested = false) := by
  unfold pendingQueued at h
  split_ifs at h with hempty hblocked
  · cases (Prod.mk.inj h).1
  · cases (Prod.mk.inj h).1
  · split at h
    · cases (Prod.mk.inj h).1
    · rename_i q time queue hpop
      obtain ⟨hp, rfl⟩ := Prod.mk.inj h
      refine ⟨q, time, queue, hpop, (Option.some.inj hp).symm, rfl, ?_⟩
      by_contra hnone
      simp only [not_or, not_not, Bool.not_eq_true, Bool.not_eq_false] at hnone
      exact hblocked ⟨hnone.1, hnone.2.1, Or.inl hnone.2.2⟩

/-- Without a packet, `GetPendingPacket` from the queue changes nothing. -/
theorem pending_queued_none {isProbe : Bool} {targetSendTime now : ℤ}
    {s' : PacingController Env Content}
    (h : s.pendingQueued isProbe targetSendTime now = (none, s')) : s' = s := by
  unfold pendingQueued at h
  split_ifs at h with hempty hblocked
  · exact (Prod.mk.inj h).2.symm
  · exact (Prod.mk.inj h).2.symm
  · split at h
    · exact (Prod.mk.inj h).2.symm
    · cases (Prod.mk.inj h).1

/-- A pending packet opens a probe, or it is taken from the queue. -/
theorem pending_cases {pacingInfo : PacedPacketInfo} {targetSendTime now : ℤ}
    {p : PacedPacket (PacketBody Content)} {s' : PacingController Env Content}
    (h : s.getPendingPacket world pacingInfo targetSendTime now = (some p, s')) :
    (pacingInfo.probeClusterId ≠ kNotAProbe ∧
        ∃ rest, s.generatePadding world 1 = (p :: rest, s')) ∨
      ∃ s₀ q time queue, Quiet s s₀ ∧ s.packetQueue.pop = some (q, time, queue) ∧
        p = ofQueued q ∧ s' = { s₀ with packetQueue := queue } ∧
        (s.nextUnpacedSendTime ≠ none ∨ pacingInfo.probeClusterId ≠ kNotAProbe ∨
          s.congested = false) := by
  unfold getPendingPacket at h
  simp only at h
  split_ifs at h with hopening
  · have hprobe : pacingInfo.probeClusterId ≠ kNotAProbe := by
      simp only [Bool.and_eq_true, decide_eq_true_eq] at hopening
      exact hopening.1
    split at h
    · rename_i padding rest s₀ hpadding
      obtain ⟨hp, rfl⟩ := Prod.mk.inj h
      obtain rfl := Option.some.inj hp
      exact Or.inl ⟨hprobe, rest, hpadding⟩
    · rename_i s₀ hpadding
      obtain ⟨hquiet, hqueue⟩ := quiet_of_no_padding hpadding
      obtain ⟨q, time, queue, hpop, hp, hs', -⟩ := pending_queued_cases h
      rw [hqueue] at hpop
      exact Or.inr ⟨s₀, q, time, queue, hquiet, hpop, hp, hs', Or.inr (Or.inl hprobe)⟩
  · obtain ⟨q, time, queue, hpop, hp, hs', hreason⟩ := pending_queued_cases h
    rw [decide_eq_true_eq] at hreason
    exact Or.inr ⟨s, q, time, queue, Quiet.refl s, hpop, hp, hs', hreason⟩

/-- Without a pending packet nothing happens. -/
theorem pending_none {pacingInfo : PacedPacketInfo} {targetSendTime now : ℤ}
    {s' : PacingController Env Content}
    (h : s.getPendingPacket world pacingInfo targetSendTime now = (none, s')) : Quiet s s' := by
  unfold getPendingPacket at h
  simp only at h
  split_ifs at h
  · split at h
    · cases (Prod.mk.inj h).1
    · rename_i s₀ hpadding
      rw [pending_queued_none h]
      exact (quiet_of_no_padding hpadding).1
  · rw [pending_queued_none h]
    exact Quiet.refl s

/-- Making padding leaves the queue alone. -/
theorem queue_padding {size : ℤ} {padding : List (PacedPacket (PacketBody Content))}
    {s' : PacingController Env Content} (h : s.generatePadding world size = (padding, s')) :
    s'.packetQueue = s.packetQueue := by
  unfold generatePadding at h
  rw [← (Prod.mk.inj h).2]

/-- Enqueueing packets keeps the queue sound. -/
theorem sound_enqueue_all (packets : List (PacedPacket (PacketBody Content)))
    (hs : s.packetQueue.Sound) : (packets.foldl (enqueuePacket world) s).packetQueue.Sound :=
  List.foldlRecOn packets _ (motive := fun s : PacingController Env Content => s.packetQueue.Sound)
    hs fun s hs p _ => (enqueued world s p).sound hs

/-- Sending a pending packet keeps the queue sound. -/
theorem sound_pending {pacingInfo : PacedPacketInfo} {targetSendTime now : ℤ}
    {p : PacedPacket (PacketBody Content)} {s' : PacingController Env Content}
    (h : s.getPendingPacket world pacingInfo targetSendTime now = (some p, s'))
    (hs : s.packetQueue.Sound) : s'.packetQueue.Sound := by
  rcases pending_cases h with ⟨-, rest, hpadding⟩ | ⟨s₀, q, time, queue, -, hpop, -, rfl, -⟩
  · rw [queue_padding hpadding]
    exact hs
  · exact hs.pop hpop

/-! ## The loop -/

variable {now recommendedProbeSize : ℤ} {isProbing : Bool}

/-- The loop moves its target. -/
theorem replay_quiet (l : SendLoop Env Content) (now : ℤ) :
    ∃ s target, Quiet l.controller s ∧
      replay l now = { l with controller := s, targetSendTime := target } := by
  unfold replay
  split_ifs
  · exact ⟨{ l.controller with
        lastProcessTime :=
          max l.controller.lastProcessTime (now - kMaxPaddingReplayDuration) },
      _, Quiet.of_same rfl rfl rfl ⟨rfl, rfl, rfl⟩ ⟨rfl, rfl, rfl, rfl, rfl⟩, rfl⟩
  · exact ⟨l.controller, l.targetSendTime, Quiet.refl _, rfl⟩

/-- A relation that the steps of the loop keep holds between its start and its end. The queue is
sound in every state. -/
theorem send_loop_rel {R : SendLoop Env Content → SendLoop Env Content → Prop}
    (htrans : ∀ l l' l'', R l l' → R l' l'' → R l l'')
    (hquiet : ∀ l s targetSendTime, Quiet l.controller s →
      R l { l with controller := s, targetSendTime })
    (hpadding : ∀ l size padding s, l.controller.packetQueue.Sound →
      l.controller.packetQueue.empty = true →
      l.controller.generatePadding world size = (padding, s) → padding ≠ [] →
      R l { l with controller := padding.foldl (enqueuePacket world) s })
    (hsend : ∀ l p s, l.controller.packetQueue.Sound →
      l.controller.getPendingPacket world l.pacingInfo l.targetSendTime now = (some p, s) →
      R l (sendPending { l with controller := s } p now isProbing))
    (iterations : ℕ) (l : SendLoop Env Content) (hs : l.controller.packetQueue.Sound) :
    R l (sendLoop world now recommendedProbeSize isProbing iterations l).1 := by
  have hrefl : ∀ l, R l l := fun l => hquiet l l.controller l.targetSendTime (Quiet.refl _)
  induction iterations generalizing l with
  | zero => exact hrefl l
  | succ iterations ih =>
      unfold sendLoop
      split
      · rename_i s hnone
        -- Without a packet the queue is filled with padding, if there is any.
        have hpending := pending_none hnone
        obtain ⟨s', target, hreplay, heq⟩ := replay_quiet { l with controller := s } now
        have hstart := hpending.trans hreplay
        have hfirst := hquiet l s' target hstart
        simp only [heq]
        split_ifs with hpositive
        · have hempty : s'.packetQueue.empty = true := by
            by_contra hfilled
            unfold paddingToAdd at hpositive
            rw [if_pos (Bool.eq_false_iff.mpr hfilled)] at hpositive
            exact absurd hpositive (lt_irrefl 0)
          split
          · rename_i s'' hno
            exact htrans _ _ _ hfirst (hquiet _ _ _
              ((quiet_of_no_padding hno).1.trans (Quiet.padding_budget _ _)))
          · rename_i padding s'' hsome hmade
            have hsound := hstart.sound hs
            have hfilled := hpadding { l with controller := s', targetSendTime := target } _ _ _
              hsound hempty hmade hsome
            refine htrans _ _ _ (htrans _ _ _ hfirst hfilled) (ih _ ?_)
            refine sound_enqueue_all padding ?_
            rw [queue_padding hmade]
            exact hsound
        · exact hfirst
      · rename_i p s hsome
        have hsent := hsend l p s hs hsome
        have hpending : s.packetQueue.Sound := sound_pending hsome hs
        have hqueue : (s.sendPacket p l.pacingInfo).packetQueue.Sound := hpending
        have hsound : (sendPending { l with controller := s } p now
            isProbing).controller.packetQueue.Sound :=
          (Quiet.packet_sent _ _ _ _).sound hqueue
        have hnext := Quiet.next_send_time
          (sendPending { l with controller := s } p now isProbing).controller world
        simp only
        split_ifs
        · exact hsent
        · exact htrans _ _ _ hsent (hquiet _ _ _ hnext)
        · -- The next packet has its own target, and the budgets of that time.
          refine htrans _ _ _ (htrans _ _ _ hsent (hquiet _ _ _ (hnext.trans (Quiet.elapse _ _))))
            (ih _ ?_)
          exact (hnext.trans (Quiet.elapse _ _)).sound hsound

/-! ## The whole of `ProcessPackets` -/

variable (s)

/-- After the loop no packet is touched. -/
theorem untouched_finish (l : SendLoop Env Content) (isProbing : Bool) :
    Untouched l.controller (finishLoop world l isProbing) := by
  have hrate := fun s : PacingController Env Content =>
    ((Quiet.current_time s world).trans (Quiet.media_rate _ (s.currentTime world).1)).toUntouched
  unfold finishLoop
  refine Untouched.trans ?_ (hrate _)
  split_ifs
  · exact Untouched.of_queue rfl rfl rfl ⟨rfl, rfl, rfl, rfl, rfl⟩
  · exact Untouched.of_queue rfl rfl rfl ⟨rfl, rfl, rfl, rfl, rfl⟩
  · exact Untouched.refl _

/-- The prober and the packet information when the loop starts. -/
def clusterNow (now : ℤ) : BitrateProber × PacedPacketInfo :=
  let current := if s.prober.isProbing then s.prober.currentCluster now else (s.prober, none)
  (current.1, current.2.getD {})

variable (world) in
/-- The loop of `ProcessPackets` with its variables, and whether the circuit breaker has stopped it. -/
def dueLoop (targetSendTime now : ℤ) : SendLoop Env Content × Bool :=
  let start := { s.elapse targetSendTime with prober := (s.clusterNow now).1 }
  let isProbing := decide ((s.clusterNow now).2.probeClusterId ≠ kNotAProbe)
  sendLoop world now (if isProbing then start.prober.recommendedMinProbeSize else 0) isProbing
    start.circuitBreakerThreshold
    { controller := start, pacingInfo := (s.clusterNow now).2, targetSendTime }

variable (world) in
/-- The controller when `ProcessPackets` has removed expired clusters and kept the connection alive. -/
def awake : PacingController Env Content :=
  let (now, s) := s.currentTime world
  let (prober, removed) := s.prober.removeExpiredClusters (.micros now)
  let s := { s with
    prober
    probingSendFailure := if removed then false else s.probingSendFailure }
  if s.shouldSendKeepalive now then s.sendKeepalive world now else s

variable (world) in
/-- The circuit breaker stops the next call of `ProcessPackets`. -/
def Interrupted : Prop :=
  let alive := s.awake world
  let now := (s.currentTime world).1
  let (targetSendTime, ready) := alive.nextSendTime world
  alive.paused = false ∧
    targetSendTime ≤ now + (if alive.prober.isProbing then kMaxEarlyProbeProcessing else 0) ∧
    (ready.dueLoop world targetSendTime now).2 = true

instance decidableInterrupted : Decidable (s.Interrupted world) :=
  inferInstanceAs (Decidable (_ ∧ _ ∧ _))

variable (world) in
/-- When it is time to send, the loop runs, and it is finished unless it was stopped. -/
theorem due_cases (targetSendTime now : ℤ) :
    ∃ (start : PacingController Env Content) (recommendedProbeSize : ℤ) (iterations : ℕ),
      Untouched s start ∧ (start.prober = (s.clusterNow now).1 ∧
        start.lastTimestamp = s.lastTimestamp ∧
        start.probingSendFailure = s.probingSendFailure ∧
        sendLoop world now recommendedProbeSize
          (decide ((s.clusterNow now).2.probeClusterId ≠ kNotAProbe)) iterations
          { controller := start, pacingInfo := (s.clusterNow now).2, targetSendTime } =
            s.dueLoop world targetSendTime now) ∧
      ∃ l stopped, sendLoop world now recommendedProbeSize
          (decide ((s.clusterNow now).2.probeClusterId ≠ kNotAProbe)) iterations
          { controller := start, pacingInfo := (s.clusterNow now).2, targetSendTime } =
            (l, stopped) ∧
        (stopped = true ∧ Quiet l.controller (s.sendDue world targetSendTime now) ∨
          stopped = false ∧ s.sendDue world targetSendTime now =
            finishLoop world l (decide ((s.clusterNow now).2.probeClusterId ≠ kNotAProbe))) := by
  have helapse := Quiet.elapse s targetSendTime
  have hsame : (s.elapse targetSendTime).prober = s.prober ∧
      (s.elapse targetSendTime).lastTimestamp = s.lastTimestamp ∧
      (s.elapse targetSendTime).probingSendFailure = s.probingSendFailure := by
    unfold PacingController.elapse updateTimeAndGetElapsed
    split_ifs
    · exact ⟨rfl, rfl, rfl⟩
    · exact ⟨rfl, rfl, rfl⟩
  obtain ⟨hprober, hclock⟩ := hsame
  set start : PacingController Env Content :=
    { s.elapse targetSendTime with prober := (s.clusterNow now).1 }
  have hstart : Untouched s start :=
    helapse.toUntouched.trans (Untouched.of_queue rfl rfl rfl ⟨rfl, rfl, rfl, rfl, rfl⟩)
  set isProbing := decide ((s.clusterNow now).2.probeClusterId ≠ kNotAProbe)
  set recommendedProbeSize := if isProbing then start.prober.recommendedMinProbeSize else 0
  have hcluster : (if (s.elapse targetSendTime).prober.isProbing then
      (s.elapse targetSendTime).prober.currentCluster now
      else ((s.elapse targetSendTime).prober, none)) =
      if s.prober.isProbing then s.prober.currentCluster now else (s.prober, none) := by
    rw [hprober]
  generalize hloop : sendLoop world now recommendedProbeSize isProbing start.circuitBreakerThreshold
    { controller := start, pacingInfo := (s.clusterNow now).2, targetSendTime } = result
  obtain ⟨l, stopped⟩ := result
  refine ⟨start, recommendedProbeSize, start.circuitBreakerThreshold, hstart,
    ⟨rfl, hclock.1, hclock.2, rfl⟩, l, stopped, hloop, ?_⟩
  -- The source runs the same loop, and returns early when it was stopped.
  unfold sendDue
  simp only
  rw [hcluster]
  split
  · rename_i l' hstopped
    obtain ⟨rfl, rfl⟩ := Prod.mk.inj (hloop.symm.trans hstopped)
    exact Or.inl ⟨rfl, Quiet.of_same rfl rfl rfl ⟨rfl, rfl, rfl⟩ ⟨rfl, rfl, rfl, rfl, rfl⟩⟩
  · rename_i l' hran
    obtain ⟨rfl, rfl⟩ := Prod.mk.inj (hloop.symm.trans hran)
    exact Or.inr ⟨rfl, rfl⟩

variable (world) in
/-- `ProcessPackets` removes expired clusters, may send a keep-alive, and may send what is due. -/
theorem process_cases :
    ∃ first : PacingController Env Content, Untouched s first ∧
      first.lastSendTime = s.lastSendTime ∧
      (first.prober = (s.prober.removeExpiredClusters (.micros (s.currentTime world).1)).1 ∧
        first.lastTimestamp = (s.currentTime world).1 ∧
        (first.probingSendFailure = true → s.probingSendFailure = true ∧
          (s.prober.removeExpiredClusters (.micros (s.currentTime world).1)).2 = false)) ∧
      ∃ alive, (alive = first ∨ first.shouldSendKeepalive (s.currentTime world).1 = true ∧
          alive = first.sendKeepalive world (s.currentTime world).1) ∧
        (Quiet alive (s.processPackets world) ∨
          alive.paused = false ∧
            (alive = s.awake world ∧ (alive.nextSendTime world).1 ≤ (s.currentTime world).1 +
              (if alive.prober.isProbing then kMaxEarlyProbeProcessing else 0)) ∧
            s.processPackets world = (alive.nextSendTime world).2.sendDue world
              (alive.nextSendTime world).1 (s.currentTime world).1) := by
  set now := (s.currentTime world).1
  set first : PacingController Env Content := { (s.currentTime world).2 with
    prober := ((s.currentTime world).2.prober.removeExpiredClusters (.micros now)).1
    probingSendFailure :=
      if ((s.currentTime world).2.prober.removeExpiredClusters (.micros now)).2 then false
      else (s.currentTime world).2.probingSendFailure }
  have hfirst : Untouched s first :=
    (Quiet.current_time s world).toUntouched.trans
      (Untouched.of_queue rfl rfl rfl ⟨rfl, rfl, rfl, rfl, rfl⟩)
  set alive := if first.shouldSendKeepalive now then first.sendKeepalive world now else first
    with halive
  have hprocess : s.processPackets world =
      if alive.paused then alive
      else
        if now + (if alive.prober.isProbing then kMaxEarlyProbeProcessing else 0) <
            (alive.nextSendTime world).1 then (alive.nextSendTime world).2.elapse now
        else (alive.nextSendTime world).2.sendDue world (alive.nextSendTime world).1 now := rfl
  have hfailure : first.probingSendFailure = true → s.probingSendFailure = true ∧
      (s.prober.removeExpiredClusters (.micros now)).2 = false := by
    intro hset
    change (if (s.prober.removeExpiredClusters (.micros now)).2 then false
      else s.probingSendFailure) = true at hset
    split_ifs at hset with hremoved
    exact ⟨hset, Bool.eq_false_iff.mpr hremoved⟩
  -- Paused, too early, or time to send.
  refine ⟨first, hfirst, rfl, ⟨rfl, rfl, hfailure⟩, alive, ?_, ?_⟩
  · rw [halive]
    split_ifs with hkeepalive
    · exact Or.inr ⟨hkeepalive, rfl⟩
    · exact Or.inl rfl
  · rw [hprocess]
    have htime := Quiet.next_send_time alive world
    have hearly := htime.trans (Quiet.elapse (alive.nextSendTime world).2 now)
    by_cases hpaused : alive.paused = true
    · rw [if_pos hpaused]
      exact Or.inl (Quiet.refl alive)
    · rw [if_neg hpaused]
      by_cases hwait : now + (if alive.prober.isProbing then kMaxEarlyProbeProcessing else 0) <
          (alive.nextSendTime world).1
      · rw [if_pos hwait]
        exact Or.inl hearly
      · rw [if_neg hwait]
        exact Or.inr ⟨Bool.eq_false_iff.mpr hpaused, ⟨rfl, not_lt.mp hwait⟩, rfl⟩

end PacingController

end MiniRtc
