import MiniRtc.Foundation.Refinement
import MiniRtc.Qos.PacerSteps

/-!
# The pacing controller refines the pacer

`PacedSender` in `Qos.PacedSender` leaves open when packets are sent: any order of its calls is
allowed. The pacing controller decides that with its clock, its budgets and its prober, and one call
of `ProcessPackets` sends any number of packets. Whatever it decides, each of its calls is carried
out by calls of the pacer, with the same packets handed over in the same order, so what holds for all
runs of the pacer holds for the controller.
-/

namespace MiniRtc

open PacingController in
/-- A call of the pacer, and the packets that it hands over, as they were pushed. -/
def PacedSender.hand {Content : Type*} (s : PacedSender (QueuedBody Content))
    (call : PacerCall (QueuedBody Content)) :
    PacedSender (QueuedBody Content) × List (PacedPacket (PacketBody Content)) :=
  ((s.step call).1, (s.step call).2.toList.map ofQueued)

namespace PacingController

variable {Env Content : Type*}

/-- The packets and numbers of the controller. -/
def view (s : PacingController Env Content) : PacedSender (QueuedBody Content) where
  packetQueue := s.packetQueue.lanes
  transportSeq := s.packetSender.transportSeq
  ssrcSeq := s.packetSender.ssrcSeq
  seenFirstPacket := s.seenFirstPacket

/-- The calls of the pacer that send packets or make padding. -/
def Processing : PacerCall (QueuedBody Content) → Prop
  | .sendNext => True
  | .sendKeepalive _ => True
  | .sendProbePadding _ => True
  | .queuePadding _ => True
  | .enqueuePackets _ => False
  | .removePacketsForSsrc _ => False

/-- The calls of the pacer that carry out a call of the controller. -/
def Carries : PacingCall Content → List (PacerCall (QueuedBody Content)) → Prop
  | .enqueuePacket p, block => ∃ q, ofQueued q = p ∧ block = [.enqueuePackets [q]]
  | .removePacketsForSsrc ssrc, block => block = [.removePacketsForSsrc ssrc]
  | .processPackets, block => ∀ call ∈ block, Processing call
  | _, block => block = []

/-- A controller that flushes streams for key frames, with a sound queue. -/
structure Ready (s : PacingController Env Content) : Prop where
  sound : s.packetQueue.Sound
  flushing : s.keyframeFlushing = true

/-- A step of the controller is carried out by calls of the pacer. -/
structure Carried (block : List (PacerCall (QueuedBody Content)))
    (s s' : PacingController Env Content) : Prop where
  ready : s'.Ready
  calls : ∃ new, s'.packetSender.sent = s.packetSender.sent ++ new ∧
    Machine.run PacedSender.hand s.view block = (s'.view, new.map Prod.fst)

/-- A step of the controller is carried out by calls that send packets or make padding. -/
def Processed (s s' : PacingController Env Content) : Prop :=
  ∃ block, (∀ call ∈ block, Processing call) ∧ Carried block s s'

namespace SamePackets

variable {s s' : PacingController Env Content}

theorem view_eq (h : SamePackets s s') : s'.view = s.view := by
  unfold view
  rw [h.lanes, h.sender, h.seen]

theorem ready (h : SamePackets s s') (hs : s.Ready) : s'.Ready :=
  ⟨h.sound hs.sound, h.flushing.trans hs.flushing⟩

end SamePackets

namespace Carried

variable {s s' : PacingController Env Content}

/-- A step that leaves the packets alone is carried out by no call. -/
theorem of_same (h : SamePackets s s') (hs : s.Ready) : Carried [] s s' := by
  refine ⟨h.ready hs, [], ?_, ?_⟩
  · rw [h.sender, List.append_nil]
  · rw [h.view_eq]
    rfl

/-- A step that is one call of the pacer. -/
theorem of_call (call : PacerCall (QueuedBody Content)) (hready : s'.Ready)
    (new : List (PacedPacket (PacketBody Content) × PacedPacketInfo))
    (hsent : s'.packetSender.sent = s.packetSender.sent ++ new)
    (hcall : s.view.hand call = (s'.view, new.map Prod.fst)) : Carried [call] s s' :=
  ⟨hready, new, hsent, by rwa [Machine.run_singleton]⟩

end Carried

namespace Processed

variable {s s' s'' : PacingController Env Content}

theorem of_same (h : SamePackets s s') (hs : s.Ready) : Processed s s' :=
  ⟨[], by simp, Carried.of_same h hs⟩

theorem of_call (call : PacerCall (QueuedBody Content)) (hcall : Processing call)
    (h : Carried [call] s s') : Processed s s' :=
  ⟨[call], by simpa using hcall, h⟩

theorem ready (h : Processed s s') : s'.Ready :=
  h.choose_spec.2.ready

theorem trans (h : Processed s s') (h' : Processed s' s'') : Processed s s'' := by
  obtain ⟨first, hfirst, hready, new, hsent, hrun⟩ := h
  obtain ⟨second, hsecond, hready', new', hsent', hrun'⟩ := h'
  refine ⟨first ++ second, fun call hcall => ?_, hready', new ++ new', ?_, ?_⟩
  · rcases List.mem_append.mp hcall with hin | hin
    · exact hfirst call hin
    · exact hsecond call hin
  · rw [hsent', hsent, List.append_assoc]
  · rw [Machine.run_append, hrun, hrun', List.map_append]

end Processed

/-! ## Enqueueing -/

variable {world : PacerEnvironment Env Content} {s s' : PacingController Env Content}

/-- The pacer drops the packets of a stream when the controller does. -/
theorem flushes_view (hflushing : s.keyframeFlushing = true) (p : PacedPacket (PacketBody Content))
    (enqueueTime : ℤ) (node : ℕ) :
    s.view.flushes (QueuedPacket.of p enqueueTime node) = s.flushes p := by
  unfold PacedSender.flushes flushes
  rw [hflushing, Bool.true_and]
  rfl

/-- Enqueueing a packet in the controller is enqueueing it in the pacer. -/
theorem view_enqueued {p : PacedPacket (PacketBody Content)} (h : Enqueued s p s')
    (hflushing : s.keyframeFlushing = true) :
    ∃ q : QueuedPacket Content, ofQueued q = p ∧ s'.view = s.view.enqueuePacket q := by
  obtain ⟨enqueueTime, node, hlanes⟩ := h.lanes
  refine ⟨QueuedPacket.of p enqueueTime node, rfl, ?_⟩
  unfold PacedSender.enqueuePacket
  rw [flushes_view hflushing]
  unfold view
  rw [hlanes, h.sender, h.seen]
  rfl

/-- Enqueueing keeps the controller ready. -/
theorem ready_enqueued {p : PacedPacket (PacketBody Content)} (h : Enqueued s p s')
    (hs : s.Ready) : s'.Ready :=
  ⟨h.sound hs.sound, h.flushing.trans hs.flushing⟩

variable (world) in
/-- The padding that fills the queue is enqueued in the pacer one packet after the other. -/
theorem view_enqueue_padding (raw : List (PacedPacket (PacketBody Content)))
    (hs : s.Ready) (transportSeq : ℤ) :
    ((numberPadding transportSeq raw).foldl (enqueuePacket world) s).Ready ∧
      ((numberPadding transportSeq raw).foldl (enqueuePacket world) s).packetSender =
        s.packetSender ∧
      ∃ padding : List (QueuedPacket Content),
        padding.foldl PacedSender.enqueuePadding { s.view with transportSeq } =
          { ((numberPadding transportSeq raw).foldl (enqueuePacket world) s).view with
            transportSeq := transportSeq + raw.length } := by
  induction raw generalizing s transportSeq with
  | nil =>
      refine ⟨hs, rfl, [], ?_⟩
      simp [numberPadding]
  | cons p rest ih =>
      set numbered : PacedPacket (PacketBody Content) :=
        { p with
          packetType := .padding
          transportSequenceNumber := some transportSeq }
      have hone := enqueued world s numbered
      obtain ⟨q, hq, hview⟩ := view_enqueued hone hs.flushing
      obtain ⟨hready, hsender, padding, hpadding⟩ :=
        ih (ready_enqueued hone hs) (transportSeq + 1)
      refine ⟨hready, hsender.trans hone.sender, q :: padding, ?_⟩
      -- The packet that is enqueued has its type and number already.
      have hnumbered : ({ s.view with transportSeq } : PacedSender _).enqueuePadding q =
          { (s.enqueuePacket world numbered).view with transportSeq := transportSeq + 1 } := by
        have hsame : { q with
            packetType := RtpPacketMediaType.padding
            transportSequenceNumber := some transportSeq } = q := by
          have htype : q.packetType = .padding := congrArg PacedPacket.packetType hq
          have hnumber : q.transportSequenceNumber = some transportSeq :=
            congrArg PacedPacket.transportSequenceNumber hq
          cases q
          simp only at htype hnumber
          rw [htype, hnumber]
        show PacedSender.enqueuePacket { s.view with transportSeq := transportSeq + 1 }
          { q with
            packetType := RtpPacketMediaType.padding
            transportSequenceNumber := some transportSeq } = _
        rw [hsame, hview]
        rfl
      have hlength : transportSeq + ((p :: rest).length : ℤ) = transportSeq + 1 + rest.length := by
        rw [List.length_cons]
        push_cast
        ring
      rw [List.foldl_cons, hnumbered, hpadding, hlength]
      rfl

/-- Filling an empty queue with padding is a call of the pacer. -/
theorem carried_padding {size : ℤ} {padding : List (PacedPacket (PacketBody Content))} (hs : s.Ready)
    (hempty : s.packetQueue.empty = true)
    (h : s.generatePadding world size = (padding, s')) :
    Processed s (padding.foldl (enqueuePacket world) s') := by
  unfold generatePadding at h
  obtain ⟨rfl, rfl⟩ := Prod.mk.inj h
  set raw := (world.generatePadding size s.env).1
  set made : PacingController Env Content := { s with
    env := (world.generatePadding size s.env).2
    packetSender :=
      { s.packetSender with transportSeq := s.packetSender.transportSeq + raw.length } }
  have hmade : made.Ready := ⟨hs.sound, hs.flushing⟩
  obtain ⟨hready, hsender, queued, hqueued⟩ :=
    view_enqueue_padding world raw hmade s.packetSender.transportSeq
  refine Processed.of_call (.queuePadding queued) trivial (Carried.of_call _ hready [] ?_ ?_)
  · rw [hsender, List.append_nil]
  · have hlanes : s.view.packetQueue.empty = true := hs.sound.lanes_empty hempty
    have hfilled : queued.foldl PacedSender.enqueuePadding s.view =
        PacingController.view
          ((numberPadding s.packetSender.transportSeq raw).foldl (enqueuePacket world) made) := by
      have hsame : ({ made.view with transportSeq := s.packetSender.transportSeq } :
          PacedSender (QueuedBody Content)) = s.view := rfl
      rw [hsame] at hqueued
      rw [hqueued]
      unfold view
      rw [hsender]
    unfold PacedSender.hand PacedSender.step
    simp only [hlanes, if_true]
    rw [hfilled]
    rfl

/-! ## Sending -/

/-- Padding for one byte is at most one packet. -/
def OnePadding (world : PacerEnvironment Env Content) : Prop :=
  ∀ env, (world.generatePadding 1 env).1.length ≤ 1

/-- The one packet of padding. -/
theorem padding_made (hone : OnePadding world) {p : PacedPacket (PacketBody Content)}
    {rest : List (PacedPacket (PacketBody Content))}
    (h : s.generatePadding world 1 = (p :: rest, s')) :
    rest = [] ∧ ∃ raw : QueuedPacket Content,
      p = ofQueued (s.view.generatePadding raw).2 ∧ s'.view = (s.view.generatePadding raw).1 ∧
        (s.Ready → s'.Ready) ∧ s'.packetSender.sent = s.packetSender.sent := by
  have hlength := hone s.env
  unfold generatePadding at h
  obtain ⟨hpadding, rfl⟩ := Prod.mk.inj h
  generalize hraw : (world.generatePadding 1 s.env).1 = raw at hlength hpadding
  cases raw with
  | nil => cases hpadding
  | cons first later =>
      obtain rfl : later = [] := by
        rw [List.length_cons] at hlength
        exact List.length_eq_zero_iff.mp (by omega)
      obtain ⟨hp, hrest⟩ := List.cons.inj hpadding
      refine ⟨hrest.symm, QueuedPacket.of first 0 0, hp.symm, ?_, ?_, rfl⟩
      · rfl
      · exact fun hs => ⟨hs.sound, hs.flushing⟩

/-- The controller after a packet was handed over, and what the pacer does for it. -/
theorem view_send (q : QueuedPacket Content) (info : PacedPacketInfo)
    (packetType : RtpPacketMediaType) (size now : ℤ) :
    ((s.sendPacket (ofQueued q) info).onPacketSent packetType size now).view =
        (s.view.sendPacket q).1 ∧
      ((s.sendPacket (ofQueued q) info).onPacketSent packetType size now).packetSender.sent =
        s.packetSender.sent ++ [(ofQueued { q with
          sequenceNumber := s.packetSender.ssrcSeq q.ssrc }, info)] ∧
      (s.Ready → ((s.sendPacket (ofQueued q) info).onPacketSent packetType size now).Ready) := by
  have hquiet := Quiet.packet_sent (s.sendPacket (ofQueued q) info) packetType size now
  refine ⟨hquiet.toSamePackets.view_eq, ?_, fun hs => hquiet.toSamePackets.ready ?_⟩
  · rw [hquiet.sender]
    rfl
  · exact ⟨hs.sound, hs.flushing⟩

/-- What the loop sends is carried out by one call of the pacer. -/
theorem carried_send (hone : OnePadding world) {pacingInfo : PacedPacketInfo}
    {targetSendTime now : ℤ}
    {p : PacedPacket (PacketBody Content)} (hs : s.Ready)
    (h : s.getPendingPacket world pacingInfo targetSendTime now = (some p, s'))
    (packetType : RtpPacketMediaType) (size : ℤ) :
    Processed s ((s'.sendPacket p pacingInfo).onPacketSent packetType size now) := by
  rcases pending_cases h with ⟨-, rest, hmade⟩ | ⟨s₀, q, time, queue, hquiet, hpop, rfl, rfl, -⟩
  · obtain ⟨-, raw, rfl, hview, hready, hsent⟩ := padding_made hone hmade
    obtain ⟨hview', hsent', hready'⟩ := view_send (s := s') (s.view.generatePadding raw).2
      pacingInfo packetType size now
    have hnumbers : s'.packetSender.ssrcSeq = s.packetSender.ssrcSeq :=
      congrArg PacedSender.ssrcSeq hview
    rw [hsent, hnumbers] at hsent'
    refine Processed.of_call (.sendProbePadding raw) trivial
      (Carried.of_call _ (hready' (hready hs)) _ hsent' ?_)
    unfold PacedSender.hand PacedSender.step
    rw [hview', hview]
    rfl
  · set popped : PacingController Env Content := { s₀ with packetQueue := queue }
    have hpopped : popped.Ready :=
      ⟨hs.sound.pop hpop, hquiet.flushing.trans hs.flushing⟩
    obtain ⟨hview', hsent', hready⟩ := view_send (s := popped) q pacingInfo packetType size now
    have hlanes := TimedPacketQueue.lanes_pop hpop
    have hview : popped.view = { s.view with packetQueue := queue.lanes } := by
      unfold view
      show PacedSender.mk _ _ _ _ = PacedSender.mk _ _ _ _
      rw [show popped.packetSender = s.packetSender from hquiet.sender,
        show popped.seenFirstPacket = s.seenFirstPacket from hquiet.seen]
    rw [show popped.packetSender = s.packetSender from hquiet.sender] at hsent'
    refine Processed.of_call .sendNext trivial
      (Carried.of_call _ (hready hpopped) _ hsent' ?_)
    unfold PacedSender.hand PacedSender.step
    simp only [show s.view.packetQueue.pop = some (q, queue.lanes) from hlanes]
    rw [hview', hview]
    rfl

/-- The loop is carried out. -/
theorem carried_loop (hone : OnePadding world) (now recommendedProbeSize : ℤ) (isProbing : Bool)
    (iterations : ℕ) (l : SendLoop Env Content)
    (hs : l.controller.Ready) :
    Processed l.controller
      (sendLoop world now recommendedProbeSize isProbing iterations l).1.controller := by
  refine send_loop_rel (R := fun l l' => l.controller.Ready →
    Processed l.controller l'.controller) ?_ ?_ ?_ ?_ iterations l hs.sound hs
  · intro l l' l'' h h' hs
    exact (h hs).trans (h' (h hs).ready)
  · intro l s targetSendTime hquiet hs
    exact Processed.of_same hquiet.toSamePackets hs
  · intro l size padding s _ hempty hmade _ hs
    exact carried_padding hs hempty hmade
  · intro l p s _ hpending hs
    exact carried_send hone hs hpending _ _

/-- The keep-alive is carried out. -/
theorem carried_keepalive (hone : OnePadding world) (now : ℤ) (hs : s.Ready) :
    Processed s (s.sendKeepalive world now) := by
  unfold sendKeepalive
  split_ifs with hseen
  · generalize hmade : s.generatePadding world 1 = made
    obtain ⟨padding, s'⟩ := made
    cases padding with
    | nil =>
        exact Processed.of_same ((quiet_of_no_padding hmade).1.trans
          (Quiet.packet_sent _ _ _ _)).toSamePackets hs
    | cons p rest =>
        obtain ⟨rfl, raw, rfl, hview, hready, hsent⟩ := padding_made hone hmade
        obtain ⟨hview', hsent', hready'⟩ := view_send (s := s') (s.view.generatePadding raw).2 {}
          .padding (([ofQueued (s.view.generatePadding raw).2].map fun p =>
            (p.content.payloadSize + p.content.paddingSize : ℤ)).sum) now
        have hnumbers : s'.packetSender.ssrcSeq = s.packetSender.ssrcSeq :=
          congrArg PacedSender.ssrcSeq hview
        rw [hsent, hnumbers] at hsent'
        show Processed s ((s'.sendPacket _ {}).onPacketSent .padding _ now)
        refine Processed.of_call (.sendKeepalive raw) trivial
          (Carried.of_call _ (hready' (hready hs)) _ hsent' ?_)
        unfold PacedSender.hand PacedSender.step
        simp only [show s.view.seenFirstPacket = true from hseen, if_true]
        rw [hview', hview]
        rfl
  · exact Processed.of_same (Quiet.packet_sent _ _ _ _).toSamePackets hs

/-- Sending what is due is carried out. -/
theorem carried_due (hone : OnePadding world) (targetSendTime now : ℤ) (hs : s.Ready) :
    Processed s (s.sendDue world targetSendTime now) := by
  obtain ⟨start, recommendedProbeSize, iterations, hstart, -, l, stopped, hloop, hend⟩ :=
    due_cases world s targetSendTime now
  have hsent := carried_loop hone now recommendedProbeSize
    (decide ((s.clusterNow now).2.probeClusterId ≠ kNotAProbe)) iterations
    { controller := start, pacingInfo := (s.clusterNow now).2, targetSendTime }
    (hstart.toSamePackets.ready hs)
  rw [hloop] at hsent
  refine (Processed.of_same hstart.toSamePackets hs).trans (hsent.trans ?_)
  rcases hend with ⟨-, hquiet⟩ | ⟨-, hfinish⟩
  · exact Processed.of_same hquiet.toSamePackets hsent.ready
  · rw [hfinish]
    exact Processed.of_same (untouched_finish l _).toSamePackets hsent.ready

/-- `ProcessPackets` is carried out. -/
theorem carried_process (hone : OnePadding world) (hs : s.Ready) :
    Processed s (s.processPackets world) := by
  obtain ⟨first, hfirst, -, -, alive, halive, hend⟩ := process_cases world s
  have hkept : Processed s alive := by
    rcases halive with rfl | ⟨-, rfl⟩
    · exact Processed.of_same hfirst.toSamePackets hs
    · exact (Processed.of_same hfirst.toSamePackets hs).trans
        (carried_keepalive hone _ (hfirst.toSamePackets.ready hs))
  rcases hend with hquiet | ⟨-, -, hdue⟩
  · exact hkept.trans (Processed.of_same hquiet.toSamePackets hkept.ready)
  · rw [hdue]
    have htime := hkept.trans (Processed.of_same
      (Quiet.next_send_time alive world).toSamePackets hkept.ready)
    exact htime.trans (carried_due hone _ _ htime.ready)

/-! ## All calls -/

/-- Enqueueing a packet through `PacedSender` is a call of the pacer. -/
theorem carried_enqueue (p : PacedPacket (PacketBody Content)) (hs : s.Ready) :
    ∃ block, Carries (.enqueuePacket p) block ∧
      Carried block s (s.enqueuePacketOnQueue world p) := by
  set counted : PacingController Env Content :=
    { s with
      packetSender := { s.packetSender with transportSeq := s.packetSender.transportSeq + 1 } }
  have hcounted : counted.Ready := ⟨hs.sound, hs.flushing⟩
  set numbered : PacedPacket (PacketBody Content) :=
    { p with transportSequenceNumber := some s.packetSender.transportSeq }
  have hone := enqueued world counted numbered
  obtain ⟨q, hq, hview⟩ := view_enqueued hone hs.flushing
  -- The pacer numbers the packet that it gets.
  refine ⟨_, ⟨{ q with transportSequenceNumber := p.transportSequenceNumber }, ?_, rfl⟩,
    Carried.of_call _ (ready_enqueued hone hcounted) [] ?_ ?_⟩
  · have hnumber : ofQueued { q with transportSequenceNumber := p.transportSequenceNumber } =
        { ofQueued q with transportSequenceNumber := p.transportSequenceNumber } := rfl
    rw [hnumber, hq]
  · have hsent : (s.enqueuePacketOnQueue world p).packetSender = counted.packetSender := hone.sender
    rw [hsent, List.append_nil]
  · have hnumber : q.transportSequenceNumber = some s.packetSender.transportSeq :=
      congrArg PacedPacket.transportSequenceNumber hq
    have hsame : s.view.numbered { q with
        transportSequenceNumber := p.transportSequenceNumber } = q := by
      cases q
      simp only at hnumber
      rw [hnumber]
      rfl
    show (({ s.view with transportSeq := s.view.transportSeq + 1 }.enqueuePacket
      (s.view.numbered { q with
        transportSequenceNumber := p.transportSequenceNumber }), []) : PacedSender _ × List _) = _
    rw [hsame]
    exact congrArg₂ Prod.mk hview.symm rfl

/-- Every call of the controller is carried out by calls of the pacer. -/
theorem carried_act (hone : OnePadding world) (call : PacingCall Content) (hs : s.Ready) :
    ∃ block, Carries call block ∧ Carried block s (s.act world call) := by
  have hnow := (Quiet.current_time s world).toSamePackets
  cases call with
  | createProbeClusters =>
      exact ⟨[], rfl, Carried.of_same (SamePackets.of_queue rfl rfl rfl rfl) hs⟩
  | pause =>
      refine ⟨[], rfl, Carried.of_same (hnow.trans ⟨?_, fun hq => hq.pause _ _, rfl, rfl, rfl⟩) hs⟩
      exact QueueHistory.lanes_update _ _
  | resume =>
      refine ⟨[], rfl, Carried.of_same (hnow.trans ⟨?_, fun hq => hq.pause _ _, rfl, rfl, rfl⟩) hs⟩
      exact QueueHistory.lanes_update _ _
  | setCongested congested =>
      refine ⟨[], rfl, Carried.of_same ?_ hs⟩
      show SamePackets s (s.setCongested world congested)
      unfold setCongested
      split_ifs
      · exact (hnow.trans (Quiet.elapse _ _).toSamePackets).trans
          (SamePackets.of_queue rfl rfl rfl rfl)
      · exact SamePackets.of_queue rfl rfl rfl rfl
  | setCircuitBreakerThreshold =>
      exact ⟨[], rfl, Carried.of_same (SamePackets.of_queue rfl rfl rfl rfl) hs⟩
  | removePacketsForSsrc ssrc =>
      refine ⟨_, rfl, Carried.of_call _ ⟨hs.sound.remove ssrc, hs.flushing⟩ [] ?_ rfl⟩
      rw [List.append_nil]
      rfl
  | setProbingEnabled =>
      exact ⟨[], rfl, Carried.of_same (SamePackets.of_queue rfl rfl rfl rfl) hs⟩
  | abortProbing => exact ⟨[], rfl, Carried.of_same (SamePackets.of_queue rfl rfl rfl rfl) hs⟩
  | setPacingRates pacingRate paddingRate =>
      refine ⟨[], rfl,
        Carried.of_same (SamePackets.trans ?_ (Quiet.media_rate _ _).toSamePackets) hs⟩
      exact SamePackets.of_queue rfl rfl rfl rfl
  | enqueuePacket p => exact carried_enqueue p hs
  | setAccountForAudioPackets =>
      exact ⟨[], rfl, Carried.of_same (SamePackets.of_queue rfl rfl rfl rfl) hs⟩
  | setIncludeOverhead => exact ⟨[], rfl, Carried.of_same (SamePackets.of_queue rfl rfl rfl rfl) hs⟩
  | setTransportOverhead =>
      exact ⟨[], rfl, Carried.of_same (SamePackets.of_queue rfl rfl rfl rfl) hs⟩
  | setSendBurstInterval =>
      exact ⟨[], rfl, Carried.of_same (SamePackets.of_queue rfl rfl rfl rfl) hs⟩
  | setAllowProbeWithoutMediaPacket =>
      exact ⟨[], rfl, Carried.of_same (SamePackets.of_queue rfl rfl rfl rfl) hs⟩
  | setQueueTimeLimit => exact ⟨[], rfl, Carried.of_same (SamePackets.of_queue rfl rfl rfl rfl) hs⟩
  | nextSendTime => exact ⟨[], rfl, Carried.of_same (Quiet.next_send_time s world).toSamePackets hs⟩
  | processPackets => exact carried_process hone hs

/-- A ready controller refines the pacer that has its packets. -/
theorem refines_pacer (hone : OnePadding world) :
    Machine.Refines (fun s call => ((step world s call).1, (step world s call).2.map Prod.fst))
      PacedSender.hand Carries fun (s : PacingController Env Content) t => s.Ready ∧ t = s.view where
  step := by
    rintro s - ⟨hs, rfl⟩ call
    obtain ⟨block, hblock, hready, new, hsent, hrun⟩ := carried_act hone call hs
    refine ⟨block, hblock, ?_, hready, congrArg Prod.fst hrun⟩
    rw [hrun]
    show _ = (List.drop _ _).map Prod.fst
    rw [hsent, List.drop_left]

/-- A new controller is ready. -/
theorem ready_new (env : Env) : Ready (new world env : PacingController Env Content) :=
  ⟨TimedPacketQueue.sound_new _, rfl⟩

/-- Every run of the pacing controller is a run of the pacer: the calls of the pacer come in blocks,
one for each call of the controller, and they hand over the same packets in the same order. -/
theorem run_refines_pacer (world : PacerEnvironment Env Content) (hone : OnePadding world)
    (env : Env) (calls : List (PacingCall Content)) :
    ∃ blocks : List (List (PacerCall (QueuedBody Content))),
      List.Forall₂ Carries calls blocks ∧
      (Machine.run PacedSender.hand {} blocks.flatten).1 =
        (Machine.run (step world) (new world env) calls).1.view ∧
      (Machine.run PacedSender.hand {} blocks.flatten).2 =
        (Machine.run (step world) (new world env) calls).2.map Prod.fst := by
  obtain ⟨blocks, hblocks, hseen, -, hstate⟩ :=
    (refines_pacer hone).run (t := new world env) ⟨ready_new env, rfl⟩ calls
  rw [Machine.run_map] at hseen hstate
  exact ⟨blocks, hblocks, hstate, hseen⟩

/-- A clock that goes on by a millisecond whenever it is read, and padding of the size that is asked
for. -/
def steadyWorld : PacerEnvironment ℤ Unit where
  currentTime now := (now, now + 1000)
  generatePadding size now :=
    ([{ ssrc := 0, packetType := .padding,
        content := { paddingSize := size.toNat, content := () } }], now)

/-- A video packet and an audio packet, which overtakes it. -/
def videoThenAudio : List (PacingCall Unit) :=
  [.setPacingRates 1000000 0,
    .enqueuePacket
      { ssrc := 7, packetType := .video, content := { payloadSize := 1000, content := () } },
    .enqueuePacket
      { ssrc := 8, packetType := .audio, content := { payloadSize := 100, content := () } },
    .processPackets]

/-- The pacer carries out that the audio packet is sent first. -/
theorem video_then_audio_refined :
    ((Machine.run (step steadyWorld) (new steadyWorld 0) videoThenAudio).2.map fun sent =>
        (sent.1.ssrc, sent.1.transportSequenceNumber)) = [(8, some 1), (7, some 0)] ∧
      ∃ blocks : List (List (PacerCall (QueuedBody Unit))),
        List.Forall₂ Carries videoThenAudio blocks ∧
        (Machine.run PacedSender.hand {} blocks.flatten).1 =
          (Machine.run (step steadyWorld) (new steadyWorld 0) videoThenAudio).1.view ∧
        (Machine.run PacedSender.hand {} blocks.flatten).2 =
          (Machine.run (step steadyWorld) (new steadyWorld 0) videoThenAudio).2.map Prod.fst :=
  ⟨by decide +kernel,
    run_refines_pacer steadyWorld (fun _ => le_refl 1) 0 videoThenAudio⟩

end PacingController

end MiniRtc
