import MiniRtc.Qos.FeedbackRollback
import MiniRtc.Qos.PacedSender

/-!
# Transport sequence numbers and the order of sending

The pacer numbers a packet when it is enqueued, and `on_sent_packet_func_` of
`ice_transport_controller.cpp` registers it with the feedback adapter when it is sent. The adapter
takes the numbers for the order of sending: it sorts feedback by them, and counts everything up to
the highest acknowledged number as acknowledged.

The main result, `send_order_run`, says that the numbers are in the order of sending along every run
in which no packet overtakes another. `audio_overtakes_video` is a run in which one does.
-/

namespace MiniRtc

/-- A number less than half the circle ahead is unwrapped forwards. -/
theorem SeqNumUnwrapper.unwrap_ahead (u : SeqNumUnwrapper 16) {last n : ℤ}
    (hlast : u.lastValue = some (BitVec.ofInt 16 last)) (hlt : last < n)
    (hhalf : n < last + 2 ^ 15) :
    (u.unwrap (BitVec.ofInt 16 n)).2 = u.lastUnwrapped + (n - last) := by
  have hdiff : ((BitVec.ofInt 16 n - BitVec.ofInt 16 last).toNat : ℤ) = n - last := by
    rw [BitVec.toNat_sub, BitVec.toNat_ofInt, BitVec.toNat_ofInt]
    omega
  have hahead : aheadOrAt (BitVec.ofInt 16 n) (BitVec.ofInt 16 last) = true := by
    unfold aheadOrAt forwardDiff
    rw [if_neg (by omega)]
    exact decide_eq_true (by omega)
  unfold unwrap delta forwardDiff
  rw [hlast]
  simp only [hahead, if_true, hdiff]

/-! ## The sender -/

/-- What becomes of a packet that is handed to `on_sent_packet_func_`. -/
inductive SendOutcome where
  /-- There is no session for its SSRC. -/
  | notRegistered
  /-- The ICE agent does not take it, and the registration is taken back. -/
  | failed
  | sent
  deriving DecidableEq

/-- The pacer, the feedback adapter and the clock, with the transport sequence numbers that were
registered, in the order of the registrations. -/
structure SendSide (Content Info : Type*) where
  pacer : PacedSender Content := {}
  adapter : TransportFeedbackAdapter Info := {}
  nowMs : ℤ := 0
  registered : List ℤ := []

/-- What happens to the sender. -/
inductive SendAction (Content Info : Type*) where
  /-- A call of the pacer after some time, and what becomes of the packet that it sends. -/
  | pace (call : PacerCall Content) (elapsedMs : Nat) (pacingInfo : Info) (delivery : SendOutcome)
  | feedback (feedback : CongestionControlFeedback) (receiveTime : ℤ)
  | setNetworkRoute (networkRoute : NetworkRoute)

/-- The fields of a packet that the adapter reads. -/
def PacedPacket.tracked {Content : Type*} (p : PacedPacket Content) : TrackedPacket where
  transportSequenceNumber := p.transportSequenceNumber
  ssrc := p.ssrc
  sequenceNumber := p.sequenceNumber
  size := p.size
  isAudio := decide (p.packetType = .audio)

namespace SendSide

open TransportFeedbackAdapter

variable {Content Info : Type*}

/-- `on_sent_packet_func_` as far as it concerns the adapter. -/
def onSentPacket (s : SendSide Content Info) (p : PacedPacket Content) (pacingInfo : Info)
    (delivery : SendOutcome) : SendSide Content Info :=
  if delivery = .notRegistered then s
  else
    let adapter := s.adapter.registerPacketForFeedback p.tracked pacingInfo s.nowMs
    { s with
      adapter := if delivery = .failed then adapter.rollbackPacketFeedback p.tracked else adapter
      registered := s.registered ++ p.transportSequenceNumber.toList }

/-- One action. -/
def act (s : SendSide Content Info) : SendAction Content Info → SendSide Content Info
  | .pace call elapsedMs pacingInfo delivery =>
      let paced := s.pacer.step call
      let s := { s with pacer := paced.1, nowMs := s.nowMs + elapsedMs }
      match paced.2 with
      | none => s
      | some p => s.onSentPacket p pacingInfo delivery
  | .feedback feedback receiveTime =>
      { s with adapter := (s.adapter.processCongestionControlFeedback feedback receiveTime).1 }
  | .setNetworkRoute networkRoute => { s with adapter := { s.adapter with networkRoute } }

/-- The packet that a call sends is older than all packets that stay in the queue, and its number is
less than half the circle of 16 bits ahead of the last registered one. -/
def InTurn (s : SendSide Content Info) : SendAction Content Info → Prop
  | .pace call _ _ _ => ∀ p n, (s.pacer.step call).2 = some p →
      p.transportSequenceNumber = some n →
      (∀ q, (s.pacer.step call).1.Queued q → ∀ m, q.transportSequenceNumber = some m → n < m) ∧
        ∀ last, s.registered.getLast? = some last → n < last + 2 ^ 15
  | _ => True

/-- A packet is registered under a number above all earlier ones and above everything that counts as
acknowledged, and feedback is sorted by the time of sending. -/
def InSendOrder (s : SendSide Content Info) : SendAction Content Info → Prop
  | .pace call _ _ delivery => ∀ p n, (s.pacer.step call).2 = some p →
      p.transportSequenceNumber = some n → delivery ≠ .notRegistered →
      (∀ earlier ∈ s.registered, earlier < n) ∧
        s.adapter.lastAckSeqNum < s.adapter.unwrappedNumber n
  | .feedback feedback receiveTime => ∀ result,
      (s.adapter.processCongestionControlFeedback feedback receiveTime).2 = some result →
      result.packetFeedbacks.Pairwise fun a b => ∃ x y,
        a.sentPacket.sendTime = some x ∧ b.sentPacket.sendTime = some y ∧ x ≤ y
  | .setNetworkRoute _ => True

/-! ## The numbers of the pacer -/

/-- Queued packets and registered numbers are older than the next number, and no queued packet is
older than a registered number. -/
structure Numbered (s : PacedSender Content) (registered : List ℤ) : Prop where
  queued : ∀ q, s.Queued q → ∃ m, q.transportSequenceNumber = some m ∧ m < s.transportSeq
  known : ∀ n ∈ registered, n < s.transportSeq
  order : ∀ q, s.Queued q → ∀ m, q.transportSequenceNumber = some m → ∀ n ∈ registered, n < m

namespace Numbered

variable {s : PacedSender Content} {registered : List ℤ}

/-- Enqueueing a packet with the next number. -/
theorem enqueue (h : Numbered s registered) (p : PacedPacket Content)
    (hnumber : p.transportSequenceNumber = some s.transportSeq) :
    Numbered ({ s with transportSeq := s.transportSeq + 1 }.enqueuePacket p) registered where
  queued := by
    intro q hq
    rcases PacedSender.queued_enqueue hq with hold | rfl
    · obtain ⟨m, hm, hlt⟩ := h.queued q hold
      exact ⟨m, hm, hlt.trans (lt_add_one _)⟩
    · exact ⟨s.transportSeq, hnumber, lt_add_one _⟩
  known := fun n hn => (h.known n hn).trans (lt_add_one _)
  order := by
    intro q hq m hm n hn
    rcases PacedSender.queued_enqueue hq with hold | rfl
    · exact h.order q hold m hm n hn
    · rw [hnumber] at hm
      exact Option.some.inj hm ▸ h.known n hn

/-- Fewer queued packets and later numbers. -/
theorem of_queued (h : Numbered s registered) {s' : PacedSender Content}
    (hqueued : ∀ q, s'.Queued q → s.Queued q) (hseq : s.transportSeq ≤ s'.transportSeq) :
    Numbered s' registered where
  queued := by
    intro q hq
    obtain ⟨m, hm, hlt⟩ := h.queued q (hqueued q hq)
    exact ⟨m, hm, lt_of_lt_of_le hlt hseq⟩
  known := fun n hn => lt_of_lt_of_le (h.known n hn) hseq
  order := fun q hq => h.order q (hqueued q hq)

/-- A call keeps the numbers, and what it sends was queued or has the next number. -/
theorem step (hfiled : s.packetQueue.Filed) (h : Numbered s registered)
    (call : PacerCall Content) :
    Numbered (s.step call).1 registered ∧
      ∀ p, (s.step call).2 = some p → ∃ n, p.transportSequenceNumber = some n ∧
        n < (s.step call).1.transportSeq ∧ ∀ earlier ∈ registered, earlier < n := by
  cases call with
  | enqueuePackets packets =>
      refine ⟨?_, fun p hp => by cases hp⟩
      exact List.foldlRecOn packets _ (motive := fun s : PacedSender Content =>
        Numbered s registered) h fun s hs p _ => hs.enqueue (s.numbered p) rfl
  | removePacketsForSsrc ssrc =>
      refine ⟨h.of_queued ?_ (le_refl _), fun p hp => by cases hp⟩
      rintro q ⟨other, level, hq⟩
      unfold PacedSender.step at hq
      simp only at hq
      rw [PrioritizedPacketQueue.lane_remove] at hq
      split_ifs at hq
      · cases hq
      · exact ⟨other, level, hq⟩
  | sendNext =>
      unfold PacedSender.step
      simp only
      split
      · exact ⟨h, fun p hp => by cases hp⟩
      · rename_i front packetQueue hpop
        have hpopped := PrioritizedPacketQueue.popped_of_pop hfiled hpop
        have hfront : s.Queued front :=
          ⟨_, _, by rw [hpopped.front]; exact List.mem_cons_self⟩
        refine ⟨h.of_queued ?_ (le_refl _), fun p hp => ?_⟩
        · -- What is still queued was queued before.
          rintro q ⟨ssrc, level, hq⟩
          by_cases hown : ssrc = front.ssrc ∧ level = front.priorityLevel
          · refine ⟨front.ssrc, front.priorityLevel, ?_⟩
            rw [hown.1, hown.2] at hq
            rw [hpopped.front]
            exact List.mem_cons_of_mem _ hq
          · exact ⟨ssrc, level, hpopped.others ssrc level hown ▸ hq⟩
        · cases hp
          obtain ⟨m, hm, hlt⟩ := h.queued front hfront
          exact ⟨m, hm, hlt, h.order front hfront m hm⟩
  | sendKeepalive padding =>
      unfold PacedSender.step
      simp only
      split_ifs
      · -- Padding overtakes the queue: its number is the next one.
        refine ⟨h.of_queued (fun q hq => hq) (le_of_lt (lt_add_one _)), fun p hp => ?_⟩
        cases hp
        exact ⟨s.transportSeq, rfl, lt_add_one _, h.known⟩
      · exact ⟨h, fun p hp => by cases hp⟩
  | sendProbePadding padding =>
      refine ⟨h.of_queued (fun q hq => hq) (le_of_lt (lt_add_one _)), fun p hp => ?_⟩
      cases hp
      exact ⟨s.transportSeq, rfl, lt_add_one _, h.known⟩
  | queuePadding padding =>
      unfold PacedSender.step
      simp only
      split_ifs
      · refine ⟨?_, fun p hp => by cases hp⟩
        exact List.foldlRecOn padding _ (motive := fun s : PacedSender Content =>
          Numbered s registered) h fun s hs p _ => hs.enqueue _ rfl
      · exact ⟨h, fun p hp => by cases hp⟩

end Numbered

/-! ## The numbers of the adapter -/

/-- The history is sorted by number and by time, and nothing is above a number or after a time. -/
structure Timed (s : TransportFeedbackAdapter Info) (top now : ℤ) : Prop where
  ordered : s.Ordered
  below : ∀ p ∈ s.history, p.sent.sequenceNumber ≤ top
  sent : ∀ p ∈ s.history, ∃ x, p.sent.sendTime = some x ∧ x ≤ now
  monotone : ∀ p ∈ s.history, ∀ q ∈ s.history, ∀ x y, p.sent.sendTime = some x →
    q.sent.sendTime = some y → p.sent.sequenceNumber ≤ q.sent.sequenceNumber → x ≤ y
  mapping : ∀ key n, s.rtpToTransportSequenceNumber key = some n → n ≤ top
  acknowledged : s.lastAckSeqNum ≤ top

namespace Timed

variable {s s' : TransportFeedbackAdapter Info} {top now : ℤ}

/-- A new adapter has no packets. -/
theorem initial (now : ℤ) : Timed ({} : TransportFeedbackAdapter Info) (-1) now where
  ordered := ⟨by simp, List.Pairwise.nil⟩
  below := fun _ h => by cases h
  sent := fun _ h => by cases h
  monotone := fun _ h => by cases h
  mapping := fun _ _ h => by cases h
  acknowledged := le_refl _

/-- Packets and keys may go away, and acknowledgements and time may go on. -/
theorem of_sublist (h : Timed s top now) {now' : ℤ} (hnow : now ≤ now')
    (hhistory : s'.history.Sublist s.history)
    (hmapping : ∀ key n, s'.rtpToTransportSequenceNumber key = some n →
      s.rtpToTransportSequenceNumber key = some n)
    (hacknowledged : s'.lastAckSeqNum ≤ top) : Timed s' top now' where
  ordered := h.ordered.sublist hhistory
  below := fun p hp => h.below p (hhistory.subset hp)
  sent := by
    intro p hp
    obtain ⟨x, hx, hle⟩ := h.sent p (hhistory.subset hp)
    exact ⟨x, hx, hle.trans hnow⟩
  monotone := fun p hp q hq => h.monotone p (hhistory.subset hp) q (hhistory.subset hq)
  mapping := fun key n hn => h.mapping key n (hmapping key n hn)
  acknowledged := hacknowledged

/-- A key that was freed stands for nothing. -/
theorem mapping_freed {mapping : SsrcAndRtpSequencenumber → Option ℤ}
    (freed key : SsrcAndRtpSequencenumber) (n : ℤ)
    (h : Function.update mapping freed none key = some n) : mapping key = some n := by
  by_cases hkey : key = freed
  · rw [hkey, Function.update_self] at h
    cases h
  · rwa [Function.update_of_ne hkey] at h

/-- `RemovePacket` keeps the order of times. -/
theorem removePacket (h : Timed s top now) (packetToSend : TrackedPacket) :
    Timed (s.removePacket packetToSend).1 top now := by
  unfold TransportFeedbackAdapter.removePacket
  split
  · exact h
  · simp only
    split
    · exact h.of_sublist (le_refl _) (List.Sublist.refl _) (mapping_freed _) h.acknowledged
    · exact h.of_sublist (le_refl _) (OrderedMap.erase_sublist _ _) (mapping_freed _)
        h.acknowledged

/-- `RetrievePacketFeedback` keeps the order of times. -/
theorem retrieve (h : Timed s top now) (key : SsrcAndRtpSequencenumber) (received : Bool) :
    Timed (s.retrievePacketFeedback key received).1 top now := by
  unfold retrievePacketFeedback
  split
  · exact h
  · rename_i number hnumber
    have hacknowledge : Timed (s.acknowledgeUpTo number) top now := by
      unfold acknowledgeUpTo
      split_ifs
      · exact h.of_sublist (le_refl _) (List.Sublist.refl _) (fun _ _ hn => hn)
          (h.mapping key number hnumber)
      · exact h
    simp only
    split
    · exact hacknowledge
    · split_ifs
      · exact hacknowledge
      · exact hacknowledge.of_sublist (le_refl _) (OrderedMap.erase_sublist _ _)
          (mapping_freed _) hacknowledge.acknowledged
      · exact hacknowledge

/-- A feedback message keeps the order of times and the last number. -/
theorem feedback (h : Timed s top now) (feedback : CongestionControlFeedback) (receiveTime : ℤ) :
    Timed (s.processCongestionControlFeedback feedback receiveTime).1 top now ∧
      (s.processCongestionControlFeedback feedback receiveTime).1.seqNumUnwrapper =
        s.seqNumUnwrapper := by
  refine feedback_of_processed (P := fun t => Timed t top now ∧
    t.seqNumUnwrapper = s.seqNumUnwrapper) ?_ ?_ ?_ ?_ ⟨h, rfl⟩ feedback receiveTime
  · exact fun t _ ht => ⟨ht.1.of_sublist (le_refl _) (List.Sublist.refl _) (fun _ _ hn => hn)
      ht.1.acknowledged, ht.2⟩
  · exact fun t _ _ ht => ⟨ht.1.of_sublist (le_refl _) (List.Sublist.refl _) (fun _ _ hn => hn)
      ht.1.acknowledged, ht.2⟩
  · intro t key received ht
    refine ⟨ht.1.retrieve key received, ?_⟩
    rw [← ht.2]
    unfold retrievePacketFeedback acknowledgeUpTo
    split
    · rfl
    · simp only
      split
      · split_ifs
        · rfl
        · rfl
      · split_ifs
        all_goals rfl
  · exact fun t _ _ ht => ⟨ht.1.of_sublist (le_refl _) (List.Sublist.refl _) (fun _ _ hn => hn)
      ht.1.acknowledged, ht.2⟩

/-- What `ProcessSentPacket` changes in the history has the time of sending. -/
theorem sent_history (s : TransportFeedbackAdapter Info) (sentPacket : RtcSentPacket) :
    (∀ p ∈ (s.processSentPacket sentPacket).1.history, p ∈ s.history ∨
        p.sent.sendTime = some (sentPacket.sendTimeMs * 1000)) ∧
      (sentPacket.includedInFeedback →
        (s.processSentPacket sentPacket).1.seqNumUnwrapper =
          (s.seqNumUnwrapper.unwrap (BitVec.ofInt 16 sentPacket.packetId)).1) := by
  unfold processSentPacket
  simp only
  split
  · split
    · exact ⟨fun p hp => Or.inl hp, fun _ => rfl⟩
    · split
      · refine ⟨fun p hp => ?_, fun _ => rfl⟩
        rcases OrderedMap.mem_of_mem_insert_or_assign hp with rfl | hold
        · exact Or.inr rfl
        · exact Or.inl hold
      · refine ⟨fun p hp => ?_, fun _ => rfl⟩
        rcases OrderedMap.mem_of_mem_insert_or_assign hp with rfl | hold
        · exact Or.inr rfl
        · exact Or.inl hold
  · rename_i huntracked
    have hnot : ¬ sentPacket.includedInFeedback = true := fun hin => huntracked (Or.inl hin)
    split
    · exact ⟨fun p hp => Or.inl hp, fun hin => absurd hin hnot⟩
    · exact ⟨fun p hp => Or.inl hp, fun hin => absurd hin hnot⟩

/-- The history has one packet for each number. -/
theorem eq_of_number {history : List (PacketFeedback Info)}
    (h : OrderedMap.Ranked transportNumber (fun _ => True) id history) {p q : PacketFeedback Info}
    (hp : p ∈ history) (hq : q ∈ history)
    (hnumber : p.sent.sequenceNumber = q.sent.sequenceNumber) : p = q := by
  have hfoundP := (find_history_iff h).mpr ⟨hp, hnumber⟩
  have hfoundQ := (find_history_iff h).mpr ⟨hq, rfl⟩
  exact Option.some.inj (hfoundP.symm.trans hfoundQ)

/-- A registration leaves the packet under its number at the time of sending, and packets that were
there before. -/
theorem register_history (h : s.Ordered) {packet : TrackedPacket} {transportSeq : ℤ}
    (hseq : packet.transportSequenceNumber = some transportSeq) (pacingInfo : Info)
    (sendTimeMs : ℤ)
    (hfree : ∀ p ∈ s.history, p.sent.sequenceNumber ≠ s.unwrappedNumber transportSeq) :
    let s' := s.registerPacketForFeedback packet pacingInfo sendTimeMs
    s'.Ordered ∧ s'.lastAckSeqNum = s.lastAckSeqNum ∧
      s'.seqNumUnwrapper = (s.seqNumUnwrapper.unwrap (BitVec.ofInt 16 transportSeq)).1 ∧
      ∀ p ∈ s'.history, p ∈ s.history ∨
        p.sent.sequenceNumber = s.unwrappedNumber transportSeq ∧
          p.sent.sendTime = some (sendTimeMs * 1000) := by
  intro s'
  set added := s.addPacket packet pacingInfo 0 (sendTimeMs * 1000) with hadded
  set sentPacket : RtcSentPacket :=
    { packetId := Int.bmod transportSeq (2 ^ 32)
      sendTimeMs
      includedInFeedback := true
      includedInAllocation := true
      packetSizeBytes := packet.size } with hsentPacket
  have hregister : s' = (added.processSentPacket sentPacket).1 := by
    show s.registerPacketForFeedback packet pacingInfo sendTimeMs = _
    unfold registerPacketForFeedback
    rw [hseq]
  have haddedOrdered : added.Ordered := ordered_add h packet pacingInfo 0 (sendTimeMs * 1000)
  have hordered : s'.Ordered := hregister ▸ ordered_sent haddedOrdered sentPacket
  have hunwrapper : added.seqNumUnwrapper =
      (s.seqNumUnwrapper.unwrap (BitVec.ofInt 16 transportSeq)).1 := by
    simp only [hadded, addPacket, hseq]
    rfl
  have hlast : added.lastAckSeqNum = s.lastAckSeqNum := by
    simp only [hadded, addPacket, hseq]
    rfl
  have hhistory : added.history = emplaceHistory (s.expireHistory (sendTimeMs * 1000)).history
      (s.newFeedback packet pacingInfo 0 (sendTimeMs * 1000) (s.unwrappedNumber transportSeq)) := by
    simp only [hadded, addPacket, hseq]
    rfl
  have hsame := (added.process_sent_cases sentPacket).1.lastAckSeqNum
  rw [← hregister] at hsame
  refine ⟨hordered, hsame.trans hlast, ?_, ?_⟩
  · rw [hregister, (sent_history added sentPacket).2 rfl, hunwrapper]
    show (SeqNumUnwrapper.unwrap _ (BitVec.ofInt 16 (Int.bmod transportSeq (2 ^ 32)))).1 = _
    rw [of_int_bmod, SeqNumUnwrapper.unwrap_again]
  · have hexpired := expire_suffix (sendTimeMs * 1000) s.lastAckSeqNum s.history s.inFlight
      s.rtpToTransportSequenceNumber
    set new := s.newFeedback packet pacingInfo 0 (sendTimeMs * 1000)
      (s.unwrappedNumber transportSeq) with hnew
    have hsorted : OrderedMap.Ranked transportNumber (fun _ => True) id
        (s.expireHistory (sendTimeMs * 1000)).history := h.sublist hexpired.sublist
    have hnone : OrderedMap.find? before transportNumber new.sent.sequenceNumber
        (s.expireHistory (sendTimeMs * 1000)).history = none := by
      by_contra hfound
      obtain ⟨x, hx⟩ := Option.ne_none_iff_exists'.mp hfound
      obtain ⟨hin, hnumber⟩ := (find_history_iff hsorted).mp hx
      exact hfree x (hexpired.subset hin) hnumber
    obtain ⟨-, found, q, hagain, hfound, hafter, -⟩ := register_eq h hseq pacingInfo sendTimeMs
    obtain ⟨rfl, -⟩ := found_new hsorted hnone hfound
    have hq : q ∈ s'.history := by
      rw [show s'.history = _ from hafter]
      exact OrderedMap.mem_insert_or_assign_self _ _
    -- the packet that was found had no time, so the one written back is the one just sent
    have hqTime : q.sent.sendTime = some (sendTimeMs * 1000) := by
      rcases (sent_history added sentPacket).1 q (hregister ▸ hq) with hold | htime
      · have hnewIn : new ∈ added.history := by
          rw [hhistory]
          exact ((find_history_iff (ranked_emplace _ hsorted)).mp hfound).1
        have hsame := eq_of_number haddedOrdered hold hnewIn hagain.sequenceNumber
        have htime := hagain.sendTime
        rw [hsame] at htime
        cases htime
      · exact htime
    intro p hp
    have hcases : p = q ∨ p ∈ emplaceHistory (s.expireHistory (sendTimeMs * 1000)).history new := by
      rw [show s'.history = _ from hafter] at hp
      exact OrderedMap.mem_of_mem_insert_or_assign hp
    have hisq : p = q → p.sent.sequenceNumber = s.unwrappedNumber transportSeq ∧
        p.sent.sendTime = some (sendTimeMs * 1000) := by
      rintro rfl
      exact ⟨hagain.sequenceNumber, hqTime⟩
    rcases hcases with hsame | hin
    · exact Or.inr (hisq hsame)
    · unfold emplaceHistory at hin
      rw [hnone] at hin
      rcases OrderedMap.mem_of_mem_insert_or_assign hin with hsame | hold
      · have hnumber : p.sent.sequenceNumber = q.sent.sequenceNumber := by
          rw [hsame, hagain.sequenceNumber]
        exact Or.inr (hisq (eq_of_number hordered hp hq hnumber))
      · exact Or.inl (hexpired.subset hold)

/-- Dropping old packets frees keys only. -/
theorem expire_mapping (creationTime lastAckSeqNum : ℤ) (history : List (PacketFeedback Info))
    (inFlight : InFlightBytesTracker) (mapping : SsrcAndRtpSequencenumber → Option ℤ)
    (key : SsrcAndRtpSequencenumber) (n : ℤ)
    (h : (expire creationTime lastAckSeqNum history inFlight mapping).2.2 key = some n) :
    mapping key = some n := by
  induction history generalizing inFlight mapping with
  | nil => exact h
  | cons p rest ih =>
      unfold expire at h
      split at h
      · exact mapping_freed _ _ _ (ih _ _ h)
      · exact h

/-- A registration under a number above all others keeps the order of times. -/
theorem register (h : Timed s top now) {packet : TrackedPacket} {transportSeq : ℤ}
    (hseq : packet.transportSequenceNumber = some transportSeq) (pacingInfo : Info)
    {sendTimeMs : ℤ} (hnow : now ≤ sendTimeMs * 1000) (htop : top < s.unwrappedNumber transportSeq) :
    Timed (s.registerPacketForFeedback packet pacingInfo sendTimeMs)
        (s.unwrappedNumber transportSeq) (sendTimeMs * 1000) ∧
      (s.registerPacketForFeedback packet pacingInfo sendTimeMs).seqNumUnwrapper =
        (s.seqNumUnwrapper.unwrap (BitVec.ofInt 16 transportSeq)).1 := by
  obtain ⟨hordered, hlast, hunwrapper, hhistory⟩ := register_history h.ordered hseq pacingInfo
    sendTimeMs fun p hp => ne_of_lt (lt_of_le_of_lt (h.below p hp) htop)
  have hmapping := (register_eq h.ordered hseq pacingInfo sendTimeMs).1
  refine ⟨⟨hordered, ?_, ?_, ?_, ?_, ?_⟩, hunwrapper⟩
  · intro p hp
    rcases hhistory p hp with hold | ⟨hnumber, -⟩
    · exact (h.below p hold).trans (le_of_lt htop)
    · exact le_of_eq hnumber
  · intro p hp
    rcases hhistory p hp with hold | ⟨-, htime⟩
    · obtain ⟨x, hx, hle⟩ := h.sent p hold
      exact ⟨x, hx, hle.trans hnow⟩
    · exact ⟨_, htime, le_refl _⟩
  · intro p hp q hq x y hx hy hle
    rcases hhistory q hq with holdQ | ⟨hnumberQ, htimeQ⟩
    · rcases hhistory p hp with holdP | ⟨hnumberP, -⟩
      · exact h.monotone p holdP q holdQ x y hx hy hle
      · -- the new packet is not before an old one
        rw [hnumberP] at hle
        exact absurd (htop.trans_le hle) (not_lt.mpr (h.below q holdQ))
    · rw [htimeQ] at hy
      obtain rfl := Option.some.inj hy
      rcases hhistory p hp with holdP | ⟨-, htimeP⟩
      · obtain ⟨x', hx', hle'⟩ := h.sent p holdP
        rw [hx] at hx'
        rw [Option.some.inj hx']
        exact hle'.trans hnow
      · rw [hx] at htimeP
        exact le_of_eq (Option.some.inj htimeP)
  · intro key n hn
    rw [hmapping] at hn
    have hold : ∀ n, (s.expireHistory (sendTimeMs * 1000)).rtpToTransportSequenceNumber key =
        some n → n ≤ s.unwrappedNumber transportSeq := fun n hn =>
      (h.mapping key n (expire_mapping _ _ _ _ _ key n hn)).trans (le_of_lt htop)
    unfold emplaceMapping at hn
    split_ifs at hn
    · exact hold n hn
    · by_cases hkey : key = packet.key
      · rw [hkey, Function.update_self] at hn
        exact le_of_eq (Option.some.inj hn).symm
      · rw [Function.update_of_ne hkey] at hn
        exact hold n hn
  · rw [hlast]
    exact h.acknowledged.trans (le_of_lt htop)

/-- The sent packets that a feedback message reports were in the history. -/
theorem report_results (s : TransportFeedbackAdapter Info) (currentOffset receiveTime : ℤ)
    (acc : ReportProgress Info) (packetInfo : PacketInfo)
    (hacc : acc.adapter.history.Sublist s.history ∧
      ∀ result ∈ acc.results, ∃ p ∈ s.history, result.sentPacket = p.sent) :
    let after := processPacketInfo currentOffset receiveTime acc packetInfo
    after.adapter.history.Sublist s.history ∧
      ∀ result ∈ after.results, ∃ p ∈ s.history, result.sentPacket = p.sent := by
  have hretrieve : (acc.adapter.retrievePacketFeedback packetInfo.key
        packetInfo.arrivalTimeOffset.isSome).1.history.Sublist acc.adapter.history ∧
      ∀ p, (acc.adapter.retrievePacketFeedback packetInfo.key
        packetInfo.arrivalTimeOffset.isSome).2 = some p → p ∈ acc.adapter.history := by
    unfold retrievePacketFeedback
    split
    · exact ⟨List.Sublist.refl _, fun p hp => by cases hp⟩
    · rename_i number _
      have hhistory := (acc.adapter.acknowledge_frame number).1
      simp only
      split
      · exact ⟨by rw [hhistory], fun p hp => by cases hp⟩
      · rename_i found hfound
        rw [hhistory] at hfound
        have hin := (OrderedMap.find_some before_connected hfound).1
        split_ifs
        · exact ⟨by rw [hhistory], fun p hp => by cases hp⟩
        · refine ⟨?_, fun p hp => Option.some.inj hp ▸ hin⟩
          simp only
          rw [hhistory]
          exact OrderedMap.erase_sublist _ _
        · exact ⟨by rw [hhistory], fun p hp => Option.some.inj hp ▸ hin⟩
  unfold processPacketInfo
  simp only
  split
  · exact ⟨hretrieve.1.trans hacc.1, hacc.2⟩
  · rename_i p hp
    have hin := hacc.1.subset (hretrieve.2 p hp)
    have hhistory : ∀ (t : TransportFeedbackAdapter Info) key time,
        (t.rememberAcknowledgedPacket key time).history = t.history := fun _ _ _ => rfl
    have hresults : ∀ result : PacketResult Info, result.sentPacket = p.sent →
        ∀ x ∈ acc.results ++ [result], ∃ p ∈ s.history, x.sentPacket = p.sent := by
      intro result hresult x hx
      rcases List.mem_append.mp hx with hold | hnew
      · exact hacc.2 x hold
      · rw [List.mem_singleton.mp hnew]
        exact ⟨p, hin, hresult⟩
    split_ifs
    · exact ⟨hretrieve.1.trans hacc.1, hacc.2⟩
    · exact ⟨hretrieve.1.trans hacc.1, hresults _ rfl⟩
    · exact ⟨hretrieve.1.trans hacc.1, hacc.2⟩
    · exact ⟨hretrieve.1.trans hacc.1, hresults _ rfl⟩

/-- Feedback is sorted by the time of sending. -/
theorem feedback_sorted (h : Timed s top now) (feedback : CongestionControlFeedback)
    (receiveTime : ℤ) {result : TransportPacketsFeedback Info}
    (hresult : (s.processCongestionControlFeedback feedback receiveTime).2 = some result) :
    result.packetFeedbacks.Pairwise fun a b => ∃ x y,
      a.sentPacket.sendTime = some x ∧ b.sentPacket.sendTime = some y ∧ x ≤ y := by
  have hreports : ∀ r ∈ (s.processReports feedback receiveTime).results,
      ∃ p ∈ s.history, r.sentPacket = p.sent := by
    unfold processReports
    refine (List.foldlRecOn feedback.packets _ (motive := fun acc : ReportProgress Info =>
      acc.adapter.history.Sublist s.history ∧
        ∀ result ∈ acc.results, ∃ p ∈ s.history, result.sentPacket = p.sent) ?_ ?_).2
    · exact ⟨List.Sublist.refl _, fun r hr => by cases hr⟩
    · exact fun acc hacc packetInfo _ => report_results s _ _ acc packetInfo hacc
  unfold processCongestionControlFeedback at hresult
  split_ifs at hresult
  simp only at hresult
  split_ifs at hresult
  obtain rfl := Option.some.inj hresult
  have hsorted := @List.pairwise_mergeSort (PacketResult Info)
    (fun lhs rhs => decide (lhs.sentPacket.sequenceNumber ≤ rhs.sentPacket.sequenceNumber))
    (fun a b c hab hbc => decide_eq_true
      ((of_decide_eq_true hab).trans (of_decide_eq_true hbc)))
    (fun a b => by simpa using le_total a.sentPacket.sequenceNumber b.sentPacket.sequenceNumber)
    (s.processReports feedback receiveTime).results
  refine List.Pairwise.imp_of_mem ?_ hsorted
  intro a b ha hb hle
  obtain ⟨p, hp, hpsent⟩ := hreports a (List.mem_mergeSort.mp ha)
  obtain ⟨q, hq, hqsent⟩ := hreports b (List.mem_mergeSort.mp hb)
  obtain ⟨x, hx, -⟩ := h.sent p hp
  obtain ⟨y, hy, -⟩ := h.sent q hq
  have hnumbers : p.sent.sequenceNumber ≤ q.sent.sequenceNumber := by
    rw [← hpsent, ← hqsent]
    exact of_decide_eq_true hle
  exact ⟨x, y, hpsent ▸ hx, hqsent ▸ hy, h.monotone p hp q hq x y hx hy hnumbers⟩

end Timed

/-! ## Runs -/

/-- The numbers of the pacer, and the numbers and times of the adapter, whose highest number belongs
to the last registration. -/
structure Kept (s : SendSide Content Info) : Prop where
  filed : s.pacer.packetQueue.Filed
  numbered : Numbered s.pacer s.registered
  timed : ∃ top, Timed s.adapter top (s.nowMs * 1000) ∧
    match s.registered.getLast? with
    | none => s.adapter.seqNumUnwrapper.lastValue = none ∧ top = -1
    | some last => s.adapter.seqNumUnwrapper.lastValue = some (BitVec.ofInt 16 last) ∧
        s.adapter.seqNumUnwrapper.lastUnwrapped = top

/-- A new sender. -/
theorem kept_new : Kept ({} : SendSide Content Info) where
  filed := PrioritizedPacketQueue.filed_new
  numbered := ⟨fun _ ⟨_, _, h⟩ => absurd h List.not_mem_nil, fun _ h => absurd h List.not_mem_nil,
    fun _ ⟨_, _, h⟩ => absurd h List.not_mem_nil⟩
  timed := ⟨-1, Timed.initial _, rfl, rfl⟩

/-- `RemovePacket` leaves the unwrapper alone. -/
theorem remove_unwrapper (s : TransportFeedbackAdapter Info) (packetToSend : TrackedPacket) :
    (s.removePacket packetToSend).1.seqNumUnwrapper = s.seqNumUnwrapper := by
  unfold removePacket
  split
  · rfl
  · simp only
    split
    · rfl
    · rfl

/-- A packet that is sent in turn is registered above all others. -/
theorem kept_send {s : SendSide Content Info} (h : s.Kept) {p : PacedPacket Content} {n : ℤ}
    (hnumber : p.transportSequenceNumber = some n) (hknown : n < s.pacer.transportSeq)
    (habove : ∀ earlier ∈ s.registered, earlier < n)
    (hqueued : ∀ q, s.pacer.Queued q → ∀ m, q.transportSequenceNumber = some m → n < m)
    (hhalf : ∀ last, s.registered.getLast? = some last → n < last + 2 ^ 15) (pacingInfo : Info)
    (delivery : SendOutcome) :
    (s.onSentPacket p pacingInfo delivery).Kept ∧
      (delivery ≠ .notRegistered → s.adapter.lastAckSeqNum < s.adapter.unwrappedNumber n) := by
  obtain ⟨top, htimed, htop⟩ := h.timed
  -- Less than half the numbers ahead of the last one, the number is unwrapped upwards.
  have hnew : top < s.adapter.unwrappedNumber n := by
    unfold unwrappedNumber
    cases hlast : s.registered.getLast? with
    | none =>
        rw [hlast] at htop
        unfold SeqNumUnwrapper.unwrap
        simp only [htop.1, htop.2]
        omega
    | some last =>
        rw [hlast] at htop
        rw [SeqNumUnwrapper.unwrap_ahead _ htop.1
          (habove last (List.mem_of_getLast? hlast)) (hhalf last hlast)]
        have hlt := habove last (List.mem_of_getLast? hlast)
        omega
  refine ⟨?_, fun _ => lt_of_le_of_lt htimed.acknowledged hnew⟩
  have htracked : p.tracked.transportSequenceNumber = some n := hnumber
  obtain ⟨hregister, hunwrapper⟩ := htimed.register htracked pacingInfo (le_refl _) hnew
  -- A failed sending is rolled back, which leaves what was registered before.
  have hafter : ∀ adapter, (if delivery = .failed then
      (s.adapter.registerPacketForFeedback p.tracked pacingInfo s.nowMs).rollbackPacketFeedback
        p.tracked
      else s.adapter.registerPacketForFeedback p.tracked pacingInfo s.nowMs) = adapter →
      Timed adapter (s.adapter.unwrappedNumber n) (s.nowMs * 1000) ∧
        adapter.seqNumUnwrapper =
          (s.adapter.seqNumUnwrapper.unwrap (BitVec.ofInt 16 n)).1 := by
    rintro adapter rfl
    split_ifs
    · rw [rollback_eq htracked]
      exact ⟨hregister.removePacket p.tracked, (remove_unwrapper _ _).trans hunwrapper⟩
    · exact ⟨hregister, hunwrapper⟩
  unfold onSentPacket
  by_cases hdelivery : delivery = .notRegistered
  · rw [if_pos hdelivery]
    exact h
  · rw [if_neg hdelivery, hnumber]
    obtain ⟨htimedAfter, hunwrapperAfter⟩ := hafter _ rfl
    refine ⟨h.filed, ⟨h.numbered.queued, ?_, ?_⟩, s.adapter.unwrappedNumber n, htimedAfter, ?_⟩
    · intro m hm
      rcases List.mem_append.mp hm with hold | hlast
      · exact h.numbered.known m hold
      · rw [List.mem_singleton.mp hlast]
        exact hknown
    · intro q hq m hm earlier hearlier
      rcases List.mem_append.mp hearlier with hold | hlast
      · exact h.numbered.order q hq m hm earlier hold
      · rw [List.mem_singleton.mp hlast]
        exact hqueued q hq m hm
    · simp only [Option.toList_some, List.getLast?_append, List.getLast?_singleton,
        Option.some_or]
      rw [hunwrapperAfter]
      exact ⟨rfl, rfl⟩

/-- An action that sends in turn keeps the numbers, and is in the order of sending. -/
theorem kept_act {s : SendSide Content Info} (h : s.Kept) (action : SendAction Content Info)
    (hturn : s.InTurn action) : (s.act action).Kept ∧ s.InSendOrder action := by
  cases action with
  | pace call elapsedMs pacingInfo delivery =>
      obtain ⟨hnumbered, hsent⟩ := h.numbered.step h.filed call
      have hpaced : Kept { s with
          pacer := (s.pacer.step call).1, nowMs := s.nowMs + elapsedMs } := by
        obtain ⟨top, htimed, htop⟩ := h.timed
        refine ⟨PacedSender.filed_step h.filed call, hnumbered, top, ?_, htop⟩
        refine htimed.of_sublist ?_ (List.Sublist.refl _) (fun _ _ hn => hn) htimed.acknowledged
        show s.nowMs * 1000 ≤ (s.nowMs + elapsedMs) * 1000
        omega
      unfold act InSendOrder
      simp only
      cases hpacket : (s.pacer.step call).2 with
      | none => exact ⟨hpaced, fun p n hp => by cases hp⟩
      | some p =>
          obtain ⟨n, hnumber, hknown, habove⟩ := hsent p hpacket
          obtain ⟨hqueued, hhalf⟩ := hturn p n hpacket hnumber
          obtain ⟨hkept, hacknowledged⟩ := kept_send hpaced hnumber hknown habove hqueued hhalf
            pacingInfo delivery
          refine ⟨hkept, fun p' n' hp hn hdelivery => ?_⟩
          cases hp
          rw [hnumber] at hn
          obtain rfl := Option.some.inj hn
          exact ⟨habove, hacknowledged hdelivery⟩
  | feedback feedback receiveTime =>
      obtain ⟨top, htimed, htop⟩ := h.timed
      obtain ⟨hafter, hunwrapper⟩ := htimed.feedback feedback receiveTime
      refine ⟨⟨h.filed, h.numbered, top, hafter, ?_⟩, fun result hresult =>
        htimed.feedback_sorted feedback receiveTime hresult⟩
      show match s.registered.getLast? with
        | none => (s.adapter.processCongestionControlFeedback feedback
            receiveTime).1.seqNumUnwrapper.lastValue = none ∧ top = -1
        | some last => (s.adapter.processCongestionControlFeedback feedback
            receiveTime).1.seqNumUnwrapper.lastValue = some (BitVec.ofInt 16 last) ∧
            (s.adapter.processCongestionControlFeedback feedback
              receiveTime).1.seqNumUnwrapper.lastUnwrapped = top
      rw [hunwrapper]
      exact htop
  | setNetworkRoute networkRoute =>
      obtain ⟨top, htimed, htop⟩ := h.timed
      refine ⟨⟨h.filed, h.numbered, top, ?_, htop⟩, trivial⟩
      exact htimed.of_sublist (le_refl _) (List.Sublist.refl _) (fun _ _ hn => hn)
        htimed.acknowledged

/-- Along a run in which no packet overtakes another, and numbers do not jump by half the circle of
16 bits, packets are registered in the order of their numbers, above everything acknowledged, and
feedback is sorted by the time of sending. -/
theorem send_order_run (actions : List (SendAction Content Info))
    (hturn : Run.Along act InTurn ({} : SendSide Content Info) actions) :
    Run.Along act InSendOrder ({} : SendSide Content Info) actions :=
  hturn.imp (fun _ action h hin => (kept_act h action hin).1)
    (fun _ action h hin => (kept_act h action hin).2) kept_new

/-- A video packet. -/
def videoPacket : PacedPacket Unit :=
  { ssrc := 1, packetType := .video, size := 100, content := () }

/-- An audio packet. -/
def audioPacket : PacedPacket Unit :=
  { ssrc := 2, packetType := .audio, size := 100, content := () }

/-- A video packet is sent before an audio packet is enqueued. -/
def oneAfterTheOther : List (SendAction Unit Unit) :=
  [ .pace (.enqueuePackets [videoPacket]) 0 () .sent,
    .pace .sendNext 1 () .sent,
    .pace (.enqueuePackets [audioPacket]) 0 () .sent ]

/-- Packets that are sent one after the other are in the order of sending. -/
theorem one_after_the_other_in_order :
    Run.Along act InTurn ({} : SendSide Unit Unit) oneAfterTheOther ∧
      Run.Along act InSendOrder ({} : SendSide Unit Unit) oneAfterTheOther := by
  have hturn : Run.Along act InTurn ({} : SendSide Unit Unit) oneAfterTheOther := by
    refine ⟨(fun p n hp => by cases hp), ?_, (fun p n hp => by cases hp), trivial⟩
    intro p n hp hn
    refine ⟨?_, (fun last hlast => by cases hlast)⟩
    -- the queue is empty after the only packet was taken
    rintro q ⟨ssrc, level, hq⟩
    set video : PacedPacket Unit := { videoPacket with transportSequenceNumber := some 0 }
    set queue : PrioritizedPacketQueue Unit := PrioritizedPacketQueue.push {} video
    obtain ⟨left, hpop⟩ : ∃ left, queue.pop = some (video, left) := ⟨_, rfl⟩
    have hpopped := PrioritizedPacketQueue.popped_of_pop
      (PrioritizedPacketQueue.filed_push PrioritizedPacketQueue.filed_new video) hpop
    have hleft : q ∈ left.lane ssrc level := by
      obtain rfl := (Prod.mk.inj (Option.some.inj hpop)).2
      exact hq
    by_cases hown : ssrc = video.ssrc ∧ level = video.priorityLevel
    · have hfront : [video] = video :: left.lane video.ssrc video.priorityLevel := hpopped.front
      rw [hown.1, hown.2, ← (List.cons.inj hfront).2] at hleft
      cases hleft
    · rw [hpopped.others ssrc level hown, PrioritizedPacketQueue.lane_push, if_neg hown] at hleft
      cases hleft
  exact ⟨hturn, send_order_run oneAfterTheOther hturn⟩

/-- A video packet is enqueued before an audio packet, and sent after it. -/
def audioOvertakesVideo : List (SendAction Unit Unit) :=
  [ .pace (.enqueuePackets [videoPacket, audioPacket]) 0 () .sent,
    .pace .sendNext 1 () .sent,
    .pace .sendNext 1 () .sent ]

/-- The video packet is registered under number 0 after the audio packet under number 1. -/
theorem audio_overtakes_video :
    ¬ ∀ actions : List (SendAction Unit Unit),
      Run.Along act InSendOrder ({} : SendSide Unit Unit) actions := by
  intro h
  have hlast := (h audioOvertakesVideo).2.2.1
  have hregistered : 1 < (0 : ℤ) := (hlast
    { videoPacket with transportSequenceNumber := some 0, sequenceNumber := 1 } 0 rfl rfl
    (by decide)).1 1 (List.mem_singleton_self _)
  exact absurd hregistered (by decide)

end SendSide

end MiniRtc
