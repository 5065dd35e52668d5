import MiniRtc.Qos.TransportFeedback

/-!
# Bytes in flight

The adapter counts the bytes of the packets that were sent and not acknowledged yet. They are added
when a packet is sent, and taken off when an acknowledgement passes the packet, when it expires, and
when it is removed because it could not be sent. The last of these does not ask whether the packet
was acknowledged before.

The main result, `accounted_iff`, says that the count is right in every state of a run exactly when
no call removes a packet that was acknowledged while other bytes are in flight.
-/

namespace MiniRtc

namespace TransportFeedbackAdapter

variable {Info : Type*}

/-- The bytes of a packet that was sent. -/
def sentBytes (p : PacketFeedback Info) : ℤ :=
  if p.sent.sendTime.isSome then p.sent.size else 0

/-- The bytes of a packet that was sent and is not acknowledged. -/
def unacknowledgedBytes (lastAckSeqNum : ℤ) (p : PacketFeedback Info) : ℤ :=
  if p.sent.sequenceNumber > lastAckSeqNum then sentBytes p else 0

/-- The bytes of the packets of the history that were sent and are not acknowledged. -/
def bytesInFlight (s : TransportFeedbackAdapter Info) : ℤ :=
  (s.history.map (unacknowledgedBytes s.lastAckSeqNum)).sum

/-- The count is the sum of the sizes, and so it is not negative. -/
def Accounted (s : TransportFeedbackAdapter Info) : Prop :=
  s.getOutstandingData = s.bytesInFlight ∧ 0 ≤ s.getOutstandingData

/-- All packets of the history were sent on the route in use. -/
def OneRoute (s : TransportFeedbackAdapter Info) : Prop :=
  ∀ p ∈ s.history, p.networkRoute = s.networkRoute

/-- The packet of the history that is registered under a key. -/
def registered (s : TransportFeedbackAdapter Info) (key : SsrcAndRtpSequencenumber) :
    Option (PacketFeedback Info) :=
  (s.rtpToTransportSequenceNumber key).bind fun number =>
    OrderedMap.find? before transportNumber number s.history

/-- A removal concerns no packet that was acknowledged after it was sent, unless it is empty or
nothing is in flight. -/
def RemovesUnacknowledged (s : TransportFeedbackAdapter Info) : Call Info → Prop
  | .removePacket packetToSend =>
      ∀ p, s.registered packetToSend.key = some p → p.sent.sendTime.isSome →
        p.sent.sequenceNumber ≤ s.lastAckSeqNum →
          p.sent.size = 0 ∨ s.inFlight p.networkRoute.key = none
  | _ => True

/-! ## The count of one route -/

/-- The bytes of a packet are not negative. -/
theorem sent_bytes_nonneg (p : PacketFeedback Info) : 0 ≤ sentBytes p := by
  unfold sentBytes
  split_ifs
  · exact Int.natCast_nonneg _
  · exact le_rfl

/-- The unacknowledged bytes of a packet are not negative. -/
theorem unacknowledged_nonneg (lastAckSeqNum : ℤ) (p : PacketFeedback Info) :
    0 ≤ unacknowledgedBytes lastAckSeqNum p := by
  unfold unacknowledgedBytes
  split_ifs
  · exact sent_bytes_nonneg p
  · exact le_rfl

/-- Sums over packets are not negative. -/
theorem sum_nonneg_of (f : PacketFeedback Info → ℤ) (hf : ∀ p, 0 ≤ f p)
    (packets : List (PacketFeedback Info)) : 0 ≤ (packets.map f).sum := by
  refine List.sum_nonneg fun x hx => ?_
  obtain ⟨p, -, rfl⟩ := List.mem_map.mp hx
  exact hf p

/-- Adding counts the bytes on the route of the packet. -/
theorem outstanding_add (f : InFlightBytesTracker) (p : PacketFeedback Info) :
    (f.add p).outstanding p.networkRoute = f.outstanding p.networkRoute + p.sent.size := by
  unfold InFlightBytesTracker.add InFlightBytesTracker.outstanding
  rw [Function.update_self]
  rfl

/-- Removing takes the bytes off the route of the packet, if it has a count. -/
theorem outstanding_remove (f : InFlightBytesTracker) (p : PacketFeedback Info) :
    (f.remove p).outstanding p.networkRoute =
      f.outstanding p.networkRoute -
        if (f p.networkRoute.key).isSome then sentBytes p else 0 := by
  unfold InFlightBytesTracker.remove InFlightBytesTracker.outstanding sentBytes
  cases hsent : p.sent.sendTime with
  | none => simp
  | some time =>
      cases hcount : f p.networkRoute.key with
      | none => simp [hcount]
      | some bytes =>
          simp only [Option.isNone_some, Bool.false_eq_true, if_false, Function.update_self,
            Option.isSome_some, if_true, Option.getD_some]
          split_ifs with hzero
          · exact hzero.symm
          · rfl

/-- When the count covers a packet and more, removing the packet leaves the rest. -/
theorem outstanding_remove_of_covered {f : InFlightBytesTracker} {p : PacketFeedback Info}
    {rest : ℤ} (h : f.outstanding p.networkRoute = sentBytes p + rest) (hrest : 0 ≤ rest) :
    (f.remove p).outstanding p.networkRoute = rest := by
  rw [outstanding_remove, h]
  split_ifs with hcount
  · omega
  · have hzero : f.outstanding p.networkRoute = 0 := by
      unfold InFlightBytesTracker.outstanding
      rw [Option.not_isSome_iff_eq_none.mp hcount]
      rfl
    have := sent_bytes_nonneg p
    omega

/-- The same for several packets of one route. -/
theorem outstanding_remove_all {route : NetworkRoute} {packets : List (PacketFeedback Info)}
    (hroute : ∀ p ∈ packets, p.networkRoute = route) {f : InFlightBytesTracker} {rest : ℤ}
    (h : f.outstanding route = (packets.map sentBytes).sum + rest) (hrest : 0 ≤ rest) :
    (packets.foldl InFlightBytesTracker.remove f).outstanding route = rest := by
  induction packets generalizing f with
  | nil => simpa using h
  | cons p packets ih =>
      have hp := hroute p List.mem_cons_self
      have hsum : f.outstanding p.networkRoute =
          sentBytes p + ((packets.map sentBytes).sum + rest) := by
        rw [hp, h, List.map_cons, List.sum_cons]
        omega
      have hnonneg := sum_nonneg_of sentBytes sent_bytes_nonneg packets
      refine ih (fun q hq => hroute q (List.mem_cons_of_mem _ hq)) ?_
      rw [← hp]
      exact outstanding_remove_of_covered hsum (by omega)

/-! ## The calls -/

/-- Expired packets are no longer counted. -/
theorem expire_outstanding {route : NetworkRoute} {creationTime lastAckSeqNum : ℤ}
    {history : List (PacketFeedback Info)} (hroute : ∀ p ∈ history, p.networkRoute = route)
    {f : InFlightBytesTracker} {mapping : SsrcAndRtpSequencenumber → Option ℤ}
    (h : f.outstanding route = (history.map (unacknowledgedBytes lastAckSeqNum)).sum) :
    (expire creationTime lastAckSeqNum history f mapping).2.1.outstanding route =
      ((expire creationTime lastAckSeqNum history f mapping).1.map
        (unacknowledgedBytes lastAckSeqNum)).sum := by
  induction history generalizing f mapping with
  | nil => exact h
  | cons p rest ih =>
      rw [List.map_cons, List.sum_cons] at h
      have hp := hroute p List.mem_cons_self
      unfold expire
      split
      · refine ih (fun q hq => hroute q (List.mem_cons_of_mem _ hq)) ?_
        split_ifs with hnumber
        · rw [← hp] at h ⊢
          refine outstanding_remove_of_covered ?_
            (sum_nonneg_of _ (unacknowledged_nonneg lastAckSeqNum) rest)
          rw [h]
          unfold unacknowledgedBytes
          rw [if_pos hnumber]
        · rw [h]
          unfold unacknowledgedBytes
          rw [if_neg hnumber, zero_add]
      · rw [h, List.map_cons, List.sum_cons]

/-- A packet that is written to the history takes the place of the packet of its number. -/
theorem perm_history (p : PacketFeedback Info) (history : List (PacketFeedback Info)) :
    (OrderedMap.insertOrAssign before transportNumber p history).Perm
      (p :: OrderedMap.erase before transportNumber (transportNumber p) history) :=
  OrderedMap.perm_insert_or_assign p history

/-- A new packet is not counted before it is sent. -/
theorem sum_emplace (lastAckSeqNum : ℤ) {history : List (PacketFeedback Info)}
    {p : PacketFeedback Info} (hunsent : p.sent.sendTime = none) :
    ((emplaceHistory history p).map (unacknowledgedBytes lastAckSeqNum)).sum =
      (history.map (unacknowledgedBytes lastAckSeqNum)).sum := by
  unfold emplaceHistory
  split_ifs with hfound
  · rfl
  · have hnone := Option.not_isSome_iff_eq_none.mp hfound
    have hperm := perm_history p history
    have herase : OrderedMap.erase before transportNumber (transportNumber p) history = history :=
      OrderedMap.erase_of_find_none hnone
    rw [herase] at hperm
    rw [(hperm.map _).sum_eq, List.map_cons, List.sum_cons]
    unfold unacknowledgedBytes sentBytes
    simp [hunsent]

/-- The sum after a packet was replaced. -/
theorem sum_replace (f : PacketFeedback Info → ℤ) {history : List (PacketFeedback Info)}
    {number : ℤ} {p q : PacketFeedback Info}
    (hfound : OrderedMap.find? before transportNumber number history = some p)
    (hnumber : transportNumber q = number) :
    ((OrderedMap.insertOrAssign before transportNumber q history).map f).sum + f p =
      (history.map f).sum + f q := by
  have hnew := perm_history q history
  have hold := OrderedMap.perm_erase_of_find hfound
  rw [hnumber] at hnew
  rw [(hnew.map f).sum_eq, (hold.map f).sum_eq, List.map_cons, List.map_cons, List.sum_cons,
    List.sum_cons]
  omega

/-- The sum after a packet was erased. -/
theorem sum_erase (f : PacketFeedback Info → ℤ) {history : List (PacketFeedback Info)}
    {number : ℤ} {p : PacketFeedback Info}
    (hfound : OrderedMap.find? before transportNumber number history = some p) :
    (history.map f).sum =
      f p + ((OrderedMap.erase before transportNumber number history).map f).sum := by
  rw [((OrderedMap.perm_erase_of_find hfound).map f).sum_eq, List.map_cons, List.sum_cons]

/-- What holds in every state of a run on one route. -/
structure OnRoute (s : TransportFeedbackAdapter Info) : Prop where
  ordered : s.Ordered
  oneRoute : s.OneRoute

/-- The sum of the unacknowledged bytes is not negative. -/
theorem bytes_in_flight_nonneg (s : TransportFeedbackAdapter Info) : 0 ≤ s.bytesInFlight :=
  sum_nonneg_of _ (unacknowledged_nonneg s.lastAckSeqNum) s.history

/-- A count that is the sum of the sizes is right. -/
theorem accounted_of_eq {s : TransportFeedbackAdapter Info}
    (h : s.getOutstandingData = s.bytesInFlight) : s.Accounted :=
  ⟨h, h ▸ s.bytes_in_flight_nonneg⟩

/-- `AddPacket` writes packets of the route in use. -/
theorem one_route_add {s : TransportFeedbackAdapter Info} (h : s.OneRoute)
    (packetToSend : TrackedPacket) (pacingInfo : Info) (overheadBytes : Nat) (creationTime : ℤ) :
    (s.addPacket packetToSend pacingInfo overheadBytes creationTime).OneRoute := by
  unfold addPacket
  split
  · exact h
  · intro p hp
    simp only [emplaceHistory] at hp
    split_ifs at hp
    · exact h p ((expire_suffix _ _ _ _ _).subset hp)
    · rcases OrderedMap.mem_of_mem_insert_or_assign hp with rfl | hold
      · rfl
      · exact h p ((expire_suffix _ _ _ _ _).subset hold)

/-- `AddPacket` keeps the count right. -/
theorem accounted_add {s : TransportFeedbackAdapter Info} (h : s.OneRoute)
    (hcount : s.Accounted) (packetToSend : TrackedPacket) (pacingInfo : Info)
    (overheadBytes : Nat) (creationTime : ℤ) :
    (s.addPacket packetToSend pacingInfo overheadBytes creationTime).Accounted := by
  unfold addPacket
  split
  · exact hcount
  · refine accounted_of_eq ?_
    show (expire _ _ _ _ _).2.1.outstanding _ = (List.map _ (emplaceHistory _ _)).sum
    rw [sum_emplace _ rfl]
    exact expire_outstanding h hcount.1

/-- `ProcessSentPacket` keeps the route of the packets. -/
theorem one_route_sent {s : TransportFeedbackAdapter Info} (h : s.OnRoute)
    (sentPacket : RtcSentPacket) : (s.processSentPacket sentPacket).1.OneRoute := by
  obtain ⟨hframe, hcases⟩ := s.process_sent_cases sentPacket
  unfold OneRoute
  rw [hframe.networkRoute]
  rcases hcases with ⟨-, hsame, -⟩ | ⟨p, q, hfound, hagain, hhistory, -⟩
  · rw [hsame]
    exact h.oneRoute
  · rw [hhistory]
    intro other hother
    rcases OrderedMap.mem_of_mem_insert_or_assign hother with rfl | hold
    · rw [hagain.networkRoute]
      exact h.oneRoute p ((find_history_iff h.ordered).mp hfound).1
    · exact h.oneRoute other hold

/-- `ProcessSentPacket` keeps the count right. -/
theorem accounted_sent {s : TransportFeedbackAdapter Info} (h : s.OnRoute) (hcount : s.Accounted)
    (sentPacket : RtcSentPacket) : (s.processSentPacket sentPacket).1.Accounted := by
  obtain ⟨hframe, hcases⟩ := s.process_sent_cases sentPacket
  refine accounted_of_eq ?_
  unfold getOutstandingData bytesInFlight
  rw [hframe.networkRoute, hframe.lastAckSeqNum]
  have hbefore : s.inFlight.outstanding s.networkRoute =
      (s.history.map (unacknowledgedBytes s.lastAckSeqNum)).sum := hcount.1
  rcases hcases with ⟨-, hhistory, hbytes⟩ | ⟨p, q, hfound, hagain, hhistory, hbytes⟩
  · rw [hhistory, hbytes]
    exact hbefore
  · have hmem := (find_history_iff h.ordered).mp hfound
    have hsum := sum_replace (unacknowledgedBytes s.lastAckSeqNum) hfound
      (hagain.sequenceNumber.trans hmem.2)
    have hq : unacknowledgedBytes s.lastAckSeqNum q =
        if p.sent.sequenceNumber > s.lastAckSeqNum then (p.sent.size : ℤ) else 0 := by
      unfold unacknowledgedBytes sentBytes
      rw [hagain.sequenceNumber, hagain.sendTime, hagain.size, if_pos rfl]
    rw [hhistory, hbytes]
    have hroute : q.networkRoute = s.networkRoute :=
      hagain.networkRoute.trans (h.oneRoute p hmem.1)
    cases hsent : p.sent.sendTime with
    | none =>
        have hp : unacknowledgedBytes s.lastAckSeqNum p = 0 := by
          unfold unacknowledgedBytes sentBytes
          simp [hsent]
        rw [hp] at hsum
        split_ifs with hadd
        · rw [← hroute, outstanding_add, hroute, hbefore, hagain.size]
          rw [hq, if_pos hadd.2] at hsum
          omega
        · have hacked : ¬ p.sent.sequenceNumber > s.lastAckSeqNum := fun hlt => hadd ⟨rfl, hlt⟩
          rw [hq, if_neg hacked] at hsum
          omega
    | some time =>
        have hp : unacknowledgedBytes s.lastAckSeqNum p = unacknowledgedBytes s.lastAckSeqNum q := by
          rw [hq]
          unfold unacknowledgedBytes sentBytes
          simp [hsent]
        rw [if_neg (by simp), hbefore]
        omega

/-- The packets that an acknowledgement passes are those up to its number. -/
theorem newly_covered_eq {s : TransportFeedbackAdapter Info} (h : s.Ordered) (number : ℤ) :
    s.newlyCovered number = s.history.filter fun p =>
      decide (s.lastAckSeqNum < p.sent.sequenceNumber ∧ p.sent.sequenceNumber ≤ number) := by
  unfold newlyCovered
  have hupper := OrderedMap.upper_bound_eq_filter before_iff trivial (k := s.lastAckSeqNum) h
  have hsorted : OrderedMap.Ranked transportNumber (fun _ => True) id
      (OrderedMap.upperBound before transportNumber s.lastAckSeqNum s.history) :=
    h.sublist (List.dropWhile_sublist _)
  have hmono : (OrderedMap.upperBound before transportNumber s.lastAckSeqNum s.history).Pairwise
      fun a b => (!before number (transportNumber b)) = true →
        (!before number (transportNumber a)) = true := by
    refine hsorted.sorted.imp ?_
    intro a b hab hb
    simp only [before, Bool.not_eq_true', decide_eq_false_iff_not, not_lt, id_eq] at hab hb ⊢
    omega
  rw [(OrderedMap.take_while_eq_filter hmono).1, hupper, List.filter_filter]
  refine List.filter_congr fun p _ => ?_
  show (!before number p.sent.sequenceNumber &&
    decide (s.lastAckSeqNum < p.sent.sequenceNumber)) = _
  unfold before
  by_cases hover : number < p.sent.sequenceNumber
  · simp [hover, not_le.mpr hover]
  · simp [hover, not_lt.mp hover]

/-- The bytes before an acknowledgement are those of the packets that it passes and those after
it. -/
theorem sum_acknowledged (last number : ℤ) (hlt : last < number)
    (history : List (PacketFeedback Info)) :
    (history.map (unacknowledgedBytes last)).sum =
      ((history.filter fun p =>
        decide (last < p.sent.sequenceNumber ∧ p.sent.sequenceNumber ≤ number)).map
          sentBytes).sum + (history.map (unacknowledgedBytes number)).sum := by
  induction history with
  | nil => rfl
  | cons p rest ih =>
      have hp : unacknowledgedBytes last p =
          (if last < p.sent.sequenceNumber ∧ p.sent.sequenceNumber ≤ number then sentBytes p
          else 0) + unacknowledgedBytes number p := by
        unfold unacknowledgedBytes
        split_ifs <;> omega
      rw [List.map_cons, List.sum_cons, List.map_cons, List.sum_cons, List.filter_cons, ih, hp]
      by_cases hpassed : last < p.sent.sequenceNumber ∧ p.sent.sequenceNumber ≤ number
      · rw [if_pos hpassed, if_pos (decide_eq_true hpassed), List.map_cons, List.sum_cons]
        omega
      · rw [if_neg hpassed, if_neg (by simpa using hpassed)]
        omega

/-- An acknowledgement keeps the count right. -/
theorem accounted_acknowledge {s : TransportFeedbackAdapter Info} (h : s.OnRoute)
    (hcount : s.Accounted) (number : ℤ) : (s.acknowledgeUpTo number).Accounted := by
  unfold acknowledgeUpTo
  split_ifs with hlt
  · refine accounted_of_eq ?_
    show ((s.newlyCovered number).foldl InFlightBytesTracker.remove s.inFlight).outstanding
      s.networkRoute = (s.history.map (unacknowledgedBytes number)).sum
    have hcovered := newly_covered_eq h.ordered number
    refine outstanding_remove_all (fun p hp => ?_) ?_
      (sum_nonneg_of _ (unacknowledged_nonneg number) _)
    · rw [hcovered] at hp
      exact h.oneRoute p (List.mem_filter.mp hp).1
    · rw [hcovered, ← sum_acknowledged s.lastAckSeqNum number hlt]
      exact hcount.1
  · exact hcount

/-- An acknowledgement reaches its number, and leaves history and route alone. -/
theorem acknowledge_frame (s : TransportFeedbackAdapter Info) (number : ℤ) :
    (s.acknowledgeUpTo number).history = s.history ∧
      (s.acknowledgeUpTo number).networkRoute = s.networkRoute ∧
      number ≤ (s.acknowledgeUpTo number).lastAckSeqNum := by
  unfold acknowledgeUpTo
  split_ifs with hlt
  · exact ⟨rfl, rfl, le_rfl⟩
  · exact ⟨rfl, rfl, not_lt.mp hlt⟩

/-- `RetrievePacketFeedback` keeps the count right. -/
theorem accounted_retrieve {s : TransportFeedbackAdapter Info} (h : s.OnRoute)
    (hcount : s.Accounted) (key : SsrcAndRtpSequencenumber) (received : Bool) :
    (s.retrievePacketFeedback key received).1.OneRoute ∧
      (s.retrievePacketFeedback key received).1.Accounted := by
  unfold retrievePacketFeedback
  split
  · exact ⟨h.oneRoute, hcount⟩
  · rename_i number _
    obtain ⟨hhistory, hroute, hreached⟩ := s.acknowledge_frame number
    have hacknowledged := accounted_acknowledge h hcount number
    have hone : (s.acknowledgeUpTo number).OneRoute := by
      unfold OneRoute
      rw [hhistory, hroute]
      exact h.oneRoute
    simp only
    split
    · exact ⟨hone, hacknowledged⟩
    · rename_i p hfound
      split_ifs
      · exact ⟨hone, hacknowledged⟩
      · refine ⟨fun q hq => hone q (OrderedMap.mem_of_mem_erase hq), accounted_of_eq ?_⟩
        have hsum := sum_erase (unacknowledgedBytes (s.acknowledgeUpTo number).lastAckSeqNum) hfound
        have hnumber := (find_history_iff (hhistory ▸ h.ordered)).mp hfound
        have hzero : unacknowledgedBytes (s.acknowledgeUpTo number).lastAckSeqNum p = 0 := by
          unfold unacknowledgedBytes
          rw [if_neg (by omega)]
        rw [hzero, zero_add] at hsum
        exact hacknowledged.1.trans hsum
      · exact ⟨hone, hacknowledged⟩

/-- A feedback message keeps the count right. -/
theorem accounted_feedback {s : TransportFeedbackAdapter Info} (h : s.OnRoute)
    (hcount : s.Accounted) (feedback : CongestionControlFeedback) (receiveTime : ℤ) :
    (s.processCongestionControlFeedback feedback receiveTime).1.OneRoute ∧
      (s.processCongestionControlFeedback feedback receiveTime).1.Accounted := by
  have hall : ∀ s : TransportFeedbackAdapter Info, s.OnRoute ∧ s.Accounted →
      ∀ key received, (s.retrievePacketFeedback key received).1.OnRoute ∧
        (s.retrievePacketFeedback key received).1.Accounted := by
    rintro s ⟨h, hcount⟩ key received
    obtain ⟨hone, hafter⟩ := accounted_retrieve h hcount key received
    exact ⟨⟨ordered_retrieve h.ordered key received, hone⟩, hafter⟩
  have hkept := feedback_of_processed (P := fun s => s.OnRoute ∧ s.Accounted)
    (fun _ _ hs => ⟨⟨hs.1.ordered, hs.1.oneRoute⟩, hs.2⟩)
    (fun _ _ _ hs => ⟨⟨hs.1.ordered, hs.1.oneRoute⟩, hs.2⟩)
    (fun s key received hs => hall s hs key received)
    (fun _ _ _ hs => ⟨⟨hs.1.ordered, hs.1.oneRoute⟩, hs.2⟩) ⟨h, hcount⟩ feedback receiveTime
  exact ⟨hkept.1.oneRoute, hkept.2⟩

/-- What `RemovePacket` does to history and bytes in flight. -/
theorem remove_packet_cases (s : TransportFeedbackAdapter Info) (packetToSend : TrackedPacket) :
    let s' := (s.removePacket packetToSend).1
    s'.lastAckSeqNum = s.lastAckSeqNum ∧ s'.networkRoute = s.networkRoute ∧
      (s.registered packetToSend.key = none ∧ s'.history = s.history ∧ s'.inFlight = s.inFlight ∨
        ∃ number p, OrderedMap.find? before transportNumber number s.history = some p ∧
          s.registered packetToSend.key = some p ∧
          s'.history = OrderedMap.erase before transportNumber number s.history ∧
          s'.inFlight = s.inFlight.remove p) := by
  unfold removePacket registered
  cases hmapped : s.rtpToTransportSequenceNumber packetToSend.key with
  | none => exact ⟨rfl, rfl, Or.inl ⟨rfl, rfl, rfl⟩⟩
  | some number =>
      simp only [Option.bind_some]
      cases hfound : OrderedMap.find? before transportNumber number s.history with
      | none => exact ⟨rfl, rfl, Or.inl ⟨rfl, rfl, rfl⟩⟩
      | some p =>
          refine ⟨rfl, rfl, Or.inr ⟨number, p, hfound, rfl, rfl, ?_⟩⟩
          show (if p.sent.sendTime.isSome then s.inFlight.remove p else s.inFlight) = _
          split_ifs with hsent
          · rfl
          · unfold InFlightBytesTracker.remove
            rw [if_pos (by simpa using hsent)]

/-- A removal keeps the count right just when it takes off bytes that are in it. -/
theorem accounted_remove_iff {s : TransportFeedbackAdapter Info} (h : s.OnRoute)
    (hcount : s.Accounted) (packetToSend : TrackedPacket) :
    (s.removePacket packetToSend).1.Accounted ↔
      s.RemovesUnacknowledged (.removePacket packetToSend) := by
  obtain ⟨hlast, hroute, hcases⟩ := s.remove_packet_cases packetToSend
  have hiff : (s.removePacket packetToSend).1.Accounted ↔
      (s.removePacket packetToSend).1.inFlight.outstanding s.networkRoute =
        ((s.removePacket packetToSend).1.history.map
          (unacknowledgedBytes s.lastAckSeqNum)).sum := by
    refine ⟨fun hacc => ?_, fun heq => accounted_of_eq ?_⟩
    · have := hacc.1
      unfold getOutstandingData bytesInFlight at this
      rwa [hroute, hlast] at this
    · unfold getOutstandingData bytesInFlight
      rwa [hroute, hlast]
  rw [hiff]
  have hbefore : s.inFlight.outstanding s.networkRoute =
      (s.history.map (unacknowledgedBytes s.lastAckSeqNum)).sum := hcount.1
  rcases hcases with ⟨hnone, hhistory, hbytes⟩ | ⟨number, p, hfound, hsome, hhistory, hbytes⟩
  · rw [hhistory, hbytes]
    refine ⟨fun _ p hp => ?_, fun _ => hbefore⟩
    rw [hnone] at hp
    cases hp
  · have hp : p.networkRoute = s.networkRoute :=
      h.oneRoute p ((find_history_iff h.ordered).mp hfound).1
    have hsum := sum_erase (unacknowledgedBytes s.lastAckSeqNum) hfound
    have hnonneg := sum_nonneg_of _ (unacknowledged_nonneg s.lastAckSeqNum)
      (OrderedMap.erase before transportNumber number s.history)
    have hcondition : s.RemovesUnacknowledged (.removePacket packetToSend) ↔
        (p.sent.sendTime.isSome → p.sent.sequenceNumber ≤ s.lastAckSeqNum →
          p.sent.size = 0 ∨ s.inFlight p.networkRoute.key = none) := by
      constructor
      · intro hall
        exact hall p hsome
      · intro hone q hq
        rw [hsome] at hq
        rwa [← Option.some.inj hq]
    rw [hhistory, hbytes, hcondition, ← hp]
    rw [← hp] at hbefore
    by_cases hcovered : unacknowledgedBytes s.lastAckSeqNum p = sentBytes p
    · -- The bytes of the packet are in the count, or it has none.
      have hgood := outstanding_remove_of_covered (hbefore.trans (hcovered ▸ hsum)) hnonneg
      refine ⟨fun _ hsent hacked => Or.inl ?_, fun _ => hgood⟩
      unfold unacknowledgedBytes sentBytes at hcovered
      rw [if_neg (not_lt.mpr hacked), if_pos hsent] at hcovered
      omega
    · -- An acknowledged packet: taking off its bytes leaves too few, unless nothing is taken off.
      have hacked : p.sent.sequenceNumber ≤ s.lastAckSeqNum := by
        by_contra hnot
        exact hcovered (by unfold unacknowledgedBytes; rw [if_pos (by omega)])
      have hzero : unacknowledgedBytes s.lastAckSeqNum p = 0 := by
        unfold unacknowledgedBytes
        rw [if_neg (not_lt.mpr hacked)]
      have hsent : p.sent.sendTime.isSome = true := by
        by_contra hnot
        refine hcovered ?_
        unfold unacknowledgedBytes sentBytes
        simp [hnot]
      have hsize : sentBytes p = p.sent.size := by
        unfold sentBytes
        rw [if_pos hsent]
      rw [outstanding_remove, hbefore, hsum, hzero, hsize]
      simp only [hsent, hacked, true_implies]
      rw [← Option.isNone_iff_eq_none, ← Option.not_isSome]
      split_ifs with hpresent
      · simp only [hpresent, Bool.not_true, Bool.false_eq_true, or_false]
        omega
      · simp [hpresent]

/-- The route stays the same when a packet is removed. -/
theorem one_route_remove {s : TransportFeedbackAdapter Info} (h : s.OnRoute)
    (packetToSend : TrackedPacket) : (s.removePacket packetToSend).1.OneRoute := by
  obtain ⟨-, hroute, hcases⟩ := s.remove_packet_cases packetToSend
  unfold OneRoute
  rw [hroute]
  rcases hcases with ⟨-, hhistory, -⟩ | ⟨number, p, -, -, hhistory, -⟩
  · rw [hhistory]
    exact h.oneRoute
  · rw [hhistory]
    exact fun q hq => h.oneRoute q (OrderedMap.mem_of_mem_erase hq)

/-- One call keeps the order and the route, and the count just when it removes no acknowledged
bytes. -/
theorem accounted_step_iff {s : TransportFeedbackAdapter Info} (h : s.OnRoute)
    (hcount : s.Accounted) (call : Call Info) :
    (s.step call).OnRoute ∧ ((s.step call).Accounted ↔ s.RemovesUnacknowledged call) := by
  have hordered := ordered_step h.ordered call
  cases call with
  | addPacket packetToSend pacingInfo overheadBytes creationTime =>
      exact ⟨⟨hordered, one_route_add h.oneRoute _ _ _ _⟩,
        iff_of_true (accounted_add h.oneRoute hcount _ _ _ _) trivial⟩
  | removePacket packetToSend =>
      exact ⟨⟨hordered, one_route_remove h packetToSend⟩,
        accounted_remove_iff h hcount packetToSend⟩
  | processSentPacket sentPacket =>
      exact ⟨⟨hordered, one_route_sent h sentPacket⟩,
        iff_of_true (accounted_sent h hcount sentPacket) trivial⟩
  | processCongestionControlFeedback feedback receiveTime =>
      obtain ⟨hone, hafter⟩ := accounted_feedback h hcount feedback receiveTime
      exact ⟨⟨hordered, hone⟩, iff_of_true hafter trivial⟩

/-! ## Runs -/

/-- An adapter that has sent nothing is right about it. -/
theorem accounted_new (networkRoute : NetworkRoute) :
    ({ networkRoute } : TransportFeedbackAdapter Info).OnRoute ∧
      ({ networkRoute } : TransportFeedbackAdapter Info).Accounted :=
  ⟨⟨⟨by simp, List.Pairwise.nil⟩, by simp [OneRoute]⟩, accounted_of_eq rfl⟩

/-- In a run on one route the bytes in flight are the sizes of the packets that were sent and are not
acknowledged, in every state, exactly when every packet that is removed is unacknowledged or has no
bytes, or nothing is in flight. -/
theorem accounted_iff (networkRoute : NetworkRoute) (calls : List (Call Info)) :
    (∀ first rest, calls = first ++ rest →
        (first.foldl step ({ networkRoute } : TransportFeedbackAdapter Info)).Accounted) ↔
      Run.Along step RemovesUnacknowledged { networkRoute } calls := by
  obtain ⟨hroute, hcount⟩ := @accounted_new Info networkRoute
  rw [← Run.invariant_iff_along (I := fun s => s.OnRoute ∧ s.Accounted)
    (fun s call h => by
      obtain ⟨hafter, hiff⟩ := accounted_step_iff h.1 h.2 call
      rw [← hiff]
      exact and_iff_right hafter) ⟨hroute, hcount⟩]
  refine ⟨fun h first => ?_, fun h first rest heq => (h first rest heq).2⟩
  induction first using List.reverseRecOn with
  | nil => exact fun _ _ => ⟨hroute, hcount⟩
  | append_singleton earlier call ih =>
      intro rest heq
      obtain ⟨honce, hbefore⟩ := ih (call :: rest) (by rw [heq, List.append_assoc]; rfl)
      refine ⟨?_, h _ rest heq⟩
      rw [List.foldl_append]
      exact (accounted_step_iff honce hbefore call).1

/-- A packet on the media SSRC. -/
def mediaPacket (transportSequenceNumber : ℤ) (sequenceNumber : BitVec 16) (size : Nat) :
    TrackedPacket :=
  { transportSequenceNumber := some transportSequenceNumber, ssrc := 7, sequenceNumber, size }

/-- Adding a packet and reporting it as sent. -/
def sendPacket (p : TrackedPacket) (number timeMs : ℤ) : List (Call Unit) :=
  [.addPacket p () 0 (timeMs * 1000),
    .processSentPacket
      { packetId := number
        sendTimeMs := timeMs
        includedInFeedback := true
        includedInAllocation := true
        packetSizeBytes := p.size }]

/-- Packet 2 overtakes packet 1 and is acknowledged. Then packet 3 is sent, and packet 1 as well,
which fails. -/
def failedAfterOvertaken : List (Call Unit) :=
  sendPacket (mediaPacket 2 20 100) 2 1 ++
    [.processCongestionControlFeedback
      { packets := [{ ssrc := 7, sequenceNumber := 20, arrivalTimeOffset := some 0 }]
        reportTimestampCompactNtp := 0 } 20000] ++
    sendPacket (mediaPacket 3 30 50) 3 30 ++ sendPacket (mediaPacket 1 10 100) 1 31 ++
    [.removePacket (mediaPacket 1 10 100)]

/-- The bytes of packet 1 are taken off although they were never counted. -/
theorem removal_takes_foreign_bytes :
    ¬ ∀ calls : List (Call Unit),
      (calls.foldl step ({} : TransportFeedbackAdapter Unit)).Accounted := by
  intro h
  have hnegative : (failedAfterOvertaken.foldl step
      ({} : TransportFeedbackAdapter Unit)).getOutstandingData = -50 := by decide +kernel
  have hnonneg := (h failedAfterOvertaken).2
  rw [hnegative] at hnonneg
  exact absurd hnonneg (by decide)

end TransportFeedbackAdapter

end MiniRtc
