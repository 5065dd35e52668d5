import MiniRtc.Qos.InFlight

/-!
# Taking a registration back

`RegisterPacketForFeedback` and `RollbackPacketFeedback` of `ice_transport_controller.cpp`. A packet
is registered with the adapter right before it is sent, and when this fails the registration is
taken back. The adapter looks for it by SSRC and RTP sequence number.

The main result, `rollback_exact_iff`, says when this restores the state before the registration.
-/

namespace MiniRtc

namespace TransportFeedbackAdapter

variable {Info : Type*}

/-- `RegisterPacketForFeedback`. The transport sequence number goes through an `int`. -/
def registerPacketForFeedback (s : TransportFeedbackAdapter Info) (packet : TrackedPacket)
    (pacingInfo : Info) (sendTimeMs : ℤ) : TransportFeedbackAdapter Info :=
  match packet.transportSequenceNumber with
  | none => s
  | some transportSeq =>
      ((s.addPacket packet pacingInfo 0 (sendTimeMs * 1000)).processSentPacket
        { packetId := Int.bmod transportSeq (2 ^ 32)
          sendTimeMs
          includedInFeedback := true
          includedInAllocation := true
          packetSizeBytes := packet.size }).1

/-- `RollbackPacketFeedback`. -/
def rollbackPacketFeedback (s : TransportFeedbackAdapter Info) (packet : TrackedPacket) :
    TransportFeedbackAdapter Info :=
  if packet.transportSequenceNumber.isNone then s else (s.removePacket packet).1

/-- The transport sequence number under which the adapter would register a packet now. -/
def unwrappedNumber (s : TransportFeedbackAdapter Info) (transportSeq : ℤ) : ℤ :=
  (s.seqNumUnwrapper.unwrap (BitVec.ofInt 16 transportSeq)).2

/-- Registering a packet and taking it back leaves what the registration left after it dropped the
old packets. -/
structure RollbackExact (s : TransportFeedbackAdapter Info) (packet : TrackedPacket)
    (pacingInfo : Info) (sendTimeMs : ℤ) : Prop where
  history : ((s.registerPacketForFeedback packet pacingInfo sendTimeMs).rollbackPacketFeedback
    packet).history = (s.expireHistory (sendTimeMs * 1000)).history
  mapping : ((s.registerPacketForFeedback packet pacingInfo sendTimeMs).rollbackPacketFeedback
    packet).rtpToTransportSequenceNumber =
      (s.expireHistory (sendTimeMs * 1000)).rtpToTransportSequenceNumber
  outstanding : ∀ route,
    ((s.registerPacketForFeedback packet pacingInfo sendTimeMs).rollbackPacketFeedback
      packet).inFlight.outstanding route =
        (s.expireHistory (sendTimeMs * 1000)).inFlight.outstanding route

/-- After the old packets are dropped the key and the number are free, and the packet counts as
unacknowledged, or it has no bytes, or its route has none in flight. -/
structure RegistersFresh (s : TransportFeedbackAdapter Info) (packet : TrackedPacket)
    (transportSeq sendTimeMs : ℤ) : Prop where
  key : (s.expireHistory (sendTimeMs * 1000)).rtpToTransportSequenceNumber packet.key = none
  number : OrderedMap.find? before transportNumber (s.unwrappedNumber transportSeq)
    (s.expireHistory (sendTimeMs * 1000)).history = none
  bytes : s.unwrappedNumber transportSeq > s.lastAckSeqNum ∨ packet.size = 0 ∨
    (s.expireHistory (sendTimeMs * 1000)).inFlight s.networkRoute.key = none

/-- An `int` keeps the lower 16 bits. -/
theorem of_int_bmod (x : ℤ) : BitVec.ofInt 16 (Int.bmod x (2 ^ 32)) = BitVec.ofInt 16 x := by
  rw [← BitVec.toNat_inj, BitVec.toNat_ofInt, BitVec.toNat_ofInt]
  have hmod : Int.bmod x (2 ^ 32) % (2 ^ 32 : Nat) = x % (2 ^ 32 : Nat) := Int.bmod_emod
  omega

/-- The number of a new packet is found after it was added. -/
theorem find_emplace {history : List (PacketFeedback Info)}
    (h : OrderedMap.Ranked transportNumber (fun _ => True) id history) (p : PacketFeedback Info) :
    ∃ q, OrderedMap.find? before transportNumber p.sent.sequenceNumber (emplaceHistory history p) =
      some q := by
  unfold emplaceHistory
  split_ifs with hfound
  · exact Option.isSome_iff_exists.mp hfound
  · exact ⟨p, (find_history_iff (OrderedMap.ranked_insert_or_assign before_iff trivial h)).mpr
      ⟨OrderedMap.mem_insert_or_assign_self p history, rfl⟩⟩

/-- What a registration makes of the state without the old packets. -/
theorem register_eq {s : TransportFeedbackAdapter Info} (h : s.Ordered) {packet : TrackedPacket}
    {transportSeq : ℤ} (hseq : packet.transportSequenceNumber = some transportSeq)
    (pacingInfo : Info) (sendTimeMs : ℤ) :
    let number := s.unwrappedNumber transportSeq
    let expired := s.expireHistory (sendTimeMs * 1000)
    let new := s.newFeedback packet pacingInfo 0 (sendTimeMs * 1000) number
    let s' := s.registerPacketForFeedback packet pacingInfo sendTimeMs
    s'.rtpToTransportSequenceNumber =
        emplaceMapping expired.rtpToTransportSequenceNumber packet.key number ∧
      ∃ p q, SentAgain p q ∧ OrderedMap.find? before transportNumber number
          (emplaceHistory expired.history new) = some p ∧
        s'.history = OrderedMap.insertOrAssign before transportNumber q
          (emplaceHistory expired.history new) ∧
        s'.inFlight =
          if p.sent.sendTime.isNone ∧ p.sent.sequenceNumber > s.lastAckSeqNum then
            expired.inFlight.add q
          else expired.inFlight := by
  intro number expired new s'
  set added := s.addPacket packet pacingInfo 0 (sendTimeMs * 1000) with hadded
  have hmapping : added.rtpToTransportSequenceNumber =
      emplaceMapping expired.rtpToTransportSequenceNumber packet.key number := by
    simp only [hadded, addPacket, hseq]
    rfl
  have hhistory : added.history = emplaceHistory expired.history new := by
    simp only [hadded, addPacket, hseq]
    rfl
  have hunwrapper : added.seqNumUnwrapper =
      (s.seqNumUnwrapper.unwrap (BitVec.ofInt 16 transportSeq)).1 := by
    simp only [hadded, addPacket, hseq]
    rfl
  have hrest : added.inFlight = expired.inFlight ∧ added.lastAckSeqNum = s.lastAckSeqNum := by
    simp only [hadded, addPacket, hseq]
    exact ⟨rfl, rfl⟩
  have hregister : s' = (added.processSentPacket
      { packetId := Int.bmod transportSeq (2 ^ 32)
        sendTimeMs
        includedInFeedback := true
        includedInAllocation := true
        packetSizeBytes := packet.size }).1 := by
    show s.registerPacketForFeedback packet pacingInfo sendTimeMs = _
    unfold registerPacketForFeedback
    rw [hseq]
  have hsorted : OrderedMap.Ranked transportNumber (fun _ => True) id expired.history :=
    h.sublist (expire_suffix _ _ _ _ _).sublist
  obtain ⟨p, hp⟩ := find_emplace hsorted new
  obtain ⟨hframe, hcases⟩ := added.process_sent_cases
    { packetId := Int.bmod transportSeq (2 ^ 32)
      sendTimeMs
      includedInFeedback := true
      includedInAllocation := true
      packetSizeBytes := packet.size }
  rw [← hregister] at hframe hcases
  -- The sent packet has the number again, as an `int`, and it is unwrapped to the same one.
  have hnumber : (added.seqNumUnwrapper.unwrap
      (BitVec.ofInt 16 (Int.bmod transportSeq (2 ^ 32)))).2 = number := by
    rw [of_int_bmod, hunwrapper, SeqNumUnwrapper.unwrap_again]
    rfl
  refine ⟨hframe.mapping.trans hmapping, ?_⟩
  rw [hnumber, hhistory, hrest.1, hrest.2] at hcases
  rcases hcases with ⟨hnone, -⟩ | ⟨found, q, hfound, hagain, hafter, hbytes⟩
  · cases hp.symm.trans (hnone rfl)
  · exact ⟨found, q, hagain, hfound, hafter, hbytes⟩

/-- Registering a free key and a free number, what is found is the new packet. -/
theorem found_new {history : List (PacketFeedback Info)}
    (h : OrderedMap.Ranked transportNumber (fun _ => True) id history) {new p : PacketFeedback Info}
    (hfree : OrderedMap.find? before transportNumber new.sent.sequenceNumber history = none)
    (hfound : OrderedMap.find? before transportNumber new.sent.sequenceNumber
      (emplaceHistory history new) = some p) :
    p = new ∧ emplaceHistory history new = OrderedMap.insertOrAssign before transportNumber new
      history := by
  have hemplace : emplaceHistory history new =
      OrderedMap.insertOrAssign before transportNumber new history := by
    unfold emplaceHistory
    rw [hfree]
    rfl
  rw [hemplace] at hfound ⊢
  have hself := (find_history_iff (OrderedMap.ranked_insert_or_assign before_iff trivial h)).mpr
    ⟨OrderedMap.mem_insert_or_assign_self new history, rfl⟩
  rw [hself] at hfound
  exact ⟨(Option.some.inj hfound).symm, rfl⟩

/-- `RemovePacket` frees the key. -/
theorem remove_mapping (s : TransportFeedbackAdapter Info) (packet : TrackedPacket) :
    (s.removePacket packet).1.rtpToTransportSequenceNumber =
      Function.update s.rtpToTransportSequenceNumber packet.key none := by
  unfold removePacket
  cases hmapped : s.rtpToTransportSequenceNumber packet.key with
  | none => exact (Function.update_eq_self_iff.mpr hmapped.symm).symm
  | some number =>
      simp only
      split
      · rfl
      · rfl

/-- A rollback removes the packet that the key stands for after the registration. -/
theorem rollback_eq {s : TransportFeedbackAdapter Info} {packet : TrackedPacket}
    {transportSeq : ℤ} (hseq : packet.transportSequenceNumber = some transportSeq) :
    s.rollbackPacketFeedback packet = (s.removePacket packet).1 := by
  unfold rollbackPacketFeedback
  rw [hseq]
  rfl

/-- Bytes that were added are taken off again, on every route. -/
theorem outstanding_add_remove (f : InFlightBytesTracker) {p : PacketFeedback Info}
    (hsent : p.sent.sendTime.isSome = true) (route : NetworkRoute) :
    ((f.add p).remove p).outstanding route = f.outstanding route := by
  have hnone : p.sent.sendTime.isNone = false := by
    rw [← Option.not_isSome, hsent]
    rfl
  unfold InFlightBytesTracker.remove InFlightBytesTracker.add InFlightBytesTracker.outstanding
  simp only [hnone, Bool.false_eq_true, if_false, Function.update_self, Function.update_idem]
  by_cases hroute : route.key = p.networkRoute.key
  · rw [hroute, Function.update_self]
    split_ifs with hzero
    · show (0 : ℤ) = _
      omega
    · show (f p.networkRoute.key).getD 0 + (p.sent.size : ℤ) - p.sent.size = _
      omega
  · rw [Function.update_of_ne hroute]

/-- Bytes that were not added are taken off none of the routes just when there are none, or the
route of the packet has no count. -/
theorem outstanding_remove_iff (f : InFlightBytesTracker) {p : PacketFeedback Info}
    (hsent : p.sent.sendTime.isSome = true) :
    (∀ route, (f.remove p).outstanding route = f.outstanding route) ↔
      p.sent.size = 0 ∨ f p.networkRoute.key = none := by
  have hbytes : sentBytes p = p.sent.size := by
    unfold sentBytes
    rw [if_pos hsent]
  constructor
  · intro h
    have hroute := h p.networkRoute
    rw [outstanding_remove, hbytes] at hroute
    cases hcount : f p.networkRoute.key with
    | none => exact Or.inr rfl
    | some bytes =>
        left
        rw [hcount] at hroute
        simp only [Option.isSome_some, if_true] at hroute
        omega
  · intro h route
    by_cases hroute : route.key = p.networkRoute.key
    · have hsame : ∀ g : InFlightBytesTracker, g.outstanding route = g.outstanding p.networkRoute := by
        intro g
        unfold InFlightBytesTracker.outstanding
        rw [hroute]
      rw [hsame, hsame, outstanding_remove, hbytes]
      rcases h with hzero | hnone
      · rw [hzero]
        simp
      · rw [hnone]
        simp
    · unfold InFlightBytesTracker.remove InFlightBytesTracker.outstanding
      split_ifs
      · rfl
      · cases f p.networkRoute.key with
        | none => rfl
        | some bytes =>
            simp only
            rw [Function.update_of_ne hroute]

/-- Registering a packet of a free key and a free number, and taking it back, restores the history
and the keys, and the bytes when they were added or there is nothing to take off. -/
theorem rollback_of_free {s : TransportFeedbackAdapter Info} (h : s.Ordered)
    {packet : TrackedPacket} {transportSeq : ℤ}
    (hseq : packet.transportSequenceNumber = some transportSeq) (pacingInfo : Info)
    (sendTimeMs : ℤ)
    (hkey : (s.expireHistory (sendTimeMs * 1000)).rtpToTransportSequenceNumber packet.key = none)
    (hnumber : OrderedMap.find? before transportNumber (s.unwrappedNumber transportSeq)
      (s.expireHistory (sendTimeMs * 1000)).history = none) :
    RollbackExact s packet pacingInfo sendTimeMs ↔
      s.unwrappedNumber transportSeq > s.lastAckSeqNum ∨ packet.size = 0 ∨
        (s.expireHistory (sendTimeMs * 1000)).inFlight s.networkRoute.key = none := by
  have hsorted : OrderedMap.Ranked transportNumber (fun _ => True) id
      (s.expireHistory (sendTimeMs * 1000)).history :=
    h.sublist (expire_suffix _ _ _ _ _).sublist
  obtain ⟨hmapping, p, q, hagain, hfound, hhistory, hbytes⟩ :=
    register_eq h hseq pacingInfo sendTimeMs
  set number := s.unwrappedNumber transportSeq with hnumberdef
  set expired := s.expireHistory (sendTimeMs * 1000) with hexpired
  set new := s.newFeedback packet pacingInfo 0 (sendTimeMs * 1000) number with hnew
  set s' := s.registerPacketForFeedback packet pacingInfo sendTimeMs with hs'
  obtain ⟨rfl, hemplace⟩ := @found_new _ _ hsorted new _ hnumber hfound
  rw [hemplace] at hhistory
  -- The key was free, so it stands for the number now, and the removal finds the packet by it.
  have hmapped : s'.rtpToTransportSequenceNumber =
      Function.update expired.rtpToTransportSequenceNumber packet.key (some number) := by
    rw [hmapping]
    unfold emplaceMapping
    rw [hkey]
    rfl
  have hqnumber : transportNumber q = number := hagain.sequenceNumber
  have hsorted' : OrderedMap.Ranked transportNumber (fun _ => True) id s'.history := by
    rw [hhistory]
    exact OrderedMap.ranked_insert_or_assign before_iff trivial
      (OrderedMap.ranked_insert_or_assign before_iff trivial hsorted)
  have hq : OrderedMap.find? before transportNumber number s'.history = some q := by
    refine (find_history_iff hsorted').mpr ⟨?_, hqnumber⟩
    rw [hhistory]
    exact OrderedMap.mem_insert_or_assign_self q _
  have hregistered : s'.registered packet.key = some q := by
    unfold registered
    rw [hmapped, Function.update_self]
    exact hq
  obtain ⟨-, -, hcases⟩ := s'.remove_packet_cases packet
  rcases hcases with ⟨hnone, -⟩ | ⟨number', q', hfound', hreg', hremoved, hremovedBytes⟩
  · rw [hregistered] at hnone
    cases hnone
  obtain rfl : q' = q := Option.some.inj (hreg'.symm.trans hregistered)
  obtain rfl : number' = number := by
    rw [← ((find_history_iff hsorted').mp hfound').2]
    exact hqnumber
  have hafter : (s'.removePacket packet).1.history = expired.history := by
    rw [hremoved, hhistory, ← hqnumber,
      OrderedMap.erase_insert_or_assign before_irrefl q',
      hqnumber, show number = transportNumber new from rfl,
      OrderedMap.erase_insert_or_assign before_irrefl new]
    exact OrderedMap.erase_of_find_none hnumber
  have hkeys : (s'.removePacket packet).1.rtpToTransportSequenceNumber =
      expired.rtpToTransportSequenceNumber := by
    rw [remove_mapping, hmapped, Function.update_idem]
    exact Function.update_eq_self_iff.mpr hkey.symm
  -- History and keys come back in any case: what is left are the bytes in flight.
  have hexact : RollbackExact s packet pacingInfo sendTimeMs ↔
      ∀ route, (s'.inFlight.remove q').outstanding route = expired.inFlight.outstanding route := by
    constructor
    · intro hall route
      have hroute := hall.outstanding route
      rwa [rollback_eq hseq, hremovedBytes] at hroute
    · intro hall
      refine ⟨?_, ?_, fun route => ?_⟩
      · rw [rollback_eq hseq]
        exact hafter
      · rw [rollback_eq hseq]
        exact hkeys
      · rw [rollback_eq hseq, hremovedBytes]
        exact hall route
  rw [hexact, hbytes]
  have hsize : q'.sent.size = packet.size := hagain.size
  have hroute : q'.networkRoute = s.networkRoute := hagain.networkRoute
  by_cases hcounted : number > s.lastAckSeqNum
  · rw [if_pos ⟨rfl, hcounted⟩]
    exact iff_of_true (outstanding_add_remove _ hagain.sendTime) (Or.inl hcounted)
  · rw [if_neg fun hboth => hcounted hboth.2, outstanding_remove_iff _ hagain.sendTime, hsize,
      hroute]
    exact (or_iff_right hcounted).symm

/-- A key that another packet holds is lost. -/
theorem not_exact_of_key {s : TransportFeedbackAdapter Info}
    {packet : TrackedPacket} {transportSeq : ℤ}
    (hseq : packet.transportSequenceNumber = some transportSeq) (pacingInfo : Info)
    (sendTimeMs : ℤ)
    (hkey : (s.expireHistory (sendTimeMs * 1000)).rtpToTransportSequenceNumber packet.key ≠ none) :
    ¬ RollbackExact s packet pacingInfo sendTimeMs := by
  intro hexact
  have hmapping := hexact.mapping
  rw [rollback_eq hseq, remove_mapping] at hmapping
  refine hkey ?_
  rw [← hmapping, Function.update_self]

/-- A number that another packet holds is lost, together with that packet. -/
theorem not_exact_of_number {s : TransportFeedbackAdapter Info} (h : s.Ordered)
    {packet : TrackedPacket} {transportSeq : ℤ}
    (hseq : packet.transportSequenceNumber = some transportSeq) (pacingInfo : Info)
    (sendTimeMs : ℤ)
    (hkey : (s.expireHistory (sendTimeMs * 1000)).rtpToTransportSequenceNumber packet.key = none)
    (hnumber : OrderedMap.find? before transportNumber (s.unwrappedNumber transportSeq)
      (s.expireHistory (sendTimeMs * 1000)).history ≠ none) :
    ¬ RollbackExact s packet pacingInfo sendTimeMs := by
  intro hexact
  obtain ⟨hmapping, p, q, hagain, hfound, hhistory, -⟩ := register_eq h hseq pacingInfo sendTimeMs
  set s' := s.registerPacketForFeedback packet pacingInfo sendTimeMs with hs'
  have hsorted : OrderedMap.Ranked transportNumber (fun _ => True) id
      (s.expireHistory (sendTimeMs * 1000)).history :=
    h.sublist (expire_suffix _ _ _ _ _).sublist
  have hsorted' : OrderedMap.Ranked transportNumber (fun _ => True) id s'.history := by
    rw [hhistory]
    exact OrderedMap.ranked_insert_or_assign before_iff trivial (ranked_emplace _ hsorted)
  have hqnumber : transportNumber q = s.unwrappedNumber transportSeq :=
    hagain.sequenceNumber.trans ((find_history_iff (ranked_emplace _ hsorted)).mp hfound).2
  have hq : OrderedMap.find? before transportNumber (s.unwrappedNumber transportSeq) s'.history =
      some q := by
    refine (find_history_iff hsorted').mpr ⟨?_, hqnumber⟩
    rw [hhistory]
    exact OrderedMap.mem_insert_or_assign_self q _
  have hremoved : (s'.removePacket packet).1.history =
      OrderedMap.erase before transportNumber (s.unwrappedNumber transportSeq) s'.history := by
    have hmapped : s'.rtpToTransportSequenceNumber packet.key =
        some (s.unwrappedNumber transportSeq) := by
      rw [hmapping]
      unfold emplaceMapping
      rw [hkey]
      exact Function.update_self ..
    unfold removePacket
    simp only [hmapped, hq]
  obtain ⟨other, hother⟩ := Option.ne_none_iff_exists'.mp hnumber
  obtain ⟨hmem, hothernumber⟩ := (find_history_iff hsorted).mp hother
  have hgone : other ∈ OrderedMap.erase before transportNumber
      (s.unwrappedNumber transportSeq) s'.history := by
    have hafter := hexact.history
    rw [rollback_eq hseq, hremoved] at hafter
    rw [hafter]
    exact hmem
  exact ((OrderedMap.mem_erase_iff before_iff before_connected trivial hsorted').mp hgone).2
    hothernumber

/-- In every state that calls and changes of the route lead to, registering a packet and taking it
back restores what the registration left of the old packets exactly when its key and its number are
free there, and the packet counts as unacknowledged, has no bytes, or its route has none in
flight. -/
theorem rollback_exact_iff (actions : List (Action Info)) (packet : TrackedPacket)
    (transportSeq : ℤ) (pacingInfo : Info) (sendTimeMs : ℤ) :
    RollbackExact (actions.foldl act ({} : TransportFeedbackAdapter Info))
        { packet with transportSequenceNumber := some transportSeq } pacingInfo sendTimeMs ↔
      RegistersFresh (actions.foldl act ({} : TransportFeedbackAdapter Info))
        { packet with transportSequenceNumber := some transportSeq } transportSeq sendTimeMs := by
  have h := ordered_run actions
  set s := actions.foldl act ({} : TransportFeedbackAdapter Info) with hs
  set p : TrackedPacket := { packet with transportSequenceNumber := some transportSeq } with hp
  by_cases hkey : (s.expireHistory (sendTimeMs * 1000)).rtpToTransportSequenceNumber p.key = none
  · by_cases hnumber : OrderedMap.find? before transportNumber (s.unwrappedNumber transportSeq)
        (s.expireHistory (sendTimeMs * 1000)).history = none
    · rw [rollback_of_free h rfl pacingInfo sendTimeMs hkey hnumber]
      exact ⟨fun hbytes => ⟨hkey, hnumber, hbytes⟩, RegistersFresh.bytes⟩
    · exact iff_of_false (not_exact_of_number h rfl pacingInfo sendTimeMs hkey hnumber)
        fun hfresh => hnumber hfresh.number
  · exact iff_of_false (not_exact_of_key rfl pacingInfo sendTimeMs hkey)
      fun hfresh => hkey hfresh.key

/-- A packet was sent under a key, and 65536 packets later another one has it. -/
def sentBefore : List (Action Unit) :=
  (sendPacket (mediaPacket 1 5 100) 1 1).map Action.call

/-- Taking the second packet back removes the first one instead. -/
theorem rollback_removes_other :
    ¬ ∀ (actions : List (Action Unit)) (packet : TrackedPacket) (transportSeq sendTimeMs : ℤ),
      transportSeq ∉ actions.filterMap (fun
        | .call (.addPacket p _ _ _) => p.transportSequenceNumber
        | _ => none) →
      RollbackExact (actions.foldl act {})
        { packet with transportSequenceNumber := some transportSeq } () sendTimeMs := by
  intro h
  have hexact := h sentBefore (mediaPacket 2 5 100) 2 1000 (by decide)
  have hafter := congrArg (List.map transportNumber) hexact.history
  exact absurd hafter (by decide +kernel)

end TransportFeedbackAdapter

end MiniRtc
