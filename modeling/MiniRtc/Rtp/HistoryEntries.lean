import MiniRtc.Rtp.HistorySlots

/-!
# The packet history as a map

Seen from outside the history maps sequence numbers to stored packets. `PutRtpPacket` writes one
entry and may drop others, and the remaining calls change the flags and times of one entry.
-/

namespace MiniRtc.RtpPacketHistory

/-- The entry that a lookup by number finds. -/
def storedEntry (h : RtpPacketHistory) (sequenceNumber : BitVec 16) : Option StoredPacket :=
  (h.getStoredPacket sequenceNumber).bind fun index => h.packetHistory[index]?

/-- An entry is a slot with the packet of that number. -/
theorem stored_entry_iff {h : RtpPacketHistory} (hwell : h.WellFormed)
    {sequenceNumber : BitVec 16} {stored : StoredPacket} :
    h.storedEntry sequenceNumber = some stored ↔
      stored ∈ h.packetHistory ∧
        ∃ packet, stored.packet = some packet ∧ packet.sequenceNumber = sequenceNumber := by
  unfold storedEntry
  rw [Option.bind_eq_some_iff]
  constructor
  · rintro ⟨index, hindex, hget⟩
    obtain ⟨found, packet, hfound, hpacket⟩ := (get_stored_packet_iff hwell _ _).mp hindex
    rw [hget] at hfound
    rw [Option.some.inj hfound]
    exact ⟨Option.some.inj hfound ▸ List.mem_of_getElem? hget, packet, hpacket⟩
  · rintro ⟨hmem, packet, hpacket⟩
    obtain ⟨index, hget⟩ := List.getElem?_of_mem hmem
    exact ⟨index, (get_stored_packet_iff hwell _ _).mpr ⟨stored, packet, hget, hpacket⟩, hget⟩

/-! ## Slots that stay -/

/-- Removing a packet leaves the other slots that hold one as they are. -/
theorem kept_of_remove {slots : List StoredPacket} {index : Nat} {stored : StoredPacket}
    (hsome : stored.packet.isSome) (h : stored ∈ removePacket slots index) :
    ∃ other, other ≠ index ∧ slots[other]? = some stored := by
  have hmodified : stored ∈ slots.modify index fun stored => { stored with packet := none } := by
    unfold removePacket at h
    simp only at h
    split_ifs at h
    · exact (List.dropWhile_sublist _).mem h
    · exact h
  obtain ⟨other, hget⟩ := List.getElem?_of_mem hmodified
  rw [List.getElem?_modify] at hget
  obtain ⟨before, hbefore, heq⟩ := Option.map_eq_some_iff.mp hget
  split_ifs at heq with hother
  · rw [← heq] at hsome
    cases hsome
  · exact ⟨other, Ne.symm hother, heq ▸ hbefore⟩

/-- Culling leaves the slots that it keeps as they are. -/
theorem kept_of_cull {now packetDuration : ℤ} {stored : StoredPacket}
    (hsome : stored.packet.isSome) (fuel : Nat) {slots : List StoredPacket}
    (h : stored ∈ cull now packetDuration fuel slots) : stored ∈ slots := by
  induction fuel generalizing slots with
  | zero => exact h
  | succ fuel ih =>
      cases slots with
      | nil => exact h
      | cons front rest =>
          have hremove : ∀ h : stored ∈ removePacket (front :: rest) 0, stored ∈ front :: rest := by
            intro h
            obtain ⟨other, -, hget⟩ := kept_of_remove hsome h
            exact List.mem_of_getElem? hget
          unfold cull at h
          simp only at h
          split_ifs at h
          · exact hremove (ih h)
          · exact h
          · exact h
          · exact hremove (ih h)
          · exact h

/-- New slots are empty. -/
theorem kept_of_expand {slots : List StoredPacket} {index : ℤ} {stored : StoredPacket}
    (hsome : stored.packet.isSome) (h : stored ∈ expand slots index) : stored ∈ slots := by
  simp only [expand, List.mem_append] at h
  rcases h with (h | h) | h
  · rw [List.eq_of_mem_replicate h] at hsome
    cases hsome
  · exact h
  · rw [List.eq_of_mem_replicate h] at hsome
    cases hsome

/-- `RemoveDeadPackets` drops entries and changes none. -/
theorem stored_entry_dead {h : RtpPacketHistory} (hwell : h.WellFormed) {now : ℤ}
    {sequenceNumber : BitVec 16} {stored : StoredPacket}
    (hstored : (h.removeDeadPackets now).storedEntry sequenceNumber = some stored) :
    h.storedEntry sequenceNumber = some stored := by
  obtain ⟨hmem, packet, hpacket, hnumber⟩ :=
    (stored_entry_iff (well_formed_dead hwell.shaped now)).mp hstored
  exact (stored_entry_iff hwell).mpr
    ⟨kept_of_cull (by rw [hpacket]; rfl) _ hmem, packet, hpacket, hnumber⟩

/-- After `PutRtpPacket` the number has the new entry, if any, and no other entry is new. -/
theorem stored_entry_put {h : RtpPacketHistory} (hwell : h.WellFormed) {now sendTime : ℤ}
    {rtpPacket : RtpPacketToSend} {sequenceNumber : BitVec 16} {stored : StoredPacket}
    (hstored : (h.putRtpPacket now rtpPacket sendTime).storedEntry sequenceNumber = some stored) :
    (sequenceNumber = rtpPacket.sequenceNumber ∧
        stored = { packet := some rtpPacket, sendTime }) ∨
      (sequenceNumber ≠ rtpPacket.sequenceNumber ∧
        h.storedEntry sequenceNumber = some stored) := by
  obtain ⟨hmem, packet, hpacket, hnumber⟩ :=
    (stored_entry_iff (well_formed_put hwell now rtpPacket sendTime)).mp hstored
  have hsome : stored.packet.isSome := by
    rw [hpacket]
    rfl
  have hdead := well_formed_dead hwell.shaped now
  rcases List.mem_or_eq_of_mem_set (kept_of_cull hsome _ hmem) with hold | rfl
  · right
    have hslot := kept_of_expand hsome hold
    cases hfound : (h.removeDeadPackets now).getStoredPacket rtpPacket.sequenceNumber with
    | none =>
        rw [hfound] at hslot
        have hentry : (h.removeDeadPackets now).storedEntry sequenceNumber = some stored :=
          (stored_entry_iff hdead).mpr ⟨hslot, packet, hpacket, hnumber⟩
        refine ⟨?_, stored_entry_dead hwell hentry⟩
        rintro rfl
        simp [storedEntry, hfound] at hentry
    | some index =>
        rw [hfound] at hslot
        obtain ⟨other, hother, hget⟩ := kept_of_remove hsome hslot
        have hentry : (h.removeDeadPackets now).storedEntry sequenceNumber = some stored :=
          (stored_entry_iff hdead).mpr ⟨List.mem_of_getElem? hget, packet, hpacket, hnumber⟩
        refine ⟨?_, stored_entry_dead hwell hentry⟩
        rintro rfl
        have hplace := (get_stored_packet_iff hdead _ _).mpr ⟨stored, packet, hget, hpacket, hnumber⟩
        rw [hfound] at hplace
        exact hother (Option.some.inj hplace).symm
  · left
    exact ⟨by rw [← hnumber, ← Option.some.inj hpacket], rfl⟩

/-! ## Changes of one entry -/

/-- Looking for a number does not depend on flags and times. -/
theorem get_stored_modify (h : RtpPacketHistory) (index : Nat) {f : StoredPacket → StoredPacket}
    (hf : ∀ stored, (f stored).packet = stored.packet) (sequenceNumber : BitVec 16) :
    (h.modifySlot index f).getStoredPacket sequenceNumber = h.getStoredPacket sequenceNumber := by
  have hslot : ∀ place : Nat, ((h.modifySlot index f).packetHistory[place]?.bind
      StoredPacket.packet) = h.packetHistory[place]?.bind StoredPacket.packet := by
    intro place
    unfold modifySlot
    rw [List.getElem?_modify]
    cases h.packetHistory[place]? with
    | none => rfl
    | some stored =>
        show (if index = place then f stored else stored).packet = stored.packet
        split_ifs
        · exact hf stored
        · rfl
  have hindex : (h.modifySlot index f).getPacketIndex sequenceNumber =
      h.getPacketIndex sequenceNumber := by
    obtain ⟨slots, rtt⟩ := h
    unfold getPacketIndex modifySlot
    cases slots with
    | nil => simp
    | cons front rest =>
        cases index with
        | zero => simp only [List.modify_zero_cons, hf]
        | succ index => simp only [List.modify_succ_cons]
  unfold getStoredPacket
  rw [hindex]
  simp only [hslot]

/-- A change of the slot of a number changes its entry and no other. -/
theorem stored_entry_modify {h : RtpPacketHistory} (hwell : h.WellFormed)
    {number : BitVec 16} {index : Nat} (hindex : h.getStoredPacket number = some index)
    {f : StoredPacket → StoredPacket} (hf : ∀ stored, (f stored).packet = stored.packet)
    (sequenceNumber : BitVec 16) :
    (h.modifySlot index f).storedEntry sequenceNumber =
      if sequenceNumber = number then (h.storedEntry sequenceNumber).map f
      else h.storedEntry sequenceNumber := by
  unfold storedEntry
  rw [get_stored_modify h index hf]
  cases hfound : h.getStoredPacket sequenceNumber with
  | none =>
      split_ifs with heq
      · rfl
      · rfl
  | some place =>
      show (h.packetHistory.modify index f)[place]? = _
      rw [List.getElem?_modify]
      split_ifs with hplace heq heq
      · rfl
      · subst hplace
        obtain ⟨stored, packet, hget, hpacket, hnumber⟩ :=
          (get_stored_packet_iff hwell _ _).mp hindex
        obtain ⟨stored', packet', hget', hpacket', hnumber'⟩ :=
          (get_stored_packet_iff hwell _ _).mp hfound
        rw [hget] at hget'
        rw [← Option.some.inj hget', hpacket] at hpacket'
        exact absurd (by rw [← hnumber', ← hnumber, ← Option.some.inj hpacket']) heq
      · subst heq
        rw [hindex] at hfound
        exact absurd (Option.some.inj hfound) hplace
      · show Option.map id _ = _
        rw [Option.map_id]
        rfl

/-- `MarkPacketAsSent` changes the entry of the number. -/
theorem stored_entry_sent {h : RtpPacketHistory} (hwell : h.WellFormed) (now : ℤ)
    (number sequenceNumber : BitVec 16) :
    (h.markPacketAsSent now number).storedEntry sequenceNumber =
      if sequenceNumber = number then
        (h.storedEntry sequenceNumber).map fun stored =>
          { stored with
            sendTime := now
            pendingTransmission := false
            timesRetransmitted := stored.timesRetransmitted + 1 }
      else h.storedEntry sequenceNumber := by
  unfold markPacketAsSent
  cases hfound : h.getStoredPacket number with
  | none =>
      split_ifs with heq
      · rw [heq]
        unfold storedEntry
        rw [hfound]
        rfl
      · rfl
  | some index => exact stored_entry_modify hwell hfound (by intro; rfl) sequenceNumber

/-- `MarkPacketAsAborted` takes the flag of the entry back. -/
theorem stored_entry_aborted {h : RtpPacketHistory} (hwell : h.WellFormed)
    (number sequenceNumber : BitVec 16) :
    (h.markPacketAsAborted number).storedEntry sequenceNumber =
      if sequenceNumber = number then
        (h.storedEntry sequenceNumber).map fun stored =>
          { stored with pendingTransmission := false }
      else h.storedEntry sequenceNumber := by
  unfold markPacketAsAborted
  cases hfound : h.getStoredPacket number with
  | none =>
      split_ifs with heq
      · rw [heq]
        unfold storedEntry
        rw [hfound]
        rfl
      · rfl
  | some index => exact stored_entry_modify hwell hfound (by intro; rfl) sequenceNumber

/-- A request is refused, or it finds an entry that is not pending and was not sent too recently,
and marks it as pending. -/
theorem get_packet_entry {h : RtpPacketHistory} (hwell : h.WellFormed) (now : ℤ)
    (sequenceNumber : BitVec 16) (encapsulate : RtpPacketToSend → Option RtpPacketToSend) :
    h.getPacketAndMarkAsPending now sequenceNumber encapsulate = (h, none) ∨
      ∃ stored packet copy, h.storedEntry sequenceNumber = some stored ∧
        stored.packet = some packet ∧ stored.pendingTransmission = false ∧
        h.verifyRtt now stored = true ∧ encapsulate packet = some copy ∧
        (h.getPacketAndMarkAsPending now sequenceNumber encapsulate).2 = some copy ∧
        ∀ number, (h.getPacketAndMarkAsPending now sequenceNumber encapsulate).1.storedEntry
            number =
          if number = sequenceNumber then
            (h.storedEntry number).map fun stored => { stored with pendingTransmission := true }
          else h.storedEntry number := by
  rcases h.get_packet_cases now sequenceNumber encapsulate with
    hnone | ⟨index, stored, packet, copy, hindex, hget, hpacket, hpending, hrtt, hcopy, heq⟩
  · exact Or.inl hnone
  · refine Or.inr ⟨stored, packet, copy, ?_, hpacket, hpending, hrtt, hcopy, by rw [heq], ?_⟩
    · unfold storedEntry
      rw [hindex]
      exact hget
    · intro number
      rw [heq]
      exact stored_entry_modify hwell hindex (by intro; rfl) number

end MiniRtc.RtpPacketHistory
