import MiniRtc.Rtp.PacketHistory

/-!
# The slots of the packet history

Every slot of the history stands for one sequence number: the slot at index `i` is empty or holds
the packet whose number is `i` above that of the first slot, which is never empty.

The main result is `slots_run`: after any calls the slots have this form, at most `kMaxCapacity` of
them, and a lookup by number finds the packet that is stored under it and no other.
-/

namespace MiniRtc.RtpPacketHistory

/-- A slot that holds a packet holds the one with the number of its place. -/
def Numbered (first : BitVec 16) (slots : List StoredPacket) : Prop :=
  ∀ index stored packet, slots[index]? = some stored → stored.packet = some packet →
    packet.sequenceNumber = first + BitVec.ofNat 16 index

/-- The first slot is not empty. -/
def Fronted (slots : List StoredPacket) : Prop :=
  ∀ stored, slots.head? = some stored → stored.packet.isSome

/-- The shape of the slots between two calls, and after each part of a call. -/
structure Shaped (slots : List StoredPacket) : Prop where
  numbered : ∃ first, Numbered first slots
  fronted : Fronted slots

/-- What holds of a history between two calls. -/
structure WellFormed (h : RtpPacketHistory) : Prop where
  capacity : h.packetHistory.length ≤ kMaxCapacity
  shaped : Shaped h.packetHistory

/-! ## Changes of the slots -/

/-- Slots from a place on are numbered from there. -/
theorem numbered_drop {first : BitVec 16} {slots : List StoredPacket} (h : Numbered first slots)
    (count : Nat) : Numbered (first + BitVec.ofNat 16 count) (slots.drop count) := by
  intro index stored packet hget hpacket
  rw [List.getElem?_drop] at hget
  rw [h _ stored packet hget hpacket, BitVec.ofNat_add, BitVec.add_assoc]

/-- Empty slots in front move the first number back. -/
theorem numbered_replicate_append {first : BitVec 16} {slots : List StoredPacket}
    (h : Numbered first slots) (count : Nat) :
    Numbered (first - BitVec.ofNat 16 count)
      (List.replicate count { packet := none } ++ slots) := by
  intro index stored packet hget hpacket
  by_cases hindex : index < count
  · rw [List.getElem?_append_left (by rwa [List.length_replicate]),
      List.getElem?_replicate, if_pos hindex] at hget
    rw [← Option.some.inj hget] at hpacket
    cases hpacket
  · rw [List.getElem?_append_right (by rw [List.length_replicate]; omega),
      List.length_replicate] at hget
    rw [h _ stored packet hget hpacket]
    have : BitVec.ofNat 16 index = BitVec.ofNat 16 count + BitVec.ofNat 16 (index - count) := by
      rw [← BitVec.ofNat_add]
      congr 1
      omega
    rw [this]
    bv_omega

/-- Empty slots behind change no number. -/
theorem numbered_append_replicate {first : BitVec 16} {slots : List StoredPacket}
    (h : Numbered first slots) (count : Nat) :
    Numbered first (slots ++ List.replicate count { packet := none }) := by
  intro index stored packet hget hpacket
  by_cases hindex : index < slots.length
  · rw [List.getElem?_append_left hindex] at hget
    exact h index stored packet hget hpacket
  · rw [List.getElem?_append_right (by omega), List.getElem?_replicate] at hget
    split_ifs at hget
    rw [← Option.some.inj hget] at hpacket
    cases hpacket

/-- A packet may be written to the slot of its number. -/
theorem numbered_set {first : BitVec 16} {slots : List StoredPacket} (h : Numbered first slots)
    {index : Nat} {stored : StoredPacket}
    (hstored : ∀ packet, stored.packet = some packet →
      packet.sequenceNumber = first + BitVec.ofNat 16 index) :
    Numbered first (slots.set index stored) := by
  intro other found packet hget hpacket
  rw [List.getElem?_set] at hget
  split_ifs at hget with heq hlt
  · rw [← Option.some.inj hget] at hpacket
    rw [← heq]
    exact hstored packet hpacket
  · exact h other found packet hget hpacket

/-- A change of a slot that brings no other packet into it keeps the numbers. -/
theorem numbered_modify {first : BitVec 16} {slots : List StoredPacket} (h : Numbered first slots)
    (index : Nat) {f : StoredPacket → StoredPacket}
    (hf : ∀ stored packet, (f stored).packet = some packet → stored.packet = some packet) :
    Numbered first (slots.modify index f) := by
  intro other found packet hget hpacket
  rw [List.getElem?_modify] at hget
  obtain ⟨stored, hstored, rfl⟩ := Option.map_eq_some_iff.mp hget
  split_ifs at hpacket
  · exact h other stored packet hstored (hf stored packet hpacket)
  · exact h other stored packet hstored hpacket

/-- A change that empties no slot keeps the front. -/
theorem fronted_modify {slots : List StoredPacket} (h : Fronted slots) (index : Nat)
    {f : StoredPacket → StoredPacket} (hf : ∀ stored, (f stored).packet = stored.packet) :
    Fronted (slots.modify index f) := by
  intro stored hhead
  cases slots with
  | nil => simp at hhead
  | cons front rest =>
      have hfront := h front rfl
      cases index with
      | zero =>
          rw [List.modify_zero_cons, List.head?_cons] at hhead
          rw [← Option.some.inj hhead, hf]
          exact hfront
      | succ index =>
          rw [List.modify_succ_cons, List.head?_cons] at hhead
          rw [← Option.some.inj hhead]
          exact hfront

/-- Dropping the empty slots in front leaves a slot with a packet there. -/
theorem fronted_dropWhile (slots : List StoredPacket) :
    Fronted (slots.dropWhile fun stored => stored.packet.isNone) := by
  intro stored hhead
  have hnot := List.head?_dropWhile_not (fun stored : StoredPacket => stored.packet.isNone) slots
  rw [hhead] at hnot
  simpa using hnot

/-- Removing a packet keeps the form of the slots. -/
theorem shaped_remove {slots : List StoredPacket} (h : Shaped slots) (index : Nat) :
    Shaped (removePacket slots index) := by
  obtain ⟨first, hnumbered⟩ := h.numbered
  have hmodified := numbered_modify hnumbered index
    (f := fun stored => { stored with packet := none }) (by simp)
  unfold removePacket
  simp only
  split_ifs with hzero
  · obtain ⟨count, hcount⟩ := List.dropWhile_suffix (fun stored : StoredPacket =>
      stored.packet.isNone) (l := slots.modify index fun stored => { stored with packet := none })
    refine ⟨⟨first + BitVec.ofNat 16 count.length, ?_⟩, fronted_dropWhile _⟩
    have hdrop := numbered_drop hmodified count.length
    rwa [← hcount, List.drop_left] at hdrop
  · refine ⟨⟨first, hmodified⟩, fun stored hhead => ?_⟩
    cases slots with
    | nil => simp at hhead
    | cons front rest =>
        obtain ⟨earlier, rfl⟩ := Nat.exists_eq_succ_of_ne_zero hzero
        rw [List.modify_succ_cons, List.head?_cons] at hhead
        rw [← Option.some.inj hhead]
        exact h.fronted front rfl

/-- Removing the first packet drops a slot. -/
theorem remove_front_length (stored : StoredPacket) (rest : List StoredPacket) :
    (removePacket (stored :: rest) 0).length ≤ rest.length := by
  unfold removePacket
  rw [List.modify_zero_cons, if_pos rfl, List.dropWhile_cons_of_pos rfl]
  exact (List.dropWhile_sublist _).length_le

/-- Culling keeps the form of the slots. -/
theorem shaped_cull (now packetDuration : ℤ) (fuel : Nat) {slots : List StoredPacket}
    (h : Shaped slots) : Shaped (cull now packetDuration fuel slots) := by
  induction fuel generalizing slots with
  | zero => exact h
  | succ fuel ih =>
      cases slots with
      | nil => exact h
      | cons stored rest =>
          unfold cull
          simp only
          split_ifs
          · exact ih (shaped_remove h 0)
          · exact h
          · exact h
          · exact ih (shaped_remove h 0)
          · exact h

/-- Culling gets the history down to its capacity. -/
theorem cull_length (now packetDuration : ℤ) (fuel : Nat) {slots : List StoredPacket}
    (hfuel : slots.length ≤ fuel) :
    (cull now packetDuration fuel slots).length ≤ kMaxCapacity := by
  induction fuel generalizing slots with
  | zero =>
      unfold cull
      omega
  | succ fuel ih =>
      cases slots with
      | nil =>
          show 0 ≤ kMaxCapacity
          omega
      | cons stored rest =>
          have hless := remove_front_length stored rest
          rw [List.length_cons] at hfuel
          unfold cull
          simp only
          split_ifs with hlong
          · exact ih (by omega)
          · omega
          · omega
          · exact ih (by omega)
          · omega

/-- `RemoveDeadPackets` gives a well-formed history. -/
theorem well_formed_dead {h : RtpPacketHistory} (hshaped : Shaped h.packetHistory) (now : ℤ) :
    (h.removeDeadPackets now).WellFormed :=
  ⟨cull_length _ _ _ le_rfl, shaped_cull _ _ _ hshaped⟩

/-! ## The index of a number -/

/-- The distance from the first number, the short way around. -/
theorem get_packet_index_eq {h : RtpPacketHistory} {front : StoredPacket}
    {rest : List StoredPacket} {packet : RtpPacketToSend}
    (hslots : h.packetHistory = front :: rest) (hfront : front.packet = some packet)
    (sequenceNumber : BitVec 16) :
    let distance : ℤ := (sequenceNumber.toNat : ℤ) - packet.sequenceNumber.toNat
    h.getPacketIndex sequenceNumber =
      if distance < -32768 then distance + 65536
      else if 32768 < distance then distance - 65536
      else distance := by
  have hnumber := sequenceNumber.isLt
  have hfirst := packet.sequenceNumber.isLt
  have hsub : (sequenceNumber - packet.sequenceNumber).toNat =
      (65536 - packet.sequenceNumber.toNat + sequenceNumber.toNat) % 65536 := BitVec.toNat_sub ..
  unfold getPacketIndex isNewerSequenceNumber
  rw [hslots]
  simp only [hfront, Option.elim_some, ← BitVec.toNat_inj, BitVec.lt_def, ne_eq, hsub]
  split_ifs <;> simp_all <;> omega

/-- An index from the first slot on leads to the number. -/
theorem number_of_index {h : RtpPacketHistory} {front : StoredPacket} {rest : List StoredPacket}
    {packet : RtpPacketToSend} (hslots : h.packetHistory = front :: rest)
    (hfront : front.packet = some packet) (sequenceNumber : BitVec 16) :
    sequenceNumber = packet.sequenceNumber -
        BitVec.ofNat 16 (-h.getPacketIndex sequenceNumber).toNat +
      BitVec.ofNat 16 (h.getPacketIndex sequenceNumber).toNat := by
  have hnumber := sequenceNumber.isLt
  have hfirst := packet.sequenceNumber.isLt
  rw [get_packet_index_eq hslots hfront, ← BitVec.toNat_inj, BitVec.toNat_add, BitVec.toNat_sub,
    BitVec.toNat_ofNat, BitVec.toNat_ofNat]
  split_ifs <;> omega

/-- The number of a slot leads back to its index. -/
theorem index_of_number {h : RtpPacketHistory} {front : StoredPacket} {rest : List StoredPacket}
    {packet : RtpPacketToSend} (hslots : h.packetHistory = front :: rest)
    (hfront : front.packet = some packet) {index : Nat} (hindex : index < 32768) :
    h.getPacketIndex (packet.sequenceNumber + BitVec.ofNat 16 index) = index := by
  have hfirst := packet.sequenceNumber.isLt
  rw [get_packet_index_eq hslots hfront, BitVec.toNat_add, BitVec.toNat_ofNat]
  split_ifs <;> omega

/-- The first number is the one of the packet in front. -/
theorem first_eq {first : BitVec 16} {front : StoredPacket} {rest : List StoredPacket}
    {packet : RtpPacketToSend} (h : Numbered first (front :: rest))
    (hfront : front.packet = some packet) : packet.sequenceNumber = first := by
  rw [h 0 front packet rfl hfront]
  exact BitVec.add_zero first

/-- A lookup finds the slot of the packet with the number, and nothing else. -/
theorem get_stored_packet_iff {h : RtpPacketHistory} (hwell : h.WellFormed)
    (sequenceNumber : BitVec 16) (index : Nat) :
    h.getStoredPacket sequenceNumber = some index ↔
      ∃ stored packet, h.packetHistory[index]? = some stored ∧ stored.packet = some packet ∧
        packet.sequenceNumber = sequenceNumber := by
  obtain ⟨first, hnumbered⟩ := hwell.shaped.numbered
  cases hslots : h.packetHistory with
  | nil => simp [getStoredPacket, hslots]
  | cons front rest =>
      obtain ⟨head, hhead⟩ := Option.isSome_iff_exists.mp
        (hwell.shaped.fronted front (by rw [hslots]; rfl))
      rw [hslots] at hnumbered
      have hfirst := first_eq hnumbered hhead
      have hlength : (front :: rest).length ≤ 10001 := hslots ▸ hwell.capacity
      constructor
      · intro hfound
        have hnumber := number_of_index hslots hhead sequenceNumber
        unfold getStoredPacket at hfound
        simp only [hslots] at hfound
        split_ifs at hfound with hneg hsome
        obtain ⟨packet, hpacket⟩ := Option.isSome_iff_exists.mp hsome
        obtain ⟨stored, hget, hstored⟩ := Option.bind_eq_some_iff.mp hpacket
        rw [Option.some.inj hfound] at hget hnumber
        refine ⟨stored, packet, hget, hstored, ?_⟩
        rw [hnumbered index stored packet hget hstored, hnumber, hfirst,
          show (-h.getPacketIndex sequenceNumber).toNat = 0 by omega]
        simp
      · rintro ⟨stored, packet, hget, hstored, rfl⟩
        have hlt := (List.getElem?_eq_some_iff.mp hget).1
        have hindex : h.getPacketIndex packet.sequenceNumber = index := by
          rw [hnumbered index stored packet hget hstored, ← hfirst]
          exact index_of_number hslots hhead (by omega)
        unfold getStoredPacket
        simp only [hindex, hslots, Int.toNat_natCast, hget, Option.bind_some, hstored]
        simp

/-! ## The calls -/

/-- Writing a packet keeps the front: it goes there itself, or behind it. -/
theorem fronted_write {slots : List StoredPacket} (h : Fronted slots) {index : ℤ}
    (hempty : slots = [] → index = 0) {stored : StoredPacket} (hstored : stored.packet.isSome) :
    Fronted ((expand slots index).set index.toNat stored) := by
  intro found hhead
  cases hplace : index.toNat with
  | zero =>
      rw [hplace] at hhead
      cases hexpanded : expand slots index with
      | nil => simp [hexpanded] at hhead
      | cons front rest =>
          rw [hexpanded, List.set_cons_zero, List.head?_cons] at hhead
          rw [← Option.some.inj hhead]
          exact hstored
  | succ place =>
      cases slots with
      | nil => exact absurd (hempty rfl) (by omega)
      | cons front rest =>
          have hzero : (-index).toNat = 0 := by omega
          rw [hplace] at hhead
          simp only [expand, hzero, List.replicate_zero, List.nil_append, List.cons_append,
            List.set_cons_succ, List.head?_cons] at hhead
          rw [← Option.some.inj hhead]
          exact h front rfl

/-- Writing a packet to the slot of its number keeps the form. -/
theorem shaped_write {h : RtpPacketHistory} (hshaped : Shaped h.packetHistory)
    {stored : StoredPacket} {packet : RtpPacketToSend} (hstored : stored.packet = some packet) :
    Shaped ((expand h.packetHistory (h.getPacketIndex packet.sequenceNumber)).set
      (h.getPacketIndex packet.sequenceNumber).toNat stored) := by
  obtain ⟨first, hnumbered⟩ := hshaped.numbered
  have hempty : h.packetHistory = [] → h.getPacketIndex packet.sequenceNumber = 0 := by
    intro hslots
    simp [getPacketIndex, hslots]
  refine ⟨?_, fronted_write hshaped.fronted hempty (by rw [hstored]; rfl)⟩
  -- In an empty history the packet gives the first number, else it has a number relative to it.
  have hnumber : ∃ first, Numbered first h.packetHistory ∧ packet.sequenceNumber =
      first - BitVec.ofNat 16 (-h.getPacketIndex packet.sequenceNumber).toNat +
        BitVec.ofNat 16 (h.getPacketIndex packet.sequenceNumber).toNat := by
    cases hslots : h.packetHistory with
    | nil =>
        refine ⟨packet.sequenceNumber, by simp [Numbered], ?_⟩
        rw [hempty hslots]
        simp
    | cons front rest =>
        obtain ⟨head, hhead⟩ := Option.isSome_iff_exists.mp
          (hshaped.fronted front (by rw [hslots]; rfl))
        rw [hslots] at hnumbered
        refine ⟨first, hnumbered, ?_⟩
        rw [← first_eq hnumbered hhead]
        exact number_of_index hslots hhead packet.sequenceNumber
  obtain ⟨first, hnumbered, heq⟩ := hnumber
  refine ⟨first - BitVec.ofNat 16 (-h.getPacketIndex packet.sequenceNumber).toNat, ?_⟩
  refine numbered_set (numbered_append_replicate (numbered_replicate_append hnumbered _) _)
    fun other hother => ?_
  rw [hstored] at hother
  rw [← Option.some.inj hother]
  exact heq

/-- `PutRtpPacket` gives a well-formed history. -/
theorem well_formed_put {h : RtpPacketHistory} (hwell : h.WellFormed) (now : ℤ)
    (rtpPacket : RtpPacketToSend) (sendTime : ℤ) :
    (h.putRtpPacket now rtpPacket sendTime).WellFormed := by
  have hdead := (well_formed_dead hwell.shaped now).shaped
  unfold putRtpPacket
  refine well_formed_dead ?_ now
  refine shaped_write ?_ rfl
  split
  · exact hdead
  · exact shaped_remove hdead _

/-- A change of one slot that leaves its packet there keeps the form. -/
theorem well_formed_modify {h : RtpPacketHistory} (hwell : h.WellFormed) (index : Nat)
    {f : StoredPacket → StoredPacket} (hf : ∀ stored, (f stored).packet = stored.packet) :
    (h.modifySlot index f).WellFormed := by
  obtain ⟨first, hnumbered⟩ := hwell.shaped.numbered
  refine ⟨?_, ⟨first, numbered_modify hnumbered index fun stored packet hpacket => ?_⟩,
    fronted_modify hwell.shaped.fronted index hf⟩
  · show (h.packetHistory.modify index f).length ≤ kMaxCapacity
    rw [List.length_modify]
    exact hwell.capacity
  · rwa [← hf stored]

/-- What `GetPacketAndMarkAsPending` can do: nothing, or mark a slot and hand out a copy of its
packet. -/
theorem get_packet_cases (h : RtpPacketHistory) (now : ℤ) (sequenceNumber : BitVec 16)
    (encapsulate : RtpPacketToSend → Option RtpPacketToSend) :
    h.getPacketAndMarkAsPending now sequenceNumber encapsulate = (h, none) ∨
      ∃ index stored packet copy, h.getStoredPacket sequenceNumber = some index ∧
        h.packetHistory[index]? = some stored ∧ stored.packet = some packet ∧
        stored.pendingTransmission = false ∧ h.verifyRtt now stored = true ∧
        encapsulate packet = some copy ∧
        h.getPacketAndMarkAsPending now sequenceNumber encapsulate =
          (h.modifySlot index fun stored => { stored with pendingTransmission := true },
            some copy) := by
  unfold getPacketAndMarkAsPending
  cases hfound : h.getStoredPacket sequenceNumber with
  | none => exact Or.inl rfl
  | some index =>
      simp only
      cases hget : h.packetHistory[index]? with
      | none => exact Or.inl rfl
      | some stored =>
          simp only
          split_ifs with hpending hrtt
          · exact Or.inl rfl
          · exact Or.inl rfl
          · cases hcopy : stored.packet.bind encapsulate with
            | none => exact Or.inl rfl
            | some copy =>
                obtain ⟨packet, hpacket, hencapsulated⟩ := Option.bind_eq_some_iff.mp hcopy
                exact Or.inr ⟨index, stored, packet, copy, rfl, hget, hpacket,
                  by simpa using hpending, by simpa using hrtt, hencapsulated, rfl⟩

/-- A call of the history: one that the channel makes, or a request for a copy made in any other
way. -/
inductive Call where
  | made (op : Op)
  | copied (sequenceNumber : BitVec 16) (encapsulate : RtpPacketToSend → Option RtpPacketToSend)

/-- One call at a time of the clock. -/
def call (h : RtpPacketHistory) (action : ℤ × Call) : RtpPacketHistory :=
  match action.2 with
  | .made op => h.step (action.1, op)
  | .copied sequenceNumber encapsulate =>
      (h.getPacketAndMarkAsPending action.1 sequenceNumber encapsulate).1

/-- `GetPacketAndMarkAsPending` keeps a history well-formed. -/
theorem well_formed_get {h : RtpPacketHistory} (hwell : h.WellFormed) (now : ℤ)
    (sequenceNumber : BitVec 16) (encapsulate : RtpPacketToSend → Option RtpPacketToSend) :
    (h.getPacketAndMarkAsPending now sequenceNumber encapsulate).1.WellFormed := by
  rcases h.get_packet_cases now sequenceNumber encapsulate with
    hnone | ⟨index, _, _, _, _, _, _, _, _, _, hmarked⟩
  · rw [hnone]
    exact hwell
  · rw [hmarked]
    exact well_formed_modify hwell index fun _ => rfl

/-- Every call keeps a history well-formed. -/
theorem well_formed_call {h : RtpPacketHistory} (hwell : h.WellFormed) (action : ℤ × Call) :
    (h.call action).WellFormed := by
  obtain ⟨now, op | ⟨sequenceNumber, encapsulate⟩⟩ := action
  · cases op with
    | putRtpPacket rtpPacket sendTime => exact well_formed_put hwell now rtpPacket sendTime
    | setRtt rtt => exact well_formed_dead (h := { h with rtt }) hwell.shaped now
    | getPacketAndMarkAsPending sequenceNumber rtxSsrc => exact well_formed_get hwell now _ _
    | markPacketAsSent sequenceNumber =>
        show (h.markPacketAsSent now sequenceNumber).WellFormed
        unfold markPacketAsSent
        split
        · exact hwell
        · exact well_formed_modify hwell _ fun _ => rfl
    | markPacketAsAborted sequenceNumber =>
        show (h.markPacketAsAborted sequenceNumber).WellFormed
        unfold markPacketAsAborted
        split
        · exact hwell
        · exact well_formed_modify hwell _ fun _ => rfl
  · exact well_formed_get hwell now sequenceNumber encapsulate

/-- After any calls the history is well-formed. -/
theorem well_formed_run (actions : List (ℤ × Call)) :
    (actions.foldl call {}).WellFormed := by
  induction actions using List.reverseRecOn with
  | nil => exact ⟨Nat.zero_le _, ⟨⟨0, by simp [Numbered]⟩, by simp [Fronted]⟩⟩
  | append_singleton earlier action ih =>
      rw [List.foldl_append]
      exact well_formed_call ih action

/-- A slot holds a packet under the number that the packet in front gives it. -/
def PlacedByFront (slots : List StoredPacket) : Prop :=
  ∀ front rest, slots = front :: rest → ∃ head, front.packet = some head ∧
    ∀ index stored packet, slots[index]? = some stored → stored.packet = some packet →
      packet.sequenceNumber = head.sequenceNumber + BitVec.ofNat 16 index

/-- After any calls there are at most `kMaxCapacity` slots, the first one holds a packet, and the
others are empty or hold the packet with the number of their place. A lookup by number therefore
finds the slot of the packet stored under it, and nothing when there is none. -/
theorem slots_run (actions : List (ℤ × Call)) :
    let h := actions.foldl call {}
    h.packetHistory.length ≤ kMaxCapacity ∧ PlacedByFront h.packetHistory ∧
      ∀ sequenceNumber index, h.getStoredPacket sequenceNumber = some index ↔
        ∃ stored packet, h.packetHistory[index]? = some stored ∧
          stored.packet = some packet ∧ packet.sequenceNumber = sequenceNumber := by
  have hwell := well_formed_run actions
  refine ⟨hwell.capacity, fun front rest hslots => ?_, get_stored_packet_iff hwell⟩
  obtain ⟨head, hhead⟩ := Option.isSome_iff_exists.mp
    (hwell.shaped.fronted front (by rw [hslots]; rfl))
  obtain ⟨first, hnumbered⟩ := hwell.shaped.numbered
  refine ⟨head, hhead, ?_⟩
  rw [hslots] at hnumbered
  rw [hslots, first_eq hnumbered hhead]
  exact hnumbered

end MiniRtc.RtpPacketHistory
