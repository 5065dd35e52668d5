import MiniRtc.Foundation.Run
import MiniRtc.Rtp.PacketToSend

/-!
# The packet history of the sender

`RtpPacketHistory` of `rtp_packet_history.cpp`. The history is a deque with one slot for every
sequence number from the oldest packet on, and a slot may be empty. Times are in microseconds.

`holds_run` says that the history holds no packet that was not put into it.
-/

namespace MiniRtc

/-- `IsNewerSequenceNumber`. The difference in the first test is one of integers. -/
def isNewerSequenceNumber (value previous : BitVec 16) : Bool :=
  if (value.toNat : ℤ) - previous.toNat = 0x8000 then decide (previous < value)
  else decide (value ≠ previous ∧ (value - previous).toNat < 0x8000)

/-- `RtpPacketHistory::StoredPacket`. A slot without a packet is empty. -/
structure StoredPacket where
  packet : Option RtpPacketToSend := none
  pendingTransmission : Bool := false
  sendTime : ℤ := 0
  timesRetransmitted : Nat := 0
  deriving DecidableEq

/-- `RtpPacketHistory`. The round-trip time is finite. -/
structure RtpPacketHistory where
  packetHistory : List StoredPacket := []
  rtt : ℤ := 100000

namespace RtpPacketHistory

/-- `kMaxCapacity`, which is also `number_to_store_`. -/
def kMaxCapacity : Nat := 10001

/-- `kMinPacketDuration`. -/
def kMinPacketDuration : ℤ := 1000000

/-- `kMinPacketDurationRtt`. -/
def kMinPacketDurationRtt : ℤ := 3

/-- `kPacketCullingDelayFactor`. -/
def kPacketCullingDelayFactor : ℤ := 3

/-- `GetPacketIndex`. The first slot of a history is never empty. -/
def getPacketIndex (h : RtpPacketHistory) (sequenceNumber : BitVec 16) : ℤ :=
  match h.packetHistory with
  | [] => 0
  | front :: _ =>
      let firstSeq : BitVec 16 := front.packet.elim 0 fun packet => packet.sequenceNumber
      let packetIndex : ℤ := (sequenceNumber.toNat : ℤ) - firstSeq.toNat
      if firstSeq = sequenceNumber then 0
      else if isNewerSequenceNumber sequenceNumber firstSeq then
        if sequenceNumber < firstSeq then packetIndex + 65536 else packetIndex
      else if firstSeq < sequenceNumber then packetIndex - 65536
      else packetIndex

/-- The slot that `GetStoredPacket` finds. -/
def getStoredPacket (h : RtpPacketHistory) (sequenceNumber : BitVec 16) : Option Nat :=
  let index := h.getPacketIndex sequenceNumber
  if index < 0 then none
  else if (h.packetHistory[index.toNat]?.bind StoredPacket.packet).isSome then some index.toNat
  else none

/-- `RemovePacket`: the first slots are dropped as long as they are empty. -/
def removePacket (slots : List StoredPacket) (index : Nat) : List StoredPacket :=
  let slots := slots.modify index fun stored => { stored with packet := none }
  if index = 0 then slots.dropWhile fun stored => stored.packet.isNone else slots

/-- The loop of `RemoveDeadPackets`. Every round drops a slot. -/
def cull (now packetDuration : ℤ) : Nat → List StoredPacket → List StoredPacket
  | 0, slots => slots
  | _ + 1, [] => []
  | fuel + 1, stored :: rest =>
      let slots := stored :: rest
      if slots.length > kMaxCapacity then cull now packetDuration fuel (removePacket slots 0)
      else if stored.pendingTransmission then slots
      else if stored.sendTime + packetDuration > now then slots
      else if slots.length ≥ kMaxCapacity ∨
          stored.sendTime + packetDuration * kPacketCullingDelayFactor ≤ now then
        cull now packetDuration fuel (removePacket slots 0)
      else slots

/-- `RemoveDeadPackets`. -/
def removeDeadPackets (h : RtpPacketHistory) (now : ℤ) : RtpPacketHistory :=
  { h with
    packetHistory := cull now (max (kMinPacketDurationRtt * h.rtt) kMinPacketDuration)
      h.packetHistory.length h.packetHistory }

/-- `SetRtt`. -/
def setRtt (h : RtpPacketHistory) (now rtt : ℤ) : RtpPacketHistory :=
  removeDeadPackets { h with rtt } now

/-- The slots with enough room for an index, which may lie in front of the first one. -/
def expand (slots : List StoredPacket) (index : ℤ) : List StoredPacket :=
  let slots := List.replicate (-index).toNat { packet := none } ++ slots
  slots ++ List.replicate (index.toNat + 1 - slots.length) { packet := none }

/-- `PutRtpPacket`. -/
def putRtpPacket (h : RtpPacketHistory) (now : ℤ) (rtpPacket : RtpPacketToSend) (sendTime : ℤ) :
    RtpPacketHistory :=
  let h := h.removeDeadPackets now
  -- a packet with the same number is replaced
  let h :=
    match h.getStoredPacket rtpPacket.sequenceNumber with
    | none => h
    | some index => { h with packetHistory := removePacket h.packetHistory index }
  let packetIndex := h.getPacketIndex rtpPacket.sequenceNumber
  let slots := (expand h.packetHistory packetIndex).set packetIndex.toNat
    { packet := some rtpPacket, sendTime }
  removeDeadPackets { h with packetHistory := slots } now

/-- `VerifyRtt`. -/
def verifyRtt (h : RtpPacketHistory) (now : ℤ) (stored : StoredPacket) : Bool :=
  !(decide (stored.timesRetransmitted > 0) && decide (now - stored.sendTime < h.rtt))

/-- A change of one slot. -/
def modifySlot (h : RtpPacketHistory) (index : Nat) (f : StoredPacket → StoredPacket) :
    RtpPacketHistory :=
  { h with packetHistory := h.packetHistory.modify index f }

/-- `GetPacketAndMarkAsPending`. -/
def getPacketAndMarkAsPending (h : RtpPacketHistory) (now : ℤ) (sequenceNumber : BitVec 16)
    (encapsulate : RtpPacketToSend → Option RtpPacketToSend) :
    RtpPacketHistory × Option RtpPacketToSend :=
  match h.getStoredPacket sequenceNumber with
  | none => (h, none)
  | some index =>
      match h.packetHistory[index]? with
      | none => (h, none)
      | some stored =>
          if stored.pendingTransmission then (h, none)
          else if !h.verifyRtt now stored then (h, none)
          else
            match stored.packet.bind encapsulate with
            | none => (h, none)
            | some encapsulated =>
                (h.modifySlot index fun stored => { stored with pendingTransmission := true },
                  some encapsulated)

/-- `MarkPacketAsSent`. -/
def markPacketAsSent (h : RtpPacketHistory) (now : ℤ) (sequenceNumber : BitVec 16) :
    RtpPacketHistory :=
  match h.getStoredPacket sequenceNumber with
  | none => h
  | some index => h.modifySlot index fun stored =>
      { stored with
        sendTime := now
        pendingTransmission := false
        timesRetransmitted := stored.timesRetransmitted + 1 }

/-- `MarkPacketAsAborted`. -/
def markPacketAsAborted (h : RtpPacketHistory) (sequenceNumber : BitVec 16) : RtpPacketHistory :=
  match h.getStoredPacket sequenceNumber with
  | none => h
  | some index => h.modifySlot index fun stored => { stored with pendingTransmission := false }

/-- The calls that the channel makes. A retransmission is asked for by its number and SSRC. -/
inductive Op where
  | putRtpPacket (rtpPacket : RtpPacketToSend) (sendTime : ℤ)
  | setRtt (rtt : ℤ)
  | getPacketAndMarkAsPending (sequenceNumber : BitVec 16) (rtxSsrc : BitVec 32)
  | markPacketAsSent (sequenceNumber : BitVec 16)
  | markPacketAsAborted (sequenceNumber : BitVec 16)

/-- One call at a time of the clock. -/
def step (h : RtpPacketHistory) (action : ℤ × Op) : RtpPacketHistory :=
  match action.2 with
  | .putRtpPacket rtpPacket sendTime => h.putRtpPacket action.1 rtpPacket sendTime
  | .setRtt rtt => h.setRtt action.1 rtt
  | .getPacketAndMarkAsPending sequenceNumber rtxSsrc =>
      (h.getPacketAndMarkAsPending action.1 sequenceNumber
        (RtpPacketToSend.encapsulate rtxSsrc)).1
  | .markPacketAsSent sequenceNumber => h.markPacketAsSent action.1 sequenceNumber
  | .markPacketAsAborted sequenceNumber => h.markPacketAsAborted sequenceNumber

/-! ## What the history holds -/

/-- The packet is in one of the slots. -/
def Holds (h : RtpPacketHistory) (p : RtpPacketToSend) : Prop :=
  ∃ stored ∈ h.packetHistory, stored.packet = some p

/-- Changing a slot without touching its packet keeps what the slots hold. -/
theorem holds_of_modify {slots : List StoredPacket} {index : Nat} {f : StoredPacket → StoredPacket}
    {p : RtpPacketToSend} (hf : ∀ stored, (f stored).packet = some p → stored.packet = some p)
    (h : ∃ stored ∈ slots.modify index f, stored.packet = some p) :
    ∃ stored ∈ slots, stored.packet = some p := by
  obtain ⟨stored, hmem, hp⟩ := h
  obtain ⟨i, hi, rfl⟩ := List.getElem_of_mem hmem
  rw [List.getElem_modify] at hp
  split_ifs at hp
  · exact ⟨_, List.getElem_mem _, hf _ hp⟩
  · exact ⟨_, List.getElem_mem _, hp⟩

/-- Removing a packet adds none. -/
theorem holds_of_remove {slots : List StoredPacket} {index : Nat} {p : RtpPacketToSend}
    (h : ∃ stored ∈ removePacket slots index, stored.packet = some p) :
    ∃ stored ∈ slots, stored.packet = some p := by
  obtain ⟨stored, hmem, hp⟩ := h
  have hmodified : stored ∈ slots.modify index fun stored => { stored with packet := none } := by
    simp only [removePacket] at hmem
    split_ifs at hmem
    · exact (List.dropWhile_sublist _).mem hmem
    · exact hmem
  exact holds_of_modify (by simp) ⟨stored, hmodified, hp⟩

/-- Culling adds no packet. -/
theorem holds_of_cull {now packetDuration : ℤ} {p : RtpPacketToSend} (fuel : Nat)
    {slots : List StoredPacket}
    (h : ∃ stored ∈ cull now packetDuration fuel slots, stored.packet = some p) :
    ∃ stored ∈ slots, stored.packet = some p := by
  induction fuel generalizing slots with
  | zero => exact h
  | succ fuel ih =>
      cases slots with
      | nil => simp [cull] at h
      | cons stored rest =>
          simp only [cull] at h
          split_ifs at h
          · exact holds_of_remove (ih h)
          · exact h
          · exact h
          · exact holds_of_remove (ih h)
          · exact h

/-- `RemoveDeadPackets` adds no packet. -/
theorem holds_of_dead {h : RtpPacketHistory} {now : ℤ} {p : RtpPacketToSend}
    (hp : (h.removeDeadPackets now).Holds p) : h.Holds p :=
  holds_of_cull _ hp

/-- New slots are empty. -/
theorem holds_of_expand {slots : List StoredPacket} {index : ℤ} {p : RtpPacketToSend}
    (h : ∃ stored ∈ expand slots index, stored.packet = some p) :
    ∃ stored ∈ slots, stored.packet = some p := by
  obtain ⟨stored, hmem, hp⟩ := h
  simp only [expand, List.mem_append] at hmem
  rcases hmem with (hmem | hmem) | hmem
  · rw [List.eq_of_mem_replicate hmem] at hp
    cases hp
  · exact ⟨stored, hmem, hp⟩
  · rw [List.eq_of_mem_replicate hmem] at hp
    cases hp

/-- After `PutRtpPacket` there is at most one new packet. -/
theorem holds_of_put {h : RtpPacketHistory} {now sendTime : ℤ} {rtpPacket p : RtpPacketToSend}
    (hp : (h.putRtpPacket now rtpPacket sendTime).Holds p) : p = rtpPacket ∨ h.Holds p := by
  obtain ⟨stored, hmem, hpacket⟩ := holds_of_dead hp
  rcases List.mem_or_eq_of_mem_set hmem with hold | rfl
  · right
    have hslots := holds_of_expand ⟨stored, hold, hpacket⟩
    split at hslots
    · exact holds_of_dead hslots
    · exact holds_of_dead (holds_of_remove hslots)
  · exact Or.inl (Option.some.inj hpacket).symm

/-- The other calls keep the packets as they are. -/
theorem holds_of_modify_slot {h : RtpPacketHistory} {index : Nat} {p : RtpPacketToSend}
    {f : StoredPacket → StoredPacket} (hp : (h.modifySlot index f).Holds p)
    (hf : ∀ stored, (f stored).packet = stored.packet) : h.Holds p :=
  holds_of_modify (fun stored hsome => by rw [← hf stored, hsome]) hp

/-- A step brings no packet into the history but the one that is put there. -/
theorem holds_step {h : RtpPacketHistory} {action : ℤ × Op} {p : RtpPacketToSend}
    (hp : (h.step action).Holds p) :
    h.Holds p ∨ ∃ sendTime, action.2 = .putRtpPacket p sendTime := by
  obtain ⟨now, op⟩ := action
  cases op with
  | putRtpPacket rtpPacket sendTime =>
      rcases holds_of_put hp with rfl | hold
      · exact Or.inr ⟨sendTime, rfl⟩
      · exact Or.inl hold
  | setRtt rtt => exact Or.inl (holds_of_dead (h := { h with rtt }) hp)
  | getPacketAndMarkAsPending sequenceNumber rtxSsrc =>
      left
      simp only [step, getPacketAndMarkAsPending] at hp
      split at hp
      · exact hp
      · split at hp
        · exact hp
        · split_ifs at hp
          · exact hp
          · exact hp
          · split at hp
            · exact hp
            · exact holds_of_modify_slot hp fun _ => rfl
  | markPacketAsSent sequenceNumber =>
      left
      simp only [step, markPacketAsSent] at hp
      split at hp
      · exact hp
      · exact holds_of_modify_slot hp fun _ => rfl
  | markPacketAsAborted sequenceNumber =>
      left
      simp only [step, markPacketAsAborted] at hp
      split at hp
      · exact hp
      · exact holds_of_modify_slot hp fun _ => rfl

/-- The packets in the history at the end of a run were put there. -/
theorem holds_run {actions : List (ℤ × Op)} {p : RtpPacketToSend}
    (hp : (actions.foldl step {}).Holds p) :
    ∃ action ∈ actions, ∃ sendTime, action.2 = .putRtpPacket p sendTime := by
  induction actions using List.reverseRecOn with
  | nil => simp [Holds] at hp
  | append_singleton earlier action ih =>
      rw [List.foldl_append] at hp
      rcases holds_step hp with hold | ⟨sendTime, hput⟩
      · obtain ⟨before, hmem, hput⟩ := ih hold
        exact ⟨before, List.mem_append_left _ hmem, hput⟩
      · exact ⟨action, by simp, sendTime, hput⟩

end RtpPacketHistory

end MiniRtc
