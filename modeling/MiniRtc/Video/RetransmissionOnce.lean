import MiniRtc.Rtp.HistoryEntries
import MiniRtc.Video.Retransmission

/-!
# One retransmission at a time

`ReSendPacket`, `OnSentRtpPacket` and `OnRtpPacketSendFailed` of `video_channel_send.cpp`. The
history marks a packet as pending while a retransmission of it waits in the pacer, and the end of
the transmission is reported by sequence number only.

A sender carries next to its history the retransmissions in the pacer, and for the statements the
entry that each of them was made from. The main result is `exclusive_run`: as long as no packet is
put under a number of which a retransmission is on its way, an entry has one retransmission at a
time, none within a round-trip time after the last, and an aborted one leaves no trace.
-/

namespace MiniRtc

/-- A retransmission in the pacer, with the number it was asked for by, the entry it was made from
and the state of that entry before. -/
structure QueuedCopy where
  packet : RtpPacketToSend
  sequenceNumber : BitVec 16
  entry : Nat
  sendTime : ℤ
  timesRetransmitted : Nat

/-- The part of `VideoChannelSend` that retransmits, and what became of its packets: the number of
packets put so far, the last one put under each number, and when a retransmission of an entry was
last sent. -/
structure RtxSender where
  rtxEnabled : Bool := true
  rtxSsrc : BitVec 32
  history : RtpPacketHistory := {}
  inPacer : List QueuedCopy := []
  puts : Nat := 1
  entryOf : BitVec 16 → Nat := fun _ => 0
  sentAt : BitVec 16 × Nat → Option ℤ := fun _ => none

namespace RtxSender

open RtpPacketHistory

/-- The task of `OnSentRtpPacket`. -/
def onSentRtpPacket (h : RtpPacketHistory) (now : ℤ) (packet : RtpPacketToSend) :
    RtpPacketHistory :=
  match packet.retransmittedSequenceNumber with
  | some sequenceNumber => h.markPacketAsSent now sequenceNumber
  | none =>
      if packet.payloadType ≠ payloadTypeH264 - 1 then h.putRtpPacket now packet now else h

/-- The task of `OnRtpPacketSendFailed`. -/
def onRtpPacketSendFailed (h : RtpPacketHistory) (now : ℤ) (packet : RtpPacketToSend) :
    RtpPacketHistory :=
  match packet.retransmittedSequenceNumber with
  | some sequenceNumber => h.markPacketAsAborted sequenceNumber
  | none => if packet.packetType = some .video then h.putRtpPacket now packet now else h

/-- The stored packet that a request gets to see, if any. -/
def offered (h : RtpPacketHistory) (now : ℤ) (packetId : BitVec 16) : Option RtpPacketToSend :=
  (h.storedEntry packetId).bind fun stored =>
    if stored.pendingTransmission ∨ h.verifyRtt now stored = false then none else stored.packet

/-- What `GetPacketAndMarkAsPending` gives to a request. -/
def requested (s : RtxSender) (now : ℤ) (packetId : BitVec 16) :
    RtpPacketHistory × Option RtpPacketToSend :=
  if s.rtxEnabled then
    s.history.getPacketAndMarkAsPending now packetId (RtpPacketToSend.encapsulate s.rtxSsrc)
  else (s.history, none)

/-- `ReSendPacket`: the history, the packet that went to the pacer, and the result. The pacer
answers with `enqueueResult`. -/
def reSendPacket (s : RtxSender) (now : ℤ) (packetId : BitVec 16) (enqueueResult : ℤ) :
    RtpPacketHistory × Option RtpPacketToSend × ℤ :=
  if !s.rtxEnabled then (s.history, none, -1)
  else
    let result := s.requested now packetId
    let packetSize := (offered s.history now packetId).elim 0 fun stored => stored.size
    if packetSize = 0 then (result.1, none, 0)
    else
      match result.2 with
      | none => (result.1, none, -1)
      | some packet =>
          let packet := { packet.setPacketType .retransmission with fecProtectPacket := false }
          if enqueueResult < 0 then (result.1.markPacketAsAborted packetId, none, enqueueResult)
          else (result.1, some packet, enqueueResult)

/-- What happens to the sender. A transmission ends for one of the retransmissions in the pacer. -/
inductive Op where
  | putRtpPacket (rtpPacket : RtpPacketToSend) (sendTime : ℤ)
  | reSendPacket (packetId : BitVec 16) (enqueueResult : ℤ)
  | onSentRtpPacket (index : Nat)
  | onRtpPacketSendFailed (index : Nat)
  | setRtt (rtt : ℤ)

/-- The retransmission as it goes to the pacer. -/
def queuedCopy (s : RtxSender) (packetId : BitVec 16) (packet : RtpPacketToSend) : QueuedCopy :=
  { packet
    sequenceNumber := packetId
    entry := s.entryOf packetId
    sendTime := (s.history.storedEntry packetId).elim 0 StoredPacket.sendTime
    timesRetransmitted := (s.history.storedEntry packetId).elim 0 StoredPacket.timesRetransmitted }

/-- One step at a time of the clock. -/
def step (s : RtxSender) (action : ℤ × Op) : RtxSender :=
  match action.2 with
  | .putRtpPacket rtpPacket sendTime =>
      { s with
        history := s.history.putRtpPacket action.1 rtpPacket sendTime
        puts := s.puts + 1
        entryOf := Function.update s.entryOf rtpPacket.sequenceNumber s.puts }
  | .reSendPacket packetId enqueueResult =>
      let result := s.reSendPacket action.1 packetId enqueueResult
      { s with
        history := result.1
        inPacer := s.inPacer ++ (result.2.1.map (s.queuedCopy packetId)).toList }
  | .onSentRtpPacket index =>
      match s.inPacer[index]? with
      | none => s
      | some copy =>
          { s with
            history := onSentRtpPacket s.history action.1 copy.packet
            inPacer := s.inPacer.eraseIdx index
            sentAt := Function.update s.sentAt (copy.sequenceNumber, copy.entry)
              (some action.1) }
  | .onRtpPacketSendFailed index =>
      match s.inPacer[index]? with
      | none => s
      | some copy =>
          { s with
            history := onRtpPacketSendFailed s.history action.1 copy.packet
            inPacer := s.inPacer.eraseIdx index }
  | .setRtt rtt => { s with history := s.history.setRtt action.1 rtt }

/-! ## What is promised -/

/-- The entry that a retransmission was made from, as long as it is in the history. -/
def entryOfCopy (s : RtxSender) (copy : QueuedCopy) : Option StoredPacket :=
  if s.entryOf copy.sequenceNumber = copy.entry then s.history.storedEntry copy.sequenceNumber
  else none

/-- A request that is granted finds no other retransmission of its entry in the pacer, and none
sent within the round-trip time. When the pacer refuses the packet, the entry is as before. -/
def GrantedOnce (s : RtxSender) (now : ℤ) (packetId : BitVec 16) (enqueueResult : ℤ) : Prop :=
  (s.requested now packetId).2.isSome →
    (∀ copy ∈ s.inPacer, ¬ (copy.sequenceNumber = packetId ∧ copy.entry = s.entryOf packetId)) ∧
    (∀ time, s.sentAt (packetId, s.entryOf packetId) = some time →
      s.history.rtt ≤ now - time) ∧
    ((s.reSendPacket now packetId enqueueResult).2.2 < 0 →
      (s.reSendPacket now packetId enqueueResult).1.storedEntry packetId =
        s.history.storedEntry packetId)

/-- What is promised about each step. A transmission that ended leaves its entry free for the next
request, and a failed one leaves it as it was before the attempt. -/
def Exclusive (s : RtxSender) (action : ℤ × Op) : Prop :=
  match action.2 with
  | .reSendPacket packetId enqueueResult => s.GrantedOnce action.1 packetId enqueueResult
  | .onSentRtpPacket index =>
      ∀ copy, s.inPacer[index]? = some copy →
        ∀ stored, (s.step action).entryOfCopy copy = some stored →
          stored.pendingTransmission = false
  | .onRtpPacketSendFailed index =>
      ∀ copy, s.inPacer[index]? = some copy →
        ∀ stored, (s.step action).entryOfCopy copy = some stored →
          stored.pendingTransmission = false ∧ stored.sendTime = copy.sendTime ∧
            stored.timesRetransmitted = copy.timesRetransmitted
  | _ => True

/-- No packet is put under a number of which a retransmission is in the pacer. -/
def PutsFresh (s : RtxSender) (action : ℤ × Op) : Prop :=
  match action.2 with
  | .putRtpPacket rtpPacket _ =>
      ∀ copy ∈ s.inPacer, copy.sequenceNumber ≠ rtpPacket.sequenceNumber
  | _ => True

/-! ## The invariant -/

/-- What the copies in the pacer and the reports so far say about the entries. -/
structure Consistent (s : RtxSender) : Prop where
  wellFormed : s.history.WellFormed
  number : ∀ copy ∈ s.inPacer,
    copy.packet.retransmittedSequenceNumber = some copy.sequenceNumber
  once : (s.inPacer.map QueuedCopy.sequenceNumber).Nodup
  pending : ∀ copy ∈ s.inPacer, ∀ stored,
    s.history.storedEntry copy.sequenceNumber = some stored →
      stored.pendingTransmission = true ∧ stored.sendTime = copy.sendTime ∧
        stored.timesRetransmitted = copy.timesRetransmitted
  sent : ∀ number stored time, s.history.storedEntry number = some stored →
    s.sentAt (number, s.entryOf number) = some time →
      stored.sendTime = time ∧ 0 < stored.timesRetransmitted
  fresh : ∀ number entry, s.puts ≤ entry → s.sentAt (number, entry) = none
  known : ∀ number, s.entryOf number < s.puts
  current : ∀ copy ∈ s.inPacer, s.entryOf copy.sequenceNumber = copy.entry

/-- `BuildRtxPacket` keeps the original sequence number. -/
theorem build_rtx_number (p : RtpPacketToSend) :
    p.buildRtxPacket.1.retransmittedSequenceNumber = p.retransmittedSequenceNumber := by
  unfold RtpPacketToSend.buildRtxPacket
  split
  · rfl
  · simp only
    split
    · rfl
    · rfl

/-- A retransmission names the packet it was made from. -/
theorem encapsulate_number {rtxSsrc : BitVec 32} {stored copy : RtpPacketToSend}
    (h : stored.encapsulate rtxSsrc = some copy) :
    copy.retransmittedSequenceNumber = some stored.sequenceNumber := by
  unfold RtpPacketToSend.encapsulate at h
  simp only at h
  split_ifs at h
  rw [← Option.some.inj h, build_rtx_number]

/-- A request is refused, or it marks an entry that was free and gives a copy of its packet. -/
theorem requested_cases {s : RtxSender} (hwell : s.history.WellFormed) (now : ℤ)
    (packetId : BitVec 16) :
    s.requested now packetId = (s.history, none) ∨
      ∃ stored copy, s.history.storedEntry packetId = some stored ∧
        stored.pendingTransmission = false ∧ s.history.verifyRtt now stored = true ∧
        (s.requested now packetId).2 = some copy ∧
        copy.retransmittedSequenceNumber = some packetId ∧
        (s.requested now packetId).1.WellFormed ∧
        ∀ number, (s.requested now packetId).1.storedEntry number =
          if number = packetId then
            (s.history.storedEntry number).map fun stored =>
              { stored with pendingTransmission := true }
          else s.history.storedEntry number := by
  unfold requested
  split_ifs
  · rcases get_packet_entry hwell now packetId (RtpPacketToSend.encapsulate s.rtxSsrc) with
      hnone | ⟨stored, packet, copy, hentry, hpacket, hpending, hrtt, hcopy, hsome, hafter⟩
    · exact Or.inl hnone
    · refine Or.inr ⟨stored, copy, hentry, hpending, hrtt, hsome, ?_,
        well_formed_get hwell now packetId _, hafter⟩
      obtain ⟨-, found, hfound, hnumber⟩ := (stored_entry_iff hwell).mp hentry
      rw [encapsulate_number hcopy, ← hnumber, ← Option.some.inj (hpacket.symm.trans hfound)]
  · exact Or.inl rfl

/-- What `ReSendPacket` does: nothing that the entries show, or a mark on a free entry, with or
without a packet for the pacer. -/
theorem re_send_cases {s : RtxSender} (hwell : s.history.WellFormed) (now : ℤ)
    (packetId : BitVec 16) (enqueueResult : ℤ) :
    let result := s.reSendPacket now packetId enqueueResult
    result.1.WellFormed ∧
      (∀ number, number ≠ packetId →
        result.1.storedEntry number = s.history.storedEntry number) ∧
      (result.2.1 = none ∧ result.1.storedEntry packetId = s.history.storedEntry packetId ∨
        0 ≤ result.2.2 ∧ ∃ stored, s.history.storedEntry packetId = some stored ∧
          stored.pendingTransmission = false ∧
          result.1.storedEntry packetId = some { stored with pendingTransmission := true } ∧
          ∀ packet, result.2.1 = some packet →
            packet.retransmittedSequenceNumber = some packetId) := by
  unfold reSendPacket
  rcases requested_cases hwell now packetId with
    hnone | ⟨stored, copy, hentry, hpending, -, hsome, hnumber, hmarked, hafter⟩
  · rw [hnone]
    simp only
    split_ifs
    · exact ⟨hwell, fun _ _ => rfl, Or.inl ⟨rfl, rfl⟩⟩
    · exact ⟨hwell, fun _ _ => rfl, Or.inl ⟨rfl, rfl⟩⟩
    · exact ⟨hwell, fun _ _ => rfl, Or.inl ⟨rfl, rfl⟩⟩
  · have hothers : ∀ number, number ≠ packetId →
        (s.requested now packetId).1.storedEntry number = s.history.storedEntry number := by
      intro number hne
      rw [hafter, if_neg hne]
    have hthis : (s.requested now packetId).1.storedEntry packetId =
        some { stored with pendingTransmission := true } := by
      rw [hafter, if_pos rfl, hentry]
      rfl
    simp only [hsome]
    split_ifs with hoff hsize hrefused
    · exact ⟨hwell, fun _ _ => rfl, Or.inl ⟨rfl, rfl⟩⟩
    · exact ⟨hmarked, hothers, Or.inr ⟨le_rfl, stored, hentry, hpending, hthis, by simp⟩⟩
    · -- The pacer refuses the packet, and the mark is taken back.
      refine ⟨well_formed_call hmarked (now, .made (.markPacketAsAborted packetId)),
        fun number hne => ?_, Or.inl ⟨rfl, ?_⟩⟩
      · rw [stored_entry_aborted hmarked, if_neg hne]
        exact hothers number hne
      · rw [stored_entry_aborted hmarked, if_pos rfl, hthis, hentry, ← hpending]
        rfl
    · refine ⟨hmarked, hothers, Or.inr ⟨by simpa using hrefused, stored, hentry, hpending, hthis,
        fun packet hpacket => ?_⟩⟩
      rw [← Option.some.inj hpacket]
      exact hnumber

/-! ## One step -/

/-- A sender that did nothing yet. -/
theorem consistent_new (rtxEnabled : Bool) (rtxSsrc : BitVec 32) :
    Consistent { rtxEnabled, rtxSsrc } where
  wellFormed := well_formed_run []
  number := by simp
  once := List.nodup_nil
  pending := by simp
  sent := by simp
  fresh := by simp
  known := by simp
  current := by simp

/-- A put writes an entry that no retransmission is on its way for. -/
theorem consistent_put {s : RtxSender} (h : s.Consistent) (now : ℤ) (rtpPacket : RtpPacketToSend)
    (sendTime : ℤ) (hfresh : s.PutsFresh (now, .putRtpPacket rtpPacket sendTime)) :
    (s.step (now, .putRtpPacket rtpPacket sendTime)).Consistent where
  wellFormed := well_formed_put h.wellFormed now rtpPacket sendTime
  number := h.number
  once := h.once
  pending := by
    intro copy hcopy stored hstored
    rcases stored_entry_put h.wellFormed hstored with ⟨hnumber, -⟩ | ⟨-, hold⟩
    · exact absurd hnumber (hfresh copy hcopy)
    · exact h.pending copy hcopy stored hold
  sent := by
    intro number stored time hstored hsent
    rcases stored_entry_put h.wellFormed hstored with ⟨rfl, -⟩ | ⟨hne, hold⟩
    · have hnone := h.fresh rtpPacket.sequenceNumber s.puts le_rfl
      simp only [step, Function.update_self] at hsent
      rw [hnone] at hsent
      cases hsent
    · simp only [step, Function.update_of_ne hne] at hsent
      exact h.sent number stored time hold hsent
  fresh := fun number entry hle => h.fresh number entry (Nat.le_of_succ_le hle)
  known := by
    intro number
    simp only [step]
    by_cases heq : number = rtpPacket.sequenceNumber
    · rw [heq, Function.update_self]
      exact Nat.lt_succ_self _
    · rw [Function.update_of_ne heq]
      exact Nat.lt_succ_of_lt (h.known number)
  current := by
    intro copy hcopy
    simp only [step]
    rw [Function.update_of_ne (hfresh copy hcopy)]
    exact h.current copy hcopy

/-- `SetRtt` only drops entries. -/
theorem consistent_rtt {s : RtxSender} (h : s.Consistent) (now rtt : ℤ) :
    (s.step (now, .setRtt rtt)).Consistent where
  wellFormed := well_formed_dead (h := { s.history with rtt }) h.wellFormed.shaped now
  number := h.number
  once := h.once
  pending := fun copy hcopy stored hstored => h.pending copy hcopy stored
    (stored_entry_dead (h := { s.history with rtt }) ⟨h.wellFormed.capacity, h.wellFormed.shaped⟩
      hstored)
  sent := fun number stored time hstored hsent => h.sent number stored time
    (stored_entry_dead (h := { s.history with rtt }) ⟨h.wellFormed.capacity, h.wellFormed.shaped⟩
      hstored) hsent
  fresh := h.fresh
  known := h.known
  current := h.current

/-- A free entry has no retransmission in the pacer. -/
theorem no_copy_of_free {s : RtxSender} (h : s.Consistent) {packetId : BitVec 16}
    {stored : StoredPacket} (hstored : s.history.storedEntry packetId = some stored)
    (hfree : stored.pendingTransmission = false) :
    ∀ copy ∈ s.inPacer, copy.sequenceNumber ≠ packetId := by
  rintro copy hcopy rfl
  have hpending := (h.pending copy hcopy stored hstored).1
  rw [hfree] at hpending
  cases hpending

/-- A request leaves the pacer as it is, or adds the retransmission of a free entry. -/
theorem consistent_re_send {s : RtxSender} (h : s.Consistent) (now : ℤ) (packetId : BitVec 16)
    (enqueueResult : ℤ) : (s.step (now, .reSendPacket packetId enqueueResult)).Consistent := by
  obtain ⟨hwell, hothers, hcases⟩ := re_send_cases h.wellFormed now packetId enqueueResult
  have hsent : ∀ number stored time,
      (s.reSendPacket now packetId enqueueResult).1.storedEntry number = some stored →
        s.sentAt (number, s.entryOf number) = some time →
          stored.sendTime = time ∧ 0 < stored.timesRetransmitted := by
    intro number stored time hstored hsent
    by_cases heq : number = packetId
    · subst heq
      rcases hcases with ⟨-, hsame⟩ | ⟨-, before, hbefore, -, hmarked, -⟩
      · exact h.sent number stored time (hsame ▸ hstored) hsent
      · rw [hmarked] at hstored
        rw [← Option.some.inj hstored]
        exact h.sent number before time hbefore hsent
    · exact h.sent number stored time (hothers number heq ▸ hstored) hsent
  cases hqueued : (s.reSendPacket now packetId enqueueResult).2.1 with
  | none =>
      have hpacer : (s.step (now, .reSendPacket packetId enqueueResult)).inPacer = s.inPacer := by
        simp [step, hqueued]
      refine ⟨hwell, hpacer ▸ h.number, hpacer ▸ h.once, ?_, hsent, h.fresh, h.known,
        hpacer ▸ h.current⟩
      rw [hpacer]
      intro copy hcopy stored hstored
      by_cases heq : copy.sequenceNumber = packetId
      · rcases hcases with ⟨-, hsame⟩ | ⟨-, before, hbefore, hfree, -⟩
        · rw [heq] at hstored
          exact h.pending copy hcopy stored (heq ▸ hsame.symm.trans hstored)
        · exact absurd heq (no_copy_of_free h hbefore hfree copy hcopy)
      · exact h.pending copy hcopy stored (hothers _ heq ▸ hstored)
  | some packet =>
      obtain ⟨hnone, -⟩ | ⟨-, before, hbefore, hfree, hmarked, hnumber⟩ := hcases
      · rw [hqueued] at hnone
        cases hnone
      have hpacer : (s.step (now, .reSendPacket packetId enqueueResult)).inPacer =
          s.inPacer ++ [s.queuedCopy packetId packet] := by
        simp [step, hqueued]
      have hnocopy := no_copy_of_free h hbefore hfree
      refine ⟨hwell, ?_, ?_, ?_, hsent, h.fresh, h.known, ?_⟩
      · rw [hpacer]
        intro copy hcopy
        rcases List.mem_append.mp hcopy with hold | hnew
        · exact h.number copy hold
        · rw [List.mem_singleton.mp hnew]
          exact hnumber packet hqueued
      · rw [hpacer, List.map_append, List.nodup_append]
        refine ⟨h.once, List.nodup_singleton _, ?_⟩
        intro number hold other hnew heq
        obtain ⟨copy, hcopy, rfl⟩ := List.mem_map.mp hold
        exact hnocopy copy hcopy (heq.trans (List.mem_singleton.mp hnew))
      · rw [hpacer]
        intro copy hcopy stored hstored
        rcases List.mem_append.mp hcopy with hold | hnew
        · exact h.pending copy hold stored (hothers _ (hnocopy copy hold) ▸ hstored)
        · rw [List.mem_singleton.mp hnew] at hstored ⊢
          have hentry : some { before with pendingTransmission := true } = some stored :=
            hmarked.symm.trans hstored
          rw [← Option.some.inj hentry]
          simp [queuedCopy, hbefore]
      · rw [hpacer]
        intro copy hcopy
        rcases List.mem_append.mp hcopy with hold | hnew
        · exact h.current copy hold
        · rw [List.mem_singleton.mp hnew]
          rfl

/-- The other retransmissions in the pacer are of other packets. -/
theorem other_copies {s : RtxSender} (h : s.Consistent) {index : Nat} {copy : QueuedCopy}
    (hget : s.inPacer[index]? = some copy) :
    ∀ other ∈ s.inPacer.eraseIdx index, other ∈ s.inPacer ∧
      other.sequenceNumber ≠ copy.sequenceNumber := by
  intro other hother
  obtain ⟨place, hne, hplace⟩ := List.mem_eraseIdx_iff_getElem?.mp hother
  refine ⟨List.mem_of_getElem? hplace, fun heq => hne ?_⟩
  have hlt : place < (s.inPacer.map QueuedCopy.sequenceNumber).length := by
    rw [List.length_map]
    exact (List.getElem?_eq_some_iff.mp hplace).1
  refine (List.getElem?_inj hlt h.once).mp ?_
  rw [List.getElem?_map, List.getElem?_map, hplace, hget]
  exact congrArg some heq

/-- The end of a transmission concerns the entry of its retransmission only. -/
theorem consistent_completed {s : RtxSender} (h : s.Consistent) {index : Nat} {copy : QueuedCopy}
    (hget : s.inPacer[index]? = some copy) {history : RtpPacketHistory} (hwell : history.WellFormed)
    {f : StoredPacket → StoredPacket} {sentAt : BitVec 16 × Nat → Option ℤ}
    (hafter : ∀ number, history.storedEntry number =
      if number = copy.sequenceNumber then (s.history.storedEntry number).map f
      else s.history.storedEntry number)
    (hfresh : ∀ number entry, s.puts ≤ entry → sentAt (number, entry) = none)
    (hother : ∀ number entry, number ≠ copy.sequenceNumber →
      sentAt (number, entry) = s.sentAt (number, entry))
    (hsent : ∀ stored time, s.history.storedEntry copy.sequenceNumber = some stored →
      sentAt (copy.sequenceNumber, copy.entry) = some time →
        (f stored).sendTime = time ∧ 0 < (f stored).timesRetransmitted) :
    Consistent { s with history, inPacer := s.inPacer.eraseIdx index, sentAt } where
  wellFormed := hwell
  number := fun other hmem => h.number other (other_copies h hget other hmem).1
  once := by
    rw [← List.eraseIdx_map]
    exact h.once.sublist (List.eraseIdx_sublist _ _)
  pending := by
    intro other hmem stored hstored
    obtain ⟨hold, hne⟩ := other_copies h hget other hmem
    refine h.pending other hold stored ?_
    rw [hafter, if_neg hne] at hstored
    exact hstored
  sent := by
    intro number stored time hstored htime
    change sentAt (number, s.entryOf number) = some time at htime
    rw [hafter] at hstored
    split_ifs at hstored with heq
    · subst heq
      obtain ⟨before, hbefore, rfl⟩ := Option.map_eq_some_iff.mp hstored
      rw [h.current copy (List.mem_of_getElem? hget)] at htime
      exact hsent before time hbefore htime
    · rw [hother number _ heq] at htime
      exact h.sent number stored time hstored htime
  fresh := hfresh
  known := h.known
  current := fun other hmem => h.current other (other_copies h hget other hmem).1

/-- Every step that puts no packet under the number of a retransmission on its way keeps the
invariant. -/
theorem consistent_step {s : RtxSender} (h : s.Consistent) (action : ℤ × Op)
    (hfresh : s.PutsFresh action) : (s.step action).Consistent := by
  obtain ⟨now, op⟩ := action
  cases op with
  | putRtpPacket rtpPacket sendTime => exact consistent_put h now rtpPacket sendTime hfresh
  | reSendPacket packetId enqueueResult => exact consistent_re_send h now packetId enqueueResult
  | onSentRtpPacket index =>
      cases hget : s.inPacer[index]? with
      | none =>
          simp only [step, hget]
          exact h
      | some copy =>
          have hmem := List.mem_of_getElem? hget
          simp only [step, hget]
          unfold onSentRtpPacket
          simp only [h.number copy hmem]
          refine consistent_completed h hget
            (well_formed_call h.wellFormed (now, .made (.markPacketAsSent copy.sequenceNumber)))
            (stored_entry_sent h.wellFormed now copy.sequenceNumber) ?_ ?_ ?_
          · intro number entry hle
            have hlt : copy.entry < s.puts := h.current copy hmem ▸ h.known copy.sequenceNumber
            rw [Function.update_of_ne]
            · exact h.fresh number entry hle
            · intro heq
              rw [(Prod.mk.inj heq).2] at hle
              omega
          · intro number entry hne
            rw [Function.update_of_ne]
            intro heq
            exact hne (Prod.mk.inj heq).1
          · intro stored time _ htime
            rw [Function.update_self] at htime
            exact ⟨Option.some.inj htime, Nat.succ_pos _⟩
  | onRtpPacketSendFailed index =>
      cases hget : s.inPacer[index]? with
      | none =>
          simp only [step, hget]
          exact h
      | some copy =>
          have hmem := List.mem_of_getElem? hget
          simp only [step, hget]
          unfold onRtpPacketSendFailed
          simp only [h.number copy hmem]
          refine consistent_completed h hget
            (well_formed_call h.wellFormed (now, .made (.markPacketAsAborted copy.sequenceNumber)))
            (stored_entry_aborted h.wellFormed copy.sequenceNumber) h.fresh (fun _ _ _ => rfl) ?_
          intro stored time hstored htime
          rw [← h.current copy hmem] at htime
          exact h.sent copy.sequenceNumber stored time hstored htime
  | setRtt rtt => exact consistent_rtt h now rtt

/-- What the invariant says about the next step. -/
theorem exclusive_of_consistent {s : RtxSender} (h : s.Consistent) (action : ℤ × Op) :
    s.Exclusive action := by
  obtain ⟨now, op⟩ := action
  cases op with
  | putRtpPacket rtpPacket sendTime => trivial
  | setRtt rtt => trivial
  | reSendPacket packetId enqueueResult =>
      intro hgranted
      rcases requested_cases h.wellFormed now packetId with
        hnone | ⟨stored, copy, hstored, hfree, hrtt, -⟩
      · rw [hnone] at hgranted
        cases hgranted
      · refine ⟨fun other hmem hsame => no_copy_of_free h hstored hfree other hmem hsame.1, ?_, ?_⟩
        · intro time htime
          obtain ⟨hsend, htimes⟩ := h.sent packetId stored time hstored htime
          unfold verifyRtt at hrtt
          rw [hsend] at hrtt
          simp only [gt_iff_lt, htimes, decide_true, Bool.true_and, Bool.not_eq_true',
            decide_eq_false_iff_not, not_lt] at hrtt
          exact hrtt
        · intro hneg
          obtain ⟨-, -, hcases⟩ := re_send_cases h.wellFormed now packetId enqueueResult
          rcases hcases with ⟨-, hsame⟩ | ⟨hpos, -⟩
          · exact hsame
          · exact absurd hneg (not_lt.mpr hpos)
  | onSentRtpPacket index =>
      intro copy hget stored hstored
      have hmem := List.mem_of_getElem? hget
      simp only [entryOfCopy, step, hget, onSentRtpPacket, h.number copy hmem] at hstored
      split_ifs at hstored
      rw [stored_entry_sent h.wellFormed, if_pos rfl] at hstored
      obtain ⟨before, -, rfl⟩ := Option.map_eq_some_iff.mp hstored
      rfl
  | onRtpPacketSendFailed index =>
      intro copy hget stored hstored
      have hmem := List.mem_of_getElem? hget
      simp only [entryOfCopy, step, hget, onRtpPacketSendFailed, h.number copy hmem] at hstored
      split_ifs at hstored
      rw [stored_entry_aborted h.wellFormed, if_pos rfl] at hstored
      obtain ⟨before, hbefore, rfl⟩ := Option.map_eq_some_iff.mp hstored
      exact ⟨rfl, (h.pending copy hmem before hbefore).2⟩

/-! ## Whole runs -/

/-- In a run that puts no packet under a number of which a retransmission is on its way, every
entry has one retransmission at a time, none within the round-trip time after it was sent, and a
transmission that ends leaves the entry free, and unchanged if it failed. -/
theorem exclusive_run (rtxEnabled : Bool) (rtxSsrc : BitVec 32) (actions : List (ℤ × Op))
    (hfresh : Run.Along step PutsFresh { rtxEnabled, rtxSsrc } actions) :
    Run.Along step Exclusive { rtxEnabled, rtxSsrc } actions :=
  hfresh.imp (I := Consistent) (fun _ action h hput => consistent_step h action hput)
    (fun _ action h _ => exclusive_of_consistent h action) (consistent_new rtxEnabled rtxSsrc)

/-- A packet is asked for, the transmission fails, and the packet is asked for again. -/
def askedAgain : List (ℤ × Op) :=
  [(0, .putRtpPacket timedStored 0), (1000, .reSendPacket 11 0), (2000, .onRtpPacketSendFailed 0),
    (3000, .reSendPacket 11 0)]

/-- Both requests are granted, one after the other. -/
theorem asked_again_exclusive :
    Run.Along step Exclusive { rtxEnabled := true, rtxSsrc := 8 } askedAgain ∧
      ((askedAgain.take 2).foldl step { rtxSsrc := 8 }).inPacer.length = 1 ∧
      (askedAgain.foldl step { rtxSsrc := 8 }).inPacer.length = 1 := by
  refine ⟨exclusive_run true 8 askedAgain ⟨?_, trivial, trivial, trivial, trivial⟩,
    by decide +kernel, by decide +kernel⟩
  intro copy hcopy
  simp at hcopy

/-- A packet is put twice while a retransmission is on its way. The report about the first
retransmission then ends the mark of the second one. -/
def putTwice : List (ℤ × Op) :=
  [(0, .putRtpPacket timedStored 0), (1000, .reSendPacket 11 0),
    (2000, .putRtpPacket timedStored 2000), (3000, .reSendPacket 11 0), (4000, .onSentRtpPacket 0)]

/-- The packet that was put twice gets a second retransmission while the first one of it is still in
the pacer. -/
theorem second_copy_of_replaced :
    ¬ ∀ actions : List (ℤ × Op), Run.Along step Exclusive { rtxSsrc := 8 } actions := by
  intro h
  have hlast := (Run.along_append.mp (h (putTwice ++ [(500000, .reSendPacket 11 0)]))).2.1
  obtain ⟨hnone, -⟩ := hlast (by decide +kernel)
  have hpacer : (putTwice.foldl step { rtxSsrc := 8 }).inPacer.map
      (fun copy => (copy.sequenceNumber, copy.entry)) = [(11, 2)] := by decide +kernel
  have hentry : (putTwice.foldl step { rtxSsrc := 8 }).entryOf 11 = 2 := by decide +kernel
  obtain ⟨copy, hcopy, hsame⟩ := List.mem_map.mp (hpacer ▸ List.mem_singleton_self _)
  rw [hentry] at hnone
  exact hnone copy hcopy (Prod.mk.inj hsame)

end RtxSender

end MiniRtc
