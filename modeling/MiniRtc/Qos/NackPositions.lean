import MiniRtc.Qos.NackEntries

/-!
# Sequence numbers as positions in the stream

A sequence number is the residue of a position in the unwrapped stream. `positionOf` is the position
that the requester gives to a packet: the one next to the newest packet, on the side on which
`AheadOf` sees it. `Unwrapped` runs the requester next to the position of the newest packet and the
positions of all recovered packets.

`recoveredList` is pruned only when another packet is recovered and by `ClearUpTo`, so it may
still hold a number from an earlier turn of the sequence numbers. The main result,
`skipped_numbers_enter_iff`, says that this is the only reason for which the number of a packet
that was not recovered does not enter the NACK list.
-/

namespace MiniRtc

open Circle

namespace NackRequester

/-- The position of a packet, where `newest` is the position of the newest one. -/
def positionOf (s : NackRequester) (newest : ℤ) (seqNum : BitVec 16) : ℤ :=
  if !s.initialized then seqNum.toNat
  else if aheadOf s.newestSeqNum seqNum then newest - fwd seqNum s.newestSeqNum
  else newest + fwd s.newestSeqNum seqNum

/-- The position of the newest packet after a reception. -/
def newestAfter (s : NackRequester) (newest : ℤ) (seqNum : BitVec 16) (isRecovered : Bool) : ℤ :=
  if !s.initialized then s.positionOf newest seqNum
  else if isRecovered then newest
  else max newest (s.positionOf newest seqNum)

/-- The position that is known as the newest one belongs to the newest sequence number. -/
def Located (s : NackRequester) (newest : ℤ) : Prop :=
  s.initialized = true → BitVec.ofInt 16 newest = s.newestSeqNum

section Position

variable {s : NackRequester} {newest : ℤ} {seqNum : BitVec 16}

/-- The position of a packet ahead of the newest one. -/
theorem position_of_ahead (newest : ℤ) (hinit : s.initialized = true)
    (hahead : aheadOf seqNum s.newestSeqNum = true) :
    s.positionOf newest seqNum = newest + fwd s.newestSeqNum seqNum ∧
      1 ≤ fwd s.newestSeqNum seqNum ∧ fwd s.newestSeqNum seqNum ≤ 2 ^ 15 := by
  have hnot := ahead_of_asymm (by decide) hahead
  obtain ⟨hne, hdist⟩ := ahead_of_iff.mp hahead
  have hpos : fwd s.newestSeqNum seqNum ≠ 0 := fun hz => hne (fwd_eq_zero.mp hz).symm
  refine ⟨by simp [positionOf, hinit, hnot], by omega, ?_⟩
  rcases hdist with hlt | ⟨heq, -⟩
  · exact hlt.le
  · exact heq.le

/-- An original packet ahead of the newest one becomes the newest one. -/
theorem newest_after_ahead (hinit : s.initialized = true)
    (hahead : aheadOf seqNum s.newestSeqNum = true) :
    s.newestAfter newest seqNum false = newest + fwd s.newestSeqNum seqNum ∧
      1 ≤ fwd s.newestSeqNum seqNum ∧ fwd s.newestSeqNum seqNum ≤ 2 ^ 15 := by
  obtain ⟨hposition, hone, hle⟩ := position_of_ahead newest hinit hahead
  refine ⟨?_, hone, hle⟩
  simp only [newestAfter, hinit, Bool.not_true, Bool.false_eq_true, if_false]
  rw [hposition, max_eq_right (by omega)]

/-- The position of a packet behind the newest one. -/
theorem position_of_behind (hinit : s.initialized = true)
    (hbehind : aheadOf s.newestSeqNum seqNum = true) :
    s.positionOf newest seqNum = newest - fwd seqNum s.newestSeqNum := by
  simp [positionOf, hinit, hbehind]

/-- The newest packet is at the newest position. -/
theorem position_of_newest (hinit : s.initialized = true) :
    s.positionOf newest s.newestSeqNum = newest := by
  simp [positionOf, hinit]

/-- The sequence number of a position is its residue. -/
theorem of_int_position_of (h : s.Located newest) (seqNum : BitVec 16) :
    BitVec.ofInt 16 (s.positionOf newest seqNum) = seqNum := by
  unfold positionOf
  cases hinit : s.initialized with
  | false => simp
  | true =>
      simp only [Bool.not_true, Bool.false_eq_true, if_false]
      split_ifs
      · exact of_int_sub_fwd (h hinit) seqNum
      · exact of_int_add_fwd (h hinit) seqNum

/-- No packet is more than half a turn ahead of the newest one. -/
theorem position_of_le (hinit : s.initialized = true) (newest : ℤ) (seqNum : BitVec 16) :
    s.positionOf newest seqNum ≤ newest + 2 ^ 15 := by
  by_cases heq : seqNum = s.newestSeqNum
  · rw [heq, position_of_newest hinit]
    omega
  · rcases ahead_of_total (by decide) heq with hahead | hbehind
    · obtain ⟨hpos, -, hle⟩ := position_of_ahead newest hinit hahead
      omega
    · rw [position_of_behind hinit hbehind]
      omega

/-- The newest position never goes back. -/
theorem le_newest_after (hinit : s.initialized = true) (newest : ℤ) (seqNum : BitVec 16)
    (isRecovered : Bool) : newest ≤ s.newestAfter newest seqNum isRecovered := by
  simp only [newestAfter, hinit, Bool.not_true, Bool.false_eq_true, if_false]
  split_ifs
  · exact le_rfl
  · exact le_max_left _ _

/-- After a reception the requester knows a newest packet. -/
theorem on_received_packet_started (s : NackRequester) (now : ℤ) (seqNum : BitVec 16)
    (isRecovered : Bool) : (s.onReceivedPacket now seqNum isRecovered).1.initialized = true := by
  have hcases := on_received_packet_reception s now seqNum isRecovered
  generalize s.onReceivedPacket now seqNum isRecovered = result at hcases
  cases hcases <;> first | rfl | assumption

/-- A reception moves the newest position as it moves the newest sequence number. -/
theorem on_received_packet_located (h : s.Located newest) (now : ℤ) (seqNum : BitVec 16)
    (isRecovered : Bool) :
    (s.onReceivedPacket now seqNum isRecovered).1.Located
      (s.newestAfter newest seqNum isRecovered) := by
  have hcases := on_received_packet_reception s now seqNum isRecovered
  generalize s.onReceivedPacket now seqNum isRecovered = result at hcases
  have hposition := of_int_position_of h seqNum
  cases hcases with
  | first _ hinit =>
      intro _
      simp only [newestAfter, hinit, Bool.not_false, if_true]
      exact hposition
  | newest _ hinit heq =>
      intro _
      simp only [newestAfter, hinit, heq, position_of_newest hinit, Bool.not_true,
        Bool.false_eq_true, max_self, ite_self]
      exact h hinit
  | outOfOrder _ _ _ _ hinit hbehind =>
      intro _
      have hle : s.positionOf newest seqNum ≤ newest := by
        rw [position_of_behind hinit hbehind]
        omega
      simp only [newestAfter, hinit, max_eq_left hle, Bool.not_true, Bool.false_eq_true,
        if_false, ite_self]
      exact h hinit
  | recovered hinit _ =>
      intro _
      simp only [newestAfter, hinit, Bool.not_true, Bool.false_eq_true, if_false, if_true]
      exact h hinit
  | overflow hinit hahead =>
      intro _
      rw [(newest_after_ahead hinit hahead).1, ← (position_of_ahead newest hinit hahead).1]
      exact hposition
  | advance hinit hahead =>
      intro _
      rw [(newest_after_ahead hinit hahead).1, ← (position_of_ahead newest hinit hahead).1]
      exact hposition

end Position

/-- The positions skipped by a packet are those of the skipped numbers. -/
theorem of_int_mem_seq_num_range {s : NackRequester} {newest : ℤ} {seqNum : BitVec 16}
    (h : s.Located newest) (hinit : s.initialized = true)
    (hahead : aheadOf seqNum s.newestSeqNum = true) (q : ℤ) (hlow : newest < q)
    (hhigh : q < s.newestAfter newest seqNum false) :
    BitVec.ofInt 16 q ∈ seqNumRange (s.newestSeqNum + 1) seqNum := by
  have hne : s.newestSeqNum ≠ seqNum := fun hs => by simp [hs] at hahead
  have hsucc := fwd_succ hne
  rw [(newest_after_ahead hinit hahead).1] at hhigh
  refine List.mem_map.mpr ⟨(q - newest - 1).toNat, ?_, ?_⟩
  · rw [List.mem_range]
    change _ < fwd (s.newestSeqNum + 1) seqNum
    omega
  · have hq : q = newest + 1 + ((q - newest - 1).toNat : ℤ) := by omega
    conv_rhs => rw [hq]
    rw [BitVec.ofInt_add, BitVec.ofInt_add, h hinit, BitVec.ofInt_natCast]
    rfl

/-- Exactly the skipped numbers that are not in `recoveredList` enter the NACK list. -/
theorem skipped_number_enters_iff {s : NackRequester} (h : s.WellFormed) (now : ℤ)
    {seqNum x : BitVec 16} (hadvances : s.Advances seqNum false)
    (hskip : x ∈ seqNumRange (s.newestSeqNum + 1) seqNum) :
    (∃ entry ∈ (s.onReceivedPacket now seqNum false).1.nackList, entry.1 = x) ↔
      OrderedMap.find? descendingSeqNumComp id x s.recoveredList = none := by
  constructor
  · rintro ⟨entry, hentry, rfl⟩
    rcases on_received_packet_entry h hentry with ⟨hadds, -⟩ | ⟨info, hmem, -⟩
    · exact hadds.missing
    · exact absurd hmem (not_mem_of_skipped h hadvances.ahead hadvances.room hskip info)
  · intro hmissing
    obtain ⟨entry, hentry, hkey⟩ := mem_extended_entries now hskip hmissing
    have hcases := on_received_packet_reception s now seqNum false
    generalize s.onReceivedPacket now seqNum false = result at hcases
    have hne : seqNum ≠ s.newestSeqNum := fun heq => by simpa [heq] using hadvances.ahead
    cases hcases with
    | first _ hinit => simp [hadvances.started] at hinit
    | newest _ _ heq => exact absurd heq hne
    | outOfOrder _ _ _ _ _ hbehind =>
        simp [ahead_of_asymm (by decide) hadvances.ahead] at hbehind
    | overflow _ _ hfull => exact absurd hfull hadvances.room
    | advance =>
        refine ⟨_, List.mem_map.mpr ⟨entry, hentry, rfl⟩, ?_⟩
        split_ifs <;> exact hkey

end NackRequester

/-- The requester, the position of its newest packet and the positions of all packets that were
recovered so far. -/
structure Unwrapped where
  requester : NackRequester := {}
  newest : ℤ := 0
  recovered : List ℤ := []

namespace Unwrapped

/-- An operation of the requester, with the positions it moves or adds. -/
def step (s : Unwrapped) : ℤ × NackRequester.Op → Unwrapped
  | (now, .onReceivedPacket seqNum isRecovered) =>
      { requester := s.requester.perform (now, .onReceivedPacket seqNum isRecovered)
        newest := s.requester.newestAfter s.newest seqNum isRecovered
        recovered :=
          if isRecovered then s.requester.positionOf s.newest seqNum :: s.recovered
          else s.recovered }
  | action => { s with requester := s.requester.perform action }

/-- The positions belong to the numbers, and nothing was recovered from farther ahead than half a
turn. -/
structure Consistent (s : Unwrapped) : Prop where
  wellFormed : s.requester.WellFormed
  located : s.requester.Located s.newest
  unused : s.requester.initialized = false → s.recovered = []
  recovered_le : ∀ p ∈ s.recovered, p ≤ s.newest + 2 ^ 15

/-- A reception keeps the positions consistent. -/
theorem step_received_consistent {s : Unwrapped} (h : s.Consistent) (now : ℤ)
    (seqNum : BitVec 16) (isRecovered : Bool) :
    (s.step (now, .onReceivedPacket seqNum isRecovered)).Consistent := by
  have hstarted := s.requester.on_received_packet_started now seqNum isRecovered
  refine ⟨NackRequester.on_received_packet_window h.wellFormed now seqNum isRecovered,
    NackRequester.on_received_packet_located h.located now seqNum isRecovered,
    fun hinit => absurd (hstarted.symm.trans hinit) (by simp), ?_⟩
  intro p hp
  have hold : ∀ p ∈ s.recovered,
      p ≤ s.requester.newestAfter s.newest seqNum isRecovered + 2 ^ 15 := by
    intro p hp
    cases hinit : s.requester.initialized with
    | false => simp [h.unused hinit] at hp
    | true =>
        have hle := h.recovered_le p hp
        have hmono := NackRequester.le_newest_after hinit s.newest seqNum isRecovered
        omega
  simp only [step] at hp ⊢
  split_ifs at hp with hrec
  · rcases List.mem_cons.mp hp with rfl | hp
    · cases hinit : s.requester.initialized with
      | false => simp [NackRequester.newestAfter, hinit]
      | true =>
          have hle := NackRequester.position_of_le hinit s.newest seqNum
          have hmono := NackRequester.le_newest_after hinit s.newest seqNum isRecovered
          omega
    · exact hold p hp
  · exact hold p hp

/-- Every operation keeps the positions consistent. -/
theorem step_consistent {s : Unwrapped} (h : s.Consistent) (action : ℤ × NackRequester.Op) :
    (s.step action).Consistent := by
  obtain ⟨now, op⟩ := action
  have hwindow := NackRequester.perform_window h.wellFormed (now, op)
  cases op with
  | onReceivedPacket seqNum isRecovered => exact step_received_consistent h now seqNum isRecovered
  | updateRtt rttMs =>
      obtain ⟨rtt, hasSample, heq⟩ := NackRequester.update_rtt_eq s.requester rttMs
      refine ⟨hwindow, ?_, ?_, h.recovered_le⟩
      · simp only [step, NackRequester.perform, heq]
        exact h.located
      · simp only [step, NackRequester.perform, heq]
        exact h.unused
  | processNacks => exact ⟨hwindow, h.located, h.unused, h.recovered_le⟩
  | onNackBatchSent nackBatch sendSuccessful => exact ⟨hwindow, h.located, h.unused, h.recovered_le⟩
  | consumeKeyFrameRequest => exact ⟨hwindow, h.located, h.unused, h.recovered_le⟩
  | clearUpTo seqNum => exact ⟨hwindow, h.located, h.unused, h.recovered_le⟩

/-- Every state of every run has consistent positions. -/
theorem run_consistent (actions : List (ℤ × NackRequester.Op)) :
    (actions.foldl step {}).Consistent :=
  List.foldlRecOn actions step
    ⟨NackRequester.initial_window, fun h => by simp at h, fun _ => rfl, by simp⟩
    fun _ h action _ => step_consistent h action

/-- Packet 10 is recovered, then the sequence numbers go once around the circle. -/
def staleRun : List (ℤ × NackRequester.Op) :=
  [(0, .onReceivedPacket 0 false), (0, .onReceivedPacket 10 true),
    (0, .onReceivedPacket 30000 false), (0, .onReceivedPacket 60000 false),
    (0, .onReceivedPacket 9 false)]

end Unwrapped

end MiniRtc
