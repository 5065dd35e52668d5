import MiniRtc.Qos.NackPositions

/-!
# The positions in the NACK list

`Listed` says that a position of the stream has an entry in the NACK list. Each operation of the
requester is described by what it does to the listed positions, in both directions: what a listed
position was before (`received_listed` and the like), and under which conditions a listed
position stays listed (`listed_received` and the like).
-/

namespace MiniRtc

open Circle

namespace NackRequester

/-- The position has an entry in the NACK list. -/
def Listed (s : NackRequester) (newest q : ℤ) : Prop :=
  ∃ entry ∈ s.nackList, s.positionOf newest entry.1 = q

section Entry

variable {s : NackRequester} {newest q : ℤ} {entry : BitVec 16 × NackInfo}

/-- An entry lies at most `kMaxPacketAge` positions behind the newest packet. -/
theorem position_of_entry (h : s.WellFormed) (newest : ℤ) (hentry : entry ∈ s.nackList) :
    s.initialized = true ∧ aheadOf s.newestSeqNum entry.1 = true ∧
      s.positionOf newest entry.1 = newest - fwd entry.1 s.newestSeqNum := by
  have hinit : s.initialized = true := by
    cases hinit : s.initialized with
    | true => rfl
    | false => simp [h.unused hinit] at hentry
  obtain ⟨hlow, hhigh⟩ := h.window.age entry hentry
  unfold kMaxPacketAge at hhigh
  have hbehind : aheadOf s.newestSeqNum entry.1 = true :=
    (ahead_of_iff_fwd (by omega)).mpr ⟨by omega, by omega⟩
  exact ⟨hinit, hbehind, position_of_behind hinit hbehind⟩

/-- The listed positions form a window behind the newest packet. -/
theorem Listed.bounds (h : s.WellFormed) (hlisted : s.Listed newest q) :
    newest - kMaxPacketAge ≤ q ∧ q < newest := by
  obtain ⟨entry, hentry, rfl⟩ := hlisted
  obtain ⟨-, -, hposition⟩ := position_of_entry h newest hentry
  obtain ⟨hlow, hhigh⟩ := h.window.age entry hentry
  omega

/-- A position of the window is listed when its number is in the list. -/
theorem listed_iff (h : s.WellFormed) (hlocated : s.Located newest) :
    s.Listed newest q ↔ newest - 2 ^ 15 < q ∧ q < newest ∧
      ∃ entry ∈ s.nackList, entry.1 = BitVec.ofInt 16 q := by
  constructor
  · intro hlisted
    have hbounds := hlisted.bounds h
    unfold kMaxPacketAge at hbounds
    obtain ⟨entry, hentry, rfl⟩ := hlisted
    exact ⟨by omega, hbounds.2, entry, hentry, (of_int_position_of hlocated entry.1).symm⟩
  · rintro ⟨hlow, hhigh, entry, hentry, hkey⟩
    obtain ⟨hinit, -, hposition⟩ := position_of_entry h newest hentry
    refine ⟨entry, hentry, hposition.trans ?_⟩
    have hfwd := fwd_of_int_of_le (w := 16) hhigh.le (by omega)
    rw [hkey, ← hlocated hinit]
    omega

end Entry

/-! ## Receiving a packet -/

section Receive

variable {s : NackRequester} {newest q now : ℤ} {seqNum : BitVec 16} {isRecovered : Bool}

/-- The number of a packet that was just received is not in the list. -/
theorem on_received_packet_removes (h : s.WellFormed) {entry : BitVec 16 × NackInfo}
    (hentry : entry ∈ (s.onReceivedPacket now seqNum isRecovered).1.nackList) :
    entry.1 ≠ seqNum := by
  have hafter := on_received_packet_window h now seqNum isRecovered
  have hcases := on_received_packet_reception s now seqNum isRecovered
  generalize s.onReceivedPacket now seqNum isRecovered = result at hcases hentry hafter
  have hage := (hafter.window.age entry hentry).1
  rintro rfl
  cases hcases with
  | first | advance => simp [getNackBatch] at hage
  | newest _ _ heq =>
      rw [← heq] at hage
      simp at hage
  | overflow => simp at hentry
  | recovered _ hahead =>
      have hmem : entry ∈ s.nackList := hentry
      have hbehind := (position_of_entry h 0 hmem).2.1
      simp [ahead_of_asymm (by decide) hahead] at hbehind
  | outOfOrder =>
      have hmem := OrderedMap.mem_of_mem_erase hentry
      have hbehind := h.window.ranked.inUse entry hmem
      exact ((OrderedMap.mem_erase_iff (comp_iff_age_rank _) comp_connected hbehind
        h.window.ranked).mp hentry).2 rfl

/-- No packet moves the newest position by more than half a turn. -/
theorem newest_after_le (hinit : s.initialized = true) (newest : ℤ) (seqNum : BitVec 16)
    (isRecovered : Bool) : s.newestAfter newest seqNum isRecovered ≤ newest + 2 ^ 15 := by
  have hle := position_of_le hinit newest seqNum
  simp only [newestAfter, hinit, Bool.not_true, Bool.false_eq_true, if_false]
  split_ifs
  · omega
  · exact max_le (by omega) hle

/-- Only an original packet ahead of the newest one moves the newest position, to its own. -/
theorem ahead_of_newest_after (hinit : s.initialized = true)
    (hmoves : newest < s.newestAfter newest seqNum isRecovered) :
    isRecovered = false ∧ aheadOf seqNum s.newestSeqNum = true ∧
      s.newestAfter newest seqNum isRecovered = s.positionOf newest seqNum := by
  simp only [newestAfter, hinit, Bool.not_true, Bool.false_eq_true, if_false] at hmoves ⊢
  split_ifs at hmoves ⊢ with hrec
  · omega
  · have hposition : newest < s.positionOf newest seqNum := by
      by_contra hle
      rw [max_eq_left (by omega)] at hmoves
      omega
    have hne : seqNum ≠ s.newestSeqNum := by
      rintro rfl
      simp [position_of_newest hinit] at hposition
    refine ⟨by simpa using hrec, (ahead_of_total (by decide) hne).resolve_right ?_,
      max_eq_right hposition.le⟩
    intro hbehind
    rw [position_of_behind hinit hbehind] at hposition
    omega

/-- What is listed after a reception was listed before and is not the packet, or was skipped by
the packet and is not known as recovered. -/
theorem received_listed (h : s.WellFormed) (hlocated : s.Located newest)
    (hlisted : (s.onReceivedPacket now seqNum isRecovered).1.Listed
      (s.newestAfter newest seqNum isRecovered) q) :
    q ≠ s.positionOf newest seqNum ∧
      (s.Listed newest q ∨
        (s.Advances seqNum isRecovered ∧ newest < q ∧
          q < s.newestAfter newest seqNum isRecovered ∧
          OrderedMap.find? descendingSeqNumComp id (BitVec.ofInt 16 q) s.recoveredList =
            none)) := by
  have hafter := on_received_packet_window h now seqNum isRecovered
  have hlocated' := on_received_packet_located hlocated now seqNum isRecovered
  have hbounds := hlisted.bounds hafter
  obtain ⟨hlow, hhigh, entry, hentry, hkey⟩ := (listed_iff hafter hlocated').mp hlisted
  constructor
  · rintro rfl
    rw [of_int_position_of hlocated] at hkey
    exact on_received_packet_removes h hentry hkey
  · rcases on_received_packet_entry h hentry with ⟨hadds, -⟩ | ⟨info, hmem, -⟩
    · right
      obtain rfl : isRecovered = false := hadds.original
      obtain ⟨hnewest, -, -⟩ : s.newestAfter newest seqNum false = _ ∧ _ :=
        newest_after_ahead hadds.started hadds.ahead
      obtain ⟨i, hi, -, hlast⟩ := mem_seq_num_range hadds.skipped
      have hsucc := (fwd_le_of_room hadds.ahead hadds.room).1
      have hfwd := fwd_of_int_of_le (w := 16) hhigh.le (by omega)
      rw [← hkey, hnewest, of_int_add_fwd (hlocated hadds.started), hlast] at hfwd
      refine ⟨hadds.toAdvances, by omega, hhigh, ?_⟩
      rw [← hkey]
      exact hadds.missing
    · left
      obtain ⟨hinit, -, hposition⟩ := position_of_entry h newest hmem
      have hage := h.window.age _ hmem
      have hmono := le_newest_after hinit newest seqNum isRecovered
      have hle := newest_after_le hinit newest seqNum isRecovered
      simp only [kMaxPacketAge] at hbounds hage
      refine ⟨_, hmem, of_int_inj (w := 16) ?_ ?_ ?_⟩
      · rw [of_int_position_of hlocated]
        exact hkey
      · simp only at hposition ⊢
        omega
      · simp only at hposition ⊢
        omega

/-- What is listed stays listed, unless it is the packet, the list overflows or the age limit is
reached. -/
theorem listed_received (h : s.WellFormed) (hlocated : s.Located newest)
    (hlisted : s.Listed newest q) (hother : q ≠ s.positionOf newest seqNum)
    (hroom : isRecovered = false → aheadOf seqNum s.newestSeqNum = true →
      ¬ s.overflowsAt seqNum ∧ s.newestAfter newest seqNum isRecovered - kMaxPacketAge ≤ q) :
    (s.onReceivedPacket now seqNum isRecovered).1.Listed
      (s.newestAfter newest seqNum isRecovered) q := by
  have hafter := on_received_packet_window h now seqNum isRecovered
  have hlocated' := on_received_packet_located hlocated now seqNum isRecovered
  have hbounds := hlisted.bounds h
  obtain ⟨entry, hentry, rfl⟩ := hlisted
  have hkey := (of_int_position_of hlocated entry.1).symm
  obtain ⟨hinit, -, hposition⟩ := position_of_entry h newest hentry
  unfold kMaxPacketAge at hbounds
  -- when the newest position stays, the number only has to stay in the list
  have hkept : s.newestAfter newest seqNum isRecovered = newest →
      entry ∈ (s.onReceivedPacket now seqNum isRecovered).1.nackList →
      (s.onReceivedPacket now seqNum isRecovered).1.Listed
        (s.newestAfter newest seqNum isRecovered) (s.positionOf newest entry.1) :=
    fun hsame hmem => (listed_iff hafter hlocated').mpr
      ⟨by omega, by omega, entry, hmem, hkey⟩
  have hcases := on_received_packet_reception s now seqNum isRecovered
  generalize s.onReceivedPacket now seqNum isRecovered = result at hcases hafter hlocated' hkept
  cases hcases with
  | first _ hfirst => simp [hinit] at hfirst
  | newest _ _ heq =>
      refine hkept ?_ hentry
      simp [newestAfter, hinit, heq, position_of_newest hinit]
  | outOfOrder _ _ _ _ _ hbehind =>
      refine hkept ?_ (OrderedMap.mem_erase_of_ne comp_connected hentry ?_)
      · simp [newestAfter, hinit, position_of_behind hinit hbehind]
      · rintro rfl
        exact hother rfl
  | recovered _ _ =>
      refine hkept ?_ hentry
      simp [newestAfter, hinit]
  | overflow _ hahead hfull => exact absurd hfull (hroom rfl hahead).1
  | advance _ hahead hfits =>
      obtain ⟨hnewest, -, hhalf⟩ : s.newestAfter newest seqNum false = _ ∧ _ :=
        newest_after_ahead hinit hahead
      have hold := (hroom rfl hahead).2
      unfold kMaxPacketAge at hold
      have hyoung : entry ∈ s.youngEntries seqNum := by
        rw [young_entries_eq_filter h hahead hfits, List.mem_filter, decide_eq_true_eq]
        unfold kMaxPacketAge
        exact ⟨hentry, by omega⟩
      obtain ⟨kept, hkept, hsame⟩ := s.add_packet_to_nack_fold_keeps now
        (seqNumRange (s.newestSeqNum + 1) seqNum) ⟨entry, hyoung, rfl⟩
      refine (listed_iff hafter hlocated').mpr
        ⟨by omega, by omega, _, List.mem_map.mpr ⟨kept, hkept, rfl⟩, ?_⟩
      split_ifs <;> exact hsame.trans hkey

/-- A skipped position that is not known as recovered becomes listed. -/
theorem listed_skipped (h : s.WellFormed) (hlocated : s.Located newest)
    (hadvances : s.Advances seqNum false) (hlow : newest < q)
    (hhigh : q < s.newestAfter newest seqNum false)
    (hmissing : OrderedMap.find? descendingSeqNumComp id (BitVec.ofInt 16 q) s.recoveredList =
      none) :
    (s.onReceivedPacket now seqNum false).1.Listed (s.newestAfter newest seqNum false) q := by
  have hafter := on_received_packet_window h now seqNum false
  have hlocated' := on_received_packet_located hlocated now seqNum false
  have hskip := of_int_mem_seq_num_range hlocated hadvances.started hadvances.ahead q hlow hhigh
  have hle := newest_after_le hadvances.started newest seqNum false
  refine (listed_iff hafter hlocated').mpr ⟨by omega, hhigh, ?_⟩
  exact (skipped_number_enters_iff h now hadvances hskip).mpr hmissing

end Receive

/-! ## The other operations -/

section Other

variable {s : NackRequester} {newest q : ℤ}

/-- A position stays listed while its number stays in the list. -/
theorem Listed.mono {s' : NackRequester} (hlisted : s.Listed newest q)
    (hkeys : ∀ entry ∈ s.nackList, ∃ entry' ∈ s'.nackList, entry'.1 = entry.1)
    (hinit : s'.initialized = s.initialized) (hnewest : s'.newestSeqNum = s.newestSeqNum) :
    s'.Listed newest q := by
  obtain ⟨entry, hentry, rfl⟩ := hlisted
  obtain ⟨entry', hmem, hkey⟩ := hkeys entry hentry
  refine ⟨entry', hmem, ?_⟩
  simp only [positionOf, hinit, hnewest, hkey]

/-- Preparing a batch lists the same positions. -/
theorem listed_process_nacks (now : ℤ) :
    (s.processNacks now).1.Listed newest q ↔ s.Listed newest q := by
  constructor
  · refine fun hlisted => hlisted.mono ?_ rfl rfl
    intro entry hentry
    obtain ⟨old, hold, rfl⟩ := List.mem_map.mp hentry
    refine ⟨old, hold, ?_⟩
    split_ifs <;> rfl
  · refine fun hlisted => hlisted.mono ?_ rfl rfl
    intro entry hentry
    refine ⟨_, List.mem_map_of_mem hentry, ?_⟩
    split_ifs <;> rfl

/-- A report adds no position. -/
theorem sent_listed (h : s.WellFormed) {now : ℤ} {nackBatch : List (BitVec 16)}
    {sendSuccessful : Bool}
    (hlisted : (s.onNackBatchSent now nackBatch sendSuccessful).Listed newest q) :
    s.Listed newest q := by
  refine hlisted.mono (fun entry hentry => ?_) rfl rfl
  rcases on_nack_batch_sent_entry h.window hentry with ⟨hmem, -⟩ | ⟨-, info, hmem, -⟩
  · exact ⟨entry, hmem, rfl⟩
  · exact ⟨_, hmem, rfl⟩

/-- A report removes only numbers that reach the retry limit. -/
theorem listed_sent (h : s.WellFormed) (hlisted : s.Listed newest q) (now : ℤ)
    {nackBatch : List (BitVec 16)} {sendSuccessful : Bool}
    (hretries : ∀ entry ∈ s.nackList, s.positionOf newest entry.1 = q →
      entry.1 ∈ nackBatch → sendSuccessful = true → entry.2.retries + 1 < kMaxNackRetries) :
    (s.onNackBatchSent now nackBatch sendSuccessful).Listed newest q := by
  obtain ⟨entry, hentry, hposition⟩ := hlisted
  obtain ⟨info, hmem⟩ := on_nack_batch_sent_keeps h.window now hentry
    fun hin hsent _ => hretries entry hentry hposition hin hsent
  exact ⟨_, hmem, hposition⟩

/-- Clearing adds no position. -/
theorem cleared_listed {seqNum : BitVec 16} (hlisted : (s.clearUpTo seqNum).Listed newest q) :
    s.Listed newest q :=
  hlisted.mono (fun entry hentry => ⟨entry, OrderedMap.mem_of_mem_upper_bound hentry, rfl⟩) rfl rfl

/-- Clearing keeps the positions after the given number. -/
theorem listed_cleared (h : s.WellFormed) (hlisted : s.Listed newest q) {seqNum : BitVec 16}
    (hafter : s.positionOf newest seqNum < q) : (s.clearUpTo seqNum).Listed newest q := by
  have hbounds := hlisted.bounds h
  obtain ⟨entry, hentry, rfl⟩ := hlisted
  obtain ⟨hinit, -, hposition⟩ := position_of_entry h newest hentry
  have hbehind : aheadOf s.newestSeqNum seqNum = true := by
    by_contra hnot
    have hle : newest ≤ s.positionOf newest seqNum := by simp [positionOf, hinit, hnot]
    omega
  have hseqNum : s.positionOf newest seqNum = _ := position_of_behind hinit hbehind
  have hhalf : fwd seqNum s.newestSeqNum ≤ 2 ^ 15 := by
    rcases (ahead_of_iff.mp hbehind).2 with hlt | ⟨heq, -⟩
    · exact hlt.le
    · exact heq.le
  have hage := h.window.age entry hentry
  have hwalk := fwd_add_cases seqNum entry.1 s.newestSeqNum
  have hturn := fwd_lt seqNum entry.1
  have hkept : aheadOf entry.1 seqNum = true :=
    (ahead_of_iff_fwd (by omega)).mpr ⟨by omega, by omega⟩
  refine ⟨entry, ?_, rfl⟩
  refine (OrderedMap.mem_upper_bound_or hentry).resolve_right ?_
  simp [descendingSeqNumComp, hkept]

/-- The position of a packet that is not ahead of the newest one. -/
theorem position_of_not_ahead (hinit : s.initialized = true) {seqNum : BitVec 16}
    (hahead : aheadOf seqNum s.newestSeqNum = false) :
    s.positionOf newest seqNum = newest - fwd seqNum s.newestSeqNum := by
  by_cases heq : seqNum = s.newestSeqNum
  · simp [heq, position_of_newest hinit]
  · refine position_of_behind hinit ((ahead_of_total (by decide) heq).resolve_left ?_)
    simp [hahead]

/-- A listed position blocks the frames that end at or after it. -/
theorem has_pending_nacks_of_listed (h : s.WellFormed) (hlisted : s.Listed newest q)
    {seqNum : BitVec 16} (hle : q ≤ s.positionOf newest seqNum)
    (hahead : aheadOf seqNum s.newestSeqNum = false) : s.hasPendingNacksUpTo seqNum = true := by
  obtain ⟨entry, hentry, rfl⟩ := hlisted
  obtain ⟨hinit, -, hposition⟩ := position_of_entry h newest hentry
  have hage := h.window.age entry hentry
  unfold kMaxPacketAge at hage
  have hseqNum : s.positionOf newest seqNum = _ := position_of_not_ahead hinit hahead
  have hbehind : Behind s.newestSeqNum seqNum := by
    unfold Behind
    omega
  exact (has_pending_nacks_up_to_iff h hbehind).mpr ⟨entry, hentry, by omega⟩

end Other

end NackRequester

end MiniRtc
