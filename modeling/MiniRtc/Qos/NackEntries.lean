import MiniRtc.Qos.NackWindow

/-!
# What the operations do to one entry

For every operation of the requester, where an entry of the new list comes from: it is an entry of
the old list, changed in the way the operation changes entries, or it was just added. The
protocol of `MiniRtc.Qos.NackSender` and the accounting of `MiniRtc.Qos.NackPositions` are
derived from these lemmas without looking at the operations again.
-/

namespace MiniRtc

open Circle

namespace NackRequester

section Entries

variable {newest : BitVec 16} {list : List (BitVec 16 × NackInfo)}

/-- The numbers of the list are different. -/
theorem InWindow.nodup (h : InWindow newest list) : (list.map Prod.fst).Nodup := by
  rw [List.Nodup, List.pairwise_map]
  refine h.sorted.imp ?_
  intro a b hab heq
  rw [heq] at hab
  exact lt_irrefl _ hab

/-- Preparing a batch either leaves an entry alone or puts its number into the batch, once. -/
theorem get_nack_batch_entry {s : NackRequester} (h : InWindow s.newestSeqNum s.nackList)
    {options : NackFilterOptions} {now : ℤ} {entry : BitVec 16 × NackInfo}
    (hentry : entry ∈ (s.getNackBatch options now).1.nackList) :
    ∃ info, (entry.1, info) ∈ s.nackList ∧
      ((entry.2 = info ∧ s.isDue options now info = false ∧
          (s.getNackBatch options now).2.count entry.1 = 0) ∨
        (s.isDue options now info = true ∧ entry.2 = { info with sendPending := true } ∧
          (s.getNackBatch options now).2.count entry.1 = 1)) := by
  obtain ⟨⟨seqNum, info⟩, hmem, rfl⟩ := List.mem_map.mp hentry
  have hbatch : (s.getNackBatch options now).2 =
      (s.nackList.filter fun entry => s.isDue options now entry.2).map Prod.fst :=
    List.map_congr_left fun entry hentry => h.key entry (List.mem_filter.mp hentry).1
  have hnodup : (s.getNackBatch options now).2.Nodup := by
    rw [hbatch]
    exact h.nodup.sublist ((List.filter_sublist (l := s.nackList)).map _)
  have hcount : (s.getNackBatch options now).2.count seqNum =
      if s.isDue options now info then 1 else 0 := by
    split_ifs with hdue
    · refine List.count_eq_one_of_mem hnodup ?_
      rw [hbatch]
      exact List.mem_map.mpr ⟨(seqNum, info), List.mem_filter.mpr ⟨hmem, hdue⟩, rfl⟩
    · refine List.count_eq_zero.mpr ?_
      rw [hbatch]
      intro hin
      obtain ⟨other, hother, hkey⟩ := List.mem_map.mp hin
      obtain ⟨hother, hdue'⟩ := List.mem_filter.mp hother
      have heq := h.eq_of_key_eq hother hmem hkey
      rw [heq] at hdue'
      exact hdue hdue'
  cases hdue : s.isDue options now info with
  | false => exact ⟨info, by simpa [hdue] using hmem, Or.inl (by simp [hdue, hcount])⟩
  | true => exact ⟨info, by simpa [hdue] using hmem, Or.inr (by simp [hdue, hcount])⟩

/-- An entry in a batch is not in another one. -/
theorem not_pending_of_is_due {s : NackRequester} {options : NackFilterOptions} {now : ℤ}
    {info : NackInfo} (h : s.isDue options now info = true) : info.sendPending = false := by
  simp only [isDue, Bool.and_eq_true] at h
  simpa using h.1.1.1

/-- An entry whose last report was at `time` is due for the worker when the pause after an attempt,
the pause after its creation and the time between two requests are over. -/
theorem is_due_time_only_iff {s : NackRequester} {now time : ℤ} {info : NackInfo}
    (hidle : info.sendPending = false) (hattempt : info.lastSendAttemptTime = some time) :
    s.isDue .timeOnly now info = true ↔
      20000 ≤ now - time ∧ 10000 ≤ now - info.createdAtTime ∧
        ∀ sent, info.sentAtTime = some sent → s.retryDelayUs info ≤ now - sent := by
  have hretry : elapsedAtLeast now info.sentAtTime (s.retryDelayUs info) = true ↔
      ∀ sent, info.sentAtTime = some sent → s.retryDelayUs info ≤ now - sent := by
    cases info.sentAtTime <;> simp [elapsedAtLeast]
  have hpause : elapsedAtLeast now info.lastSendAttemptTime kFailedSendRetryDelayUs = true ↔
      20000 ≤ now - time := by
    rw [hattempt]
    exact decide_eq_true_iff
  have hdelay : decide (kDefaultSendNackDelayUs ≤ now - info.createdAtTime) = true ↔
      10000 ≤ now - info.createdAtTime := decide_eq_true_iff
  have hdue : s.isDue .timeOnly now info =
      (decide (kDefaultSendNackDelayUs ≤ now - info.createdAtTime) &&
        elapsedAtLeast now info.lastSendAttemptTime kFailedSendRetryDelayUs &&
        elapsedAtLeast now info.sentAtTime (s.retryDelayUs info)) := by
    simp [isDue, hidle]
  rw [hdue, Bool.and_eq_true, Bool.and_eq_true, hretry, hpause, hdelay]
  tauto

/-- A number that was just added waits for `kDefaultSendNackDelayUs`. -/
theorem not_due_of_created_now {s : NackRequester} {options : NackFilterOptions} {now : ℤ}
    {info : NackInfo} (h : info.createdAtTime = now) : s.isDue options now info = false := by
  simp [isDue, h, kDefaultSendNackDelayUs]

/-- A report clears the mark of its entry. -/
@[simp] theorem reported_info_send_pending (now : ℤ) (sendSuccessful : Bool) (info : NackInfo) :
    (reportedInfo now sendSuccessful info).sendPending = false := by
  unfold reportedInfo
  split_ifs <;> rfl

/-- The report for one number touches the marked entry of this number and no other. -/
theorem on_nack_sent_entry (h : InWindow newest list) {now : ℤ} {sendSuccessful : Bool}
    {seqNum : BitVec 16} {entry : BitVec 16 × NackInfo}
    (hentry : entry ∈ onNackSent now sendSuccessful list seqNum) :
    (entry ∈ list ∧ (entry.1 ≠ seqNum ∨ entry.2.sendPending = false)) ∨
      (entry.1 = seqNum ∧ ∃ info, (seqNum, info) ∈ list ∧ info.sendPending = true ∧
        entry.2 = reportedInfo now sendSuccessful info) := by
  have hwindow := (on_nack_sent_window h now sendSuccessful seqNum).1
  unfold onNackSent at hentry hwindow
  split at hentry
  · rename_i hfind
    refine Or.inl ⟨hentry, Or.inl ?_⟩
    rintro rfl
    have hfound := (h.find_eq_some_iff (h.ranked.inUse _ hentry)).mpr ⟨hentry, rfl⟩
    simp [hfind] at hfound
  · rename_i key info hfind
    obtain ⟨hmem, rfl⟩ := OrderedMap.find_some comp_connected hfind
    simp only at hentry hwindow ⊢
    rw [hfind] at hwindow
    simp only at hwindow
    split_ifs at hentry hwindow with hidle hgiveUp
    · refine Or.inl ⟨hentry, ?_⟩
      by_cases hkey : entry.1 = key
      · right
        have heq := h.eq_of_key_eq hentry hmem hkey
        rw [heq]
        simpa using hidle
      · exact Or.inl hkey
    · obtain ⟨hold, hne⟩ := (OrderedMap.mem_erase_iff (comp_iff_age_rank newest) comp_connected
        (h.ranked.inUse _ hmem) h.ranked).mp hentry
      exact Or.inl ⟨hold, Or.inl hne⟩
    · by_cases hkey : entry.1 = key
      · right
        -- the new entry is the only one of its number
        have heq := hwindow.eq_of_key_eq hentry
          (OrderedMap.mem_insert_or_assign_self (key, reportedInfo now sendSuccessful info) list)
          hkey
        exact ⟨hkey, info, hmem, by simpa using hidle, by rw [heq]⟩
      · left
        rcases OrderedMap.mem_of_mem_insert_or_assign hentry with heq | hold
        · exact absurd (congrArg Prod.fst heq) hkey
        · exact ⟨hold, Or.inl hkey⟩

/-- The report of a datagram touches the marked entries of its numbers and no other. -/
theorem on_nack_batch_sent_entry {s : NackRequester} (h : InWindow s.newestSeqNum s.nackList)
    {now : ℤ} {nackBatch : List (BitVec 16)} {sendSuccessful : Bool}
    {entry : BitVec 16 × NackInfo}
    (hentry : entry ∈ (s.onNackBatchSent now nackBatch sendSuccessful).nackList) :
    (entry ∈ s.nackList ∧ (entry.1 ∉ nackBatch ∨ entry.2.sendPending = false)) ∨
      (entry.1 ∈ nackBatch ∧ ∃ info, (entry.1, info) ∈ s.nackList ∧ info.sendPending = true ∧
        entry.2 = reportedInfo now sendSuccessful info) := by
  have hfold : ∀ (batch : List (BitVec 16)) (list : List (BitVec 16 × NackInfo)),
      InWindow s.newestSeqNum list →
      entry ∈ batch.foldl (onNackSent now sendSuccessful) list →
      (entry ∈ list ∧ (entry.1 ∉ batch ∨ entry.2.sendPending = false)) ∨
        (entry.1 ∈ batch ∧ ∃ info, (entry.1, info) ∈ list ∧ info.sendPending = true ∧
          entry.2 = reportedInfo now sendSuccessful info) := by
    intro batch
    induction batch with
    | nil => exact fun list _ hin => Or.inl ⟨hin, by simp⟩
    | cons seqNum rest ih =>
        intro list hlist hin
        have hnext := (on_nack_sent_window hlist now sendSuccessful seqNum).1
        rcases ih _ hnext hin with ⟨hmem, hrest⟩ | ⟨hrest, info, hmem, hpending, heq⟩
        · rcases on_nack_sent_entry hlist hmem with ⟨hold, hkeep⟩ | ⟨hkey, info, hold, hp, heq⟩
          · refine Or.inl ⟨hold, ?_⟩
            rcases hkeep with hne | hidle
            · rcases hrest with hnot | hidle
              · exact Or.inl (by simp [hne, hnot])
              · exact Or.inr hidle
            · exact Or.inr hidle
          · exact Or.inr ⟨by simp [hkey], info, hkey ▸ hold, hp, heq⟩
        · -- a marked entry was not reported before, since a report clears the mark
          rcases on_nack_sent_entry hlist hmem with ⟨hold, -⟩ | ⟨hkey, old, -, -, heq'⟩
          · exact Or.inr ⟨by simp [hrest], info, hold, hpending, heq⟩
          · simp only at heq'
            simp [heq'] at hpending
  exact hfold nackBatch s.nackList h hentry

/-- The report for one number keeps every entry that does not reach the retry limit by it. -/
theorem on_nack_sent_keeps (h : InWindow newest list) (now : ℤ) {sendSuccessful : Bool}
    {x seqNum : BitVec 16} {info : NackInfo} (hmem : (seqNum, info) ∈ list)
    (hbelow : x = seqNum → sendSuccessful = true → info.sendPending = true →
      info.retries + 1 < kMaxNackRetries) :
    ∃ info', (seqNum, info') ∈ onNackSent now sendSuccessful list x ∧
      (info' = info ∨ info'.sendPending = false) := by
  unfold onNackSent
  split
  · exact ⟨info, hmem, Or.inl rfl⟩
  · rename_i key found hfind
    obtain ⟨hfound, rfl⟩ := OrderedMap.find_some comp_connected hfind
    simp only at hbelow ⊢
    by_cases hkey : key = seqNum
    · subst hkey
      obtain rfl : found = info := congrArg Prod.snd (h.eq_of_key_eq hfound hmem rfl)
      split_ifs with hidle hgiveUp
      · exact ⟨found, hmem, Or.inl rfl⟩
      · have hlimit := hbelow rfl hgiveUp.1 (by simpa using hidle)
        have hreached := hgiveUp.2
        simp only [reportedInfo, hgiveUp.1, if_true] at hreached
        omega
      · exact ⟨_, OrderedMap.mem_insert_or_assign_self _ _, Or.inr (by simp)⟩
    · have hother : seqNum ≠ key := fun heq => hkey heq.symm
      split_ifs
      · exact ⟨info, hmem, Or.inl rfl⟩
      · exact ⟨info, OrderedMap.mem_erase_of_ne comp_connected hmem hother, Or.inl rfl⟩
      · exact ⟨info, OrderedMap.mem_insert_or_assign_of_ne comp_connected hmem hother, Or.inl rfl⟩

/-- The report of a datagram keeps every entry that does not reach the retry limit by it. -/
theorem on_nack_batch_sent_keeps {s : NackRequester} (h : InWindow s.newestSeqNum s.nackList)
    (now : ℤ) {nackBatch : List (BitVec 16)} {sendSuccessful : Bool} {seqNum : BitVec 16}
    {info : NackInfo} (hmem : (seqNum, info) ∈ s.nackList)
    (hbelow : seqNum ∈ nackBatch → sendSuccessful = true → info.sendPending = true →
      info.retries + 1 < kMaxNackRetries) :
    ∃ info', (seqNum, info') ∈ (s.onNackBatchSent now nackBatch sendSuccessful).nackList := by
  unfold onNackBatchSent
  generalize s.nackList = list at h hmem
  induction nackBatch generalizing list info with
  | nil => exact ⟨info, hmem⟩
  | cons x rest ih =>
      obtain ⟨info', hmem', hsame⟩ := on_nack_sent_keeps h now (x := x) hmem
        (fun hx => hbelow (by simp [hx]))
      refine ih ?_ _ (on_nack_sent_window h now sendSuccessful x).1 hmem'
      intro hrest hsent hpending
      rcases hsame with rfl | hidle
      · exact hbelow (List.mem_cons_of_mem _ hrest) hsent hpending
      · simp [hidle] at hpending

/-- A failed report gives no entry up. -/
theorem on_nack_batch_sent_failed {s : NackRequester} (h : InWindow s.newestSeqNum s.nackList)
    (now : ℤ) {nackBatch : List (BitVec 16)} {seqNum : BitVec 16} {info : NackInfo}
    (hmem : (seqNum, info) ∈ s.nackList) (hin : seqNum ∈ nackBatch)
    (hpending : info.sendPending = true) :
    (seqNum, reportedInfo now false info) ∈ (s.onNackBatchSent now nackBatch false).nackList := by
  obtain ⟨info', hmem'⟩ :
      ∃ info', (seqNum, info') ∈ (s.onNackBatchSent now nackBatch false).nackList :=
    on_nack_batch_sent_keeps h now hmem (fun _ hsent => absurd hsent Bool.false_ne_true)
  rcases on_nack_batch_sent_entry h hmem' with ⟨hold, hkeep⟩ | ⟨-, old, hold, -, heq⟩
  · have heq := congrArg Prod.snd (h.eq_of_key_eq hold hmem rfl)
    simp only at heq
    rw [heq] at hkeep
    simp [hin, hpending] at hkeep
  · have hsame := congrArg Prod.snd (h.eq_of_key_eq hold hmem rfl)
    simp only at hsame heq
    rwa [heq, hsame] at hmem'

/-- The batch of the worker contains exactly the numbers of the due entries. -/
theorem mem_process_nacks_iff {s : NackRequester} (h : InWindow s.newestSeqNum s.nackList)
    {now : ℤ} {seqNum : BitVec 16} {info : NackInfo} (hmem : (seqNum, info) ∈ s.nackList) :
    seqNum ∈ (s.processNacks now).2 ↔ s.isDue .timeOnly now info = true := by
  constructor
  · intro hin
    obtain ⟨entry, hentry, hkey⟩ := List.mem_map.mp hin
    obtain ⟨hentry, hdue⟩ := List.mem_filter.mp hentry
    rw [h.key entry hentry] at hkey
    rw [h.eq_of_key_eq hentry hmem hkey] at hdue
    exact hdue
  · intro hdue
    exact List.mem_map.mpr ⟨(seqNum, info), List.mem_filter.mpr ⟨hmem, hdue⟩, h.key _ hmem⟩

end Entries

/-- An original packet moves the newest sequence number and the list has room for the skipped
numbers. -/
structure Advances (s : NackRequester) (seqNum : BitVec 16) (isRecovered : Bool) : Prop where
  started : s.initialized = true
  original : isRecovered = false
  ahead : aheadOf seqNum s.newestSeqNum = true
  room : ¬ s.overflowsAt seqNum

/-- A reception adds the number `x` to the list: it moves the newest sequence number past `x`,
and `x` was not recovered. -/
structure Adds (s : NackRequester) (seqNum : BitVec 16) (isRecovered : Bool) (x : BitVec 16) :
    Prop extends s.Advances seqNum isRecovered where
  skipped : x ∈ seqNumRange (s.newestSeqNum + 1) seqNum
  missing : OrderedMap.find? descendingSeqNumComp id x s.recoveredList = none

/-- The state of an entry that was just added. -/
structure Fresh (now : ℤ) (info : NackInfo) : Prop where
  created : info.createdAtTime = now
  retries : info.retries = 0
  sent : info.sentAtTime = none
  idle : info.sendPending = false

/-- The insertion loop adds fresh entries of numbers that were not recovered. -/
theorem extended_entries_entry {s : NackRequester} {now : ℤ} {seqNum : BitVec 16}
    {entry : BitVec 16 × NackInfo} (hentry : entry ∈ s.extendedEntries now seqNum) :
    entry ∈ s.youngEntries seqNum ∨
      (entry.1 ∈ seqNumRange (s.newestSeqNum + 1) seqNum ∧
        OrderedMap.find? descendingSeqNumComp id entry.1 s.recoveredList = none ∧
        Fresh now entry.2) := by
  have hfold : ∀ (numbers : List (BitVec 16)) (list : List (BitVec 16 × NackInfo)),
      entry ∈ numbers.foldl (s.addPacketToNack now) list →
      entry ∈ list ∨ (entry.1 ∈ numbers ∧
        OrderedMap.find? descendingSeqNumComp id entry.1 s.recoveredList = none ∧
        Fresh now entry.2) := by
    intro numbers
    induction numbers with
    | nil => exact fun list hin => Or.inl hin
    | cons x rest ih =>
        intro list hin
        rcases ih _ hin with hmem | ⟨hrest, hnew⟩
        · unfold addPacketToNack at hmem
          split_ifs at hmem with hrec
          · exact Or.inl hmem
          · rcases OrderedMap.mem_of_mem_insert_or_assign hmem with rfl | hold
            · exact Or.inr ⟨List.mem_cons_self, by simpa using hrec, ⟨rfl, rfl, rfl, rfl⟩⟩
            · exact Or.inl hold
        · exact Or.inr ⟨List.mem_cons_of_mem _ hrest, hnew⟩
  exact hfold _ _ hentry

/-- A skipped number had no entry. -/
theorem not_mem_of_skipped {s : NackRequester} (h : s.WellFormed) {seqNum x : BitVec 16}
    (hahead : aheadOf seqNum s.newestSeqNum = true) (hroom : ¬ s.overflowsAt seqNum)
    (hx : x ∈ seqNumRange (s.newestSeqNum + 1) seqNum) (info : NackInfo) :
    (x, info) ∉ s.nackList := by
  intro hmem
  obtain ⟨hgap, hdist⟩ := fwd_le_of_room hahead hroom
  obtain ⟨i, hi, -, hlast⟩ := mem_seq_num_range hx
  have hage := h.window.age _ hmem
  have hwalk := fwd_add_cases x s.newestSeqNum seqNum
  simp only [kMaxNackPackets, kMaxPacketAge] at *
  omega

/-- The insertion loop keeps the numbers in the list. -/
theorem add_packet_to_nack_fold_keeps (s : NackRequester) (now : ℤ) {x : BitVec 16}
    (numbers : List (BitVec 16)) {list : List (BitVec 16 × NackInfo)}
    (h : ∃ entry ∈ list, entry.1 = x) :
    ∃ entry ∈ numbers.foldl (s.addPacketToNack now) list, entry.1 = x := by
  refine List.foldlRecOn numbers (s.addPacketToNack now)
    (motive := fun list => ∃ entry ∈ list, entry.1 = x) h ?_
  rintro list ⟨entry, hentry, rfl⟩ y -
  unfold addPacketToNack
  split_ifs
  · exact ⟨entry, hentry, rfl⟩
  · by_cases hkey : entry.1 = y
    · exact ⟨_, OrderedMap.mem_insert_or_assign_self _ _, hkey.symm⟩
    · exact ⟨entry, OrderedMap.mem_insert_or_assign_of_ne comp_connected hentry hkey, rfl⟩

/-- The insertion loop adds every number that was not recovered. -/
theorem mem_extended_entries {s : NackRequester} (now : ℤ) {seqNum x : BitVec 16}
    (hskip : x ∈ seqNumRange (s.newestSeqNum + 1) seqNum)
    (hmissing : OrderedMap.find? descendingSeqNumComp id x s.recoveredList = none) :
    ∃ entry ∈ s.extendedEntries now seqNum, entry.1 = x := by
  obtain ⟨before, after, hsplit⟩ := List.append_of_mem hskip
  rw [extendedEntries, hsplit, List.foldl_append, List.foldl_cons]
  refine s.add_packet_to_nack_fold_keeps now after ?_
  unfold addPacketToNack
  rw [hmissing]
  exact ⟨_, OrderedMap.mem_insert_or_assign_self _ _, rfl⟩

/-- After a reception an entry is new, as it was, or in the batch. -/
theorem on_received_packet_entry {s : NackRequester} (h : s.WellFormed) {now : ℤ}
    {seqNum : BitVec 16} {isRecovered : Bool} {entry : BitVec 16 × NackInfo}
    (hentry : entry ∈ (s.onReceivedPacket now seqNum isRecovered).1.nackList) :
    (s.Adds seqNum isRecovered entry.1 ∧ (∀ info, (entry.1, info) ∉ s.nackList) ∧
        Fresh now entry.2 ∧
        (s.onReceivedPacket now seqNum isRecovered).2.count entry.1 = 0) ∨
      ∃ info, (entry.1, info) ∈ s.nackList ∧
        ((entry.2 = info ∧ (s.onReceivedPacket now seqNum isRecovered).2.count entry.1 = 0) ∨
          (info.sendPending = false ∧ entry.2 = { info with sendPending := true } ∧
            (s.onReceivedPacket now seqNum isRecovered).2.count entry.1 = 1)) := by
  have hcases := on_received_packet_reception s now seqNum isRecovered
  generalize s.onReceivedPacket now seqNum isRecovered = result at hcases hentry ⊢
  cases hcases with
  | first => exact Or.inr ⟨entry.2, hentry, Or.inl ⟨rfl, rfl⟩⟩
  | newest => exact Or.inr ⟨entry.2, hentry, Or.inl ⟨rfl, rfl⟩⟩
  | outOfOrder =>
      exact Or.inr ⟨entry.2, OrderedMap.mem_of_mem_erase hentry, Or.inl ⟨rfl, rfl⟩⟩
  | recovered => exact Or.inr ⟨entry.2, hentry, Or.inl ⟨rfl, rfl⟩⟩
  | overflow => simp at hentry
  | advance hinit hahead hroom =>
      have hwindow := (extended_entries_window h now hahead hroom).1
      obtain ⟨info, hmem, hcase⟩ := get_nack_batch_entry
        (s := { s with nackList := s.extendedEntries now seqNum, newestSeqNum := seqNum })
        hwindow hentry
      rcases extended_entries_entry hmem with hyoung | ⟨hskip, hmissing, hfresh⟩
      · refine Or.inr ⟨info, OrderedMap.mem_of_mem_lower_bound hyoung, ?_⟩
        rcases hcase with ⟨heq, -, hcount⟩ | ⟨hdue, heq, hcount⟩
        · exact Or.inl ⟨heq, hcount⟩
        · exact Or.inr ⟨not_pending_of_is_due hdue, heq, hcount⟩
      · left
        -- an entry that was added now is not due yet
        rcases hcase with ⟨heq, -, hcount⟩ | ⟨hdue, -, -⟩
        · exact ⟨⟨⟨hinit, rfl, hahead, hroom⟩, hskip, hmissing⟩,
            not_mem_of_skipped h hahead hroom hskip, heq ▸ hfresh, hcount⟩
        · rw [not_due_of_created_now hfresh.created] at hdue
          simp at hdue

end NackRequester

end MiniRtc
