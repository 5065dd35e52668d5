import MiniRtc.Foundation.Run
import MiniRtc.Qos.NackRequester

/-!
# The window of the NACK list

The comparator of `nackList` is not an order on all sequence numbers. `InWindow` says that the
entries lie between `newestSeqNum - kMaxPacketAge` and `newestSeqNum - 1`, where it is one, and
that they are kept in that order. Every operation of the requester preserves `InWindow`, for
every argument: a packet that is so far ahead that old entries and the new age limit fall on
different sides of the wrap also overflows the list, which empties it. The main result is
`nack_list_window`.
-/

namespace MiniRtc

open Circle

namespace NackRequester

/-- The entries lie in the age window behind the newest packet, oldest first, each under its
own sequence number. -/
structure InWindow (newest : BitVec 16) (list : List (BitVec 16 × NackInfo)) : Prop where
  age : ∀ entry ∈ list, 1 ≤ fwd entry.1 newest ∧ fwd entry.1 newest ≤ kMaxPacketAge
  sorted : list.Pairwise fun a b => fwd b.1 newest < fwd a.1 newest
  key : ∀ entry ∈ list, entry.2.seqNum = entry.1

/-- The NACK list is in the window and not too long, and it is empty before the first packet. -/
structure WellFormed (s : NackRequester) : Prop where
  window : InWindow s.newestSeqNum s.nackList
  length_le : s.nackList.length ≤ kMaxNackPackets
  unused : s.initialized = false → s.nackList = []

/-- A sequence number less than half a turn behind the newest packet. -/
def Behind (newest seqNum : BitVec 16) : Prop :=
  fwd seqNum newest < 2 ^ 15

/-- The rank of a sequence number behind the newest packet: the older, the smaller. -/
def ageRank (newest seqNum : BitVec 16) : ℤ :=
  -(fwd seqNum newest : ℤ)

/-- Behind the newest packet the comparator compares ages. -/
theorem comp_iff_age_rank (newest : BitVec 16) :
    ∀ x y : BitVec 16, Behind newest x → Behind newest y →
      (descendingSeqNumComp x y = true ↔ ageRank newest x < ageRank newest y) := by
  intro x y hx hy
  rw [descendingSeqNumComp, ahead_of_iff_behind (by decide) hy hx]
  simp only [ageRank]
  omega

/-- The comparator identifies no two sequence numbers. -/
theorem comp_connected (x y : BitVec 16) (hxy : descendingSeqNumComp x y = false)
    (hyx : descendingSeqNumComp y x = false) : x = y :=
  eq_of_not_ahead_of (by decide) x y hyx hxy

section Window

variable {newest : BitVec 16} {list : List (BitVec 16 × NackInfo)}

/-- A list in the window is an ordered container with the ages as ranks. -/
theorem InWindow.ranked (h : InWindow newest list) :
    OrderedMap.Ranked Prod.fst (Behind newest) (ageRank newest) list := by
  refine ⟨?_, ?_⟩
  · intro entry hentry
    have hage := (h.age entry hentry).2
    unfold kMaxPacketAge at hage
    unfold Behind
    omega
  · refine h.sorted.imp ?_
    intro a b hab
    simp only [ageRank]
    omega

/-- Dropping entries stays in the window. -/
theorem InWindow.sublist {list' : List (BitVec 16 × NackInfo)} (h : InWindow newest list)
    (hsub : list'.Sublist list) : InWindow newest list' :=
  ⟨fun entry hentry => h.age entry (hsub.subset hentry), h.sorted.sublist hsub,
    fun entry hentry => h.key entry (hsub.subset hentry)⟩

/-- Changing entries in place stays in the window. -/
theorem InWindow.map (h : InWindow newest list) {f : BitVec 16 × NackInfo → BitVec 16 × NackInfo}
    (hkey : ∀ entry, (f entry).1 = entry.1) (hseq : ∀ entry, (f entry).2.seqNum = entry.2.seqNum) :
    InWindow newest (list.map f) := by
  refine ⟨?_, ?_, ?_⟩
  · intro entry hentry
    obtain ⟨old, hold, rfl⟩ := List.mem_map.mp hentry
    rw [hkey]
    exact h.age old hold
  · rw [List.pairwise_map]
    refine h.sorted.imp ?_
    intro a b hab
    rwa [hkey, hkey]
  · intro entry hentry
    obtain ⟨old, hold, rfl⟩ := List.mem_map.mp hentry
    rw [hkey, hseq]
    exact h.key old hold

/-- Inserting an entry of the right age stays in the window. -/
theorem InWindow.insert (h : InWindow newest list) {seqNum : BitVec 16} {info : NackInfo}
    (hlow : 1 ≤ fwd seqNum newest) (hhigh : fwd seqNum newest ≤ kMaxPacketAge)
    (hkey : info.seqNum = seqNum) :
    InWindow newest
      (OrderedMap.insertOrAssign descendingSeqNumComp Prod.fst (seqNum, info) list) := by
  have hbehind : Behind newest seqNum := by
    unfold kMaxPacketAge at hhigh
    unfold Behind
    omega
  have hranked := OrderedMap.ranked_insert_or_assign (comp_iff_age_rank newest)
    (a := (seqNum, info)) hbehind h.ranked
  refine ⟨?_, ?_, ?_⟩
  · intro entry hentry
    rcases OrderedMap.mem_of_mem_insert_or_assign hentry with rfl | hold
    · exact ⟨hlow, hhigh⟩
    · exact h.age entry hold
  · refine hranked.sorted.imp ?_
    intro a b hab
    simp only [ageRank] at hab
    omega
  · intro entry hentry
    rcases OrderedMap.mem_of_mem_insert_or_assign hentry with rfl | hold
    · exact hkey
    · exact h.key entry hold

/-- A lookup finds exactly the entry of the sequence number. -/
theorem InWindow.find_eq_some_iff (h : InWindow newest list) {seqNum : BitVec 16}
    (hbehind : Behind newest seqNum) {entry : BitVec 16 × NackInfo} :
    OrderedMap.find? descendingSeqNumComp Prod.fst seqNum list = some entry ↔
      entry ∈ list ∧ entry.1 = seqNum :=
  OrderedMap.find_eq_some_iff (comp_iff_age_rank newest) comp_connected hbehind h.ranked

/-- Two entries of one sequence number are the same entry. -/
theorem InWindow.eq_of_key_eq (h : InWindow newest list) {a b : BitVec 16 × NackInfo}
    (ha : a ∈ list) (hb : b ∈ list) (hkey : a.1 = b.1) : a = b := by
  have hbehind : Behind newest a.1 := h.ranked.inUse a ha
  have hfa := (h.find_eq_some_iff hbehind).mpr ⟨ha, rfl⟩
  have hfb := (h.find_eq_some_iff hbehind).mpr ⟨hb, hkey.symm⟩
  exact Option.some.inj (hfa.symm.trans hfb)

end Window

/-! ## What the operations do to the window -/

/-- A list that starts empty is in every window. -/
theorem InWindow.nil (newest : BitVec 16) : InWindow newest [] :=
  ⟨by simp, List.Pairwise.nil, by simp⟩

/-- Preparing a batch keeps the keys of the list. -/
theorem get_nack_batch_window {s : NackRequester} (h : s.WellFormed)
    (options : NackFilterOptions) (now : ℤ) : (s.getNackBatch options now).1.WellFormed := by
  refine ⟨h.window.map ?_ ?_, by simpa [getNackBatch] using h.length_le,
    fun hinit => by simp [getNackBatch, h.unused hinit]⟩
  all_goals
    intro entry
    split_ifs <;> rfl

/-- A report does not rename an entry. -/
@[simp] theorem reported_info_seq_num (now : ℤ) (sendSuccessful : Bool) (info : NackInfo) :
    (reportedInfo now sendSuccessful info).seqNum = info.seqNum := by
  unfold reportedInfo
  split_ifs <;> rfl

/-- The report for one number updates its entry or gives it up. -/
theorem on_nack_sent_window {newest : BitVec 16} {list : List (BitVec 16 × NackInfo)}
    (h : InWindow newest list) (now : ℤ) (sendSuccessful : Bool) (seqNum : BitVec 16) :
    InWindow newest (onNackSent now sendSuccessful list seqNum) ∧
      (onNackSent now sendSuccessful list seqNum).length ≤ list.length := by
  unfold onNackSent
  split
  · exact ⟨h, le_rfl⟩
  · rename_i key info hfind
    obtain ⟨hmem, rfl⟩ := OrderedMap.find_some comp_connected hfind
    split_ifs
    · exact ⟨h, le_rfl⟩
    · have hsub : (OrderedMap.erase descendingSeqNumComp Prod.fst key list).Sublist list :=
        OrderedMap.erase_sublist _ _
      exact ⟨h.sublist hsub, hsub.length_le⟩
    · have hlength := OrderedMap.length_insert_or_assign_of_find
        (a := (key, reportedInfo now sendSuccessful info)) hfind
      refine ⟨h.insert (h.age _ hmem).1 (h.age _ hmem).2 ?_, hlength.le⟩
      rw [reported_info_seq_num]
      exact h.key _ hmem

/-- Nothing is reported into an empty list. -/
theorem on_nack_sent_fold_nil (now : ℤ) (sendSuccessful : Bool) (nackBatch : List (BitVec 16)) :
    nackBatch.foldl (onNackSent now sendSuccessful) [] = [] := by
  induction nackBatch with
  | nil => rfl
  | cons seqNum rest ih =>
      have hstep : onNackSent now sendSuccessful [] seqNum = [] := by
        simp [onNackSent, OrderedMap.find?, OrderedMap.lowerBound]
      rw [List.foldl_cons, hstep]
      exact ih

/-- Reporting a batch stays in the window. -/
theorem on_nack_batch_sent_window {s : NackRequester} (h : s.WellFormed) (now : ℤ)
    (nackBatch : List (BitVec 16)) (sendSuccessful : Bool) :
    (s.onNackBatchSent now nackBatch sendSuccessful).WellFormed := by
  have hfold : ∀ (batch : List (BitVec 16)) (list : List (BitVec 16 × NackInfo)),
      InWindow s.newestSeqNum list → list.length ≤ kMaxNackPackets →
      InWindow s.newestSeqNum (batch.foldl (onNackSent now sendSuccessful) list) ∧
        (batch.foldl (onNackSent now sendSuccessful) list).length ≤ kMaxNackPackets := by
    intro batch
    induction batch with
    | nil => exact fun list hlist hlen => ⟨hlist, hlen⟩
    | cons seqNum rest ih =>
        intro list hlist hlen
        obtain ⟨hstep, hshort⟩ := on_nack_sent_window hlist now sendSuccessful seqNum
        exact ih _ hstep (hshort.trans hlen)
  obtain ⟨hwindow, hlen⟩ := hfold nackBatch s.nackList h.window h.length_le
  refine ⟨hwindow, hlen, fun hinit => ?_⟩
  simp only [onNackBatchSent, h.unused hinit]
  exact on_nack_sent_fold_nil now sendSuccessful nackBatch

/-- Clearing drops the front of the list. -/
theorem clear_up_to_window {s : NackRequester} (h : s.WellFormed) (seqNum : BitVec 16) :
    (s.clearUpTo seqNum).WellFormed :=
  ⟨h.window.sublist (List.dropWhile_sublist _),
    (List.dropWhile_sublist _).length_le.trans h.length_le,
    fun hinit => by simp [clearUpTo, OrderedMap.upperBound, h.unused hinit]⟩

/-- A new number lies between the old and the new newest packet. -/
theorem mem_seq_num_range {start finish seqNum : BitVec 16}
    (h : seqNum ∈ seqNumRange start finish) :
    ∃ i, i < fwd start finish ∧ fwd start seqNum = i ∧
      fwd seqNum finish = fwd start finish - i := by
  obtain ⟨i, hi, rfl⟩ := List.mem_map.mp h
  have hlt : i < fwd start finish := List.mem_range.mp hi
  have hturn := fwd_lt start finish
  have hstart : fwd start (start + BitVec.ofNat 16 i) = i := fwd_add_of_nat (by omega)
  have hwalk := fwd_add_cases start (start + BitVec.ofNat 16 i) finish
  have hlast := fwd_lt (start + BitVec.ofNat 16 i) finish
  exact ⟨i, hlt, hstart, by omega⟩

/-- The distance to the first skipped number and on to the new newest packet. -/
theorem fwd_succ {newest seqNum : BitVec 16} (h : newest ≠ seqNum) :
    fwd (newest + 1) seqNum + 1 = fwd newest seqNum := by
  have hone : fwd newest (newest + 1) = 1 := by
    have := fwd_add_of_nat (a := newest) (n := 1) (by decide)
    simpa using this
  have hwalk := fwd_add_cases newest (newest + 1) seqNum
  have hpos : fwd newest seqNum ≠ 0 := fun hz => h (fwd_eq_zero.mp hz)
  have hturn := fwd_lt (newest + 1) seqNum
  omega

/-- Adding one number of the right age stays in the window. -/
theorem add_packet_to_nack_window {s : NackRequester} {newest : BitVec 16}
    {list : List (BitVec 16 × NackInfo)} (h : InWindow newest list) (now : ℤ)
    {seqNum : BitVec 16} (hlow : 1 ≤ fwd seqNum newest)
    (hhigh : fwd seqNum newest ≤ kMaxPacketAge) :
    InWindow newest (s.addPacketToNack now list seqNum) ∧
      (s.addPacketToNack now list seqNum).length ≤ list.length + 1 := by
  unfold addPacketToNack
  split_ifs
  · exact ⟨h, Nat.le_succ _⟩
  · exact ⟨h.insert hlow hhigh rfl, OrderedMap.length_insert_or_assign _ _⟩

/-- A packet for which the list has room is at most `kMaxNackPackets + 1` packets ahead. -/
theorem fwd_le_of_room {s : NackRequester} {seqNum : BitVec 16}
    (hahead : aheadOf seqNum s.newestSeqNum = true) (hroom : ¬ s.overflowsAt seqNum) :
    fwd (s.newestSeqNum + 1) seqNum + 1 = fwd s.newestSeqNum seqNum ∧
      (s.youngEntries seqNum).length + fwd s.newestSeqNum seqNum ≤ kMaxNackPackets + 1 := by
  have hne : s.newestSeqNum ≠ seqNum := fun heq => by simp [heq] at hahead
  have hgap := fwd_succ hne
  have hfwd : (forwardDiff (s.newestSeqNum + 1) seqNum).toNat =
      fwd (s.newestSeqNum + 1) seqNum := rfl
  unfold overflowsAt at hroom
  exact ⟨hgap, by omega⟩

/-- When the list has room, the age limit keeps exactly the entries that are not too old for the
new newest packet. -/
theorem young_entries_eq_filter {s : NackRequester} (h : s.WellFormed) {seqNum : BitVec 16}
    (hahead : aheadOf seqNum s.newestSeqNum = true) (hroom : ¬ s.overflowsAt seqNum) :
    s.youngEntries seqNum = s.nackList.filter fun entry =>
      fwd entry.1 s.newestSeqNum + fwd s.newestSeqNum seqNum ≤ kMaxPacketAge := by
  obtain ⟨-, hdist⟩ := fwd_le_of_room hahead hroom
  unfold kMaxNackPackets at hdist
  -- the age limit, seen from the old newest packet
  have hlimit : fwd (seqNum - BitVec.ofNat 16 kMaxPacketAge) s.newestSeqNum +
      fwd s.newestSeqNum seqNum = kMaxPacketAge := by
    have hage : fwd (seqNum - BitVec.ofNat 16 kMaxPacketAge) seqNum = kMaxPacketAge := by
      have hwalk := fwd_add_of_nat (a := seqNum - BitVec.ofNat 16 kMaxPacketAge)
        (n := kMaxPacketAge) (by decide)
      rwa [BitVec.sub_add_cancel] at hwalk
    have hwalk := fwd_add_cases (seqNum - BitVec.ofNat 16 kMaxPacketAge) s.newestSeqNum seqNum
    have hturn := fwd_lt (seqNum - BitVec.ofNat 16 kMaxPacketAge) s.newestSeqNum
    unfold kMaxPacketAge at *
    omega
  have hbehind : Behind s.newestSeqNum (seqNum - BitVec.ofNat 16 kMaxPacketAge) := by
    unfold Behind
    unfold kMaxPacketAge at hlimit ⊢
    omega
  rw [youngEntries, OrderedMap.lower_bound_eq_filter (comp_iff_age_rank _) hbehind h.window.ranked]
  refine List.filter_congr ?_
  intro entry _
  refine decide_eq_decide.mpr ?_
  simp only [ageRank]
  omega

/-- When the list has room, the surviving entries are in the window of the new newest packet. -/
theorem young_entries_window {s : NackRequester} (h : s.WellFormed) {seqNum : BitVec 16}
    (hahead : aheadOf seqNum s.newestSeqNum = true) (hroom : ¬ s.overflowsAt seqNum) :
    InWindow seqNum (s.youngEntries seqNum) := by
  obtain ⟨-, hdist⟩ := fwd_le_of_room hahead hroom
  have hage : ∀ entry ∈ s.youngEntries seqNum,
      fwd entry.1 seqNum = fwd entry.1 s.newestSeqNum + fwd s.newestSeqNum seqNum ∧
        fwd entry.1 seqNum ≤ kMaxPacketAge := by
    intro entry hentry
    rw [young_entries_eq_filter h hahead hroom] at hentry
    have hyoung : fwd entry.1 s.newestSeqNum + fwd s.newestSeqNum seqNum ≤ kMaxPacketAge := by
      simpa using (List.mem_filter.mp hentry).2
    have hwalk := fwd_add_cases entry.1 s.newestSeqNum seqNum
    have hturn := fwd_lt entry.1 seqNum
    unfold kMaxPacketAge at *
    omega
  have hsub : (s.youngEntries seqNum).Sublist s.nackList := List.dropWhile_sublist _
  refine ⟨?_, ?_, fun entry hentry => h.window.key entry (hsub.subset hentry)⟩
  · intro entry hentry
    have hold := (h.window.age entry (hsub.subset hentry)).1
    obtain ⟨heq, hle⟩ := hage entry hentry
    omega
  · refine (h.window.sorted.sublist hsub).imp_of_mem ?_
    intro a b ha hb hab
    rw [(hage a ha).1, (hage b hb).1]
    omega

/-- Adding the skipped numbers leads to a well-formed list of the new newest packet. -/
theorem extended_entries_window {s : NackRequester} (h : s.WellFormed) (now : ℤ)
    {seqNum : BitVec 16} (hahead : aheadOf seqNum s.newestSeqNum = true)
    (hroom : ¬ s.overflowsAt seqNum) :
    InWindow seqNum (s.extendedEntries now seqNum) ∧
      (s.extendedEntries now seqNum).length ≤ kMaxNackPackets := by
  obtain ⟨hgap, hdist⟩ := fwd_le_of_room hahead hroom
  -- the loop adds at most one entry per skipped number
  have hfold : ∀ (numbers : List (BitVec 16)) (list : List (BitVec 16 × NackInfo)),
      (∀ x ∈ numbers, 1 ≤ fwd x seqNum ∧ fwd x seqNum ≤ kMaxPacketAge) →
      InWindow seqNum list →
      InWindow seqNum (numbers.foldl (s.addPacketToNack now) list) ∧
        (numbers.foldl (s.addPacketToNack now) list).length ≤ list.length + numbers.length := by
    intro numbers
    induction numbers with
    | nil => exact fun list _ hlist => ⟨hlist, by simp⟩
    | cons x rest ih =>
        intro list hage hlist
        obtain ⟨hlow, hhigh⟩ := hage x List.mem_cons_self
        obtain ⟨hstep, hlen⟩ := add_packet_to_nack_window (s := s) hlist now hlow hhigh
        obtain ⟨hwindow, hlength⟩ := ih _ (fun y hy => hage y (List.mem_cons_of_mem _ hy)) hstep
        refine ⟨hwindow, ?_⟩
        simp only [List.foldl_cons, List.length_cons]
        omega
  have hage : ∀ x ∈ seqNumRange (s.newestSeqNum + 1) seqNum,
      1 ≤ fwd x seqNum ∧ fwd x seqNum ≤ kMaxPacketAge := by
    intro x hx
    obtain ⟨i, hi, -, hlast⟩ := mem_seq_num_range hx
    unfold kMaxNackPackets at hdist
    unfold kMaxPacketAge
    omega
  obtain ⟨hwindow, hlength⟩ := hfold _ _ hage (young_entries_window h hahead hroom)
  have hcount : (seqNumRange (s.newestSeqNum + 1) seqNum).length =
      fwd (s.newestSeqNum + 1) seqNum := by
    simp [seqNumRange, forwardDiff, fwd]
  exact ⟨hwindow, hlength.trans (by omega)⟩

/-- Receiving a packet, whatever its sequence number, keeps the list well formed. -/
theorem on_received_packet_window {s : NackRequester} (h : s.WellFormed) (now : ℤ)
    (seqNum : BitVec 16) (isRecovered : Bool) :
    (s.onReceivedPacket now seqNum isRecovered).1.WellFormed := by
  have hcases := on_received_packet_reception s now seqNum isRecovered
  generalize s.onReceivedPacket now seqNum isRecovered = result at hcases
  cases hcases with
  | first _ hinit =>
      refine ⟨?_, h.length_le, fun _ => h.unused hinit⟩
      simp only [h.unused hinit]
      exact .nil _
  | newest => exact h
  | outOfOrder _ _ _ _ hinit =>
      have hsub : (OrderedMap.erase descendingSeqNumComp Prod.fst seqNum s.nackList).Sublist
          s.nackList := OrderedMap.erase_sublist _ _
      exact ⟨h.window.sublist hsub, hsub.length_le.trans h.length_le, by simp [hinit]⟩
  | recovered => exact ⟨h.window, h.length_le, h.unused⟩
  | overflow => exact ⟨.nil _, by simp, fun _ => rfl⟩
  | advance hinit hahead hroom =>
      obtain ⟨hwindow, hlen⟩ := extended_entries_window h now hahead hroom
      exact get_nack_batch_window ⟨hwindow, hlen, by simp [hinit]⟩ _ _

/-! ## Queries in the window -/

/-- Asking for pending requests up to a number less than half a turn back looks for an entry
that is at least as old. -/
theorem has_pending_nacks_up_to_iff {s : NackRequester} (h : s.WellFormed) {seqNum : BitVec 16}
    (hbehind : Behind s.newestSeqNum seqNum) :
    s.hasPendingNacksUpTo seqNum = true ↔
      ∃ entry ∈ s.nackList, fwd seqNum s.newestSeqNum ≤ fwd entry.1 s.newestSeqNum := by
  rw [hasPendingNacksUpTo,
    OrderedMap.upper_bound_eq_filter (comp_iff_age_rank _) hbehind h.window.ranked]
  rw [decide_eq_true_eq, ne_eq, List.length_filter_eq_length_iff]
  simp only [not_forall, exists_prop]
  refine exists_congr fun entry => and_congr_right fun _ => ?_
  rw [decide_eq_true_iff]
  simp only [ageRank]
  omega

/-- Clearing up to a number less than half a turn back keeps exactly the younger entries. -/
theorem clear_up_to_nack_list {s : NackRequester} (h : s.WellFormed) {seqNum : BitVec 16}
    (hbehind : Behind s.newestSeqNum seqNum) :
    (s.clearUpTo seqNum).nackList = s.nackList.filter fun entry =>
      fwd entry.1 s.newestSeqNum < fwd seqNum s.newestSeqNum := by
  simp only [clearUpTo]
  rw [OrderedMap.upper_bound_eq_filter (comp_iff_age_rank _) hbehind h.window.ranked]
  refine List.filter_congr ?_
  intro entry _
  refine decide_eq_decide.mpr ?_
  simp only [ageRank]
  omega

/-! ## Whole runs -/

/-- The operations of the requester, as its owner calls them. -/
inductive Op where
  | onReceivedPacket (seqNum : BitVec 16) (isRecovered : Bool)
  | processNacks
  | onNackBatchSent (nackBatch : List (BitVec 16)) (sendSuccessful : Bool)
  | consumeKeyFrameRequest
  | clearUpTo (seqNum : BitVec 16)
  | updateRtt (rttMs : ℤ)

/-- Perform an operation at the given time, forgetting what it returns. -/
def perform (s : NackRequester) : ℤ × Op → NackRequester
  | (now, .onReceivedPacket seqNum isRecovered) => (s.onReceivedPacket now seqNum isRecovered).1
  | (now, .processNacks) => (s.processNacks now).1
  | (now, .onNackBatchSent nackBatch sendSuccessful) =>
      s.onNackBatchSent now nackBatch sendSuccessful
  | (_, .consumeKeyFrameRequest) => s.consumeKeyFrameRequest.1
  | (_, .clearUpTo seqNum) => s.clearUpTo seqNum
  | (_, .updateRtt rttMs) => s.updateRtt rttMs

/-- The requester starts with an empty list. -/
theorem initial_window : ({} : NackRequester).WellFormed :=
  ⟨.nil _, by simp, fun _ => rfl⟩

/-- Every operation keeps the list well formed. -/
theorem perform_window {s : NackRequester} (h : s.WellFormed) (action : ℤ × Op) :
    (s.perform action).WellFormed := by
  obtain ⟨now, op⟩ := action
  cases op with
  | onReceivedPacket seqNum isRecovered => exact on_received_packet_window h now seqNum isRecovered
  | processNacks => exact get_nack_batch_window h _ now
  | onNackBatchSent nackBatch sendSuccessful =>
      exact on_nack_batch_sent_window h now nackBatch sendSuccessful
  | consumeKeyFrameRequest => exact ⟨h.window, h.length_le, h.unused⟩
  | clearUpTo seqNum => exact clear_up_to_window h seqNum
  | updateRtt rttMs =>
      obtain ⟨rtt, hasSample, heq⟩ := update_rtt_eq s rttMs
      simp only [perform, heq]
      exact ⟨h.window, h.length_le, h.unused⟩

/-- After every sequence of operations, with any sequence numbers, the NACK list has at most 1000
entries, all of them between `newest - 10000` and `newest - 1` on the circle. On these numbers
the comparator is a strict total order, the list is iterated oldest first, and for every number
in that range (and up to half a turn back) `hasPendingNacksUpTo` finds the entries at or before
it and `clearUpTo` removes exactly those. -/
theorem nack_list_window (actions : List (ℤ × Op)) :
    let s := actions.foldl perform {}
    s.nackList.length ≤ 1000 ∧
    (∀ entry ∈ s.nackList,
      1 ≤ fwd entry.1 s.newestSeqNum ∧ fwd entry.1 s.newestSeqNum ≤ 10000) ∧
    ((∀ a ∈ s.nackList, descendingSeqNumComp a.1 a.1 = false) ∧
      (∀ a ∈ s.nackList, ∀ b ∈ s.nackList, a.1 ≠ b.1 →
        descendingSeqNumComp a.1 b.1 = true ∨ descendingSeqNumComp b.1 a.1 = true) ∧
      (∀ a ∈ s.nackList, ∀ b ∈ s.nackList, ∀ c ∈ s.nackList,
        descendingSeqNumComp a.1 b.1 = true → descendingSeqNumComp b.1 c.1 = true →
        descendingSeqNumComp a.1 c.1 = true)) ∧
    s.nackList.Pairwise (fun a b => descendingSeqNumComp a.1 b.1 = true ∧
      fwd b.1 s.newestSeqNum < fwd a.1 s.newestSeqNum) ∧
    ∀ seqNum, fwd seqNum s.newestSeqNum < 2 ^ 15 →
      (s.hasPendingNacksUpTo seqNum = true ↔
        ∃ entry ∈ s.nackList, fwd seqNum s.newestSeqNum ≤ fwd entry.1 s.newestSeqNum) ∧
      (s.clearUpTo seqNum).nackList = s.nackList.filter (fun entry =>
        fwd entry.1 s.newestSeqNum < fwd seqNum s.newestSeqNum) := by
  intro s
  have h : s.WellFormed :=
    List.foldlRecOn actions perform initial_window fun t ht action _ => perform_window ht action
  have hcomp : ∀ a ∈ s.nackList, ∀ b ∈ s.nackList, (descendingSeqNumComp a.1 b.1 = true ↔
      ageRank s.newestSeqNum a.1 < ageRank s.newestSeqNum b.1) := fun a ha b hb =>
    comp_iff_age_rank _ _ _ (h.window.ranked.inUse a ha) (h.window.ranked.inUse b hb)
  refine ⟨h.length_le, h.window.age, ⟨?_, ?_, ?_⟩, ?_, ?_⟩
  · exact fun a _ => ahead_of_self a.1
  · exact fun a _ b _ hne => ahead_of_total (by decide) hne.symm
  · intro a ha b hb c hc hab hbc
    rw [hcomp a ha b hb] at hab
    rw [hcomp b hb c hc] at hbc
    rw [hcomp a ha c hc]
    exact hab.trans hbc
  · refine h.window.sorted.imp_of_mem ?_
    intro a b ha hb hab
    refine ⟨(hcomp a ha b hb).mpr ?_, hab⟩
    simp only [ageRank]
    omega
  · exact fun seqNum hbehind =>
      ⟨has_pending_nacks_up_to_iff h hbehind, clear_up_to_nack_list h hbehind⟩

end NackRequester

end MiniRtc
