import MiniRtc.Qos.InFlight

/-!
# Acknowledged packets

A packet that is reported as received leaves the history, and its key is remembered for a minute, so
that further reports on it can be told from reports on packets that were never sent. The keys are
kept in a map and, with the time of the acknowledgement, in a deque that is cut from the front. An
entry of the map may be gone or stand for a later acknowledgement when its record is cut.

The main result is `acknowledgements_run`: no packet is reported as received twice, and the map holds
exactly the keys that were acknowledged at most a minute before the last cut and not used since.
-/

namespace MiniRtc

namespace TransportFeedbackAdapter

variable {Info Label : Type*}

/-! ## What was reported -/

/-- The data of the packets that a call reports as received. -/
def receivedIn (s : TransportFeedbackAdapter Info) (call : Call Info) : List Info :=
  (s.returned call).elim [] fun feedback =>
    (feedback.packetFeedbacks.filter fun result => result.receiveTime.isSome).map fun result =>
      result.sentPacket.pacingInfo

/-- The data of the packets that a run reports as received. -/
def receivedRun (s : TransportFeedbackAdapter Info) : List (Call Info) → List Info
  | [] => []
  | call :: rest => s.receivedIn call ++ receivedRun (s.step call) rest

/-- The same call with a label on the packet that it adds. -/
def Call.label (label : Label) : Call Info → Call (Label × Info)
  | .addPacket packetToSend pacingInfo overheadBytes creationTime =>
      .addPacket packetToSend (label, pacingInfo) overheadBytes creationTime
  | .removePacket packetToSend => .removePacket packetToSend
  | .processSentPacket sentPacket => .processSentPacket sentPacket
  | .processCongestionControlFeedback feedback receiveTime =>
      .processCongestionControlFeedback feedback receiveTime

/-- The calls with every added packet labelled by the position of its call. -/
def labelled (first : Nat) : List (Call Info) → List (Call (Nat × Info))
  | [] => []
  | call :: rest => call.label first :: labelled (first + 1) rest

/-! ## What was acknowledged -/

/-- An adapter together with the time of the last acknowledgement of every key since a packet was
added under it, and the time of the last cut. -/
structure Observed (Info : Type*) where
  adapter : TransportFeedbackAdapter Info := {}
  acknowledgedAt : SsrcAndRtpSequencenumber → Option ℤ := fun _ => none
  lastPruning : Option ℤ := none

/-- One report of a feedback message, and the acknowledgement that it makes. -/
def observeReport (currentOffset receiveTime : ℤ)
    (acc : ReportProgress Info × (SsrcAndRtpSequencenumber → Option ℤ)) (packetInfo : PacketInfo) :
    ReportProgress Info × (SsrcAndRtpSequencenumber → Option ℤ) :=
  (processPacketInfo currentOffset receiveTime acc.1 packetInfo,
    if packetInfo.arrivalTimeOffset.isSome ∧
        (acc.1.adapter.retrievePacketFeedback packetInfo.key true).2.isSome then
      Function.update acc.2 packetInfo.key (some receiveTime)
    else acc.2)

/-- One call as it is observed. -/
def observe (o : Observed Info) (call : Call Info) : Observed Info :=
  match call with
  | .addPacket packetToSend pacingInfo overheadBytes creationTime =>
      if packetToSend.transportSequenceNumber.isNone then o
      else
        { adapter := o.adapter.addPacket packetToSend pacingInfo overheadBytes creationTime
          acknowledgedAt := Function.update o.acknowledgedAt packetToSend.key none
          lastPruning := some creationTime }
  | .processCongestionControlFeedback feedback receiveTime =>
      { adapter := (o.adapter.processCongestionControlFeedback feedback receiveTime).1
        acknowledgedAt := (feedback.packets.foldl
          (observeReport (o.adapter.nextOffset feedback receiveTime) receiveTime)
          (o.adapter.reportStart feedback receiveTime, o.acknowledgedAt)).2
        lastPruning := some receiveTime }
  | call => { o with adapter := o.adapter.step call }

/-- The time of a call that prunes. -/
def callTime : Call Info → Option ℤ
  | .addPacket _ _ _ creationTime => some creationTime
  | .processCongestionControlFeedback _ receiveTime => some receiveTime
  | _ => none

/-! ## No packet is received twice -/

/-- The data of the packets of the history. -/
def historyInfos (s : TransportFeedbackAdapter Info) : List Info :=
  s.history.map fun p => p.sent.pacingInfo

/-- The data of the packets that are reported as received. -/
def receivedInfos (results : List (PacketResult Info)) : List Info :=
  (results.filter fun result => result.receiveTime.isSome).map fun result =>
    result.sentPacket.pacingInfo

/-- `emplace` brings nothing but the new packet into the history. -/
theorem emplace_infos (history : List (PacketFeedback Info)) (p : PacketFeedback Info) :
    ((emplaceHistory history p).map fun p => p.sent.pacingInfo).Subperm
      (p.sent.pacingInfo :: history.map fun p => p.sent.pacingInfo) := by
  unfold emplaceHistory
  split_ifs
  · exact (List.sublist_cons_self _ _).subperm
  · have hperm := (perm_history p history).map fun p => p.sent.pacingInfo
    refine hperm.subperm.trans ?_
    rw [List.map_cons]
    exact (((OrderedMap.erase_sublist _ _).map _).cons_cons _).subperm

/-- `AddPacket` brings nothing but its own data into the history. -/
theorem add_infos (s : TransportFeedbackAdapter Info) (packetToSend : TrackedPacket)
    (pacingInfo : Info) (overheadBytes : Nat) (creationTime : ℤ) :
    (s.addPacket packetToSend pacingInfo overheadBytes creationTime).historyInfos.Subperm
      (pacingInfo :: s.historyInfos) := by
  unfold addPacket
  split
  · exact (List.sublist_cons_self _ _).subperm
  · refine (emplace_infos _ _).trans ?_
    have hexpired := (expire_suffix creationTime s.lastAckSeqNum s.history s.inFlight
      s.rtpToTransportSequenceNumber).sublist.map fun p => p.sent.pacingInfo
    exact (hexpired.cons_cons _).subperm

/-- `RemovePacket` brings nothing into the history. -/
theorem remove_infos (s : TransportFeedbackAdapter Info) (packetToSend : TrackedPacket) :
    (s.removePacket packetToSend).1.historyInfos.Subperm s.historyInfos := by
  obtain ⟨-, -, hcases⟩ := s.remove_packet_cases packetToSend
  unfold historyInfos
  rcases hcases with ⟨-, hhistory, -⟩ | ⟨number, p, -, -, hhistory, -⟩
  · rw [hhistory]
  · rw [hhistory]
    exact ((OrderedMap.erase_sublist _ _).map _).subperm

/-- `ProcessSentPacket` keeps the data of the history. -/
theorem sent_infos (s : TransportFeedbackAdapter Info) (sentPacket : RtcSentPacket) :
    (s.processSentPacket sentPacket).1.historyInfos.Perm s.historyInfos := by
  unfold historyInfos
  rcases (s.process_sent_cases sentPacket).2 with
    ⟨-, hhistory, -⟩ | ⟨p, q, hfound, hagain, hhistory, -⟩
  · rw [hhistory]
  · rw [hhistory]
    have hnumber : transportNumber q = transportNumber p := hagain.sequenceNumber
    have hold := OrderedMap.perm_erase_of_find hfound
    have hnew := perm_history q s.history
    have hkey := (OrderedMap.find_some before_connected hfound).2
    rw [hnumber, hkey] at hnew
    refine (hnew.map _).trans (List.Perm.trans ?_ (hold.map _).symm)
    rw [List.map_cons, List.map_cons, hagain.pacingInfo]

/-- `RetrievePacketFeedback` takes the packet of a received report out of the history. -/
theorem retrieve_infos (s : TransportFeedbackAdapter Info) (key : SsrcAndRtpSequencenumber)
    (received : Bool) :
    let retrieved := s.retrievePacketFeedback key received
    (retrieved.1.historyInfos = s.historyInfos ∧ (received = true → retrieved.2 = none)) ∨
      ∃ p, retrieved.2 = some p ∧
        s.historyInfos.Perm (p.sent.pacingInfo :: retrieved.1.historyInfos) := by
  unfold retrievePacketFeedback
  split
  · exact Or.inl ⟨rfl, fun _ => rfl⟩
  · rename_i number _
    have hhistory := (s.acknowledge_frame number).1
    simp only
    split
    · refine Or.inl ⟨?_, fun _ => rfl⟩
      unfold historyInfos
      rw [hhistory]
    · rename_i p hfound
      split_ifs with hunsent hreceived
      · refine Or.inl ⟨?_, fun _ => rfl⟩
        unfold historyInfos
        rw [hhistory]
      · refine Or.inr ⟨p, rfl, ?_⟩
        unfold historyInfos
        rw [hhistory] at hfound ⊢
        exact ((OrderedMap.perm_erase_of_find hfound).map _)
      · refine Or.inl ⟨?_, fun hin => absurd hin hreceived⟩
        unfold historyInfos
        rw [hhistory]

/-- The data of a packet that is reported as received joins the data of the results. -/
theorem received_infos_append (results : List (PacketResult Info)) (result : PacketResult Info) :
    receivedInfos (results ++ [result]) = receivedInfos results ++
      if result.receiveTime.isSome then [result.sentPacket.pacingInfo] else [] := by
  unfold receivedInfos
  rw [List.filter_append, List.map_append]
  split_ifs with hreceived
  · simp [hreceived]
  · simp [hreceived]

/-- One report moves at most its own packet from the history to the results. -/
theorem process_infos (currentOffset receiveTime : ℤ) (acc : ReportProgress Info)
    (packetInfo : PacketInfo) :
    let after := processPacketInfo currentOffset receiveTime acc packetInfo
    (receivedInfos after.results ++ after.adapter.historyInfos).Subperm
      (receivedInfos acc.results ++ acc.adapter.historyInfos) := by
  have hretrieve := acc.adapter.retrieve_infos packetInfo.key packetInfo.arrivalTimeOffset.isSome
  unfold processPacketInfo
  simp only at hretrieve ⊢
  rcases hretrieve with ⟨hsame, hnone⟩ | ⟨p, hsome, hperm⟩
  · -- nothing leaves the history: the report is not about a packet that arrived
    split
    · rw [hsame]
    · rename_i p hp
      have hlost : packetInfo.arrivalTimeOffset.isSome = false := by
        refine Bool.eq_false_iff.mpr fun hin => ?_
        rw [hnone hin] at hp
        cases hp
      have hoffset : packetInfo.arrivalTimeOffset = none := by
        simpa using hlost
      rw [hlost] at hsame ⊢
      simp only [Bool.false_eq_true, ↓reduceIte]
      split_ifs
      · rw [hsame]
      · rw [received_infos_append]
        simp only [hoffset, Option.map_none, Option.isSome_none, Bool.false_eq_true, ↓reduceIte,
          List.append_nil]
        rw [hsame]
  · -- the packet leaves the history, and at most it joins the results
    rw [hsome]
    simp only
    have hinfos : ∀ (t : TransportFeedbackAdapter Info) key time,
        (t.rememberAcknowledgedPacket key time).historyInfos = t.historyInfos := fun _ _ _ => rfl
    have hdropped := (List.subperm_append_left (receivedInfos acc.results)).mpr
      ((List.sublist_cons_self _ _).subperm.trans hperm.symm.subperm)
    split_ifs with hreceived
    · rw [hinfos]
      exact hdropped
    · rw [hinfos, received_infos_append, List.append_assoc]
      refine (List.subperm_append_left _).mpr (List.Subperm.trans ?_ hperm.symm.subperm)
      split_ifs
      · exact List.Subperm.refl _
      · exact (List.sublist_cons_self _ _).subperm
    · exact hdropped
    · rw [received_infos_append, List.append_assoc]
      refine (List.subperm_append_left _).mpr (List.Subperm.trans ?_ hperm.symm.subperm)
      split_ifs
      · exact List.Subperm.refl _
      · exact (List.sublist_cons_self _ _).subperm

/-- The reports of a feedback message move packets from the history to the results. -/
theorem reports_infos (currentOffset receiveTime : ℤ) (packets : List PacketInfo)
    (acc : ReportProgress Info) :
    let after := packets.foldl (processPacketInfo currentOffset receiveTime) acc
    (receivedInfos after.results ++ after.adapter.historyInfos).Subperm
      (receivedInfos acc.results ++ acc.adapter.historyInfos) := by
  induction packets generalizing acc with
  | nil => exact List.Subperm.refl _
  | cons packetInfo rest ih =>
      exact (ih _).trans (process_infos currentOffset receiveTime acc packetInfo)

/-- What a feedback message reports as received leaves the history. -/
theorem feedback_infos (s : TransportFeedbackAdapter Info) (feedback : CongestionControlFeedback)
    (receiveTime : ℤ) :
    (s.receivedIn (.processCongestionControlFeedback feedback receiveTime) ++
      (s.processCongestionControlFeedback feedback receiveTime).1.historyInfos).Subperm
      s.historyInfos := by
  have hreports := reports_infos (s.nextOffset feedback receiveTime) receiveTime feedback.packets
    (s.reportStart feedback receiveTime)
  have hstart : receivedInfos (s.reportStart feedback receiveTime).results ++
      (s.reportStart feedback receiveTime).adapter.historyInfos = s.historyInfos := rfl
  rw [hstart] at hreports
  unfold receivedIn returned processCongestionControlFeedback
  simp only
  split_ifs
  · exact List.Subperm.refl _
  · exact (List.sublist_append_right _ _).subperm.trans hreports
  · refine List.Subperm.trans ?_ hreports
    refine (List.subperm_append_right _).mpr ?_
    exact ((((List.mergeSort_perm _ _).filter _).map _)).subperm

/-- The data that a call brings into the history. -/
def Call.info : Call Info → List Info
  | .addPacket _ pacingInfo _ _ => [pacingInfo]
  | _ => []

/-- What a call reports as received leaves the history, and only an added packet joins it. -/
theorem step_infos (s : TransportFeedbackAdapter Info) (call : Call Info) :
    (s.receivedIn call ++ (s.step call).historyInfos).Subperm (call.info ++ s.historyInfos) := by
  cases call with
  | addPacket packetToSend pacingInfo overheadBytes creationTime =>
      exact s.add_infos packetToSend pacingInfo overheadBytes creationTime
  | removePacket packetToSend => exact s.remove_infos packetToSend
  | processSentPacket sentPacket => exact (s.sent_infos sentPacket).subperm
  | processCongestionControlFeedback feedback receiveTime =>
      exact s.feedback_infos feedback receiveTime

/-- What a run reports as received was in the history before it or was added by it. -/
theorem received_run_infos (calls : List (Call Info)) (s : TransportFeedbackAdapter Info) :
    (s.receivedRun calls).Subperm (calls.flatMap Call.info ++ s.historyInfos) := by
  induction calls generalizing s with
  | nil => exact (List.nil_sublist _).subperm
  | cons call rest ih =>
      show (s.receivedIn call ++ receivedRun (s.step call) rest).Subperm _
      rw [List.flatMap_cons]
      have hrest : (s.receivedIn call ++ receivedRun (s.step call) rest).Subperm
          (s.receivedIn call ++ (rest.flatMap Call.info ++ (s.step call).historyInfos)) :=
        (List.subperm_append_left _).mpr (ih _)
      have hstep : (rest.flatMap Call.info ++
          (s.receivedIn call ++ (s.step call).historyInfos)).Subperm
          (rest.flatMap Call.info ++ (call.info ++ s.historyInfos)) :=
        (List.subperm_append_left _).mpr (s.step_infos call)
      refine hrest.trans (List.Subperm.trans ?_ (hstep.trans ?_))
      · exact List.Perm.subperm (by
          rw [← List.append_assoc, ← List.append_assoc]
          exact List.perm_append_comm.append_right _)
      · exact List.Perm.subperm (by
          rw [← List.append_assoc]
          exact List.perm_append_comm.append_right _)

/-- The labels of labelled calls are the positions of the calls, each at most once. -/
theorem labelled_labels (calls : List (Call Info)) (first : Nat) :
    (((labelled first calls).flatMap Call.info).map Prod.fst).Sublist
      (List.range' first calls.length) := by
  induction calls generalizing first with
  | nil => exact List.Sublist.refl _
  | cons call rest ih =>
      show (List.map Prod.fst (List.flatMap Call.info (call.label first ::
        labelled (first + 1) rest))).Sublist _
      rw [List.flatMap_cons, List.map_append, List.length_cons, List.range'_succ]
      cases call with
      | addPacket packetToSend pacingInfo overheadBytes creationTime =>
          exact (ih (first + 1)).cons_cons first
      | removePacket packetToSend => exact (ih (first + 1)).cons first
      | processSentPacket sentPacket => exact (ih (first + 1)).cons first
      | processCongestionControlFeedback feedback receiveTime => exact (ih (first + 1)).cons first

/-- No packet is reported as received twice. -/
theorem received_once (calls : List (Call Info)) :
    ((receivedRun ({} : TransportFeedbackAdapter (Nat × Info)) (labelled 0 calls)).map
      Prod.fst).Nodup := by
  have hrun := received_run_infos (labelled 0 calls) ({} : TransportFeedbackAdapter (Nat × Info))
  have hhistory : historyInfos ({} : TransportFeedbackAdapter (Nat × Info)) = [] := rfl
  rw [hhistory, List.append_nil] at hrun
  obtain ⟨kept, hperm, hsublist⟩ := hrun
  refine (hperm.map Prod.fst).nodup_iff.mp ((hsublist.map Prod.fst).nodup ?_)
  exact (labelled_labels calls 0).nodup List.nodup_range'

/-! ## The map and the deque -/

/-- A record that is too old at a time. -/
def outdated (now : ℤ) (acknowledged : RecentlyAcknowledgedPacket) : Bool :=
  decide (now - acknowledged.acknowledgmentTime > kSendTimeHistoryWindow)

/-- Pruning cuts the outdated records at the front of the deque. -/
theorem prune_in_order (now : ℤ) (inOrder : List RecentlyAcknowledgedPacket)
    (recent : SsrcAndRtpSequencenumber → Option Nat) :
    (prune now inOrder recent).1 = inOrder.dropWhile (outdated now) := by
  induction inOrder generalizing recent with
  | nil => rfl
  | cons acknowledged rest ih =>
      unfold prune
      split
      · rename_i hold
        have hout : outdated now acknowledged = true := decide_eq_true hold
        rw [ih, List.dropWhile_cons_of_pos hout]
      · rename_i hold
        have hout : ¬ outdated now acknowledged = true := fun h => hold (of_decide_eq_true h)
        rw [List.dropWhile_cons_of_neg hout]

/-- An entry that pruning takes has its own record among the cut ones. -/
theorem prune_same_or (now : ℤ) (inOrder : List RecentlyAcknowledgedPacket)
    (recent : SsrcAndRtpSequencenumber → Option Nat) (key : SsrcAndRtpSequencenumber) :
    (prune now inOrder recent).2 key = recent key ∨
      ∃ r ∈ inOrder.takeWhile (outdated now), r.key = key ∧ recent key = some r.generation := by
  induction inOrder generalizing recent with
  | nil => exact Or.inl rfl
  | cons acknowledged rest ih =>
      unfold prune
      by_cases hold : now - acknowledged.acknowledgmentTime > kSendTimeHistoryWindow
      · have hout : outdated now acknowledged = true := decide_eq_true hold
        rw [if_pos hold, List.takeWhile_cons_of_pos hout]
        by_cases hown : acknowledged.key = key ∧ recent key = some acknowledged.generation
        · exact Or.inr ⟨acknowledged, List.mem_cons_self, hown⟩
        · have hkeep : (if recent acknowledged.key = some acknowledged.generation then
              Function.update recent acknowledged.key none else recent) key = recent key := by
            split_ifs with hentry
            · refine Function.update_of_ne ?_ _ _
              rintro rfl
              exact hown ⟨rfl, hentry⟩
            · rfl
          rcases ih (if recent acknowledged.key = some acknowledged.generation then
              Function.update recent acknowledged.key none else recent) with hsame | hcut
          · exact Or.inl (hsame.trans hkeep)
          · obtain ⟨r, hr, hkey, hentry⟩ := hcut
            exact Or.inr ⟨r, List.mem_cons_of_mem _ hr, hkey, hkeep ▸ hentry⟩
      · rw [if_neg hold]
        exact Or.inl rfl

/-- An entry that pruning leaves was there before, and its record is not among the cut ones. -/
theorem prune_entry {now : ℤ} {inOrder : List RecentlyAcknowledgedPacket}
    {recent : SsrcAndRtpSequencenumber → Option Nat} {key : SsrcAndRtpSequencenumber}
    {generation : Nat} (h : (prune now inOrder recent).2 key = some generation) :
    recent key = some generation ∧
      ∀ r ∈ inOrder.takeWhile (outdated now), r.key = key → r.generation ≠ generation := by
  induction inOrder generalizing recent with
  | nil => exact ⟨h, by simp⟩
  | cons acknowledged rest ih =>
      unfold prune at h
      by_cases hold : now - acknowledged.acknowledgmentTime > kSendTimeHistoryWindow
      · have hout : outdated now acknowledged = true := decide_eq_true hold
        rw [if_pos hold] at h
        rw [List.takeWhile_cons_of_pos hout]
        obtain ⟨hentry, hrest⟩ := ih h
        by_cases hhit : recent acknowledged.key = some acknowledged.generation
        · rw [if_pos hhit] at hentry
          have hne : key ≠ acknowledged.key := by
            rintro rfl
            rw [Function.update_self] at hentry
            cases hentry
          rw [Function.update_of_ne hne] at hentry
          refine ⟨hentry, fun r hr hkey => ?_⟩
          rcases List.mem_cons.mp hr with rfl | hin
          · exact absurd hkey.symm hne
          · exact hrest r hin hkey
        · rw [if_neg hhit] at hentry
          refine ⟨hentry, fun r hr hkey => ?_⟩
          rcases List.mem_cons.mp hr with rfl | hin
          · rintro rfl
            rw [hkey] at hhit
            exact hhit hentry
          · exact hrest r hin hkey
      · have hout : ¬ outdated now acknowledged = true := fun h => hold (of_decide_eq_true h)
        rw [if_neg hold] at h
        rw [List.takeWhile_cons_of_neg hout]
        exact ⟨h, by simp⟩

/-- The records that pruning leaves are not outdated when the deque is sorted by time. -/
theorem recent_of_left {now : ℤ} {inOrder : List RecentlyAcknowledgedPacket}
    (hsorted : inOrder.Pairwise fun a b => a.acknowledgmentTime ≤ b.acknowledgmentTime)
    {r : RecentlyAcknowledgedPacket} (hr : r ∈ inOrder.dropWhile (outdated now)) :
    now - r.acknowledgmentTime ≤ kSendTimeHistoryWindow := by
  induction inOrder with
  | nil => cases hr
  | cons acknowledged rest ih =>
      by_cases hout : outdated now acknowledged = true
      · rw [List.dropWhile_cons_of_pos hout] at hr
        exact ih (List.pairwise_cons.mp hsorted).2 hr
      · rw [List.dropWhile_cons_of_neg hout] at hr
        have hfront : now - acknowledged.acknowledgmentTime ≤ kSendTimeHistoryWindow :=
          not_lt.mp fun h => hout (decide_eq_true h)
        rcases List.mem_cons.mp hr with rfl | hin
        · exact hfront
        · have hlater := (List.pairwise_cons.mp hsorted).1 r hin
          exact (sub_le_sub_left hlater now).trans hfront

/-- The map, the deque and the acknowledgements agree. -/
structure Recalls (s : TransportFeedbackAdapter Info)
    (acknowledgedAt : SsrcAndRtpSequencenumber → Option ℤ) (lastPruning : Option ℤ) : Prop where
  recorded : ∀ key generation, s.recentlyAcknowledgedPackets key = some generation →
    ∃ r ∈ s.recentlyAcknowledgedPacketsInOrder, r.key = key ∧ r.generation = generation ∧
      acknowledgedAt key = some r.acknowledgmentTime
  remembered : ∀ key time, acknowledgedAt key = some time →
    (s.recentlyAcknowledgedPackets key).isSome ∨
      ∃ pruned, lastPruning = some pruned ∧ pruned - time > kSendTimeHistoryWindow
  recent : ∀ r ∈ s.recentlyAcknowledgedPacketsInOrder, ∃ pruned, lastPruning = some pruned ∧
    r.acknowledgmentTime ≤ pruned ∧ pruned - r.acknowledgmentTime ≤ kSendTimeHistoryWindow
  timeOrder : s.recentlyAcknowledgedPacketsInOrder.Pairwise fun a b =>
    a.acknowledgmentTime ≤ b.acknowledgmentTime
  generationOrder : s.recentlyAcknowledgedPacketsInOrder.Pairwise fun a b =>
    a.generation < b.generation
  generations : ∀ r ∈ s.recentlyAcknowledgedPacketsInOrder,
    r.generation ≤ s.acknowledgmentGeneration

namespace Recalls

variable {s s' : TransportFeedbackAdapter Info}
  {acknowledgedAt : SsrcAndRtpSequencenumber → Option ℤ} {lastPruning : Option ℤ}

/-- A new adapter has no acknowledgements. -/
theorem initial : Recalls ({} : TransportFeedbackAdapter Info) (fun _ => none) none where
  recorded := fun _ _ h => by cases h
  remembered := fun _ _ h => by cases h
  recent := fun _ h => by cases h
  timeOrder := List.Pairwise.nil
  generationOrder := List.Pairwise.nil
  generations := fun _ h => by cases h

/-- Records with one generation are one record. -/
theorem eq_of_generation (h : Recalls s acknowledgedAt lastPruning)
    {a b : RecentlyAcknowledgedPacket} (ha : a ∈ s.recentlyAcknowledgedPacketsInOrder)
    (hb : b ∈ s.recentlyAcknowledgedPacketsInOrder) (heq : a.generation = b.generation) : a = b := by
  have hnodup : (s.recentlyAcknowledgedPacketsInOrder.map fun r => r.generation).Nodup :=
    List.pairwise_map.mpr (h.generationOrder.imp fun hlt => Nat.ne_of_lt hlt)
  exact List.inj_on_of_nodup_map hnodup ha hb heq

/-- The agreement is about three fields of the adapter. -/
theorem of_same (h : Recalls s acknowledgedAt lastPruning)
    (hrecent : s'.recentlyAcknowledgedPackets = s.recentlyAcknowledgedPackets)
    (hinOrder : s'.recentlyAcknowledgedPacketsInOrder = s.recentlyAcknowledgedPacketsInOrder)
    (hgeneration : s'.acknowledgmentGeneration = s.acknowledgmentGeneration) :
    Recalls s' acknowledgedAt lastPruning where
  recorded := by rw [hrecent, hinOrder]; exact h.recorded
  remembered := by rw [hrecent]; exact h.remembered
  recent := by rw [hinOrder]; exact h.recent
  timeOrder := by rw [hinOrder]; exact h.timeOrder
  generationOrder := by rw [hinOrder]; exact h.generationOrder
  generations := by rw [hinOrder, hgeneration]; exact h.generations

/-- Pruning keeps the agreement when the time has not gone back. -/
theorem prune (h : Recalls s acknowledgedAt lastPruning) {now : ℤ}
    (hnow : ∀ pruned, lastPruning = some pruned → pruned ≤ now) :
    Recalls (s.pruneRecentlyAcknowledgedPackets now) acknowledgedAt (some now) := by
  have hin : (s.pruneRecentlyAcknowledgedPackets now).recentlyAcknowledgedPacketsInOrder =
      s.recentlyAcknowledgedPacketsInOrder.dropWhile (outdated now) := prune_in_order _ _ _
  -- A record is cut off as outdated or stays.
  have hsplit : ∀ r ∈ s.recentlyAcknowledgedPacketsInOrder,
      r ∈ s.recentlyAcknowledgedPacketsInOrder.takeWhile (outdated now) ∨
        r ∈ s.recentlyAcknowledgedPacketsInOrder.dropWhile (outdated now) := by
    intro r hr
    rw [← List.takeWhile_append_dropWhile (p := outdated now)
      (l := s.recentlyAcknowledgedPacketsInOrder)] at hr
    exact List.mem_append.mp hr
  have hdrop := List.dropWhile_sublist (outdated now) (l := s.recentlyAcknowledgedPacketsInOrder)
  refine ⟨?_, ?_, ?_, ?_, ?_, ?_⟩
  · intro key generation hentry
    obtain ⟨hbefore, hkept⟩ := prune_entry hentry
    obtain ⟨r, hr, hkey, hgeneration, htime⟩ := h.recorded key generation hbefore
    rcases hsplit r hr with hcut | hleft
    · exact absurd hgeneration (hkept r hcut hkey)
    · exact ⟨r, hin ▸ hleft, hkey, hgeneration, htime⟩
  · intro key time htime
    rcases h.remembered key time htime with hentry | ⟨pruned, hpruned, hold⟩
    · rcases prune_same_or now s.recentlyAcknowledgedPacketsInOrder s.recentlyAcknowledgedPackets
        key with hsame | ⟨r, hcut, hkey, hgeneration⟩
      · left
        show ((TransportFeedbackAdapter.prune now _ _).2 key).isSome
        rw [hsame]
        exact hentry
      · -- the cut record is the one of the last acknowledgement
        right
        obtain ⟨r', hr', -, hgeneration', htime'⟩ := h.recorded key _ hgeneration
        have hr := (List.takeWhile_sublist _).subset hcut
        have hsame := h.eq_of_generation hr hr' hgeneration'.symm
        have hout : outdated now r = true := List.mem_takeWhile_imp hcut
        have hold : now - r.acknowledgmentTime > kSendTimeHistoryWindow := of_decide_eq_true hout
        rw [htime] at htime'
        refine ⟨now, rfl, ?_⟩
        rw [Option.some.inj htime', ← hsame]
        exact hold
    · exact Or.inr ⟨now, rfl, lt_of_lt_of_le hold (sub_le_sub_right (hnow _ hpruned) _)⟩
  · rw [hin]
    intro r hr
    obtain ⟨pruned, hpruned, hle, -⟩ := h.recent r (hdrop.subset hr)
    exact ⟨now, rfl, hle.trans (hnow _ hpruned), recent_of_left h.timeOrder hr⟩
  · rw [hin]
    exact h.timeOrder.sublist hdrop
  · rw [hin]
    exact h.generationOrder.sublist hdrop
  · rw [hin]
    exact fun r hr => h.generations r (hdrop.subset hr)

/-- Remembering a packet at the time of the last pruning keeps the agreement. -/
theorem remember {now : ℤ} (h : Recalls s acknowledgedAt (some now))
    (key : SsrcAndRtpSequencenumber) :
    Recalls (s.rememberAcknowledgedPacket key now)
      (Function.update acknowledgedAt key (some now)) (some now) := by
  have hin : (s.rememberAcknowledgedPacket key now).recentlyAcknowledgedPacketsInOrder =
      s.recentlyAcknowledgedPacketsInOrder ++
        [{ key, acknowledgmentTime := now, generation := s.acknowledgmentGeneration + 1 }] := rfl
  have hmap : (s.rememberAcknowledgedPacket key now).recentlyAcknowledgedPackets =
      Function.update s.recentlyAcknowledgedPackets key (some (s.acknowledgmentGeneration + 1)) :=
    rfl
  refine ⟨?_, ?_, ?_, ?_, ?_, ?_⟩
  · rw [hin, hmap]
    intro other generation hentry
    by_cases hsame : other = key
    · subst hsame
      rw [Function.update_self] at hentry ⊢
      exact ⟨_, List.mem_append_right _ (List.mem_singleton_self _), rfl,
        Option.some.inj hentry, rfl⟩
    · rw [Function.update_of_ne hsame] at hentry ⊢
      obtain ⟨r, hr, hrest⟩ := h.recorded other generation hentry
      exact ⟨r, List.mem_append_left _ hr, hrest⟩
  · rw [hmap]
    intro other time htime
    by_cases hsame : other = key
    · subst hsame
      rw [Function.update_self]
      exact Or.inl rfl
    · rw [Function.update_of_ne hsame] at htime ⊢
      exact h.remembered other time htime
  · rw [hin]
    intro r hr
    rcases List.mem_append.mp hr with hold | hnew
    · exact h.recent r hold
    · rw [List.mem_singleton.mp hnew]
      exact ⟨now, rfl, le_refl now, by rw [sub_self]; decide⟩
  · rw [hin]
    refine List.pairwise_append.mpr ⟨h.timeOrder, List.pairwise_singleton _ _, ?_⟩
    intro r hr added hadded
    rw [List.mem_singleton.mp hadded]
    obtain ⟨pruned, hpruned, hle, -⟩ := h.recent r hr
    rw [Option.some.inj hpruned]
    exact hle
  · -- The new generation is above all others.
    rw [hin]
    refine List.pairwise_append.mpr ⟨h.generationOrder, List.pairwise_singleton _ _, ?_⟩
    intro r hr added hadded
    rw [List.mem_singleton.mp hadded]
    exact Nat.lt_succ_of_le (h.generations r hr)
  · rw [hin]
    intro r hr
    rcases List.mem_append.mp hr with hold | hnew
    · exact Nat.le_succ_of_le (h.generations r hold)
    · rw [List.mem_singleton.mp hnew]
      exact le_refl _

/-- Forgetting a key keeps the agreement. -/
theorem forget (h : Recalls s acknowledgedAt lastPruning) (key : SsrcAndRtpSequencenumber) :
    Recalls
      { s with
        recentlyAcknowledgedPackets := Function.update s.recentlyAcknowledgedPackets key none }
      (Function.update acknowledgedAt key none) lastPruning where
  recorded := by
    intro other generation hentry
    by_cases hsame : other = key
    · subst hsame
      simp at hentry
    · simp only [Function.update_of_ne hsame] at hentry ⊢
      exact h.recorded other generation hentry
  remembered := by
    intro other time htime
    by_cases hsame : other = key
    · subst hsame
      simp at htime
    · simp only [Function.update_of_ne hsame] at htime ⊢
      exact h.remembered other time htime
  recent := h.recent
  timeOrder := h.timeOrder
  generationOrder := h.generationOrder
  generations := h.generations

/-- `AddPacket` keeps the agreement. -/
theorem add (h : Recalls s acknowledgedAt lastPruning) (packetToSend : TrackedPacket)
    (pacingInfo : Info) (overheadBytes : Nat) {creationTime : ℤ}
    (hnow : ∀ pruned, lastPruning = some pruned → pruned ≤ creationTime)
    (hnumber : packetToSend.transportSequenceNumber.isNone = false) :
    Recalls (s.addPacket packetToSend pacingInfo overheadBytes creationTime)
      (Function.update acknowledgedAt packetToSend.key none) (some creationTime) := by
  unfold addPacket
  split
  · rename_i hnone
    rw [hnone] at hnumber
    cases hnumber
  · exact ((h.prune hnow).forget packetToSend.key).of_same rfl rfl rfl

/-- `RemovePacket` keeps the agreement. -/
theorem removePacket (h : Recalls s acknowledgedAt lastPruning) (packetToSend : TrackedPacket) :
    Recalls (s.removePacket packetToSend).1 acknowledgedAt lastPruning := by
  unfold TransportFeedbackAdapter.removePacket
  split
  · exact h
  · simp only
    split
    · exact h.of_same rfl rfl rfl
    · exact h.of_same rfl rfl rfl

/-- `ProcessSentPacket` keeps the agreement. -/
theorem processSentPacket (h : Recalls s acknowledgedAt lastPruning)
    (sentPacket : RtcSentPacket) :
    Recalls (s.processSentPacket sentPacket).1 acknowledgedAt lastPruning := by
  have hsame := (s.process_sent_cases sentPacket).1
  exact h.of_same hsame.recent hsame.inOrder hsame.generation

/-- `RetrievePacketFeedback` keeps the agreement. -/
theorem retrieve (h : Recalls s acknowledgedAt lastPruning) (key : SsrcAndRtpSequencenumber)
    (received : Bool) :
    Recalls (s.retrievePacketFeedback key received).1 acknowledgedAt lastPruning := by
  have hacknowledge : ∀ number, Recalls (s.acknowledgeUpTo number) acknowledgedAt lastPruning := by
    intro number
    unfold acknowledgeUpTo
    split_ifs
    · exact h.of_same rfl rfl rfl
    · exact h
  unfold retrievePacketFeedback
  split
  · exact h
  · simp only
    split
    · exact hacknowledge _
    · split_ifs
      · exact hacknowledge _
      · exact (hacknowledge _).of_same rfl rfl rfl
      · exact hacknowledge _

/-- A report keeps the agreement. -/
theorem report {receiveTime : ℤ} (currentOffset : ℤ) (packetInfo : PacketInfo)
    (acc : ReportProgress Info × (SsrcAndRtpSequencenumber → Option ℤ))
    (h : Recalls acc.1.adapter acc.2 (some receiveTime)) :
    Recalls (observeReport currentOffset receiveTime acc packetInfo).1.adapter
      (observeReport currentOffset receiveTime acc packetInfo).2 (some receiveTime) := by
  have hretrieve := h.retrieve packetInfo.key packetInfo.arrivalTimeOffset.isSome
  unfold observeReport processPacketInfo
  simp only
  by_cases harrived : packetInfo.arrivalTimeOffset.isSome = true
  · rw [harrived] at hretrieve ⊢
    simp only [true_and, ↓reduceIte]
    split
    · rename_i hnone
      rw [hnone]
      exact hretrieve
    · rename_i p hsome
      rw [hsome]
      simp only [Option.isSome_some, ↓reduceIte]
      split_ifs
      · exact hretrieve.remember packetInfo.key
      · exact hretrieve.remember packetInfo.key
  · have hlost := Bool.eq_false_iff.mpr harrived
    rw [hlost] at hretrieve ⊢
    simp only [Bool.false_eq_true, false_and, ↓reduceIte]
    split
    · exact hretrieve
    · split_ifs
      · exact hretrieve
      · exact hretrieve

/-- All reports of a feedback message keep the agreement. -/
theorem reports {receiveTime : ℤ} (currentOffset : ℤ) (packets : List PacketInfo)
    (acc : ReportProgress Info × (SsrcAndRtpSequencenumber → Option ℤ))
    (h : Recalls acc.1.adapter acc.2 (some receiveTime)) :
    Recalls (packets.foldl (observeReport currentOffset receiveTime) acc).1.adapter
      (packets.foldl (observeReport currentOffset receiveTime) acc).2 (some receiveTime) := by
  induction packets generalizing acc with
  | nil => exact h
  | cons packetInfo rest ih => exact ih _ (report currentOffset packetInfo acc h)

end Recalls

/-- What is observed of the reports is the loop itself. -/
theorem observed_reports (currentOffset receiveTime : ℤ) (packets : List PacketInfo)
    (acc : ReportProgress Info × (SsrcAndRtpSequencenumber → Option ℤ)) :
    (packets.foldl (observeReport currentOffset receiveTime) acc).1 =
      packets.foldl (processPacketInfo currentOffset receiveTime) acc.1 := by
  induction packets generalizing acc with
  | nil => rfl
  | cons packetInfo rest ih => exact ih _

/-- A feedback message keeps the agreement. -/
theorem Recalls.feedback {s : TransportFeedbackAdapter Info}
    {acknowledgedAt : SsrcAndRtpSequencenumber → Option ℤ} {lastPruning : Option ℤ}
    (h : Recalls s acknowledgedAt lastPruning) (feedback : CongestionControlFeedback)
    {receiveTime : ℤ} (hnow : ∀ pruned, lastPruning = some pruned → pruned ≤ receiveTime) :
    Recalls (s.processCongestionControlFeedback feedback receiveTime).1
      (feedback.packets.foldl (observeReport (s.nextOffset feedback receiveTime) receiveTime)
        (s.reportStart feedback receiveTime, acknowledgedAt)).2 (some receiveTime) := by
  have hpruned := h.prune hnow
  have hstart : Recalls (s.reportStart feedback receiveTime).adapter acknowledgedAt
      (some receiveTime) := hpruned.of_same rfl rfl rfl
  have hreports := Recalls.reports (s.nextOffset feedback receiveTime) feedback.packets
    (s.reportStart feedback receiveTime, acknowledgedAt) hstart
  rw [observed_reports] at hreports
  unfold processCongestionControlFeedback
  split_ifs with hempty
  · rw [hempty]
    exact hpruned
  · simp only
    split_ifs
    · exact hreports
    · exact hreports

/-- What is observed of a call is the call itself. -/
theorem observed_step (o : Observed Info) (call : Call Info) :
    (observe o call).adapter = o.adapter.step call := by
  cases call with
  | addPacket packetToSend pacingInfo overheadBytes creationTime =>
      show (if packetToSend.transportSequenceNumber.isNone then o else _).adapter =
        o.adapter.addPacket packetToSend pacingInfo overheadBytes creationTime
      split_ifs with hnone
      · unfold addPacket
        rw [Option.isNone_iff_eq_none.mp hnone]
      · rfl
  | removePacket packetToSend => rfl
  | processSentPacket sentPacket => rfl
  | processCongestionControlFeedback feedback receiveTime => rfl

/-- What is observed of a run is the run itself. -/
theorem observed_run (calls : List (Call Info)) (o : Observed Info) :
    (calls.foldl observe o).adapter = calls.foldl step o.adapter := by
  induction calls generalizing o with
  | nil => rfl
  | cons call rest ih =>
      rw [List.foldl_cons, List.foldl_cons, ih, observed_step]

/-- Every call keeps the agreement when its time has not gone back. -/
theorem recalls_step {o : Observed Info} (h : Recalls o.adapter o.acknowledgedAt o.lastPruning)
    {call : Call Info} (hnow : ∀ pruned now, o.lastPruning = some pruned → callTime call = some now →
      pruned ≤ now) :
    Recalls (observe o call).adapter (observe o call).acknowledgedAt
      (observe o call).lastPruning := by
  cases call with
  | addPacket packetToSend pacingInfo overheadBytes creationTime =>
      unfold observe
      simp only
      split_ifs with hnone
      · exact h
      · exact h.add packetToSend pacingInfo overheadBytes
          (fun pruned hpruned => hnow pruned creationTime hpruned rfl)
          (Bool.eq_false_iff.mpr hnone)
  | removePacket packetToSend => exact h.removePacket packetToSend
  | processSentPacket sentPacket => exact h.processSentPacket sentPacket
  | processCongestionControlFeedback feedback receiveTime =>
      exact h.feedback feedback fun pruned hpruned => hnow pruned receiveTime hpruned rfl

/-- The last cut was made at the time of a call. -/
theorem last_pruning_mem (calls : List (Call Info)) :
    ∀ pruned, (calls.foldl observe {}).lastPruning = some pruned →
      pruned ∈ calls.filterMap callTime := by
  induction calls using List.reverseRecOn with
  | nil => exact fun _ h => by cases h
  | append_singleton earlier call ih =>
      intro pruned h
      rw [List.foldl_append, List.foldl_cons, List.foldl_nil] at h
      rw [List.filterMap_append, List.mem_append]
      cases call with
      | addPacket packetToSend pacingInfo overheadBytes creationTime =>
          unfold observe at h
          simp only at h
          split_ifs at h
          · exact Or.inl (ih pruned h)
          · cases h
            exact Or.inr (List.mem_singleton_self _)
      | removePacket packetToSend => exact Or.inl (ih pruned h)
      | processSentPacket sentPacket => exact Or.inl (ih pruned h)
      | processCongestionControlFeedback feedback receiveTime =>
          cases h
          exact Or.inr (List.mem_singleton_self _)

/-- After any calls whose times do not go back, the map, the deque and the acknowledgements agree. -/
theorem recalls_run (calls : List (Call Info))
    (htimes : (calls.filterMap callTime).Pairwise (· ≤ ·)) :
    Recalls (calls.foldl observe {}).adapter (calls.foldl observe {}).acknowledgedAt
      (calls.foldl observe {}).lastPruning := by
  induction calls using List.reverseRecOn with
  | nil => exact Recalls.initial
  | append_singleton earlier call ih =>
      rw [List.filterMap_append] at htimes
      obtain ⟨hearlier, -, hlater⟩ := List.pairwise_append.mp htimes
      rw [List.foldl_append, List.foldl_cons, List.foldl_nil]
      refine recalls_step (ih hearlier) fun pruned now hpruned hcall => ?_
      refine hlater pruned (last_pruning_mem earlier pruned hpruned) now ?_
      rw [List.filterMap_cons_some hcall]
      exact List.mem_cons_self

/-- No packet is reported as received twice. When the times do not go back, a key counts as recently
acknowledged exactly if it was acknowledged at most a minute before the last cut and no packet was
added under it since, and every entry of the map has its record in the deque. -/
theorem acknowledgements_run (calls : List (Call Info))
    (htimes : (calls.filterMap callTime).Pairwise (· ≤ ·)) :
    ((receivedRun ({} : TransportFeedbackAdapter (Nat × Info)) (labelled 0 calls)).map
        Prod.fst).Nodup ∧
      (∀ key, (calls.foldl step ({} : TransportFeedbackAdapter Info)).wasRecentlyAcknowledged key =
          true ↔
        ∃ time pruned, (calls.foldl observe {}).acknowledgedAt key = some time ∧
          (calls.foldl observe {}).lastPruning = some pruned ∧
          pruned - time ≤ kSendTimeHistoryWindow) ∧
      ∀ key generation,
        (calls.foldl step ({} : TransportFeedbackAdapter Info)).recentlyAcknowledgedPackets key =
          some generation →
        ∃ r ∈ (calls.foldl step
            ({} : TransportFeedbackAdapter Info)).recentlyAcknowledgedPacketsInOrder,
          r.key = key ∧ r.generation = generation := by
  have hrun := recalls_run calls htimes
  rw [observed_run] at hrun
  refine ⟨received_once calls, fun key => ⟨fun hrecent => ?_, ?_⟩, ?_⟩
  · obtain ⟨generation, hentry⟩ := Option.isSome_iff_exists.mp hrecent
    obtain ⟨r, hr, -, -, htime⟩ := hrun.recorded key generation hentry
    obtain ⟨pruned, hpruned, -, hwindow⟩ := hrun.recent r hr
    exact ⟨r.acknowledgmentTime, pruned, htime, hpruned, hwindow⟩
  · rintro ⟨time, pruned, htime, hpruned, hwindow⟩
    rcases hrun.remembered key time htime with hentry | ⟨pruned', hpruned', hold⟩
    · exact hentry
    · rw [hpruned] at hpruned'
      rw [Option.some.inj hpruned'] at hwindow
      exact absurd hold (not_lt.mpr hwindow)
  · intro key generation hentry
    obtain ⟨r, hr, hkey, hgeneration, -⟩ := hrun.recorded key generation hentry
    exact ⟨r, hr, hkey, hgeneration⟩

/-- A packet that is sent, reported as received, and reported again a minute later. -/
def reportedTwice : List (Call Unit) :=
  let packetInfo : PacketInfo := { ssrc := 1, sequenceNumber := 7, arrivalTimeOffset := some 0 }
  let feedback : CongestionControlFeedback :=
    { packets := [packetInfo], reportTimestampCompactNtp := 0 }
  [ .addPacket
      { transportSequenceNumber := some 0, ssrc := 1, sequenceNumber := 7, size := 100 } () 0 0,
    .processSentPacket
      { packetId := 0, sendTimeMs := 1, includedInFeedback := true, includedInAllocation := true
        packetSizeBytes := 100 },
    .processCongestionControlFeedback feedback 2000,
    .processCongestionControlFeedback feedback 60001000 ]

/-- The packet counts as recently acknowledged after the second report. -/
theorem reported_twice_recent :
    (reportedTwice.filterMap callTime).Pairwise (· ≤ ·) ∧
      ((receivedRun ({} : TransportFeedbackAdapter (Nat × Unit))
        (labelled 0 reportedTwice)).map Prod.fst).Nodup ∧
      ∃ time pruned, (reportedTwice.foldl observe {}).acknowledgedAt ⟨1, 7⟩ = some time ∧
        (reportedTwice.foldl observe {}).lastPruning = some pruned ∧
        pruned - time ≤ kSendTimeHistoryWindow := by
  have htimes : (reportedTwice.filterMap callTime).Pairwise (· ≤ ·) := by decide
  have hrecent : (reportedTwice.foldl step
      ({} : TransportFeedbackAdapter Unit)).wasRecentlyAcknowledged ⟨1, 7⟩ = true := by decide
  have hrun := acknowledgements_run reportedTwice htimes
  exact ⟨htimes, hrun.1, (hrun.2.1 ⟨1, 7⟩).mp hrecent⟩

end TransportFeedbackAdapter

end MiniRtc
