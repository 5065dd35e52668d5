import MiniRtc.Qos.FeedbackTracker
import MiniRtc.Qos.FeedbackMessage

/-!
# The feedback generator

`CongestionControlFeedbackGenerator` with its trackers, one for each SSRC. When a feedback is sent is
up to its caller. `send_feedback_created` says what a feedback reports when it has room for it, and
`send_feedback_full` that nothing is sent otherwise, although the trackers have forgotten the packets.
-/

namespace MiniRtc

open CongestionControlFeedback

/-- `CongestionControlFeedbackGenerator`, without the times and rates that decide when a feedback is
due. -/
structure CongestionControlFeedbackGenerator where
  feedbackTrackers : List (BitVec 32 × CongestionControlFeedbackTracker) := []

namespace CongestionControlFeedbackGenerator

/-- The order of `std::map<uint32_t, ...>`. -/
def ssrcLt (a b : BitVec 32) : Bool := decide (a.toNat < b.toNat)

/-- `feedback_trackers_[ssrc]`. -/
def trackerOf (g : CongestionControlFeedbackGenerator) (ssrc : BitVec 32) :
    CongestionControlFeedbackTracker :=
  ((OrderedMap.find? ssrcLt Prod.fst ssrc g.feedbackTrackers).map Prod.snd).getD {}

/-- `OnReceivedPacket`, up to the check whether a feedback is due. -/
def onReceivedPacket (g : CongestionControlFeedbackGenerator) (ssrc : BitVec 32)
    (sequenceNumber : BitVec 16) (arrivalTime : ℤ) (ecn : EcnMarking) :
    CongestionControlFeedbackGenerator :=
  { feedbackTrackers := OrderedMap.insertOrAssign ssrcLt Prod.fst
      (ssrc, (g.trackerOf ssrc).receivedPacket ssrc sequenceNumber arrivalTime ecn)
      g.feedbackTrackers }

/-- The reports that the trackers add to a feedback. -/
def reportsOf (g : CongestionControlFeedbackGenerator) (now : ℤ) : List (List PacketInfo) :=
  g.feedbackTrackers.map fun entry => (entry.2.addPacketsToFeedback now).2

/-- `SendFeedback`, up to the packet that it passes on. -/
def sendFeedback (g : CongestionControlFeedbackGenerator) (now : ℤ) (compactNtp : BitVec 32) :
    CongestionControlFeedbackGenerator × CongestionControlFeedback :=
  ({ feedbackTrackers := g.feedbackTrackers.map fun entry =>
      (entry.1, (entry.2.addPacketsToFeedback now).1) },
    { packets := (g.reportsOf now).flatten, reportTimestampCompactNtp := compactNtp })

/-- The numbers of reports that the next feedback has for the SSRCs. -/
def reportCounts (g : CongestionControlFeedbackGenerator) : List Nat :=
  (g.feedbackTrackers.map fun entry => entry.2.reportCount).filter fun count => count ≠ 0

/-- The size of the next feedback. -/
def reportSize (g : CongestionControlFeedbackGenerator) : Nat :=
  12 + (g.reportCounts.map blockSize).sum

/-- A packet waits for the next feedback. -/
def Waits (g : CongestionControlFeedbackGenerator) (key : SsrcAndRtpSequencenumber) : Prop :=
  ∃ entry ∈ g.feedbackTrackers, entry.2.Waits key

/-- The trackers of a generator hold packets that have arrived, each those of its SSRC. -/
structure Tracked (arrived : SsrcAndRtpSequencenumber → Prop)
    (g : CongestionControlFeedbackGenerator) : Prop where
  ranked : OrderedMap.Ranked Prod.fst (fun _ => True) (fun ssrc : BitVec 32 => (ssrc.toNat : ℤ))
    g.feedbackTrackers
  tracks : ∀ entry ∈ g.feedbackTrackers, entry.2.Tracks arrived entry.1

variable {g : CongestionControlFeedbackGenerator} {arrived : SsrcAndRtpSequencenumber → Prop}

/-- The order of the trackers compares the SSRCs. -/
theorem ssrc_lt_iff (x y : BitVec 32) : True → True →
    (ssrcLt x y = true ↔ (x.toNat : ℤ) < (y.toNat : ℤ)) := by
  intro _ _
  unfold ssrcLt
  rw [decide_eq_true_eq]
  omega

/-- SSRCs that are not before each other are equal. -/
theorem ssrc_lt_connected (x y : BitVec 32) (hxy : ssrcLt x y = false)
    (hyx : ssrcLt y x = false) : x = y :=
  BitVec.eq_of_toNat_eq
    (le_antisymm (not_lt.mp (of_decide_eq_false hyx)) (not_lt.mp (of_decide_eq_false hxy)))

/-- A generator without trackers. -/
theorem tracked_new : Tracked arrived {} where
  ranked := ⟨fun _ _ => trivial, List.Pairwise.nil⟩
  tracks := fun _ hin => by cases hin

/-- What has arrived stays so. -/
theorem Tracked.mono (h : Tracked arrived g) {later : SsrcAndRtpSequencenumber → Prop}
    (hlater : ∀ key, arrived key → later key) : Tracked later g :=
  ⟨h.ranked, fun entry hin => (h.tracks entry hin).mono hlater⟩

/-- The tracker of an SSRC. -/
theorem tracks_tracker_of (h : Tracked arrived g) (ssrc : BitVec 32) :
    (g.trackerOf ssrc).Tracks arrived ssrc := by
  unfold trackerOf
  cases hfind : OrderedMap.find? ssrcLt Prod.fst ssrc g.feedbackTrackers with
  | none => exact CongestionControlFeedbackTracker.tracks_new
  | some entry =>
      obtain ⟨hin, hkey⟩ := OrderedMap.find_some ssrc_lt_connected hfind
      have htracks := h.tracks entry hin
      rw [hkey] at htracks
      exact htracks

/-- A packet that arrives is tracked. -/
theorem tracked_received (h : Tracked arrived g) {ssrc : BitVec 32} {sequenceNumber : BitVec 16}
    (arrivalTime : ℤ) (ecn : EcnMarking)
    (harrived : arrived { ssrc := ssrc, rtpSequenceNumber := sequenceNumber }) :
    Tracked arrived (g.onReceivedPacket ssrc sequenceNumber arrivalTime ecn) := by
  refine ⟨OrderedMap.ranked_insert_or_assign ssrc_lt_iff trivial h.ranked, fun entry hin => ?_⟩
  rcases OrderedMap.mem_of_mem_insert_or_assign hin with rfl | hold
  · exact CongestionControlFeedbackTracker.tracks_received (tracks_tracker_of h ssrc) _ _ _ harrived
  · exact h.tracks entry hold

/-- A packet that arrives waits, and so does what waited before. -/
theorem waits_received (h : Tracked arrived g) (ssrc : BitVec 32) (sequenceNumber : BitVec 16)
    (arrivalTime : ℤ) (ecn : EcnMarking) {key : SsrcAndRtpSequencenumber}
    (hwaits : g.Waits key ∨ key = { ssrc := ssrc, rtpSequenceNumber := sequenceNumber }) :
    (g.onReceivedPacket ssrc sequenceNumber arrivalTime ecn).Waits key := by
  have hnew : (g.trackerOf ssrc).Waits key ∨
      key = { ssrc := ssrc, rtpSequenceNumber := sequenceNumber } →
      (g.onReceivedPacket ssrc sequenceNumber arrivalTime ecn).Waits key := fun hcases =>
    ⟨_, OrderedMap.mem_insert_or_assign_self _ _,
      (CongestionControlFeedbackTracker.waits_received (tracks_tracker_of h ssrc).consistent
        sequenceNumber arrivalTime ecn).mpr hcases⟩
  rcases hwaits with ⟨entry, hin, hwaits⟩ | hkey
  · have hkeeps : entry ∈ (g.onReceivedPacket ssrc sequenceNumber arrivalTime ecn).feedbackTrackers ∨
        OrderedMap.find? ssrcLt Prod.fst ssrc g.feedbackTrackers = some entry :=
      OrderedMap.mem_insert_or_assign_or hin
    rcases hkeeps with hkept | hfound
    · exact ⟨entry, hkept, hwaits⟩
    · refine hnew (Or.inl ?_)
      unfold trackerOf
      rw [hfound]
      exact hwaits
  · exact hnew (Or.inr hkey)

/-- After a feedback the trackers go on, and nothing waits. -/
theorem tracked_sent (h : Tracked arrived g) (now : ℤ) (compactNtp : BitVec 32) :
    Tracked arrived (g.sendFeedback now compactNtp).1 ∧
      ∀ key, ¬ (g.sendFeedback now compactNtp).1.Waits key := by
  have hentries : ∀ entry ∈ (g.sendFeedback now compactNtp).1.feedbackTrackers,
      ∃ old ∈ g.feedbackTrackers, (old.1, (old.2.addPacketsToFeedback now).1) = entry :=
    fun entry hin => List.mem_map.mp hin
  refine ⟨⟨⟨fun _ _ => trivial, ?_⟩, fun entry hin => ?_⟩, fun key ⟨entry, hin, hwaits⟩ => ?_⟩
  · exact List.pairwise_map.mpr h.ranked.sorted
  · obtain ⟨old, hold, rfl⟩ := hentries entry hin
    exact (CongestionControlFeedbackTracker.tracks_reported (h.tracks old hold) now).1
  · obtain ⟨old, hold, rfl⟩ := hentries entry hin
    exact (CongestionControlFeedbackTracker.tracks_reported (h.tracks old hold) now).2 key hwaits

/-- The reports of a tracker are a run of consecutive numbers. -/
theorem reports_run (h : Tracked arrived g) (now : ℤ) :
    (∀ run ∈ g.reportsOf now, Consecutive run) ∧
      (g.reportsOf now).Pairwise fun a b => ∀ x ∈ a, ∀ y ∈ b, x.ssrc ≠ y.ssrc := by
  have hssrc : ∀ entry ∈ g.feedbackTrackers, ∀ x ∈ (entry.2.addPacketsToFeedback now).2,
      x.ssrc = entry.1 := by
    intro entry hin x hx
    obtain ⟨i, hi⟩ := List.mem_iff_getElem?.mp hx
    obtain ⟨-, start, hrun⟩ :=
      CongestionControlFeedbackTracker.reports_consecutive (h.tracks entry hin) now
    exact (hrun i x hi).1
  refine ⟨fun run hin => ?_, List.pairwise_map.mpr (h.ranked.sorted.imp_of_mem ?_)⟩
  · obtain ⟨entry, hentry, rfl⟩ := List.mem_map.mp hin
    exact ⟨entry.1,
      (CongestionControlFeedbackTracker.reports_consecutive (h.tracks entry hentry) now).2⟩
  · intro a b ha hb hlt x hx y hy heq
    rw [hssrc a ha x hx, hssrc b hb y hy] at heq
    rw [heq] at hlt
    exact lt_irrefl _ hlt

/-- The size of a feedback is that of the runs of its reports. -/
theorem report_size_eq (h : Tracked arrived g) (now : ℤ) :
    12 + (((g.reportsOf now).filter fun run => run ≠ []).map
      fun run => blockSize run.length).sum = g.reportSize := by
  have hcounts : (g.reportsOf now).map List.length =
      g.feedbackTrackers.map fun entry => entry.2.reportCount := by
    unfold reportsOf
    rw [List.map_map]
    exact List.map_congr_left fun entry hin =>
      (CongestionControlFeedbackTracker.reports_consecutive (h.tracks entry hin) now).1
  have hfilter : ((g.reportsOf now).filter fun run => run ≠ []).map List.length =
      g.reportCounts := by
    unfold reportCounts
    rw [← hcounts, List.filter_map]
    congr 1
    refine List.filter_congr fun run _ => ?_
    simp [List.length_eq_zero_iff]
  unfold reportSize
  rw [← hfilter, List.map_map]
  rfl

/-- The reports of one tracker are part of a feedback. -/
theorem block_size_le_report_size {entry : BitVec 32 × CongestionControlFeedbackTracker}
    (hin : entry ∈ g.feedbackTrackers) (hcount : entry.2.reportCount ≠ 0) :
    12 + blockSize entry.2.reportCount ≤ g.reportSize := by
  unfold reportSize
  refine Nat.add_le_add_left (List.single_le_sum (fun _ _ => Nat.zero_le _) _ ?_) 12
  refine List.mem_map_of_mem (List.mem_filter.mpr ⟨List.mem_map_of_mem hin, ?_⟩)
  exact decide_eq_true hcount

/-- A feedback about one packet is small. -/
theorem report_size_first (h : (g.feedbackTrackers.map fun entry =>
    (entry.2.packets.length, entry.2.lastSequenceNumberInFeedback)) = [(1, none)]) :
    g.reportSize = 24 := by
  obtain ⟨entry, hentry, hfirst⟩ := List.map_eq_singleton_iff.mp h
  obtain ⟨hlength, hlast⟩ := Prod.mk.inj hfirst
  obtain ⟨info, hpackets⟩ := List.length_eq_one_iff.mp hlength
  have hcount := CongestionControlFeedbackTracker.report_count_first hpackets hlast
  unfold reportSize reportCounts
  simp [hentry, hcount, blockSize]

/-- A feedback that has room for its reports is created. It reports what waits, and nothing that has
not arrived. -/
theorem send_feedback_created (h : Tracked arrived g) (ticks : ℤ → BitVec 16)
    (senderSsrc : BitVec 32) (now : ℤ) (compactNtp : BitVec 32)
    (hroom : g.reportSize ≤ kMaxRtcpPacketSize) :
    ∃ message, create ticks senderSsrc kMaxRtcpPacketSize (g.sendFeedback now compactNtp).2 =
        .created message ∧
      (∀ key ∈ message.receivedKeys, arrived key) ∧
        ∀ key, g.Waits key → key ∈ message.receivedKeys := by
  obtain ⟨hruns, hdistinct⟩ := reports_run h now
  rw [← report_size_eq h now] at hroom
  obtain ⟨message, hcreated, hkeys⟩ :
      ∃ message, create ticks senderSsrc kMaxRtcpPacketSize (g.sendFeedback now compactNtp).2 =
          .created message ∧ _ := create_reports hruns hdistinct hroom (by decide)
  refine ⟨message, hcreated, fun key hkey => ?_, fun key hwaits => ?_⟩
  · obtain ⟨run, hrun, report, hreport, hreceived, rfl⟩ := (hkeys key).mp hkey
    obtain ⟨entry, hentry, rfl⟩ := List.mem_map.mp hrun
    exact CongestionControlFeedbackTracker.report_arrived (h.tracks entry hentry) hreport hreceived
  · obtain ⟨entry, hentry, hwaits⟩ := hwaits
    obtain ⟨report, hreport, hkey, hreceived⟩ :=
      CongestionControlFeedbackTracker.waits_reported (h.tracks entry hentry) now hwaits
    exact (hkeys key).mpr ⟨_, List.mem_map_of_mem hentry, report, hreport, hreceived, hkey⟩

/-- A feedback that has no room for its reports is not created. -/
theorem send_feedback_full (h : Tracked arrived g) (ticks : ℤ → BitVec 16)
    (senderSsrc : BitVec 32) (now : ℤ) (compactNtp : BitVec 32)
    (hfull : kMaxRtcpPacketSize < g.reportSize) :
    ∀ message, create ticks senderSsrc kMaxRtcpPacketSize (g.sendFeedback now compactNtp).2 ≠
      .created message := by
  obtain ⟨hruns, hdistinct⟩ := reports_run h now
  rw [← report_size_eq h now, ← runs_of_flatten hruns hdistinct] at hfull
  exact create_ne_created hruns hdistinct hfull

end CongestionControlFeedbackGenerator

end MiniRtc
