import MiniRtc.Qos.TransportFeedback

/-!
# The tracker of received packets

`CongestionControlFeedbackTracker`, which collects the packets of one SSRC and reports them in the
next feedback: every sequence number after the last one of the feedback before, up to the newest
packet, received or not. A report is received when a packet with the number has arrived, in this
interval or in the history.

`received_iff` says which reports are received. It needs only the invariant `Tracks`, that what the
tracker holds has arrived and lies after the last feedback.
-/

namespace MiniRtc

/-- `CongestionControlFeedbackTracker::PacketInfo`. -/
structure ReceivedPacketInfo where
  ssrc : BitVec 32
  unwrappedSequenceNumber : ℤ
  arrivalTime : ℤ
  ecn : EcnMarking

/-- The key of a packet in reports. -/
def ReceivedPacketInfo.key (p : ReceivedPacketInfo) : SsrcAndRtpSequencenumber :=
  { ssrc := p.ssrc, rtpSequenceNumber := BitVec.ofInt 16 p.unwrappedSequenceNumber }

/-- `kMaxHistorySize`. -/
def kMaxHistorySize : Nat := 16384

/-- `CongestionControlFeedbackTracker`. -/
structure CongestionControlFeedbackTracker where
  lastSequenceNumberInFeedback : Option ℤ := none
  unwrapper : SeqNumUnwrapper 16 := {}
  packets : List ReceivedPacketInfo := []
  history : ℤ → Option ReceivedPacketInfo := fun _ => none
  historyOrder : List ℤ := []

namespace SeqNumUnwrapper

variable {w : Nat}

/-- The value that an unwrapper returns for a number is the number, up to the wrap. -/
def Consistent (u : SeqNumUnwrapper w) : Prop :=
  ∀ lastValue, u.lastValue = some lastValue → BitVec.ofInt w u.lastUnwrapped = lastValue

/-- A difference of two numbers leads from one to the other. -/
theorem of_int_delta (lastValue newValue : BitVec w) :
    BitVec.ofInt w (delta lastValue newValue) = newValue - lastValue := by
  have hforward : BitVec.ofInt w ((forwardDiff lastValue newValue).toNat : ℤ) =
      newValue - lastValue := by
    rw [BitVec.ofInt_natCast, BitVec.ofNat_toNat, BitVec.setWidth_eq]
    rfl
  have hturn : BitVec.ofInt w (-(2 ^ w : ℤ)) = 0#w := by
    have hcast : (2 ^ w : ℤ) = ((2 ^ w : Nat) : ℤ) := by push_cast; rfl
    have hzero : BitVec.ofNat w (2 ^ w) = 0#w := by
      apply BitVec.eq_of_toNat_eq
      rw [BitVec.toNat_ofNat, BitVec.toNat_ofNat, Nat.mod_self, Nat.zero_mod]
    rw [BitVec.ofInt_neg, hcast, BitVec.ofInt_natCast, hzero, BitVec.neg_zero]
  unfold delta
  simp only
  split_ifs
  · exact hforward
  · rw [Int.sub_eq_add_neg, BitVec.ofInt_add, hforward, hturn, BitVec.add_zero]

/-- The unwrapped number is the number, up to the wrap. -/
theorem of_int_unwrap {u : SeqNumUnwrapper w} (h : u.Consistent) (value : BitVec w) :
    BitVec.ofInt w (u.unwrap value).2 = value ∧ (u.unwrap value).1.Consistent := by
  have hvalue : BitVec.ofInt w (u.unwrap value).2 = value := by
    unfold unwrap
    cases hlast : u.lastValue with
    | none =>
        show BitVec.ofInt w (value.toNat : ℤ) = value
        rw [BitVec.ofInt_natCast, BitVec.ofNat_toNat, BitVec.setWidth_eq]
    | some lastValue =>
        show BitVec.ofInt w (u.lastUnwrapped + delta lastValue value) = value
        rw [BitVec.ofInt_add, h lastValue hlast, of_int_delta, BitVec.add_comm,
          BitVec.sub_add_cancel]
  refine ⟨hvalue, fun lastValue hlast => ?_⟩
  rw [← Option.some.inj hlast]
  exact hvalue

end SeqNumUnwrapper

namespace CongestionControlFeedbackTracker

/-- The history after a packet. The first arrival of a number stays, and the oldest entry goes when
there are too many. -/
def updateHistory (t : CongestionControlFeedbackTracker) (info : ReceivedPacketInfo) :
    (ℤ → Option ReceivedPacketInfo) × List ℤ :=
  let number := info.unwrappedSequenceNumber
  match t.history number with
  | none =>
      let history := Function.update t.history number (some info)
      let order := t.historyOrder ++ [number]
      if kMaxHistorySize < order.length then
        (Function.update history (order.headD 0) none, order.drop 1)
      else (history, order)
  | some known =>
      (Function.update t.history number (some { known with
        arrivalTime := min info.arrivalTime known.arrivalTime
        ecn := if info.ecn = .ce then .ce else known.ecn }), t.historyOrder)

/-- `ReceivedPacket`. -/
def receivedPacket (t : CongestionControlFeedbackTracker) (ssrc : BitVec 32)
    (sequenceNumber : BitVec 16) (arrivalTime : ℤ) (ecn : EcnMarking) :
    CongestionControlFeedbackTracker :=
  let unwrapped := t.unwrapper.unwrap sequenceNumber
  let info : ReceivedPacketInfo :=
    { ssrc, unwrappedSequenceNumber := unwrapped.2, arrivalTime, ecn }
  let updated := t.updateHistory info
  { lastSequenceNumberInFeedback := t.lastSequenceNumberInFeedback.map fun last =>
      if unwrapped.2 < last + 1 then unwrapped.2 - 1 else last
    unwrapper := unwrapped.1
    packets := t.packets ++ [info]
    history := updated.1
    historyOrder := updated.2 }

/-- The order in which the packets are reported. -/
def infoLe (a b : ReceivedPacketInfo) : Bool :=
  decide (a.unwrappedSequenceNumber < b.unwrappedSequenceNumber ∨
    a.unwrappedSequenceNumber = b.unwrappedSequenceNumber ∧ a.arrivalTime ≤ b.arrivalTime)

/-- The packets of the interval, sorted. -/
def sortedPackets (t : CongestionControlFeedbackTracker) : List ReceivedPacketInfo :=
  t.packets.mergeSort infoLe

/-- The earlier one of an offset, if there is one, and that of a packet. -/
def earliest (offset : Option ℤ) (candidate : ℤ) : Option ℤ :=
  some (offset.elim candidate fun known => min known candidate)

/-- The offset and the marking in the report of one number, from its entry in the history and the
copies of the interval. -/
def reportOf (feedbackTime : ℤ) (known : Option ReceivedPacketInfo) :
    List ReceivedPacketInfo → Option ℤ × EcnMarking
  | [] => (known.map fun info => feedbackTime - info.arrivalTime,
      known.elim .notEct ReceivedPacketInfo.ecn)
  | first :: later =>
      let ecn := known.elim .notEct ReceivedPacketInfo.ecn
      later.foldl
        (fun report copy =>
          (earliest report.1 (feedbackTime - copy.arrivalTime),
            if copy.ecn = .ce then .ce else report.2))
        (earliest (known.map fun info => feedbackTime - info.arrivalTime)
            (feedbackTime - first.arrivalTime),
          if first.ecn = .ce then .ce else if ecn = .notEct then first.ecn else ecn)

/-- The loop of `AddPacketsToFeedback` over so many numbers, with the packets that are left. -/
def reportLoop (t : CongestionControlFeedbackTracker) (feedbackTime : ℤ) (ssrc : BitVec 32) :
    Nat → ℤ → List ReceivedPacketInfo → List PacketInfo
  | 0, _, _ => []
  | count + 1, number, packets =>
      let copies := packets.takeWhile fun p => p.unwrappedSequenceNumber = number
      let report := reportOf feedbackTime (t.history number) copies
      { ssrc, sequenceNumber := BitVec.ofInt 16 number, arrivalTimeOffset := report.1
        ecn := report.2 } ::
        t.reportLoop feedbackTime ssrc count (number + 1)
          (packets.dropWhile fun p => p.unwrappedSequenceNumber = number)

/-- The last number that was reported, or the one before the first packet. -/
def lastReported (t : CongestionControlFeedbackTracker) (first : ReceivedPacketInfo) : ℤ :=
  t.lastSequenceNumberInFeedback.getD (first.unwrappedSequenceNumber - 1)

/-- How many numbers the next feedback reports. -/
def reportCount (t : CongestionControlFeedbackTracker) : Nat :=
  match t.sortedPackets with
  | [] => 0
  | first :: rest =>
      (((first :: rest).getLast (by simp)).unwrappedSequenceNumber - t.lastReported first).toNat

/-- `AddPacketsToFeedback`: the reports of the interval, which then starts anew. -/
def addPacketsToFeedback (t : CongestionControlFeedbackTracker) (feedbackTime : ℤ) :
    CongestionControlFeedbackTracker × List PacketInfo :=
  match t.sortedPackets with
  | [] => (t, [])
  | first :: rest =>
      ({ t with
          lastSequenceNumberInFeedback :=
            some ((first :: rest).getLast (by simp)).unwrappedSequenceNumber
          packets := [] },
        t.reportLoop feedbackTime first.ssrc t.reportCount (t.lastReported first + 1)
          (first :: rest))

/-- The tracker of an SSRC holds packets that have arrived, and those of the interval lie after the
last feedback. -/
structure Tracks (arrived : SsrcAndRtpSequencenumber → Prop) (ssrc : BitVec 32)
    (t : CongestionControlFeedbackTracker) : Prop where
  consistent : t.unwrapper.Consistent
  packets : ∀ p ∈ t.packets, p.ssrc = ssrc ∧ arrived p.key
  history : ∀ number info, t.history number = some info →
    arrived { ssrc := ssrc, rtpSequenceNumber := BitVec.ofInt 16 number }
  ahead : ∀ last, t.lastSequenceNumberInFeedback = some last →
    ∀ p ∈ t.packets, last < p.unwrappedSequenceNumber

/-- A packet waits for the next feedback. -/
def Waits (t : CongestionControlFeedbackTracker) (key : SsrcAndRtpSequencenumber) : Prop :=
  ∃ p ∈ t.packets, p.key = key

variable {t : CongestionControlFeedbackTracker} {arrived : SsrcAndRtpSequencenumber → Prop}
  {ssrc : BitVec 32}

/-- A new tracker holds nothing. -/
theorem tracks_new : Tracks arrived ssrc {} where
  consistent := fun _ hlast => by cases hlast
  packets := fun _ hin => by cases hin
  history := fun _ _ hknown => by cases hknown
  ahead := fun _ hlast => by cases hlast

/-- What has arrived stays so. -/
theorem Tracks.mono (h : Tracks arrived ssrc t) {later : SsrcAndRtpSequencenumber → Prop}
    (hlater : ∀ key, arrived key → later key) : Tracks later ssrc t where
  consistent := h.consistent
  packets := fun p hin => ⟨(h.packets p hin).1, hlater _ (h.packets p hin).2⟩
  history := fun number info hknown => hlater _ (h.history number info hknown)
  ahead := h.ahead

/-- The history grows by the number of the packet at most. -/
theorem history_of_update {info : ReceivedPacketInfo} {number : ℤ} {known : ReceivedPacketInfo}
    (h : (t.updateHistory info).1 number = some known) :
    number = info.unwrappedSequenceNumber ∨ ∃ old, t.history number = some old := by
  by_cases hnumber : number = info.unwrappedSequenceNumber
  · exact Or.inl hnumber
  · right
    unfold updateHistory at h
    simp only at h
    split at h
    · split_ifs at h
      · by_cases hremoved : number = (t.historyOrder ++ [info.unwrappedSequenceNumber]).headD 0
        · simp only [hremoved, Function.update_self] at h
          cases h
        · simp only [Function.update_of_ne hremoved, Function.update_of_ne hnumber] at h
          exact ⟨known, h⟩
      · simp only [Function.update_of_ne hnumber] at h
        exact ⟨known, h⟩
    · simp only [Function.update_of_ne hnumber] at h
      exact ⟨known, h⟩

/-- A packet that arrives is tracked. -/
theorem tracks_received (h : Tracks arrived ssrc t) (sequenceNumber : BitVec 16)
    (arrivalTime : ℤ) (ecn : EcnMarking)
    (harrived : arrived { ssrc := ssrc, rtpSequenceNumber := sequenceNumber }) :
    Tracks arrived ssrc (t.receivedPacket ssrc sequenceNumber arrivalTime ecn) := by
  obtain ⟨hvalue, hconsistent⟩ := SeqNumUnwrapper.of_int_unwrap h.consistent sequenceNumber
  refine ⟨hconsistent, fun p hin => ?_, fun number info hknown => ?_, fun last hlast p hin => ?_⟩
  · rcases List.mem_append.mp hin with hold | hnew
    · exact h.packets p hold
    · obtain rfl := List.mem_singleton.mp hnew
      refine ⟨rfl, ?_⟩
      unfold ReceivedPacketInfo.key
      rw [hvalue]
      exact harrived
  · rcases history_of_update hknown with hnumber | ⟨old, hold⟩
    · rw [hnumber, hvalue]
      exact harrived
    · exact h.history number old hold
  · obtain ⟨before, hbefore, hmoved⟩ := Option.map_eq_some_iff.mp hlast
    have hle : last ≤ before ∧ last < (t.unwrapper.unwrap sequenceNumber).2 := by
      split_ifs at hmoved
      · omega
      · omega
    rcases List.mem_append.mp hin with hold | hnew
    · exact lt_of_le_of_lt hle.1 (h.ahead before hbefore p hold)
    · obtain rfl := List.mem_singleton.mp hnew
      exact hle.2

/-- The packets that wait are those that waited and the new one. -/
theorem waits_received (h : t.unwrapper.Consistent) (sequenceNumber : BitVec 16)
    (arrivalTime : ℤ) (ecn : EcnMarking) {key : SsrcAndRtpSequencenumber} :
    (t.receivedPacket ssrc sequenceNumber arrivalTime ecn).Waits key ↔
      t.Waits key ∨ key = { ssrc := ssrc, rtpSequenceNumber := sequenceNumber } := by
  have hvalue := (SeqNumUnwrapper.of_int_unwrap h sequenceNumber).1
  unfold Waits receivedPacket
  simp only [List.mem_append, List.mem_singleton, or_and_right, exists_or, exists_eq_left]
  unfold ReceivedPacketInfo.key
  rw [hvalue]
  exact or_congr Iff.rfl eq_comm

/-! ## Reports -/

/-- A report has an offset when the number is in the history or has a copy. -/
theorem report_of_received (feedbackTime : ℤ) (known : Option ReceivedPacketInfo)
    (copies : List ReceivedPacketInfo) :
    (reportOf feedbackTime known copies).1.isSome = true ↔ known.isSome = true ∨ copies ≠ [] := by
  cases copies with
  | nil => cases known <;> simp [reportOf]
  | cons first later =>
      have hfold : ∀ report : Option ℤ × EcnMarking, report.1.isSome = true →
          (later.foldl (fun report copy =>
            (earliest report.1 (feedbackTime - copy.arrivalTime),
              if copy.ecn = .ce then .ce else report.2)) report).1.isSome = true := by
        intro report hreport
        induction later generalizing report with
        | nil => exact hreport
        | cons copy rest ih => exact ih _ rfl
      refine ⟨fun _ => Or.inr (by simp), fun _ => ?_⟩
      exact hfold _ rfl

/-- The loop makes one report for each number. -/
theorem report_loop_length (feedbackTime : ℤ) (count : Nat) (number : ℤ)
    (packets : List ReceivedPacketInfo) :
    (t.reportLoop feedbackTime ssrc count number packets).length = count := by
  induction count generalizing number packets with
  | zero => rfl
  | succ count ih => exact congrArg (· + 1) (ih _ _)

/-- Sorted packets of later numbers fall apart into those of the number and those after it. -/
theorem split_copies {packets : List ReceivedPacketInfo} {number : ℤ}
    (hsorted : packets.Pairwise fun a b => a.unwrappedSequenceNumber ≤ b.unwrappedSequenceNumber)
    (hge : ∀ p ∈ packets, number ≤ p.unwrappedSequenceNumber) :
    (packets.takeWhile fun p => p.unwrappedSequenceNumber = number) =
        packets.filter (fun p => p.unwrappedSequenceNumber = number) ∧
      (packets.dropWhile fun p => p.unwrappedSequenceNumber = number) =
        packets.filter (fun p => !decide (p.unwrappedSequenceNumber = number)) := by
  refine OrderedMap.take_while_eq_filter (hsorted.imp_of_mem fun ha _ hle heq => ?_)
  have hbelow := hge _ ha
  have hb := of_decide_eq_true heq
  exact decide_eq_true (by omega)

/-- A report of the loop is that of its number, from the packets with the number. -/
theorem report_loop_eq (feedbackTime : ℤ) {count : Nat} {number : ℤ}
    {packets : List ReceivedPacketInfo}
    (hsorted : packets.Pairwise fun a b => a.unwrappedSequenceNumber ≤ b.unwrappedSequenceNumber)
    (hge : ∀ p ∈ packets, number ≤ p.unwrappedSequenceNumber) {i : Nat} {report : PacketInfo}
    (h : (t.reportLoop feedbackTime ssrc count number packets)[i]? = some report) :
    report.ssrc = ssrc ∧ report.sequenceNumber = BitVec.ofInt 16 (number + i) ∧
      (report.arrivalTimeOffset, report.ecn) =
        reportOf feedbackTime (t.history (number + i))
          (packets.filter fun p => p.unwrappedSequenceNumber = number + i) := by
  induction count generalizing number packets i with
  | zero => simp [reportLoop] at h
  | succ count ih =>
      obtain ⟨htake, hdrop⟩ := split_copies hsorted hge
      cases i with
      | zero =>
          obtain rfl := Option.some.inj h
          rw [Nat.cast_zero, add_zero, ← htake]
          exact ⟨rfl, rfl, rfl⟩
      | succ i =>
          have hlater : ∀ p ∈ packets.filter
              (fun p => !decide (p.unwrappedSequenceNumber = number)),
              number + 1 ≤ p.unwrappedSequenceNumber := by
            intro p hin
            obtain ⟨hmem, hne⟩ := List.mem_filter.mp hin
            have hbelow := hge p hmem
            have hne' : p.unwrappedSequenceNumber ≠ number := by simpa using hne
            omega
          have hrest : (t.reportLoop feedbackTime ssrc count (number + 1) (packets.filter
              fun p => !decide (p.unwrappedSequenceNumber = number)))[i]? = some report := by
            rw [← hdrop]
            exact h
          have hshift : number + ((i + 1 : Nat) : ℤ) = number + 1 + (i : ℤ) := by
            push_cast
            ring
          -- The packets of a later number are still there.
          have hcopies : (packets.filter fun p => !decide (p.unwrappedSequenceNumber = number)).filter
              (fun p => p.unwrappedSequenceNumber = number + 1 + (i : ℤ)) =
              packets.filter fun p => p.unwrappedSequenceNumber = number + 1 + (i : ℤ) := by
            rw [List.filter_filter]
            refine List.filter_congr fun p _ => ?_
            rw [Bool.and_eq_left_iff_imp]
            intro heq
            have hp := of_decide_eq_true heq
            simp only [Bool.not_eq_true', decide_eq_false_iff_not]
            omega
          rw [hshift, ← hcopies]
          exact ih (hsorted.filter _) hlater hrest

/-- The packets are sorted by their numbers. -/
theorem sorted_packets (t : CongestionControlFeedbackTracker) :
    t.sortedPackets.Pairwise fun a b => a.unwrappedSequenceNumber ≤ b.unwrappedSequenceNumber := by
  have hsorted : t.sortedPackets.Pairwise fun a b => infoLe a b = true := by
    refine List.pairwise_mergeSort (fun a b c hab hbc => ?_) (fun a b => ?_) t.packets
    · unfold infoLe at hab hbc ⊢
      rw [decide_eq_true_eq] at hab hbc ⊢
      omega
    · unfold infoLe
      rw [Bool.or_eq_true, decide_eq_true_eq, decide_eq_true_eq]
      omega
  refine hsorted.imp fun hle => ?_
  have hle' := of_decide_eq_true hle
  omega

theorem mem_sorted_packets {p : ReceivedPacketInfo} : p ∈ t.sortedPackets ↔ p ∈ t.packets :=
  List.mem_mergeSort

/-- What a feedback takes from a tracker. -/
theorem add_packets_cases (t : CongestionControlFeedbackTracker) (feedbackTime : ℤ) :
    t.packets = [] ∧ t.addPacketsToFeedback feedbackTime = (t, []) ∧ t.reportCount = 0 ∨
      ∃ first rest newest, t.sortedPackets = first :: rest ∧ newest ∈ t.packets ∧
        (∀ p ∈ t.packets, p.unwrappedSequenceNumber ≤ newest.unwrappedSequenceNumber) ∧
        t.reportCount = (newest.unwrappedSequenceNumber - t.lastReported first).toNat ∧
        t.addPacketsToFeedback feedbackTime =
          ({ t with
              lastSequenceNumberInFeedback := some newest.unwrappedSequenceNumber
              packets := [] },
            t.reportLoop feedbackTime first.ssrc t.reportCount (t.lastReported first + 1)
              (first :: rest)) := by
  unfold addPacketsToFeedback reportCount
  cases hpackets : t.sortedPackets with
  | nil =>
      refine Or.inl ⟨?_, rfl, rfl⟩
      rw [List.eq_nil_iff_forall_not_mem]
      intro p hin
      rw [← mem_sorted_packets, hpackets] at hin
      cases hin
  | cons first rest =>
      refine Or.inr ⟨first, rest, (first :: rest).getLast (by simp), rfl, ?_, fun p hin => ?_, rfl,
        rfl⟩
      · rw [← mem_sorted_packets, hpackets]
        exact List.getLast_mem _
      · rw [← mem_sorted_packets, hpackets] at hin
        have hsorted := t.sorted_packets
        rw [hpackets] at hsorted
        rw [← List.dropLast_append_getLast (List.cons_ne_nil first rest)] at hin hsorted
        rcases List.mem_append.mp hin with hfront | hlast
        · exact (List.pairwise_append.mp hsorted).2.2 p hfront _ (List.mem_singleton_self _)
        · rw [List.mem_singleton.mp hlast]

/-- The packets of the interval lie after the last number that was reported. -/
theorem last_reported_lt (h : Tracks arrived ssrc t) {first : ReceivedPacketInfo}
    {rest : List ReceivedPacketInfo} (hpackets : t.sortedPackets = first :: rest)
    {p : ReceivedPacketInfo} (hin : p ∈ t.packets) :
    t.lastReported first < p.unwrappedSequenceNumber := by
  unfold lastReported
  cases hlast : t.lastSequenceNumberInFeedback with
  | some last => exact h.ahead last hlast p hin
  | none =>
      have hsorted := t.sorted_packets
      rw [← mem_sorted_packets, hpackets] at hin
      rw [hpackets] at hsorted
      have hle : first.unwrappedSequenceNumber ≤ p.unwrappedSequenceNumber := by
        rcases List.mem_cons.mp hin with rfl | hrest
        · exact le_refl _
        · exact (List.pairwise_cons.mp hsorted).1 p hrest
      show first.unwrappedSequenceNumber - 1 < _
      omega

/-- The reports of a feedback from a tracker that has packets, made from the history and the copies
that wait. -/
theorem report_from_copies (h : Tracks arrived ssrc t) {feedbackTime : ℤ} {count : Nat}
    {first : ReceivedPacketInfo} {rest : List ReceivedPacketInfo}
    (hpackets : t.sortedPackets = first :: rest) {i : Nat} {report : PacketInfo}
    (hreport : (t.reportLoop feedbackTime first.ssrc count (t.lastReported first + 1)
      (first :: rest))[i]? = some report) :
    report.ssrc = ssrc ∧
      report.sequenceNumber = BitVec.ofInt 16 (t.lastReported first + 1 + i) ∧
      ∃ copies, (∀ p, p ∈ copies ↔
          p ∈ t.packets ∧ p.unwrappedSequenceNumber = t.lastReported first + 1 + i) ∧
        (report.arrivalTimeOffset, report.ecn) =
          reportOf feedbackTime (t.history (t.lastReported first + 1 + i)) copies := by
  have hmem : ∀ p, p ∈ first :: rest ↔ p ∈ t.packets := fun p => by
    rw [← mem_sorted_packets, hpackets]
  have hsorted := t.sorted_packets
  rw [hpackets] at hsorted
  obtain ⟨hssrc, hnumber, hreported⟩ := report_loop_eq feedbackTime hsorted
    (fun p hp => last_reported_lt h hpackets ((hmem p).mp hp)) hreport
  have hfirst := (h.packets first ((hmem first).mp List.mem_cons_self)).1
  refine ⟨hssrc.trans hfirst, hnumber, _, fun p => ?_, hreported⟩
  rw [List.mem_filter, hmem, decide_eq_true_eq]

/-- Which reports of a feedback are received. -/
theorem report_of_number (h : Tracks arrived ssrc t) {feedbackTime : ℤ} {count : Nat}
    {first : ReceivedPacketInfo} {rest : List ReceivedPacketInfo}
    (hpackets : t.sortedPackets = first :: rest) {i : Nat} {report : PacketInfo}
    (hreport : (t.reportLoop feedbackTime first.ssrc count (t.lastReported first + 1)
      (first :: rest))[i]? = some report) :
    report.ssrc = ssrc ∧
      report.sequenceNumber = BitVec.ofInt 16 (t.lastReported first + 1 + i) ∧
      (report.arrivalTimeOffset.isSome = true ↔
        (t.history (t.lastReported first + 1 + i)).isSome = true ∨
          ∃ p ∈ t.packets, p.unwrappedSequenceNumber = t.lastReported first + 1 + i) := by
  obtain ⟨hssrc, hnumber, copies, hmem, hreported⟩ := report_from_copies h hpackets hreport
  refine ⟨hssrc, hnumber, ?_⟩
  have hoffset : report.arrivalTimeOffset =
      (reportOf feedbackTime (t.history (t.lastReported first + 1 + i)) copies).1 :=
    congrArg Prod.fst hreported
  rw [hoffset, report_of_received]
  refine or_congr Iff.rfl ?_
  refine ⟨fun hne => ?_, fun ⟨p, hp⟩ => List.ne_nil_of_mem ((hmem p).mpr hp)⟩
  obtain ⟨p, hp⟩ := List.exists_mem_of_ne_nil _ hne
  exact ⟨p, (hmem p).mp hp⟩

/-- A feedback leaves nothing that waits, and the tracker goes on. -/
theorem tracks_reported (h : Tracks arrived ssrc t) (feedbackTime : ℤ) :
    Tracks arrived ssrc (t.addPacketsToFeedback feedbackTime).1 ∧
      ∀ key, ¬ (t.addPacketsToFeedback feedbackTime).1.Waits key := by
  rcases t.add_packets_cases feedbackTime with ⟨hnone, heq, -⟩ |
    ⟨first, rest, newest, -, -, -, -, heq⟩
  · rw [heq]
    refine ⟨h, fun key ⟨p, hin, _⟩ => ?_⟩
    rw [hnone] at hin
    cases hin
  · rw [heq]
    refine ⟨⟨h.consistent, fun p hin => ?_, h.history, fun _ _ p hin => ?_⟩,
      fun key ⟨p, hin, _⟩ => ?_⟩
    · cases hin
    · cases hin
    · cases hin

/-- The reports of a feedback: as many as were counted, with consecutive numbers. -/
theorem reports_consecutive (h : Tracks arrived ssrc t) (feedbackTime : ℤ) :
    (t.addPacketsToFeedback feedbackTime).2.length = t.reportCount ∧
      ∃ start : ℤ, ∀ (i : Nat) (report : PacketInfo),
        (t.addPacketsToFeedback feedbackTime).2[i]? = some report →
          report.ssrc = ssrc ∧ report.sequenceNumber = BitVec.ofInt 16 (start + i) := by
  rcases t.add_packets_cases feedbackTime with ⟨-, heq, hcount⟩ |
    ⟨first, rest, newest, hpackets, -, -, -, heq⟩
  · rw [heq, hcount]
    exact ⟨rfl, 0, fun i report hreport => by simp at hreport⟩
  · rw [heq]
    refine ⟨report_loop_length _ _ _ _, t.lastReported first + 1, fun i report hreport => ?_⟩
    obtain ⟨hssrc, hnumber, -⟩ := report_of_number h hpackets hreport
    exact ⟨hssrc, hnumber⟩

/-- Two packets that wait lie less than the reports of the next feedback apart. -/
theorem lt_report_count (h : Tracks arrived ssrc t) {p q : ReceivedPacketInfo}
    (hp : p ∈ t.packets) (hq : q ∈ t.packets) :
    p.unwrappedSequenceNumber - q.unwrappedSequenceNumber < t.reportCount := by
  rcases t.add_packets_cases 0 with ⟨hnone, -, -⟩ |
    ⟨first, rest, newest, hpackets, -, hnewest, hcount, -⟩
  · rw [hnone] at hp
    cases hp
  · have hafter := last_reported_lt h hpackets hq
    have hbefore := hnewest p hp
    omega

/-- The first packet of a tracker makes one report. -/
theorem report_count_first {info : ReceivedPacketInfo} (hpackets : t.packets = [info])
    (hlast : t.lastSequenceNumberInFeedback = none) : t.reportCount = 1 := by
  have hsorted : t.sortedPackets = [info] := by
    unfold sortedPackets
    rw [hpackets, List.mergeSort_singleton]
  unfold reportCount
  rw [hsorted]
  simp [lastReported, hlast]

/-- A report that is received is about a packet that has arrived. -/
theorem report_arrived (h : Tracks arrived ssrc t) {feedbackTime : ℤ} {report : PacketInfo}
    (hin : report ∈ (t.addPacketsToFeedback feedbackTime).2)
    (hreceived : report.arrivalTimeOffset.isSome = true) : arrived report.key := by
  obtain ⟨i, hi⟩ := List.mem_iff_getElem?.mp hin
  rcases t.add_packets_cases feedbackTime with ⟨-, heq, -⟩ |
    ⟨first, rest, newest, hpackets, -, -, -, heq⟩
  · rw [heq] at hi
    simp at hi
  · rw [heq] at hi
    obtain ⟨hssrc, hnumber, hiff⟩ := report_of_number h hpackets hi
    unfold PacketInfo.key
    rw [hssrc, hnumber]
    rcases hiff.mp hreceived with hknown | ⟨p, hp, hpn⟩
    · obtain ⟨info, hinfo⟩ := Option.isSome_iff_exists.mp hknown
      exact h.history _ info hinfo
    · obtain ⟨hpssrc, harrived⟩ := h.packets p hp
      unfold ReceivedPacketInfo.key at harrived
      rwa [hpssrc, hpn] at harrived

/-- A packet that waits is reported as received. -/
theorem waits_reported (h : Tracks arrived ssrc t) (feedbackTime : ℤ)
    {key : SsrcAndRtpSequencenumber} (hwaits : t.Waits key) :
    ∃ report ∈ (t.addPacketsToFeedback feedbackTime).2, report.key = key ∧
      report.arrivalTimeOffset.isSome = true := by
  obtain ⟨p, hp, rfl⟩ := hwaits
  rcases t.add_packets_cases feedbackTime with ⟨hnone, -, -⟩ |
    ⟨first, rest, newest, hpackets, -, hnewest, hcount, heq⟩
  · rw [hnone] at hp
    cases hp
  · have hafter := last_reported_lt h hpackets hp
    have hbefore := hnewest p hp
    obtain ⟨i, hi⟩ : ∃ i : Nat, p.unwrappedSequenceNumber = t.lastReported first + 1 + i :=
      ⟨(p.unwrappedSequenceNumber - (t.lastReported first + 1)).toNat, by omega⟩
    have hlt : i < (t.reportLoop feedbackTime first.ssrc t.reportCount (t.lastReported first + 1)
        (first :: rest)).length := by
      rw [report_loop_length, hcount]
      omega
    obtain ⟨hssrc, hnumber, hiff⟩ :=
      report_of_number h hpackets (List.getElem?_eq_getElem hlt)
    rw [heq]
    refine ⟨_, List.getElem_mem hlt, ?_, hiff.mpr (Or.inr ⟨p, hp, hi⟩)⟩
    unfold PacketInfo.key ReceivedPacketInfo.key
    rw [hssrc, hnumber, (h.packets p hp).1, hi]

end CongestionControlFeedbackTracker

end MiniRtc
