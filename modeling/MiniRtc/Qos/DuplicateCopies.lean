import MiniRtc.Qos.FeedbackTracker

/-!
# Copies of a packet in feedback

What a tracker reports of packets that arrive more than once. `Copies` keeps every copy that was
given to a tracker, and the history of the tracker is their summary: the first arrival of each
number, and whether a copy was marked (`Summarizes`).

The history holds the copies of the interval too, so a report takes the smaller one of the offset of
the first arrival and the offsets of the copies of the interval. The smaller offset is that of the
later arrival: the first arrival is reported where no copy of the interval is later
(`first_arrivals_reported`).
-/

namespace MiniRtc

/-- What happens to a tracker. -/
inductive TrackerInput where
  | packet (sequenceNumber : BitVec 16) (arrivalTime : ℤ) (ecn : EcnMarking)
  | feedback (feedbackTime : ℤ)

/-- All copies that were given to a tracker, and those since the last feedback. -/
structure Copies where
  unwrapper : SeqNumUnwrapper 16 := {}
  all : List ReceivedPacketInfo := []
  interval : List ReceivedPacketInfo := []

namespace Copies

/-- The copies after an input. -/
def step (ssrc : BitVec 32) (c : Copies) : TrackerInput → Copies
  | .packet sequenceNumber arrivalTime ecn =>
      let unwrapped := c.unwrapper.unwrap sequenceNumber
      let info : ReceivedPacketInfo :=
        { ssrc, unwrappedSequenceNumber := unwrapped.2, arrivalTime, ecn }
      { unwrapper := unwrapped.1, all := c.all ++ [info], interval := c.interval ++ [info] }
  | .feedback _ => { c with interval := [] }

/-- The copies of a run. -/
def given (ssrc : BitVec 32) (inputs : List TrackerInput) : Copies :=
  inputs.foldl (step ssrc) {}

/-- The numbers that were given. -/
def numbers (c : Copies) : Finset ℤ :=
  (c.all.map ReceivedPacketInfo.unwrappedSequenceNumber).toFinset

/-- The first arrival of a number. -/
def FirstArrival (c : Copies) (number arrivalTime : ℤ) : Prop :=
  (∃ copy ∈ c.all, copy.unwrappedSequenceNumber = number ∧ copy.arrivalTime = arrivalTime) ∧
    ∀ copy ∈ c.all, copy.unwrappedSequenceNumber = number → arrivalTime ≤ copy.arrivalTime

/-- A copy of the number is marked. -/
def Marked (c : Copies) (number : ℤ) : Prop :=
  ∃ copy ∈ c.all, copy.unwrappedSequenceNumber = number ∧ copy.ecn = .ce

/-- No copy of the interval is later than another copy of its number. -/
def NoLaterCopy (c : Copies) : Prop :=
  ∀ copy ∈ c.interval, ∀ other ∈ c.all,
    other.unwrappedSequenceNumber = copy.unwrappedSequenceNumber →
      copy.arrivalTime ≤ other.arrivalTime

variable {c c' : Copies} {info : ReceivedPacketInfo} {number arrivalTime : ℤ}

theorem mem_numbers : number ∈ c.numbers ↔ ∃ p ∈ c.all, p.unwrappedSequenceNumber = number := by
  simp [numbers]

theorem numbers_snoc (hall : c'.all = c.all ++ [info]) :
    c'.numbers = insert info.unwrappedSequenceNumber c.numbers := by
  ext number
  simp only [mem_numbers, hall, List.mem_append, List.mem_singleton, Finset.mem_insert,
    or_and_right, exists_or, exists_eq_left]
  exact or_comm.trans (or_congr eq_comm Iff.rfl)

/-- A copy of another number changes nothing. -/
theorem snoc_other (hall : c'.all = c.all ++ [info])
    (hne : number ≠ info.unwrappedSequenceNumber) (arrivalTime : ℤ) :
    (c'.FirstArrival number arrivalTime ↔ c.FirstArrival number arrivalTime) ∧
      (c'.Marked number ↔ c.Marked number) := by
  have hmem : ∀ p, p ∈ c'.all ∧ p.unwrappedSequenceNumber = number ↔
      p ∈ c.all ∧ p.unwrappedSequenceNumber = number := by
    intro p
    rw [hall, List.mem_append, List.mem_singleton]
    refine ⟨?_, fun ⟨hin, hp⟩ => ⟨.inl hin, hp⟩⟩
    rintro ⟨hin | rfl, hp⟩
    · exact ⟨hin, hp⟩
    · exact absurd hp.symm hne
  simp only [FirstArrival, Marked, ← and_assoc, hmem, ← and_imp, and_self]

/-- The first copy of a number. -/
theorem first_arrival_new (hall : c'.all = c.all ++ [info])
    (hnew : info.unwrappedSequenceNumber ∉ c.numbers) :
    c'.FirstArrival info.unwrappedSequenceNumber info.arrivalTime ∧
      (c'.Marked info.unwrappedSequenceNumber ↔ info.ecn = .ce) := by
  have honly : ∀ p ∈ c'.all, p.unwrappedSequenceNumber = info.unwrappedSequenceNumber →
      p = info := by
    intro p hin hp
    rw [hall, List.mem_append, List.mem_singleton] at hin
    obtain hin | rfl := hin
    · exact absurd (mem_numbers.mpr ⟨p, hin, hp⟩) hnew
    · rfl
  have hself : info ∈ c'.all := by
    rw [hall]
    exact List.mem_append_right _ List.mem_cons_self
  refine ⟨⟨⟨info, hself, rfl, rfl⟩, fun p hin hp => ?_⟩, ?_, fun hce => ⟨info, hself, rfl, hce⟩⟩
  · rw [honly p hin hp]
  · rintro ⟨p, hin, hp, hce⟩
    rwa [← honly p hin hp]

/-- A further copy of a number. -/
theorem first_arrival_again (hall : c'.all = c.all ++ [info])
    (hfirst : c.FirstArrival info.unwrappedSequenceNumber arrivalTime) :
    c'.FirstArrival info.unwrappedSequenceNumber (min info.arrivalTime arrivalTime) ∧
      (c'.Marked info.unwrappedSequenceNumber ↔
        info.ecn = .ce ∨ c.Marked info.unwrappedSequenceNumber) := by
  obtain ⟨⟨first, hin, hnumber, harrival⟩, hle⟩ := hfirst
  have hmem : ∀ p, p ∈ c'.all ↔ p ∈ c.all ∨ p = info := by
    intro p
    rw [hall, List.mem_append, List.mem_singleton]
  refine ⟨⟨?_, ?_⟩, ?_⟩
  · by_cases hearlier : info.arrivalTime ≤ arrivalTime
    · exact ⟨info, (hmem info).mpr (.inr rfl), rfl, (min_eq_left hearlier).symm⟩
    · refine ⟨first, (hmem first).mpr (.inl hin), hnumber, ?_⟩
      rw [harrival, min_eq_right (le_of_not_ge hearlier)]
  · intro p hp hpnumber
    obtain hp | rfl := (hmem p).mp hp
    · exact (min_le_right _ _).trans (hle p hp hpnumber)
    · exact min_le_left _ _
  · constructor
    · rintro ⟨p, hp, hpnumber, hce⟩
      obtain hp | rfl := (hmem p).mp hp
      · exact .inr ⟨p, hp, hpnumber, hce⟩
      · exact .inl hce
    · rintro (hce | ⟨p, hp, hpnumber, hce⟩)
      · exact ⟨info, (hmem info).mpr (.inr rfl), rfl, hce⟩
      · exact ⟨p, (hmem p).mpr (.inl hp), hpnumber, hce⟩

end Copies

namespace CongestionControlFeedbackTracker

open Copies

/-- A tracker after an input. -/
def step (ssrc : BitVec 32) (t : CongestionControlFeedbackTracker) :
    TrackerInput → CongestionControlFeedbackTracker
  | .packet sequenceNumber arrivalTime ecn =>
      t.receivedPacket ssrc sequenceNumber arrivalTime ecn
  | .feedback feedbackTime => (t.addPacketsToFeedback feedbackTime).1

/-- A tracker after a run. -/
def run (ssrc : BitVec 32) (inputs : List TrackerInput) : CongestionControlFeedbackTracker :=
  inputs.foldl (step ssrc) {}

/-- The reports of a feedback: none without packets since the last one; else consecutive numbers
that cover the packets since then and end with the highest one, each with the first arrival of its
number and the mark of any copy. -/
def ReportsCopies (c : Copies) (feedbackTime : ℤ) (reports : List PacketInfo) : Prop :=
  c.interval = [] ∧ reports = [] ∨
    ∃ (start : ℤ) (newest : ReceivedPacketInfo), newest ∈ c.interval ∧
      (∀ copy ∈ c.interval, start ≤ copy.unwrappedSequenceNumber ∧
        copy.unwrappedSequenceNumber ≤ newest.unwrappedSequenceNumber) ∧
      (reports.length : ℤ) = newest.unwrappedSequenceNumber + 1 - start ∧
      ∀ (i : Nat) (report : PacketInfo), reports[i]? = some report →
        report.sequenceNumber = BitVec.ofInt 16 (start + i) ∧
          ∀ offset, report.arrivalTimeOffset = some offset →
            c.FirstArrival (start + i) (feedbackTime - offset) ∧
              (report.ecn = .ce ↔ c.Marked (start + i))

/-- The history of a tracker is the summary of the copies. -/
structure Summarizes (ssrc : BitVec 32) (t : CongestionControlFeedbackTracker) (c : Copies) :
    Prop where
  tracks : Tracks (fun _ => True) ssrc t
  unwrapper : t.unwrapper = c.unwrapper
  interval : t.packets = c.interval
  kept : ∀ copy ∈ c.interval, copy ∈ c.all
  order : t.historyOrder.Nodup ∧ t.historyOrder.toFinset = c.numbers
  unknown : ∀ number, t.history number = none ↔ number ∉ c.numbers
  known : ∀ number info, t.history number = some info →
    c.FirstArrival number info.arrivalTime ∧ (info.ecn = .ce ↔ c.Marked number)

variable {t : CongestionControlFeedbackTracker} {c : Copies} {ssrc : BitVec 32}

theorem summarizes_new : Summarizes ssrc {} {} where
  tracks := tracks_new
  unwrapper := rfl
  interval := rfl
  kept := fun _ hin => hin
  order := ⟨List.nodup_nil, rfl⟩
  unknown := fun _ => iff_of_true rfl (Finset.notMem_empty _)
  known := fun _ _ hknown => by cases hknown

/-- The history after a packet is the summary with the packet. -/
theorem update_summary (h : Summarizes ssrc t c) {c' : Copies} {info : ReceivedPacketInfo}
    (hall : c'.all = c.all ++ [info]) (hfew : c'.numbers.card ≤ kMaxHistorySize) :
    ((t.updateHistory info).2.Nodup ∧ (t.updateHistory info).2.toFinset = c'.numbers) ∧
      (∀ number, (t.updateHistory info).1 number = none ↔ number ∉ c'.numbers) ∧
      ∀ number known, (t.updateHistory info).1 number = some known →
        c'.FirstArrival number known.arrivalTime ∧ (known.ecn = .ce ↔ c'.Marked number) := by
  obtain ⟨hnodup, hset⟩ := h.order
  have hnumbers := numbers_snoc hall
  cases hold : t.history info.unwrappedSequenceNumber with
  | none =>
      have hnew : info.unwrappedSequenceNumber ∉ c.numbers := (h.unknown _).mp hold
      have hnotin : info.unwrappedSequenceNumber ∉ t.historyOrder := by
        rwa [← List.mem_toFinset, hset]
      have horder : (t.historyOrder ++ [info.unwrappedSequenceNumber]).Nodup :=
        List.nodup_append.mpr ⟨hnodup, List.nodup_singleton _, fun a ha b hb => by
          rw [List.mem_singleton.mp hb]
          exact fun heq => hnotin (heq ▸ ha)⟩
      have hset' : (t.historyOrder ++ [info.unwrappedSequenceNumber]).toFinset = c'.numbers := by
        rw [List.toFinset_append, hset, hnumbers, List.toFinset_cons, List.toFinset_nil,
          Finset.union_comm]
        rfl
      -- The order holds each number once, so nothing is evicted.
      have hlength : ¬ kMaxHistorySize <
          (t.historyOrder ++ [info.unwrappedSequenceNumber]).length := by
        rw [← List.toFinset_card_of_nodup horder, hset']
        exact not_lt.mpr hfew
      have heq : t.updateHistory info =
          (Function.update t.history info.unwrappedSequenceNumber (some info),
            t.historyOrder ++ [info.unwrappedSequenceNumber]) := by
        unfold updateHistory
        simp only [hold, if_neg hlength]
      rw [heq]
      refine ⟨⟨horder, hset'⟩, fun number => ?_, fun number known hknown => ?_⟩
      · by_cases hnumber : number = info.unwrappedSequenceNumber
        · subst hnumber
          simp [hnumbers]
        · simp [hnumbers, hnumber, h.unknown number]
      · by_cases hnumber : number = info.unwrappedSequenceNumber
        · subst hnumber
          simp only [Function.update_self] at hknown
          obtain rfl := Option.some.inj hknown
          obtain ⟨hfirst, hmarked⟩ := first_arrival_new hall hnew
          exact ⟨hfirst, hmarked.symm⟩
        · simp only [Function.update_of_ne hnumber] at hknown
          obtain ⟨hfirst, hmarked⟩ := h.known number known hknown
          obtain ⟨hother, hothermark⟩ := snoc_other hall hnumber known.arrivalTime
          exact ⟨hother.mpr hfirst, hmarked.trans hothermark.symm⟩
  | some known =>
      have hin : info.unwrappedSequenceNumber ∈ c.numbers := by
        by_contra hnot
        rw [(h.unknown _).mpr hnot] at hold
        cases hold
      have hsame : c'.numbers = c.numbers := by
        rw [hnumbers, Finset.insert_eq_of_mem hin]
      obtain ⟨hfirst, hmarked⟩ := h.known _ known hold
      have heq : t.updateHistory info =
          (Function.update t.history info.unwrappedSequenceNumber (some { known with
            arrivalTime := min info.arrivalTime known.arrivalTime
            ecn := if info.ecn = .ce then .ce else known.ecn }), t.historyOrder) := by
        unfold updateHistory
        simp only [hold]
      rw [heq]
      refine ⟨⟨hnodup, hset.trans hsame.symm⟩, fun number => ?_, fun number entry hentry => ?_⟩
      · by_cases hnumber : number = info.unwrappedSequenceNumber
        · subst hnumber
          simp [hsame, hin]
        · simp [Function.update_of_ne hnumber, hsame, h.unknown number]
      · by_cases hnumber : number = info.unwrappedSequenceNumber
        · subst hnumber
          simp only [Function.update_self] at hentry
          obtain rfl := Option.some.inj hentry
          obtain ⟨hfirst', hmarked'⟩ := first_arrival_again hall hfirst
          refine ⟨hfirst', ?_⟩
          rw [hmarked', ← hmarked]
          show (if info.ecn = .ce then EcnMarking.ce else known.ecn) = .ce ↔ _
          split_ifs with hce <;> simp [hce]
        · simp only [Function.update_of_ne hnumber] at hentry
          obtain ⟨hfirst', hmarked'⟩ := h.known number entry hentry
          obtain ⟨hother, hothermark⟩ := snoc_other hall hnumber entry.arrivalTime
          exact ⟨hother.mpr hfirst', hmarked'.trans hothermark.symm⟩

/-- A packet is added to the summary. -/
theorem summarizes_packet (h : Summarizes ssrc t c) (sequenceNumber : BitVec 16)
    (arrivalTime : ℤ) (ecn : EcnMarking)
    (hfew : (c.step ssrc (.packet sequenceNumber arrivalTime ecn)).numbers.card ≤
      kMaxHistorySize) :
    Summarizes ssrc (t.receivedPacket ssrc sequenceNumber arrivalTime ecn)
      (c.step ssrc (.packet sequenceNumber arrivalTime ecn)) := by
  have hall : (c.step ssrc (.packet sequenceNumber arrivalTime ecn)).all = c.all ++
      [{ ssrc, unwrappedSequenceNumber := (t.unwrapper.unwrap sequenceNumber).2, arrivalTime,
         ecn }] := by
    rw [h.unwrapper]
    rfl
  obtain ⟨horder, hunknown, hknown⟩ := update_summary h hall hfew
  refine { tracks := tracks_received h.tracks sequenceNumber arrivalTime ecn trivial
           unwrapper := ?_, interval := ?_, kept := fun copy hin => ?_, order := horder
           unknown := hunknown, known := hknown }
  · show (t.unwrapper.unwrap sequenceNumber).1 = (c.unwrapper.unwrap sequenceNumber).1
    rw [h.unwrapper]
  · show t.packets ++ _ = c.interval ++ _
    rw [h.interval, h.unwrapper]
  · show copy ∈ c.all ++ _
    rcases List.mem_append.mp hin with hold | hnew
    · exact List.mem_append_left _ (h.kept copy hold)
    · exact List.mem_append_right _ hnew

/-- A feedback starts a new interval. -/
theorem summarizes_feedback (h : Summarizes ssrc t c) (feedbackTime : ℤ) :
    Summarizes ssrc (t.addPacketsToFeedback feedbackTime).1
      (c.step ssrc (.feedback feedbackTime)) := by
  have htracks := (tracks_reported h.tracks feedbackTime).1
  have hkept : ∀ copy ∈ (c.step ssrc (.feedback feedbackTime)).interval, copy ∈ c.all :=
    fun _ hin => absurd hin List.not_mem_nil
  rcases t.add_packets_cases feedbackTime with ⟨hnone, heq, -⟩ |
    ⟨first, rest, newest, -, -, -, -, heq⟩
  · rw [heq] at htracks ⊢
    exact { tracks := htracks, unwrapper := h.unwrapper, interval := hnone, kept := hkept
            order := h.order, unknown := h.unknown, known := h.known }
  · rw [heq] at htracks ⊢
    exact { tracks := htracks, unwrapper := h.unwrapper, interval := rfl, kept := hkept
            order := h.order, unknown := h.unknown, known := h.known }

/-- A run whose numbers all fit into the history is summarized. -/
theorem summarizes_run (inputs : List TrackerInput)
    (hfew : (given ssrc inputs).numbers.card ≤ kMaxHistorySize) :
    Summarizes ssrc (run ssrc inputs) (given ssrc inputs) := by
  induction inputs using List.reverseRecOn with
  | nil => exact summarizes_new
  | append_singleton inputs input ih =>
      have hgiven : given ssrc (inputs ++ [input]) = (given ssrc inputs).step ssrc input :=
        List.foldl_concat ..
      have hrun : run ssrc (inputs ++ [input]) = (run ssrc inputs).step ssrc input :=
        List.foldl_concat ..
      rw [hgiven] at hfew ⊢
      rw [hrun]
      cases input with
      | packet sequenceNumber arrivalTime ecn =>
          have hbefore : (given ssrc inputs).numbers.card ≤ kMaxHistorySize := by
            refine le_trans (Finset.card_le_card ?_) hfew
            intro number hin
            obtain ⟨p, hp, hnumber⟩ := mem_numbers.mp hin
            exact mem_numbers.mpr ⟨p, List.mem_append_left _ hp, hnumber⟩
          exact summarizes_packet (ih hbefore) sequenceNumber arrivalTime ecn hfew
      | feedback feedbackTime => exact summarizes_feedback (ih hfew) feedbackTime

/-! ## Reports of copies -/

/-- The offset after further copies is the smallest one, and any copy can mark the report. -/
theorem fold_copies (feedbackTime : ℤ) (later : List ReceivedPacketInfo) (offset : ℤ)
    (ecn : EcnMarking) :
    ∃ smallest marking, later.foldl
        (fun report copy =>
          (earliest report.1 (feedbackTime - copy.arrivalTime),
            if copy.ecn = .ce then .ce else report.2)) (some offset, ecn) =
        (some smallest, marking) ∧
      smallest ≤ offset ∧
      (smallest = offset ↔ ∀ copy ∈ later, offset ≤ feedbackTime - copy.arrivalTime) ∧
      (marking = .ce ↔ ecn = .ce ∨ ∃ copy ∈ later, copy.ecn = .ce) := by
  induction later generalizing offset ecn with
  | nil => exact ⟨offset, ecn, rfl, le_refl _, by simp, by simp⟩
  | cons copy later ih =>
      obtain ⟨smallest, marking, heq, hle, hsame, hmarked⟩ :=
        ih (min offset (feedbackTime - copy.arrivalTime)) (if copy.ecn = .ce then .ce else ecn)
      refine ⟨smallest, marking, heq, hle.trans (min_le_left _ _), ?_, ?_⟩
      · rw [List.forall_mem_cons]
        constructor
        · intro hsmallest
          have hcopy : offset ≤ feedbackTime - copy.arrivalTime := by
            rw [hsmallest] at hle
            exact hle.trans (min_le_right _ _)
          rw [min_eq_left hcopy] at hsame
          exact ⟨hcopy, hsame.mp hsmallest⟩
        · rintro ⟨hcopy, hlater⟩
          rw [min_eq_left hcopy] at hsame
          exact hsame.mpr hlater
      · rw [hmarked, List.exists_mem_cons_iff]
        split_ifs with hce <;> simp [hce]

/-- What is reported of a number that is in the history. -/
theorem report_of_known (feedbackTime : ℤ) (info : ReceivedPacketInfo)
    (copies : List ReceivedPacketInfo) :
    ∃ offset marking, reportOf feedbackTime (some info) copies = (some offset, marking) ∧
      (offset = feedbackTime - info.arrivalTime ↔
        ∀ copy ∈ copies, copy.arrivalTime ≤ info.arrivalTime) ∧
      (marking = .ce ↔ info.ecn = .ce ∨ ∃ copy ∈ copies, copy.ecn = .ce) := by
  cases copies with
  | nil => exact ⟨_, _, rfl, by simp, by simp⟩
  | cons first later =>
      obtain ⟨smallest, marking, heq, hle, hsame, hmarked⟩ := fold_copies feedbackTime later
        (min (feedbackTime - info.arrivalTime) (feedbackTime - first.arrivalTime))
        (if first.ecn = .ce then .ce else if info.ecn = .notEct then first.ecn else info.ecn)
      refine ⟨smallest, marking, heq, ?_, ?_⟩
      · rw [List.forall_mem_cons]
        constructor
        · intro hsmallest
          have hfirst : feedbackTime - info.arrivalTime ≤ feedbackTime - first.arrivalTime := by
            rw [hsmallest] at hle
            exact hle.trans (min_le_right _ _)
          rw [min_eq_left hfirst] at hsame
          refine ⟨by omega, fun copy hin => ?_⟩
          have hcopy := hsame.mp hsmallest copy hin
          omega
        · rintro ⟨hfirst, hlater⟩
          have hfirst' : feedbackTime - info.arrivalTime ≤ feedbackTime - first.arrivalTime := by
            omega
          rw [min_eq_left hfirst'] at hsame
          refine hsame.mpr fun copy hin => ?_
          have hcopy := hlater copy hin
          omega
      · rw [hmarked, List.exists_mem_cons_iff, ← or_assoc]
        refine or_congr ?_ Iff.rfl
        cases first.ecn <;> cases info.ecn <;> simp

/-- A report that is received is that of an entry of the history. It has the first arrival when no
copy of the interval is later, and the mark of any copy in every case. -/
theorem report_summary (h : Summarizes ssrc t c) (feedbackTime : ℤ) {number : ℤ}
    {copies : List ReceivedPacketInfo}
    (hcopies : ∀ p, p ∈ copies ↔ p ∈ t.packets ∧ p.unwrappedSequenceNumber = number) {offset : ℤ}
    {marking : EcnMarking}
    (hreported : (some offset, marking) = reportOf feedbackTime (t.history number) copies) :
    (c.FirstArrival number (feedbackTime - offset) ↔
        ∀ copy ∈ c.interval, copy.unwrappedSequenceNumber = number →
          ∀ other ∈ c.all, other.unwrappedSequenceNumber = number →
            copy.arrivalTime ≤ other.arrivalTime) ∧
      (marking = .ce ↔ c.Marked number) := by
  have hmem : ∀ p, p ∈ copies ↔ p ∈ c.interval ∧ p.unwrappedSequenceNumber = number := by
    intro p
    rw [hcopies, h.interval]
  cases hknown : t.history number with
  | none =>
      -- Without an entry there is no copy, and no offset.
      have hnone : copies = [] := by
        rw [List.eq_nil_iff_forall_not_mem]
        intro p hp
        obtain ⟨hin, hnumber⟩ := (hmem p).mp hp
        exact (h.unknown number).mp hknown (mem_numbers.mpr ⟨p, h.kept p hin, hnumber⟩)
      rw [hknown, hnone] at hreported
      cases congrArg Prod.fst hreported
  | some info =>
      obtain ⟨⟨⟨first, hfirst, hfirstnumber, harrival⟩, hle⟩, hmarked⟩ := h.known number info hknown
      obtain ⟨offset', marking', heq, hsame, hmarking⟩ :=
        report_of_known feedbackTime info copies
      rw [hknown, heq] at hreported
      obtain ⟨rfl, rfl⟩ : offset = offset' ∧ marking = marking' :=
        ⟨Option.some.inj (congrArg Prod.fst hreported), congrArg Prod.snd hreported⟩
      constructor
      · have harrived : c.FirstArrival number (feedbackTime - offset) ↔
            offset = feedbackTime - info.arrivalTime := by
          constructor
          · rintro ⟨⟨p, hp, hpnumber, hparrival⟩, hearliest⟩
            have hbelow := hle p hp hpnumber
            have habove := hearliest first hfirst hfirstnumber
            omega
          · intro heq'
            have hback : feedbackTime - offset = info.arrivalTime := by omega
            rw [hback]
            exact ⟨⟨first, hfirst, hfirstnumber, harrival⟩, hle⟩
        rw [harrived, hsame]
        constructor
        · intro hcopy copy hin hnumber other hother hothernumber
          exact (hcopy copy ((hmem copy).mpr ⟨hin, hnumber⟩)).trans (hle other hother hothernumber)
        · intro hcopy copy hin
          obtain ⟨hin, hnumber⟩ := (hmem copy).mp hin
          rw [← harrival]
          exact hcopy copy hin hnumber first hfirst hfirstnumber
      · rw [hmarking, hmarked]
        refine ⟨?_, fun hce => .inl hce⟩
        rintro (hce | ⟨copy, hin, hce⟩)
        · exact hce
        · obtain ⟨hin, hnumber⟩ := (hmem copy).mp hin
          exact ⟨copy, h.kept copy hin, hnumber, hce⟩

/-- A feedback of a tracker that summarizes the copies reports them where no copy of the interval is
later than another one. -/
theorem reports_copies_iff (h : Summarizes ssrc t c) (feedbackTime : ℤ) :
    ReportsCopies c feedbackTime (t.addPacketsToFeedback feedbackTime).2 ↔ c.NoLaterCopy := by
  rcases t.add_packets_cases feedbackTime with ⟨hnone, heq, -⟩ |
    ⟨first, rest, newest, hpackets, hnewest, hle, hcount, heq⟩
  · have hinterval : c.interval = [] := by rw [← h.interval, hnone]
    rw [heq]
    refine iff_of_true (.inl ⟨hinterval, rfl⟩) fun copy hin => ?_
    rw [hinterval] at hin
    cases hin
  · have hafter : ∀ p ∈ t.packets, t.lastReported first < p.unwrappedSequenceNumber :=
      fun p hin => last_reported_lt h.tracks hpackets hin
    have hlength : ((t.reportLoop feedbackTime first.ssrc t.reportCount (t.lastReported first + 1)
        (first :: rest)).length : ℤ) = newest.unwrappedSequenceNumber - t.lastReported first := by
      have hpositive := hafter newest hnewest
      rw [report_loop_length, hcount]
      omega
    rw [h.interval] at hnewest hle hafter
    rw [heq]
    constructor
    · rintro (⟨hinterval, -⟩ | ⟨start, last, hlast, hrange, hreports, hall⟩)
      · rw [hinterval] at hnewest
        cases hnewest
      · -- The length of the report fixes where it starts, and so which entry is about the copy.
        intro copy hin other hother hnumber
        have hends : last.unwrappedSequenceNumber = newest.unwrappedSequenceNumber :=
          le_antisymm (hle last hlast) (hrange newest hnewest).2
        have hstart : start = t.lastReported first + 1 := by
          have hcounted := hlength.symm.trans hreports
          omega
        have hcopy := hle copy hin
        have hcopy' := hafter copy hin
        obtain ⟨i, hi⟩ : ∃ i : Nat,
            copy.unwrappedSequenceNumber = t.lastReported first + 1 + i :=
          ⟨(copy.unwrappedSequenceNumber - (t.lastReported first + 1)).toNat, by omega⟩
        have hlt : i < (t.reportLoop feedbackTime first.ssrc t.reportCount
            (t.lastReported first + 1) (first :: rest)).length := by
          omega
        have hget := List.getElem?_eq_getElem hlt
        obtain ⟨-, -, hreceived⟩ := report_of_number h.tracks hpackets hget
        obtain ⟨-, -, copies, hcopies, hreported⟩ := report_from_copies h.tracks hpackets hget
        rw [← h.interval] at hin
        obtain ⟨offset, hoffset⟩ :=
          Option.isSome_iff_exists.mp (hreceived.mpr (.inr ⟨copy, hin, hi⟩))
        rw [hoffset] at hreported
        have hfirst := ((hall i _ hget).2 offset hoffset).1
        rw [hstart] at hfirst
        rw [h.interval] at hin
        exact (report_summary h feedbackTime hcopies hreported).1.mp hfirst copy hin hi other
          hother (hnumber.trans hi)
    · intro hnolater
      refine .inr ⟨t.lastReported first + 1, newest, hnewest,
        fun copy hin => ⟨hafter copy hin, hle copy hin⟩, ?_, fun i report hreport => ?_⟩
      · show ((t.reportLoop feedbackTime first.ssrc t.reportCount (t.lastReported first + 1)
          (first :: rest)).length : ℤ) = _
        omega
      · obtain ⟨-, hnumber, copies, hcopies, hreported⟩ :=
          report_from_copies h.tracks hpackets hreport
        refine ⟨hnumber, fun offset hoffset => ?_⟩
        rw [hoffset] at hreported
        obtain ⟨hfirst, hmarked⟩ := report_summary h feedbackTime hcopies hreported
        refine ⟨hfirst.mpr fun copy hin hcopy other hother hothernumber => ?_, hmarked⟩
        exact hnolater copy hin other hother (hothernumber.trans hcopy.symm)

/-- In every run whose numbers fit into the history, a feedback reports the first arrivals exactly
when no copy of the interval is later than another copy of its number. -/
theorem first_arrivals_reported (ssrc : BitVec 32) (inputs : List TrackerInput)
    (feedbackTime : ℤ) (hfew : (given ssrc inputs).numbers.card ≤ kMaxHistorySize) :
    ReportsCopies (given ssrc inputs) feedbackTime
        ((run ssrc inputs).addPacketsToFeedback feedbackTime).2 ↔
      (given ssrc inputs).NoLaterCopy :=
  reports_copies_iff (summarizes_run inputs hfew) feedbackTime

/-- A packet that comes late, between two feedbacks. -/
theorem first_arrivals_reported_reordered :
    (given 0 [.packet 1 10 .ect1, .packet 3 20 .ect1, .feedback 25,
        .packet 2 30 .ce]).numbers.card ≤ kMaxHistorySize ∧
      ReportsCopies (given 0 [.packet 1 10 .ect1, .packet 3 20 .ect1, .feedback 25,
          .packet 2 30 .ce]) 40
        ((run 0 [.packet 1 10 .ect1, .packet 3 20 .ect1, .feedback 25,
          .packet 2 30 .ce]).addPacketsToFeedback 40).2 := by
  have hfew : (given 0 [.packet 1 10 .ect1, .packet 3 20 .ect1, .feedback 25,
      .packet 2 30 .ce]).numbers.card ≤ kMaxHistorySize := by decide +kernel
  refine ⟨hfew, (first_arrivals_reported 0 _ 40 hfew).mpr ?_⟩
  have hall : ∀ copy ∈ (given 0 [.packet 1 10 .ect1, .packet 3 20 .ect1, .feedback 25,
      .packet 2 30 .ce]).interval, ∀ other ∈ (given 0 [.packet 1 10 .ect1,
      .packet 3 20 .ect1, .feedback 25, .packet 2 30 .ce]).all,
      other.unwrappedSequenceNumber = copy.unwrappedSequenceNumber →
        copy.arrivalTime ≤ other.arrivalTime := by decide +kernel
  exact hall

/-- Two copies of a packet in one interval: the arrival of the second one is reported. -/
theorem second_arrival_reported :
    (given 0 [.packet 1 10 .ect1, .packet 1 20 .ect1]).numbers.card ≤ kMaxHistorySize ∧
      ¬ ReportsCopies (given 0 [.packet 1 10 .ect1, .packet 1 20 .ect1]) 30
        ((run 0 [.packet 1 10 .ect1, .packet 1 20 .ect1]).addPacketsToFeedback 30).2 := by
  have hfew : (given 0 [.packet 1 10 .ect1, .packet 1 20 .ect1]).numbers.card ≤
      kMaxHistorySize := by decide +kernel
  refine ⟨hfew, fun hreports => ?_⟩
  have hlater : ¬ ∀ copy ∈ (given 0 [.packet 1 10 .ect1, .packet 1 20 .ect1]).interval,
      ∀ other ∈ (given 0 [.packet 1 10 .ect1, .packet 1 20 .ect1]).all,
      other.unwrappedSequenceNumber = copy.unwrappedSequenceNumber →
        copy.arrivalTime ≤ other.arrivalTime := by decide +kernel
  exact hlater ((reports_copies_iff (summarizes_run _ hfew) 30).mp hreports)

end CongestionControlFeedbackTracker

end MiniRtc
