import MiniRtc.Video.Accounting

/-!
# Frames after a loss

With retransmission, a frame that is no key frame is handed over only when nothing is missing since
the frame before. The receiver keeps to this as long as it remembers what is missing. A missing
packet is remembered in the NACK list, or the receiver waits for a key frame instead. `Ledger`
runs a session next to what has to be remembered: the gaps after the position `low`, where the
frame that was handed over last ends, except those up to `cleared`, which were given up while
waiting. `KeepsGaps` lists where the receiver forgets a gap without waiting for a key frame behind
it, and `no_frame_across_loss` says that there are no other ways.
-/

namespace MiniRtc

open Circle RtpVideoReceiver FrameAssembly VideoSession

instance (s : RtpVideoReceiver) (seqNum : BitVec 16) : Decidable (s.Overflows seqNum) :=
  inferInstanceAs (Decidable (_ ∧ _ ∧ _ ∧ _))

namespace VideoSession

/-- The frame that a step hands over. -/
def delivery? (s : VideoSession) (action : ℤ × Action) : Option Delivery :=
  ((s.step action).delivered.drop s.delivered.length).head?

theorem delivery_of_append {s : VideoSession} {action : ℤ × Action} (more : List Delivery)
    (h : (s.step action).delivered = s.delivered ++ more) : s.delivery? action = more.head? := by
  simp [delivery?, h]

/-- What a step does that reports a packet. -/
theorem report_step {s : VideoSession} (hrtx : s.receiver.rtxEnabled = true)
    {action : ℤ × Action} {seqNum : BitVec 16} {isRecovered : Bool}
    (hreport : s.report? action = some (seqNum, isRecovered)) :
    ∃ now pending,
      (s.step action).receiver.nack =
        { (s.receiver.nack.onReceivedPacket now seqNum isRecovered).1 with
          keyframeRequestPending := pending } ∧
      (s.receiver.awaitingKeyframe = true → (s.step action).receiver.awaitingKeyframe = true) ∧
      (isRecovered = false → s.receiver.Overflows seqNum →
        (s.step action).receiver.awaitingKeyframe = true) ∧
      s.delivery? action = none := by
  obtain ⟨now, action⟩ := action
  cases action with
  | onReceiveRtpPacket datagram firSent =>
      have hidle : s.outstanding .ingestion = [] := by
        by_contra hbusy
        simp [report?, hbusy] at hreport
      simp only [report?, hidle, if_true] at hreport
      have hdelivered : s.delivery? (now, .onReceiveRtpPacket datagram firSent) = none :=
        delivery_of_append [] (by simp [step, hidle])
      rcases receive_nack hrtx now firSent datagram with
        ⟨hnone, -⟩ | ⟨seqNum', isRecovered', pending, hsome, hnack, -, hoverflow⟩
      · simp [hnone] at hreport
      · obtain ⟨rfl, rfl⟩ := Prod.mk.inj (Option.some.inj (hsome.symm.trans hreport))
        refine ⟨now, pending, ?_, ?_, ?_, hdelivered⟩
        · simp only [step, hidle, if_true]
          exact hnack
        · simp only [step, hidle, if_true]
          exact receive_keeps_awaiting
        · simp only [step, hidle, if_true]
          exact hoverflow
  | sendDatagram | process | processIterate | requestKeyFrame | onRttUpdate
  | onSenderReport => simp [report?] at hreport

/-- The steps that neither receive a packet nor run the loop hand nothing over. -/
theorem quiet_step (s : VideoSession) (now : ℤ) {action : Action}
    (hreceive : ∀ datagram firSent, action ≠ .onReceiveRtpPacket datagram firSent)
    (hround : ∀ firSent, action ≠ .processIterate firSent) :
    (s.step (now, action)).receiver.pendingFrames = s.receiver.pendingFrames ∧
      (s.receiver.awaitingKeyframe = true →
        (s.step (now, action)).receiver.awaitingKeyframe = true) ∧
      s.delivery? (now, action) = none := by
  have heffect := s.step_effect (now, action)
  generalize hstep : s.step (now, action) = s' at heffect ⊢
  cases heffect with
  | receive now datagram firSent => exact absurd rfl (hreceive datagram firSent)
  | round now firSent => exact absurd rfl (hround firSent)
  | quiet _ _ _ _ _ _ _ _ _ _ hawaiting =>
      exact ⟨rfl, hawaiting, delivery_of_append [] (by simp [hstep])⟩

/-- What a round of the loop hands over. -/
theorem round_step {s : VideoSession} (now : ℤ) (firSent : Bool) {timing : FrameRecoveryTiming}
    (hprocessing : s.processing = some timing) (hworker : s.outstanding .worker = []) :
    ∃ iteration, Round s.receiver timing now iteration ∧
      (s.step (now, .processIterate firSent)).receiver = iteration.receiver ∧
      s.delivery? (now, .processIterate firSent) = iteration.delivered := by
  refine ⟨_, s.receiver.process_iterate_round timing now firSent, ?_, ?_⟩
  · simp [step, hprocessing, hworker]
  · rw [delivery_of_append (s.receiver.processIterate timing now firSent).delivered.toList
      (by simp [step, hprocessing, hworker])]
    cases (s.receiver.processIterate timing now firSent).delivered <;> rfl

/-- The last sequence number of the frame that a step gives up at the hard deadline. -/
def abandoned? (s : VideoSession) : ℤ × Action → Option (BitVec 16)
  | (now, .processIterate _) =>
      match s.processing, s.receiver.pendingFrames with
      | some timing, (_, frame) :: _ =>
          if s.outstanding .worker = [] ∧ s.receiver.processBranch timing now = .hardTimeout then
            frame.lastSequenceNumber
          else none
      | _, _ => none
  | _ => none

theorem abandoned_of_ne {s : VideoSession} {now : ℤ} {firSent : Bool}
    {timing : FrameRecoveryTiming} (hprocessing : s.processing = some timing)
    (hbranch : s.receiver.processBranch timing now ≠ .hardTimeout) :
    s.abandoned? (now, .processIterate firSent) = none := by
  unfold abandoned?
  cases s.receiver.pendingFrames with
  | nil => simp [hprocessing]
  | cons entry newer => simp [hprocessing, hbranch]

theorem abandoned_of_timeout {s : VideoSession} {now : ℤ} (firSent : Bool)
    {timing : FrameRecoveryTiming} {timestamp : BitVec 32} {frame : PendingFrame}
    {newer : List (BitVec 32 × PendingFrame)} (hprocessing : s.processing = some timing)
    (hworker : s.outstanding .worker = [])
    (hpending : s.receiver.pendingFrames = (timestamp, frame) :: newer)
    (hbranch : s.receiver.processBranch timing now = .hardTimeout) :
    s.abandoned? (now, .processIterate firSent) = frame.lastSequenceNumber := by
  simp [abandoned?, hprocessing, hworker, hpending, hbranch]

end VideoSession

/-- A session with its positions: the gaps after `low` matter, except those up to `cleared` while
the receiver waits for a key frame. `last` is where the frame that was handed over last ends. -/
structure Ledger extends Positioned where
  low : ℤ := 0
  cleared : Option ℤ := none
  last : Option ℤ := none

namespace Ledger

/-- The position of a sequence number. -/
def positionOf (a : Ledger) (seqNum : BitVec 16) : ℤ :=
  a.nack.positionOf a.newest seqNum

/-- The newest position after a reception. -/
def newestAfter (a : Ledger) (seqNum : BitVec 16) (isRecovered : Bool) : ℤ :=
  a.nack.newestAfter a.newest seqNum isRecovered

/-- Where the frame ends that a step hands over. -/
def deliveredUpTo? (a : Ledger) (action : ℤ × Action) : Option ℤ :=
  ((a.session.delivery? action).bind Delivery.lastSequenceNumber).map a.positionOf

/-- The gaps up to here were given up: the list overflowed, or a frame was given up. -/
def clearedAfter (a : Ledger) (action : ℤ × Action) : Option ℤ :=
  match a.session.report? action, a.session.abandoned? action with
  | some (seqNum, isRecovered), _ =>
      if isRecovered = false ∧ a.session.receiver.Overflows seqNum then
        some (a.newestAfter seqNum isRecovered)
      else a.cleared
  | none, some last => some (max (a.positionOf last) (a.cleared.getD (a.positionOf last)))
  | none, none => a.cleared

/-- The gaps matter from here on: after the frame that is handed over, and from the first
packet on. -/
def lowAfter (a : Ledger) (action : ℤ × Action) : ℤ :=
  match a.deliveredUpTo? action, a.session.report? action with
  | some position, _ => position
  | none, some (seqNum, _) => if a.nack.initialized then a.low else a.positionOf seqNum - 1
  | none, none => a.low

/-- A step of the session. -/
def step (a : Ledger) (action : ℤ × Action) : Ledger :=
  { toPositioned := a.toPositioned.step action
    low := a.lowAfter action
    cleared := a.clearedAfter action
    last := (a.deliveredUpTo? action).or a.last }

/-- A new session. -/
def start (remoteSsrc rtxSsrc : BitVec 32) (mediaPayloadType : Byte) : Ledger :=
  { toPositioned := Positioned.start remoteSsrc rtxSsrc mediaPayloadType }

/-- No gap is forgotten in this step. -/
structure KeepsGaps (a : Ledger) (action : ℤ × Action) : Prop where
  /-- The age limit takes no gap off the list. -/
  young : ∀ seqNum, a.session.report? action = some (seqNum, false) →
    a.nack.Advances seqNum false → ∀ q, a.low < q → a.nack.Listed a.newest q →
      a.newestAfter seqNum false - kMaxPacketAge ≤ q
  /-- A skipped number is in `recoveredList` only when its packet arrived. -/
  recovered : ∀ seqNum, a.session.report? action = some (seqNum, false) →
    a.nack.Advances seqNum false → ∀ q, a.newest < q → q < a.newestAfter seqNum false →
      (OrderedMap.find? descendingSeqNumComp id (BitVec.ofInt 16 q)
        a.nack.recoveredList).isSome = true → q ∈ a.received
  /-- The retry limit takes no gap off the list. -/
  retries : ∀ now producer, action = (now, .sendDatagram producer true) →
    ∀ entry ∈ a.nack.nackList,
      entry.1 ∈ (a.session.outstanding producer).take kMaxNackIdsPerRtcpPacket →
      a.low < a.positionOf entry.1 → entry.2.retries + 1 < kMaxNackRetries
  /-- A frame does not end before the one that was handed over last, or before the first packet,
  unless everything in between arrived. -/
  ordered : ∀ position, a.deliveredUpTo? action = some position →
    ∀ q, position < q → q ≤ a.low → q ∈ a.received
  /-- A frame that is no key frame does not end ahead of the newest packet. -/
  behind : ∀ delivery last, a.session.delivery? action = some delivery →
    delivery.isKeyframe = false → delivery.lastSequenceNumber = some last →
      aheadOf last a.nack.newestSeqNum = false
  /-- The key frame that was waited for does not end before a gap that was given up. -/
  keyframe : ∀ position cleared, a.deliveredUpTo? action = some position →
    a.session.receiver.awaitingKeyframe = true → a.cleared = some cleared → cleared ≤ position

/-- A frame that is no key frame is handed over only when everything arrived since the frame
before. -/
def NothingMissing (a : Ledger) (action : ℤ × Action) : Prop :=
  ∀ delivery, a.session.delivery? action = some delivery → delivery.isKeyframe = false →
    ∃ lastSequenceNumber, delivery.lastSequenceNumber = some lastSequenceNumber ∧
      ∀ last, a.last = some last → ∀ q, last < q → q ≤ a.positionOf lastSequenceNumber →
        q ∈ a.received

/-- A gap is remembered: the packet arrived, it is in the NACK list, or the receiver waits for a key
frame behind it. -/
def Remembers (a : Ledger) (q : ℤ) : Prop :=
  q ∈ a.received ∨ a.nack.Listed a.newest q ∨
    (a.session.receiver.awaitingKeyframe = true ∧ ∃ cleared, a.cleared = some cleared ∧
      q ≤ cleared)

/-- All gaps that matter are remembered. -/
structure Sound (a : Ledger) : Prop where
  consistent : a.toPositioned.Consistent
  filled : Filled a.session.receiver.pendingFrames
  started : a.session.receiver.pendingFrames ≠ [] → a.nack.initialized = true
  last : ∀ last, a.last = some last → last = a.low ∧ a.nack.initialized = true
  remembers : a.nack.initialized = true → ∀ q, a.low < q → q ≤ a.newest → a.Remembers q

section Quiet

variable {a : Ledger} {action : ℤ × Action}

/-- The packets that arrived stay so. -/
theorem received_step {q : ℤ} (hq : q ∈ a.received) : q ∈ (a.step action).received := by
  simp only [step, Positioned.step]
  split
  · exact hq
  · exact List.mem_cons_of_mem _ hq

/-- A step that hands nothing over, gives no frame up and reports no packet keeps the gaps when
the list keeps them. -/
theorem Sound.quiet (h : a.Sound) (hdelivery : a.session.delivery? action = none)
    (habandoned : a.session.abandoned? action = none)
    (hreport : a.session.report? action = none)
    (hpending : (a.session.step action).receiver.pendingFrames ≠ [] →
      a.session.receiver.pendingFrames ≠ [])
    (hawaiting : a.session.receiver.awaitingKeyframe = true →
      (a.session.step action).receiver.awaitingKeyframe = true)
    (hinit : (a.session.step action).receiver.nack.initialized = a.nack.initialized)
    (hlisted : ∀ q, a.low < q → a.nack.Listed a.newest q →
      (a.session.step action).receiver.nack.Listed a.newest q) : (a.step action).Sound := by
  have hupTo : a.deliveredUpTo? action = none := by simp [deliveredUpTo?, hdelivery]
  have hlow : (a.step action).low = a.low := by simp [step, lowAfter, hupTo, hreport]
  have hnewest : (a.step action).newest = a.newest := by simp [step, Positioned.step, hreport]
  have hcleared : (a.step action).cleared = a.cleared := by
    simp [step, clearedAfter, hreport, habandoned]
  have hlast : (a.step action).last = a.last := by simp [step, hupTo]
  refine ⟨Positioned.step_consistent h.consistent action, filled_step h.filled action, ?_, ?_, ?_⟩
  · exact fun hne => hinit.trans (h.started (hpending hne))
  · intro last hsome
    rw [hlast] at hsome
    rw [hlow]
    exact ⟨(h.last last hsome).1, hinit.trans (h.last last hsome).2⟩
  · intro hstarted q hq hle
    rw [hlow] at hq
    rw [hnewest] at hle
    rcases h.remembers (hinit.symm.trans hstarted) q hq hle with hin | hold | ⟨hwait, hgone⟩
    · exact Or.inl (received_step hin)
    · refine Or.inr (Or.inl ?_)
      rw [hnewest]
      exact hlisted q hq hold
    · refine Or.inr (Or.inr ⟨hawaiting hwait, ?_⟩)
      rw [hcleared]
      exact hgone

/-- A step in which nothing is handed over has nothing missing. -/
theorem nothing_missing_of_none (hdelivery : a.session.delivery? action = none) :
    a.NothingMissing action := by
  intro delivery hsome
  simp [hdelivery] at hsome

end Quiet

section Report

variable {a : Ledger} {action : ℤ × Action} {seqNum : BitVec 16} {isRecovered : Bool}

/-- The first packet starts the ledger. -/
theorem Sound.first (h : a.Sound)
    (hreport : a.session.report? action = some (seqNum, isRecovered))
    (hinit : a.nack.initialized = false) : (a.step action).Sound := by
  obtain ⟨now, pending, hnack, -, -, hdelivery⟩ := report_step h.consistent.rtx hreport
  obtain ⟨packet, harrival, rfl⟩ := Positioned.arrival_of_report (a := a.toPositioned) hreport
  have hupTo : a.deliveredUpTo? action = none := by simp [deliveredUpTo?, hdelivery]
  have hlow : (a.step action).low = a.positionOf packet.sequenceNumber - 1 := by
    simp [step, lowAfter, hupTo, hreport, hinit]
  have hnewest : (a.step action).newest = a.positionOf packet.sequenceNumber := by
    simp [step, Positioned.step, hreport, NackRequester.newestAfter, hinit, positionOf]
  have hstarted : (a.step action).nack.initialized = true := by
    change (a.session.step action).receiver.nack.initialized = true
    rw [hnack]
    exact a.nack.on_received_packet_started now packet.sequenceNumber isRecovered
  refine ⟨Positioned.step_consistent h.consistent action, filled_step h.filled action,
    fun _ => hstarted, ?_, ?_⟩
  · intro last hsome
    have hold : a.last = some last := by simpa [step, hupTo] using hsome
    simp [(h.last last hold).2] at hinit
  · intro _ q hq hle
    obtain rfl : q = a.positionOf packet.sequenceNumber := by omega
    refine Or.inl ?_
    simp only [step, Positioned.step, harrival]
    exact List.mem_cons_self

/-- A later packet keeps the gaps. -/
theorem Sound.later (h : a.Sound) (hkeeps : a.KeepsGaps action)
    (hreport : a.session.report? action = some (seqNum, isRecovered))
    (hinit : a.nack.initialized = true) : (a.step action).Sound := by
  obtain ⟨now, pending, hnack, hkept, hoverflow, hdelivery⟩ :=
    report_step h.consistent.rtx hreport
  obtain ⟨packet, harrival, rfl⟩ := Positioned.arrival_of_report (a := a.toPositioned) hreport
  have hupTo : a.deliveredUpTo? action = none := by simp [deliveredUpTo?, hdelivery]
  have hlow : (a.step action).low = a.low := by
    simp [step, lowAfter, hupTo, hreport, hinit]
  have hnewest : (a.step action).newest = a.newestAfter packet.sequenceNumber isRecovered := by
    simp [step, Positioned.step, hreport, newestAfter]
  have hreceived : (a.step action).received =
      a.positionOf packet.sequenceNumber :: a.received := by
    simp [step, Positioned.step, harrival, positionOf]
  have hstarted : (a.step action).nack.initialized = true := by
    change (a.session.step action).receiver.nack.initialized = true
    rw [hnack]
    exact a.nack.on_received_packet_started now packet.sequenceNumber isRecovered
  have hlisted : ∀ q, (a.nack.onReceivedPacket now packet.sequenceNumber isRecovered).1.Listed
      (a.newestAfter packet.sequenceNumber isRecovered) q →
      (a.step action).nack.Listed (a.step action).newest q := by
    intro q hq
    rw [hnewest]
    change (a.session.step action).receiver.nack.Listed _ q
    rw [hnack]
    exact hq
  refine ⟨Positioned.step_consistent h.consistent action, filled_step h.filled action,
    fun _ => hstarted, ?_, ?_⟩
  · intro last hsome
    have hold : a.last = some last := by simpa [step, hupTo] using hsome
    rw [hlow]
    exact ⟨(h.last last hold).1, hstarted⟩
  · intro _ q hq hle
    rw [hlow] at hq
    rw [hnewest] at hle
    by_cases hself : q = a.positionOf packet.sequenceNumber
    · refine Or.inl ?_
      rw [hreceived, hself]
      exact List.mem_cons_self
    by_cases hfull : isRecovered = false ∧ a.session.receiver.Overflows packet.sequenceNumber
    · -- the list is cleared and the receiver waits for a key frame behind all of it
      refine Or.inr (Or.inr ⟨hoverflow hfull.1 hfull.2, _, ?_, hle⟩)
      simp [step, clearedAfter, hreport, hfull]
    have hcleared : (a.step action).cleared = a.cleared := by
      simp [step, clearedAfter, hreport, hfull]
    have hroom : isRecovered = false →
        aheadOf packet.sequenceNumber a.nack.newestSeqNum = true →
        a.nack.Advances packet.sequenceNumber false := by
      intro horiginal hahead
      refine ⟨hinit, rfl, hahead, fun hfits => hfull ⟨horiginal, ?_⟩⟩
      exact ⟨h.consistent.rtx, hinit, hahead, hfits⟩
    by_cases hold : q ≤ a.newest
    · rcases h.remembers hinit q hq hold with hin | hin | ⟨hwait, hgone⟩
      · exact Or.inl (received_step hin)
      · refine Or.inr (Or.inl (hlisted q (NackRequester.listed_received h.consistent.wellFormed
          h.consistent.located hin hself ?_)))
        rintro rfl hahead
        have hadvances := hroom rfl hahead
        exact ⟨hadvances.room, hkeeps.young _ hreport hadvances q hq hin⟩
      · refine Or.inr (Or.inr ⟨hkept hwait, ?_⟩)
        rw [hcleared]
        exact hgone
    · -- the position was skipped just now
      have hmoves : a.newest < a.nack.newestAfter a.newest packet.sequenceNumber isRecovered :=
        lt_of_lt_of_le (not_le.mp hold) hle
      obtain ⟨rfl, hahead, heq⟩ := NackRequester.ahead_of_newest_after hinit hmoves
      have hadvances := hroom rfl hahead
      have hlt : q < a.newestAfter packet.sequenceNumber false :=
        lt_of_le_of_ne hle fun hlast => hself (hlast.trans heq)
      cases hfind : OrderedMap.find? descendingSeqNumComp id (BitVec.ofInt 16 q)
          a.nack.recoveredList with
      | none =>
          exact Or.inr (Or.inl (hlisted q (NackRequester.listed_skipped h.consistent.wellFormed
            h.consistent.located hadvances (not_le.mp hold) hlt hfind)))
      | some found =>
          exact Or.inl (received_step (hkeeps.recovered _ hreport hadvances q (not_le.mp hold) hlt
            (by simp [hfind])))

end Report

/-! ## Rounds of the loop in `Process` -/

section Round

variable {a : Ledger} {now : ℤ} {firSent : Bool} {timing : FrameRecoveryTiming}

/-- After a frame was handed over, the gaps behind it matter. -/
theorem Sound.handOver (h : a.Sound) (hkeeps : a.KeepsGaps (now, .processIterate firSent))
    {delivery : Delivery} {last : BitVec 16}
    (hdelivery : a.session.delivery? (now, .processIterate firSent) = some delivery)
    (hend : delivery.lastSequenceNumber = some last)
    (hinit : (a.step (now, .processIterate firSent)).nack.initialized = true)
    (hremembers : ∀ q, a.low < q → q ≤ a.newest → a.positionOf last < q →
      q ∈ a.received ∨ (a.step (now, .processIterate firSent)).nack.Listed a.newest q) :
    (a.step (now, .processIterate firSent)).Sound := by
  have hupTo : a.deliveredUpTo? (now, .processIterate firSent) = some (a.positionOf last) := by
    simp [deliveredUpTo?, hdelivery, hend]
  have hlow : (a.step (now, .processIterate firSent)).low = a.positionOf last := by
    simp [step, lowAfter, hupTo]
  refine ⟨Positioned.step_consistent h.consistent _, filled_step h.filled _, fun _ => hinit, ?_,
    ?_⟩
  · intro position hsome
    have heq : a.positionOf last = position := by simpa [step, hupTo] using hsome
    rw [hlow, heq]
    exact ⟨rfl, hinit⟩
  · intro _ q hq hle
    rw [hlow] at hq
    change q ≤ a.newest at hle
    by_cases hbefore : q ≤ a.low
    · exact Or.inl (hkeeps.ordered _ hupTo q hq hbefore)
    · rcases hremembers q (not_le.mp hbefore) hle hq with hin | hlisted
      · exact Or.inl hin
      · exact Or.inr (Or.inl hlisted)

/-- A frame that is handed over without waiting has nothing missing before it. -/
theorem Sound.nothing_missing (h : a.Sound) (hkeeps : a.KeepsGaps (now, .processIterate firSent))
    {delivery : Delivery} {last : BitVec 16}
    (hdelivery : a.session.delivery? (now, .processIterate firSent) = some delivery)
    (hend : delivery.lastSequenceNumber = some last)
    (hawaiting : a.session.receiver.awaitingKeyframe = false)
    (hclear : a.nack.hasPendingNacksUpTo last = false) (hinit : a.nack.initialized = true) :
    a.NothingMissing (now, .processIterate firSent) := by
  intro other hother hdelta
  obtain rfl := Option.some.inj (hother.symm.trans hdelivery)
  refine ⟨last, hend, ?_⟩
  intro position hposition q hq hle
  obtain ⟨rfl, -⟩ := h.last position hposition
  have hbehind := hkeeps.behind _ _ hdelivery hdelta hend
  have hnewest : a.positionOf last ≤ a.newest := by
    rw [positionOf, NackRequester.position_of_not_ahead hinit hbehind]
    omega
  rcases h.remembers hinit q hq (hle.trans hnewest) with hin | hlisted | ⟨hwait, -⟩
  · exact hin
  · have hblocks := NackRequester.has_pending_nacks_of_listed h.consistent.wellFormed hlisted hle
      hbehind
    simp [hclear] at hblocks
  · simp [hawaiting] at hwait

/-- A round that leaves the NACK list alone and hands nothing over. -/
theorem Sound.quiet_round (h : a.Sound) (hprocessing : a.session.processing = some timing)
    (hbranch : a.session.receiver.processBranch timing now ≠ .hardTimeout)
    (hdelivery : a.session.delivery? (now, .processIterate firSent) = none)
    (hnack : (a.session.step (now, .processIterate firSent)).receiver.nack = a.nack)
    (hpending : (a.session.step (now, .processIterate firSent)).receiver.pendingFrames ≠ [] →
      a.session.receiver.pendingFrames ≠ [])
    (hawaiting : a.session.receiver.awaitingKeyframe = true →
      (a.session.step (now, .processIterate firSent)).receiver.awaitingKeyframe = true) :
    (a.step (now, .processIterate firSent)).Sound ∧
      a.NothingMissing (now, .processIterate firSent) := by
  refine ⟨h.quiet hdelivery (abandoned_of_ne hprocessing hbranch) rfl hpending hawaiting ?_ ?_,
    nothing_missing_of_none hdelivery⟩
  · rw [hnack]
  · intro q _ hlisted
    rw [hnack]
    exact hlisted

/-- Giving a frame up clears the gaps before its end, and the receiver waits for a key frame. -/
theorem Sound.giveUp (h : a.Sound) {last : BitVec 16}
    (hdelivery : a.session.delivery? (now, .processIterate firSent) = none)
    (habandoned : a.session.abandoned? (now, .processIterate firSent) = some last)
    (hinit : a.nack.initialized = true)
    (hnack : (a.session.step (now, .processIterate firSent)).receiver.nack =
      a.nack.clearUpTo last)
    (hawaiting : (a.session.step (now, .processIterate firSent)).receiver.awaitingKeyframe =
      true) : (a.step (now, .processIterate firSent)).Sound := by
  have hupTo : a.deliveredUpTo? (now, .processIterate firSent) = none := by
    simp [deliveredUpTo?, hdelivery]
  have hlow : (a.step (now, .processIterate firSent)).low = a.low := by
    simp [step, lowAfter, hupTo, report?]
  have hcleared : (a.step (now, .processIterate firSent)).cleared =
      some (max (a.positionOf last) (a.cleared.getD (a.positionOf last))) := by
    simp [step, clearedAfter, report?, habandoned]
  have hinit' : (a.step (now, .processIterate firSent)).nack.initialized = true := by
    change (a.session.step (now, .processIterate firSent)).receiver.nack.initialized = true
    rw [hnack]
    exact hinit
  refine ⟨Positioned.step_consistent h.consistent _, filled_step h.filled _, fun _ => hinit', ?_,
    ?_⟩
  · intro position hsome
    have hold : a.last = some position := by simpa [step, hupTo] using hsome
    rw [hlow]
    exact ⟨(h.last position hold).1, hinit'⟩
  · intro _ q hq hle
    rw [hlow] at hq
    change q ≤ a.newest at hle
    rcases h.remembers hinit q hq hle with hin | hlisted | ⟨-, cleared, hsome, hgone⟩
    · exact Or.inl hin
    · by_cases hafter : a.positionOf last < q
      · refine Or.inr (Or.inl ?_)
        change (a.session.step (now, .processIterate firSent)).receiver.nack.Listed a.newest q
        rw [hnack]
        exact NackRequester.listed_cleared h.consistent.wellFormed hlisted hafter
      · exact Or.inr (Or.inr ⟨hawaiting, _, hcleared, le_max_of_le_left (not_lt.mp hafter)⟩)
    · refine Or.inr (Or.inr ⟨hawaiting, _, hcleared, le_max_of_le_right ?_⟩)
      simpa [hsome] using hgone

/-- A round of the loop keeps the gaps, and hands a frame over only when nothing is missing. -/
theorem Sound.round (h : a.Sound) (hkeeps : a.KeepsGaps (now, .processIterate firSent))
    (hprocessing : a.session.processing = some timing)
    (hworker : a.session.outstanding .worker = []) :
    (a.step (now, .processIterate firSent)).Sound ∧
      a.NothingMissing (now, .processIterate firSent) := by
  obtain ⟨iteration, hround, hreceiver, hdelivery⟩ :=
    round_step now firSent hprocessing hworker
  cases hround with
  | idle hbranch =>
      refine h.quiet_round hprocessing ?_ hdelivery ?_ ?_ ?_
      · rcases hbranch with hbranch | hbranch <;> simp [hbranch]
      all_goals rw [hreceiver]
      · rfl
      · exact id
      · exact id
  | drop timestamp frame newer hpending hbranch =>
      refine h.quiet_round hprocessing ?_ hdelivery ?_ ?_ ?_
      · rcases hbranch with hbranch | hbranch <;> simp [hbranch]
      all_goals rw [hreceiver]
      · rfl
      · exact fun _ => by simp [hpending]
      · exact id
  | skip timestamp frame newer hpending hbranch =>
      refine h.quiet_round hprocessing (by simp [hbranch]) hdelivery ?_ ?_ ?_
      all_goals rw [hreceiver]
      · rfl
      · exact fun _ => by simp [hpending]
      · exact fun _ => rfl
  | escalate timestamp frame newer _ _ _ _ _ _ hpending hbranch =>
      refine h.quiet_round hprocessing ?_ hdelivery ?_ ?_ ?_
      · rcases hbranch with hbranch | hbranch <;> simp [hbranch]
      all_goals rw [hreceiver]
      · rfl
      · exact fun _ => by simp [hpending]
      · exact id
  | keyframe timestamp frame newer _ _ hpending hbranch hnewer hcomplete hawaiting hkey =>
      have hinit := h.started (by simp [hpending])
      obtain ⟨received, hreceived⟩ := delivery_of_filled h.filled hpending hcomplete
      obtain ⟨last, hend⟩ := last_of_filled h.filled hpending hcomplete
      rw [hreceived] at hdelivery
      have hnack : (a.step (now, .processIterate firSent)).nack = a.nack.clearUpTo last := by
        change (a.session.step (now, .processIterate firSent)).receiver.nack = _
        rw [hreceiver]
        simp only [clearNacksOf, hend]
        rfl
      constructor
      · refine h.handOver hkeeps hdelivery hend ?_ ?_
        · rw [hnack]
          exact hinit
        · intro q hlow hle hafter
          rw [hnack]
          rcases h.remembers hinit q hlow hle with hin | hlisted | ⟨-, cleared, hcleared, hgone⟩
          · exact Or.inl hin
          · exact Or.inr (NackRequester.listed_cleared h.consistent.wellFormed hlisted hafter)
          · -- A key frame that is handed over while one is awaited ends behind what was cleared.
            have hle' := hkeeps.keyframe (a.positionOf last) cleared
              (by simp [deliveredUpTo?, hdelivery, hend]) hawaiting hcleared
            omega
      · intro other hother hdelta
        obtain rfl := Option.some.inj (hother.symm.trans hdelivery)
        simp [hkey] at hdelta
  | deliver timestamp frame newer _ _ hpending hbranch hnewer hcomplete hawaiting hclear =>
      have hinit := h.started (by simp [hpending])
      obtain ⟨received, hreceived⟩ := delivery_of_filled h.filled hpending hcomplete
      obtain ⟨last, hend⟩ := last_of_filled h.filled hpending hcomplete
      rw [hreceived] at hdelivery
      have hnack : (a.step (now, .processIterate firSent)).nack = a.nack := by
        change (a.session.step (now, .processIterate firSent)).receiver.nack = _
        rw [hreceiver]
        rfl
      simp only [hasBlockingNacks, hend] at hclear
      constructor
      · refine h.handOver hkeeps hdelivery hend ?_ ?_
        · rw [hnack]
          exact hinit
        · intro q hlow hle _
          rw [hnack]
          rcases h.remembers hinit q hlow hle with hin | hlisted | ⟨hwait, -⟩
          · exact Or.inl hin
          · exact Or.inr hlisted
          · -- No key frame is awaited, so nothing counts as cleared.
            simp [hawaiting] at hwait
      · exact h.nothing_missing hkeeps hdelivery hend hawaiting hclear hinit
  | timeout timestamp frame newer _ _ _ _ hpending hbranch hnewer =>
      -- The frame is given up, and with it what is missing up to its last packet.
      have habandoned := abandoned_of_timeout firSent hprocessing hworker hpending
        hbranch
      refine ⟨?_, nothing_missing_of_none hdelivery⟩
      cases hend : frame.lastSequenceNumber with
      | none =>
          refine h.quiet hdelivery (habandoned.trans hend) rfl ?_ ?_ ?_ ?_
          all_goals rw [hreceiver]
          · exact fun _ => by simp [hpending]
          · exact fun _ => rfl
          · simp only [clearNacksOf, hend]
            rfl
          · simp only [clearNacksOf, hend]
            exact fun q _ hlisted => hlisted
      | some last =>
          refine h.giveUp hdelivery (habandoned.trans hend) (h.started (by simp [hpending])) ?_ ?_
          all_goals rw [hreceiver]
          · simp only [clearNacksOf, hend]
            rfl

end Round

/-- A step that neither receives a packet nor runs the loop keeps the gaps when the list does. -/
theorem Sound.calm {a : Ledger} {now : ℤ} {action : Action} (h : a.Sound)
    (hreceive : ∀ datagram firSent, action ≠ .onReceiveRtpPacket datagram firSent)
    (hround : ∀ firSent, action ≠ .processIterate firSent)
    (hreport : a.session.report? (now, action) = none)
    (hinit : (a.session.step (now, action)).receiver.nack.initialized = a.nack.initialized)
    (hlisted : ∀ q, a.low < q → a.nack.Listed a.newest q →
      (a.session.step (now, action)).receiver.nack.Listed a.newest q) :
    (a.step (now, action)).Sound ∧ a.NothingMissing (now, action) := by
  obtain ⟨hpending, hawaiting, hdelivery⟩ := a.session.quiet_step now hreceive hround
  have habandoned : a.session.abandoned? (now, action) = none := by
    cases action with
    | processIterate firSent => exact absurd rfl (hround firSent)
    | onReceiveRtpPacket | sendDatagram | process | requestKeyFrame | onRttUpdate
    | onSenderReport => rfl
  refine ⟨h.quiet hdelivery habandoned hreport ?_ hawaiting hinit hlisted,
    nothing_missing_of_none hdelivery⟩
  rw [hpending]
  exact id

/-- A round that has to wait changes nothing. -/
theorem Sound.blocked {a : Ledger} {now : ℤ} {firSent : Bool} (h : a.Sound)
    (hsame : a.session.step (now, .processIterate firSent) = a.session)
    (habandoned : a.session.abandoned? (now, .processIterate firSent) = none) :
    (a.step (now, .processIterate firSent)).Sound ∧
      a.NothingMissing (now, .processIterate firSent) := by
  have hdelivery : a.session.delivery? (now, .processIterate firSent) = none :=
    delivery_of_append [] (by simp [hsame])
  refine ⟨h.quiet hdelivery habandoned rfl ?_ ?_ ?_ ?_, nothing_missing_of_none hdelivery⟩
  all_goals rw [hsame]
  · exact id
  · exact id
  · rfl
  · exact fun q _ hlisted => hlisted

/-- Every step that keeps the gaps keeps the ledger sound and hands a frame over only when
nothing is missing. -/
theorem sound_step {a : Ledger} {action : ℤ × Action} (h : a.Sound)
    (hkeeps : a.KeepsGaps action) : (a.step action).Sound ∧ a.NothingMissing action := by
  cases hreport : a.session.report? action with
  | some report =>
      obtain ⟨seqNum, isRecovered⟩ := report
      obtain ⟨-, -, -, -, -, hdelivery⟩ := report_step h.consistent.rtx hreport
      refine ⟨?_, nothing_missing_of_none hdelivery⟩
      cases hinit : a.nack.initialized with
      | false => exact h.first hreport hinit
      | true => exact h.later hkeeps hreport hinit
  | none =>
      obtain ⟨now, action⟩ := action
      cases action with
      | onReceiveRtpPacket datagram firSent =>
          -- a packet that is not reported leaves the receiver alone
          have hsame : (a.session.step (now, .onReceiveRtpPacket datagram firSent)).receiver =
              a.session.receiver := by
            simp only [VideoSession.step]
            split_ifs with hidle
            · simp only [report?, hidle, if_true] at hreport
              rcases receive_nack h.consistent.rtx now firSent datagram with
                ⟨-, hsame⟩ | ⟨_, _, _, hsome, -⟩
              · simp only [hsame]
              · simp [hreport] at hsome
            · rfl
          have hdelivery : a.session.delivery? (now, .onReceiveRtpPacket datagram firSent) =
              none := by
            refine delivery_of_append [] ?_
            simp only [VideoSession.step, List.append_nil]
            split_ifs <;> rfl
          refine ⟨h.quiet hdelivery rfl hreport ?_ ?_ ?_ ?_, nothing_missing_of_none hdelivery⟩
          all_goals rw [hsame]
          · exact id
          · exact id
          · rfl
          · exact fun q _ hlisted => hlisted
      | processIterate firSent =>
          cases hprocessing : a.session.processing with
          | some timing =>
              by_cases hworker : a.session.outstanding .worker = []
              · exact h.round hkeeps hprocessing hworker
              · exact h.blocked (by simp [VideoSession.step, hprocessing, hworker])
                  (by cases hpending : a.session.receiver.pendingFrames <;>
                    simp [abandoned?, hprocessing, hworker, hpending])
          | none =>
              exact h.blocked (by simp [VideoSession.step, hprocessing])
                (by simp [abandoned?, hprocessing])
      | sendDatagram producer sendSuccessful =>
          refine h.calm (by simp) (by simp) rfl rfl ?_
          intro q hlow hlisted
          refine NackRequester.listed_sent h.consistent.wellFormed hlisted now ?_
          rintro entry hentry rfl hin rfl
          exact hkeeps.retries now producer rfl entry hentry hin hlow
      | process firSent =>
          refine h.calm (by simp) (by simp) rfl ?_ ?_
          all_goals
            have hchange := step_nack_change h.consistent.rtx (now, .process firSent)
            generalize (a.session.step (now, .process firSent)).receiver.nack = nack at hchange ⊢
          · cases hchange <;> rfl
          · intro q _ hlisted
            cases hchange with
            | prepared => exact (NackRequester.listed_process_nacks now).mpr hlisted
            | kept => exact hlisted
      | requestKeyFrame firSent =>
          obtain ⟨_, _, _, _, hrequest⟩ := a.session.receiver.request_key_frame_eq now firSent
          refine h.calm (by simp) (by simp) rfl ?_ ?_
          all_goals simp only [VideoSession.step, hrequest]
          · rfl
          · exact fun q _ hlisted => hlisted
      | onRttUpdate rttMs =>
          obtain ⟨rtt, hasSample, heq⟩ := a.session.receiver.nack.update_rtt_eq rttMs
          have hrtx : a.session.receiver.rtxEnabled = true := h.consistent.rtx
          refine h.calm (by simp) (by simp) rfl ?_ ?_
          all_goals simp only [VideoSession.step, onRttUpdate, hrtx, heq, Bool.not_true,
            Bool.false_eq_true, if_false]
          · rfl
          · exact fun q _ hlisted => hlisted
      | onSenderReport senderSsrc ntpTimestamp rtpTimestamp localTimeUs =>
          refine h.calm (by simp) (by simp) rfl ?_ ?_
          all_goals
            simp only [VideoSession.step, onSenderReport]
            split_ifs
          · rfl
          · rfl
          · exact fun q _ hlisted => hlisted
          · exact fun q _ hlisted => hlisted

theorem sound_start {remoteSsrc rtxSsrc : BitVec 32} {mediaPayloadType : Byte}
    (hrtx : (start remoteSsrc rtxSsrc mediaPayloadType).session.receiver.rtxEnabled = true) :
    (start remoteSsrc rtxSsrc mediaPayloadType).Sound := by
  refine ⟨Positioned.start_consistent hrtx,
    filled_start remoteSsrc rtxSsrc mediaPayloadType, ?_, ?_, ?_⟩
  · exact fun hne => absurd rfl hne
  · simp [start]
  · intro hinit
    simp [start, Positioned.start, Positioned.nack, VideoSession.start, ofMediaConfig] at hinit

/-- No gap is forgotten in a step without gaps, or that brings a recovered packet. -/
theorem keeps_gaps_of {a : Ledger} {action : ℤ × Action}
    (hreport : (a.session.report? action).all (fun report =>
      report.2 || (a.nack.nackList.isEmpty && a.nack.recoveredList.isEmpty)) = true)
    (hsend : ∀ now producer, action ≠ (now, .sendDatagram producer true))
    (hdelivery : ((a.session.delivery? action).bind Delivery.lastSequenceNumber).all
      (fun last => decide (a.low ≤ a.positionOf last) && !aheadOf last a.nack.newestSeqNum) = true)
    (hcleared : a.cleared = none) : a.KeepsGaps action := by
  have hends : ∀ delivery last, a.session.delivery? action = some delivery →
      delivery.lastSequenceNumber = some last →
      a.low ≤ a.positionOf last ∧ aheadOf last a.nack.newestSeqNum = false := by
    intro delivery last hsome hend
    simpa [hsome, hend] using hdelivery
  have hempty : ∀ seqNum, a.session.report? action = some (seqNum, false) →
      a.nack.nackList = [] ∧ a.nack.recoveredList = [] := by
    intro seqNum hsome
    simpa [hsome] using hreport
  refine ⟨?_, ?_, ?_, ?_, ?_, ?_⟩
  · rintro seqNum hsome - q - ⟨entry, hentry, -⟩
    simp [(hempty seqNum hsome).1] at hentry
  · intro seqNum hsome _ q _ _ hfound
    simp [(hempty seqNum hsome).2, OrderedMap.find?, OrderedMap.lowerBound] at hfound
  · exact fun now producer heq => absurd heq (hsend now producer)
  · intro position hposition q hq hle
    obtain ⟨last, hlast, rfl⟩ := Option.map_eq_some_iff.mp hposition
    obtain ⟨delivery, hsome, hend⟩ := Option.bind_eq_some_iff.mp hlast
    have hlow := (hends delivery last hsome hend).1
    omega
  · exact fun delivery last hsome _ hend => (hends delivery last hsome hend).2
  · intro position cleared _ _ hsome
    simp [hcleared] at hsome

/-- Packet 1 is lost and recovered before the frames are handed over. -/
def recoveredLossRun : List (ℤ × Action) :=
  [(1000, .onReceiveRtpPacket (h264Datagram 0 3000 [0x41, 1]) true),
    (1100, .onReceiveRtpPacket (h264Datagram 2 9000 [0x41, 3]) true),
    (1200, .onReceiveRtpPacket (rtxDatagram 0 1 6000 [0x41, 2]) true),
    (2000, .process true),
    (2000, .processIterate true),
    (2000, .processIterate true),
    (2000, .processIterate true)]

/-- A key frame waits for packet 1 when the list overflows behind it. -/
def overflowRun : List (ℤ × Action) :=
  [(1000, .onReceiveRtpPacket (h264Datagram 0 3000 [0x41, 1]) true),
    (2000, .process true),
    (2000, .processIterate true),
    (2000, .processIterate true),
    (3000, .onReceiveRtpPacket (h264Datagram 2 6000 [0x41, 0, 0, 1, 0x65, 2]) true),
    (4000, .onReceiveRtpPacket (h264Datagram 2000 9000 [0x41, 3]) true),
    (5000, .process true),
    (5000, .processIterate true),
    (5000, .processIterate true)]

end Ledger

end MiniRtc
