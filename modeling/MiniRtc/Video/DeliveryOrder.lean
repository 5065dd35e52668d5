import MiniRtc.Video.KeyframeGate
import Mathlib.Data.List.Chain

/-!
# Order of the frames that are handed over

Each frame that is handed over is newer than the one before (`InOrder`). Newer is meant as on a
circle, and becomes an order when the timestamps of the pending frames stay in half a turn from some
`base`, where `fwd base` ranks them (`Ordered`). There the pending frames are sorted, the frames
are handed over in increasing order, and a frame that was given up at the hard deadline stays
below everything that follows. `in_order_delivery` puts the two together.
-/

namespace MiniRtc

open Circle RtpVideoReceiver FrameAssembly

/-- Less than half a turn from `base`. -/
def Live (base timestamp : BitVec 32) : Prop :=
  fwd base timestamp < 2 ^ 31

/-- The rank of a timestamp. -/
def timeRank (base timestamp : BitVec 32) : ℤ :=
  fwd base timestamp

section Rank

variable {base x y : BitVec 32}

theorem ahead_of_iff_time_rank (hx : Live base x) (hy : Live base y) :
    aheadOf x y = true ↔ timeRank base y < timeRank base x := by
  rw [ahead_of_iff_ahead (by decide) hx hy]
  simp only [timeRank]
  omega

/-- The comparator of the pending frames compares ranks. -/
theorem less_iff_time_rank (base : BitVec 32) :
    ∀ x y : BitVec 32, Live base x → Live base y →
      (rtpTimestampLess x y = true ↔ timeRank base x < timeRank base y) := by
  intro x y hx hy
  have hahead := ahead_of_iff_time_rank hy hx
  simp only [rtpTimestampLess, Bool.and_eq_true, decide_eq_true_eq]
  constructor
  · exact fun h => hahead.mp h.2
  · intro h
    refine ⟨?_, hahead.mpr h⟩
    rintro rfl
    omega

end Rank

namespace RtpVideoReceiver

/-- Packets move neither of the two watermarks. -/
theorem receive_watermarks (s : RtpVideoReceiver) (now : ℤ) (firSent : Bool)
    (datagram : List Byte) :
    (s.onReceiveRtpPacket now firSent datagram).1.lastCompleteFrameTs = s.lastCompleteFrameTs ∧
      (s.onReceiveRtpPacket now firSent datagram).1.lastDiscardedFrameTs =
        s.lastDiscardedFrameTs := by
  obtain ⟨_, _, _, _, _, _, _, heq⟩ := s.receive_eq now firSent datagram
  rw [heq]
  exact ⟨rfl, rfl⟩

end RtpVideoReceiver

namespace VideoSession

/-- Every frame that was handed over is ahead of the one before, and the last one is remembered. -/
structure InOrder (s : VideoSession) : Prop where
  filled : Filled s.receiver.pendingFrames
  last : s.receiver.lastCompleteFrameTs = s.delivered.getLast?.map Delivery.timestamp
  chain : s.delivered.IsChain fun a b => aheadOf b.timestamp a.timestamp = true

/-- Handing over a newer frame keeps the order. -/
theorem InOrder.append {delivered : List Delivery} {delivery : Delivery}
    (hchain : delivered.IsChain fun a b => aheadOf b.timestamp a.timestamp = true)
    (hnewer : ∀ last, delivered.getLast? = some last →
      aheadOf delivery.timestamp last.timestamp = true) :
    (delivered ++ [delivery]).IsChain fun a b => aheadOf b.timestamp a.timestamp = true := by
  refine List.isChain_append.mpr ⟨hchain, List.isChain_singleton _, ?_⟩
  intro last hlast next hnext
  obtain rfl : delivery = next := by simpa using hnext
  exact hnewer last hlast

/-- What the last frame says about the next one. -/
theorem InOrder.newer {s : VideoSession} (h : s.InOrder) {timestamp : BitVec 32}
    (hnewer : s.receiver.IsNewer timestamp) {last : Delivery}
    (hlast : s.delivered.getLast? = some last) : aheadOf timestamp last.timestamp = true := by
  refine hnewer last.timestamp ?_
  rw [h.last, hlast]
  rfl

theorem in_order_step {s : VideoSession} (h : s.InOrder) (action : ℤ × Action) :
    (s.step action).InOrder := by
  have hfilled := filled_step h.filled action
  have heffect := s.step_effect action
  generalize s.step action = s' at heffect hfilled ⊢
  cases heffect with
  | receive now datagram firSent =>
      exact ⟨hfilled, (s.receiver.receive_watermarks now firSent datagram).1.trans h.last, h.chain⟩
  | quiet => exact ⟨hfilled, h.last, h.chain⟩
  | round now firSent timing processing iteration hprocessing hround =>
      cases hround with
      | idle | drop | skip | timeout | escalate =>
          exact ⟨hfilled, by simpa using h.last, by simpa using h.chain⟩
      | keyframe timestamp frame newer _ _ hpending hbranch hnewer hcomplete
      | deliver timestamp frame newer _ _ hpending hbranch hnewer hcomplete =>
          obtain ⟨received, hreceived⟩ := delivery_of_filled h.filled hpending hcomplete
          simp only [hreceived, Option.toList_some]
          refine ⟨hfilled, by simp, InOrder.append h.chain fun last hlast => ?_⟩
          exact h.newer hnewer hlast

/-! ## Timestamps in half a turn -/

/-- The order of everything, in terms of ranks. -/
structure Ordered (base : BitVec 32) (s : VideoSession) : Prop where
  ranked : OrderedMap.Ranked Prod.fst (Live base) (timeRank base) s.receiver.pendingFrames
  discarded : ∀ timestamp, s.receiver.lastDiscardedFrameTs = some timestamp →
    Live base timestamp ∧
      ∀ entry ∈ s.receiver.pendingFrames, timeRank base timestamp < timeRank base entry.1
  live : ∀ delivery ∈ s.delivered, Live base delivery.timestamp
  increasing : s.delivered.Pairwise fun a b =>
    timeRank base a.timestamp < timeRank base b.timestamp

/-- Sorted pending frames above a bound, as far as they are in half a turn. -/
def SortedAbove (base : BitVec 32) (bound : Option (BitVec 32))
    (pendingFrames : List (BitVec 32 × PendingFrame)) : Prop :=
  (∀ entry ∈ pendingFrames, Live base entry.1) →
    OrderedMap.Ranked Prod.fst (Live base) (timeRank base) pendingFrames ∧
      ∀ timestamp, bound = some timestamp →
        ∀ entry ∈ pendingFrames, timeRank base timestamp < timeRank base entry.1

/-- Writing the entry of a timestamp above the bound keeps the pending frames sorted. -/
theorem SortedAbove.write {base : BitVec 32} {bound : Option (BitVec 32)} {s : FrameAssembly}
    {timestamp : BitVec 32} {pendingFrame : PendingFrame}
    (hbound : ∀ discarded, bound = some discarded → Live base timestamp →
      timeRank base discarded < timeRank base timestamp)
    (h : SortedAbove base bound s.pendingFrames) :
    SortedAbove base bound (s.setPendingFrame timestamp pendingFrame).pendingFrames := by
  intro hlive
  have hself : Live base timestamp := hlive _ mem_set_self
  have hold : ∀ entry ∈ s.pendingFrames, Live base entry.1 := by
    intro entry hentry
    have hor : entry ∈ (s.setPendingFrame timestamp pendingFrame).pendingFrames ∨
        (entry.1 = timestamp ∧ s.pendingFrame? timestamp = some entry.2) := mem_set_or hentry
    rcases hor with hmem | ⟨hkey, -⟩
    · exact hlive entry hmem
    · rw [hkey]
      exact hself
  obtain ⟨hranked, habove⟩ := h hold
  constructor
  · exact OrderedMap.ranked_insert_or_assign (less_iff_time_rank base) hself hranked
  · intro discarded hdiscarded entry hentry
    rcases mem_of_mem_set hentry with rfl | hmem
    · exact hbound discarded hdiscarded hself
    · exact habove discarded hdiscarded entry hmem

/-- A new frame above the last one is above all of them. -/
theorem increasing_append {base : BitVec 32} {delivered : List Delivery} {delivery : Delivery}
    (h : delivered.Pairwise fun a b => timeRank base a.timestamp < timeRank base b.timestamp)
    (hnewer : ∀ last, delivered.getLast? = some last →
      timeRank base last.timestamp < timeRank base delivery.timestamp) :
    (delivered ++ [delivery]).Pairwise fun a b =>
      timeRank base a.timestamp < timeRank base b.timestamp := by
  refine List.pairwise_append.mpr ⟨h, List.pairwise_singleton _ _, ?_⟩
  intro a ha b hb
  obtain rfl := List.mem_singleton.mp hb
  obtain ⟨init, last, rfl⟩ : ∃ init last, delivered = init ++ [last] :=
    ⟨_, _, (List.dropLast_append_getLast (List.ne_nil_of_mem ha)).symm⟩
  have hlast := hnewer last (by simp)
  rcases List.mem_append.mp ha with hinit | hlast'
  · have := (List.pairwise_append.mp h).2.2 a hinit last (by simp)
    omega
  · obtain rfl := List.mem_singleton.mp hlast'
    exact hlast

/-- The order of pending frames is an order of their timestamps. -/
theorem ranked_of_keys {base : BitVec 32} {pending pending' : List (BitVec 32 × PendingFrame)}
    (hkeys : pending'.map Prod.fst = pending.map Prod.fst)
    (h : OrderedMap.Ranked Prod.fst (Live base) (timeRank base) pending) :
    OrderedMap.Ranked Prod.fst (Live base) (timeRank base) pending' := by
  constructor
  · intro entry hentry
    obtain ⟨old, hold, hkey⟩ :=
      List.mem_map.mp (hkeys ▸ List.mem_map_of_mem hentry : entry.1 ∈ pending.map Prod.fst)
    rw [← hkey]
    exact h.inUse old hold
  · have hsorted : (pending.map Prod.fst).Pairwise fun x y => timeRank base x < timeRank base y :=
      List.pairwise_map.mpr h.sorted
    rw [← hkeys] at hsorted
    simpa only [List.pairwise_map] using hsorted

section Step

variable {base : BitVec 32} {s : VideoSession}

/-- The frame that times out becomes the watermark of the frames given up. -/
theorem Ordered.timeout_discarded (h : s.Ordered base) {timestamp : BitVec 32}
    {frame : PendingFrame} {newer : List (BitVec 32 × PendingFrame)}
    (hpending : s.receiver.pendingFrames = (timestamp, frame) :: newer) :
    (s.receiver.markFrameDiscarded timestamp).lastDiscardedFrameTs = some timestamp := by
  have hmem : (timestamp, frame) ∈ s.receiver.pendingFrames := hpending ▸ List.mem_cons_self
  have hlive : Live base timestamp := h.ranked.inUse _ hmem
  have hahead : (s.receiver.lastDiscardedFrameTs.all fun last => aheadOf timestamp last) =
      true := by
    cases hdiscarded : s.receiver.lastDiscardedFrameTs with
    | none => rfl
    | some last =>
        obtain ⟨hlast, habove⟩ := h.discarded last hdiscarded
        exact (ahead_of_iff_time_rank hlive hlast).mpr (habove _ hmem)
  simp only [markFrameDiscarded, hahead, if_true]

/-- The frames behind the first pending one are newer. -/
theorem Ordered.newer (h : s.Ordered base) {timestamp : BitVec 32} {frame : PendingFrame}
    {newer : List (BitVec 32 × PendingFrame)}
    (hpending : s.receiver.pendingFrames = (timestamp, frame) :: newer) :
    ∀ entry ∈ newer, timeRank base timestamp < timeRank base entry.1 := by
  have hsorted := h.ranked.sorted
  rw [hpending] at hsorted
  exact (List.pairwise_cons.mp hsorted).1

/-- Dropping the first pending frame keeps the order. -/
theorem Ordered.tail (h : s.Ordered base) {timestamp : BitVec 32} {frame : PendingFrame}
    {newer : List (BitVec 32 × PendingFrame)}
    (hpending : s.receiver.pendingFrames = (timestamp, frame) :: newer) :
    OrderedMap.Ranked Prod.fst (Live base) (timeRank base) newer ∧
      ∀ discarded, s.receiver.lastDiscardedFrameTs = some discarded →
        Live base discarded ∧
          ∀ entry ∈ newer, timeRank base discarded < timeRank base entry.1 := by
  constructor
  · exact h.ranked.sublist (hpending ▸ List.sublist_cons_self _ _)
  · intro discarded hdiscarded
    obtain ⟨hlive, habove⟩ := h.discarded discarded hdiscarded
    exact ⟨hlive, fun entry hentry => habove entry (hpending ▸ List.mem_cons_of_mem _ hentry)⟩

/-- Handing over the first pending frame, which is newer than the last one, keeps the order. -/
theorem Ordered.hand_over (h : s.Ordered base) (hin : s.InOrder) {timestamp : BitVec 32}
    {frame : PendingFrame} {newer : List (BitVec 32 × PendingFrame)}
    (hpending : s.receiver.pendingFrames = (timestamp, frame) :: newer)
    (hnewer : s.receiver.IsNewer timestamp) {delivery : Delivery}
    (htime : delivery.timestamp = timestamp) :
    (∀ d ∈ s.delivered ++ [delivery], Live base d.timestamp) ∧
      (s.delivered ++ [delivery]).Pairwise fun a b =>
        timeRank base a.timestamp < timeRank base b.timestamp := by
  have hlive : Live base timestamp := h.ranked.inUse _ (hpending ▸ List.mem_cons_self)
  constructor
  · intro d hd
    rcases List.mem_append.mp hd with hold | hnew
    · exact h.live d hold
    · rw [List.mem_singleton.mp hnew, htime]
      exact hlive
  · refine increasing_append h.increasing fun last hlast => ?_
    rw [htime]
    exact (ahead_of_iff_time_rank hlive (h.live last (List.mem_of_getLast? hlast))).mp
      (hin.newer hnewer hlast)

/-- Every step after which the pending frames are in half a turn keeps the order. -/
theorem ordered_step (h : s.Ordered base) (hin : s.InOrder) {action : ℤ × Action}
    (hlive : ∀ entry ∈ (s.step action).receiver.pendingFrames, Live base entry.1) :
    (s.step action).Ordered base := by
  have heffect := s.step_effect action
  generalize s.step action = s' at heffect hlive ⊢
  cases heffect with
  | receive now datagram firSent =>
      have hdiscarded := (s.receiver.receive_watermarks now firSent datagram).2
      have hsorted : SortedAbove base s.receiver.lastDiscardedFrameTs
          (s.receiver.onReceiveRtpPacket now firSent datagram).1.pendingFrames := by
        refine receive_pending (fun timestamp hfresh _ _ _ hsorted =>
          hsorted.write fun discarded hbound hself => ?_) fun _ =>
            ⟨h.ranked, fun timestamp hbound => (h.discarded timestamp hbound).2⟩
        -- the timestamp was checked against the watermark
        simp only [isFrameTimestampObsolete, hbound, Option.any_some, Bool.or_eq_false_iff,
          Bool.not_eq_false'] at hfresh
        exact (ahead_of_iff_time_rank hself (h.discarded discarded hbound).1).mp hfresh.2
      obtain ⟨hranked, habove⟩ := hsorted hlive
      refine ⟨hranked, fun timestamp hbound => ?_, h.live, h.increasing⟩
      simp only [hdiscarded] at hbound
      exact ⟨(h.discarded timestamp hbound).1, habove timestamp hbound⟩
  | quiet => exact ⟨h.ranked, h.discarded, h.live, h.increasing⟩
  | round now firSent timing processing iteration hprocessing hround =>
      cases hround with
      | idle => exact ⟨h.ranked, h.discarded, by simpa using h.live, by simpa using h.increasing⟩
      | drop timestamp frame newer hpending | skip timestamp frame newer hpending =>
          obtain ⟨hranked, hdiscarded⟩ := h.tail hpending
          exact ⟨hranked, hdiscarded, by simpa using h.live, by simpa using h.increasing⟩
      | keyframe timestamp frame newer _ _ hpending hbranch hnewer hcomplete
      | deliver timestamp frame newer _ _ hpending hbranch hnewer hcomplete =>
          obtain ⟨hranked, hdiscarded⟩ := h.tail hpending
          obtain ⟨received, hreceived⟩ := delivery_of_filled hin.filled hpending hcomplete
          simp only [hreceived, Option.toList_some]
          obtain ⟨hall, hincreasing⟩ := h.hand_over hin hpending hnewer
            (rfl : Delivery.timestamp
              ⟨timestamp, received, frame.isKeyframe, frame.lastSequenceNumber⟩ = timestamp)
          exact ⟨hranked, hdiscarded, hall, hincreasing⟩
      | timeout timestamp frame newer _ _ _ _ hpending =>
          refine ⟨(h.tail hpending).1, ?_, by simpa using h.live, by simpa using h.increasing⟩
          intro discarded hdiscarded
          simp only [h.timeout_discarded hpending, Option.some.injEq] at hdiscarded
          subst hdiscarded
          exact ⟨h.ranked.inUse _ (hpending ▸ List.mem_cons_self), h.newer hpending⟩
      | escalate timestamp frame newer escalated requested _ _ _ _ hpending =>
          refine ⟨ranked_of_keys (by simp [hpending]) h.ranked, ?_, by simpa using h.live,
            by simpa using h.increasing⟩
          intro discarded hdiscarded
          obtain ⟨hlive', habove⟩ := h.discarded discarded hdiscarded
          refine ⟨hlive', fun entry hentry => ?_⟩
          rcases List.mem_cons.mp hentry with rfl | hnewer
          · exact habove (timestamp, frame) (hpending ▸ List.mem_cons_self)
          · exact habove entry (hpending ▸ List.mem_cons_of_mem _ hnewer)

end Step

/-! ## Runs -/

section Run

variable {base : BitVec 32}

/-- The pending frames are in half a turn after the step. -/
def StaysLive (base : BitVec 32) (s : VideoSession) (action : ℤ × Action) : Prop :=
  ∀ entry ∈ (s.step action).receiver.pendingFrames, Live base entry.1

/-- `Process` gives the frame with this timestamp up at the hard deadline. -/
def Abandons (s : VideoSession) (action : ℤ × Action) (timestamp : BitVec 32) : Prop :=
  ∃ now firSent timing frame newer, action = (now, .processIterate firSent) ∧
    s.outstanding .worker = [] ∧ s.processing = some timing ∧
    s.receiver.pendingFrames = (timestamp, frame) :: newer ∧
    s.receiver.processBranch timing now = .hardTimeout

/-- The frames given up so far reach at least up to a timestamp. -/
def DiscardedUpTo (base timestamp : BitVec 32) (s : VideoSession) : Prop :=
  ∃ discarded, s.receiver.lastDiscardedFrameTs = some discarded ∧
    timeRank base timestamp ≤ timeRank base discarded

/-- A frame that is given up is the watermark afterwards. -/
theorem abandons_discarded {s : VideoSession} (h : s.Ordered base) {action : ℤ × Action}
    {timestamp : BitVec 32} (habandons : s.Abandons action timestamp) :
    (s.step action).DiscardedUpTo base timestamp ∧
      (s.step action).delivered = s.delivered := by
  obtain ⟨now, firSent, timing, frame, newer, rfl, hidle, hprocessing, hpending, hbranch⟩ :=
    habandons
  simp only [step, hprocessing, hidle, if_true]
  have hround := s.receiver.process_iterate_round timing now firSent
  generalize s.receiver.processIterate timing now firSent = iteration at hround ⊢
  cases hround with
  | timeout timestamp' frame' newer' _ _ _ _ hpending' =>
      obtain ⟨heq, -⟩ := List.cons.inj (hpending'.symm.trans hpending)
      obtain ⟨rfl, -⟩ := Prod.mk.inj heq
      exact ⟨⟨timestamp', h.timeout_discarded hpending', le_rfl⟩, by simp⟩
  | idle hother | drop _ _ _ _ hother | escalate _ _ _ _ _ _ _ _ _ _ hother =>
      rcases hother with hother | hother <;> simp [hbranch] at hother
  | skip _ _ _ _ hother | keyframe _ _ _ _ _ _ hother | deliver _ _ _ _ _ _ hother =>
      simp [hbranch] at hother

/-- The watermark of the frames given up does not move back, and what is handed over lies
above it. -/
theorem discarded_step {s : VideoSession} (h : s.Ordered base) (hin : s.InOrder)
    {timestamp : BitVec 32} (hdiscarded : s.DiscardedUpTo base timestamp)
    (action : ℤ × Action) :
    (s.step action).DiscardedUpTo base timestamp ∧
      ∃ later, (s.step action).delivered = s.delivered ++ later ∧
        ∀ delivery ∈ later, timeRank base timestamp < timeRank base delivery.timestamp := by
  obtain ⟨discarded, hbound, hle⟩ := hdiscarded
  have habove := (h.discarded discarded hbound).2
  have heffect := s.step_effect action
  generalize s.step action = s' at heffect ⊢
  cases heffect with
  | receive now datagram firSent =>
      have hsame := (s.receiver.receive_watermarks now firSent datagram).2
      exact ⟨⟨discarded, hsame.trans hbound, hle⟩, [], by simp, by simp⟩
  | quiet => exact ⟨⟨discarded, hbound, hle⟩, [], by simp, by simp⟩
  | round now firSent timing processing iteration hprocessing hround =>
      cases hround with
      | idle | drop | skip | escalate => exact ⟨⟨discarded, hbound, hle⟩, [], by simp, by simp⟩
      | timeout timestamp' frame newer _ _ _ _ hpending =>
          have hnext := habove (timestamp', frame) (hpending ▸ List.mem_cons_self)
          exact ⟨⟨timestamp', h.timeout_discarded hpending, hle.trans hnext.le⟩, [], by simp,
            by simp⟩
      | keyframe timestamp' frame newer _ _ hpending hbranch hnewer hcomplete
      | deliver timestamp' frame newer _ _ hpending hbranch hnewer hcomplete =>
          have hnext := habove (timestamp', frame) (hpending ▸ List.mem_cons_self)
          obtain ⟨received, hreceived⟩ := delivery_of_filled hin.filled hpending hcomplete
          refine ⟨⟨discarded, hbound, hle⟩, _, rfl, ?_⟩
          simp only [hreceived, Option.toList_some, List.mem_singleton, forall_eq]
          exact lt_of_le_of_lt hle hnext

/-- In a run in half a turn everything stays in order. -/
theorem ordered_run {s : VideoSession} (h : s.Ordered base) (hin : s.InOrder)
    {actions : List (ℤ × Action)} (hlive : Run.Along step (StaysLive base) s actions) :
    (s.run actions).Ordered base ∧ (s.run actions).InOrder :=
  hlive.invariant (I := fun s => s.Ordered base ∧ s.InOrder) (fun _ action hs hstep =>
    ⟨ordered_step hs.1 hs.2 hstep, in_order_step hs.2 action⟩) ⟨h, hin⟩

/-- After a frame was given up, only newer ones are handed over. -/
theorem discarded_run {s : VideoSession} (h : s.Ordered base) (hin : s.InOrder)
    {timestamp : BitVec 32} (hdiscarded : s.DiscardedUpTo base timestamp)
    {actions : List (ℤ × Action)} (hlive : Run.Along step (StaysLive base) s actions) :
    ∃ later, (s.run actions).delivered = s.delivered ++ later ∧
      ∀ delivery ∈ later, timeRank base timestamp < timeRank base delivery.timestamp := by
  induction actions generalizing s with
  | nil => exact ⟨[], by simp [run], by simp⟩
  | cons action rest ih =>
      obtain ⟨hnext, later, hlater, habove⟩ := discarded_step h hin hdiscarded action
      obtain ⟨rest', hrest, habove'⟩ :=
        ih (ordered_step h hin hlive.1) (in_order_step hin action) hnext hlive.2
      refine ⟨later ++ rest', ?_, ?_⟩
      · change ((s.step action).run rest).delivered = _
        rw [hrest, hlater, List.append_assoc]
      · intro delivery hdelivery
        rcases List.mem_append.mp hdelivery with hmem | hmem
        · exact habove delivery hmem
        · exact habove' delivery hmem

theorem in_order_start (remoteSsrc rtxSsrc : BitVec 32) (mediaPayloadType : Byte) :
    (start remoteSsrc rtxSsrc mediaPayloadType).InOrder :=
  ⟨filled_start remoteSsrc rtxSsrc mediaPayloadType, rfl, List.isChain_nil⟩

theorem ordered_start (base remoteSsrc rtxSsrc : BitVec 32) (mediaPayloadType : Byte) :
    (start remoteSsrc rtxSsrc mediaPayloadType).Ordered base := by
  refine ⟨⟨?_, ?_⟩, ?_, ?_, ?_⟩ <;> simp [start, ofMediaConfig]

end Run

/-- Frames are handed over in order and at most once: in every run each frame is ahead of the one
before. While the timestamps of the pending frames stay in half a turn, the frames are
handed over in strictly increasing order, and after a frame was given up at the hard deadline,
only newer ones are handed over. -/
theorem in_order_delivery (remoteSsrc rtxSsrc : BitVec 32) (mediaPayloadType : Byte)
    (actions : List (ℤ × Action)) :
    ((start remoteSsrc rtxSsrc mediaPayloadType).run actions).delivered.IsChain
        (fun a b => aheadOf b.timestamp a.timestamp = true) ∧
      ∀ base,
        Run.Along step (StaysLive base) (start remoteSsrc rtxSsrc mediaPayloadType) actions →
        ((start remoteSsrc rtxSsrc mediaPayloadType).run actions).delivered.Pairwise
            (fun a b => timeRank base a.timestamp < timeRank base b.timestamp) ∧
          ∀ first action rest timestamp, actions = first ++ action :: rest →
            ((start remoteSsrc rtxSsrc mediaPayloadType).run first).Abandons action timestamp →
            ∃ later,
              ((start remoteSsrc rtxSsrc mediaPayloadType).run actions).delivered =
                ((start remoteSsrc rtxSsrc mediaPayloadType).run first).delivered ++ later ∧
              ∀ delivery ∈ later,
                timeRank base timestamp < timeRank base delivery.timestamp := by
  have hin := in_order_start remoteSsrc rtxSsrc mediaPayloadType
  have hordered : ∀ base, (start remoteSsrc rtxSsrc mediaPayloadType).Ordered base :=
    fun base => ordered_start base remoteSsrc rtxSsrc mediaPayloadType
  generalize start remoteSsrc rtxSsrc mediaPayloadType = s at hin hordered ⊢
  constructor
  · have hrun : (s.run actions).InOrder := by
      clear hordered
      induction actions generalizing s with
      | nil => exact hin
      | cons action rest ih => exact ih (s.step action) (in_order_step hin action)
    exact hrun.chain
  · intro base hlive
    refine ⟨(ordered_run (hordered base) hin hlive).1.increasing, ?_⟩
    rintro first action rest timestamp rfl habandons
    obtain ⟨hfirst, haction, hrest⟩ := Run.along_append.mp hlive
    obtain ⟨hmid, hmid'⟩ := ordered_run (hordered base) hin hfirst
    obtain ⟨hdiscarded, hsame⟩ := abandons_discarded hmid habandons
    obtain ⟨later, hlater, habove⟩ := discarded_run (ordered_step hmid hmid' haction)
      (in_order_step hmid' action) hdiscarded hrest
    refine ⟨later, ?_, habove⟩
    rw [run_append]
    change (((s.run first).step action).run rest).delivered = _
    rw [hlater, hsame]

end VideoSession

end MiniRtc
