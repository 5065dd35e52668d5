import Mathlib.Data.BitVec
import Mathlib.Data.Int.Order.Basic
import Mathlib.Algebra.Order.Ring.Abs
import Mathlib.Tactic.LinearCombination
import Mathlib.Tactic.Linarith
import Mathlib.Tactic.Ring
import MiniRtc.Foundation.Run
import MiniRtc.Rtp.Timestamp

/-!
# The capture clock behind RTP timestamps

`RtpTimestampGenerator` of `rtp_timestamp.h`, which turns capture times into timestamps, and the
runs in which the mapper of the receiver turns them back. The position of a capture time is the
number of whole ticks since the first capture. A timestamp is a position up to the wrap, and the
unwrapped timestamps of the mapper are positions up to a shift that stays the same in a run
(`Follows`).

`capture_times_reconstructed` says that the differences of local times are those of the capture
times up to one tick and two microseconds, and that all frames between two sender reports have one
offset from their capture times.
-/

namespace MiniRtc

/-- `ExtrapolateRtpTimestamp`. The ticks are those of a 64-bit counter. -/
def extrapolateRtpTimestamp (anchorRtpTimestamp : BitVec 32) (anchorTimeUs targetTimeUs : ℤ)
    (clockRate : BitVec 32) : BitVec 32 :=
  let elapsedUs := targetTimeUs - anchorTimeUs
  let absoluteElapsedUs : Nat :=
    if 0 ≤ elapsedUs then elapsedUs.toNat else (-(elapsedUs + 1)).toNat + 1
  let elapsedTicks : BitVec 64 :=
    BitVec.ofNat 64 (absoluteElapsedUs / 1000000) * BitVec.ofNat 64 clockRate.toNat +
      BitVec.ofNat 64 (absoluteElapsedUs % 1000000 * clockRate.toNat / 1000000)
  if 0 ≤ elapsedUs then anchorRtpTimestamp + elapsedTicks.setWidth 32
  else anchorRtpTimestamp - elapsedTicks.setWidth 32

/-- `RtpTimestampGenerator`. -/
structure RtpTimestampGenerator where
  clockRate : BitVec 32
  baseTimestamp : BitVec 32
  firstCaptureTimeUs : Option ℤ := none

namespace RtpTimestampGenerator

/-- `TimestampForTimeUsLocked`, after a first capture. -/
def timestampForTimeUsLocked (g : RtpTimestampGenerator) (first timeUs : ℤ) : BitVec 32 :=
  if timeUs - first ≤ 0 then g.baseTimestamp
  else extrapolateRtpTimestamp g.baseTimestamp first timeUs g.clockRate

/-- `TimestampForCaptureTimeUs`. -/
def timestampForCaptureTimeUs (g : RtpTimestampGenerator) (captureTimeUs : ℤ) :
    RtpTimestampGenerator × BitVec 32 :=
  match g.firstCaptureTimeUs with
  | none => ({ g with firstCaptureTimeUs := some captureTimeUs }, g.baseTimestamp)
  | some first => (g, g.timestampForTimeUsLocked first captureTimeUs)

/-- `TimestampForPaddingTimeUs`, which the sender reports use too. -/
def timestampForPaddingTimeUs (g : RtpTimestampGenerator) (timeUs : ℤ) : BitVec 32 :=
  match g.firstCaptureTimeUs with
  | none => g.baseTimestamp
  | some first => g.timestampForTimeUsLocked first timeUs

end RtpTimestampGenerator

/-! ## Ticks -/

/-- The whole ticks of a time, which may be negative. -/
def ticksOf (clockRate : BitVec 32) (elapsedUs : ℤ) : ℤ :=
  (elapsedUs * clockRate.toNat).tdiv 1000000

/-- Seconds and the rest of a second have the ticks of the whole time. -/
theorem split_ticks (elapsedUs clockRate : Nat) :
    elapsedUs / 1000000 * clockRate + elapsedUs % 1000000 * clockRate / 1000000 =
      elapsedUs * clockRate / 1000000 := by
  have hsplit : elapsedUs * clockRate =
      elapsedUs % 1000000 * clockRate + 1000000 * (elapsedUs / 1000000 * clockRate) := by
    calc elapsedUs * clockRate
        = (elapsedUs % 1000000 + 1000000 * (elapsedUs / 1000000)) * clockRate := by
          rw [Nat.mod_add_div]
      _ = _ := by ring
  rw [hsplit, Nat.add_mul_div_left _ _ (by decide), Nat.add_comm]

/-- An extrapolated timestamp is the ticks away from its anchor, up to the wrap. -/
theorem extrapolate_eq (anchorRtpTimestamp : BitVec 32) (anchorTimeUs targetTimeUs : ℤ)
    (clockRate : BitVec 32) :
    extrapolateRtpTimestamp anchorRtpTimestamp anchorTimeUs targetTimeUs clockRate =
      anchorRtpTimestamp + BitVec.ofInt 32 (ticksOf clockRate (targetTimeUs - anchorTimeUs)) := by
  have hticks : ∀ elapsed : Nat,
      (BitVec.ofNat 64 (elapsed / 1000000) * BitVec.ofNat 64 clockRate.toNat +
        BitVec.ofNat 64 (elapsed % 1000000 * clockRate.toNat / 1000000)).setWidth 32 =
      BitVec.ofInt 32 (ticksOf clockRate elapsed) := by
    intro elapsed
    have hnat : ticksOf clockRate elapsed = ((elapsed * clockRate.toNat / 1000000 : Nat) : ℤ) := by
      unfold ticksOf
      rw [← Nat.cast_mul, Int.tdiv_eq_ediv_of_nonneg (Int.natCast_nonneg _)]
      rfl
    rw [hnat, BitVec.ofInt_natCast, ← BitVec.ofNat_mul, ← BitVec.ofNat_add, split_ticks]
    apply BitVec.eq_of_toNat_eq
    rw [BitVec.toNat_setWidth, BitVec.toNat_ofNat, BitVec.toNat_ofNat]
    exact Nat.mod_mod_of_dvd _ (by decide)
  unfold extrapolateRtpTimestamp
  simp only
  generalize targetTimeUs - anchorTimeUs = elapsedUs
  split_ifs with hforward
  · rw [hticks, Int.toNat_of_nonneg hforward]
  · have habsolute : (((-(elapsedUs + 1)).toNat + 1 : Nat) : ℤ) = -elapsedUs := by
      omega
    rw [hticks, habsolute]
    have hneg : ticksOf clockRate (-elapsedUs) = -ticksOf clockRate elapsedUs := by
      unfold ticksOf
      rw [Int.neg_mul, Int.neg_tdiv]
    rw [hneg, BitVec.ofInt_neg, BitVec.sub_neg]

/-- A time after the first capture has the timestamp of its position. -/
theorem RtpTimestampGenerator.timestamp_of_position (g : RtpTimestampGenerator)
    {first timeUs : ℤ} (hle : first ≤ timeUs) :
    g.timestampForTimeUsLocked first timeUs =
      g.baseTimestamp + BitVec.ofInt 32 (ticksOf g.clockRate (timeUs - first)) := by
  unfold timestampForTimeUsLocked
  split_ifs with hzero
  · have helapsed : timeUs - first = 0 := by omega
    rw [helapsed]
    unfold ticksOf
    rw [Int.zero_mul, Int.zero_tdiv]
    exact (BitVec.add_zero _).symm
  · exact extrapolate_eq _ _ _ _

/-- So does the timestamp of padding and of a sender report. -/
theorem RtpTimestampGenerator.padding_of_position (g : RtpTimestampGenerator) {first timeUs : ℤ}
    (hfirst : g.firstCaptureTimeUs = some first) (hle : first ≤ timeUs) :
    g.timestampForPaddingTimeUs timeUs =
      g.baseTimestamp + BitVec.ofInt 32 (ticksOf g.clockRate (timeUs - first)) := by
  unfold timestampForPaddingTimeUs
  rw [hfirst]
  exact g.timestamp_of_position hle

/-- A position is at most one tick behind its time. -/
theorem ticks_of_bounds (clockRate : BitVec 32) {elapsedUs : ℤ} (h : 0 ≤ elapsedUs) :
    1000000 * ticksOf clockRate elapsedUs ≤ elapsedUs * clockRate.toNat ∧
      elapsedUs * clockRate.toNat < 1000000 * ticksOf clockRate elapsedUs + 1000000 := by
  have hproduct : 0 ≤ elapsedUs * clockRate.toNat := Int.mul_nonneg h (Int.natCast_nonneg _)
  unfold ticksOf
  rw [Int.tdiv_eq_ediv_of_nonneg hproduct]
  omega

/-- Ticks in microseconds are rounded by less than one microsecond. -/
theorem microseconds_bounds (ticks : ℤ) {clockRate : ℤ} (hrate : 0 < clockRate) :
    |clockRate * rtpTicksToMicroseconds ticks clockRate - 1000000 * ticks| < clockRate := by
  unfold rtpTicksToMicroseconds
  rw [if_neg hrate.ne']
  have hseconds := Int.mul_tdiv_add_tmod ticks clockRate
  have hrest := Int.mul_tdiv_add_tmod (ticks.tmod clockRate * 1000000) clockRate
  have hbelow := Int.tmod_lt_of_pos (ticks.tmod clockRate * 1000000) hrate
  have habove := Int.lt_tmod_of_pos (ticks.tmod clockRate * 1000000) hrate
  have herror : clockRate * (ticks.tdiv clockRate * 1000000 +
      (ticks.tmod clockRate * 1000000).tdiv clockRate) - 1000000 * ticks =
      -(ticks.tmod clockRate * 1000000).tmod clockRate := by
    linear_combination 1000000 * hseconds + hrest
  rw [herror, abs_neg, abs_lt]
  exact ⟨habove, hbelow⟩

/-! ## The mapper -/

namespace RtpTimestampMapper

/-- What local times are relative to: the last sender report, else the first frame. -/
def anchor (m : RtpTimestampMapper) : Option (ℤ × ℤ) :=
  match m.senderReportUnwrappedTimestamp with
  | some reported => some (reported, m.senderReportLocalTimeUs)
  | none => m.firstUnwrappedTimestamp.map fun first => (first, m.firstLocalTimeUs)

/-- The last timestamp of a mapper is that of a position, and its unwrapped timestamps are positions
up to a shift. -/
def Sees (baseTimestamp : BitVec 32) (shift last : ℤ) (m : RtpTimestampMapper) : Prop :=
  m.lastTimestamp = some (baseTimestamp + BitVec.ofInt 32 last) ∧
    m.lastUnwrappedTimestamp = last + shift

variable {m : RtpTimestampMapper} {baseTimestamp : BitVec 32} {shift last position : ℤ}

/-- The first timestamp fixes the shift. -/
theorem unwrap_first (hnone : m.lastTimestamp = none) (position : ℤ) :
    ∃ shift, (m.unwrap (baseTimestamp + BitVec.ofInt 32 position)).2 = position + shift := by
  refine ⟨(baseTimestamp + BitVec.ofInt 32 position).toNat - position, ?_⟩
  unfold unwrap
  rw [hnone]
  show ((baseTimestamp + BitVec.ofInt 32 position).toNat : ℤ) = _
  ring

/-- A timestamp that is close to the one before is unwrapped to its position. -/
theorem unwrap_close (h : m.Sees baseTimestamp shift last) (hclose : |position - last| < 2 ^ 31) :
    (m.unwrap (baseTimestamp + BitVec.ofInt 32 position)).2 = position + shift := by
  obtain ⟨hlast, hunwrapped⟩ := h
  have hdelta : (baseTimestamp + BitVec.ofInt 32 position) -
      (baseTimestamp + BitVec.ofInt 32 last) = BitVec.ofInt 32 (position - last) := by
    rw [add_sub_add_left_eq_sub, Int.sub_eq_add_neg, BitVec.ofInt_add, BitVec.ofInt_neg,
      sub_eq_add_neg]
  obtain ⟨hlow, hhigh⟩ := abs_lt.mp hclose
  have htoNat : ((BitVec.ofInt 32 (position - last)).toNat : ℤ) = (position - last) % 2 ^ 32 := by
    rw [BitVec.toNat_ofInt]
    omega
  unfold unwrap
  simp only [hlast, hdelta, hunwrapped]
  split_ifs <;> omega

/-- What a mapper does with a timestamp. -/
theorem unwrap_fields (m : RtpTimestampMapper) (timestamp : BitVec 32) :
    (m.unwrap timestamp).1 = { m with
      lastTimestamp := some timestamp, lastUnwrappedTimestamp := (m.unwrap timestamp).2 } :=
  rfl

/-- A local time is relative to the anchor, which the first frame becomes when there is none. -/
theorem to_local_time (m : RtpTimestampMapper) (rtpTimestamp : BitVec 32) (arrivalTimeUs : ℤ) :
    ∃ anchor : ℤ × ℤ,
      anchor = m.anchor.getD ((m.unwrap rtpTimestamp).2, arrivalTimeUs) ∧
      (m.toLocalTimeUs rtpTimestamp arrivalTimeUs).1.anchor = some anchor ∧
      (m.toLocalTimeUs rtpTimestamp arrivalTimeUs).2 =
        anchor.2 + rtpTicksToMicroseconds ((m.unwrap rtpTimestamp).2 - anchor.1) m.clockRate ∧
      (m.toLocalTimeUs rtpTimestamp arrivalTimeUs).1.lastTimestamp = some rtpTimestamp ∧
      (m.toLocalTimeUs rtpTimestamp arrivalTimeUs).1.lastUnwrappedTimestamp =
        (m.unwrap rtpTimestamp).2 ∧
      (m.toLocalTimeUs rtpTimestamp arrivalTimeUs).1.clockRate = m.clockRate := by
  have hzero : rtpTicksToMicroseconds 0 m.clockRate = 0 := by
    unfold rtpTicksToMicroseconds
    simp
  unfold toLocalTimeUs anchor
  simp only [unwrap_fields]
  cases hreport : m.senderReportUnwrappedTimestamp with
  | some reported => exact ⟨(reported, m.senderReportLocalTimeUs), rfl, rfl, rfl, rfl, rfl, rfl⟩
  | none =>
      cases hfirst : m.firstUnwrappedTimestamp with
      | some first => exact ⟨(first, m.firstLocalTimeUs), rfl, rfl, rfl, rfl, rfl, rfl⟩
      | none =>
          refine ⟨((m.unwrap rtpTimestamp).2, arrivalTimeUs), rfl, rfl, ?_, rfl, rfl, rfl⟩
          simp only [Int.sub_self, hzero, Int.add_zero]

/-- A sender report becomes the anchor. -/
theorem update_from_sender_report (m : RtpTimestampMapper) (rtpTimestamp : BitVec 32)
    (senderReportLocalTimeUs : ℤ) :
    (m.updateFromSenderReport rtpTimestamp senderReportLocalTimeUs).anchor =
        some ((m.unwrap rtpTimestamp).2, senderReportLocalTimeUs) ∧
      (m.updateFromSenderReport rtpTimestamp senderReportLocalTimeUs).lastTimestamp =
        some rtpTimestamp ∧
      (m.updateFromSenderReport rtpTimestamp senderReportLocalTimeUs).lastUnwrappedTimestamp =
        (m.unwrap rtpTimestamp).2 ∧
      (m.updateFromSenderReport rtpTimestamp senderReportLocalTimeUs).clockRate = m.clockRate :=
  ⟨rfl, rfl, rfl, rfl⟩

end RtpTimestampMapper

/-! ## Runs -/

/-- A frame that the mapper has mapped, and how many sender reports came before it. -/
structure MappedFrame where
  captureTimeUs : ℤ
  localTimeUs : ℤ
  senderReports : Nat

/-- The sender and the receiver of the frames, with the position of the last timestamp that the
mapper has seen. -/
structure CaptureClock where
  generator : RtpTimestampGenerator
  mapper : RtpTimestampMapper
  sent : List (ℤ × BitVec 32) := []
  seen : Option ℤ := none
  senderReports : Nat := 0
  mapped : List MappedFrame := []

/-- What happens in a run. A frame that was sent reaches the mapper at any time, again and again or
never. The timestamp of a sender report is that of a position, as every timestamp is
(`padding_of_position`, `extrapolate_eq`). -/
inductive ClockEvent where
  | capture (captureTimeUs : ℤ)
  | frame (index : Nat) (arrivalTimeUs : ℤ)
  | senderReport (position localTimeUs : ℤ)

namespace CaptureClock

/-- Before the first frame. Sender and receiver use one clock rate. -/
def start (clockRate baseTimestamp : BitVec 32) : CaptureClock where
  generator := { clockRate, baseTimestamp }
  mapper := { clockRate := clockRate.toNat }

/-- The position of a time: the ticks since the first capture. -/
def position (s : CaptureClock) (timeUs : ℤ) : ℤ :=
  ticksOf s.generator.clockRate (timeUs - s.generator.firstCaptureTimeUs.getD 0)

/-- One event of a run. -/
def step (s : CaptureClock) : ClockEvent → CaptureClock
  | .capture captureTimeUs =>
      let result := s.generator.timestampForCaptureTimeUs captureTimeUs
      { s with generator := result.1, sent := s.sent ++ [(captureTimeUs, result.2)] }
  | .frame index arrivalTimeUs =>
      match s.sent[index]? with
      | none => s
      | some (captureTimeUs, rtpTimestamp) =>
          let result := s.mapper.toLocalTimeUs rtpTimestamp arrivalTimeUs
          { s with
              mapper := result.1
              seen := some (s.position captureTimeUs)
              mapped := s.mapped ++
                [{ captureTimeUs, localTimeUs := result.2, senderReports := s.senderReports }] }
  | .senderReport position localTimeUs =>
      { s with
          mapper := s.mapper.updateFromSenderReport
            (s.generator.baseTimestamp + BitVec.ofInt 32 position) localTimeUs
          seen := some position
          senderReports := s.senderReports + 1 }

/-- No capture lies before the first one, and successive timestamps at the mapper are close. -/
def Close (s : CaptureClock) : ClockEvent → Prop
  | .capture captureTimeUs => ∀ first ∈ s.generator.firstCaptureTimeUs, first ≤ captureTimeUs
  | .frame index _ => ∀ frame ∈ s.sent[index]?, ∀ last ∈ s.seen,
      |s.position frame.1 - last| < 2 ^ 31
  | .senderReport position _ => ∀ last ∈ s.seen, |position - last| < 2 ^ 31

instance (s : CaptureClock) (event : ClockEvent) : Decidable (s.Close event) :=
  match event with
  | .capture captureTimeUs =>
      inferInstanceAs (Decidable (∀ first ∈ s.generator.firstCaptureTimeUs, first ≤ captureTimeUs))
  | .frame index _ => inferInstanceAs (Decidable (∀ frame ∈ s.sent[index]?, ∀ last ∈ s.seen,
      |s.position frame.1 - last| < 2 ^ 31))
  | .senderReport position _ =>
      inferInstanceAs (Decidable (∀ last ∈ s.seen, |position - last| < 2 ^ 31))

/-- A capture time from the first one on. -/
def Captured (s : CaptureClock) (captureTimeUs : ℤ) : Prop :=
  ∃ first, s.generator.firstCaptureTimeUs = some first ∧ first ≤ captureTimeUs

/-- The origin of a frame is that of the last sender report before it: a position with its local
time. The frame is mapped relative to it. -/
def MappedBy (s : CaptureClock) (origin : Nat → ℤ × ℤ) (f : MappedFrame) : Prop :=
  f.senderReports ≤ s.senderReports ∧ s.Captured f.captureTimeUs ∧
    f.localTimeUs = (origin f.senderReports).2 + rtpTicksToMicroseconds
      (s.position f.captureTimeUs - (origin f.senderReports).1) s.generator.clockRate.toNat

/-- The mapper follows the positions that it has seen. -/
structure Follows (s : CaptureClock) : Prop where
  rate : s.mapper.clockRate = s.generator.clockRate.toNat
  sent : ∀ frame ∈ s.sent, s.Captured frame.1 ∧
    frame.2 = s.generator.baseTimestamp + BitVec.ofInt 32 (s.position frame.1)
  mapped : s.seen = none ∧ s.mapper.lastTimestamp = none ∧ s.mapper.anchor = none ∧
      s.mapped = [] ∨
    ∃ last shift origin, s.seen = some last ∧
      s.mapper.Sees s.generator.baseTimestamp shift last ∧
      s.mapper.anchor =
        some ((origin s.senderReports).1 + shift, (origin s.senderReports).2) ∧
      ∀ f ∈ s.mapped, s.MappedBy origin f

variable {s : CaptureClock}

theorem follows_start (clockRate baseTimestamp : BitVec 32) :
    (start clockRate baseTimestamp).Follows where
  rate := rfl
  sent := fun _ hin => absurd hin List.not_mem_nil
  mapped := .inl ⟨rfl, rfl, rfl, rfl⟩

/-- A capture is sent with the timestamp of its position. -/
theorem follows_capture (h : s.Follows) {captureTimeUs : ℤ}
    (hclose : s.Close (.capture captureTimeUs)) : (s.step (.capture captureTimeUs)).Follows := by
  cases hfirst : s.generator.firstCaptureTimeUs with
  | none =>
      have hsent : s.sent = [] := by
        rw [List.eq_nil_iff_forall_not_mem]
        intro frame hin
        obtain ⟨first, hsome, -⟩ := (h.sent frame hin).1
        rw [hfirst] at hsome
        cases hsome
      have hcapture : s.generator.timestampForCaptureTimeUs captureTimeUs =
          ({ s.generator with firstCaptureTimeUs := some captureTimeUs },
            s.generator.baseTimestamp) := by
        unfold RtpTimestampGenerator.timestampForCaptureTimeUs
        simp only [hfirst]
      unfold step
      simp only [hcapture, hsent, List.nil_append]
      refine { rate := h.rate, sent := fun frame hin => ?_, mapped := ?_ }
      · obtain rfl := List.mem_singleton.mp hin
        refine ⟨⟨captureTimeUs, rfl, le_refl _⟩, ?_⟩
        have hzero : ticksOf s.generator.clockRate (captureTimeUs - captureTimeUs) = 0 := by
          unfold ticksOf
          rw [Int.sub_self, Int.zero_mul, Int.zero_tdiv]
        show s.generator.baseTimestamp = s.generator.baseTimestamp + BitVec.ofInt 32
          (ticksOf s.generator.clockRate (captureTimeUs - captureTimeUs))
        rw [hzero]
        exact (BitVec.add_zero _).symm
      · obtain hfresh | ⟨last, shift, origin, hseen, hsees, hanchor, hmapped⟩ := h.mapped
        · exact .inl hfresh
        · refine .inr ⟨last, shift, origin, hseen, hsees, hanchor, fun f hin => ?_⟩
          obtain ⟨-, ⟨first, hsome, -⟩, -⟩ := hmapped f hin
          rw [hfirst] at hsome
          cases hsome
  | some first =>
      have hcapture : s.generator.timestampForCaptureTimeUs captureTimeUs =
          (s.generator, s.generator.timestampForTimeUsLocked first captureTimeUs) := by
        unfold RtpTimestampGenerator.timestampForCaptureTimeUs
        simp only [hfirst]
      have hle : first ≤ captureTimeUs := hclose first hfirst
      unfold step
      simp only [hcapture]
      refine { rate := h.rate, sent := fun frame hin => ?_, mapped := h.mapped }
      rcases List.mem_append.mp hin with hold | hnew
      · exact h.sent frame hold
      · obtain rfl := List.mem_singleton.mp hnew
        refine ⟨⟨first, hfirst, hle⟩, ?_⟩
        show s.generator.timestampForTimeUsLocked first captureTimeUs =
          s.generator.baseTimestamp + BitVec.ofInt 32 (ticksOf s.generator.clockRate
            (captureTimeUs - s.generator.firstCaptureTimeUs.getD 0))
        rw [s.generator.timestamp_of_position hle, hfirst]
        rfl

/-- A timestamp that is close to the one before is unwrapped to its position, up to the shift. -/
theorem unwrap_position (h : s.Follows) {position : ℤ}
    (hclose : ∀ last ∈ s.seen, |position - last| < 2 ^ 31) :
    ∃ shift origin,
      (s.mapper.unwrap (s.generator.baseTimestamp + BitVec.ofInt 32 position)).2 =
        position + shift ∧
      (s.mapper.anchor = none ∨ s.mapper.anchor =
        some ((origin s.senderReports).1 + shift, (origin s.senderReports).2)) ∧
      (s.mapper.anchor = none → s.mapped = []) ∧ ∀ f ∈ s.mapped, s.MappedBy origin f := by
  obtain ⟨-, hlast, hanchor, hmapped⟩ | ⟨last, shift, origin, hseen, hsees, hanchor, hmapped⟩ :=
    h.mapped
  · obtain ⟨shift, hshift⟩ := RtpTimestampMapper.unwrap_first hlast position
    refine ⟨shift, fun _ => (0, 0), hshift, .inl hanchor, fun _ => hmapped, fun f hin => ?_⟩
    rw [hmapped] at hin
    cases hin
  · refine ⟨shift, origin, RtpTimestampMapper.unwrap_close hsees (hclose last hseen),
      .inr hanchor, fun hnone => ?_, hmapped⟩
    rw [hanchor] at hnone
    cases hnone

/-- A frame is mapped relative to the origin. -/
theorem follows_frame (h : s.Follows) {index : Nat} {arrivalTimeUs : ℤ}
    (hclose : s.Close (.frame index arrivalTimeUs)) :
    (s.step (.frame index arrivalTimeUs)).Follows := by
  cases hframe : s.sent[index]? with
  | none =>
      simp only [step, hframe]
      exact h
  | some frame =>
      obtain ⟨hcaptured, htimestamp⟩ := h.sent frame (List.mem_of_getElem? hframe)
      obtain ⟨shift, origin, hunwrap, hanchor, hempty, hmapped⟩ :=
        unwrap_position h (hclose frame hframe)
      rw [← htimestamp] at hunwrap
      obtain ⟨anchor, hgetD, hanchor', hlocal, hlast, hunwrapped, hrate⟩ :=
        s.mapper.to_local_time frame.2 arrivalTimeUs
      simp only [step, hframe]
      refine { rate := hrate.trans h.rate, sent := h.sent, mapped := .inr ?_ }
      -- Without an anchor the frame becomes the origin, and no frame came before.
      obtain ⟨origin', horigin, hkept⟩ : ∃ origin' : Nat → ℤ × ℤ,
          anchor = ((origin' s.senderReports).1 + shift, (origin' s.senderReports).2) ∧
          ∀ f ∈ s.mapped, s.MappedBy origin' f := by
        rcases hanchor with hnone | hsome
        · refine ⟨fun _ => (s.position frame.1, arrivalTimeUs), ?_, fun f hin => ?_⟩
          · rw [hgetD, hnone, hunwrap]
            rfl
          · rw [hempty hnone] at hin
            cases hin
        · refine ⟨origin, ?_, hmapped⟩
          rw [hgetD, hsome]
          rfl
      refine ⟨s.position frame.1, shift, origin', rfl, ⟨?_, hunwrapped.trans hunwrap⟩, ?_,
        fun f hin => ?_⟩
      · rw [← htimestamp]
        exact hlast
      · rw [← horigin]
        exact hanchor'
      · rcases List.mem_append.mp hin with hold | hnew
        · exact hkept f hold
        · obtain rfl := List.mem_singleton.mp hnew
          refine ⟨le_refl _, hcaptured, ?_⟩
          show (s.mapper.toLocalTimeUs frame.2 arrivalTimeUs).2 = _
          rw [hlocal, hunwrap, h.rate, horigin, add_sub_add_right_eq_sub]
          rfl

/-- A sender report is the next origin. -/
theorem follows_report (h : s.Follows) {position localTimeUs : ℤ}
    (hclose : s.Close (.senderReport position localTimeUs)) :
    (s.step (.senderReport position localTimeUs)).Follows := by
  obtain ⟨shift, origin, hunwrap, -, -, hmapped⟩ := unwrap_position h hclose
  obtain ⟨hanchor, hlast, hunwrapped, hrate⟩ := s.mapper.update_from_sender_report
    (s.generator.baseTimestamp + BitVec.ofInt 32 position) localTimeUs
  obtain ⟨origin', horigin⟩ : ∃ origin' : Nat → ℤ × ℤ, origin' =
      Function.update origin (s.senderReports + 1) (position, localTimeUs) := ⟨_, rfl⟩
  have hnext : origin' (s.senderReports + 1) = (position, localTimeUs) := by
    rw [horigin, Function.update_self]
  refine { rate := hrate.trans h.rate, sent := h.sent, mapped := .inr ⟨position, shift, origin',
    rfl, ⟨hlast, hunwrapped.trans hunwrap⟩, ?_, fun f hin => ?_⟩ }
  · show (s.mapper.updateFromSenderReport _ localTimeUs).anchor =
      some ((origin' (s.senderReports + 1)).1 + shift, (origin' (s.senderReports + 1)).2)
    rw [hanchor, hunwrap, hnext]
  · obtain ⟨hle, hcaptured, hlocal⟩ := hmapped f hin
    have hne : f.senderReports ≠ s.senderReports + 1 := by omega
    have hsame : origin' f.senderReports = origin f.senderReports := by
      rw [horigin, Function.update_of_ne hne]
    refine ⟨Nat.le_succ_of_le hle, hcaptured, ?_⟩
    rw [hsame]
    exact hlocal

theorem follows_step (event : ClockEvent) (h : s.Follows) (hclose : s.Close event) :
    (s.step event).Follows := by
  cases event with
  | capture captureTimeUs => exact follows_capture h hclose
  | frame index arrivalTimeUs => exact follows_frame h hclose
  | senderReport position localTimeUs => exact follows_report h hclose

/-- The offset of the frames with an origin, in units of a microsecond by the clock rate. -/
def offsetOf (s : CaptureClock) (origin : ℤ × ℤ) : ℤ :=
  s.generator.clockRate.toNat * (origin.2 - s.generator.firstCaptureTimeUs.getD 0) -
    1000000 * origin.1

/-- A frame has the offset of its origin, up to the rest of a tick and a microsecond. -/
theorem mapped_offset {origin : Nat → ℤ × ℤ} {f : MappedFrame} (h : s.MappedBy origin f)
    (hrate : 0 < s.generator.clockRate.toNat) :
    -1000000 - (s.generator.clockRate.toNat : ℤ) <
        s.generator.clockRate.toNat * (f.localTimeUs - f.captureTimeUs) -
          s.offsetOf (origin f.senderReports) ∧
      s.generator.clockRate.toNat * (f.localTimeUs - f.captureTimeUs) -
        s.offsetOf (origin f.senderReports) < s.generator.clockRate.toNat := by
  obtain ⟨-, ⟨first, hfirst, hle⟩, hlocal⟩ := h
  have hposition : s.position f.captureTimeUs =
      ticksOf s.generator.clockRate (f.captureTimeUs - first) := by
    unfold position
    rw [hfirst]
    rfl
  have helapsed : 0 ≤ f.captureTimeUs - first := by omega
  obtain ⟨hticks, hticks'⟩ := ticks_of_bounds s.generator.clockRate helapsed
  rw [← hposition] at hticks hticks'
  obtain ⟨hlow, hhigh⟩ := abs_lt.mp (microseconds_bounds
    (s.position f.captureTimeUs - (origin f.senderReports).1) (Int.natCast_pos.mpr hrate))
  unfold offsetOf
  rw [hfirst, hlocal, Option.getD_some]
  constructor
  · linarith
  · linarith

theorem follows_run {clockRate baseTimestamp : BitVec 32} {events : List ClockEvent}
    (h : Run.Along step Close (start clockRate baseTimestamp) events) :
    (events.foldl step (start clockRate baseTimestamp)).Follows :=
  h.invariant (fun _ event hs hclose => follows_step event hs hclose)
    (follows_start clockRate baseTimestamp)

/-- The clock rate stays. -/
theorem clock_rate_run (s : CaptureClock) (events : List ClockEvent) :
    (events.foldl step s).generator.clockRate = s.generator.clockRate := by
  refine List.foldlRecOn events _
    (motive := fun t : CaptureClock => t.generator.clockRate = s.generator.clockRate) rfl
    fun t ht event _ => ?_
  rw [← ht]
  cases event with
  | capture captureTimeUs =>
      show (t.generator.timestampForCaptureTimeUs captureTimeUs).1.clockRate = _
      unfold RtpTimestampGenerator.timestampForCaptureTimeUs
      split <;> rfl
  | frame index arrivalTimeUs =>
      simp only [step]
      split <;> rfl
  | senderReport position localTimeUs => rfl

/-- In every run the local times of frames between the same sender reports differ as their capture
times do, up to one tick and two microseconds, and a sender report changes no more than the offset
of the frames from their capture times. A tick is `1000000 / clockRate` microseconds. -/
theorem capture_times_reconstructed (clockRate baseTimestamp : BitVec 32)
    (events : List ClockEvent)
    (h : Run.Along step Close (start clockRate baseTimestamp) events) :
    let s := events.foldl step (start clockRate baseTimestamp)
    (∀ f ∈ s.mapped, ∀ g ∈ s.mapped, f.senderReports = g.senderReports →
      clockRate.toNat *
          |(f.localTimeUs - g.localTimeUs) - (f.captureTimeUs - g.captureTimeUs)| <
        1000000 + 2 * (clockRate.toNat : ℤ)) ∧
    ∃ offset : Nat → ℤ, ∀ f ∈ s.mapped,
      |clockRate.toNat * (f.localTimeUs - f.captureTimeUs) - offset f.senderReports| <
        1000000 + (clockRate.toNat : ℤ) := by
  intro s
  have hrate : s.generator.clockRate = clockRate := clock_rate_run _ events
  by_cases hzero : clockRate.toNat = 0
  · rw [hzero]
    refine ⟨fun f _ g _ _ => by simp, fun _ => 0, fun f _ => by simp⟩
  have hpos : 0 < s.generator.clockRate.toNat := by
    rw [hrate]
    exact Nat.pos_of_ne_zero hzero
  obtain ⟨origin, horigin⟩ : ∃ origin : Nat → ℤ × ℤ, ∀ f ∈ s.mapped, s.MappedBy origin f := by
    obtain ⟨-, -, -, hnone⟩ | ⟨-, -, origin, -, -, -, hmapped⟩ := (follows_run h).mapped
    · refine ⟨fun _ => (0, 0), fun f hin => ?_⟩
      rw [hnone] at hin
      cases hin
    · exact ⟨origin, hmapped⟩
  have hoffset := fun f hin => mapped_offset (horigin f hin) hpos
  rw [hrate] at hoffset hpos
  refine ⟨fun f hf g hg hsame => ?_, fun k => s.offsetOf (origin k), fun f hf => ?_⟩
  · obtain ⟨hlow, hhigh⟩ := hoffset f hf
    obtain ⟨hlow', hhigh'⟩ := hoffset g hg
    rw [hsame] at hlow hhigh
    have hscale : (clockRate.toNat : ℤ) *
        |(f.localTimeUs - g.localTimeUs) - (f.captureTimeUs - g.captureTimeUs)| =
        |clockRate.toNat * (f.localTimeUs - f.captureTimeUs) -
          clockRate.toNat * (g.localTimeUs - g.captureTimeUs)| := by
      rw [← abs_of_nonneg (Int.natCast_nonneg clockRate.toNat), ← abs_mul,
        abs_of_nonneg (Int.natCast_nonneg clockRate.toNat)]
      congr 1
      ring
    rw [hscale, abs_lt]
    constructor
    · linarith
    · linarith
  · obtain ⟨hlow, hhigh⟩ := hoffset f hf
    rw [abs_lt]
    constructor
    · linarith
    · linarith

/-- Two frames out of order, a sender report and a frame after the wrap. -/
theorem capture_times_reconstructed_wrap :
    let events : List ClockEvent := [.capture 1000, .capture 34333, .capture 67667,
      .frame 1 500000, .frame 0 510000, .senderReport 5000 900000, .frame 2 920000]
    Run.Along step Close (start 90000 0xFFFFFFF0) events ∧
      let s := events.foldl step (start 90000 0xFFFFFFF0)
      (s.mapped.map fun f => (f.localTimeUs, f.senderReports)) =
          [(500000, 0), (466678, 0), (911111, 1)] ∧
        (∀ f ∈ s.mapped, ∀ g ∈ s.mapped, f.senderReports = g.senderReports →
          (90000#32).toNat *
              |(f.localTimeUs - g.localTimeUs) - (f.captureTimeUs - g.captureTimeUs)| <
            1000000 + 2 * ((90000#32).toNat : ℤ)) := by
  intro events
  have halong : Run.Along step Close (start 90000 0xFFFFFFF0) events := by
    decide +kernel
  exact ⟨halong, by decide +kernel,
    (capture_times_reconstructed 90000 0xFFFFFFF0 events halong).1⟩

end CaptureClock

end MiniRtc
