import Mathlib.Algebra.Order.Ring.Abs
import Mathlib.Tactic.Linarith
import MiniRtc.Rtcp.Compound

/-!
# The round trip time of a report

A sender report carries the time at which it was built, the receiver answers with that time and the
delay of its answer, and `HandleReportBlock` takes both from its own time. All times are in units of
2^-16 seconds, cut off. `compact_time_eq` gives the units of a compact time, up to the wrap.

The round trip time is within one millisecond exactly when the units of the delay are not more than
those that have passed at the sender (`rtt_accurate_iff`). Else the difference wraps to a value of
hours.
-/

namespace MiniRtc

/-! ## The functions of the source -/

/-- `SystemClock`, by the offset that it takes when it is made. -/
structure SystemClock where
  monotonicToUtcOffsetUs : ℤ

/-- `kNtpEpochOffsetSeconds`. -/
def kNtpEpochOffsetSeconds : ℤ := 2208988800

namespace SystemClock

/-- `CurrentTimeUs` at a reading in nanoseconds. -/
def currentTimeUs (ns : ℤ) : ℤ :=
  ns.tdiv 1000

/-- `UtcTimeUsToNtp`. -/
def utcTimeUsToNtp (utcTimeUs : ℤ) : BitVec 64 :=
  let unixSeconds := utcTimeUs.tdiv 1000000
  let microseconds := utcTimeUs.tmod 1000000
  let seconds := if microseconds < 0 then unixSeconds - 1 else unixSeconds
  let rest := if microseconds < 0 then microseconds + 1000000 else microseconds
  let ntpSeconds := BitVec.ofInt 32 (seconds + kNtpEpochOffsetSeconds)
  let ntpFractions := BitVec.ofNat 32 (rest.toNat * 2 ^ 32 / 1000000)
  (ntpSeconds.setWidth 64 <<< 32) ||| ntpFractions.setWidth 64

/-- `MonotonicTimeUsToNtp`. -/
def monotonicTimeUsToNtp (c : SystemClock) (monotonicTimeUs : ℤ) : BitVec 64 :=
  utcTimeUsToNtp (monotonicTimeUs + c.monotonicToUtcOffsetUs)

/-- `CurrentNtpTime`. -/
def currentNtpTime (c : SystemClock) (ns : ℤ) : BitVec 64 :=
  c.monotonicTimeUsToNtp (currentTimeUs ns)

end SystemClock

/-- What the video receiver keeps of the last sender report for its answer. -/
structure SenderReportReceipt where
  lastRemoteNtpTimestamp : BitVec 32 := 0
  lastArrivalNtpTimestamp : BitVec 32 := 0

namespace SenderReportReceipt

/-- The part of `OnSenderReport` for the answer, at a reading of the clock. -/
def onSenderReport (r : SenderReportReceipt) (clock : SystemClock) (ns : ℤ)
    (ntpTimestamp : BitVec 64) : SenderReportReceipt :=
  if ntpTimestamp = 0 then r
  else
    { lastRemoteNtpTimestamp := compactNtp ntpTimestamp
      lastArrivalNtpTimestamp := compactNtp (clock.currentNtpTime ns) }

/-- The part of `SendRR` for the round trip time. -/
def reportBlock (r : SenderReportReceipt) (clock : SystemClock) (ns : ℤ) : RtcpReportBlock :=
  { lastSr := r.lastRemoteNtpTimestamp
    delaySinceLastSr :=
      if r.lastRemoteNtpTimestamp ≠ 0 then
        compactNtp (clock.currentNtpTime ns) - r.lastArrivalNtpTimestamp
      else 0 }

end SenderReportReceipt

/-- A report and its answer: the clocks of both sides, and what they read in nanoseconds when the
report is built, when it is received, when it is answered and when the answer is handled. -/
structure ReportExchange where
  sender : SystemClock
  receiver : SystemClock
  builtNs : ℤ
  receivedNs : ℤ
  answeredNs : ℤ
  returnedNs : ℤ

namespace ReportExchange

open SystemClock

variable (x : ReportExchange)

/-- The time that `MaybeSendSenderReport` writes into the report. -/
def reportedNtp : BitVec 64 :=
  x.sender.monotonicTimeUsToNtp (currentTimeUs x.builtNs)

/-- The block of the answer. -/
def answer : RtcpReportBlock :=
  (({} : SenderReportReceipt).onSenderReport x.receiver x.receivedNs x.reportedNtp).reportBlock
    x.receiver x.answeredNs

/-- The round trip time of `HandleReportBlock` in milliseconds, when it has one. -/
def rttMs (remoteSsrc : BitVec 32) (utcUs : ℤ) : Option ℤ :=
  (IceTransport.reportBlockData
    { nowUs := currentTimeUs x.returnedNs
      nowNtp := x.sender.currentNtpTime x.returnedNs
      utcUs } remoteSsrc x.answer).lastRtt

/-- The time on the network: what has passed at the sender without the delay of the receiver. -/
def trueRttNs : ℤ :=
  x.returnedNs - x.builtNs - (x.answeredNs - x.receivedNs)

end ReportExchange

/-! ## Units of compact times -/

namespace SystemClock

/-- The whole units of 2^-16 seconds since 1900 that a clock has counted. -/
def compactUnits (c : SystemClock) (ns : ℤ) : ℤ :=
  (currentTimeUs ns + c.monotonicToUtcOffsetUs + kNtpEpochOffsetSeconds * 1000000) * 65536 / 1000000

/-- Seconds and microseconds are those of a floor division. -/
theorem utc_time_us_to_ntp_eq (utcTimeUs : ℤ) :
    utcTimeUsToNtp utcTimeUs =
      ((BitVec.ofInt 32 (utcTimeUs / 1000000 + kNtpEpochOffsetSeconds)).setWidth 64 <<< 32) |||
        (BitVec.ofNat 32 ((utcTimeUs % 1000000).toNat * 2 ^ 32 / 1000000)).setWidth 64 := by
  have hdiv := Int.mul_tdiv_add_tmod utcTimeUs 1000000
  have hupper := Int.tmod_lt_of_pos utcTimeUs (by decide : (0 : ℤ) < 1000000)
  have hlower := Int.lt_tmod_of_pos utcTimeUs (by decide : (0 : ℤ) < 1000000)
  unfold utcTimeUsToNtp
  simp only
  split
  · have hseconds : utcTimeUs.tdiv 1000000 - 1 = utcTimeUs / 1000000 := by omega
    have hrest : utcTimeUs.tmod 1000000 + 1000000 = utcTimeUs % 1000000 := by omega
    rw [hseconds, hrest]
  · have hseconds : utcTimeUs.tdiv 1000000 = utcTimeUs / 1000000 := by omega
    have hrest : utcTimeUs.tmod 1000000 = utcTimeUs % 1000000 := by omega
    rw [hseconds, hrest]

/-- The seconds of an NTP time. -/
theorem ntp_seconds_eq (seconds fractions : BitVec 32) :
    (((seconds.setWidth 64 <<< 32) ||| fractions.setWidth 64) >>> 32).setWidth 32 = seconds := by
  ext i hi
  have hlow : i < 64 := by omega
  have hhigh : 32 + i < 64 := by omega
  simp [hlow, hhigh, BitVec.getLsbD_eq_getElem hi]

/-- The fractions of an NTP time. -/
theorem ntp_fractions_eq (seconds fractions : BitVec 32) :
    ((seconds.setWidth 64 <<< 32) ||| fractions.setWidth 64).setWidth 32 = fractions := by
  ext i hi
  simp

/-- The middle of an NTP time: the lower half of the seconds and the upper half of the fractions. -/
theorem compact_ntp_halves (seconds fractions : BitVec 32) :
    compactNtp ((seconds.setWidth 64 <<< 32) ||| fractions.setWidth 64) =
      (seconds <<< 16) ||| (fractions >>> 16) := by
  unfold compactNtp
  rw [ntp_seconds_eq, ntp_fractions_eq]

/-- Two halves that do not meet are added. -/
theorem shifted_or_eq_add {seconds rest : BitVec 32} (h : rest.toNat < 2 ^ 16) :
    (seconds <<< 16) ||| rest = seconds * 65536 + rest := by
  have hmul : seconds <<< 16 = seconds * 65536 := by
    rw [BitVec.shiftLeft_eq_mul_twoPow]
    rfl
  have hdisjoint : (seconds <<< 16) &&& rest = 0 := by
    ext i hi
    by_cases hlow : i < 16
    · simp [hlow]
    · have hbit : rest[i] = false := by
        rw [← BitVec.getLsbD_eq_getElem hi]
        exact Nat.testBit_lt_two_pow (h.trans_le (Nat.pow_le_pow_right (by decide) (by omega)))
      simp [hbit]
  rw [← hmul, BitVec.add_eq_or_of_and_eq_zero _ _ hdisjoint]

/-- A compact time has the units of its clock, up to the wrap. -/
theorem compact_time_eq (c : SystemClock) (ns : ℤ) :
    compactNtp (c.currentNtpTime ns) = BitVec.ofInt 32 (c.compactUnits ns) := by
  unfold currentNtpTime monotonicTimeUsToNtp compactUnits
  generalize currentTimeUs ns + c.monotonicToUtcOffsetUs = utcTimeUs
  have hrest : ((utcTimeUs % 1000000).toNat : ℤ) = utcTimeUs % 1000000 :=
    Int.toNat_of_nonneg (Int.emod_nonneg _ (by decide))
  have hbelow : (utcTimeUs % 1000000).toNat < 1000000 := by omega
  have hunits : (utcTimeUs + kNtpEpochOffsetSeconds * 1000000) * 65536 / 1000000 =
      (utcTimeUs / 1000000 + kNtpEpochOffsetSeconds) * 65536 +
        ((utcTimeUs % 1000000).toNat * 65536 / 1000000 : Nat) := by
    unfold kNtpEpochOffsetSeconds
    omega
  rw [utc_time_us_to_ntp_eq, compact_ntp_halves, hunits]
  generalize (utcTimeUs % 1000000).toNat = rest at *
  generalize utcTimeUs / 1000000 + kNtpEpochOffsetSeconds = seconds
  have hfractions : BitVec.ofNat 32 (rest * 2 ^ 32 / 1000000) >>> 16 =
      BitVec.ofNat 32 (rest * 65536 / 1000000) := by
    apply BitVec.eq_of_toNat_eq
    rw [BitVec.toNat_ushiftRight, BitVec.toNat_ofNat, BitVec.toNat_ofNat,
      Nat.mod_eq_of_lt (by omega), Nat.mod_eq_of_lt (by omega), Nat.shiftRight_eq_div_pow]
    omega
  have hsmall : (BitVec.ofNat 32 (rest * 65536 / 1000000)).toNat < 2 ^ 16 := by
    rw [BitVec.toNat_ofNat, Nat.mod_eq_of_lt (by omega)]
    omega
  rw [hfractions, shifted_or_eq_add hsmall, BitVec.ofInt_add, BitVec.ofInt_mul,
    BitVec.ofInt_natCast]
  rfl

/-- The microseconds of a reading are cut off. -/
theorem current_time_us_bounds (ns : ℤ) :
    1000 * currentTimeUs ns - ns < 1000 ∧ ns - 1000 * currentTimeUs ns < 1000 := by
  have hdiv := Int.mul_tdiv_add_tmod ns 1000
  have hupper := Int.tmod_lt_of_pos ns (by decide : (0 : ℤ) < 1000)
  have hlower := Int.lt_tmod_of_pos ns (by decide : (0 : ℤ) < 1000)
  unfold currentTimeUs
  omega

end SystemClock

/-! ## The round trip time -/

namespace ReportExchange

open SystemClock

variable {x : ReportExchange}

/-- The units that pass at the sender, without those of the delay at the receiver. -/
def rttUnits (x : ReportExchange) : ℤ :=
  x.sender.compactUnits x.returnedNs - x.sender.compactUnits x.builtNs -
    (x.receiver.compactUnits x.answeredNs - x.receiver.compactUnits x.receivedNs)

/-- The report has a time that is not zero. -/
def Reported (x : ReportExchange) : Prop :=
  compactNtp x.reportedNtp ≠ 0

instance (x : ReportExchange) : Decidable x.Reported :=
  inferInstanceAs (Decidable (_ ≠ _))

/-- The answer has the time of the report and the units of the delay. -/
theorem answer_eq (h : x.Reported) :
    x.answer.lastSr = BitVec.ofInt 32 (x.sender.compactUnits x.builtNs) ∧
      x.answer.delaySinceLastSr =
        BitVec.ofInt 32 (x.receiver.compactUnits x.answeredNs) -
          BitVec.ofInt 32 (x.receiver.compactUnits x.receivedNs) := by
  have hntp : x.reportedNtp ≠ 0 := by
    intro hzero
    rw [Reported, hzero] at h
    exact h rfl
  unfold answer SenderReportReceipt.onSenderReport SenderReportReceipt.reportBlock
  rw [if_neg hntp]
  refine ⟨compact_time_eq x.sender x.builtNs, ?_⟩
  show (if compactNtp x.reportedNtp ≠ 0 then _ else _) = _
  rw [if_pos (show compactNtp x.reportedNtp ≠ 0 from h), compact_time_eq, compact_time_eq]

/-- Without a time there is no round trip time. -/
theorem rtt_of_not_reported (h : ¬ x.Reported) (remoteSsrc : BitVec 32) (utcUs : ℤ) :
    x.rttMs remoteSsrc utcUs = none := by
  have hzero : compactNtp x.reportedNtp = 0 := not_not.mp h
  have hlast : x.answer.lastSr = 0 := by
    unfold answer SenderReportReceipt.onSenderReport SenderReportReceipt.reportBlock
    split
    · rfl
    · exact hzero
  exact if_neg (not_not.mpr hlast)

/-- The round trip time is that of the units, up to the wrap. -/
theorem rtt_eq (h : x.Reported) (remoteSsrc : BitVec 32) (utcUs : ℤ) :
    x.rttMs remoteSsrc utcUs =
      some (compactNtpIntervalToMilliseconds (BitVec.ofInt 32 x.rttUnits)) := by
  obtain ⟨hlast, hdelay⟩ := answer_eq h
  have hsr : x.answer.lastSr ≠ 0 := by
    rw [hlast, ← compact_time_eq]
    exact h
  have hsub : ∀ m n : ℤ, BitVec.ofInt 32 (m - n) = BitVec.ofInt 32 m - BitVec.ofInt 32 n := by
    intro m n
    rw [Int.sub_eq_add_neg, BitVec.ofInt_add, BitVec.ofInt_neg, BitVec.sub_eq_add_neg]
  have hinterval : compactNtp (x.sender.currentNtpTime x.returnedNs) -
      x.answer.delaySinceLastSr - x.answer.lastSr = BitVec.ofInt 32 x.rttUnits := by
    rw [hlast, hdelay, compact_time_eq]
    unfold rttUnits
    rw [hsub, hsub, hsub]
    ring
  refine (if_pos hsr).trans ?_
  rw [hinterval]

/-- The units are those of the time on the network, up to two on each side. -/
theorem rtt_units_bounds (x : ReportExchange) :
    15625000 * x.rttUnits - 1024 * x.trueRttNs < 36000000 ∧
      1024 * x.trueRttNs - 15625000 * x.rttUnits < 36000000 := by
  obtain ⟨hbuilt, hbuilt'⟩ := current_time_us_bounds x.builtNs
  obtain ⟨hreceived, hreceived'⟩ := current_time_us_bounds x.receivedNs
  obtain ⟨hanswered, hanswered'⟩ := current_time_us_bounds x.answeredNs
  obtain ⟨hreturned, hreturned'⟩ := current_time_us_bounds x.returnedNs
  unfold rttUnits trueRttNs compactUnits kNtpEpochOffsetSeconds
  omega

/-- A round trip time that does not wrap is rounded to milliseconds. -/
theorem milliseconds_eq {units : ℤ} (hnonneg : 0 ≤ units) (hfits : units < 2 ^ 32) :
    compactNtpIntervalToMilliseconds (BitVec.ofInt 32 units) =
      (units * 1000 + 32768) / 65536 := by
  have hvalue : ((BitVec.ofInt 32 units).toNat : ℤ) = units := by
    rw [BitVec.toNat_ofInt, Int.toNat_of_nonneg (Int.emod_nonneg _ (by decide))]
    exact Int.emod_eq_of_lt hnonneg hfits
  unfold compactNtpIntervalToMilliseconds
  push_cast
  rw [hvalue]

/-- Negative units wrap. -/
theorem milliseconds_of_negative {units : ℤ} (hnegative : units < 0) (hfits : -2 ^ 32 ≤ units) :
    compactNtpIntervalToMilliseconds (BitVec.ofInt 32 units) =
      ((units + 2 ^ 32) * 1000 + 32768) / 65536 := by
  have hwrap : BitVec.ofInt 32 units = BitVec.ofInt 32 (units + 2 ^ 32) := by
    have hturn : BitVec.ofInt 32 (2 ^ 32) = 0 := by decide
    rw [BitVec.ofInt_add, hturn]
    exact (BitVec.add_zero _).symm
  rw [hwrap]
  exact milliseconds_eq (by omega) (by omega)

/-- The round trip time is within one millisecond of the true one exactly when there is none, or the
sender counts no fewer units than the receiver for its delay. -/
theorem rtt_accurate_iff (x : ReportExchange) (remoteSsrc : BitVec 32) (utcUs : ℤ)
    (hnonneg : 0 ≤ x.trueRttNs) (hshort : x.trueRttNs ≤ 2000 * 1000000) :
    (∀ rtt ∈ x.rttMs remoteSsrc utcUs, |rtt * 1000000 - x.trueRttNs| ≤ 1000000) ↔
      (¬ x.Reported ∨
        x.receiver.compactUnits x.answeredNs - x.receiver.compactUnits x.receivedNs ≤
          x.sender.compactUnits x.returnedNs - x.sender.compactUnits x.builtNs) := by
  obtain ⟨hupper, hlower⟩ := x.rtt_units_bounds
  by_cases hreported : x.Reported
  · rw [rtt_eq hreported]
    have hcondition : (¬ x.Reported ∨ x.receiver.compactUnits x.answeredNs -
        x.receiver.compactUnits x.receivedNs ≤ x.sender.compactUnits x.returnedNs -
          x.sender.compactUnits x.builtNs) ↔ 0 ≤ x.rttUnits := by
      rw [or_iff_right (not_not.mpr hreported)]
      exact sub_nonneg.symm
    rw [hcondition]
    constructor
    · intro h
      by_contra hnegative
      have hms := abs_le.mp (h _ rfl)
      rw [milliseconds_of_negative (by omega) (by omega)] at hms
      omega
    · intro hunits rtt hrtt
      rw [milliseconds_eq hunits (by omega)] at hrtt
      obtain rfl := Option.some.inj hrtt
      rw [abs_le]
      constructor <;> omega
  · refine iff_of_true (fun rtt hrtt => ?_) (Or.inl hreported)
    rw [rtt_of_not_reported hreported] at hrtt
    cases hrtt

/-- A round trip of 20 ms between clocks that are far apart. -/
def acrossTheOcean : ReportExchange where
  sender := ⟨1700000000000000⟩
  receiver := ⟨-5000000⟩
  builtNs := 1000000000
  receivedNs := 7000000000
  answeredNs := 7300000000
  returnedNs := 1320000000

/-- It is measured. -/
theorem rtt_accurate_across_the_ocean :
    acrossTheOcean.rttMs 7 0 = some 20 ∧ |20 * 1000000 - acrossTheOcean.trueRttNs| ≤ 1000000 := by
  have hrtt : acrossTheOcean.rttMs 7 0 = some 20 := by decide
  exact ⟨hrtt, (rtt_accurate_iff acrossTheOcean 7 0 (by decide) (by decide)).mpr
    (Or.inr (by decide)) 20 hrtt⟩

/-- A round trip without any delay on the network: the report is built at the end of a unit of the
sender and received at the start of a unit of the receiver. -/
def atTheEndOfAUnit : ReportExchange where
  sender := ⟨1700000000000000⟩
  receiver := ⟨1700000000000000⟩
  builtNs := 1000000
  receivedNs := 1000015000
  answeredNs := 1000016000
  returnedNs := 1001000

/-- It is measured as 18 hours. -/
theorem rtt_of_hours :
    ¬ ∀ rtt ∈ atTheEndOfAUnit.rttMs 7 0, |rtt * 1000000 - atTheEndOfAUnit.trueRttNs| ≤ 1000000 := by
  decide

end ReportExchange

end MiniRtc
