import MiniRtc.Numerics.Eras
import MiniRtc.Rtcp.RoundTripTime

/-!
# Wall clock times as NTP times and back

`UtcTimeUsToNtp` keeps the seconds of a time modulo 2^32, and `NtpToUtcTimeUs` finds their era with
the wall clock. The microseconds come back as they were (`fractions_round_trip`), and so do the
seconds when the times are not too far apart.

The second of a time is that below it, but the second of the wall clock is that towards 1970.
Before 1970 the clock therefore counts up to one second too much, and a time that is just less than
2^31 - 1 seconds before it can be half an era away (`TurnedAround`). It then comes back 2^32 seconds
too late when the clock stands in the first half of its era, and only then (`ntp_round_trip_iff`).
-/

namespace MiniRtc

namespace SystemClock

/-! ## The functions of the source -/

/-- `CurrentUtcTimeUs` at a reading of the UTC source in nanoseconds. -/
def currentUtcTimeUs (utcNs : ℤ) : ℤ :=
  utcNs.tdiv 1000

/-- `NtpToUtcTimeUs` at a reading of the UTC source in nanoseconds. -/
def ntpToUtcTimeUs (utcNs : ℤ) (ntpTime : BitVec 64) : ℤ :=
  let ntpSeconds := (ntpTime >>> 32).setWidth 32
  let ntpFractions := ntpTime.setWidth 32
  let currentNtpSeconds := (currentUtcTimeUs utcNs).tdiv 1000000 + kNtpEpochOffsetSeconds
  -- `>>` of a signed number rounds down.
  let currentEra : ℤ := currentNtpSeconds / 2 ^ 32
  let expandedNtpSeconds : ℤ := currentEra * 2 ^ 32 + ntpSeconds.toNat
  let expandedNtpSeconds :=
    if expandedNtpSeconds - currentNtpSeconds > 2 ^ 32 / 2 then expandedNtpSeconds - 2 ^ 32
    else if currentNtpSeconds - expandedNtpSeconds > 2 ^ 32 / 2 then expandedNtpSeconds + 2 ^ 32
    else expandedNtpSeconds
  let fractionalUs : Nat := (ntpFractions.toNat * 1000000 + 2 ^ 32 / 2) / 2 ^ 32
  (expandedNtpSeconds - kNtpEpochOffsetSeconds) * 1000000 + fractionalUs

/-- `NtpToMonotonicTimeUs`. -/
def ntpToMonotonicTimeUs (c : SystemClock) (utcNs : ℤ) (ntpTime : BitVec 64) : ℤ :=
  ntpToUtcTimeUs utcNs ntpTime - c.monotonicToUtcOffsetUs

/-! ## There -/

/-- The whole seconds since 1900. -/
def secondsSince1900 (utcTimeUs : ℤ) : ℤ :=
  utcTimeUs / 1000000 + kNtpEpochOffsetSeconds

/-- The era of a time. -/
def ntpEra (utcTimeUs : ℤ) : ℤ :=
  secondsSince1900 utcTimeUs / 2 ^ 32

/-- The microseconds of a time in units of 2^-32 seconds, cut off. -/
def fractionUnits (utcTimeUs : ℤ) : Nat :=
  (utcTimeUs % 1000000).toNat * 2 ^ 32 / 1000000

/-- The fractions fit into their field. -/
theorem ntp_fractions_lt (utcTimeUs : ℤ) : fractionUnits utcTimeUs < 2 ^ 32 := by
  have hbelow : (utcTimeUs % 1000000).toNat < 1000000 := by omega
  unfold fractionUnits
  omega

/-- An NTP time is its seconds modulo 2^32 before its fractions. -/
theorem utc_time_us_to_ntp_to_nat (utcTimeUs : ℤ) :
    ((utcTimeUsToNtp utcTimeUs).toNat : ℤ) =
      secondsSince1900 utcTimeUs % 2 ^ 32 * 2 ^ 32 + fractionUnits utcTimeUs := by
  have hfractions := ntp_fractions_lt utcTimeUs
  have hwidth : ((BitVec.ofInt 32 (secondsSince1900 utcTimeUs)).toNat : ℤ) =
      secondsSince1900 utcTimeUs % 2 ^ 32 := by
    rw [BitVec.toNat_ofInt]
    exact Int.toNat_of_nonneg (Int.emod_nonneg _ (by decide))
  rw [← hwidth, utc_time_us_to_ntp_eq]
  show ((((BitVec.ofInt 32 (secondsSince1900 utcTimeUs)).setWidth 64 <<< 32) |||
    (BitVec.ofNat 32 (fractionUnits utcTimeUs)).setWidth 64).toNat : ℤ) = _
  generalize BitVec.ofInt 32 (secondsSince1900 utcTimeUs) = seconds
  generalize fractionUnits utcTimeUs = fractions at *
  have hseconds := seconds.isLt
  rw [BitVec.toNat_or, BitVec.toNat_shiftLeft, BitVec.toNat_setWidth, BitVec.toNat_setWidth,
    BitVec.toNat_ofNat, Nat.mod_eq_of_lt hfractions, Nat.mod_eq_of_lt (by omega),
    Nat.mod_eq_of_lt (by omega), Nat.shiftLeft_eq, Nat.mod_eq_of_lt (by omega),
    ← Nat.shiftLeft_eq, ← Nat.shiftLeft_add_eq_or_of_lt hfractions, Nat.shiftLeft_eq]
  push_cast
  rfl

/-- Later times of one era have later NTP times. -/
theorem ntp_increasing {earlier later : ℤ} (hlater : earlier < later)
    (hera : ntpEra earlier = ntpEra later) : utcTimeUsToNtp earlier < utcTimeUsToNtp later := by
  have hearlier := utc_time_us_to_ntp_to_nat earlier
  have hlater' := utc_time_us_to_ntp_to_nat later
  have hfractions := ntp_fractions_lt earlier
  rw [BitVec.lt_def]
  zify
  rw [hearlier, hlater']
  unfold ntpEra at hera
  -- Either the second grows, or it is the same and the microseconds grow.
  obtain hseconds | hseconds : earlier / 1000000 < later / 1000000 ∨
      earlier / 1000000 = later / 1000000 := by omega
  · unfold secondsSince1900 at *
    omega
  · have hrest : (earlier % 1000000).toNat < (later % 1000000).toNat := by omega
    have hgrow : fractionUnits earlier < fractionUnits later := by
      unfold fractionUnits
      omega
    unfold secondsSince1900 at *
    omega

/-! ## And back -/

/-- The microseconds come back as they were. -/
theorem fractions_round_trip (utcTimeUs : ℤ) :
    (((fractionUnits utcTimeUs * 1000000 + 2 ^ 32 / 2) / 2 ^ 32 : Nat) : ℤ) =
      utcTimeUs % 1000000 := by
  have hrest : ((utcTimeUs % 1000000).toNat : ℤ) = utcTimeUs % 1000000 :=
    Int.toNat_of_nonneg (Int.emod_nonneg _ (by decide))
  have hbelow : (utcTimeUs % 1000000).toNat < 1000000 := by omega
  rw [← hrest]
  unfold fractionUnits
  generalize (utcTimeUs % 1000000).toNat = rest at *
  norm_cast
  omega

/-- The seconds towards 1970 of the wall clock, since 1900. -/
def currentNtpSeconds (utcNs : ℤ) : ℤ :=
  (currentUtcTimeUs utcNs).tdiv 1000000 + kNtpEpochOffsetSeconds

/-- A time comes back exactly when its seconds are found again. -/
theorem ntp_round_trip_of_seconds (utcNs utcTimeUs : ℤ) :
    ntpToUtcTimeUs utcNs (utcTimeUsToNtp utcTimeUs) = utcTimeUs ↔
      expandNear (2 ^ 31) (currentNtpSeconds utcNs) (secondsSince1900 utcTimeUs % (2 * 2 ^ 31)) =
        secondsSince1900 utcTimeUs := by
  have hfractions := ntp_fractions_lt utcTimeUs
  have hseconds : ((BitVec.ofInt 32 (secondsSince1900 utcTimeUs)).toNat : ℤ) =
      secondsSince1900 utcTimeUs % (2 * 2 ^ 31) := by
    rw [BitVec.toNat_ofInt]
    exact Int.toNat_of_nonneg (Int.emod_nonneg _ (by decide))
  have hrest : (BitVec.ofNat 32 (fractionUnits utcTimeUs)).toNat = fractionUnits utcTimeUs := by
    rw [BitVec.toNat_ofNat]
    exact Nat.mod_eq_of_lt hfractions
  have hvalue : ntpToUtcTimeUs utcNs (utcTimeUsToNtp utcTimeUs) =
      (expandNear (2 ^ 31) (currentNtpSeconds utcNs) (secondsSince1900 utcTimeUs % (2 * 2 ^ 31)) -
        kNtpEpochOffsetSeconds) * 1000000 + utcTimeUs % 1000000 := by
    rw [← fractions_round_trip, ← hseconds, ← hrest, utc_time_us_to_ntp_eq]
    unfold ntpToUtcTimeUs
    simp only [ntp_seconds_eq, ntp_fractions_eq]
    rfl
  rw [hvalue]
  unfold secondsSince1900
  omega

/-- The time is half an era before the second that the wall clock counts: the clock stands before
1970 and within a second, the time is 2^31 - 1 seconds before this second, and the second after it
is in the first half of its era. -/
def TurnedAround (utcNs utcTimeUs : ℤ) : Prop :=
  currentUtcTimeUs utcNs < 0 ∧ currentUtcTimeUs utcNs % 1000000 ≠ 0 ∧
    utcTimeUs / 1000000 = currentUtcTimeUs utcNs / 1000000 - (2 ^ 31 - 1) ∧
    (currentUtcTimeUs utcNs / 1000000 + 1 + kNtpEpochOffsetSeconds) % 2 ^ 32 < 2 ^ 31

instance (utcNs utcTimeUs : ℤ) : Decidable (TurnedAround utcNs utcTimeUs) :=
  inferInstanceAs (Decidable (_ ∧ _))

/-- A clock from 1970 on turns no time around. -/
theorem not_turned_around_of_nonneg {utcNs : ℤ} (hnonneg : 0 ≤ utcNs) (utcTimeUs : ℤ) :
    ¬ TurnedAround utcNs utcTimeUs := by
  intro h
  exact absurd h.1 (not_lt.mpr (Int.tdiv_nonneg hnonneg (by decide)))

/-- The second of the wall clock is the next one when the clock stands before 1970 and within a
second, and else its own. -/
theorem current_ntp_seconds_eq (utcNs : ℤ) :
    currentNtpSeconds utcNs =
      if currentUtcTimeUs utcNs < 0 ∧ currentUtcTimeUs utcNs % 1000000 ≠ 0 then
        currentUtcTimeUs utcNs / 1000000 + 1 + kNtpEpochOffsetSeconds
      else currentUtcTimeUs utcNs / 1000000 + kNtpEpochOffsetSeconds := by
  unfold currentNtpSeconds
  generalize currentUtcTimeUs utcNs = now
  have hdiv := Int.mul_tdiv_add_tmod now 1000000
  have hupper := Int.tmod_lt_of_pos now (by decide : (0 : ℤ) < 1000000)
  have hlower := Int.lt_tmod_of_pos now (by decide : (0 : ℤ) < 1000000)
  have hnonneg : 0 ≤ now → 0 ≤ now.tmod 1000000 := Int.tmod_nonneg 1000000
  have hnonpos : now ≤ 0 → now.tmod 1000000 ≤ 0 := by
    intro h
    have hopposite := Int.tmod_nonneg 1000000 (Int.neg_nonneg_of_nonpos h)
    rw [Int.neg_tmod] at hopposite
    omega
  split <;> omega

/-- A time comes back unless it is turned around by the wall clock. -/
theorem comes_back_iff {utcNs utcTimeUs : ℤ}
    (hnear : |utcTimeUs - currentUtcTimeUs utcNs| < (2 ^ 31 - 1) * 1000000) :
    ntpToUtcTimeUs utcNs (utcTimeUsToNtp utcTimeUs) = utcTimeUs ↔
      ¬ TurnedAround utcNs utcTimeUs := by
  rw [ntp_round_trip_of_seconds]
  obtain ⟨hbelow, habove⟩ := abs_lt.mp hnear
  have hcurrent := current_ntp_seconds_eq utcNs
  by_cases hturn : secondsSince1900 utcTimeUs = currentNtpSeconds utcNs - 2 ^ 31
  · -- The time is half an era away, which only a clock before 1970 can bring about.
    rw [hturn, expand_near_below (by decide)]
    unfold TurnedAround
    unfold secondsSince1900 at hturn
    split at hcurrent <;> omega
  · refine iff_of_true (expand_near_eq (by decide) ?_) ?_
    · rw [abs_lt]
      unfold secondsSince1900 at hturn ⊢
      split at hcurrent <;> omega
    · intro h
      obtain ⟨hbefore, hwithin, hseconds, -⟩ := h
      rw [if_pos ⟨hbefore, hwithin⟩] at hcurrent
      unfold secondsSince1900 at hturn
      omega

/-- With a wall clock from 1970 on every monotonic time comes back. -/
theorem monotonic_time_comes_back (c : SystemClock) {utcNs monotonicTimeUs : ℤ}
    (hnonneg : 0 ≤ utcNs)
    (hnear : |monotonicTimeUs + c.monotonicToUtcOffsetUs - currentUtcTimeUs utcNs| <
      (2 ^ 31 - 1) * 1000000) :
    c.ntpToMonotonicTimeUs utcNs (c.monotonicTimeUsToNtp monotonicTimeUs) = monotonicTimeUs := by
  unfold ntpToMonotonicTimeUs monotonicTimeUsToNtp
  rw [(comes_back_iff hnear).mpr (not_turned_around_of_nonneg hnonneg _)]
  exact Int.add_sub_cancel _ _

/-- A time comes back, and later times of its era have later NTP times, unless it is turned around
by the wall clock. -/
theorem ntp_round_trip_iff (utcNs utcTimeUs : ℤ)
    (hnear : |utcTimeUs - currentUtcTimeUs utcNs| < (2 ^ 31 - 1) * 1000000) :
    (ntpToUtcTimeUs utcNs (utcTimeUsToNtp utcTimeUs) = utcTimeUs ∧
      ∀ later, utcTimeUs < later → ntpEra utcTimeUs = ntpEra later →
        utcTimeUsToNtp utcTimeUs < utcTimeUsToNtp later) ↔ ¬ TurnedAround utcNs utcTimeUs := by
  have hgrows : ∀ later, utcTimeUs < later → ntpEra utcTimeUs = ntpEra later →
      utcTimeUsToNtp utcTimeUs < utcTimeUsToNtp later :=
    fun later => ntp_increasing
  rw [and_iff_left hgrows]
  exact comes_back_iff hnear

/-- At a reading of 2024 the last microsecond before the second era comes back. -/
theorem ntp_round_trip_before_2036 :
    ntpToUtcTimeUs 1718000000000000000 (utcTimeUsToNtp 2085978495999999) = 2085978495999999 ∧
      ∀ later, 2085978495999999 < later → ntpEra 2085978495999999 = ntpEra later →
        utcTimeUsToNtp 2085978495999999 < utcTimeUsToNtp later :=
  (ntp_round_trip_iff 1718000000000000000 2085978495999999 (by decide)).mpr (by decide)

/-- At half a second before a whole second of 1938, a time of 1870 comes back in 2006. -/
theorem ntp_round_trip_fails :
    |(-3147483647250000) - currentUtcTimeUs (-1000000000500000000)| < (2 ^ 31 - 1) * 1000000 ∧
      ntpToUtcTimeUs (-1000000000500000000) (utcTimeUsToNtp (-3147483647250000)) ≠
        -3147483647250000 := by
  decide

end SystemClock

end MiniRtc
