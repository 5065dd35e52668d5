import Mathlib.Algebra.Group.Int.Defs
import Mathlib.Data.Int.Notation
import Mathlib.Order.Lattice

/-!
# Recovery timing

The pure timing rules of `video_recovery_timing.h`: how retransmission requests back off and
when a frame that waits for retransmissions is given up. All times are in milliseconds.
-/

namespace MiniRtc.VideoRecovery

/-- `NackRetryRttMultiplier`: the retry distance in round trips after a number of successful
requests. -/
def nackRetryRttMultiplier (hasRttSample : Bool) (successfulNackCount : Nat) : ℤ :=
  if successfulNackCount = 0 then 1
  else if hasRttSample then (if successfulNackCount ≤ 2 then 1 else 2)
  else 2 ^ min successfulNackCount 3

/-- `std::clamp`. -/
def clamp (value low high : ℤ) : ℤ :=
  if value < low then low else if high < value then high else value

/-- `SoftFrameRecoveryDeadlineMs`. -/
def softFrameRecoveryDeadlineMs (rttMs : ℤ) : ℤ :=
  clamp (2 * rttMs + 30) 100 500

/-- `SoftFirConfirmationDelayMs`. -/
def softFirConfirmationDelayMs (rttMs : ℤ) : ℤ :=
  clamp rttMs 75 150

/-- `HardFrameRecoveryDeadlineMs`. -/
def hardFrameRecoveryDeadlineMs (rttMs : ℤ) : ℤ :=
  clamp (5 * rttMs + 80) 350 1000

end MiniRtc.VideoRecovery
