import Mathlib.Algebra.Group.Int.Defs
import Mathlib.Algebra.Group.Nat.Defs
import Mathlib.Data.Int.Order.Basic

/-!
# Local times of RTP timestamps

`RtpTimestampMapper` of `rtp_timestamp.h`, which turns the timestamps of received frames into
local times in microseconds. Times and unwrapped timestamps are integers.
-/

namespace MiniRtc

/-- `kVideoPayloadTypeFrequency`. -/
def kVideoPayloadTypeFrequency : ℤ := 90000

/-- `RtpTicksToMicroseconds`. -/
def rtpTicksToMicroseconds (ticks clockRate : ℤ) : ℤ :=
  if clockRate = 0 then 0
  else ticks.tdiv clockRate * 1000000 + (ticks.tmod clockRate * 1000000).tdiv clockRate

/-- `RtpTimestampMapper`, with the fields of its unwrapper. -/
structure RtpTimestampMapper where
  clockRate : ℤ := kVideoPayloadTypeFrequency
  lastTimestamp : Option (BitVec 32) := none
  lastUnwrappedTimestamp : ℤ := 0
  firstUnwrappedTimestamp : Option ℤ := none
  firstLocalTimeUs : ℤ := 0
  senderReportUnwrappedTimestamp : Option ℤ := none
  senderReportLocalTimeUs : ℤ := 0
  deriving DecidableEq

namespace RtpTimestampMapper

/-- `TimestampUnwrapper::Unwrap`. -/
def unwrap (m : RtpTimestampMapper) (timestamp : BitVec 32) : RtpTimestampMapper × ℤ :=
  let unwrapped : ℤ :=
    match m.lastTimestamp with
    | none => timestamp.toNat
    | some last =>
        let wrappedDelta := (timestamp - last).toNat
        m.lastUnwrappedTimestamp +
          (if wrappedDelta ≤ 0x7fffffff then (wrappedDelta : ℤ) else wrappedDelta - 2 ^ 32)
  ({ m with lastTimestamp := some timestamp, lastUnwrappedTimestamp := unwrapped }, unwrapped)

/-- `ToLocalTimeUs`: relative to the last sender report, else to the first frame. -/
def toLocalTimeUs (m : RtpTimestampMapper) (rtpTimestamp : BitVec 32) (arrivalTimeUs : ℤ) :
    RtpTimestampMapper × ℤ :=
  let result := m.unwrap rtpTimestamp
  let m := result.1
  match m.senderReportUnwrappedTimestamp with
  | some reported =>
      (m, m.senderReportLocalTimeUs + rtpTicksToMicroseconds (result.2 - reported) m.clockRate)
  | none =>
      match m.firstUnwrappedTimestamp with
      | none =>
          ({ m with
              firstUnwrappedTimestamp := some result.2
              firstLocalTimeUs := arrivalTimeUs }, arrivalTimeUs)
      | some first =>
          (m, m.firstLocalTimeUs + rtpTicksToMicroseconds (result.2 - first) m.clockRate)

/-- `UpdateFromSenderReport`. -/
def updateFromSenderReport (m : RtpTimestampMapper) (rtpTimestamp : BitVec 32)
    (senderReportLocalTimeUs : ℤ) : RtpTimestampMapper :=
  let result := m.unwrap rtpTimestamp
  { result.1 with
    senderReportUnwrappedTimestamp := some result.2
    senderReportLocalTimeUs }

end RtpTimestampMapper

end MiniRtc
