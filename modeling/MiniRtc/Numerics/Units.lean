import Mathlib.Data.Int.Order.Basic
import Mathlib.Order.WithBot
import Mathlib.Tactic.Linarith

/-!
# Times, sizes and rates

A time or a duration is a number of microseconds, a size a number of bytes, and a rate a number of
bits per second, as in `data_rate.h`. The operators between them truncate and round as there. A
`Timestamp` can be infinite, and so can the difference of two of them.
-/

namespace MiniRtc

/-- `Timestamp`. -/
inductive Timestamp where
  | minusInfinity
  | micros (us : ℤ)
  | plusInfinity
  deriving DecidableEq

namespace Timestamp

/-- The number of microseconds, with both infinities. -/
def toExtended : Timestamp → WithBot (WithTop ℤ)
  | minusInfinity => ⊥
  | micros us => ((us : WithTop ℤ) : WithBot (WithTop ℤ))
  | plusInfinity => ((⊤ : WithTop ℤ) : WithBot (WithTop ℤ))

theorem to_extended_injective : Function.Injective toExtended := by
  intro time other h
  cases time <;> cases other <;> simp_all [toExtended]

instance linearOrder : LinearOrder Timestamp :=
  LinearOrder.lift' toExtended to_extended_injective

@[simp] theorem micros_le_micros {us us' : ℤ} : micros us ≤ micros us' ↔ us ≤ us' := by
  show toExtended _ ≤ toExtended _ ↔ _
  simp [toExtended]

@[simp] theorem micros_lt_micros {us us' : ℤ} : micros us < micros us' ↔ us < us' := by
  show toExtended _ < toExtended _ ↔ _
  simp [toExtended]

@[simp] theorem le_plus_infinity (time : Timestamp) : time ≤ plusInfinity := by
  show toExtended _ ≤ toExtended _
  cases time <;> simp [toExtended]

@[simp] theorem minus_infinity_le (time : Timestamp) : minusInfinity ≤ time := by
  show toExtended _ ≤ toExtended _
  cases time <;> simp [toExtended]

@[simp] theorem not_plus_infinity_le_micros {us : ℤ} : ¬ plusInfinity ≤ micros us := by
  show ¬ toExtended _ ≤ toExtended _
  simp [toExtended]

@[simp] theorem not_micros_le_minus_infinity {us : ℤ} : ¬ micros us ≤ minusInfinity := by
  show ¬ toExtended _ ≤ toExtended _
  simp [toExtended]

@[simp] theorem not_plus_infinity_le_minus_infinity : ¬ plusInfinity ≤ minusInfinity := by
  show ¬ toExtended _ ≤ toExtended _
  simp [toExtended]

/-- `Timestamp + TimeDelta`, with a finite duration. -/
def plus : Timestamp → ℤ → Timestamp
  | minusInfinity, _ => minusInfinity
  | micros us, delta => micros (us + delta)
  | plusInfinity, _ => plusInfinity

/-- `Timestamp - Timestamp`. The duration has the values of a time. -/
def minus : Timestamp → Timestamp → Timestamp
  | plusInfinity, _ => plusInfinity
  | minusInfinity, minusInfinity => plusInfinity
  | micros _, minusInfinity => plusInfinity
  | minusInfinity, micros _ => minusInfinity
  | minusInfinity, plusInfinity => minusInfinity
  | micros _, plusInfinity => minusInfinity
  | micros us, micros us' => micros (us - us')

/-- A later time is later after a duration. -/
theorem plus_le_plus {time later : Timestamp} (h : time ≤ later) (delta : ℤ) :
    time.plus delta ≤ later.plus delta := by
  cases time <;> cases later <;> simp_all [plus]

/-- What comes a duration after a start is at least that much later. -/
theorem le_minus_of_plus_le {start now : Timestamp} {least delta : ℤ} (hleast : least ≤ delta)
    (h : start.plus delta ≤ now) : micros least ≤ now.minus start := by
  cases start <;> cases now <;> simp_all [plus, minus]
  omega

end Timestamp

/-- The time is not after `now`. -/
def Timestamp.Reached (time : Timestamp) (now : ℤ) : Prop :=
  match time with
  | .minusInfinity => True
  | .micros us => us ≤ now
  | .plusInfinity => False

instance decidableReached : (time : Timestamp) → (now : ℤ) → Decidable (time.Reached now)
  | .minusInfinity, _ => isTrue trivial
  | .micros us, now => inferInstanceAs (Decidable (us ≤ now))
  | .plusInfinity, _ => isFalse id

/-- The time is finite, and longer ago than `delay`. -/
def Timestamp.LongPast (time : Timestamp) (delay now : ℤ) : Prop :=
  match time with
  | .micros us => delay < now - us
  | _ => False

instance decidableLongPast :
    (time : Timestamp) → (delay now : ℤ) → Decidable (time.LongPast delay now)
  | .minusInfinity, _, _ => isFalse id
  | .micros us, delay, now => inferInstanceAs (Decidable (delay < now - us))
  | .plusInfinity, _, _ => isFalse id

/-- `DataSize / DataRate`. -/
def sendDuration (bytes bps : ℤ) : ℤ :=
  (bytes * 8000000).tdiv bps

/-- `DataSize / TimeDelta`. -/
def rateOver (bytes us : ℤ) : ℤ :=
  (bytes * 8000000).tdiv us

/-- `DataRate * TimeDelta`. -/
def bytesDuring (bps us : ℤ) : ℤ :=
  (bps * us + 4000000).tdiv 8000000

variable {bytes bps us : ℤ}

/-- A size takes less than a microsecond more than its duration. -/
theorem lt_send_duration (hbps : 0 < bps) (hbytes : 0 ≤ bytes) :
    bytes * 8000000 < bps * (sendDuration bytes bps + 1) := by
  unfold sendDuration
  rw [Int.tdiv_eq_ediv_of_nonneg (by positivity)]
  have hrest := Int.emod_lt_of_pos (bytes * 8000000) hbps
  have hdivision := Int.mul_ediv_add_emod (bytes * 8000000) bps
  linarith

end MiniRtc
