import Mathlib.Data.Rat.Floor

/-!
# The reordering histogram

`histogram.cc` counts how far behind the newest packet reordered packets arrive. The circular
buffer `values` remembers which bucket the oldest value went to. `InverseCdf` works in single
precision: `roundSingle` is the rounding of one division or addition, to nearest with ties to
even, for the values between `0` and `2` that occur here.
-/

namespace MiniRtc

/-- `Histogram`: the remembered values, the bucket counters and the next slot to overwrite. -/
structure Histogram where
  maxNumValues : Nat
  values : List Nat
  buckets : List Nat
  index : Nat
  deriving DecidableEq

/-- `Histogram::Histogram`. -/
def Histogram.new (numBuckets maxNumValues : Nat) : Histogram :=
  { maxNumValues, values := [], buckets := List.replicate numBuckets 0, index := 0 }

/-- `Histogram::Add`. Values past the last bucket count in the last bucket, and a full buffer
forgets its oldest value. -/
def Histogram.add (h : Histogram) (value : Nat) : Histogram :=
  let value := min value (h.buckets.length - 1)
  let (values, buckets) :=
    if h.index < h.values.length then
      (h.values.set h.index value, h.buckets.modify (h.values.getD h.index 0) (· - 1))
    else (h.values ++ [value], h.buckets)
  { h with
    values
    buckets := buckets.modify value (· + 1)
    index := (h.index + 1) % h.maxNumValues }

/-- Round to 24 significant bits, to nearest and to even on ties. -/
def roundSingle (q : ℚ) : ℚ :=
  if q ≤ 0 then 0
  else
    let exponent : ℤ := 23 - (Nat.log2 (q.num.toNat * 2 ^ 32 / q.den) - 32)
    let scaled := q * 2 ^ exponent
    let below := ⌊scaled⌋
    let rest := scaled - below
    let mantissa :=
      if rest < 1 / 2 then below
      else if 1 / 2 < rest then below + 1
      else if below % 2 = 0 then below else below + 1
    mantissa / 2 ^ exponent

/-- The loop of `InverseCdf` over the remaining buckets. -/
def inverseCdfFrom (size : Nat) (probability : ℚ) : List Nat → Nat → ℚ → Nat
  | [], bucket, _ => bucket
  | count :: rest, bucket, accumulated =>
      if accumulated < probability then
        inverseCdfFrom size probability rest (bucket + 1)
          (roundSingle (accumulated + roundSingle (count / size)))
      else bucket

/-- `Histogram::InverseCdf`: how many buckets reach the given probability. -/
def Histogram.inverseCdf (h : Histogram) (probability : ℚ) : Nat :=
  inverseCdfFrom h.values.length probability h.buckets 0 0

/-- `Histogram::NumValues`. -/
def Histogram.numValues (h : Histogram) : Nat :=
  h.values.length

end MiniRtc
