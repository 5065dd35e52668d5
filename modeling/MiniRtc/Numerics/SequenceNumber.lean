import MiniRtc.Foundation.Circle
import Mathlib.Tactic.Linarith

/-!
# Wrapping sequence numbers

The comparisons of `sequence_number_util.h` and `mod_ops.h` for the wrap at the width of the
unsigned type (`M == 0`). `aheadOf` is total and asymmetric on the whole type, but it is
transitive only inside an arc shorter than half the circle. `ahead_of_iff_behind` and
`ahead_of_iff_ahead` give the order on such an arc: the distance to its end or from its start.
-/

namespace MiniRtc

open Circle

variable {w : Nat}

/-- `ForwardDiff(a, b)`: the unsigned difference `b - a`. -/
def forwardDiff (a b : BitVec w) : BitVec w :=
  b - a

/-- `ReverseDiff(a, b)`: the unsigned difference `a - b`. -/
def reverseDiff (a b : BitVec w) : BitVec w :=
  a - b

/-- `AheadOrAt(a, b)`. At the maximal distance `2 ^ (w - 1)` the numerically larger number is
ahead. -/
def aheadOrAt (a b : BitVec w) : Bool :=
  if (a - b).toNat = 2 ^ (w - 1) then decide (b < a)
  else decide ((forwardDiff b a).toNat < 2 ^ (w - 1))

/-- `AheadOf(a, b)`. -/
def aheadOf (a b : BitVec w) : Bool :=
  decide (a ≠ b) && aheadOrAt a b

/-- `DescendingSeqNumComp`, the comparator of the NACK containers: older numbers come first. -/
def descendingSeqNumComp (a b : BitVec w) : Bool :=
  aheadOf b a

/-- Being ahead, as a condition on the forward distance. -/
theorem ahead_of_iff {a b : BitVec w} :
    aheadOf a b = true ↔ a ≠ b ∧
      (fwd b a < 2 ^ (w - 1) ∨ fwd b a = 2 ^ (w - 1) ∧ b < a) := by
  unfold aheadOf aheadOrAt forwardDiff fwd
  by_cases h : (a - b).toNat = 2 ^ (w - 1)
  · simp [h]
  · simp [h, -BitVec.toNat_sub]

/-- Away from the maximal distance, being ahead is a condition on the distance alone. -/
theorem ahead_of_iff_fwd {a b : BitVec w} (h : fwd b a ≠ 2 ^ (w - 1)) :
    aheadOf a b = true ↔ 0 < fwd b a ∧ fwd b a < 2 ^ (w - 1) := by
  have hpos : a ≠ b ↔ 0 < fwd b a := by
    rw [Nat.pos_iff_ne_zero, Ne, Ne, fwd_eq_zero, eq_comm]
  rw [ahead_of_iff, hpos]
  omega

@[simp] theorem ahead_of_self (a : BitVec w) : aheadOf a a = false := by
  simp [aheadOf]

/-- Half a turn is half of a turn. -/
theorem two_mul_half (hw : 0 < w) : 2 * 2 ^ (w - 1) = 2 ^ w := by
  rw [← pow_succ', Nat.sub_add_cancel hw]

/-- Of two different numbers one is ahead of the other. -/
theorem ahead_of_total (hw : 0 < w) {a b : BitVec w} (h : a ≠ b) :
    aheadOf a b = true ∨ aheadOf b a = true := by
  have hturn := fwd_add_fwd h
  have hhalf := two_mul_half hw
  rw [ahead_of_iff, ahead_of_iff]
  rcases lt_trichotomy (fwd b a) (2 ^ (w - 1)) with hlt | heq | hgt
  · exact Or.inl ⟨h, Or.inl hlt⟩
  · have hval : a.toNat ≠ b.toNat := fun hn => h (BitVec.eq_of_toNat_eq hn)
    rcases Nat.lt_or_gt_of_ne hval with hab | hba
    · exact Or.inr ⟨h.symm, Or.inr ⟨by omega, hab⟩⟩
    · exact Or.inl ⟨h, Or.inr ⟨heq, hba⟩⟩
  · exact Or.inr ⟨h.symm, Or.inl (by omega)⟩

/-- Two numbers are never ahead of each other. -/
theorem ahead_of_asymm (hw : 0 < w) {a b : BitVec w} (h : aheadOf a b = true) :
    aheadOf b a = false := by
  refine Bool.eq_false_iff.mpr fun hba => ?_
  obtain ⟨hne, ha⟩ := ahead_of_iff.mp h
  obtain ⟨-, hb⟩ := ahead_of_iff.mp hba
  have hturn := fwd_add_fwd hne
  have hhalf := two_mul_half hw
  rcases ha with ha | ⟨ha, hlt⟩ <;> rcases hb with hb | ⟨hb, hgt⟩
  · omega
  · omega
  · omega
  · exact absurd (BitVec.lt_def.mp hlt) (Nat.not_lt.mpr (Nat.le_of_lt (BitVec.lt_def.mp hgt)))

/-- Numbers that are not ahead of each other are equal. -/
theorem eq_of_not_ahead_of (hw : 0 < w) (a b : BitVec w) (hab : aheadOf a b = false)
    (hba : aheadOf b a = false) : a = b := by
  by_contra h
  rcases ahead_of_total hw h with ht | ht
  · simp [hab] at ht
  · simp [hba] at ht

/-- Behind a common end and less than half a turn from it, the nearer number is ahead. -/
theorem ahead_of_iff_behind (hw : 0 < w) {a b last : BitVec w}
    (ha : fwd a last < 2 ^ (w - 1)) (hb : fwd b last < 2 ^ (w - 1)) :
    aheadOf a b = true ↔ fwd a last < fwd b last := by
  have hhalf := two_mul_half hw
  have hwalk := fwd_add_cases b a last
  have hlt := fwd_lt b a
  rw [ahead_of_iff_fwd (by omega)]
  omega

/-- Ahead of a common start and less than half a turn from it, the farther number is ahead. -/
theorem ahead_of_iff_ahead (hw : 0 < w) {a b first : BitVec w}
    (ha : fwd first a < 2 ^ (w - 1)) (hb : fwd first b < 2 ^ (w - 1)) :
    aheadOf a b = true ↔ fwd first b < fwd first a := by
  have hhalf := two_mul_half hw
  have hwalk := fwd_add_cases first b a
  have hlt := fwd_lt b a
  rw [ahead_of_iff_fwd (by omega)]
  omega

end MiniRtc
