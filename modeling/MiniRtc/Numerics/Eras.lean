import Mathlib.Algebra.Order.Ring.Abs
import Mathlib.Tactic.Linarith
import Mathlib.Tactic.Ring

/-!
# Numbers that are sent without their era

Numbers are counted in eras of `2 * half`, and only the place of a number in its era is known. With
a reference that is not far away the number is found again: it is taken in the era of the reference,
and moved by one era when it is more than half an era away (`expandNear`).

A number less than half an era away is always found (`expand_near_eq`). At exactly half an era the
number in the era of the reference is taken (`expand_near_below`).
-/

namespace MiniRtc

/-- The number in the era of the reference, moved by one era when it is too far away. -/
def expandNear (half reference place : ℤ) : ℤ :=
  let expanded := reference / (2 * half) * (2 * half) + place
  if expanded - reference > half then expanded - 2 * half
  else if reference - expanded > half then expanded + 2 * half
  else expanded

variable {half reference number : ℤ}

/-- A number less than half an era away is found by its place. -/
theorem expand_near_eq (hhalf : 0 < half) (hnear : |number - reference| < half) :
    expandNear half reference (number % (2 * half)) = number := by
  obtain ⟨hbelow, habove⟩ := abs_lt.mp hnear
  have hplace := Int.emod_add_mul_ediv number (2 * half)
  have hwithin := Int.emod_add_mul_ediv reference (2 * half)
  have hplace' := Int.emod_nonneg number (show 2 * half ≠ 0 by omega)
  have hwithin' := Int.emod_nonneg reference (show 2 * half ≠ 0 by omega)
  have hplace'' := Int.emod_lt_of_pos number (show 0 < 2 * half by omega)
  have hwithin'' := Int.emod_lt_of_pos reference (show 0 < 2 * half by omega)
  unfold expandNear
  simp only
  generalize number % (2 * half) = place at *
  generalize reference % (2 * half) = within at *
  generalize number / (2 * half) = era at *
  generalize reference / (2 * half) = here at *
  -- The eras of both differ by at most one.
  obtain heras | heras | heras : era = here - 1 ∨ era = here ∨ era = here + 1 := by
    have hlower : here - 1 ≤ era := by
      by_contra hfar
      nlinarith
    have hupper : era ≤ here + 1 := by
      by_contra hfar
      nlinarith
    omega
  · subst heras
    have hstep : 2 * half * (here - 1) = here * (2 * half) - 2 * half := by ring
    have hcomm : 2 * half * here = here * (2 * half) := by ring
    rw [if_pos (by omega)]
    omega
  · subst heras
    have hcomm : 2 * half * era = era * (2 * half) := by ring
    rw [if_neg (by omega), if_neg (by omega)]
    omega
  · subst heras
    have hstep : 2 * half * (here + 1) = here * (2 * half) + 2 * half := by ring
    have hcomm : 2 * half * here = here * (2 * half) := by ring
    rw [if_neg (by omega), if_pos (by omega)]
    omega

/-- The number exactly half an era below the reference is found when the reference stands in the
second half of its era. -/
theorem expand_near_below (hhalf : 0 < half) :
    expandNear half reference ((reference - half) % (2 * half)) = reference - half ↔
      half ≤ reference % (2 * half) := by
  have hwithin := Int.emod_add_mul_ediv reference (2 * half)
  have hwithin' := Int.emod_nonneg reference (show 2 * half ≠ 0 by omega)
  have hwithin'' := Int.emod_lt_of_pos reference (show 0 < 2 * half by omega)
  have hcomm : 2 * half * (reference / (2 * half)) = reference / (2 * half) * (2 * half) := by
    ring
  by_cases hsecond : half ≤ reference % (2 * half)
  · have hplace : (reference - half) % (2 * half) = reference % (2 * half) - half :=
      (Int.emod_sub_emod reference (2 * half) half).symm.trans
        (Int.emod_eq_of_lt (by omega) (by omega))
    rw [hplace]
    refine iff_of_true ?_ hsecond
    unfold expandNear
    simp only
    rw [if_neg (by omega), if_neg (by omega)]
    omega
  · have hplace : (reference - half) % (2 * half) = reference % (2 * half) + half := by
      have hturn : reference - half = reference + half - 2 * half := by ring
      rw [hturn, Int.sub_emod_right]
      exact (Int.emod_add_emod reference (2 * half) half).symm.trans
        (Int.emod_eq_of_lt (by omega) (by omega))
    rw [hplace]
    refine iff_of_false ?_ hsecond
    unfold expandNear
    simp only
    rw [if_neg (by omega), if_neg (by omega)]
    omega

end MiniRtc
