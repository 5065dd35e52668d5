import Mathlib.Analysis.Real.Sqrt
import Mathlib.Data.Nat.Sqrt
import Mathlib.Algebra.Order.Round
import Mathlib.Tactic.Linarith
import Mathlib.Tactic.Positivity
import Mathlib.Tactic.Ring

/-!
# Square roots of ratios as integers

The square root of a ratio of natural numbers, rounded down, rounded up and rounded to the nearest
integer (half away from zero), computed without fractions. Each is given by the numbers that it is
at most or at least, and is the rounded real square root.
-/

namespace MiniRtc

variable {a u k : Nat}

/-- The square root of `a / u`, rounded down. -/
def floorRoot (a u : Nat) : Nat :=
  Nat.sqrt (a / u)

/-- The square root of `a / u`, rounded up. -/
def ceilRoot (a u : Nat) : Nat :=
  if u * (floorRoot a u * floorRoot a u) < a then floorRoot a u + 1 else floorRoot a u

/-- The square root of `a / u`, rounded to the nearest. -/
def roundRoot (a u : Nat) : Nat :=
  (Nat.sqrt (4 * a / u) + 1) / 2

theorem le_floor_root_iff (hu : 0 < u) : k ≤ floorRoot a u ↔ u * (k * k) ≤ a := by
  unfold floorRoot
  rw [Nat.le_sqrt, Nat.le_div_iff_mul_le hu, Nat.mul_comm]

theorem floor_root_lt_iff (hu : 0 < u) : floorRoot a u < k ↔ a < u * (k * k) := by
  rw [← Nat.not_le, le_floor_root_iff hu, Nat.not_le]

theorem ceil_root_le_iff (hu : 0 < u) : ceilRoot a u ≤ k ↔ a ≤ u * (k * k) := by
  unfold ceilRoot
  split_ifs with hbelow
  · -- no square between the two roots
    rw [Nat.succ_le_iff, floor_root_lt_iff hu]
    refine ⟨le_of_lt, fun h => lt_of_le_of_ne h fun heq => ?_⟩
    have hroot : k ≤ floorRoot a u := (le_floor_root_iff hu).mpr (le_of_eq heq.symm)
    have hsquare := Nat.mul_le_mul_left u (Nat.mul_le_mul hroot hroot)
    omega
  · have hexact : u * (floorRoot a u * floorRoot a u) = a :=
      le_antisymm ((le_floor_root_iff hu).mp (le_refl _)) (Nat.not_lt.mp hbelow)
    constructor
    · intro h
      exact hexact ▸ Nat.mul_le_mul_left u (Nat.mul_le_mul h h)
    · intro h
      by_contra hless
      have hsquare := Nat.mul_lt_mul_of_pos_left
        (Nat.mul_self_lt_mul_self (Nat.not_le.mp hless)) hu
      omega

theorem lt_round_root_iff (hu : 0 < u) :
    k < roundRoot a u ↔ u * ((2 * k + 1) * (2 * k + 1)) ≤ 4 * a := by
  have hhalf : k < roundRoot a u ↔ 2 * k + 1 ≤ Nat.sqrt (4 * a / u) := by
    unfold roundRoot
    omega
  rw [hhalf, Nat.le_sqrt, Nat.le_div_iff_mul_le hu, Nat.mul_comm]

theorem round_root_le_iff (hu : 0 < u) :
    roundRoot a u ≤ k ↔ 4 * a < u * ((2 * k + 1) * (2 * k + 1)) := by
  rw [← Nat.not_lt, lt_round_root_iff hu, Nat.not_le]

/-! ## The roots are the real ones -/

section Real

variable (hu : 0 < u)
include hu

/-- A bound on the real root is a bound on the square. -/
theorem le_real_sqrt_iff {x : ℝ} (hx : 0 ≤ x) : x ≤ √((a : ℝ) / u) ↔ u * (x * x) ≤ a := by
  have hpos : (0 : ℝ) < u := Nat.cast_pos.mpr hu
  rw [Real.le_sqrt hx (by positivity), le_div_iff₀ hpos, sq, mul_comm]

theorem floor_root_eq_real : floorRoot a u = ⌊√((a : ℝ) / u)⌋₊ := by
  refine eq_of_forall_le_iff fun k => ?_
  rw [le_floor_root_iff hu, Nat.le_floor_iff (Real.sqrt_nonneg _),
    le_real_sqrt_iff hu (Nat.cast_nonneg k)]
  exact_mod_cast Iff.rfl

theorem ceil_root_eq_real : ceilRoot a u = ⌈√((a : ℝ) / u)⌉₊ := by
  have hpos : (0 : ℝ) < u := Nat.cast_pos.mpr hu
  refine eq_of_forall_ge_iff fun k => ?_
  rw [ceil_root_le_iff hu, Nat.ceil_le, Real.sqrt_le_left (Nat.cast_nonneg k), div_le_iff₀ hpos, sq,
    mul_comm]
  exact_mod_cast Iff.rfl

theorem round_root_eq_real : (roundRoot a u : ℤ) = round (√((a : ℝ) / u)) := by
  rw [round_eq, eq_comm, Int.floor_eq_iff]
  constructor
  · cases hround : roundRoot a u with
    | zero =>
        have hroot := Real.sqrt_nonneg ((a : ℝ) / u)
        push_cast
        linarith
    | succ k =>
        have hbelow := (lt_round_root_iff (a := a) (k := k) hu).mp (by omega)
        have hcast : (u : ℝ) * ((2 * k + 1) * (2 * k + 1)) ≤ 4 * a := by exact_mod_cast hbelow
        have hroot := (le_real_sqrt_iff hu (by positivity : (0 : ℝ) ≤ (k : ℝ) + 1 / 2)).mpr
          (show (u : ℝ) * ((k + 1 / 2) * (k + 1 / 2)) ≤ a by linarith)
        push_cast
        linarith
  · have habove := (round_root_le_iff (a := a) (k := roundRoot a u) hu).mp (le_refl _)
    have hcast : 4 * (a : ℝ) < u * ((2 * roundRoot a u + 1) * (2 * roundRoot a u + 1)) := by
      exact_mod_cast habove
    have hroot : ¬ (roundRoot a u : ℝ) + 1 / 2 ≤ √((a : ℝ) / u) := by
      rw [le_real_sqrt_iff hu (by positivity)]
      intro hle
      linarith
    push_cast
    linarith [not_le.mp hroot]

end Real

end MiniRtc
