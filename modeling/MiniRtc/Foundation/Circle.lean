import Mathlib.Data.BitVec
import Mathlib.Tactic.Positivity
import Mathlib.Tactic.Ring

/-!
# Distances on a circle of residues

Sequence numbers and media timestamps live on the circle `BitVec w`. `fwd a b` is the number
of increments that lead from `a` to `b`. Inside an arc shorter than half the circle the
distance to a fixed end point orders the residues, and `fwd_of_int_of_le` lets integer
positions replace residues while the positions stay inside one turn.
-/

namespace MiniRtc.Circle

variable {w : Nat}

/-- The number of increments from `a` to `b`. -/
def fwd (a b : BitVec w) : Nat :=
  (b - a).toNat

/-- Distances are smaller than one turn. -/
theorem fwd_lt (a b : BitVec w) : fwd a b < 2 ^ w :=
  (b - a).isLt

@[simp] theorem fwd_self (a : BitVec w) : fwd a a = 0 := by
  simp [fwd]

/-- Only the point itself is at distance zero. -/
theorem fwd_eq_zero {a b : BitVec w} : fwd a b = 0 ↔ a = b := by
  constructor
  · intro h
    have hzero : b - a = 0#w := BitVec.eq_of_toNat_eq (by simpa [fwd] using h)
    have hab : b - a + a = 0#w + a := congrArg (· + a) hzero
    simpa using hab.symm
  · rintro rfl
    exact fwd_self a

/-- Walking from `a` to `b` and on to `c` is walking from `a` to `c`, up to full turns. -/
theorem fwd_trans (a b c : BitVec w) : (fwd a b + fwd b c) % 2 ^ w = fwd a c := by
  have h : c - a = (b - a) + (c - b) := by ring
  simp only [fwd, h, BitVec.toNat_add]

/-- A walk from `a` to `b` and on to `c` makes at most one full turn more than needed. -/
theorem fwd_add_cases (a b c : BitVec w) :
    fwd a b + fwd b c = fwd a c ∨ fwd a b + fwd b c = fwd a c + 2 ^ w := by
  have htrans := fwd_trans a b c
  have hab := fwd_lt a b
  have hbc := fwd_lt b c
  rcases Nat.lt_or_ge (fwd a b + fwd b c) (2 ^ w) with hlt | hge
  · rw [Nat.mod_eq_of_lt hlt] at htrans
    exact Or.inl htrans
  · have hsub : (fwd a b + fwd b c - 2 ^ w) % 2 ^ w = fwd a c := by
      rw [← htrans, ← Nat.mod_eq_sub_mod hge]
    rw [Nat.mod_eq_of_lt (by omega)] at hsub
    exact Or.inr (by omega)

/-- The two arcs between different points make up the whole circle. -/
theorem fwd_add_fwd {a b : BitVec w} (h : a ≠ b) : fwd a b + fwd b a = 2 ^ w := by
  have hmod : (fwd a b + fwd b a) % 2 ^ w = 0 := by rw [fwd_trans, fwd_self]
  have hpos : fwd a b ≠ 0 := fun hz => h (fwd_eq_zero.mp hz)
  have hab := fwd_lt a b
  have hba := fwd_lt b a
  obtain ⟨turns, hturns⟩ := Nat.dvd_of_mod_eq_zero hmod
  -- the sum is positive and below two turns, so it is exactly one turn
  have hone : turns = 1 := by
    rcases turns with _ | _ | turns
    · omega
    · rfl
    · have : 2 ^ w * 2 ≤ 2 ^ w * (turns + 1 + 1) := Nat.mul_le_mul_left _ (by omega)
      omega
  simpa [hone] using hturns

/-- The distance walked by adding a number of increments. -/
theorem fwd_add_of_nat {a : BitVec w} {n : Nat} (h : n < 2 ^ w) :
    fwd a (a + BitVec.ofNat w n) = n := by
  have hdiff : a + BitVec.ofNat w n - a = BitVec.ofNat w n := by ring
  rw [fwd, hdiff, BitVec.toNat_ofNat, Nat.mod_eq_of_lt h]

/-- Walking the distance to `b` leads to `b`. -/
theorem add_fwd (a b : BitVec w) : a + BitVec.ofNat w (fwd a b) = b := by
  rw [fwd, BitVec.ofNat_toNat, BitVec.setWidth_eq]
  ring

/-- Residues of integer positions: the distance is the difference of the positions, up to full
turns. -/
theorem fwd_of_int (p q : ℤ) :
    (fwd (BitVec.ofInt w p) (BitVec.ofInt w q) : ℤ) = (q - p) % 2 ^ w := by
  have hsub : BitVec.ofInt w q - BitVec.ofInt w p = BitVec.ofInt w (q - p) := by
    rw [Int.sub_eq_add_neg, BitVec.ofInt_add, BitVec.ofInt_neg, BitVec.sub_eq_add_neg]
  have hpos : 0 ≤ (q - p) % (2 ^ w : Nat) := Int.emod_nonneg _ (by positivity)
  rw [fwd, hsub, BitVec.toNat_ofInt, Int.toNat_of_nonneg hpos]
  push_cast
  rfl

/-- Positions less than one turn apart are told apart by their residues. -/
theorem fwd_of_int_of_le {p q : ℤ} (hle : p ≤ q) (hlt : q < p + 2 ^ w) :
    (fwd (BitVec.ofInt w p) (BitVec.ofInt w q) : ℤ) = q - p := by
  rw [fwd_of_int]
  exact Int.emod_eq_of_lt (by omega) (by omega)

/-- Positions less than one turn apart with one residue are equal. -/
theorem of_int_inj {p q : ℤ} (h : BitVec.ofInt w p = BitVec.ofInt w q) (hpq : p < q + 2 ^ w)
    (hqp : q < p + 2 ^ w) : p = q := by
  rcases le_total p q with hle | hle
  · have hfwd := fwd_of_int_of_le hle hqp
    rw [h, fwd_self] at hfwd
    omega
  · have hfwd := fwd_of_int_of_le hle hpq
    rw [h, fwd_self] at hfwd
    omega

/-- Walking forward from a position. -/
theorem of_int_add_fwd {p : ℤ} {a : BitVec w} (h : BitVec.ofInt w p = a) (b : BitVec w) :
    BitVec.ofInt w (p + fwd a b) = b := by
  rw [BitVec.ofInt_add, h, BitVec.ofInt_natCast]
  exact add_fwd a b

/-- Walking back from a position. -/
theorem of_int_sub_fwd {p : ℤ} {b : BitVec w} (h : BitVec.ofInt w p = b) (a : BitVec w) :
    BitVec.ofInt w (p - fwd a b) = a := by
  have hback : BitVec.ofInt w (p - fwd a b) + BitVec.ofNat w (fwd a b) =
      a + BitVec.ofNat w (fwd a b) := by
    rw [add_fwd, ← h, ← BitVec.ofInt_natCast, ← BitVec.ofInt_add, Int.sub_add_cancel]
  simpa using hback

end MiniRtc.Circle
