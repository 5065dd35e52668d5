import Mathlib.Algebra.BigOperators.Group.List.Basic
import Mathlib.Algebra.Ring.Int.Defs
import Mathlib.Tactic.Linarith

/-!
# A stopwatch and the ages of items

A stopwatch runs while it is not stopped. An item that joins has the age that the stopwatch shows
from then on, and the sum of all ages can be kept without looking at the items: it grows with the
stopwatch by their number.
-/

namespace MiniRtc

/-- A stopwatch that was read last at `time`. -/
structure Stopwatch where
  time : ℤ
  running : Bool := true
  total : ℤ := 0

namespace Stopwatch

/-- The stopwatch is read. -/
def read (w : Stopwatch) (now : ℤ) : Stopwatch :=
  { w with
    time := now
    total := if w.running then w.total + (now - w.time) else w.total }

/-- The stopwatch is read, and it runs from then on or not. -/
def switch (w : Stopwatch) (running : Bool) (now : ℤ) : Stopwatch :=
  { w.read now with running }

variable {ι : Type*}

/-- The ages of the items that joined when the stopwatch showed `joined`. -/
def ages (w : Stopwatch) (joined : ι → ℤ) (items : List ι) : List ℤ :=
  items.map fun i => w.total - joined i

/-- The sum of the ages grows with the stopwatch. -/
theorem sum_ages_read (w : Stopwatch) (joined : ι → ℤ) (items : List ι) (now : ℤ) :
    ((w.read now).ages joined items).sum =
      (w.ages joined items).sum + (if w.running then (now - w.time) * items.length else 0) := by
  unfold ages
  induction items with
  | nil => simp
  | cons i rest ih =>
      rw [List.map_cons, List.map_cons, List.sum_cons, List.sum_cons, ih, List.length_cons]
      show (if w.running then w.total + (now - w.time) else w.total) - joined i + _ = _
      split_ifs
      · push_cast
        linarith
      · linarith

end Stopwatch

/-- Of items with different keys, one leaves the sum. -/
theorem sum_filter_ne {ι κ : Type*} [DecidableEq κ] (key : ι → κ) (f : ι → ℤ) {items : List ι}
    (hnodup : (items.map key).Nodup) {i : ι} (hi : i ∈ items) :
    ((items.filter fun j => decide (key j ≠ key i)).map f).sum = (items.map f).sum - f i := by
  induction items with
  | nil => cases hi
  | cons j rest ih =>
      obtain ⟨hfresh, hrest⟩ := List.nodup_cons.mp (List.map_cons ▸ hnodup)
      rw [List.map_cons, List.sum_cons]
      rcases List.mem_cons.mp hi with rfl | hi
      · have hkept : (rest.filter fun j => decide (key j ≠ key i)) = rest := by
          refine List.filter_eq_self.mpr fun j hj => decide_eq_true fun hkey => ?_
          exact hfresh (hkey ▸ List.mem_map_of_mem hj)
        rw [List.filter_cons_of_neg (by simp), hkept]
        linarith
      · have hne : key j ≠ key i := fun hkey => hfresh (hkey ▸ List.mem_map_of_mem hi)
        rw [List.filter_cons_of_pos (by simpa using hne), List.map_cons, List.sum_cons,
          ih hrest hi]
        linarith

end MiniRtc
