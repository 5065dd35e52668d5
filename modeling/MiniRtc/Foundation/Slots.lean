import MiniRtc.Foundation.Circle
import Mathlib.Logic.Function.Basic

/-!
# Numbered slots on a circle

A buffer with one slot for every number of `w` bits, of which some are in use. Messages that were
cut into packets with consecutive numbers are collected in such a buffer. `covered` asks whether
`count` slots from `start` on are in use, `gather` reads them in order and `vacate` clears them.
-/

namespace MiniRtc.Slots

open Circle

variable {w : Nat} {P β : Type*}

/-- The numbers `start, start + 1, …`. -/
def numbers (start : BitVec w) (count : Nat) : List (BitVec w) :=
  (List.range count).map fun i => start + BitVec.ofNat w i

/-- All slots are in use, by packets that satisfy `belongs`. -/
def covered (slots : BitVec w → Option P) (belongs : P → Bool) (start : BitVec w) (count : Nat) :
    Bool :=
  (numbers start count).all fun x => (slots x).any belongs

/-- The contents of the slots, in order. -/
def gather (slots : BitVec w → Option P) (content : P → List β) (start : BitVec w)
    (count : Nat) : List β :=
  (numbers start count).flatMap fun x => (slots x).elim [] content

/-- The slots after these were cleared. -/
def vacate (slots : BitVec w → Option P) (start : BitVec w) (count : Nat) :
    BitVec w → Option P :=
  fun x => if x ∈ numbers start count then none else slots x

theorem mem_numbers {start x : BitVec w} {count : Nat} :
    x ∈ numbers start count ↔ ∃ i < count, x = start + BitVec.ofNat w i := by
  simp only [numbers, List.mem_map, List.mem_range]
  constructor
  · rintro ⟨i, hi, rfl⟩
    exact ⟨i, hi, rfl⟩
  · rintro ⟨i, hi, rfl⟩
    exact ⟨i, hi, rfl⟩

theorem covered_iff {slots : BitVec w → Option P} {belongs : P → Bool} {start : BitVec w}
    {count : Nat} :
    covered slots belongs start count = true ↔
      ∀ i < count, ∃ p, slots (start + BitVec.ofNat w i) = some p ∧ belongs p = true := by
  simp only [covered, List.all_eq_true, mem_numbers, Option.any_eq_true]
  constructor
  · exact fun h i hi => h _ ⟨i, hi, rfl⟩
  · rintro h x ⟨i, hi, rfl⟩
    exact h i hi

/-- Slots that hold the pieces of a message, in order, give the message. -/
theorem gather_eq {slots : BitVec w → Option P} {content : P → List β} {start : BitVec w}
    {pieces : List (List β)}
    (h : ∀ i, (hi : i < pieces.length) →
      ∃ p, slots (start + BitVec.ofNat w i) = some p ∧ content p = pieces[i]) :
    gather slots content start pieces.length = pieces.flatten := by
  have hmap : (List.range pieces.length).map
      (fun i => (slots (start + BitVec.ofNat w i)).elim [] content) = pieces := by
    refine List.ext_getElem (by simp) ?_
    intro i hi hi'
    obtain ⟨p, hp, hc⟩ := h i hi'
    simp [hp, hc]
  rw [gather, numbers, List.flatMap_map, List.flatMap_def, hmap]

theorem vacate_eq_some {slots : BitVec w → Option P} {start x : BitVec w} {count : Nat} {p : P}
    (h : vacate slots start count x = some p) : slots x = some p := by
  unfold vacate at h
  split_ifs at h
  exact h

theorem vacate_of_not_mem {slots : BitVec w → Option P} {start x : BitVec w} {count : Nat}
    (h : x ∉ numbers start count) : vacate slots start count x = slots x := by
  simp [vacate, h]

end MiniRtc.Slots
