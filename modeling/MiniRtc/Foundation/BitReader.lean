import Mathlib.Algebra.Group.Nat.Defs
import Mathlib.Data.List.Basic
import Mathlib.Data.Nat.Bits
import Mathlib.Control.Basic

/-!
# Reading syntax elements from bits

A bit stream is the list of its bits, and a reader takes a value from its front or fails.
`Reads p bits a` says that `p` gets `a` from `bits`, whatever follows them. Elements that are written
one after the other are the `flatten` of a list, and the rules below take such a list apart in the
order in which a reader goes through it: one element for each bind, and none for a check.
-/

namespace MiniRtc

/-- A reader has the bits that are left as its state. -/
abbrev BitReader :=
  StateT (List Bool) Option

namespace BitReader

variable {α β σ ι : Type} {p : BitReader α} {f : α → BitReader β} {bits rest : List Bool} {a : α}
  {b : β} {n v : Nat}

/-! ## Numbers -/

/-- The number with these bits, of which the first one is the most significant. -/
def number (bits : List Bool) : Nat :=
  bits.foldl (fun value bit => 2 * value + bit.toNat) 0

/-- The last bits of a number. -/
def bitsOf : Nat → Nat → List Bool
  | 0, _ => []
  | n + 1, v => bitsOf n (v / 2) ++ [decide (v % 2 = 1)]

@[simp] theorem bits_of_length (n v : Nat) : (bitsOf n v).length = n := by
  induction n generalizing v with
  | zero => rfl
  | succ n ih =>
      show (bitsOf n (v / 2) ++ [_]).length = n + 1
      rw [List.length_append, ih]
      rfl

theorem number_append (bits : List Bool) (bit : Bool) :
    number (bits ++ [bit]) = 2 * number bits + bit.toNat := by
  unfold number
  rw [List.foldl_append]
  rfl

/-- A number is that of its bits. -/
theorem number_bits_of (h : v < 2 ^ n) : number (bitsOf n v) = v := by
  induction n generalizing v with
  | zero =>
      rw [Nat.pow_zero, Nat.lt_one_iff] at h
      rw [h]
      rfl
  | succ n ih =>
      have hhalf : v / 2 < 2 ^ n := by
        rw [Nat.pow_succ] at h
        omega
      show number (bitsOf n (v / 2) ++ [_]) = v
      rw [number_append, ih hhalf]
      rcases Nat.mod_two_eq_zero_or_one v with heven | hodd
      · simp only [heven, Nat.zero_ne_one, decide_false, Bool.toNat_false]
        omega
      · simp only [hodd, decide_true, Bool.toNat_true]
        omega

/-! ## Readers -/

/-- The next bits. -/
def take (n : Nat) : BitReader (List Bool) :=
  fun bits => if n ≤ bits.length then some (bits.take n, bits.drop n) else none

/-- Read only in a case, and have a value otherwise. -/
def readIf (c : Bool) (p : BitReader α) (default : α) : BitReader α :=
  if c then p else pure default

/-- A `for` loop over the numbers below `n`. -/
def loop : Nat → σ → (Nat → σ → BitReader σ) → BitReader σ
  | 0, s, _ => pure s
  | n + 1, s, body => do
      let s ← loop n s body
      body n s

/-- Some passes of a `do` loop of which the body says whether to go on. -/
def passes : Nat → BitReader Bool → BitReader Unit
  | 0, _ => failure
  | n + 1, body => do
      let again ← body
      if again then passes n body else pure ()

/-- A `do` loop of which each pass reads a bit at least, so that it ends with the bits. -/
def doWhile (body : BitReader Bool) : BitReader Unit :=
  fun bits => passes (bits.length + 1) body bits

/-- An element that is written only in a case. -/
def present (c : Bool) (bits : List Bool) : List Bool :=
  if c then bits else []

/-! ## What a reader gets -/

/-- The reader gets the value from these bits, or it fails. -/
def Yields (p : BitReader α) (bits : List Bool) (result : Option α) : Prop :=
  ∀ rest, p (bits ++ rest) = result.map fun a => (a, rest)

/-- The reader gets the value from these bits. -/
abbrev Reads (p : BitReader α) (bits : List Bool) (a : α) : Prop :=
  Yields p bits (some a)

theorem reads_pure (a : α) : Reads (pure a) [] a :=
  fun _ => rfl

theorem Reads.append {result : Option β} (hp : Reads p bits a) (hf : Yields (f a) rest result) :
    Yields (p >>= f) (bits ++ rest) result := by
  intro later
  show (p (bits ++ rest ++ later)).bind (fun r => f r.1 r.2) = _
  rw [List.append_assoc, hp (rest ++ later)]
  exact hf later

/-- The first element is read first. -/
theorem Reads.bind {elements : List (List Bool)} {result : Option β} (hp : Reads p bits a)
    (hf : Yields (f a) elements.flatten result) :
    Yields (p >>= f) (bits :: elements).flatten result :=
  hp.append hf

/-- A value that is only changed. -/
theorem Reads.map {g : α → β} (hp : Reads p bits a) : Reads (g <$> p) bits (g a) := by
  intro later
  show (p (bits ++ later)).bind (fun r => some (g r.1, r.2)) = some (g a, later)
  rw [hp later]
  rfl

/-- A check reads nothing, and decides whether the reader fails. -/
theorem yields_guard {c : Prop} [Decidable c] {f : Unit → BitReader β} {result : Option β}
    (hf : c → Yields (f ()) bits result) :
    Yields (guard c >>= f) bits (if c then result else none) := by
  intro later
  by_cases hc : c
  · rw [guard, if_pos hc, if_pos hc]
    exact hf hc later
  · rw [guard, if_neg hc, if_neg hc]
    rfl

/-- A check that succeeds. -/
theorem yields_check {c : Prop} [Decidable c] {f : Unit → BitReader β} {result : Option β}
    (hc : c) (hf : Yields (f ()) bits result) : Yields (guard c >>= f) bits result := by
  have hguard := yields_guard fun _ : c => hf
  rw [if_pos hc] at hguard
  exact hguard

/-- The end of a list of elements. -/
theorem reads_end (a : α) : Reads (pure a) ([] : List (List Bool)).flatten a :=
  reads_pure a

/-- The last element. -/
theorem Reads.last (hp : Reads p bits a) : Reads p [bits].flatten a := by
  rw [List.flatten_cons, List.flatten_nil, List.append_nil]
  exact hp

theorem reads_take (bits : List Bool) : Reads (take bits.length) bits bits := by
  intro later
  unfold take
  rw [if_pos (by rw [List.length_append]; exact Nat.le_add_right _ _), List.take_left,
    List.drop_left]
  rfl

/-- An element that is there only in a case. -/
theorem Reads.cond {c : Bool} {default : α} (h : c = true → Reads p bits a) :
    Reads (readIf c p default) (present c bits) (if c then a else default) := by
  cases c with
  | false => exact reads_pure default
  | true => exact h rfl

theorem reads_loop {body : Nat → σ → BitReader σ} {elements : Nat → List Bool} (state : Nat → σ)
    (n : Nat) (h : ∀ i < n, Reads (body i (state i)) (elements i) (state (i + 1))) :
    Reads (loop n (state 0) body) ((List.range n).flatMap elements) (state n) := by
  induction n with
  | zero => exact reads_pure _
  | succ n ih =>
      rw [List.range_succ, List.flatMap_append, List.flatMap_singleton]
      exact (ih fun i hi => h i (Nat.lt_succ_of_lt hi)).append (h n (Nat.lt_succ_self n))

theorem reads_passes {body : BitReader Bool} {element : ι → List Bool} {final : List Bool}
    (hfinal : Reads body final false) {items : List ι}
    (hitem : ∀ x ∈ items, Reads body (element x) true) (hfuel : items.length < n) :
    Reads (passes n body) (items.flatMap element ++ final) () := by
  induction items generalizing n with
  | nil =>
      obtain ⟨n, rfl⟩ := Nat.exists_eq_add_of_lt hfuel
      rw [List.flatMap_nil, List.nil_append, ← List.append_nil final]
      exact hfinal.append (reads_pure ())
  | cons x items ih =>
      obtain ⟨n, rfl⟩ : ∃ m, n = m + 1 := ⟨n - 1, by rw [List.length_cons] at hfuel; omega⟩
      rw [List.flatMap_cons, List.append_assoc]
      refine (hitem x List.mem_cons_self).append ?_
      exact ih (fun y hy => hitem y (List.mem_cons_of_mem x hy)) (Nat.lt_of_succ_lt_succ hfuel)

/-- The items of a `do` loop, and the one at which it ends. -/
theorem reads_do_while {body : BitReader Bool} {element : ι → List Bool} {final : List Bool}
    (hfinal : Reads body final false) {items : List ι}
    (hitem : ∀ x ∈ items, Reads body (element x) true) (hsome : ∀ x, element x ≠ []) :
    Reads (doWhile body) (items.flatMap element ++ final) () := by
  intro later
  have hcount : items.length ≤ (items.flatMap element).length := by
    clear hitem
    induction items with
    | nil => exact Nat.zero_le _
    | cons x items ih =>
        have hbits := List.length_pos_iff.mpr (hsome x)
        rw [List.flatMap_cons, List.length_append, List.length_cons]
        omega
  refine reads_passes hfinal hitem ?_ later
  rw [List.length_append, List.length_append]
  omega

end BitReader

end MiniRtc
