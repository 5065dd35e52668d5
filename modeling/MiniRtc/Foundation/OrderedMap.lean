import Mathlib.Data.List.TakeWhile
import Mathlib.Order.Basic
import Mathlib.Data.Int.Order.Basic

/-!
# Ordered associative containers

A node container such as a map or a set with a user-supplied comparator, kept as the list of
its elements in iteration order. An iterator is the suffix that starts at its element, so
`lowerBound` and `upperBound` return suffixes and erasing from the beginning up to an iterator
is taking that suffix.

The comparator `lt` need not be an order on the whole key type. The first section uses only
that two keys which are not below each other are equal. The second section assumes a rank that
`lt` compares on the keys in use, and there the container behaves like a sorted finite map.
-/

namespace MiniRtc.OrderedMap

variable {α κ : Type*} (lt : κ → κ → Bool) (key : α → κ)

/-- The suffix that starts at the first element not below `k`. -/
def lowerBound (k : κ) (m : List α) : List α :=
  m.dropWhile fun a => lt (key a) k

/-- The suffix that starts at the first element above `k`. -/
def upperBound (k : κ) (m : List α) : List α :=
  m.dropWhile fun a => !lt k (key a)

/-- The element with key `k`: the lower bound, unless `k` is below it. -/
def find? (k : κ) (m : List α) : Option α :=
  match lowerBound lt key k m with
  | [] => none
  | a :: _ => if lt k (key a) then none else some a

/-- The elements after the position of `k`, without an element of that key. -/
def tailAfter (k : κ) (m : List α) : List α :=
  match lowerBound lt key k m with
  | [] => []
  | a :: rest => if lt k (key a) then a :: rest else rest

/-- Insert an element at the position of its key, replacing an element of the same key. -/
def insertOrAssign (a : α) (m : List α) : List α :=
  m.takeWhile (fun b => lt (key b) (key a)) ++ a :: tailAfter lt key (key a) m

/-- Erase the element with key `k`, if any. -/
def erase (k : κ) (m : List α) : List α :=
  m.takeWhile (fun b => lt (key b) k) ++ tailAfter lt key k m

/-! ## Without an order -/

/-- A container is the elements before a lower bound followed by the lower bound. -/
theorem lower_bound_append (k : κ) (m : List α) :
    m.takeWhile (fun a => lt (key a) k) ++ lowerBound lt key k m = m :=
  List.takeWhile_append_dropWhile

variable {lt : κ → κ → Bool} {key : α → κ}

theorem mem_of_mem_lower_bound {k : κ} {m : List α} {a : α}
    (h : a ∈ lowerBound lt key k m) : a ∈ m :=
  (List.dropWhile_sublist _).subset h

theorem mem_of_mem_upper_bound {k : κ} {m : List α} {a : α}
    (h : a ∈ upperBound lt key k m) : a ∈ m :=
  (List.dropWhile_sublist _).subset h

theorem mem_of_mem_tail_after {k : κ} {m : List α} {a : α}
    (h : a ∈ tailAfter lt key k m) : a ∈ m := by
  unfold tailAfter at h
  split at h
  · simp at h
  · rename_i b rest hb
    have hrest : ∀ c ∈ b :: rest, c ∈ m := fun c hc => mem_of_mem_lower_bound (hb ▸ hc)
    split at h
    · exact hrest a h
    · exact hrest a (List.mem_cons_of_mem _ h)

/-- An element dropped by an upper bound is not above the key. -/
theorem mem_upper_bound_or {k : κ} {m : List α} {a : α} (h : a ∈ m) :
    a ∈ upperBound lt key k m ∨ lt k (key a) = false := by
  rw [← List.takeWhile_append_dropWhile (p := fun a => !lt k (key a)) (l := m)] at h
  rcases List.mem_append.mp h with hskip | hkeep
  · right
    simpa using List.mem_takeWhile_imp hskip
  · exact Or.inl hkeep

theorem mem_of_mem_insert_or_assign {a b : α} {m : List α}
    (h : b ∈ insertOrAssign lt key a m) : b = a ∨ b ∈ m := by
  rcases List.mem_append.mp h with hskip | hkeep
  · exact Or.inr ((List.takeWhile_sublist _).subset hskip)
  · rcases List.mem_cons.mp hkeep with rfl | htail
    · exact Or.inl rfl
    · exact Or.inr (mem_of_mem_tail_after htail)

theorem mem_insert_or_assign_self (a : α) (m : List α) : a ∈ insertOrAssign lt key a m := by
  simp [insertOrAssign]

/-- An element survives an insertion unless it is the one that was found under the key. -/
theorem mem_insert_or_assign_or {a b : α} {m : List α} (h : b ∈ m) :
    b ∈ insertOrAssign lt key a m ∨ find? lt key (key a) m = some b := by
  rw [← lower_bound_append lt key (key a) m] at h
  rcases List.mem_append.mp h with hskip | hkeep
  · exact Or.inl (List.mem_append.mpr (Or.inl hskip))
  · have htail : b ∈ tailAfter lt key (key a) m ∨ find? lt key (key a) m = some b := by
      unfold tailAfter find?
      split
      · rename_i hnil
        simp [hnil] at hkeep
      · rename_i c rest hc
        rw [hc] at hkeep
        split_ifs
        · exact Or.inl hkeep
        · rcases List.mem_cons.mp hkeep with rfl | hrest
          · exact Or.inr rfl
          · exact Or.inl hrest
    rcases htail with htail | hfind
    · exact Or.inl (List.mem_append.mpr (Or.inr (List.mem_cons_of_mem _ htail)))
    · exact Or.inr hfind

theorem mem_of_mem_erase {k : κ} {a : α} {m : List α} (h : a ∈ erase lt key k m) : a ∈ m := by
  rcases List.mem_append.mp h with hskip | hkeep
  · exact (List.takeWhile_sublist _).subset hskip
  · exact mem_of_mem_tail_after hkeep

/-- Inserting leaves at most one element more. -/
theorem length_insert_or_assign (a : α) (m : List α) :
    (insertOrAssign lt key a m).length ≤ m.length + 1 := by
  have htail : (tailAfter lt key (key a) m).length ≤ (lowerBound lt key (key a) m).length := by
    unfold tailAfter
    split
    · simp
    · split <;> simp_all
  have hsplit := congrArg List.length (lower_bound_append lt key (key a) m)
  simp only [List.length_append] at hsplit
  simp only [insertOrAssign, List.length_append, List.length_cons]
  omega

/-- Assigning to a key that is present keeps the number of elements. -/
theorem length_insert_or_assign_of_find {a b : α} {m : List α}
    (h : find? lt key (key a) m = some b) : (insertOrAssign lt key a m).length = m.length := by
  have hsplit := congrArg List.length (lower_bound_append lt key (key a) m)
  unfold find? at h
  split at h
  · simp at h
  · rename_i c rest hc
    split at h
    · simp at h
    · rename_i hk
      have htail : tailAfter lt key (key a) m = rest := by
        unfold tailAfter
        rw [hc]
        simp [hk]
      rw [hc] at hsplit
      simp only [List.length_append, List.length_cons] at hsplit
      simp only [insertOrAssign, htail, List.length_append, List.length_cons]
      omega

/-- Erasing a key that is not found changes nothing. -/
theorem erase_of_find_none {k : κ} {m : List α} (h : find? lt key k m = none) :
    erase lt key k m = m := by
  have htail : tailAfter lt key k m = lowerBound lt key k m := by
    unfold find? at h
    unfold tailAfter
    split
    · rename_i hnil
      rw [hnil]
    · rename_i a rest ha
      rw [ha] at h
      split
      · rw [ha]
      · rename_i hk
        simp [hk] at h
  rw [erase, htail, lower_bound_append]

/-- The element at a lower bound is not below the key. -/
theorem head_lower_bound {k : κ} {m rest : List α} {a : α}
    (h : lowerBound lt key k m = a :: rest) : lt (key a) k = false := by
  have hhead := List.head?_dropWhile_not (fun a => lt (key a) k) m
  change (match (lowerBound lt key k m).head? with
    | some x => lt (key x) k = false
    | none => True) at hhead
  rwa [h] at hhead

section Connected

variable (hconn : ∀ x y : κ, lt x y = false → lt y x = false → x = y)
include hconn

/-- A successful lookup returns an element with the requested key. -/
theorem find_some {k : κ} {a : α} {m : List α} (h : find? lt key k m = some a) :
    a ∈ m ∧ key a = k := by
  unfold find? at h
  split at h
  · simp at h
  · rename_i b rest hb
    split at h
    · simp at h
    · rename_i hk
      cases h
      have hmem : a ∈ lowerBound lt key k m := hb ▸ List.mem_cons_self
      exact ⟨mem_of_mem_lower_bound hmem,
        hconn _ _ (head_lower_bound hb) (by simpa using hk)⟩

/-- Only an element of the given key can be missing after its position. -/
theorem mem_tail_after_or {k : κ} {a : α} {m : List α} (h : a ∈ m) (hne : key a ≠ k) :
    a ∈ m.takeWhile (fun b => lt (key b) k) ∨ a ∈ tailAfter lt key k m := by
  rw [← lower_bound_append lt key k m] at h
  rcases List.mem_append.mp h with hskip | hkeep
  · exact Or.inl hskip
  · right
    unfold tailAfter
    split
    · rename_i hnil
      simp [hnil] at hkeep
    · rename_i b rest hb
      rw [hb] at hkeep
      split
      · exact hkeep
      · rename_i hk
        have hbk : key b = k := hconn _ _ (head_lower_bound hb) (by simpa using hk)
        rcases List.mem_cons.mp hkeep with rfl | hrest
        · exact absurd hbk hne
        · exact hrest

/-- Inserting keeps every element of another key. -/
theorem mem_insert_or_assign_of_ne {a b : α} {m : List α} (h : b ∈ m) (hne : key b ≠ key a) :
    b ∈ insertOrAssign lt key a m := by
  rcases mem_tail_after_or hconn h hne with hskip | hkeep
  · exact List.mem_append.mpr (Or.inl hskip)
  · exact List.mem_append.mpr (Or.inr (List.mem_cons_of_mem _ hkeep))

/-- Erasing keeps every element of another key. -/
theorem mem_erase_of_ne {k : κ} {a : α} {m : List α} (h : a ∈ m) (hne : key a ≠ k) :
    a ∈ erase lt key k m := by
  rcases mem_tail_after_or hconn h hne with hskip | hkeep
  · exact List.mem_append.mpr (Or.inl hskip)
  · exact List.mem_append.mpr (Or.inr hkeep)

end Connected

/-- A key that was just inserted is found, whatever the other elements are. -/
theorem find_insert_or_assign_self (hirrefl : ∀ x : κ, lt x x = false) (a : α) (m : List α) :
    find? lt key (key a) (insertOrAssign lt key a m) = some a := by
  have hskip : ∀ b ∈ m.takeWhile (fun b => lt (key b) (key a)), lt (key b) (key a) = true :=
    fun b hb => List.mem_takeWhile_imp (p := fun b => lt (key b) (key a)) hb
  have hbound : lowerBound lt key (key a) (insertOrAssign lt key a m) =
      a :: tailAfter lt key (key a) m := by
    unfold lowerBound insertOrAssign
    rw [List.dropWhile_append_of_pos hskip, List.dropWhile_cons_of_neg (by simp [hirrefl])]
  simp [find?, hbound, hirrefl]

/-! ## With a rank on the keys in use -/

/-- Where membership in a prefix is inherited backwards, the prefix is a filter. -/
theorem take_while_eq_filter {p : α → Bool} {m : List α}
    (h : m.Pairwise fun a b => p b = true → p a = true) :
    m.takeWhile p = m.filter p ∧ m.dropWhile p = m.filter (fun a => !p a) := by
  induction m with
  | nil => simp
  | cons a rest ih =>
      obtain ⟨hhead, hrest⟩ := List.pairwise_cons.mp h
      obtain ⟨htake, hdrop⟩ := ih hrest
      cases hp : p a with
      | true => simp [hp, htake, hdrop]
      | false =>
          have hnone : ∀ b ∈ rest, p b = false := by
            intro b hb
            by_contra hpb
            simp [hhead b hb (by simpa using hpb)] at hp
          have hfilter : rest.filter p = [] := by
            simpa [List.filter_eq_nil_iff] using hnone
          have hkeep : rest.filter (fun b => !p b) = rest := by
            simpa [List.filter_eq_self] using hnone
          simp [hp, hfilter, hkeep]

section Ranked

variable {P : κ → Prop} {rank : κ → ℤ}

/-- The elements come in strictly increasing rank and their keys are in use. -/
structure Ranked (key : α → κ) (P : κ → Prop) (rank : κ → ℤ) (m : List α) : Prop where
  inUse : ∀ a ∈ m, P (key a)
  sorted : m.Pairwise fun a b => rank (key a) < rank (key b)

variable (hlt : ∀ x y : κ, P x → P y → (lt x y = true ↔ rank x < rank y))
include hlt

/-- A lower bound keeps exactly the elements whose rank is not smaller. -/
theorem lower_bound_eq_filter {k : κ} {m : List α} (hk : P k) (h : Ranked key P rank m) :
    lowerBound lt key k m = m.filter (fun a => rank k ≤ rank (key a)) := by
  have hmono : m.Pairwise fun a b => lt (key b) k = true → lt (key a) k = true := by
    refine h.sorted.imp_of_mem ?_
    intro a b ha hb hab hbk
    have hrank := (hlt _ _ (h.inUse b hb) hk).mp hbk
    exact (hlt _ _ (h.inUse a ha) hk).mpr (by omega)
  rw [lowerBound, (take_while_eq_filter hmono).2]
  refine List.filter_congr ?_
  intro a ha
  have hiff := hlt _ _ (h.inUse a ha) hk
  by_cases hrank : rank (key a) < rank k
  · simp [hiff.mpr hrank, hrank]
  · have hfalse : lt (key a) k = false := Bool.eq_false_iff.mpr fun hl => hrank (hiff.mp hl)
    simp [hfalse, not_lt.mp hrank]

/-- An upper bound keeps exactly the elements whose rank is larger. -/
theorem upper_bound_eq_filter {k : κ} {m : List α} (hk : P k) (h : Ranked key P rank m) :
    upperBound lt key k m = m.filter (fun a => rank k < rank (key a)) := by
  have hmono : m.Pairwise fun a b => (!lt k (key b)) = true → (!lt k (key a)) = true := by
    refine h.sorted.imp_of_mem ?_
    intro a b ha hb hab hbk
    have hb' : ¬ rank k < rank (key b) := by
      intro hr
      simp [(hlt _ _ hk (h.inUse b hb)).mpr hr] at hbk
    have ha' : lt k (key a) = false := by
      refine Bool.eq_false_iff.mpr fun hl => ?_
      have hrank := (hlt _ _ hk (h.inUse a ha)).mp hl
      omega
    simp [ha']
  rw [upperBound, (take_while_eq_filter hmono).2]
  refine List.filter_congr ?_
  intro a ha
  have hiff := hlt _ _ hk (h.inUse a ha)
  by_cases hrank : rank k < rank (key a)
  · simp [hiff.mpr hrank, hrank]
  · have hfalse : lt k (key a) = false := Bool.eq_false_iff.mpr fun hl => hrank (hiff.mp hl)
    simp [hfalse, hrank]

/-- The elements after the position of a key are those of larger rank. -/
theorem tail_after_eq_filter {k : κ} {m : List α} (hk : P k) (h : Ranked key P rank m) :
    tailAfter lt key k m = m.filter (fun a => rank k < rank (key a)) := by
  have hbound := lower_bound_eq_filter hlt hk h
  have hsub : (lowerBound lt key k m).Pairwise fun a b => rank (key a) < rank (key b) :=
    h.sorted.sublist (List.dropWhile_sublist _)
  have hlarger : m.filter (fun a => rank k < rank (key a)) =
      (lowerBound lt key k m).filter (fun a => rank k < rank (key a)) := by
    rw [hbound, List.filter_filter]
    refine List.filter_congr ?_
    intro a _
    by_cases hr : rank k < rank (key a) <;> simp [hr]
    omega
  rw [hlarger]
  unfold tailAfter
  split
  · rename_i hnil
    simp [hnil]
  · rename_i b rest hb
    rw [hb] at hsub ⊢
    obtain ⟨hhead, -⟩ := List.pairwise_cons.mp hsub
    have hbm : b ∈ m := mem_of_mem_lower_bound (hb ▸ List.mem_cons_self)
    have hkb : rank k ≤ rank (key b) := by
      have : b ∈ lowerBound lt key k m := hb ▸ List.mem_cons_self
      rw [hbound] at this
      simpa using (List.mem_filter.mp this).2
    have hrest : rest.filter (fun a => rank k < rank (key a)) = rest := by
      refine List.filter_eq_self.mpr ?_
      intro a ha
      have := hhead a ha
      simp only [decide_eq_true_eq]
      omega
    split
    · rename_i hkb'
      have hlarge := (hlt _ _ hk (h.inUse b hbm)).mp hkb'
      simp [hlarge, hrest]
    · rename_i hkb'
      have hnot : ¬ rank k < rank (key b) := fun hr =>
        hkb' ((hlt _ _ hk (h.inUse b hbm)).mpr hr)
      simp [hnot, hrest]

/-- The elements before the position of a key are those of smaller rank. -/
theorem take_while_eq_filter_rank {k : κ} {m : List α} (hk : P k) (h : Ranked key P rank m) :
    m.takeWhile (fun a => lt (key a) k) = m.filter (fun a => rank (key a) < rank k) := by
  have hmono : m.Pairwise fun a b => lt (key b) k = true → lt (key a) k = true := by
    refine h.sorted.imp_of_mem ?_
    intro a b ha hb hab hbk
    have hrank := (hlt _ _ (h.inUse b hb) hk).mp hbk
    exact (hlt _ _ (h.inUse a ha) hk).mpr (by omega)
  rw [(take_while_eq_filter hmono).1]
  refine List.filter_congr ?_
  intro a ha
  rw [Bool.eq_iff_iff, hlt _ _ (h.inUse a ha) hk, decide_eq_true_eq]

/-- Erasing removes exactly the element of the key. -/
theorem mem_erase_iff (hconn : ∀ x y : κ, lt x y = false → lt y x = false → x = y)
    {k : κ} {a : α} {m : List α} (hk : P k) (h : Ranked key P rank m) :
    a ∈ erase lt key k m ↔ a ∈ m ∧ key a ≠ k := by
  refine ⟨fun ha => ⟨mem_of_mem_erase ha, ?_⟩, fun ha => mem_erase_of_ne hconn ha.1 ha.2⟩
  rintro rfl
  rw [erase, take_while_eq_filter_rank hlt hk h, tail_after_eq_filter hlt hk h] at ha
  simp at ha

/-- A lookup succeeds exactly for the keys present. -/
theorem find_eq_some_iff (hconn : ∀ x y : κ, lt x y = false → lt y x = false → x = y)
    {k : κ} {a : α} {m : List α} (hk : P k) (h : Ranked key P rank m) :
    find? lt key k m = some a ↔ a ∈ m ∧ key a = k := by
  refine ⟨find_some hconn, ?_⟩
  rintro ⟨ham, rfl⟩
  have hbound := lower_bound_eq_filter hlt hk h
  have hsorted : (lowerBound lt key (key a) m).Pairwise fun a b => rank (key a) < rank (key b) :=
    h.sorted.sublist (List.dropWhile_sublist _)
  have hmem : a ∈ lowerBound lt key (key a) m := by
    rw [hbound]
    exact List.mem_filter.mpr ⟨ham, by simp⟩
  cases hl : lowerBound lt key (key a) m with
  | nil => simp [hl] at hmem
  | cons b rest =>
      have hb : rank (key a) ≤ rank (key b) := by
        have hbm : b ∈ lowerBound lt key (key a) m := hl ▸ List.mem_cons_self
        rw [hbound] at hbm
        simpa using (List.mem_filter.mp hbm).2
      rw [hl] at hmem hsorted
      rcases List.mem_cons.mp hmem with rfl | hrest
      · have hself : lt (key a) (key a) = false :=
          Bool.eq_false_iff.mpr fun hl => lt_irrefl _ ((hlt _ _ hk hk).mp hl)
        simp [find?, hl, hself]
      · have := (List.pairwise_cons.mp hsorted).1 a hrest
        omega

/-- Inserting an element whose key is in use keeps the order. -/
theorem ranked_insert_or_assign {a : α} {m : List α} (ha : P (key a))
    (h : Ranked key P rank m) : Ranked key P rank (insertOrAssign lt key a m) := by
  constructor
  · intro b hb
    rcases mem_of_mem_insert_or_assign hb with rfl | hbm
    · exact ha
    · exact h.inUse b hbm
  · rw [insertOrAssign, take_while_eq_filter_rank hlt ha h, tail_after_eq_filter hlt ha h]
    refine List.pairwise_append.mpr ⟨h.sorted.sublist List.filter_sublist, ?_, ?_⟩
    · refine List.pairwise_cons.mpr ⟨?_, h.sorted.sublist List.filter_sublist⟩
      intro b hb
      simpa using (List.mem_filter.mp hb).2
    · intro b hb c hc
      have hba : rank (key b) < rank (key a) := by simpa using (List.mem_filter.mp hb).2
      rcases List.mem_cons.mp hc with rfl | hc
      · exact hba
      · have hac : rank (key a) < rank (key c) := by simpa using (List.mem_filter.mp hc).2
        omega

end Ranked

/-- Any part of an ordered container is ordered. -/
theorem Ranked.sublist {P : κ → Prop} {rank : κ → ℤ} {m m' : List α}
    (h : Ranked key P rank m) (hsub : m'.Sublist m) : Ranked key P rank m' :=
  ⟨fun a ha => h.inUse a (hsub.subset ha), h.sorted.sublist hsub⟩

/-- A container after an insertion holds the element and what it holds without its key. -/
theorem perm_insert_or_assign (a : α) (m : List α) :
    (insertOrAssign lt key a m).Perm (a :: erase lt key (key a) m) :=
  List.perm_middle

/-- A container holds the element that is found and what it holds without its key. -/
theorem perm_erase_of_find {k : κ} {a : α} {m : List α} (h : find? lt key k m = some a) :
    m.Perm (a :: erase lt key k m) := by
  have hsplit := lower_bound_append lt key k m
  unfold find? at h
  split at h
  · cases h
  · rename_i b rest hbound
    split_ifs at h with hnot
    rw [Option.some.inj h] at hbound hnot
    have herase : erase lt key k m = m.takeWhile (fun c => lt (key c) k) ++ rest := by
      unfold erase tailAfter
      rw [hbound]
      simp [hnot]
    rw [herase]
    rw [hbound] at hsplit
    exact (List.Perm.of_eq hsplit.symm).trans List.perm_middle

/-- Erasing what was inserted is erasing what was there before. -/
theorem erase_insert_or_assign (hirrefl : ∀ x : κ, lt x x = false) (a : α) (m : List α) :
    erase lt key (key a) (insertOrAssign lt key a m) = erase lt key (key a) m := by
  have hbefore : ∀ b ∈ m.takeWhile (fun b => lt (key b) (key a)), lt (key b) (key a) = true :=
    fun b hb => List.mem_takeWhile_imp (p := fun b => lt (key b) (key a)) hb
  have hhead : (insertOrAssign lt key a m).takeWhile (fun b => lt (key b) (key a)) =
      m.takeWhile fun b => lt (key b) (key a) := by
    unfold insertOrAssign
    rw [List.takeWhile_append_of_pos hbefore, List.takeWhile_cons_of_neg (by simp [hirrefl]),
      List.append_nil]
  have hbound : lowerBound lt key (key a) (insertOrAssign lt key a m) =
      a :: tailAfter lt key (key a) m := by
    unfold lowerBound insertOrAssign
    rw [List.dropWhile_append_of_pos hbefore, List.dropWhile_cons_of_neg (by simp [hirrefl])]
  have htail : tailAfter lt key (key a) (insertOrAssign lt key a m) =
      tailAfter lt key (key a) m := by
    rw [tailAfter, hbound]
    simp [hirrefl]
  rw [erase, hhead, htail, erase]

theorem tail_after_sublist (k : κ) (m : List α) :
    (tailAfter lt key k m).Sublist (lowerBound lt key k m) := by
  unfold tailAfter
  split
  · simp
  · rename_i b rest hb
    split
    · simp [hb]
    · simp [hb]

theorem erase_sublist (k : κ) (m : List α) : (erase lt key k m).Sublist m := by
  have htail : (tailAfter lt key k m).Sublist (lowerBound lt key k m) := tail_after_sublist k m
  have h := (List.Sublist.refl (m.takeWhile fun a => lt (key a) k)).append htail
  rwa [lower_bound_append] at h

end MiniRtc.OrderedMap
