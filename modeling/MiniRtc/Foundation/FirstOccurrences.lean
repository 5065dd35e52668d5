import Mathlib.Data.List.Nodup
import Mathlib.Data.Finset.Card

/-!
# First occurrences

`List.eraseDups` keeps the first occurrence of each item. A receiver that ignores an item which it
has seen gets to the same state from a list of items and from its first occurrences, so a queue may
drop the repetitions.
-/

namespace MiniRtc.FirstOccurrences

variable {α σ : Type*} {f : σ → α → σ} {s : σ}

/-- The receiver ignores the items that it has seen since it was in the state. -/
def Ignores (f : σ → α → σ) (s : σ) : Prop :=
  ∀ (items : List α), ∀ a ∈ items, f (items.foldl f s) a = items.foldl f s

/-- What was seen before a state was reached is ignored from there on, too. -/
theorem Ignores.after (h : Ignores f s) (items : List α) : Ignores f (items.foldl f s) := by
  intro more a hin
  have hall := h (items ++ more) a (List.mem_append_right items hin)
  rw [List.foldl_append] at hall
  exact hall

variable [BEq α] [LawfulBEq α] [DecidableEq α]

/-- One more item is kept when it is new. -/
theorem erase_dups_snoc (items : List α) (a : α) :
    (items ++ [a]).eraseDups = if a ∈ items then items.eraseDups else items.eraseDups ++ [a] := by
  rw [List.eraseDups_append, List.removeAll]
  split_ifs with hin
  · rw [List.filter_cons_of_neg (by simpa using hin)]
    simp
  · rw [List.filter_cons_of_pos (by simpa using hin)]
    simp [List.eraseDups_cons]

/-- The first occurrences are different. -/
theorem nodup_erase_dups (items : List α) : items.eraseDups.Nodup := by
  induction items using List.reverseRecOn with
  | nil => exact List.nodup_nil
  | append_singleton items a ih =>
      rw [erase_dups_snoc]
      split_ifs with hin
      · exact ih
      · refine List.nodup_append.mpr ⟨ih, List.nodup_singleton a, fun b hb c hc => ?_⟩
        rw [List.mem_singleton.mp hc]
        intro hsame
        rw [hsame] at hb
        exact hin (List.mem_eraseDups.mp hb)

/-- There are as many first occurrences as different items. -/
theorem length_erase_dups (items : List α) : items.eraseDups.length = items.toFinset.card := by
  rw [← List.toFinset_card_of_nodup (nodup_erase_dups items)]
  congr 1
  ext a
  rw [List.mem_toFinset, List.mem_toFinset, List.mem_eraseDups]

/-- Such a receiver needs the first occurrences only. -/
theorem foldl_erase_dups (h : Ignores f s) (items : List α) :
    items.eraseDups.foldl f s = items.foldl f s := by
  induction items using List.reverseRecOn with
  | nil => rfl
  | append_singleton items a ih =>
      rw [erase_dups_snoc, List.foldl_append]
      split_ifs with hin
      · rw [ih]
        exact (h items a hin).symm
      · rw [List.foldl_append, ih]

end MiniRtc.FirstOccurrences
