import Mathlib.Data.List.Perm.Basic
import Mathlib.Data.List.Nodup

/-!
# Inventories

An inventory says what became of everything that was accepted: it is still held, it was handed
over, or it was dropped. Things leave by a test on them. `Balanced` says that nothing is lost and nothing is
counted twice, and it holds after all operations.
-/

namespace MiniRtc

/-- An inventory. -/
structure Inventory (α : Type*) where
  accepted : List α := []
  held : List α := []
  handed : List α := []
  dropped : List α := []

namespace Inventory

variable {α β : Type*}

/-- Accept a thing, which is held. -/
def accept (l : Inventory α) (a : α) : Inventory α :=
  { l with
    accepted := l.accepted ++ [a]
    held := l.held ++ [a] }

/-- Hand over what is held and passes a test. -/
def hand (l : Inventory α) (leaves : α → Bool) : Inventory α :=
  { l with
    held := l.held.filter fun a => !leaves a
    handed := l.handed ++ l.held.filter leaves }

/-- Drop what is held and passes a test. -/
def drop (l : Inventory α) (leaves : α → Bool) : Inventory α :=
  { l with
    held := l.held.filter fun a => !leaves a
    dropped := l.dropped ++ l.held.filter leaves }

/-- What was accepted was handed over, is held or was dropped, each thing once. -/
def Balanced (l : Inventory α) : Prop :=
  (l.handed ++ l.held ++ l.dropped).Perm l.accepted

/-- The inventory of what things become. -/
def map (f : α → β) (l : Inventory α) : Inventory β where
  accepted := l.accepted.map f
  held := l.held.map f
  handed := l.handed.map f
  dropped := l.dropped.map f

variable {l : Inventory α}

/-- A new inventory is balanced. -/
theorem balanced_new : ({} : Inventory α).Balanced :=
  List.Perm.refl _

theorem Balanced.accept (h : l.Balanced) (a : α) : (l.accept a).Balanced := by
  have hlast : (l.handed ++ (l.held ++ [a]) ++ l.dropped).Perm
      (l.handed ++ l.held ++ l.dropped ++ [a]) := by
    rw [← List.append_assoc, List.append_assoc (l.handed ++ l.held)]
    refine List.Perm.trans ?_ (List.Perm.of_eq (List.append_assoc _ _ _).symm)
    exact List.perm_append_comm.append_left _
  exact hlast.trans (h.append_right [a])

theorem Balanced.hand (h : l.Balanced) (leaves : α → Bool) : (l.hand leaves).Balanced := by
  have hsplit := List.filter_append_perm leaves l.held
  refine List.Perm.trans (List.Perm.append_right l.dropped ?_) h
  show (l.handed ++ l.held.filter leaves ++ l.held.filter fun a => !leaves a).Perm _
  rw [List.append_assoc]
  exact hsplit.append_left l.handed

theorem Balanced.drop (h : l.Balanced) (leaves : α → Bool) : (l.drop leaves).Balanced := by
  have hsplit := List.filter_append_perm leaves l.held
  refine List.Perm.trans ?_ h
  show (l.handed ++ (l.held.filter fun a => !leaves a) ++
    (l.dropped ++ l.held.filter leaves)).Perm _
  have hleft : ((l.held.filter fun a => !leaves a) ++ (l.dropped ++ l.held.filter leaves)).Perm
      (l.held ++ l.dropped) := by
    refine (List.perm_append_comm.append_left _).trans ?_
    rw [← List.append_assoc]
    exact (List.perm_append_comm.trans hsplit).append_right _
  rw [List.append_assoc, List.append_assoc]
  exact hleft.append_left l.handed

theorem Balanced.map (h : l.Balanced) (f : α → β) : (l.map f).Balanced := by
  have hmapped := List.Perm.map f h
  rwa [List.map_append, List.map_append] at hmapped

/-- Things that are held have different keys when all accepted things have. -/
theorem Balanced.held_nodup (h : l.Balanced) {key : α → β} (hkeys : (l.accepted.map key).Nodup) :
    (l.held.map key).Nodup := by
  have hall := (h.map key).nodup_iff.mpr hkeys
  exact (List.nodup_append.mp (List.nodup_append.mp hall).1).2.1

/-- Handing over by key takes one thing. -/
theorem filter_key {key : α → β} [DecidableEq β] {held : List α} (hkeys : (held.map key).Nodup)
    {a : α} (ha : a ∈ held) : (held.filter fun x => decide (key x = key a)) = [a] := by
  induction held with
  | nil => cases ha
  | cons b rest ih =>
      obtain ⟨hb, hrest⟩ := List.nodup_cons.mp hkeys
      rcases List.mem_cons.mp ha with rfl | hin
      · have hnone : (rest.filter fun x => decide (key x = key a)) = [] := by
          refine List.filter_eq_nil_iff.mpr fun x hx heq => hb ?_
          exact of_decide_eq_true heq ▸ List.mem_map_of_mem hx
        rw [List.filter_cons_of_pos (by simp), hnone]
      · have hne : key b ≠ key a := fun heq => hb (heq ▸ List.mem_map_of_mem hin)
        rw [List.filter_cons_of_neg (by simpa using hne)]
        exact ih hrest hin

end Inventory

end MiniRtc
