import Mathlib.Data.List.Basic

/-!
# Runs of a deterministic system

A system is a function `step : σ → α → σ` that applies an action to a state, and a run is a
left fold over the list of its actions. `Along step C s actions` says that `C` holds before
every action of the run: the action `a` taken in the state `t` satisfies `C t a`. Both the
assumptions on a run and the statements about each of its steps are written in this form.
-/

namespace MiniRtc.Run

variable {σ α : Type*} {step : σ → α → σ} {C D : σ → α → Prop} {I : σ → Prop}

/-- Every action of the run satisfies `C` in the state in which it is taken. -/
def Along (step : σ → α → σ) (C : σ → α → Prop) : σ → List α → Prop
  | _, [] => True
  | s, a :: rest => C s a ∧ Along step C (step s a) rest

@[simp] theorem along_nil (s : σ) : Along step C s [] :=
  trivial

@[simp] theorem along_cons {s : σ} {a : α} {rest : List α} :
    Along step C s (a :: rest) ↔ C s a ∧ Along step C (step s a) rest :=
  Iff.rfl

/-- A condition that can be decided in every state can be decided along a run. -/
instance decidableAlong [∀ s a, Decidable (C s a)] :
    ∀ (s : σ) (actions : List α), Decidable (Along step C s actions)
  | _, [] => isTrue trivial
  | s, a :: rest => @instDecidableAnd _ _ _ (decidableAlong (step s a) rest)

/-- A run of two parts satisfies a condition when both parts do. -/
theorem along_append {s : σ} {first second : List α} :
    Along step C s (first ++ second) ↔
      Along step C s first ∧ Along step C (first.foldl step s) second := by
  induction first generalizing s with
  | nil => simp
  | cons a rest ih => simp [ih, and_assoc]

/-- An invariant of the allowed steps holds at the end of every allowed run. -/
theorem Along.invariant {s : σ} {actions : List α} (h : Along step C s actions)
    (hstep : ∀ s a, I s → C s a → I (step s a)) (hs : I s) : I (actions.foldl step s) := by
  induction actions generalizing s with
  | nil => exact hs
  | cons a rest ih => exact ih h.2 (hstep s a hs h.1)

/-- What an invariant and the condition give for one step holds for every step of the run. -/
theorem Along.imp {s : σ} {actions : List α} (h : Along step C s actions)
    (hstep : ∀ s a, I s → C s a → I (step s a)) (himp : ∀ s a, I s → C s a → D s a)
    (hs : I s) : Along step D s actions := by
  induction actions generalizing s with
  | nil => trivial
  | cons a rest ih => exact ⟨himp s a hs h.1, ih h.2 (hstep s a hs h.1)⟩

/-- Two conditions that hold along a run hold together. -/
theorem Along.and {s : σ} {actions : List α} (hC : Along step C s actions)
    (hD : Along step D s actions) : Along step (fun s a => C s a ∧ D s a) s actions := by
  induction actions generalizing s with
  | nil => trivial
  | cons a rest ih => exact ⟨⟨hC.1, hD.1⟩, ih hC.2 hD.2⟩

/-- What holds of all actions holds along the run. -/
theorem along_of_forall {E : α → Prop} {s : σ} {actions : List α} (h : ∀ a ∈ actions, E a) :
    Along step (fun _ a => E a) s actions := by
  induction actions generalizing s with
  | nil => trivial
  | cons a rest ih =>
      exact ⟨h a List.mem_cons_self, ih fun b hb => h b (List.mem_cons_of_mem a hb)⟩

/-- What follows from an invariant of all steps holds for every step of every run. -/
theorem along_of_invariant (hstep : ∀ s a, I s → I (step s a)) (himp : ∀ s a, I s → C s a)
    {s : σ} (hs : I s) (actions : List α) : Along step C s actions := by
  induction actions generalizing s with
  | nil => trivial
  | cons a rest ih => exact ⟨himp s a hs, ih (hstep s a hs)⟩

/-- When a condition decides whether a step keeps an invariant, it decides whether the invariant
holds in all states of a run. -/
theorem invariant_iff_along {s : σ} {actions : List α}
    (hstep : ∀ s a, I s → (I (step s a) ↔ C s a)) (hs : I s) :
    (∀ first rest, actions = first ++ rest → I (first.foldl step s)) ↔
      Along step C s actions := by
  induction actions generalizing s with
  | nil => simp [hs]
  | cons a rest ih =>
      rw [along_cons, ← hstep s a hs]
      constructor
      · intro h
        have ha : I (step s a) := h [a] rest rfl
        refine ⟨ha, (ih ha).mp fun first later hlater => ?_⟩
        exact h (a :: first) later (by rw [hlater, List.cons_append])
      · rintro ⟨ha, hrest⟩ first later hlater
        cases first with
        | nil => exact hs
        | cons b first =>
            obtain ⟨rfl, hlater'⟩ := List.cons.inj hlater
            exact (ih ha).mpr hrest first later hlater'

/-- Two conditions that agree wherever the first one has held so far hold along the same runs. -/
theorem along_congr {A : σ → α → Prop} {s : σ} {actions : List α}
    (hassumed : Along step A s actions) (hiff : ∀ s a, I s → A s a → (C s a ↔ D s a))
    (hstep : ∀ s a, I s → A s a → D s a → I (step s a)) (hs : I s) :
    Along step C s actions ↔ Along step D s actions := by
  induction actions generalizing s with
  | nil => exact Iff.rfl
  | cons a rest ih =>
      rw [along_cons, along_cons, hiff s a hs hassumed.1]
      exact and_congr_right fun ha => ih hassumed.2 (hstep s a hs hassumed.1 ha)

/-- What a run that may stop has collected when it has not stopped: a step adds the items of its
action, and the invariant is about everything that was collected. -/
theorem foldlM_collect {β : Type*} {f : σ → α → Option σ} {g : α → List β}
    {I : List β → σ → Prop}
    (hstep : ∀ collected s a s', I collected s → f s a = some s' → I (collected ++ g a) s')
    {actions : List α} {collected : List β} {s s' : σ} (hs : I collected s)
    (h : actions.foldlM f s = some s') : I (collected ++ actions.flatMap g) s' := by
  induction actions generalizing collected s with
  | nil =>
      obtain rfl := Option.some.inj h
      rwa [List.flatMap_nil, List.append_nil]
  | cons a rest ih =>
      rw [List.foldlM_cons, Option.bind_eq_bind, Option.bind_eq_some_iff] at h
      obtain ⟨next, ha, hrest⟩ := h
      rw [List.flatMap_cons, ← List.append_assoc]
      exact ih (hstep collected s a next hs ha) hrest

end MiniRtc.Run
