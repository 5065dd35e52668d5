import MiniRtc.Foundation.Run
import Mathlib.Data.List.Forall2

/-!
# Refinement of machines

A machine takes an action in a state, and what it does can be seen from outside. One machine refines
another when each of its steps is carried out by a block of steps of the other, with the same to be
seen. `Refines.run` is the theorem about runs: a run is carried out by one block for each of its
actions.
-/

namespace MiniRtc.Machine

variable {σ τ α β ω : Type*}

/-- A run and what is seen of it. -/
def run (step : σ → α → σ × List ω) : σ → List α → σ × List ω
  | s, [] => (s, [])
  | s, a :: rest =>
      ((run step (step s a).1 rest).1, (step s a).2 ++ (run step (step s a).1 rest).2)

variable {step : σ → α → σ × List ω} {s s' s'' : σ} {seen seen' : List ω}

@[simp] theorem run_nil (s : σ) : run step s [] = (s, []) :=
  rfl

theorem run_cons (s : σ) (a : α) (rest : List α) :
    run step s (a :: rest) =
      ((run step (step s a).1 rest).1, (step s a).2 ++ (run step (step s a).1 rest).2) :=
  rfl

@[simp] theorem run_singleton (s : σ) (a : α) : run step s [a] = step s a := by
  rw [run_cons, run_nil, List.append_nil]

/-- A run of two parts is the second part after the first. -/
theorem run_append (s : σ) (first second : List α) :
    run step s (first ++ second) =
      ((run step (run step s first).1 second).1,
        (run step s first).2 ++ (run step (run step s first).1 second).2) := by
  induction first generalizing s with
  | nil => rfl
  | cons a rest ih =>
      rw [List.cons_append, run_cons, ih, run_cons]
      simp only [List.append_assoc]

/-- A run of which less is seen. -/
theorem run_map {ω' : Type*} (f : ω → ω') (s : σ) (actions : List α) :
    run (fun s a => ((step s a).1, (step s a).2.map f)) s actions =
      ((run step s actions).1, (run step s actions).2.map f) := by
  induction actions generalizing s with
  | nil => rfl
  | cons a rest ih =>
      rw [run_cons, ih, run_cons]
      simp only [List.map_append]

/-- One machine refines another: every action `b` of the first is carried out by a block of actions
of the second. `carries` are the blocks for an action, and `R` relates the states. -/
structure Refines (concrete : τ → β → τ × List ω) (abstract : σ → α → σ × List ω)
    (carries : β → List α → Prop) (R : τ → σ → Prop) : Prop where
  step : ∀ {t s}, R t s → ∀ b, ∃ block, carries b block ∧
    (run abstract s block).2 = (concrete t b).2 ∧ R (concrete t b).1 (run abstract s block).1

/-- A run is carried out block by block. -/
theorem Refines.run {concrete : τ → β → τ × List ω} {abstract : σ → α → σ × List ω}
    {carries : β → List α → Prop} {R : τ → σ → Prop} (h : Refines concrete abstract carries R)
    {t : τ} {s : σ} (hstart : R t s) (actions : List β) :
    ∃ blocks : List (List α), List.Forall₂ carries actions blocks ∧
      (Machine.run abstract s blocks.flatten).2 = (Machine.run concrete t actions).2 ∧
      R (Machine.run concrete t actions).1 (Machine.run abstract s blocks.flatten).1 := by
  induction actions generalizing t s with
  | nil => exact ⟨[], List.Forall₂.nil, rfl, hstart⟩
  | cons b rest ih =>
      obtain ⟨block, hblock, hseen, hnext⟩ := h.step hstart b
      obtain ⟨blocks, hblocks, hrest, hend⟩ := ih hnext
      refine ⟨block :: blocks, List.Forall₂.cons hblock hblocks, ?_, ?_⟩
      · rw [List.flatten_cons, run_append, run_cons, hseen, hrest]
      · rw [List.flatten_cons, run_append]
        exact hend

end MiniRtc.Machine
