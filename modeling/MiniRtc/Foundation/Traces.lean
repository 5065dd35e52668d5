import Mathlib.Data.List.Basic
import Mathlib.Data.List.Count

/-!
# Runs of allowed actions and their traces

A system says for every action whether it is allowed in a state, and then what the next state is and
what can be seen. The trace of a run is all that was seen, in order. `run_invariant` is the induction
on runs for invariants that speak of the state and of the trace before it. `Throughout P` says that
`P` held of each event and what was seen before, and `run_bound` counts the actions that use up a
measure.
-/

namespace MiniRtc.Trace

variable {σ α ω : Type*}

/-- A run of allowed actions, with its trace. -/
def run (step : σ → α → Option (σ × List ω)) : σ → List α → Option (σ × List ω)
  | s, [] => some (s, [])
  | s, a :: rest =>
      match step s a with
      | none => none
      | some (s', seen) => (run step s' rest).map fun later => (later.1, seen ++ later.2)

variable {step : σ → α → Option (σ × List ω)} {s s' : σ} {seen new : List ω}

/-- A run starts with a step, and the rest of it runs from there. -/
theorem run_cons {a : α} {rest : List α} (h : run step s (a :: rest) = some (s', seen)) :
    ∃ middle first later, step s a = some (middle, first) ∧
      run step middle rest = some (s', later) ∧ seen = first ++ later := by
  unfold run at h
  split at h
  · cases h
  · rename_i middle first hstep
    obtain ⟨⟨last, later⟩, hrest, hend⟩ := Option.map_eq_some_iff.mp h
    obtain ⟨rfl, rfl⟩ := Prod.mk.inj hend
    exact ⟨middle, first, later, hstep, hrest, rfl⟩

/-- What every step keeps holds at the end of a run. -/
theorem run_invariant {I : List ω → σ → Prop}
    (hstep : ∀ seen s a s' new, I seen s → step s a = some (s', new) → I (seen ++ new) s')
    {actions : List α} (hs : I seen s) (h : run step s actions = some (s', new)) :
    I (seen ++ new) s' := by
  induction actions generalizing s seen new with
  | nil =>
      obtain ⟨rfl, rfl⟩ := Prod.mk.inj (Option.some.inj h)
      rwa [List.append_nil]
  | cons a rest ih =>
      obtain ⟨middle, first, later, hfirst, hlater, rfl⟩ := run_cons h
      rw [← List.append_assoc]
      exact ih (hstep seen s a middle first hs hfirst) hlater

/-- What every step keeps of the state is kept by a run. -/
theorem run_keeps {I : σ → Prop} (hstep : ∀ s a s' new, I s → step s a = some (s', new) → I s')
    {actions : List α} (hs : I s) (h : run step s actions = some (s', new)) : I s' :=
  @run_invariant σ α ω step s s' [] new (fun _ s => I s) (fun _ => hstep) actions hs h

/-- Actions that use up a measure which no action increases are only taken so often. -/
theorem run_bound {I : σ → Prop} (measure : σ → ℕ) (uses : α → Bool)
    (hkept : ∀ s a s' new, I s → step s a = some (s', new) → I s')
    (hstep : ∀ s a s' new, I s → step s a = some (s', new) →
      measure s' + (if uses a then 1 else 0) ≤ measure s)
    {actions : List α} (hs : I s) (h : run step s actions = some (s', new)) :
    measure s' + actions.countP uses ≤ measure s := by
  induction actions generalizing s new with
  | nil =>
      obtain ⟨rfl, rfl⟩ := Prod.mk.inj (Option.some.inj h)
      exact Nat.le_of_eq (by rw [List.countP_nil, Nat.add_zero])
  | cons a rest ih =>
      obtain ⟨middle, first, later, hfirst, hlater, -⟩ := run_cons h
      have hone := hstep s a middle first hs hfirst
      have hrest := ih (hkept s a middle first hs hfirst) hlater
      rw [List.countP_cons]
      omega

/-! ## Traces -/

/-- `P` holds of every event of the trace and of what was seen before it. -/
def Throughout (P : List ω → ω → Prop) (seen : List ω) : Prop :=
  ∀ first event last, seen = first ++ event :: last → P first event

variable {P : List ω → ω → Prop} {event : ω}

theorem throughout_nil : Throughout P [] := by
  intro first event last h
  cases first <;> cases h

/-- One more event is added to a trace. -/
theorem throughout_concat : Throughout P (seen ++ [event]) ↔ Throughout P seen ∧ P seen event := by
  constructor
  · intro h
    refine ⟨fun first before last hsplit => ?_, h seen event [] rfl⟩
    refine h first before (last ++ [event]) ?_
    rw [hsplit, List.append_assoc, List.cons_append]
  · rintro ⟨hseen, hlast⟩ first before last hsplit
    rcases List.eq_nil_or_concat last with rfl | ⟨rest, final, rfl⟩
    · obtain ⟨rfl, hevent⟩ := List.append_inj' hsplit rfl
      obtain rfl := List.cons.inj hevent |>.1
      exact hlast
    · rw [List.concat_eq_append, ← List.cons_append, ← List.append_assoc] at hsplit
      exact hseen first before rest (List.append_inj' hsplit rfl).1

end MiniRtc.Trace
