import Mathlib.Data.List.Basic
import Mathlib.Logic.Function.Basic

/-!
# Threads over a shared state

A thread is the list of the operations that it has still to perform. An operation is atomic: it
changes the shared state, and it may put further operations in front of the rest of its thread. A
run performs the first operations of the threads in any order, and it gives new operations to
threads that are idle. `next` is the common form of both steps.

`Everywhere p` says that all threads hold operations with `p` only. `Closing` describes operations
that end what their thread is doing: a thread has nothing behind one of them. `Pending` and
`Exclusive` follow an operation that at most one thread may hold.
-/

namespace MiniRtc.Threads

variable {T σ Op : Type*}

/-- The shared state, and what the threads have still to do. -/
structure System (T σ Op : Type*) where
  shared : σ
  todo : T → List Op

namespace System

/-- The rest of a thread is the end of what it has to do. -/
theorem rest_suffix {s : System T σ Op} {t : T} {op : Op} {rest : List Op}
    (h : s.todo t = op :: rest) : rest <:+ s.todo t := by
  rw [h]
  exact List.suffix_cons op rest

/-! ## Steps -/

section Steps

variable [DecidableEq T] {exec : σ → Op → σ × List Op} {s : System T σ Op} {t u : T} {op : Op}
  {shared : σ} {made rest : List Op}

/-- A thread goes on with some new operations and the rest of its own. -/
def next (s : System T σ Op) (t : T) (shared : σ) (made rest : List Op) : System T σ Op where
  shared := shared
  todo := Function.update s.todo t (made ++ rest)

/-- A thread performs its first operation. -/
def perform (exec : σ → Op → σ × List Op) (s : System T σ Op) (t : T) : System T σ Op :=
  match s.todo t with
  | [] => s
  | op :: rest => s.next t (exec s.shared op).1 (exec s.shared op).2 rest

/-- A thread without operations gets some. -/
def start (s : System T σ Op) (t : T) (shared : σ) (program : List Op) : System T σ Op :=
  s.next t shared program []

theorem perform_cons (h : s.todo t = op :: rest) :
    s.perform exec t = s.next t (exec s.shared op).1 (exec s.shared op).2 rest := by
  unfold perform
  rw [h]

theorem perform_idle (h : s.todo t = []) : s.perform exec t = s := by
  unfold perform
  rw [h]

@[simp] theorem shared_next : (s.next t shared made rest).shared = shared := rfl

@[simp] theorem todo_next_self : (s.next t shared made rest).todo t = made ++ rest :=
  Function.update_self _ _ _

theorem todo_next_other (hne : u ≠ t) : (s.next t shared made rest).todo u = s.todo u :=
  Function.update_of_ne hne _ _

/-- What is to be done after a step was to be done before, or it is new. -/
theorem mem_todo_next {new : Op} (hrest : rest <:+ s.todo t)
    (hnew : new ∈ (s.next t shared made rest).todo u) :
    new ∈ s.todo u ∨ (u = t ∧ new ∈ made) := by
  by_cases hut : u = t
  · subst hut
    rw [todo_next_self] at hnew
    rcases List.mem_append.mp hnew with hmade | hold
    · exact Or.inr ⟨rfl, hmade⟩
    · exact Or.inl (hrest.subset hold)
  · rw [todo_next_other hut] at hnew
    exact Or.inl hnew

/-- What was to be done is still to be done, but for the first operation of the thread. -/
theorem mem_todo_kept {old : Op} (h : s.todo t = op :: rest) (hne : old ≠ op)
    (hold : old ∈ s.todo u) : old ∈ (s.next t shared made rest).todo u := by
  by_cases hut : u = t
  · subst hut
    rw [todo_next_self]
    rw [h] at hold
    rcases List.mem_cons.mp hold with hsame | hin
    · exact absurd hsame hne
    · exact List.mem_append_right _ hin
  · rw [todo_next_other hut]
    exact hold

theorem mem_todo_made {new : Op} (hnew : new ∈ made) :
    new ∈ (s.next t shared made rest).todo t := by
  rw [todo_next_self]
  exact List.mem_append_left _ hnew

end Steps

/-! ## Operations that a thread may hold -/

section Everywhere

variable [DecidableEq T] {s : System T σ Op} {t : T} {shared : σ} {made rest : List Op}
  {p : T → Op → Prop}

/-- All operations of all threads satisfy the condition on the thread and the operation. -/
def Everywhere (p : T → Op → Prop) (s : System T σ Op) : Prop :=
  ∀ t, ∀ op ∈ s.todo t, p t op

theorem Everywhere.next (hs : s.Everywhere p) (hrest : rest <:+ s.todo t)
    (hmade : ∀ op ∈ made, p t op) : (s.next t shared made rest).Everywhere p := by
  intro u op hop
  rcases mem_todo_next hrest hop with hold | ⟨rfl, hin⟩
  · exact hs u op hold
  · exact hmade op hin

end Everywhere

/-! ## Operations at the end -/

section Closing

variable [DecidableEq T] {s : System T σ Op} {t : T} {op : Op} {shared : σ}
  {made rest first second : List Op} {p : Op → Prop}

/-- Operations with `p` stand at the end of the list only. -/
def Closing (p : Op → Prop) : List Op → Prop
  | [] => True
  | op :: rest => (p op → rest = []) ∧ Closing p rest

theorem Closing.append (hfirst : ∀ op ∈ first, ¬ p op) (hsecond : Closing p second) :
    Closing p (first ++ second) := by
  induction first with
  | nil => exact hsecond
  | cons op first ih =>
      exact ⟨fun hop => absurd hop (hfirst op List.mem_cons_self),
        ih fun op hin => hfirst op (List.mem_cons_of_mem _ hin)⟩

/-- A thread stays closed, when it goes on behind nothing that closes it. -/
theorem closing_next (hs : ∀ t, Closing p (s.todo t)) (hmade : Closing p (made ++ rest)) (u : T) :
    Closing p ((s.next t shared made rest).todo u) := by
  by_cases hut : u = t
  · subst hut
    rw [todo_next_self]
    exact hmade
  · rw [todo_next_other hut]
    exact hs u

end Closing

/-! ## Operations that one thread may hold -/

section Exclusive

variable {s : System T σ Op} {t : T} {op : Op} {shared : σ} {made rest : List Op} {p : Op → Prop}

/-- Some thread holds an operation with `p`. -/
def Pending (p : Op → Prop) (s : System T σ Op) : Prop :=
  ∃ t, ∃ op ∈ s.todo t, p op

/-- At most one operation with `p` is held. -/
structure Exclusive (p : Op → Prop) [DecidablePred p] (s : System T σ Op) : Prop where
  once : ∀ t, (s.todo t).countP (fun op => p op) ≤ 1
  single : ∀ t u, (∃ op ∈ s.todo t, p op) → (∃ op ∈ s.todo u, p op) → t = u

/-- What is not pending is held at most once. -/
theorem exclusive_of_not_pending [DecidablePred p] (hs : ¬ s.Pending p) : s.Exclusive p where
  once := fun t => by
    have hzero : (s.todo t).countP (fun op => p op) = 0 :=
      List.countP_eq_zero.mpr fun op hin hp => hs ⟨t, op, hin, by simpa using hp⟩
    omega
  single := fun t _ ht _ => by
    obtain ⟨op, hin, hp⟩ := ht
    exact absurd ⟨t, op, hin, hp⟩ hs

variable [DecidableEq T]

/-- Nothing with `p` is pending as long as none is made. -/
theorem not_pending_next (hs : ¬ s.Pending p) (hrest : rest <:+ s.todo t)
    (hmade : ∀ new ∈ made, ¬ p new) : ¬ (s.next t shared made rest).Pending p := by
  rintro ⟨u, new, hnew, hp⟩
  rcases mem_todo_next hrest hnew with hold | ⟨rfl, hin⟩
  · exact hs ⟨u, new, hold, hp⟩
  · exact hmade new hin hp

variable [DecidablePred p]

/-- An operation with `p` that is performed was the only one. -/
theorem Exclusive.spent (hs : s.Exclusive p) (h : s.todo t = op :: rest) (hop : p op)
    (hmade : ∀ new ∈ made, ¬ p new) : ¬ (s.next t shared made rest).Pending p := by
  rintro ⟨u, new, hnew, hp⟩
  have hhead : ∃ op ∈ s.todo t, p op := ⟨op, by rw [h]; exact List.mem_cons_self, hop⟩
  rcases mem_todo_next (rest_suffix h) hnew with hold | ⟨rfl, hin⟩
  · have hut : u = t := hs.single u t ⟨new, hold, hp⟩ hhead
    subst hut
    rw [todo_next_self] at hnew
    rcases List.mem_append.mp hnew with hin | hlater
    · exact hmade new hin hp
    · have honce := hs.once u
      rw [h, List.countP_cons_of_pos (by simpa using hop)] at honce
      have hmore : 0 < rest.countP (fun op => p op) :=
        List.countP_pos_iff.mpr ⟨new, hlater, by simpa using hp⟩
      omega
  · exact hmade new hin hp

/-- The operation stays exclusive as long as none is made. -/
theorem Exclusive.next (hs : s.Exclusive p) (hrest : rest <:+ s.todo t)
    (hmade : ∀ new ∈ made, ¬ p new) : (s.next t shared made rest).Exclusive p where
  once := fun u => by
    by_cases hut : u = t
    · subst hut
      have hzero : made.countP (fun op => p op) = 0 :=
        List.countP_eq_zero.mpr fun new hin hp => hmade new hin (by simpa using hp)
      rw [todo_next_self, List.countP_append, hzero, Nat.zero_add]
      exact Nat.le_trans hrest.sublist.countP_le (hs.once u)
    · rw [todo_next_other hut]
      exact hs.once u
  single := fun u v hu hv => by
    have hback : ∀ {u}, (∃ new ∈ (s.next t shared made rest).todo u, p new) →
        ∃ new ∈ s.todo u, p new := by
      rintro u ⟨new, hnew, hp⟩
      rcases mem_todo_next hrest hnew with hold | ⟨rfl, hin⟩
      · exact ⟨new, hold, hp⟩
      · exact absurd hp (hmade new hin)
    exact hs.single u v (hback hu) (hback hv)

/-- An operation that is made once, when none was pending, is exclusive. -/
theorem exclusive_of_made (hs : ¬ s.Pending p) (hrest : rest <:+ s.todo t)
    (hmade : made.countP (fun op => p op) ≤ 1) : (s.next t shared made rest).Exclusive p where
  once := fun u => by
    by_cases hut : u = t
    · subst hut
      have hzero : rest.countP (fun op => p op) = 0 :=
        List.countP_eq_zero.mpr fun old hin hp =>
          hs ⟨u, old, hrest.subset hin, by simpa using hp⟩
      rw [todo_next_self, List.countP_append, hzero]
      exact hmade
    · rw [todo_next_other hut]
      exact (exclusive_of_not_pending hs).once u
  single := fun u v hu hv => by
    have hthread : ∀ {u}, (∃ new ∈ (s.next t shared made rest).todo u, p new) → u = t := by
      rintro u ⟨new, hnew, hp⟩
      rcases mem_todo_next hrest hnew with hold | ⟨rfl, -⟩
      · exact absurd ⟨u, new, hold, hp⟩ hs
      · rfl
    rw [hthread hu, hthread hv]

end Exclusive

end System

end MiniRtc.Threads
