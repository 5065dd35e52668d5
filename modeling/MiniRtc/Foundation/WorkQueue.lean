import MiniRtc.Foundation.Threads
import Mathlib.Data.List.Count

/-!
# Work that is never queued twice

Some operations of the threads belong to one piece of work, and some tasks of a queue stand for the
same work: a thread is about to put the task into the queue, the task is queued, or a worker is
performing it. `Single` says that the work is in one place at most, and `Present` that it is
somewhere. Both are kept by any step that counts the same before and after: what the thread of the
step holds together with what is queued.
-/

namespace MiniRtc.Threads.System

variable {T σ Op Task : Type*} (p : Op → Prop) [DecidablePred p] (q : Task → Prop)
  [DecidablePred q]

/-- The number of operations with `p` that a thread holds. -/
def held (s : System T σ Op) (t : T) : Nat :=
  (s.todo t).countP fun op => p op

/-- The number of tasks with `q` in a queue. -/
def queued (tasks : List Task) : Nat :=
  tasks.countP fun task => q task

/-- One thread holds the work, or it is queued once, or neither. -/
structure Single (s : System T σ Op) (tasks : List Task) : Prop where
  once : ∀ t, s.held p t + queued q tasks ≤ 1
  single : ∀ t u, 0 < s.held p t → 0 < s.held p u → t = u

/-- A thread holds the work, or it is queued. -/
def Present (s : System T σ Op) (tasks : List Task) : Prop :=
  (∃ t, 0 < s.held p t) ∨ 0 < queued q tasks

variable {p q} {s : System T σ Op} {t u : T} {op : Op} {tasks later : List Task} {task : Task}
  {shared : σ} {made rest : List Op}

theorem held_pos_iff : 0 < s.held p t ↔ ∃ op ∈ s.todo t, p op := by
  simp [held, List.countP_pos_iff]

theorem queued_pos_iff : 0 < queued q tasks ↔ ∃ task ∈ tasks, q task := by
  simp [queued, List.countP_pos_iff]

@[simp] theorem queued_nil : queued q ([] : List Task) = 0 := rfl

@[simp] theorem queued_append :
    queued q (tasks ++ later) = queued q tasks + queued q later :=
  List.countP_append

@[simp] theorem queued_singleton : queued q [task] = if q task then 1 else 0 := by
  simp [queued, List.countP_singleton]

/-- A thread without operations holds nothing. -/
theorem held_idle (h : s.todo t = []) : s.held p t = 0 := by
  simp [held, h]

/-- What a thread holds is its first operation and the rest. -/
theorem held_cons (h : s.todo t = op :: rest) :
    s.held p t = (if p op then 1 else 0) + rest.countP fun op => p op := by
  unfold held
  rw [h]
  split_ifs with hop
  · rw [List.countP_cons_of_pos (by simpa using hop), Nat.add_comm]
  · rw [List.countP_cons_of_neg (by simpa using hop), Nat.zero_add]

/-- A task that is taken out of a queue is no longer counted. -/
theorem queued_erase_idx {i : Nat} (h : tasks[i]? = some task) :
    queued q (tasks.eraseIdx i) + (if q task then 1 else 0) = queued q tasks := by
  induction tasks generalizing i with
  | nil => simp at h
  | cons first rest ih =>
      cases i with
      | zero =>
          obtain rfl : first = task := by simpa using h
          by_cases hq : q first <;> simp [queued, hq]
      | succ i =>
          have hrest := ih (by simpa using h)
          rw [List.eraseIdx_cons_succ]
          by_cases hq : q first
          · simp only [queued, List.countP_cons, hq, decide_true, if_true] at hrest ⊢
            omega
          · simp only [queued, List.countP_cons, hq, decide_false, Bool.false_eq_true, if_false]
              at hrest ⊢
            omega

/-- Work that is queued once is queued at one place. -/
theorem queued_place {i j : Nat} {other : Task} (h : queued q tasks ≤ 1)
    (hi : tasks[i]? = some task) (hj : tasks[j]? = some other) (htask : q task)
    (hother : q other) : i = j := by
  by_contra hne
  have herased := queued_erase_idx (q := q) hi
  rw [if_pos htask] at herased
  have hin : other ∈ tasks.eraseIdx i := by
    rw [List.mem_eraseIdx_iff_getElem?]
    exact ⟨j, Ne.symm hne, hj⟩
  have hpos : 0 < queued q (tasks.eraseIdx i) := queued_pos_iff.mpr ⟨other, hin, hother⟩
  omega

/-- The place of the work depends on what the threads hold and on what is queued. -/
theorem Single.congr {s' : System T σ Op} (hs : s.Single p q tasks) (htodo : s'.todo = s.todo)
    (hqueued : queued q later = queued q tasks) : s'.Single p q later where
  once := fun t => by
    rw [held, htodo, hqueued]
    exact hs.once t
  single := fun t u ht hu => by
    rw [held, htodo] at ht hu
    exact hs.single t u ht hu

theorem present_congr {s' : System T σ Op} (htodo : s'.todo = s.todo)
    (hqueued : queued q later = queued q tasks) :
    s'.Present p q later ↔ s.Present p q tasks := by
  simp only [Present, held, htodo, hqueued]

/-! ## Places -/

/-- A place of the work: the queue or a thread. -/
inductive Place (T : Type*) where
  | queued (index : Nat)
  | held (t : T)

variable (p q) in
/-- The work is at the place. -/
def At (s : System T σ Op) (tasks : List Task) : Place T → Prop
  | .queued index => ∃ task, tasks[index]? = some task ∧ q task
  | .held t => ∃ op ∈ s.todo t, p op

/-- Work that is present is at some place. -/
theorem present_iff_at : s.Present p q tasks ↔ ∃ place, s.At p q tasks place := by
  constructor
  · rintro (⟨t, ht⟩ | hqueued)
    · exact ⟨.held t, held_pos_iff.mp ht⟩
    · obtain ⟨task, htask, hq⟩ := queued_pos_iff.mp hqueued
      obtain ⟨index, hindex⟩ := List.mem_iff_getElem?.mp htask
      exact ⟨.queued index, task, hindex, hq⟩
  · rintro ⟨place, hplace⟩
    cases place with
    | queued index =>
        obtain ⟨task, hindex, hq⟩ := hplace
        exact Or.inr (queued_pos_iff.mpr ⟨task, List.mem_of_getElem? hindex, hq⟩)
    | held t => exact Or.inl ⟨t, held_pos_iff.mpr hplace⟩

/-- Work in one place at most has one place. -/
theorem Single.place_unique [Nonempty T] (hs : s.Single p q tasks) {first second : Place T}
    (hfirst : s.At p q tasks first) (hsecond : s.At p q tasks second) : first = second := by
  have hqueue : ∀ {index : Nat} {t : T}, s.At p q tasks (.queued index) →
      s.At p q tasks (.held t) → False := by
    rintro index t ⟨task, hindex, hq⟩ hheld
    have honce := hs.once t
    have hpos := held_pos_iff.mpr hheld
    have hqueued : 0 < queued q tasks :=
      queued_pos_iff.mpr ⟨task, List.mem_of_getElem? hindex, hq⟩
    omega
  cases first with
  | queued i =>
      cases second with
      | queued j =>
          obtain ⟨task, hi, htask⟩ := hfirst
          obtain ⟨other, hj, hother⟩ := hsecond
          have honce := hs.once (Classical.arbitrary T)
          rw [queued_place (by omega) hi hj htask hother]
      | held t => exact (hqueue hfirst hsecond).elim
  | held t =>
      cases second with
      | queued j => exact (hqueue hsecond hfirst).elim
      | held u => rw [hs.single t u (held_pos_iff.mpr hfirst) (held_pos_iff.mpr hsecond)]

/-- Single work is present when it has exactly one place. -/
theorem Single.present_iff [Nonempty T] (hs : s.Single p q tasks) :
    s.Present p q tasks ↔ ∃! place, s.At p q tasks place := by
  rw [present_iff_at]
  constructor
  · rintro ⟨place, hplace⟩
    exact ⟨place, hplace, fun other hother => hs.place_unique hother hplace⟩
  · rintro ⟨place, hplace, -⟩
    exact ⟨place, hplace⟩

variable [DecidableEq T]

theorem held_next_self :
    (s.next t shared made rest).held p t =
      (made.countP fun op => p op) + rest.countP fun op => p op := by
  rw [held, todo_next_self, List.countP_append]

theorem held_next_other (hne : u ≠ t) : (s.next t shared made rest).held p u = s.held p u := by
  rw [held, todo_next_other hne, held]

/-- The work stays in one place when a step does not make more of it. -/
theorem Single.next (hs : s.Single p q tasks)
    (hcount : (s.next t shared made rest).held p t + queued q later ≤
      s.held p t + queued q tasks) :
    (s.next t shared made rest).Single p q later := by
  -- a thread that holds the work is the one that moves, or the one that held it before
  have hother : ∀ u, u ≠ t → 0 < s.held p u →
      (s.next t shared made rest).held p t = 0 ∧ queued q later = 0 := by
    intro u hne hu
    have ht : s.held p t = 0 := by
      by_contra hheld
      exact hne (hs.single u t hu (by omega))
    have honce := hs.once u
    omega
  constructor
  · intro u
    have honce := hs.once t
    by_cases hut : u = t
    · subst hut
      omega
    · rw [held_next_other hut]
      by_cases hu : 0 < s.held p u
      · have hlast := hother u hut hu
        have hu' := hs.once u
        omega
      · omega
  · intro u v hu hv
    by_cases hut : u = t
    · by_cases hvt : v = t
      · rw [hut, hvt]
      · rw [held_next_other hvt] at hv
        subst hut
        have hlast := hother v hvt hv
        omega
    · rw [held_next_other hut] at hu
      by_cases hvt : v = t
      · subst hvt
        have hlast := hother u hut hu
        omega
      · rw [held_next_other hvt] at hv
        exact hs.single u v hu hv

/-- The thread of a step that held the work holds it afterwards in the operations of the step. -/
theorem Single.mem_made (hs : s.Single p q tasks) (h : s.todo t = op :: rest) (hop : p op)
    {other : Op} (hother : other ∈ (s.next t shared made rest).todo u) (hp : p other) :
    u = t ∧ other ∈ made := by
  have hpos : 0 < s.held p t :=
    held_pos_iff.mpr ⟨op, by rw [h]; exact List.mem_cons_self, hop⟩
  rcases mem_todo_next (rest_suffix h) hother with hold | hmade
  · obtain rfl : u = t := hs.single u t (held_pos_iff.mpr ⟨other, hold, hp⟩) hpos
    rw [todo_next_self, List.mem_append] at hother
    refine ⟨rfl, hother.resolve_right fun hrest => ?_⟩
    -- the rest of the thread would hold the work a second time
    have honce := hs.once u
    have hmore : 0 < rest.countP fun op => p op :=
      List.countP_pos_iff.mpr ⟨other, hrest, by simpa using hp⟩
    rw [held_cons h, if_pos hop] at honce
    omega
  · exact hmade

/-- The work stays present when a step neither makes nor drops any of it. -/
theorem present_next
    (hcount : (s.next t shared made rest).held p t + queued q later =
      s.held p t + queued q tasks) :
    (s.next t shared made rest).Present p q later ↔ s.Present p q tasks := by
  constructor
  · rintro (⟨u, hu⟩ | hqueued)
    · by_cases hut : u = t
      · subst hut
        by_cases hheld : 0 < s.held p u
        · exact Or.inl ⟨u, hheld⟩
        · exact Or.inr (by omega)
      · rw [held_next_other hut] at hu
        exact Or.inl ⟨u, hu⟩
    · by_cases hheld : 0 < s.held p t
      · exact Or.inl ⟨t, hheld⟩
      · exact Or.inr (by omega)
  · rintro (⟨u, hu⟩ | hqueued)
    · by_cases hut : u = t
      · subst hut
        by_cases hheld : 0 < (s.next u shared made rest).held p u
        · exact Or.inl ⟨u, hheld⟩
        · exact Or.inr (by omega)
      · exact Or.inl ⟨u, by rwa [held_next_other hut]⟩
    · by_cases hheld : 0 < (s.next t shared made rest).held p t
      · exact Or.inl ⟨t, hheld⟩
      · exact Or.inr (by omega)

/-- Work that was absent is in one place when a step makes it once. -/
theorem single_of_absent (hs : ¬ s.Present p q tasks)
    (hcount : (s.next t shared made rest).held p t + queued q later ≤ 1) :
    (s.next t shared made rest).Single p q later := by
  have habsent : ∀ u, s.held p u = 0 := fun u => by
    by_contra hheld
    exact hs (Or.inl ⟨u, by omega⟩)
  have hthread : ∀ u, 0 < (s.next t shared made rest).held p u → u = t := by
    intro u hu
    by_contra hut
    rw [held_next_other hut, habsent u] at hu
    omega
  constructor
  · intro u
    by_cases hut : u = t
    · subst hut
      exact hcount
    · rw [held_next_other hut, habsent u]
      omega
  · intro u v hu hv
    rw [hthread u hu, hthread v hv]

/-- Work that was in one place is gone when a step drops it. -/
theorem absent_of_dropped (hs : s.Single p q tasks)
    (hcount : (s.next t shared made rest).held p t + queued q later <
      s.held p t + queued q tasks) :
    ¬ (s.next t shared made rest).Present p q later := by
  have honce := hs.once t
  rintro (⟨u, hu⟩ | hqueued)
  · by_cases hut : u = t
    · subst hut
      omega
    · rw [held_next_other hut] at hu
      -- another thread held the work together with the thread of the step or with the queue
      have honce' := hs.once u
      by_cases hheld : 0 < s.held p t
      · exact hut (hs.single u t hu hheld)
      · omega
  · omega

end MiniRtc.Threads.System
