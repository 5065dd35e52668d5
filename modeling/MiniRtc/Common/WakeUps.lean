import MiniRtc.Common.TaskQueue
import Mathlib.Algebra.BigOperators.Fin
import Mathlib.Algebra.Order.BigOperators.Group.Finset

/-!
# No wake-up is lost

`PostDelayedTaskAt` only notifies when the new item is the first one, and it notifies one worker. That
is enough: while there are tasks, a worker is awake, or one sleeps until the first of them is due at
the latest, or a thread is about to notify. `Stop` notifies all workers. After it no worker sleeps
without an end, each of them takes only so many steps, and when nothing can move any more they have
all returned, so that the thread that stops the queue goes on.
-/

namespace MiniRtc

namespace Worker

variable {Task : Type*}

/-- A worker that has something to do. -/
def awake : Worker Task → Bool
  | .entering | .woken | .running _ => true
  | .waiting | .waitingUntil _ | .exited => false

theorem awake_of_not_asleep {worker : Worker Task} (h : worker.asleep = false)
    (hexited : worker ≠ .exited) : worker.awake = true := by
  cases worker with
  | entering | woken | running => rfl
  | waiting | waitingUntil => cases h
  | exited => exact absurd rfl hexited

theorem awake_wake {worker : Worker Task} (hexited : worker ≠ .exited) :
    worker.wake.awake = true := by
  cases worker with
  | entering | woken | running | waiting | waitingUntil => rfl
  | exited => exact absurd rfl hexited

theorem awake_start (task : Option Task) : (Worker.start task).awake = true := by
  cases task with
  | none => rfl
  | some task => rfl

theorem ne_exited_of_awake {worker : Worker Task} (h : worker.awake = true) :
    worker ≠ .exited := by
  rintro rfl
  cases h

theorem ne_waiting_of_awake {worker : Worker Task} (h : worker.awake = true) :
    worker ≠ .waiting := by
  rintro rfl
  cases h

theorem ne_exited_of_asleep {worker : Worker Task} (h : worker.asleep = true) :
    worker ≠ .exited := by
  rintro rfl
  cases h

theorem wake_ne_waiting (worker : Worker Task) : worker.wake ≠ .waiting := by
  cases worker with
  | entering | woken | running | waiting | waitingUntil | exited =>
      intro h
      cases h

theorem wake_ne_exited {worker : Worker Task} (h : worker ≠ .exited) : worker.wake ≠ .exited := by
  cases worker with
  | entering | woken | running | waiting | waitingUntil =>
      intro h
      cases h
  | exited => exact absurd rfl h

end Worker

/-- A thread that is about to notify. -/
def Caller.notifying {Task : Type*} : Caller Task → Bool
  | .notifyingOne | .notifyingAll _ => true
  | .idle | .posting _ _ _ | .clearing | .stopping | .joining => false

/-- A thread that is about to notify all workers. -/
def Caller.notifyingEach {Task : Type*} : Caller Task → Bool
  | .notifyingAll _ => true
  | .idle | .posting _ _ _ | .clearing | .stopping | .notifyingOne | .joining => false

namespace TaskSystem

variable {n : ℕ} {C Task : Type*} [DecidableEq C] {s s' : TaskSystem n C Task}
  {seen : List (TaskEvent C Task)} {a : TaskAction n C Task}

/-- The first item is watched: a worker is awake or wakes up in time, or a thread notifies. -/
def Watched (s : TaskSystem n C Task) (top : TaskItem Task) : Prop :=
  (∃ w, (s.worker w).awake = true) ∨
    (∃ w executeTime, s.worker w = .waitingUntil executeTime ∧ executeTime ≤ top.executeTime) ∨
    ∃ c, (s.caller c).notifying = true

/-- What is kept of the workers that sleep. -/
structure WakeUps (s : TaskSystem n C Task) : Prop where
  watched : s.queue.stop = false → ∀ top rest, s.queue.taskQueue = top :: rest → s.Watched top
  released : s.queue.stop = true →
    (∃ c, (s.caller c).notifyingEach = true) ∨ ∀ w, s.worker w ≠ .waiting
  alive : s.queue.stop = false → ∀ w, s.worker w ≠ .exited

/-! ## Threads that go on -/

/-- A thread that did not have the property is not the one that has it. -/
theorem caller_kept {p : Caller Task → Bool} {c : C} {next : Caller Task}
    (hcaller : p (s.caller c) = false) (h : ∃ d, p (s.caller d) = true) :
    ∃ d, p ((s.setCaller c next).caller d) = true := by
  obtain ⟨d, hd⟩ := h
  refine ⟨d, ?_⟩
  have hne : d ≠ c := by
    rintro rfl
    rw [hcaller] at hd
    cases hd
  rw [caller_other hne]
  exact hd

/-- Nothing is watched less when only a thread goes on that was not about to notify. -/
theorem Watched.caller {top : TaskItem Task} (h : s.Watched top) {c : C} {next : Caller Task}
    (hcaller : (s.caller c).notifying = false) : (s.setCaller c next).Watched top := by
  rcases h with hawake | htimed | hnotifies
  · exact Or.inl hawake
  · exact Or.inr (Or.inl htimed)
  · exact Or.inr (Or.inr (caller_kept hcaller hnotifies))

omit [DecidableEq C] in
/-- A later first item is watched as well. -/
theorem Watched.later {top other : TaskItem Task} (h : s.Watched top)
    (hle : top.executeTime ≤ other.executeTime) : s.Watched other := by
  rcases h with hawake | ⟨w, executeTime, hworker, hbound⟩ | hnotifies
  · exact Or.inl hawake
  · exact Or.inr (Or.inl ⟨w, executeTime, hworker, by omega⟩)
  · exact Or.inr (Or.inr hnotifies)

omit [DecidableEq C] in
/-- A worker that is awake watches. -/
theorem watched_awake {top : TaskItem Task} {w : Fin n} {next : Worker Task}
    (hawake : next.awake = true) : (s.setWorker w next).Watched top := by
  refine Or.inl ⟨w, ?_⟩
  rw [worker_self]
  exact hawake

omit [DecidableEq C] in
/-- What holds of all workers holds when one goes on for which it holds. -/
theorem workers_kept (p : Worker Task → Prop) {w : Fin n} {next : Worker Task}
    (h : ∀ v, p (s.worker v)) (hnext : p next) (v : Fin n) : p ((s.setWorker w next).worker v) := by
  by_cases hv : v = w
  · subst hv
    rw [worker_self]
    exact hnext
  · rw [worker_other hv]
    exact h v

/-! ## One step -/

/-- When it does not notify, the new item does not become due before the first one. -/
theorem top_emplace {q : TaskQueue Task} {executeTime : ℤ} {task : Option Task}
    (hquiet : q.notifies executeTime = false) {top : TaskItem Task} {rest : List (TaskItem Task)}
    (hqueue : (q.emplace executeTime task).taskQueue = top :: rest) :
    ∃ first later, q.taskQueue = first :: later ∧ first.executeTime ≤ top.executeTime := by
  unfold TaskQueue.notifies at hquiet
  cases hold : q.taskQueue with
  | nil =>
      rw [hold] at hquiet
      cases hquiet
  | cons first later =>
      rw [hold] at hquiet
      have hlate : first.executeTime ≤ executeTime := not_lt.mp (of_decide_eq_false hquiet)
      refine ⟨first, later, rfl, ?_⟩
      have hinsert : (q.emplace executeTime task).taskQueue =
          (first :: later).orderedInsert TaskItem.Before (q.makeItem executeTime task) := by
        rw [← hold]
        rfl
      rw [hqueue, List.orderedInsert_cons] at hinsert
      split_ifs at hinsert
      · rw [(List.cons.inj hinsert).1]
        exact hlate
      · rw [(List.cons.inj hinsert).1]

/-- A step keeps the first item watched. -/
theorem watched_step (hn : 0 < n) (h : s.WakeUps) (hstep : Stepped s a s' seen)
    (hrunning : s'.queue.stop = false) {top : TaskItem Task} {rest : List (TaskItem Task)}
    (hqueue : s'.queue.taskQueue = top :: rest) : s'.Watched top := by
  cases hstep with
  | tick elapsed => exact h.watched hrunning top rest hqueue
  | requested request hcaller =>
      exact (h.watched hrunning top rest hqueue).caller (by rw [hcaller]; rfl)
  | refused hcaller hstop => exact absurd (hstop.symm.trans hrunning) (by decide)
  | @posted c delay executeTime task hcaller hstop =>
      cases hnotifies : s.queue.notifies executeTime with
      | true =>
          refine Or.inr (Or.inr ⟨c, ?_⟩)
          rw [caller_self]
          rfl
      | false =>
          obtain ⟨first, later, hold, hle⟩ := top_emplace hnotifies hqueue
          have hwatched : Watched { s with queue := s.queue.emplace executeTime task } first :=
            h.watched hstop first later hold
          exact (hwatched.later hle).caller (by
            show (s.caller c).notifying = false
            rw [hcaller]
            rfl)
  | cleared hcaller => cases hqueue
  | stopped hcaller => cases hrunning
  | notified hcaller hasleep =>
      exact watched_awake (Worker.awake_wake (Worker.ne_exited_of_asleep hasleep))
  | unnoticed hcaller hawake =>
      -- No worker sleeps, and there is one.
      exact Or.inl ⟨⟨0, hn⟩, Worker.awake_of_not_asleep (hawake _) (h.alive hrunning _)⟩
  | notifiedAll hcaller => exact Or.inl ⟨⟨0, hn⟩, Worker.awake_wake (h.alive hrunning _)⟩
  | joined hcaller hexited =>
      exact (h.watched hrunning top rest hqueue).caller (by rw [hcaller]; rfl)
  | waits hworker hstop hempty => exact absurd (hempty.symm.trans hqueue) (by intro h; cases h)
  | leaves hworker hstop => exact absurd (hstop.symm.trans hrunning) (by decide)
  | findsNothing hworker hstop hempty => exact watched_awake rfl
  | @waitsUntil w first later hworker hold =>
      obtain ⟨rfl, -⟩ := List.cons.inj (hold.symm.trans hqueue)
      exact Or.inr (Or.inl ⟨w, first.executeTime, worker_self, le_refl _⟩)
  | takes hworker hold hdue => exact watched_awake (Worker.awake_start _)
  | finished hworker => exact watched_awake rfl
  | timeout hworker hlate => exact watched_awake rfl
  | spurious hasleep =>
      exact watched_awake (Worker.awake_wake (Worker.ne_exited_of_asleep hasleep))

/-- After `Stop` no worker sleeps without an end, or all are about to be notified. -/
theorem released_step (h : s.WakeUps) (hstep : Stepped s a s' seen)
    (hstop' : s'.queue.stop = true) :
    (∃ c, (s'.caller c).notifyingEach = true) ∨ ∀ w, s'.worker w ≠ .waiting := by
  have hcaller : ∀ {c : C} {next : Caller Task} (_ : s.queue.stop = true),
      (s.caller c).notifyingEach = false →
      (∃ d, ((s.setCaller c next).caller d).notifyingEach = true) ∨
        ∀ w, s.worker w ≠ .waiting := by
    intro c next hstop hquiet
    rcases h.released hstop with hnotifies | hawake
    · exact Or.inl (caller_kept hquiet hnotifies)
    · exact Or.inr hawake
  have hworker : ∀ {w : Fin n} {next : Worker Task} (_ : s.queue.stop = true),
      next ≠ .waiting → (∃ d, (s.caller d).notifyingEach = true) ∨
        ∀ v, (s.setWorker w next).worker v ≠ .waiting := by
    intro w next hstop hnext
    rcases h.released hstop with hnotifies | hawake
    · exact Or.inl hnotifies
    · exact Or.inr (workers_kept (· ≠ .waiting) hawake hnext)
  cases hstep with
  | tick elapsed => exact h.released hstop'
  | requested request hidle => exact hcaller hstop' (by rw [hidle]; rfl)
  | refused hposting hstop => exact hcaller hstop (by rw [hposting]; rfl)
  | posted hposting hstop => exact absurd (hstop'.symm.trans hstop) (by decide)
  | cleared hclearing => exact Or.inl ⟨_, by rw [caller_self]; rfl⟩
  | stopped hstopping => exact Or.inl ⟨_, by rw [caller_self]; rfl⟩
  | @notified c w hnotifying hasleep =>
      rcases @hcaller c .idle hstop' (by rw [hnotifying]; rfl) with hnotifies | hawake
      · exact Or.inl hnotifies
      · exact Or.inr (workers_kept (· ≠ .waiting) hawake (Worker.wake_ne_waiting _))
  | unnoticed hnotifying hawake => exact hcaller hstop' (by rw [hnotifying]; rfl)
  | notifiedAll hnotifying => exact Or.inr fun w => Worker.wake_ne_waiting _
  | joined hjoining hexited => exact hcaller hstop' (by rw [hjoining]; rfl)
  | waits hentering hstop hempty => exact absurd (hstop'.symm.trans hstop) (by decide)
  | leaves hentering hstop => exact hworker hstop (by intro h; cases h)
  | findsNothing hwoken hstop hempty =>
      exact absurd (hstop'.symm.trans hstop) (by decide)
  | waitsUntil hentering hqueue => exact hworker hstop' (by intro h; cases h)
  | takes hentering hqueue hdue =>
      exact hworker hstop' (Worker.ne_waiting_of_awake (Worker.awake_start _))
  | finished hrunning => exact hworker hstop' (by intro h; cases h)
  | timeout htimed hlate => exact hworker hstop' (by intro h; cases h)
  | spurious hasleep => exact hworker hstop' (Worker.wake_ne_waiting _)

/-- Before `Stop` no worker has returned. -/
theorem alive_step (h : s.WakeUps) (hstep : Stepped s a s' seen)
    (hrunning : s'.queue.stop = false) (v : Fin n) : s'.worker v ≠ .exited := by
  cases hstep with
  | tick | requested | refused | posted | cleared | unnoticed | joined => exact h.alive hrunning v
  | stopped hstopping => cases hrunning
  | notified hnotifying hasleep =>
      exact workers_kept (· ≠ .exited) (h.alive hrunning)
        (Worker.wake_ne_exited (Worker.ne_exited_of_asleep hasleep)) v
  | notifiedAll hnotifying => exact Worker.wake_ne_exited (h.alive hrunning v)
  | leaves hentering hstop => exact absurd (hstop.symm.trans hrunning) (by decide)
  | waits | findsNothing | waitsUntil | finished | timeout =>
      exact workers_kept (· ≠ .exited) (h.alive hrunning) (by intro h; cases h) v
  | takes hentering hqueue hdue =>
      exact workers_kept (· ≠ .exited) (h.alive hrunning) (Worker.ne_exited_of_awake (Worker.awake_start _)) v
  | spurious hasleep =>
      exact workers_kept (· ≠ .exited) (h.alive hrunning)
        (Worker.wake_ne_exited (Worker.ne_exited_of_asleep hasleep)) v

theorem WakeUps.step (hn : 0 < n) (h : s.WakeUps) (hstep : Stepped s a s' seen) : s'.WakeUps where
  watched := fun hrunning _ _ => watched_step hn h hstep hrunning
  released := released_step h hstep
  alive := alive_step h hstep

/-! ## Moving on -/

/-- The worker goes on by itself. -/
def Moves (s : TaskSystem n C Task) (w : Fin n) : Prop :=
  (s.step (.workerTurn w)).isSome = true ∨ (s.step (.timeout w)).isSome = true

theorem moves_of_awake {w : Fin n} (h : (s.worker w).awake = true) : s.Moves w := by
  refine Or.inl ?_
  show (Option.map _ (s.queue.workerTurn (C := C) s.now (s.worker w))).isSome = true
  rw [Option.isSome_map]
  cases hworker : s.worker w with
  | entering =>
      unfold TaskQueue.workerTurn
      split_ifs <;> rfl
  | woken =>
      unfold TaskQueue.workerTurn
      split_ifs <;> rfl
  | running task => rfl
  | waiting | waitingUntil | exited =>
      rw [hworker] at h
      cases h

theorem moves_of_timeout {w : Fin n} {executeTime : ℤ} (h : s.worker w = .waitingUntil executeTime)
    (hlate : executeTime ≤ s.now) : s.Moves w := by
  refine Or.inr ?_
  simp only [step, h]
  rw [if_pos hlate]
  rfl

/-! ## Runs -/

omit [DecidableEq C] in
theorem wake_ups_new (now : ℤ) : (new now : TaskSystem n C Task).WakeUps where
  watched := fun _ _ _ h => by cases h
  released := fun h => by cases h
  alive := fun _ _ h => by cases h

theorem wake_ups_run (hn : 0 < n) {now : ℤ} {actions : List (TaskAction n C Task)}
    (h : Trace.run step (new now) actions = some (s, seen)) : s.WakeUps :=
  Trace.run_keeps (fun _ _ _ _ hkept hstep => hkept.step hn (step_cases hstep))
    (wake_ups_new now) h

/-- No wake-up is lost, in whatever order the workers and the other threads go on. While there are
tasks and the queue is not stopped, the first one is watched, and when it is due a worker moves, or a
thread is about to notify. Once it is stopped, no worker sleeps without an end unless it is about to
be notified. -/
theorem no_lost_wake_ups (hn : 0 < n) {now : ℤ} {actions : List (TaskAction n C Task)}
    (h : Trace.run step (new now) actions = some (s, seen)) :
    (s.queue.stop = false → ∀ top rest, s.queue.taskQueue = top :: rest → s.Watched top ∧
      (top.executeTime ≤ s.now → (∃ w, s.Moves w) ∨ ∃ c, (s.caller c).notifying = true)) ∧
    (s.queue.stop = true →
      (∃ c, (s.caller c).notifyingEach = true) ∨ ∀ w, s.worker w ≠ .waiting) := by
  have hkept := wake_ups_run hn h
  refine ⟨fun hrunning top rest hqueue => ?_, hkept.released⟩
  have hwatched := hkept.watched hrunning top rest hqueue
  refine ⟨hwatched, fun hdue => ?_⟩
  rcases hwatched with ⟨w, hawake⟩ | ⟨w, executeTime, htimed, hbound⟩ | hnotifies
  · exact Or.inl ⟨w, moves_of_awake hawake⟩
  · exact Or.inl ⟨w, moves_of_timeout htimed (by omega)⟩
  · exact Or.inr hnotifies

/-- The only worker waits for a task, and sleeps on when the task is due. -/
def sleptTooLong : List (TaskAction 1 Bool ℕ) :=
  [ .request true (.post 5 (some 1)), .callerTurn true, .notifyOne true none,
    .workerTurn (Fin.last 0), .tick 7 ]

theorem slept_too_long_moves :
    ∃ s, Trace.run step (new 0) sleptTooLong = some (s, [.posted true 5 ⟨5, 0, some 1⟩]) ∧
      s.worker (Fin.last 0) = .waitingUntil 5 ∧
      ((∃ w, s.Moves w) ∨ ∃ c, (s.caller c).notifying = true) :=
  ⟨_, rfl, rfl, ((@no_lost_wake_ups 1 Bool ℕ _ _ _ (by decide) 0 sleptTooLong rfl).1 rfl _ _ rfl).2
    (by decide)⟩

end TaskSystem

/-! ## `Stop` -/

/-- What is left to do for a worker when the queue is stopped. -/
def Worker.weight {Task : Type*} : Worker Task → ℕ
  | .exited => 0
  | .woken => 1
  | .waitingUntil _ => 2
  | .entering => 3
  | .waiting | .running _ => 4

theorem Worker.weight_le {Task : Type*} (worker : Worker Task) : worker.weight ≤ 4 := by
  cases worker <;> simp [weight]

theorem Worker.weight_wake {Task : Type*} (worker : Worker Task) :
    worker.wake.weight ≤ worker.weight := by
  cases worker <;> simp [weight, wake]

theorem Worker.weight_asleep {Task : Type*} {worker : Worker Task} (h : worker.asleep = true) :
    worker.wake.weight < worker.weight := by
  cases worker with
  | waiting | waitingUntil => simp [weight, wake]
  | entering | woken | running | exited => cases h

/-- An action of a worker. -/
def TaskAction.ofWorker {n : ℕ} {C Task : Type*} : TaskAction n C Task → Bool
  | .workerTurn _ | .timeout _ | .spuriousWakeUp _ => true
  | .tick _ | .request _ _ | .callerTurn _ | .notifyOne _ _ | .notifyAll _ | .joined _ => false

namespace TaskSystem

variable {n : ℕ} {C Task : Type*} {s s' : TaskSystem n C Task} {seen : List (TaskEvent C Task)}
  {a : TaskAction n C Task}

/-- What is left to do for all workers when the queue is stopped. -/
def weight (s : TaskSystem n C Task) : ℕ :=
  (∑ w, (s.worker w).weight) + 4 * s.queue.taskQueue.length

theorem weight_le (s : TaskSystem n C Task) : s.weight ≤ 4 * n + 4 * s.queue.taskQueue.length := by
  have hworkers : ∑ w, (s.worker w).weight ≤ n * 4 := by
    have hsum := Finset.sum_le_card_nsmul Finset.univ (fun w => (s.worker w).weight) 4
      fun w _ => (s.worker w).weight_le
    simpa using hsum
  unfold weight
  omega

/-- A worker that goes on changes the weight by its own. -/
theorem weight_set_worker (w : Fin n) (next : Worker Task) :
    (s.setWorker w next).weight + (s.worker w).weight = s.weight + next.weight := by
  have hrest : ∑ v ∈ Finset.univ.erase w, ((s.setWorker w next).worker v).weight =
      ∑ v ∈ Finset.univ.erase w, (s.worker v).weight := by
    refine Finset.sum_congr rfl fun v hv => ?_
    rw [worker_other (Finset.ne_of_mem_erase hv)]
  have hold := Finset.add_sum_erase Finset.univ (fun v => (s.worker v).weight) (Finset.mem_univ w)
  have hnew := Finset.add_sum_erase Finset.univ
    (fun v => ((s.setWorker w next).worker v).weight) (Finset.mem_univ w)
  simp only [worker_self] at hnew hold
  rw [hrest] at hnew
  show _ + 4 * s.queue.taskQueue.length + _ = _ + 4 * s.queue.taskQueue.length + _
  omega

variable [DecidableEq C]

/-- The queue stays stopped. -/
theorem stop_kept (hstep : Stepped s a s' seen) (hstop : s.queue.stop = true) :
    s'.queue.stop = true := by
  cases hstep with
  | stopped => rfl
  | tick | requested | refused | posted | cleared | notified | unnoticed | notifiedAll | joined
  | waits | leaves | findsNothing | waitsUntil | takes | finished | timeout | spurious =>
      exact hstop

/-- When the queue is stopped, no step adds weight, and the steps of the workers take some off. -/
theorem weight_step (hstep : Stepped s a s' seen) (hstop : s.queue.stop = true) :
    s'.weight + (if a.ofWorker then 1 else 0) ≤ s.weight := by
  have hworker : ∀ {w : Fin n} {next : Worker Task}, next.weight < (s.worker w).weight →
      (s.setWorker w next).weight + 1 ≤ s.weight := by
    intro w next hless
    have hchange := weight_set_worker (s := s) w next
    omega
  cases hstep with
  | tick | requested | refused | stopped | unnoticed | joined => exact le_refl _
  | posted hposting hrunning => exact absurd (hstop.symm.trans hrunning) (by decide)
  | cleared hclearing =>
      -- The items leave the queue without a worker.
      show (∑ w, (s.worker w).weight) + 4 * 0 ≤ _
      exact Nat.le_add_right _ _
  | @notified c w hnotifying hasleep =>
      have hless := hworker (Worker.weight_asleep hasleep)
      show (s.setWorker w (s.worker w).wake).weight ≤ s.weight
      omega
  | notifiedAll hnotifying =>
      refine Nat.add_le_add_right (Finset.sum_le_sum fun w _ => ?_) _
      exact (s.worker w).weight_wake
  | waits hentering hrunning hempty => exact absurd (hstop.symm.trans hrunning) (by decide)
  | findsNothing hwoken hrunning hempty => exact absurd (hstop.symm.trans hrunning) (by decide)
  | leaves hentering hstop =>
      refine hworker ?_
      rcases hentering with hentering | hwoken
      · rw [hentering]
        exact Nat.zero_lt_succ 2
      · rw [hwoken]
        exact Nat.zero_lt_one
  | waitsUntil hentering hqueue =>
      rcases hentering with hentering | ⟨-, hrunning⟩
      · refine hworker ?_
        rw [hentering]
        exact Nat.lt_succ_self 2
      · exact absurd (hstop.symm.trans hrunning) (by decide)
  | @takes w top rest hentering hqueue hdue =>
      rcases hentering with hentering | ⟨-, hrunning⟩
      · -- The item takes four off, and the worker that runs it has one more to do than before.
        set popped : TaskSystem n C Task :=
          { s with queue := { s.queue with taskQueue := rest } } with hpopped
        have hchange := weight_set_worker (s := popped) w (.start top.task)
        have hstart := (Worker.start top.task).weight_le
        have hshorter : popped.weight + 4 = s.weight := by
          unfold weight
          rw [hqueue, List.length_cons]
          show _ + 4 * rest.length + 4 = _
          rw [Nat.mul_add, ← Nat.add_assoc]
        have hentered : (popped.worker w).weight = 3 := by
          show (s.worker w).weight = 3
          rw [hentering]
          rfl
        show (popped.setWorker w (.start top.task)).weight + 1 ≤ _
        omega
      · exact absurd (hstop.symm.trans hrunning) (by decide)
  | finished hrunning =>
      refine hworker ?_
      rw [hrunning]
      exact Nat.lt_succ_self 3
  | timeout htimed hlate =>
      refine hworker ?_
      rw [htimed]
      exact Nat.lt_succ_self 1
  | spurious hasleep => exact hworker (Worker.weight_asleep hasleep)

/-- After `Stop` has marked the queue, the workers take at most four steps for each worker and each
queued task, whatever the other threads do. And when no worker can move, however long it waits, and
no thread is about to notify all of them, then all workers have returned and `Stop` joins them. -/
theorem stop_completes {now : ℤ} {before actions : List (TaskAction n C Task)}
    {later : List (TaskEvent C Task)} (hbefore : Trace.run step (new now) before = some (s, seen))
    (hstop : s.queue.stop = true) (h : Trace.run step s actions = some (s', later)) :
    actions.countP TaskAction.ofWorker ≤ 4 * n + 4 * s.queue.taskQueue.length ∧
      ((∀ c, (s'.caller c).notifyingEach = false) →
        (∀ w (elapsed : ℕ), ¬ Moves { s' with now := s'.now + elapsed } w) →
        ∀ w, s'.worker w = .exited) := by
  constructor
  · have hbound := Trace.run_bound (I := fun s => s.queue.stop = true) weight
      TaskAction.ofWorker (fun _ _ _ _ hs hstep => stop_kept (step_cases hstep) hs)
      (fun _ _ _ _ hs hstep => weight_step (step_cases hstep) hs) hstop h
    have hweight := s.weight_le
    omega
  · intro hquiet hstuck w
    have hstopped : s'.queue.stop = true :=
      Trace.run_keeps (I := fun s => s.queue.stop = true)
        (fun _ _ _ _ hs hstep => stop_kept (step_cases hstep) hs) hstop h
    have hkept : s'.WakeUps :=
      Trace.run_keeps (fun _ _ _ _ hs hstep => hs.step w.pos (step_cases hstep))
        (wake_ups_run w.pos hbefore) h
    have hawake : ∀ w, s'.worker w ≠ .waiting := by
      rcases hkept.released hstopped with ⟨c, hc⟩ | hawake
      · exact absurd (hc.symm.trans (hquiet c)) (by decide)
      · exact hawake
    by_contra hworker
    cases hcase : s'.worker w with
    | waiting => exact hawake w hcase
    | exited => exact hworker hcase
    | waitingUntil executeTime =>
        refine hstuck w (executeTime - s'.now).toNat (moves_of_timeout hcase ?_)
        show executeTime ≤ s'.now + ((executeTime - s'.now).toNat : ℤ)
        omega
    | entering | woken | running =>
        refine hstuck w 0 (moves_of_awake ?_)
        show (s'.worker w).awake = true
        rw [hcase]
        rfl

/-- A thread stops the queue while the only worker waits for a task. -/
def stopWhileWaiting : List (TaskAction 1 Bool ℕ) :=
  [ .request true (.post 5 (some 1)), .callerTurn true, .notifyOne true none,
    .workerTurn (Fin.last 0), .request false .stop, .callerTurn false ]

/-- What is left to do until the worker is joined. -/
def joinWorker : List (TaskAction 1 Bool ℕ) :=
  [.notifyAll false, .workerTurn (Fin.last 0), .joined false]

theorem worker_joined :
    ∃ s s', Trace.run step (new 0) stopWhileWaiting = some (s, [.posted true 5 ⟨5, 0, some 1⟩]) ∧
      Trace.run step s joinWorker = some (s', []) ∧
      joinWorker.countP TaskAction.ofWorker ≤ 4 * 1 + 4 * s.queue.taskQueue.length :=
  ⟨_, _, rfl, rfl, (@stop_completes 1 Bool ℕ _ _ _ _ 0 stopWhileWaiting joinWorker _ rfl rfl rfl).1⟩

end TaskSystem

end MiniRtc
