import MiniRtc.Foundation.Traces
import Mathlib.Algebra.Group.Nat.Defs
import Mathlib.Data.Fintype.Basic
import Mathlib.Data.Fintype.Fin
import Mathlib.Data.List.Sort
import Mathlib.Logic.Function.Basic

/-!
# The task queue

`TaskQueue` keeps tasks with the times at which they may run, and its worker threads take them out.
The queue is under a mutex, and the workers sleep on a condition variable: in `wait` while there is
no task, and in `wait_until` while the first task is not due. A step of the system is one critical
section, a notification, or the time that passes; the threads take their steps in any order, and a
worker may also wake up without a notification.
-/

namespace MiniRtc

/-- `TaskItem`. An item may hold no task. -/
structure TaskItem (Task : Type*) where
  executeTime : ℤ
  sequenceId : ℕ
  task : Option Task
deriving DecidableEq

/-- `TaskItem::operator>`. -/
def TaskItem.After {Task : Type*} (item other : TaskItem Task) : Prop :=
  if item.executeTime ≠ other.executeTime then item.executeTime > other.executeTime
  else item.sequenceId > other.sequenceId

instance TaskItem.decidableAfter {Task : Type*} (item other : TaskItem Task) :
    Decidable (item.After other) := by
  unfold TaskItem.After
  infer_instance

/-- The order of the priority queue. -/
def TaskItem.Before {Task : Type*} (item other : TaskItem Task) : Prop :=
  ¬ item.After other

instance TaskItem.decidableBefore {Task : Type*} (item other : TaskItem Task) :
    Decidable (item.Before other) := by
  unfold TaskItem.Before
  infer_instance

/-- What the mutex protects. The priority queue is kept in order, with its top in front. -/
structure TaskQueue (Task : Type*) where
  taskQueue : List (TaskItem Task) := []
  nextSequenceId : ℕ := 0
  stop : Bool := false

/-- Where a thread of `WorkerThread` is. -/
inductive Worker (Task : Type*) where
  /-- It is about to take the mutex at the top of the loop, or when it was woken in `wait`. -/
  | entering
  /-- It sleeps in `wait`. -/
  | waiting
  /-- It sleeps in `wait_until`. -/
  | waitingUntil (executeTime : ℤ)
  /-- It is about to take the mutex when it was woken in `wait_until`. -/
  | woken
  | running (task : Task)
  | exited
deriving DecidableEq

/-- What a thread can ask of the queue. -/
inductive Request (Task : Type*) where
  /-- `PostTask`, without a delay, `PostDelayedTask` or `PostDelayedHighPrecisionTask`. -/
  | post (delay : ℤ) (task : Option Task)
  /-- `ClearTasks`. -/
  | clearTasks
  /-- `Stop`. -/
  | stop

/-- Where a thread is that uses the queue. -/
inductive Caller (Task : Type*) where
  | idle
  /-- It has read the clock, and is about to take the mutex. -/
  | posting (delay executeTime : ℤ) (task : Option Task)
  | clearing
  | stopping
  /-- It is about to notify one worker. -/
  | notifyingOne
  /-- It is about to notify all workers, and then to join them or not. -/
  | notifyingAll (joins : Bool)
  | joining
deriving DecidableEq

/-- What happens to the items. -/
inductive TaskEvent (C Task : Type*) where
  | posted (c : C) (delay : ℤ) (item : TaskItem Task)
  /-- The queue was stopped, and the item was not accepted. -/
  | refused (c : C)
  /-- A worker took the item out. -/
  | taken (item : TaskItem Task) (now : ℤ)
  | cleared (items : List (TaskItem Task))

/-- The worker that has taken an item out: without a task it goes back to the top of the loop. -/
def Worker.start {Task : Type*} : Option Task → Worker Task
  | none => .entering
  | some task => .running task

namespace TaskQueue

variable {C Task : Type*}

/-! ## The critical sections -/

/-- The item that is made of a task. -/
def makeItem (q : TaskQueue Task) (executeTime : ℤ) (task : Option Task) : TaskItem Task where
  executeTime := executeTime
  sequenceId := q.nextSequenceId
  task := task

/-- Whether an item that is due at the time has to be notified. -/
def notifies (q : TaskQueue Task) (executeTime : ℤ) : Bool :=
  match q.taskQueue with
  | [] => true
  | top :: _ => decide (executeTime < top.executeTime)

/-- `taskQueue_.emplace`, with the next sequence number. -/
def emplace (q : TaskQueue Task) (executeTime : ℤ) (task : Option Task) : TaskQueue Task :=
  { q with
    taskQueue := q.taskQueue.orderedInsert TaskItem.Before (q.makeItem executeTime task)
    nextSequenceId := (q.nextSequenceId + 1) % 2 ^ 64 }

/-- `PostDelayedTaskAt` of the thread `c`, to the point where it notifies. -/
def postDelayedTaskAt (q : TaskQueue Task) (c : C) (delay executeTime : ℤ) (task : Option Task) :
    TaskQueue Task × Caller Task × List (TaskEvent C Task) :=
  if q.stop then (q, .idle, [.refused c])
  else
    (q.emplace executeTime task, if q.notifies executeTime then .notifyingOne else .idle,
      [.posted c delay (q.makeItem executeTime task)])

/-- The critical section of a thread that uses the queue. -/
def callerTurn (q : TaskQueue Task) (c : C) :
    Caller Task → Option (TaskQueue Task × Caller Task × List (TaskEvent C Task))
  | .posting delay executeTime task => some (q.postDelayedTaskAt c delay executeTime task)
  | .clearing => some ({ q with taskQueue := [] }, .notifyingAll false, [.cleared q.taskQueue])
  | .stopping => some ({ q with stop := true }, .notifyingAll true, [])
  | .idle | .notifyingOne | .notifyingAll _ | .joining => none

/-- The inner loop of `WorkerThread`: the top is taken when it is due, and else it is waited for. -/
def lookAtTop (q : TaskQueue Task) (now : ℤ) :
    TaskQueue Task × Worker Task × List (TaskEvent C Task) :=
  match q.taskQueue with
  | [] => (q, .entering, [])
  | top :: rest =>
      if top.executeTime > now then (q, .waitingUntil top.executeTime, [])
      else
        ({ q with taskQueue := rest }, .start top.task, [.taken top now])

/-- What a worker does next by itself: it goes through its critical section, or ends its task. -/
def workerTurn (q : TaskQueue Task) (now : ℤ) :
    Worker Task → Option (TaskQueue Task × Worker Task × List (TaskEvent C Task))
  | .entering =>
      if !q.stop && q.taskQueue.isEmpty then some (q, .waiting, [])
      else if q.stop && q.taskQueue.isEmpty then some (q, .exited, [])
      else some (q.lookAtTop now)
  | .woken => if q.stop then some (q, .exited, []) else some (q.lookAtTop now)
  | .running _ => some (q, .entering, [])
  | .waiting | .waitingUntil _ | .exited => none

end TaskQueue

/-! ## Sleeping and waking up -/

namespace Worker

variable {Task : Type*}

/-- A worker that sleeps can be notified. -/
def asleep : Worker Task → Bool
  | .waiting | .waitingUntil _ => true
  | .entering | .woken | .running _ | .exited => false

/-- `WorkerThread` has returned. -/
def hasExited : Worker Task → Bool
  | .exited => true
  | .entering | .waiting | .waitingUntil _ | .woken | .running _ => false

/-- A worker that is woken up has to take the mutex. -/
def wake : Worker Task → Worker Task
  | .waiting => .entering
  | .waitingUntil _ => .woken
  | .entering => .entering
  | .woken => .woken
  | .running task => .running task
  | .exited => .exited

end Worker

/-! ## The system -/

/-- A task queue with `n` workers, the threads `C` that use it, and the clock. -/
structure TaskSystem (n : ℕ) (C Task : Type*) where
  queue : TaskQueue Task
  now : ℤ
  worker : Fin n → Worker Task
  caller : C → Caller Task

/-- The actions of the system. -/
inductive TaskAction (n : ℕ) (C Task : Type*) where
  | tick (elapsed : ℕ)
  | request (c : C) (request : Request Task)
  | callerTurn (c : C)
  /-- `notify_one`, which wakes the worker up, or finds none that sleeps. -/
  | notifyOne (c : C) (woken : Option (Fin n))
  | notifyAll (c : C)
  | joined (c : C)
  | workerTurn (w : Fin n)
  /-- The time of `wait_until` has passed. -/
  | timeout (w : Fin n)
  | spuriousWakeUp (w : Fin n)

namespace TaskSystem

variable {n : ℕ} {C Task : Type*} [DecidableEq C]

/-- A new queue: the workers start, and no thread uses it. -/
def new (now : ℤ) : TaskSystem n C Task where
  queue := {}
  now := now
  worker := fun _ => .entering
  caller := fun _ => .idle

/-- A worker goes on. -/
def setWorker (s : TaskSystem n C Task) (w : Fin n) (next : Worker Task) : TaskSystem n C Task :=
  { s with worker := Function.update s.worker w next }

/-- A thread that uses the queue goes on. -/
def setCaller (s : TaskSystem n C Task) (c : C) (next : Caller Task) : TaskSystem n C Task :=
  { s with caller := Function.update s.caller c next }

section Threads

variable {s : TaskSystem n C Task} {w v : Fin n} {c d : C} {worker : Worker Task}
  {caller : Caller Task}

omit [DecidableEq C] in
@[simp] theorem worker_self : (s.setWorker w worker).worker w = worker :=
  Function.update_self _ _ _

omit [DecidableEq C] in
theorem worker_other (hne : v ≠ w) : (s.setWorker w worker).worker v = s.worker v :=
  Function.update_of_ne hne _ _

@[simp] theorem caller_self : (s.setCaller c caller).caller c = caller :=
  Function.update_self _ _ _

theorem caller_other (hne : d ≠ c) : (s.setCaller c caller).caller d = s.caller d :=
  Function.update_of_ne hne _ _

end Threads

/-- What a thread does with a request before it takes the mutex. -/
def accepts (s : TaskSystem n C Task) : Request Task → Caller Task
  | .post delay task => .posting delay (s.now + delay) task
  | .clearTasks => .clearing
  | .stop => .stopping

/-- A step of the system, with what happens to the items. -/
def step (s : TaskSystem n C Task) :
    TaskAction n C Task → Option (TaskSystem n C Task × List (TaskEvent C Task))
  | .tick elapsed => some ({ s with now := s.now + elapsed }, [])
  | .request c request =>
      match s.caller c with
      | .idle => some (s.setCaller c (s.accepts request), [])
      | _ => none
  | .callerTurn c =>
      (s.queue.callerTurn c (s.caller c)).map fun result =>
        ({ s with queue := result.1 }.setCaller c result.2.1, result.2.2)
  | .notifyOne c (some w) =>
      match s.caller c with
      | .notifyingOne =>
          if (s.worker w).asleep then
            some ((s.setCaller c .idle).setWorker w (s.worker w).wake, [])
          else none
      | _ => none
  | .notifyOne c none =>
      match s.caller c with
      | .notifyingOne =>
          if ∀ w, (s.worker w).asleep = false then some (s.setCaller c .idle, []) else none
      | _ => none
  | .notifyAll c =>
      match s.caller c with
      | .notifyingAll joins =>
          some ({ s with worker := fun w => (s.worker w).wake }.setCaller c
            (if joins then .joining else .idle), [])
      | _ => none
  | .joined c =>
      match s.caller c with
      | .joining => if ∀ w, (s.worker w).hasExited then some (s.setCaller c .idle, []) else none
      | _ => none
  | .workerTurn w =>
      (s.queue.workerTurn s.now (s.worker w)).map fun result =>
        ({ s with queue := result.1 }.setWorker w result.2.1, result.2.2)
  | .timeout w =>
      match s.worker w with
      | .waitingUntil executeTime =>
          if executeTime ≤ s.now then some (s.setWorker w .woken, []) else none
      | _ => none
  | .spuriousWakeUp w =>
      if (s.worker w).asleep then some (s.setWorker w (s.worker w).wake, []) else none

/-! ## What a step does -/

/-- The steps of the system, by what they do. -/
inductive Stepped (s : TaskSystem n C Task) :
    TaskAction n C Task → TaskSystem n C Task → List (TaskEvent C Task) → Prop where
  | tick (elapsed : ℕ) : Stepped s (.tick elapsed) { s with now := s.now + elapsed } []
  | requested {c : C} (request : Request Task) : s.caller c = .idle →
      Stepped s (.request c request) (s.setCaller c (s.accepts request)) []
  | refused {c : C} {delay executeTime : ℤ} {task : Option Task} :
      s.caller c = .posting delay executeTime task → s.queue.stop = true →
      Stepped s (.callerTurn c) (s.setCaller c .idle) [.refused c]
  | posted {c : C} {delay executeTime : ℤ} {task : Option Task} :
      s.caller c = .posting delay executeTime task → s.queue.stop = false →
      Stepped s (.callerTurn c)
        (TaskSystem.setCaller { s with queue := s.queue.emplace executeTime task } c
          (if s.queue.notifies executeTime then .notifyingOne else .idle))
        [.posted c delay (s.queue.makeItem executeTime task)]
  | cleared {c : C} : s.caller c = .clearing →
      Stepped s (.callerTurn c)
        (TaskSystem.setCaller { s with queue := { s.queue with taskQueue := [] } } c
          (.notifyingAll false))
        [.cleared s.queue.taskQueue]
  | stopped {c : C} : s.caller c = .stopping →
      Stepped s (.callerTurn c)
        (TaskSystem.setCaller { s with queue := { s.queue with stop := true } } c
          (.notifyingAll true)) []
  | notified {c : C} {w : Fin n} : s.caller c = .notifyingOne → (s.worker w).asleep = true →
      Stepped s (.notifyOne c (some w))
        ((s.setCaller c .idle).setWorker w (s.worker w).wake) []
  | unnoticed {c : C} : s.caller c = .notifyingOne → (∀ w, (s.worker w).asleep = false) →
      Stepped s (.notifyOne c none) (s.setCaller c .idle) []
  | notifiedAll {c : C} {joins : Bool} : s.caller c = .notifyingAll joins →
      Stepped s (.notifyAll c)
        (TaskSystem.setCaller { s with worker := fun w => (s.worker w).wake } c
          (if joins then .joining else .idle)) []
  | joined {c : C} : s.caller c = .joining → (∀ w, (s.worker w).hasExited = true) →
      Stepped s (.joined c) (s.setCaller c .idle) []
  | waits {w : Fin n} : s.worker w = .entering → s.queue.stop = false →
      s.queue.taskQueue = [] → Stepped s (.workerTurn w) (s.setWorker w .waiting) []
  | leaves {w : Fin n} : s.worker w = .entering ∨ s.worker w = .woken → s.queue.stop = true →
      Stepped s (.workerTurn w) (s.setWorker w .exited) []
  | findsNothing {w : Fin n} : s.worker w = .woken → s.queue.stop = false →
      s.queue.taskQueue = [] → Stepped s (.workerTurn w) (s.setWorker w .entering) []
  | waitsUntil {w : Fin n} {top : TaskItem Task} {rest : List (TaskItem Task)} :
      s.worker w = .entering ∨ s.worker w = .woken ∧ s.queue.stop = false →
      s.queue.taskQueue = top :: rest →
      Stepped s (.workerTurn w) (s.setWorker w (.waitingUntil top.executeTime)) []
  | takes {w : Fin n} {top : TaskItem Task} {rest : List (TaskItem Task)} :
      s.worker w = .entering ∨ s.worker w = .woken ∧ s.queue.stop = false →
      s.queue.taskQueue = top :: rest → top.executeTime ≤ s.now →
      Stepped s (.workerTurn w)
        (TaskSystem.setWorker { s with queue := { s.queue with taskQueue := rest } } w
          (.start top.task))
        [.taken top s.now]
  | finished {w : Fin n} {task : Task} : s.worker w = .running task →
      Stepped s (.workerTurn w) (s.setWorker w .entering) []
  | timeout {w : Fin n} {executeTime : ℤ} : s.worker w = .waitingUntil executeTime →
      executeTime ≤ s.now → Stepped s (.timeout w) (s.setWorker w .woken) []
  | spurious {w : Fin n} : (s.worker w).asleep = true →
      Stepped s (.spuriousWakeUp w) (s.setWorker w (s.worker w).wake) []

variable {s s' : TaskSystem n C Task} {seen : List (TaskEvent C Task)}

/-- A worker that looks at the top takes it, waits for it, or finds nothing. -/
theorem stepped_look {w : Fin n}
    (h : s.worker w = .entering ∨ s.worker w = .woken ∧ s.queue.stop = false)
    (hempty : s.queue.taskQueue = [] → s.worker w = .woken ∧ s.queue.stop = false) :
    Stepped s (.workerTurn w)
      (TaskSystem.setWorker { s with queue := (s.queue.lookAtTop (C := C) s.now).1 } w
        (s.queue.lookAtTop (C := C) s.now).2.1)
      (s.queue.lookAtTop s.now).2.2 := by
  unfold TaskQueue.lookAtTop
  split
  · rename_i hqueue
    exact .findsNothing (hempty hqueue).1 (hempty hqueue).2 hqueue
  · rename_i top rest hqueue
    split_ifs with hlate
    · exact .waitsUntil h hqueue
    · exact .takes h hqueue (not_lt.mp hlate)

/-- Every step is one of these. -/
theorem step_cases {a : TaskAction n C Task} (h : s.step a = some (s', seen)) :
    Stepped s a s' seen := by
  cases a with
  | tick elapsed =>
      obtain ⟨rfl, rfl⟩ := Prod.mk.inj (Option.some.inj h)
      exact .tick elapsed
  | request c request =>
      simp only [step] at h
      split at h
      · rename_i hcaller
        obtain ⟨rfl, rfl⟩ := Prod.mk.inj (Option.some.inj h)
        exact .requested request hcaller
      · cases h
  | callerTurn c =>
      obtain ⟨⟨queue, caller, events⟩, hturn, hend⟩ := Option.map_eq_some_iff.mp h
      obtain ⟨rfl, rfl⟩ := Prod.mk.inj hend
      cases hcaller : s.caller c with
      | posting delay executeTime task =>
          rw [hcaller] at hturn
          have hpost := Option.some.inj hturn
          -- A stopped queue refuses the task.
          unfold TaskQueue.postDelayedTaskAt at hpost
          cases hstop : s.queue.stop with
          | true =>
              rw [hstop, if_pos rfl] at hpost
              obtain ⟨rfl, hrest⟩ := Prod.mk.inj hpost
              obtain ⟨rfl, rfl⟩ := Prod.mk.inj hrest
              exact .refused hcaller hstop
          | false =>
              rw [hstop, if_neg Bool.false_ne_true] at hpost
              obtain ⟨rfl, hrest⟩ := Prod.mk.inj hpost
              obtain ⟨rfl, rfl⟩ := Prod.mk.inj hrest
              exact .posted hcaller hstop
      | clearing =>
          rw [hcaller] at hturn
          obtain ⟨rfl, hrest⟩ := Prod.mk.inj (Option.some.inj hturn)
          obtain ⟨rfl, rfl⟩ := Prod.mk.inj hrest
          exact .cleared hcaller
      | stopping =>
          rw [hcaller] at hturn
          obtain ⟨rfl, hrest⟩ := Prod.mk.inj (Option.some.inj hturn)
          obtain ⟨rfl, rfl⟩ := Prod.mk.inj hrest
          exact .stopped hcaller
      | idle | notifyingOne | notifyingAll | joining =>
          rw [hcaller] at hturn
          cases hturn
  | notifyOne c woken =>
      cases woken with
      | none =>
          simp only [step] at h
          split at h
          · rename_i hcaller
            split_ifs at h with hawake
            obtain ⟨rfl, rfl⟩ := Prod.mk.inj (Option.some.inj h)
            exact .unnoticed hcaller hawake
          · cases h
      | some w =>
          simp only [step] at h
          split at h
          · rename_i hcaller
            split_ifs at h with hasleep
            obtain ⟨rfl, rfl⟩ := Prod.mk.inj (Option.some.inj h)
            exact .notified hcaller hasleep
          · cases h
  | notifyAll c =>
      simp only [step] at h
      split at h
      · rename_i joins hcaller
        obtain ⟨rfl, rfl⟩ := Prod.mk.inj (Option.some.inj h)
        exact .notifiedAll hcaller
      · cases h
  | joined c =>
      simp only [step] at h
      split at h
      · rename_i hcaller
        split_ifs at h with hexited
        obtain ⟨rfl, rfl⟩ := Prod.mk.inj (Option.some.inj h)
        exact .joined hcaller hexited
      · cases h
  | workerTurn w =>
      obtain ⟨⟨queue, worker, events⟩, hturn, hend⟩ := Option.map_eq_some_iff.mp h
      obtain ⟨rfl, rfl⟩ := Prod.mk.inj hend
      cases hworker : s.worker w with
      | entering =>
          rw [hworker] at hturn
          simp only [TaskQueue.workerTurn] at hturn
          -- The predicate of the wait, the return, and the look at the first item.
          split_ifs at hturn with hwait hexit
          · obtain ⟨hstop, hempty⟩ := Bool.and_eq_true_iff.mp hwait
            obtain ⟨rfl, hrest⟩ := Prod.mk.inj (Option.some.inj hturn)
            obtain ⟨rfl, rfl⟩ := Prod.mk.inj hrest
            exact .waits hworker (by simpa using hstop) (List.isEmpty_iff.mp hempty)
          · obtain ⟨rfl, hrest⟩ := Prod.mk.inj (Option.some.inj hturn)
            obtain ⟨rfl, rfl⟩ := Prod.mk.inj hrest
            exact .leaves (Or.inl hworker) (Bool.and_eq_true_iff.mp hexit).1
          · -- Not waiting and not returning, the worker finds an item.
            rw [← Option.some.inj hturn]
            refine stepped_look (Or.inl hworker) fun hempty => ?_
            rw [hempty] at hwait hexit
            cases hstop : s.queue.stop
            · exact absurd (by rw [hstop]; rfl) hwait
            · exact absurd (by rw [hstop]; rfl) hexit
      | woken =>
          rw [hworker] at hturn
          simp only [TaskQueue.workerTurn] at hturn
          split_ifs at hturn with hstop
          · obtain ⟨rfl, hrest⟩ := Prod.mk.inj (Option.some.inj hturn)
            obtain ⟨rfl, rfl⟩ := Prod.mk.inj hrest
            exact .leaves (Or.inr hworker) hstop
          · rw [← Option.some.inj hturn]
            have hrunning : s.queue.stop = false := by simpa using hstop
            exact stepped_look (Or.inr ⟨hworker, hrunning⟩) fun _ => ⟨hworker, hrunning⟩
      | running task =>
          rw [hworker] at hturn
          obtain ⟨rfl, hrest⟩ := Prod.mk.inj (Option.some.inj hturn)
          obtain ⟨rfl, rfl⟩ := Prod.mk.inj hrest
          exact .finished hworker
      | waiting | waitingUntil | exited =>
          rw [hworker] at hturn
          cases hturn
  | timeout w =>
      simp only [step] at h
      split at h
      · rename_i executeTime hworker
        split_ifs at h with hlate
        obtain ⟨rfl, rfl⟩ := Prod.mk.inj (Option.some.inj h)
        exact .timeout hworker hlate
      · cases h
  | spuriousWakeUp w =>
      simp only [step] at h
      split_ifs at h with hasleep
      obtain ⟨rfl, rfl⟩ := Prod.mk.inj (Option.some.inj h)
      exact .spurious hasleep

end TaskSystem

end MiniRtc
