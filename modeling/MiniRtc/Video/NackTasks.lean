import MiniRtc.Video.PendingNacks

/-!
# The task of the requested packets is never lost

The invariant of the history queue of `video_channel_send.cpp`. A `ProcessPendingNacks` is the
work that a thread holds or that is queued. `Inv` says that it is in one place at most, that the
flag says before the shutdown whether it is somewhere, and that the flag is up while numbers wait.
Every operation keeps it, so it holds in every run, and `nacks_not_lost` reads it off.
-/

namespace MiniRtc.NackSystem

open Threads System

/-! ## The invariant -/

/-- The worker does nothing, or it resends packets and then goes on with its task. -/
def WorkerShape (todo : List NackOperation) : Prop :=
  todo = [] ∨ ∃ front last, todo = front ++ [last] ∧ last.isTask = true ∧
    ∀ op ∈ front, ∃ sequenceNumber, op = .reSendPacket sequenceNumber

/-- What holds in every state of a run. Before the shutdown the flag says that the task is
somewhere, it is up while numbers wait, and all accepted numbers are served. -/
structure Inv (s : NackSystem) : Prop where
  single : s.Single (fun op => op.isTask = true) (· = .processPendingNacks) s.shared.tasks
  worker : WorkerShape (s.todo .worker)
  work : s.Everywhere fun t op => op.isWork = true → t = .worker
  late : s.shared.historyShutdown = false → ∀ t, (∃ op ∈ s.todo t, op.isLate = true) →
    ∃ rest, s.todo t = .storeShutdown :: rest
  failed : s.Everywhere fun _ op => op = .postFailed → s.shared.historyShutdown = true
  stopped : s.shared.historyShutdown = false → s.shared.stopped = false
  scheduled : s.shared.historyShutdown = false →
    (s.shared.nackTaskScheduled = true ↔
      s.Present (fun op => op.isTask = true) (· = .processPendingNacks) s.shared.tasks)
  pending : s.shared.historyShutdown = false → s.shared.pendingNackSequenceNumbers ≠ [] →
    s.shared.nackTaskScheduled = true
  served : s.shared.historyShutdown = false → NackQueue.Served s.shared.log fun n =>
    n ∈ s.shared.pendingNackSequenceNumbers ∨ .reSendPacket n ∈ s.todo .worker

variable {s : NackSystem} {t : NackThread} {op : NackOperation} {rest : List NackOperation}
  {program : List NackOperation} {n : Nat}

theorem inv_initial (rtxEnabled : Bool) : (initial rtxEnabled).Inv where
  single := ⟨fun t => by simp [initial, held], fun t u ht => by simp [initial, held] at ht⟩
  worker := Or.inl rfl
  work := fun t op hop => by cases hop
  late := fun _ t hlate => by
    obtain ⟨op, hop, -⟩ := hlate
    cases hop
  failed := fun t op hop => by cases hop
  stopped := fun _ => rfl
  scheduled := fun _ => by simp [initial, Present, held]
  pending := fun _ hpending => absurd rfl hpending
  served := fun _ first n later hlog => by
    have hlength := congrArg List.length hlog
    simp [initial] at hlength

/-- What the thread of a step holds afterwards, together with the queue, differs from what it held
before as the operation says. -/
theorem count_perform (h : s.todo t = op :: rest) :
    (s.next t (s.shared.exec op).1 (s.shared.exec op).2 rest).held
          (fun op => op.isTask = true) t +
        queued (· = .processPendingNacks) (s.shared.exec op).1.tasks + s.shared.tasksBefore op =
      s.held (fun op => op.isTask = true) t +
        queued (· = .processPendingNacks) s.shared.tasks + s.shared.tasksAfter op := by
  rw [held_next_self, held_cons h, NackQueue.tasksAfter, NackQueue.tasksBefore]
  omega

/-- A section of a task leaves a worker that resends packets and goes on. -/
theorem worker_shape_made (htask : op.isTask = true) :
    WorkerShape (s.shared.exec op).2 := by
  have hlast : ∀ last : NackOperation, last.isTask = true → WorkerShape [last] :=
    fun last hlast => Or.inr ⟨[], last, rfl, hlast, by simp⟩
  cases op with
  | postTask =>
      simp only [NackQueue.exec, NackQueue.postTask]
      split_ifs
      · exact hlast _ rfl
      · exact Or.inl rfl
  | postFailed => exact Or.inl rfl
  | processPendingNacks =>
      simp only [NackQueue.exec, NackQueue.processPendingNacks]
      split_ifs
      · exact Or.inl rfl
      · refine Or.inr ⟨_, .processed, rfl, rfl, fun op hop => ?_⟩
        obtain ⟨sequenceNumber, -, rfl⟩ := List.mem_map.mp hop
        exact ⟨sequenceNumber, rfl⟩
  | processed =>
      simp only [NackQueue.exec, NackQueue.processed]
      split_ifs
      · exact Or.inl rfl
      · exact hlast _ rfl
  | onReceiveNack _ | reSendPacket _ | storeShutdown | clearPending | clearTasks | stop =>
      cases htask

theorem worker_shape_perform (h : s.todo .worker = op :: rest)
    (hs : WorkerShape (s.todo .worker)) : WorkerShape ((s.shared.exec op).2 ++ rest) := by
  rw [h] at hs
  rcases hs with hempty | ⟨front, last, htodo, hlast, hfront⟩
  · cases hempty
  · cases front with
    | nil =>
        obtain ⟨rfl, rfl⟩ := List.cons.inj htodo
        rw [List.append_nil]
        exact worker_shape_made hlast
    | cons first front =>
        obtain ⟨rfl, rfl⟩ := List.cons.inj htodo
        obtain ⟨sequenceNumber, rfl⟩ := hfront op List.mem_cons_self
        refine Or.inr ⟨front, last, rfl, hlast, fun op hop => ?_⟩
        exact hfront op (List.mem_cons_of_mem _ hop)

/-- Before the shutdown no thread is at an operation that comes after it. -/
theorem not_late_of_head (hs : s.Inv) (hrunning : s.shared.historyShutdown = false)
    (h : s.todo t = op :: rest) : op.isLate = false := by
  by_contra hlate
  have hin : ∃ op ∈ s.todo t, op.isLate = true :=
    ⟨op, by rw [h]; exact List.mem_cons_self, by simpa using hlate⟩
  obtain ⟨rest', hhead⟩ := hs.late hrunning t hin
  rw [h] at hhead
  obtain ⟨rfl, -⟩ := List.cons.inj hhead
  exact hlate rfl

/-- A state before the shutdown comes from one before the shutdown. -/
theorem running_of_exec (h : (s.shared.exec op).1.historyShutdown = false) :
    s.shared.historyShutdown = false := by
  by_contra hshutdown
  rw [NackQueue.shutdown_exec (by simpa using hshutdown)] at h
  cases h

section Perform

variable (hs : s.Inv) (h : s.todo t = op :: rest)

include hs h

theorem single_perform :
    (s.next t (s.shared.exec op).1 (s.shared.exec op).2 rest).Single
      (fun op => op.isTask = true) (· = .processPendingNacks) (s.shared.exec op).1.tasks := by
  have hcount := count_perform h
  rcases s.shared.outcome op with ⟨hsame, -, -⟩ | ⟨hless, -, -⟩ | ⟨hmore, hrunning, hdown, -⟩ |
    ⟨hless, -⟩
  · exact hs.single.next (by omega)
  · exact hs.single.next (by omega)
  · -- the flag was down, so there was no task
    have habsent := (not_congr (hs.scheduled hrunning)).mp (by simp [hdown])
    have hheld : ¬ 0 < s.held (fun op => op.isTask = true) t :=
      fun hheld => habsent (Or.inl ⟨t, hheld⟩)
    have hqueued : ¬ 0 < queued (· = .processPendingNacks) s.shared.tasks :=
      fun hqueued => habsent (Or.inr hqueued)
    exact single_of_absent habsent (by omega)
  · exact hs.single.next (by omega)

theorem work_perform :
    (s.next t (s.shared.exec op).1 (s.shared.exec op).2 rest).Everywhere
      fun t op => op.isWork = true → t = .worker := by
  refine hs.work.next (rest_suffix h) fun new hnew hwork => ?_
  have hop := (NackQueue.made_of_exec hnew).2 hwork
  exact hs.work t op (by rw [h]; exact List.mem_cons_self) hop

theorem late_perform (hrunning : (s.shared.exec op).1.historyShutdown = false) {u : NackThread}
    (hlate : ∃ new ∈ (s.next t (s.shared.exec op).1 (s.shared.exec op).2 rest).todo u,
      new.isLate = true) :
    ∃ later, (s.next t (s.shared.exec op).1 (s.shared.exec op).2 rest).todo u =
      .storeShutdown :: later := by
  obtain ⟨new, hnew, hnewLate⟩ := hlate
  rcases mem_todo_next (rest_suffix h) hnew with hold | ⟨rfl, hmade⟩
  · obtain ⟨later, hhead⟩ := hs.late (running_of_exec hrunning) u ⟨new, hold, hnewLate⟩
    by_cases hut : u = t
    · -- the shutdown would be the operation of this step
      subst hut
      rw [h] at hhead
      obtain ⟨rfl, -⟩ := List.cons.inj hhead
      cases hrunning
    · exact ⟨later, by rw [todo_next_other hut, hhead]⟩
  · have hstopped := (NackQueue.made_of_exec hmade).1 hnewLate
    rw [hs.stopped (running_of_exec hrunning)] at hstopped
    cases hstopped

theorem failed_perform :
    (s.next t (s.shared.exec op).1 (s.shared.exec op).2 rest).Everywhere
      fun _ new => new = .postFailed → (s.shared.exec op).1.historyShutdown = true := by
  refine Everywhere.next (fun u new hnew hfail => ?_) (rest_suffix h) fun new hnew hfail => ?_
  · exact NackQueue.shutdown_exec (hs.failed u new hnew hfail)
  · -- a post fails in a stopped queue
    have hstopped := (NackQueue.made_of_exec hnew).1 (by rw [hfail]; rfl)
    refine NackQueue.shutdown_exec ?_
    by_contra hrunning
    rw [hs.stopped (by simpa using hrunning)] at hstopped
    cases hstopped

theorem stopped_perform (hrunning : (s.shared.exec op).1.historyShutdown = false) :
    (s.shared.exec op).1.stopped = false := by
  by_contra hstopped
  rcases NackQueue.stopped_exec (by simpa using hstopped) with hold | rfl
  · rw [hs.stopped (running_of_exec hrunning)] at hold
    cases hold
  · cases not_late_of_head hs (running_of_exec hrunning) h

theorem scheduled_perform (hrunning : (s.shared.exec op).1.historyShutdown = false) :
    (s.shared.exec op).1.nackTaskScheduled = true ↔
      (s.next t (s.shared.exec op).1 (s.shared.exec op).2 rest).Present
        (fun op => op.isTask = true) (· = .processPendingNacks) (s.shared.exec op).1.tasks := by
  have hcount := count_perform h
  have hflag := hs.scheduled (running_of_exec hrunning)
  rcases s.shared.outcome op with ⟨hsame, hkept, -⟩ | ⟨hless, hended, -⟩ | ⟨hmore, -, -, hset⟩ |
    ⟨-, hlate⟩
  · rw [hkept, hflag]
    exact (present_next (by omega)).symm
  · have habsent : ¬ (s.next t (s.shared.exec op).1 (s.shared.exec op).2 rest).Present
        (fun op => op.isTask = true) (· = .processPendingNacks) (s.shared.exec op).1.tasks :=
      absent_of_dropped hs.single (by omega)
    exact iff_of_false (by simp [hended]) habsent
  · refine iff_of_true hset ?_
    by_cases hqueued : 0 < queued (· = .processPendingNacks) (s.shared.exec op).1.tasks
    · exact Or.inr hqueued
    · exact Or.inl ⟨t, by omega⟩
  · rw [not_late_of_head hs (running_of_exec hrunning) h] at hlate
    cases hlate

theorem pending_perform (hrunning : (s.shared.exec op).1.historyShutdown = false)
    (hpending : (s.shared.exec op).1.pendingNackSequenceNumbers ≠ []) :
    (s.shared.exec op).1.nackTaskScheduled = true := by
  have hlate := not_late_of_head hs (running_of_exec hrunning) h
  rcases s.shared.outcome op with ⟨-, hkept, hleft⟩ | ⟨-, -, hempty⟩ | ⟨-, -, -, hset⟩ | ⟨-, hop⟩
  · rw [hkept]
    exact (hleft hpending).elim (hs.pending (running_of_exec hrunning)) id
  · rcases hempty with hop | hempty
    · rw [hlate] at hop
      cases hop
    · exact absurd hempty hpending
  · exact hset
  · rw [hlate] at hop
    cases hop

theorem served_perform (hrunning : (s.shared.exec op).1.historyShutdown = false) :
    NackQueue.Served (s.shared.exec op).1.log fun n =>
      n ∈ (s.shared.exec op).1.pendingNackSequenceNumbers ∨
        .reSendPacket n ∈
          (s.next t (s.shared.exec op).1 (s.shared.exec op).2 rest).todo .worker := by
  refine NackQueue.served_exec (hs.served (running_of_exec hrunning)) hrunning
    (not_late_of_head hs (running_of_exec hrunning) h) (fun n hin => ?_) fun n hmade => ?_
  · by_cases hop : op = .reSendPacket n
    · exact Or.inr hop
    · exact Or.inl (mem_todo_kept h (Ne.symm hop) hin)
  · -- only the worker makes a batch
    have hop := (NackQueue.made_of_exec hmade).2 rfl
    obtain rfl := hs.work t op (by rw [h]; exact List.mem_cons_self) hop
    exact mem_todo_made hmade

theorem inv_next : Inv (s.next t (s.shared.exec op).1 (s.shared.exec op).2 rest) where
  single := single_perform hs h
  worker := by
    by_cases ht : t = .worker
    · subst ht
      rw [todo_next_self]
      exact worker_shape_perform h hs.worker
    · rw [todo_next_other (Ne.symm ht)]
      exact hs.worker
  work := work_perform hs h
  late := fun hrunning _ hlate => late_perform hs h hrunning hlate
  failed := failed_perform hs h
  stopped := stopped_perform hs h
  scheduled := scheduled_perform hs h
  pending := pending_perform hs h
  served := served_perform hs h

end Perform

/-- A thread that performs an operation keeps the invariant. -/
theorem inv_perform (hs : s.Inv) : Inv (s.perform NackQueue.exec t) := by
  cases h : s.todo t with
  | nil =>
      rw [perform_idle h]
      exact hs
  | cons op rest =>
      rw [perform_cons h]
      exact inv_next hs h

/-- A thread that gets operations keeps the invariant, when the task goes from the queue to the
thread. -/
theorem inv_start (tasks : List HistoryTask) (hs : s.Inv) (hidle : s.todo t = [])
    (hcount : program.countP (fun op => op.isTask = true) +
      queued (· = .processPendingNacks) tasks =
        queued (· = .processPendingNacks) s.shared.tasks)
    (hshape : t = .worker → WorkerShape program)
    (hwork : ∀ op ∈ program, op.isWork = true → t = .worker) (hfailed : .postFailed ∉ program)
    (hlate : (∃ op ∈ program, op.isLate = true) → ∃ rest, program = .storeShutdown :: rest) :
    Inv (s.start t { s.shared with tasks := tasks } program) := by
  have hheld : (s.start t { s.shared with tasks := tasks } program).held
        (fun op => op.isTask = true) t + queued (· = .processPendingNacks) tasks =
      s.held (fun op => op.isTask = true) t +
        queued (· = .processPendingNacks) s.shared.tasks := by
    rw [held_idle hidle, start, held_next_self, List.countP_nil, Nat.add_zero, Nat.zero_add,
      hcount]
  constructor
  · exact hs.single.next (Nat.le_of_eq hheld)
  · by_cases ht : t = .worker
    · subst ht
      rw [start, todo_next_self, List.append_nil]
      exact hshape rfl
    · rw [start, todo_next_other (Ne.symm ht)]
      exact hs.worker
  · exact hs.work.next List.nil_suffix hwork
  · rintro hrunning u ⟨op, hop, hopLate⟩
    by_cases hu : u = t
    · subst hu
      rw [start, todo_next_self, List.append_nil] at hop ⊢
      exact hlate ⟨op, hop, hopLate⟩
    · rw [start, todo_next_other hu] at hop ⊢
      exact hs.late hrunning u ⟨op, hop, hopLate⟩
  · exact hs.failed.next List.nil_suffix fun op hop hfail => absurd (hfail ▸ hop) hfailed
  · exact hs.stopped
  · exact fun hrunning => (hs.scheduled hrunning).trans (present_next hheld).symm
  · exact hs.pending
  · refine fun hrunning => (hs.served hrunning).mono fun n hn => hn.imp_right fun hbatch => ?_
    by_cases ht : t = .worker
    · -- an idle worker has no batch
      subst ht
      rw [hidle] at hbatch
      cases hbatch
    · rw [start, todo_next_other (Ne.symm ht)]
      exact hbatch

/-- A caller that does nothing else starts operations that are no tasks. -/
theorem inv_call (hs : s.Inv) (htask : program.countP (fun op => op.isTask = true) = 0)
    (hwork : ∀ op ∈ program, op.isWork = false) (hfailed : .postFailed ∉ program)
    (hlate : (∃ op ∈ program, op.isLate = true) → ∃ rest, program = .storeShutdown :: rest) :
    Inv (s.call n program) := by
  unfold call
  split_ifs with hidle
  · refine inv_start s.shared.tasks hs hidle (by rw [htask, Nat.zero_add])
      (fun ht => by cases ht) (fun op hop h => ?_) hfailed hlate
    rw [hwork op hop] at h
    cases h
  · exact hs

/-- A step that changes neither the threads nor the flags nor the record keeps the invariant, when
the same numbers wait. -/
theorem inv_shared {shared : NackQueue} (hs : s.Inv)
    (hqueued : queued (· = .processPendingNacks) shared.tasks =
      queued (· = .processPendingNacks) s.shared.tasks)
    (hflag : shared.nackTaskScheduled = s.shared.nackTaskScheduled)
    (hshutdown : shared.historyShutdown = s.shared.historyShutdown)
    (hstopped : shared.stopped = s.shared.stopped) (hlog : shared.log = s.shared.log)
    (hpending : ∀ n, n ∈ shared.pendingNackSequenceNumbers ↔
      n ∈ s.shared.pendingNackSequenceNumbers) : Inv { s with shared := shared } where
  single := hs.single.congr rfl hqueued
  worker := hs.worker
  work := hs.work
  late := fun hrunning => hs.late (hshutdown ▸ hrunning)
  failed := fun t op hop hfail => hshutdown.trans (hs.failed t op hop hfail)
  stopped := fun hrunning => hstopped.trans (hs.stopped (hshutdown ▸ hrunning))
  scheduled := fun hrunning => by
    rw [hflag, hs.scheduled (hshutdown ▸ hrunning)]
    exact (present_congr rfl hqueued).symm
  pending := fun hrunning hnumbers => by
    obtain ⟨n, hn⟩ := List.exists_mem_of_ne_nil _ hnumbers
    rw [hflag]
    exact hs.pending (hshutdown ▸ hrunning) (List.ne_nil_of_mem ((hpending n).mp hn))
  served := fun hrunning => by
    show NackQueue.Served shared.log _
    rw [hlog]
    exact (hs.served (hshutdown ▸ hrunning)).mono fun n hn => hn.imp_left (hpending n).mpr

/-- The worker takes a task of the queue. -/
theorem inv_take {index : Nat} (hs : s.Inv) : Inv (s.take index) := by
  unfold take
  split_ifs with hidle
  · cases htask : s.shared.tasks[index]? with
    | none => exact hs
    | some task =>
        have herased := queued_erase_idx (q := (· = HistoryTask.processPendingNacks)) htask
        cases task with
        | processPendingNacks =>
            have hshape : WorkerShape [.processPendingNacks] :=
              Or.inr ⟨[], .processPendingNacks, rfl, rfl, by simp⟩
            refine inv_start _ hs hidle ?_ (fun _ => hshape) (fun _ _ _ => rfl) (by simp) (by simp)
            rw [← herased]
            simp [Nat.add_comm]
        | other =>
            refine inv_start _ hs hidle ?_ (fun _ => Or.inl rfl) (by simp) (by simp) (by simp)
            rw [← herased]
            simp
  · exact hs

/-- Every step keeps the invariant. -/
theorem inv_step (action : NackAction) (hs : s.Inv) : Inv (s.step action) := by
  cases action with
  | receive n numbers => exact inv_call hs rfl (by simp) (by simp) (by simp)
  | destroy n => exact inv_call hs rfl (by simp) (by simp) fun _ => ⟨_, rfl⟩
  | perform t => exact inv_perform hs
  | take index => exact inv_take hs
  | postOther =>
      show Inv (if _ then _ else _)
      split_ifs
      · exact hs
      · exact inv_shared hs (by simp) rfl rfl rfl rfl fun _ => Iff.rfl
  | reorder numbers =>
      show Inv (if _ then _ else _)
      split_ifs with hperm
      · exact inv_shared hs rfl rfl rfl rfl rfl fun _ => hperm.mem_iff
      · exact hs

theorem inv_run (rtxEnabled : Bool) (actions : List NackAction) :
    Inv (actions.foldl step (initial rtxEnabled)) :=
  List.foldlRecOn actions step (inv_initial rtxEnabled) fun _ hs action _ => inv_step action hs

/-! ## The result -/

/-- A worker that performs the task holds it. -/
theorem held_of_running (hs : s.Inv) (h : s.todo .worker ≠ []) :
    0 < s.held (fun op => op.isTask = true) .worker := by
  -- its last operation belongs to the task
  rcases hs.worker with hidle | ⟨front, last, htodo, hlast, -⟩
  · exact absurd hidle h
  · exact held_pos_iff.mpr ⟨last, by rw [htodo]; simp, hlast⟩

theorem held_of_posting (h : .postTask ∈ s.todo (.caller n)) :
    0 < s.held (fun op => op.isTask = true) (.caller n) :=
  held_pos_iff.mpr ⟨.postTask, h, rfl⟩

/-- The task is at one place at most. -/
theorem at_unique (hs : s.Inv) {first second : TaskPlace} (hfirst : s.At first)
    (hsecond : s.At second) : first = second := by
  have hqueue : ∀ {index : Nat} {t : NackThread},
      s.shared.tasks[index]? = some HistoryTask.processPendingNacks →
      0 < s.held (fun op => op.isTask = true) t → False := by
    intro index t hat hheld
    have honce := hs.single.once t
    have hqueued : 0 < queued (· = .processPendingNacks) s.shared.tasks :=
      queued_pos_iff.mpr ⟨_, List.mem_of_getElem? hat, rfl⟩
    omega
  have honce : queued (· = .processPendingNacks) s.shared.tasks ≤ 1 := by
    have honce := hs.single.once .worker
    omega
  cases first with
  | queued i =>
      cases second with
      | queued j => rw [queued_place honce hfirst hsecond rfl rfl]
      | posting n => exact (hqueue hfirst (held_of_posting hsecond)).elim
      | running => exact (hqueue hfirst (held_of_running hs hsecond)).elim
  | posting n =>
      cases second with
      | queued j => exact (hqueue hsecond (held_of_posting hfirst)).elim
      | posting m =>
          have hsame := hs.single.single _ _ (held_of_posting hfirst) (held_of_posting hsecond)
          rw [NackThread.caller.inj hsame]
      | running =>
          cases hs.single.single _ _ (held_of_posting hfirst) (held_of_running hs hsecond)
  | running =>
      cases second with
      | queued j => exact (hqueue hsecond (held_of_running hs hfirst)).elim
      | posting m =>
          cases hs.single.single _ _ (held_of_posting hsecond) (held_of_running hs hfirst)
      | running => rfl

/-- A task that is present before the shutdown is at one of the places. -/
theorem at_of_present (hs : s.Inv) (hrunning : s.shared.historyShutdown = false)
    (h : s.Present (fun op => op.isTask = true) (· = .processPendingNacks) s.shared.tasks) :
    ∃ place, s.At place := by
  rcases h with ⟨t, hheld⟩ | hqueued
  · obtain ⟨op, hop, htask⟩ := held_pos_iff.mp hheld
    cases t with
    | worker => exact ⟨.running, List.ne_nil_of_mem hop⟩
    | caller n =>
        refine ⟨.posting n, ?_⟩
        cases op with
        | postTask => exact hop
        | postFailed =>
            have hshutdown := hs.failed _ _ hop rfl
            rw [hrunning] at hshutdown
            cases hshutdown
        | processPendingNacks | processed => cases hs.work _ _ hop rfl
        | onReceiveNack _ | reSendPacket _ | storeShutdown | clearPending | clearTasks | stop =>
            cases htask
  · obtain ⟨task, htask, rfl⟩ := queued_pos_iff.mp hqueued
    obtain ⟨index, hindex⟩ := List.mem_iff_getElem?.mp htask
    exact ⟨.queued index, hindex⟩

/-- In every run the task is at one place at most, also after the shutdown. Before the shutdown it
is at exactly one place while numbers wait, and every number that was accepted waits, is in the
batch of the worker, or was resent since. -/
theorem nacks_not_lost (rtxEnabled : Bool) (actions : List NackAction) :
    let s := actions.foldl step (initial rtxEnabled)
    (∀ first second, s.At first → s.At second → first = second) ∧
    (s.shared.historyShutdown = false →
      (s.shared.pendingNackSequenceNumbers ≠ [] → ∃! place, s.At place) ∧
      (∀ first n later, s.shared.log = first ++ .accepted n :: later →
        n ∈ s.shared.pendingNackSequenceNumbers ∨ .reSendPacket n ∈ s.todo .worker ∨
          .resent n ∈ later)) := by
  intro s
  have hs : s.Inv := inv_run rtxEnabled actions
  refine ⟨fun _ _ => at_unique hs, fun hrunning => ⟨fun hpending => ?_, ?_⟩⟩
  · have hpresent := (hs.scheduled hrunning).mp (hs.pending hrunning hpending)
    obtain ⟨place, hplace⟩ := at_of_present hs hrunning hpresent
    exact ⟨place, hplace, fun other hother => at_unique hs hother hplace⟩
  · intro first n later hlog
    exact or_assoc.mp (hs.served hrunning first n later hlog)

end MiniRtc.NackSystem
