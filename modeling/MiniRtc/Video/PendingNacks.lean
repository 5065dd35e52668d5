import MiniRtc.Foundation.WorkQueue
import MiniRtc.Rtp.PacketHistory

/-!
# Requested packets that wait for the history queue

`OnReceiveNack`, `ProcessPendingNacks` and `Destroy` of `video_channel_send.cpp`. The numbers that a
receiver asks for are put into a set, and a task of the history queue takes batches out of it and
posts itself again until the set is empty. A flag says that the task is on its way. Callers and the
worker of the queue take their steps in any order: each section under `pending_nacks_mtx_`, each
`PostTask` and each call of `ReSendPacket` is one operation.

The set is the list of its elements in the order in which an iterator meets them, which may change
at any time. What was accepted and what was resent is recorded. The other tasks of the queue do not
touch the set.
-/

namespace MiniRtc

open Threads System

/-- A number that `OnReceiveNack` accepted, or one that `ReSendPacket` was called with. -/
inductive NackRecord where
  | accepted (sequenceNumber : BitVec 16)
  | resent (sequenceNumber : BitVec 16)
  deriving DecidableEq

/-- The tasks of the history queue. -/
inductive HistoryTask where
  | processPendingNacks
  | other
  deriving DecidableEq

/-- The part of `VideoChannelSend` that the functions share, with the history queue. -/
structure NackQueue where
  rtxEnabled : Bool
  pendingNackSequenceNumbers : List (BitVec 16) := []
  nackTaskScheduled : Bool := false
  historyShutdown : Bool := false
  tasks : List HistoryTask := []
  stopped : Bool := false
  log : List NackRecord := []

/-- The operations of the threads. -/
inductive NackOperation where
  /-- `OnReceiveNack`, up to the end of its section. -/
  | onReceiveNack (nackSequenceNumbers : List (BitVec 16))
  /-- `PostTask` of `ProcessPendingNacks`. -/
  | postTask
  /-- The section behind a `PostTask` that failed. -/
  | postFailed
  /-- The first section of `ProcessPendingNacks`. -/
  | processPendingNacks
  | reSendPacket (sequenceNumber : BitVec 16)
  /-- The second section of `ProcessPendingNacks`. -/
  | processed
  /-- `Destroy` sets `history_shutdown_`. -/
  | storeShutdown
  /-- The section of `Destroy`. -/
  | clearPending
  | clearTasks
  | stop
  deriving DecidableEq

/-- The operation belongs to a `ProcessPendingNacks` that is about to be posted or performed. -/
@[simp] def NackOperation.isTask : NackOperation → Bool
  | .postTask | .postFailed | .processPendingNacks | .processed => true
  | .onReceiveNack _ | .reSendPacket _ | .storeShutdown | .clearPending | .clearTasks | .stop =>
      false

/-- The operation comes after the shutdown. -/
@[simp] def NackOperation.isLate : NackOperation → Bool
  | .postFailed | .clearPending | .clearTasks | .stop => true
  | .onReceiveNack _ | .postTask | .processPendingNacks | .reSendPacket _ | .processed
  | .storeShutdown => false

/-- The operation is a step of a `ProcessPendingNacks` that the worker performs. -/
@[simp] def NackOperation.isWork : NackOperation → Bool
  | .processPendingNacks | .reSendPacket _ | .processed => true
  | .onReceiveNack _ | .postTask | .postFailed | .storeShutdown | .clearPending | .clearTasks
  | .stop => false

/-- The worker of the history queue and the callers of the channel. -/
inductive NackThread where
  | worker
  | caller (n : Nat)
  deriving DecidableEq

namespace NackQueue

/-! ## The functions of the source -/

/-- `kMaxNacksPerTask`. -/
def kMaxNacksPerTask : Nat := 512

/-- The loop of `OnReceiveNack` over the numbers. -/
def insertNacks : List (BitVec 16) → NackQueue → NackQueue
  | [], s => s
  | sequenceNumber :: rest, s =>
      if RtpPacketHistory.kMaxCapacity ≤ s.pendingNackSequenceNumbers.length then s
      else
        insertNacks rest
          { s with
            pendingNackSequenceNumbers := s.pendingNackSequenceNumbers.insert sequenceNumber
            log := s.log ++ [.accepted sequenceNumber] }

/-- `OnReceiveNack`, up to the end of its section. -/
def onReceiveNack (s : NackQueue) (nackSequenceNumbers : List (BitVec 16)) :
    NackQueue × List NackOperation :=
  if s.rtxEnabled = false ∨ nackSequenceNumbers = [] then (s, [])
  else if s.historyShutdown then (s, [])
  else
    let s := insertNacks nackSequenceNumbers s
    if s.nackTaskScheduled = false ∧ s.pendingNackSequenceNumbers ≠ [] then
      ({ s with nackTaskScheduled := true }, [.postTask])
    else (s, [])

/-- `TaskQueue::PostTask` of `ProcessPendingNacks`. -/
def postTask (s : NackQueue) : NackQueue × List NackOperation :=
  if s.stopped then (s, [.postFailed])
  else ({ s with tasks := s.tasks ++ [.processPendingNacks] }, [])

/-- The first section of `ProcessPendingNacks`, and what the task does then. -/
def processPendingNacks (s : NackQueue) : NackQueue × List NackOperation :=
  if s.historyShutdown then
    ({ s with
        pendingNackSequenceNumbers := []
        nackTaskScheduled := false }, [])
  else
    ({ s with
        pendingNackSequenceNumbers := s.pendingNackSequenceNumbers.drop kMaxNacksPerTask },
      (s.pendingNackSequenceNumbers.take kMaxNacksPerTask).map .reSendPacket ++ [.processed])

/-- One round of the loop of `ProcessPendingNacks`, which ends at a shutdown. -/
def reSendPacket (s : NackQueue) (sequenceNumber : BitVec 16) : NackQueue :=
  if s.historyShutdown then s else { s with log := s.log ++ [.resent sequenceNumber] }

/-- The second section of `ProcessPendingNacks`. -/
def processed (s : NackQueue) : NackQueue × List NackOperation :=
  if s.historyShutdown ∨ s.pendingNackSequenceNumbers = [] then
    ({ s with
        pendingNackSequenceNumbers := []
        nackTaskScheduled := false }, [])
  else (s, [.postTask])

/-- What an operation does, and what its thread goes on with. -/
def exec (s : NackQueue) : NackOperation → NackQueue × List NackOperation
  | .onReceiveNack nackSequenceNumbers => s.onReceiveNack nackSequenceNumbers
  | .postTask => s.postTask
  | .postFailed => ({ s with nackTaskScheduled := false }, [])
  | .processPendingNacks => s.processPendingNacks
  | .reSendPacket sequenceNumber => (s.reSendPacket sequenceNumber, [])
  | .processed => s.processed
  | .storeShutdown => ({ s with historyShutdown := true }, [])
  | .clearPending =>
      ({ s with
          pendingNackSequenceNumbers := []
          nackTaskScheduled := false }, [])
  | .clearTasks => ({ s with tasks := [] }, [])
  | .stop => ({ s with stopped := true }, [])

/-! ## One operation -/

variable {s : NackQueue} {op : NackOperation} {numbers : List (BitVec 16)}
  {Q : BitVec 16 → Prop}

/-- The loop touches the set and the record only. -/
theorem insert_nacks_fields (numbers : List (BitVec 16)) (s : NackQueue) :
    (insertNacks numbers s).nackTaskScheduled = s.nackTaskScheduled ∧
      (insertNacks numbers s).historyShutdown = s.historyShutdown ∧
      (insertNacks numbers s).tasks = s.tasks ∧
      (insertNacks numbers s).stopped = s.stopped := by
  induction numbers generalizing s with
  | nil => exact ⟨rfl, rfl, rfl, rfl⟩
  | cons sequenceNumber rest ih =>
      unfold insertNacks
      split_ifs
      · exact ⟨rfl, rfl, rfl, rfl⟩
      · exact ih _

/-- `OnReceiveNack` leaves the set to a task that is on its way, or it schedules one. -/
theorem on_receive_nack_cases (s : NackQueue) (numbers : List (BitVec 16)) :
    ((s.onReceiveNack numbers).2 = [] ∧
      (s.onReceiveNack numbers).1.nackTaskScheduled = s.nackTaskScheduled ∧
      ((s.onReceiveNack numbers).1.pendingNackSequenceNumbers ≠ [] →
        s.pendingNackSequenceNumbers ≠ [] ∨ s.nackTaskScheduled = true)) ∨
    ((s.onReceiveNack numbers).2 = [.postTask] ∧ s.historyShutdown = false ∧
      s.nackTaskScheduled = false ∧ (s.onReceiveNack numbers).1.nackTaskScheduled = true) := by
  unfold onReceiveNack
  split_ifs with hskip hshutdown
  · exact Or.inl ⟨rfl, rfl, Or.inl⟩
  · exact Or.inl ⟨rfl, rfl, Or.inl⟩
  · have hfields := insert_nacks_fields numbers s
    by_cases hschedule : (insertNacks numbers s).nackTaskScheduled = false ∧
        (insertNacks numbers s).pendingNackSequenceNumbers ≠ []
    · refine Or.inr ?_
      rw [if_pos hschedule]
      exact ⟨rfl, by simpa using hshutdown, hfields.1 ▸ hschedule.1, rfl⟩
    · refine Or.inl ?_
      rw [if_neg hschedule]
      refine ⟨rfl, hfields.1, fun hpending => Or.inr ?_⟩
      by_contra hnot
      exact hschedule ⟨hfields.1.trans (by simpa using hnot), hpending⟩

/-- What `OnReceiveNack` does not touch. -/
theorem on_receive_nack_fields (s : NackQueue) (numbers : List (BitVec 16)) :
    (s.onReceiveNack numbers).1.historyShutdown = s.historyShutdown ∧
      (s.onReceiveNack numbers).1.tasks = s.tasks ∧
      (s.onReceiveNack numbers).1.stopped = s.stopped := by
  have hfields := insert_nacks_fields numbers s
  unfold onReceiveNack
  split_ifs
  · exact ⟨rfl, rfl, rfl⟩
  · exact ⟨rfl, rfl, rfl⟩
  · dsimp only
    split_ifs <;> exact hfields.2

/-- The number of tasks that an operation leaves to its thread and to the queue. -/
def tasksAfter (s : NackQueue) (op : NackOperation) : Nat :=
  (s.exec op).2.countP (fun op => op.isTask = true) +
    queued (· = .processPendingNacks) (s.exec op).1.tasks

/-- The number of tasks that an operation finds. -/
def tasksBefore (s : NackQueue) (op : NackOperation) : Nat :=
  (if op.isTask = true then 1 else 0) + queued (· = .processPendingNacks) s.tasks

/-- An operation hands the task on with the flag as it is, ends it and takes the flag down, makes
one and sets the flag, or belongs to `Destroy`. -/
inductive Outcome (s : NackQueue) (op : NackOperation) : Prop where
  | kept (count : s.tasksAfter op = s.tasksBefore op)
      (flag : (s.exec op).1.nackTaskScheduled = s.nackTaskScheduled)
      (left : (s.exec op).1.pendingNackSequenceNumbers ≠ [] →
        s.pendingNackSequenceNumbers ≠ [] ∨ s.nackTaskScheduled = true)
  | ended (count : s.tasksAfter op < s.tasksBefore op)
      (flag : (s.exec op).1.nackTaskScheduled = false)
      (left : op.isLate = true ∨ (s.exec op).1.pendingNackSequenceNumbers = [])
  | made (count : s.tasksAfter op = s.tasksBefore op + 1) (running : s.historyShutdown = false)
      (down : s.nackTaskScheduled = false) (flag : (s.exec op).1.nackTaskScheduled = true)
  | late (count : s.tasksAfter op ≤ s.tasksBefore op) (late : op.isLate = true)

/-- The packets of a batch are no tasks. -/
theorem batch_not_task (numbers : List (BitVec 16)) :
    (numbers.map NackOperation.reSendPacket).countP (fun op => op.isTask = true) = 0 := by
  rw [List.countP_eq_zero]
  intro op hop
  obtain ⟨sequenceNumber, -, rfl⟩ := List.mem_map.mp hop
  simp

theorem outcome (s : NackQueue) (op : NackOperation) : s.Outcome op := by
  cases op with
  | onReceiveNack numbers =>
      have hfields := on_receive_nack_fields s numbers
      rcases on_receive_nack_cases s numbers with
        ⟨hmade, hflag, hleft⟩ | ⟨hmade, hrunning, hdown, hflag⟩
      · refine .kept ?_ hflag hleft
        simp [tasksAfter, tasksBefore, exec, hmade, hfields.2.1]
      · refine .made ?_ hrunning hdown hflag
        simp [tasksAfter, tasksBefore, exec, hmade, hfields.2.1, NackOperation.isTask,
          Nat.add_comm]
  | postTask =>
      by_cases hstopped : s.stopped
      · refine .kept ?_ ?_ ?_ <;>
          simp [tasksAfter, tasksBefore, exec, postTask, hstopped]
        exact Or.inl
      · refine .kept ?_ ?_ ?_ <;>
          simp [tasksAfter, tasksBefore, exec, postTask, hstopped, NackOperation.isTask,
            Nat.add_comm]
        exact Or.inl
  | postFailed =>
      refine .ended ?_ rfl (Or.inl rfl)
      simp [tasksAfter, tasksBefore, exec]
  | processPendingNacks =>
      by_cases hshutdown : s.historyShutdown
      · refine .ended ?_ ?_ (Or.inr ?_) <;>
          simp [tasksAfter, tasksBefore, exec, processPendingNacks, hshutdown]
      · refine .kept ?_ ?_ fun hpending => Or.inl ?_
        · have hbatch := batch_not_task
            (s.pendingNackSequenceNumbers.take kMaxNacksPerTask)
          simp only [tasksAfter, tasksBefore, exec, processPendingNacks, hshutdown,
            Bool.false_eq_true, if_false, List.countP_append, hbatch]
          simp
        · simp [exec, processPendingNacks, hshutdown]
        · -- what is left was in the set before
          intro hempty
          apply hpending
          simp [exec, processPendingNacks, hshutdown, hempty]
  | reSendPacket sequenceNumber =>
      by_cases hshutdown : s.historyShutdown
      · refine .kept ?_ ?_ ?_ <;>
          simp [tasksAfter, tasksBefore, exec, reSendPacket, hshutdown]
        exact Or.inl
      · refine .kept ?_ ?_ ?_ <;>
          simp [tasksAfter, tasksBefore, exec, reSendPacket, hshutdown]
        exact Or.inl
  | processed =>
      by_cases hover : s.historyShutdown ∨ s.pendingNackSequenceNumbers = []
      · refine .ended ?_ ?_ (Or.inr ?_) <;>
          simp [tasksAfter, tasksBefore, exec, processed, hover]
      · refine .kept ?_ ?_ ?_ <;>
          simp only [tasksAfter, tasksBefore, exec, processed, hover, NackOperation.isTask,
            if_false]
        · simp
        · exact Or.inl
  | storeShutdown =>
      refine .kept ?_ rfl Or.inl
      simp [tasksAfter, tasksBefore, exec]
  | clearPending | clearTasks | stop =>
      refine .late ?_ rfl
      simp [tasksAfter, tasksBefore, exec]

/-- A shutdown is for good. -/
theorem shutdown_exec (h : s.historyShutdown = true) : (s.exec op).1.historyShutdown = true := by
  cases op with
  | onReceiveNack numbers => exact (on_receive_nack_fields s numbers).1.trans h
  | postTask =>
      simp only [exec, postTask]
      split_ifs <;> exact h
  | processPendingNacks => simp [exec, processPendingNacks, h]
  | reSendPacket sequenceNumber => simp [exec, reSendPacket, h]
  | processed => simp [exec, processed, h]
  | storeShutdown => rfl
  | postFailed | clearPending | clearTasks | stop => exact h

/-- What an operation makes: late work only when the queue was stopped, and work of the worker
only behind its first section. -/
theorem made_of_exec {new : NackOperation} (hnew : new ∈ (s.exec op).2) :
    (new.isLate = true → s.stopped = true) ∧ (new.isWork = true → op.isWork = true) := by
  cases op with
  | onReceiveNack numbers =>
      rcases on_receive_nack_cases s numbers with ⟨hmade, -⟩ | ⟨hmade, -⟩
      · simp [exec, hmade] at hnew
      · obtain rfl : new = .postTask := by simpa [exec, hmade] using hnew
        simp
  | postTask =>
      by_cases hstopped : s.stopped
      · obtain rfl : new = .postFailed := by simpa [exec, postTask, hstopped] using hnew
        simp [hstopped]
      · simp [exec, postTask, hstopped] at hnew
  | processPendingNacks =>
      by_cases hshutdown : s.historyShutdown
      · simp [exec, processPendingNacks, hshutdown] at hnew
      · simp only [exec, processPendingNacks, hshutdown, Bool.false_eq_true, if_false,
          List.mem_append, List.mem_map, List.mem_singleton] at hnew
        rcases hnew with ⟨sequenceNumber, -, rfl⟩ | rfl
        · simp
        · simp
  | processed =>
      simp only [exec, processed] at hnew
      split_ifs at hnew
      · simp at hnew
      · obtain rfl : new = .postTask := by simpa using hnew
        simp
  | reSendPacket _ | postFailed | storeShutdown | clearPending | clearTasks | stop =>
      simp [exec] at hnew

/-- The queue is stopped by `Destroy` only. -/
theorem stopped_exec (h : (s.exec op).1.stopped = true) : s.stopped = true ∨ op = .stop := by
  cases op with
  | onReceiveNack numbers => exact Or.inl ((on_receive_nack_fields s numbers).2.2 ▸ h)
  | postTask =>
      simp only [exec, postTask] at h
      split_ifs at h <;> exact Or.inl h
  | processPendingNacks =>
      simp only [exec, processPendingNacks] at h
      split_ifs at h <;> exact Or.inl h
  | reSendPacket _ =>
      simp only [exec, reSendPacket] at h
      split_ifs at h <;> exact Or.inl h
  | processed =>
      simp only [exec, processed] at h
      split_ifs at h <;> exact Or.inl h
  | stop => exact Or.inr rfl
  | postFailed | storeShutdown | clearPending | clearTasks => exact Or.inl h

/-! ## Accepted numbers -/

/-- Every number that was accepted satisfies the condition or was resent since. -/
def Served (log : List NackRecord) (P : BitVec 16 → Prop) : Prop :=
  ∀ first n later, log = first ++ .accepted n :: later → P n ∨ .resent n ∈ later

variable {log : List NackRecord} {P P' Q' : BitVec 16 → Prop} {record : NackRecord}

theorem Served.mono (h : Served log P) (hP : ∀ n, P n → P' n) : Served log P' :=
  fun first n later hlog => (h first n later hlog).imp_left (hP n)

/-- One more record serves the numbers that it says were resent. -/
theorem Served.snoc (h : Served log P) (hP : ∀ n, P n → P' n ∨ record = .resent n)
    (hrecord : ∀ n, record = .accepted n → P' n) : Served (log ++ [record]) P' := by
  intro first n later hlog
  rcases later.eq_nil_or_concat with rfl | ⟨later, last, rfl⟩
  · obtain ⟨-, hlast⟩ := List.append_inj' hlog rfl
    exact Or.inl (hrecord n (List.cons.inj hlast).1)
  · have hsplit : log ++ [record] = (first ++ .accepted n :: later) ++ [last] := by
      simpa using hlog
    obtain ⟨hbefore, hlast⟩ := List.append_inj' hsplit rfl
    obtain rfl : record = last := (List.cons.inj hlast).1
    rcases h first n later hbefore with hn | hin
    · rcases hP n hn with hn' | rfl
      · exact Or.inl hn'
      · exact Or.inr (by simp)
    · exact Or.inr (by simp [hin])

/-- The numbers that the loop accepts are in the set. -/
theorem served_insert_nacks (h : Served s.log fun n => n ∈ s.pendingNackSequenceNumbers ∨ Q n) :
    Served (insertNacks numbers s).log fun n =>
      n ∈ (insertNacks numbers s).pendingNackSequenceNumbers ∨ Q n := by
  induction numbers generalizing s with
  | nil => exact h
  | cons sequenceNumber rest ih =>
      unfold insertNacks
      split_ifs
      · exact h
      · refine ih (h.snoc (fun n hn => Or.inl ?_) fun n hn => Or.inl ?_)
        · exact hn.imp_left List.mem_insert_of_mem
        · obtain rfl := NackRecord.accepted.inj hn
          exact List.mem_insert_self

/-- An operation before the shutdown keeps the accepted numbers in the set or in the batch, or it
resends one. -/
theorem served_exec (h : Served s.log fun n => n ∈ s.pendingNackSequenceNumbers ∨ Q n)
    (hrunning : (s.exec op).1.historyShutdown = false) (hlate : op.isLate = false)
    (hQ : ∀ n, Q n → Q' n ∨ op = .reSendPacket n)
    (hmade : ∀ n, .reSendPacket n ∈ (s.exec op).2 → Q' n) :
    Served (s.exec op).1.log fun n => n ∈ (s.exec op).1.pendingNackSequenceNumbers ∨ Q' n := by
  have hbefore : s.historyShutdown = false := by
    by_contra hshutdown
    rw [shutdown_exec (by simpa using hshutdown)] at hrunning
    cases hrunning
  have hkept : (∀ n, op ≠ .reSendPacket n) →
      Served s.log fun n => n ∈ s.pendingNackSequenceNumbers ∨ Q' n := by
    intro hop
    refine h.mono fun n hn => hn.imp_right fun hbatch => ?_
    exact (hQ n hbatch).resolve_right (hop n)
  cases op with
  | onReceiveNack numbers =>
      simp only [exec, onReceiveNack, hbefore, Bool.false_eq_true, if_false]
      split_ifs
      · exact hkept (by simp)
      · exact served_insert_nacks (hkept (by simp))
      · exact served_insert_nacks (hkept (by simp))
  | postTask =>
      simp only [exec, postTask]
      split_ifs <;> exact hkept (by simp)
  | processPendingNacks =>
      simp only [exec, processPendingNacks, hbefore, Bool.false_eq_true, if_false] at hmade ⊢
      refine (hkept (by simp)).mono fun n hn => ?_
      rcases hn with hpending | hbatch
      · -- the set is the batch and what stays
        rw [← List.take_append_drop kMaxNacksPerTask s.pendingNackSequenceNumbers,
          List.mem_append] at hpending
        rcases hpending with htaken | hleft
        · have hin : NackOperation.reSendPacket n ∈
              (s.pendingNackSequenceNumbers.take kMaxNacksPerTask).map .reSendPacket :=
            List.mem_map_of_mem htaken
          exact Or.inr (hmade n (List.mem_append_left _ hin))
        · exact Or.inl hleft
      · exact Or.inr hbatch
  | reSendPacket sequenceNumber =>
      simp only [exec, reSendPacket, hbefore, Bool.false_eq_true, if_false]
      refine h.snoc (fun n hn => ?_) (by simp)
      rcases hn with hpending | hbatch
      · exact Or.inl (Or.inl hpending)
      · rcases hQ n hbatch with hbatch' | hresent
        · exact Or.inl (Or.inr hbatch')
        · obtain rfl := NackOperation.reSendPacket.inj hresent
          exact Or.inr rfl
  | processed =>
      simp only [exec, processed, hbefore, Bool.false_eq_true, false_or]
      split_ifs with hempty
      · rw [← hempty]
        exact hkept (by simp)
      · exact hkept (by simp)
  | storeShutdown => cases hrunning
  | postFailed | clearPending | clearTasks | stop => cases hlate

end NackQueue

/-! ## Runs -/

/-- The threads over the queue. -/
abbrev NackSystem := System NackThread NackQueue NackOperation

/-- What happens next. -/
inductive NackAction where
  /-- A caller that does nothing else calls `OnReceiveNack`. -/
  | receive (n : Nat) (nackSequenceNumbers : List (BitVec 16))
  /-- A caller that does nothing else calls `Destroy`. -/
  | destroy (n : Nat)
  /-- A thread performs its next operation. -/
  | perform (t : NackThread)
  /-- The worker takes a task. -/
  | take (index : Nat)
  /-- Another task is posted. -/
  | postOther
  /-- The iteration order of the set changes. -/
  | reorder (sequenceNumbers : List (BitVec 16))

namespace NackSystem

/-- The worker takes a task of the queue. Tasks of other kinds are over at once. -/
def take (s : NackSystem) (index : Nat) : NackSystem :=
  if s.todo .worker = [] then
    match s.shared.tasks[index]? with
    | none => s
    | some task =>
        s.start .worker { s.shared with tasks := s.shared.tasks.eraseIdx index }
          (match task with
            | .processPendingNacks => [.processPendingNacks]
            | .other => [])
  else s

/-- A caller without operations gets some. -/
def call (s : NackSystem) (n : Nat) (program : List NackOperation) : NackSystem :=
  if s.todo (.caller n) = [] then s.start (.caller n) s.shared program else s

/-- One step of the system. -/
def step (s : NackSystem) : NackAction → NackSystem
  | .receive n nackSequenceNumbers => s.call n [.onReceiveNack nackSequenceNumbers]
  | .destroy n => s.call n [.storeShutdown, .clearPending, .clearTasks, .stop]
  | .perform t => s.perform NackQueue.exec t
  | .take index => s.take index
  | .postOther =>
      if s.shared.stopped then s
      else { s with shared := { s.shared with tasks := s.shared.tasks ++ [.other] } }
  | .reorder sequenceNumbers =>
      if sequenceNumbers.Perm s.shared.pendingNackSequenceNumbers then
        { s with shared := { s.shared with pendingNackSequenceNumbers := sequenceNumbers } }
      else s

/-- The channel after `Initialize`. -/
def initial (rtxEnabled : Bool) : NackSystem where
  shared := { rtxEnabled := rtxEnabled }
  todo := fun _ => []

/-- The places of `ProcessPendingNacks`: the queue, a caller that is about to post it, and the
worker that performs it. -/
inductive TaskPlace where
  | queued (index : Nat)
  | posting (n : Nat)
  | running

/-- The task is at a place. -/
def At (s : NackSystem) : TaskPlace → Prop
  | .queued index => s.shared.tasks[index]? = some .processPendingNacks
  | .posting n => .postTask ∈ s.todo (.caller n)
  | .running => s.todo .worker ≠ []

end NackSystem

end MiniRtc
