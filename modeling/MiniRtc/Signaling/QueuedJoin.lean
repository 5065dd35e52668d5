import MiniRtc.Foundation.Run
import MiniRtc.Foundation.Text

/-!
# The join that waits for the login

The part of `PeerConnection` of `peer_connection.cpp` that `signal_status_mutex_` guards: the status
of the signaling connection, the join that is queued until the login succeeds, and the flag of a
leave. The application calls `Join`, `Leave` and `Destroy`, and the websocket reports its status and
the results of logins. A section under the mutex is one event. The websocket exists from `Init` on.

`pending_iff_waits` says which join is queued after a run, and `queued_join_protocol` when a join
message is sent.
-/

namespace MiniRtc

open Text Run

/-- `SignalStatus`. -/
inductive SignalStatus where
  | connecting
  | connected
  | failed
  | closed
  | reconnecting
  | serverClosed
  | tlsCertError
  deriving DecidableEq

/-- `WsStatus`, as far as `on_ws_status_` handles it. -/
inductive WsStatus where
  | opening
  | opened
  | failed
  | closed
  | reconnecting
  | serverClosed
  | tlsCertError
  deriving DecidableEq

/-- The messages to the signaling server. -/
inductive SignalMessage where
  | login (userId : Text)
  | joinTransmission (userId transmissionId : Text)
  | userLeaveTransmission (userId transmissionId : Text)
  deriving DecidableEq

/-- What the application and the websocket do, one section at a time. -/
inductive SignalEvent where
  | join (transmissionId : Text)
  | leave (transmissionId : Text)
  | destroy
  /-- `on_ws_status_`. -/
  | wsStatus (status : WsStatus)
  /-- The result of a login. -/
  | login (success : Bool)
  /-- `ProcessSignal` writes `user_id_`, which the mutex does not guard. -/
  | userId (userId : Text)
  deriving DecidableEq

/-- The fields of `PeerConnection` that the sections read and write. -/
structure SignalSession where
  userIdWithPwd : Text
  userId : Text
  signalStatus : SignalStatus := .closed
  pendingJoinTransmissionId : Option Text := none
  leave : Bool := false
  offerPeer : Bool := false
  remoteTransmissionId : Text := []

namespace SignalSession

/-! ## The functions of the source -/

/-- `SendJoinRequestLocked`, with the message that it sends. -/
def sendJoinRequestLocked (s : SignalSession) (transmissionId : Text) :
    SignalSession × List SignalMessage :=
  ({ s with
      offerPeer := false
      leave := false
      remoteTransmissionId := transmissionId },
    [.joinTransmission s.userId transmissionId])

/-- `SetSignalStatus`. -/
def setSignalStatus (s : SignalSession) (status : SignalStatus) : SignalSession :=
  { s with signalStatus := status }

/-- The login of the signaling server has not ended yet. -/
def Waiting (s : SignalSession) : Prop :=
  s.signalStatus = .connecting ∨ s.signalStatus = .reconnecting

instance (s : SignalSession) : Decidable s.Waiting :=
  inferInstanceAs (Decidable (_ ∨ _))

/-- `Join`, with its result. -/
def join (s : SignalSession) (transmissionId : Text) :
    SignalSession × List SignalMessage × Int :=
  if s.signalStatus = .connected then
    let (s, messages) := s.sendJoinRequestLocked transmissionId
    (s, messages, 0)
  else if s.Waiting then
    ({ s with
        pendingJoinTransmissionId := some transmissionId
        leave := false }, [], 0)
  else (s, [], -1)

/-- The section of `Leave`, with the result of the call. -/
def leaveTransmission (s : SignalSession) (transmissionId : Text) :
    SignalSession × List SignalMessage × Int :=
  if s.pendingJoinTransmissionId.isSome then
    ({ s with
        pendingJoinTransmissionId := none
        leave := true }, [], 0)
  else if s.signalStatus = .connected then
    ({ s with leave := true }, [.userLeaveTransmission s.userId transmissionId], 0)
  else ({ s with leave := true }, [], -1)

/-- The section of `Destroy`. -/
def destroy (s : SignalSession) : SignalSession :=
  { s with
    pendingJoinTransmissionId := none
    leave := true }

/-- `on_ws_status_`. An open websocket sends the login. -/
def onWsStatus (s : SignalSession) : WsStatus → SignalSession × List SignalMessage
  | .opening => (s.setSignalStatus .connecting, [])
  | .opened => (s, [.login s.userIdWithPwd])
  | .failed => (s.setSignalStatus .failed, [])
  | .closed => (s.setSignalStatus .closed, [])
  | .reconnecting => (s.setSignalStatus .reconnecting, [])
  | .serverClosed => (s.setSignalStatus .serverClosed, [])
  | .tlsCertError => (s.setSignalStatus .tlsCertError, [])

/-- The section of `ProcessSignal` for a login that succeeded. -/
def loginSuccess (s : SignalSession) : SignalSession × List SignalMessage :=
  match s.pendingJoinTransmissionId with
  | none => (s.setSignalStatus .connected, [])
  | some transmissionId =>
      { s.setSignalStatus .connected with
        pendingJoinTransmissionId := none }.sendJoinRequestLocked transmissionId

/-- The section of `ProcessSignal` for a login that failed. -/
def loginFail (s : SignalSession) : SignalSession :=
  { s.setSignalStatus .failed with pendingJoinTransmissionId := none }

/-- What an event does, with the messages that it sends. -/
def handle (s : SignalSession) : SignalEvent → SignalSession × List SignalMessage
  | .join transmissionId =>
      let (s, messages, _) := s.join transmissionId
      (s, messages)
  | .leave transmissionId =>
      let (s, messages, _) := s.leaveTransmission transmissionId
      (s, messages)
  | .destroy => (s.destroy, [])
  | .wsStatus status => s.onWsStatus status
  | .login true => s.loginSuccess
  | .login false => (s.loginFail, [])
  | .userId userId => ({ s with userId := userId }, [])

/-- The state after an event. -/
def step (s : SignalSession) (e : SignalEvent) : SignalSession :=
  (s.handle e).1

/-- `PeerConnection` after `Init`, of a user and the name that it logs in with. -/
def initial (userIdWithPwd userId : Text) : SignalSession :=
  { userIdWithPwd := userIdWithPwd, userId := userId }

/-- The transmissions of the join messages that an event sends. -/
def joinsSent (s : SignalSession) (e : SignalEvent) : List Text :=
  (s.handle e).2.filterMap fun
    | .joinTransmission _ transmissionId => some transmissionId
    | _ => none

/-! ## One event -/

/-- `Join` accepts the transmission. -/
def Accepts (s : SignalSession) (transmissionId : Text) : Prop :=
  (s.join transmissionId).2.2 = 0

/-- The event leaves a queued join alone: it is neither a `Leave` nor a `Destroy` nor the result of
a login, and it is no `Join` that is accepted. -/
def Keeps (s : SignalSession) : SignalEvent → Prop
  | .join transmissionId => ¬ s.Accepts transmissionId
  | .leave _ | .destroy | .login _ => False
  | .wsStatus _ | .userId _ => True

/-- The event takes a queued join away without sending it. -/
def Cancels : SignalEvent → Prop
  | .leave _ | .destroy | .login false => True
  | .join _ | .login true | .wsStatus _ | .userId _ => False

/-- The event sets the flag of a leave. -/
def Leaves : SignalEvent → Prop
  | .leave _ | .destroy => True
  | .join _ | .login _ | .wsStatus _ | .userId _ => False

/-- No join is queued while the login holds. -/
def Flushed (s : SignalSession) : Prop :=
  s.signalStatus = .connected → s.pendingJoinTransmissionId = none

variable {s : SignalSession} {e : SignalEvent} {id : Text}

/-- `Join` sends, queues or rejects. -/
theorem accepts_iff : s.Accepts id ↔ s.signalStatus = .connected ∨ s.Waiting := by
  unfold Accepts join
  by_cases hconnected : s.signalStatus = .connected
  · simp [hconnected]
  · by_cases hwaiting : s.Waiting
    · simp [hconnected, hwaiting]
    · simp [hconnected, hwaiting]

/-- A websocket never reports that the login succeeded. -/
theorem on_ws_status_fields (status : WsStatus) :
    (s.onWsStatus status).1.pendingJoinTransmissionId = s.pendingJoinTransmissionId ∧
      (s.onWsStatus status).1.leave = s.leave ∧
      ((s.onWsStatus status).1.signalStatus = .connected → s.signalStatus = .connected) := by
  cases status <;> simp [onWsStatus, setSignalStatus]

/-- An event that keeps the queued join does so. -/
theorem pending_step_of_keeps (h : s.Keeps e) :
    (s.step e).pendingJoinTransmissionId = s.pendingJoinTransmissionId := by
  cases e with
  | join other =>
      -- a rejected `Join` changes nothing
      have hrejected : ¬ s.Accepts other := h
      rw [accepts_iff, not_or] at hrejected
      simp [step, handle, join, hrejected.1, hrejected.2]
  | leave _ | destroy | login _ => exact absurd h (by simp [Keeps])
  | wsStatus status => exact (on_ws_status_fields status).1
  | userId _ => rfl

/-- After any other event the queued join is the one of that event. -/
theorem pending_step_of_not_keeps (hs : s.Flushed) (h : ¬ s.Keeps e) :
    (s.step e).pendingJoinTransmissionId = some id ↔ e = .join id ∧ s.Waiting := by
  cases e with
  | join other =>
      have haccepted : s.Accepts other := not_not.mp h
      rcases accepts_iff.mp haccepted with hconnected | hwaiting
      · have hother : ¬ s.Waiting := by simp [Waiting, hconnected]
        simp [step, handle, join, sendJoinRequestLocked, hconnected, hs hconnected, hother]
      · have hother : s.signalStatus ≠ .connected := by
          rcases hwaiting with hstatus | hstatus <;> simp [hstatus]
        simp [step, handle, join, hother, hwaiting]
  | leave other =>
      simp only [step, handle, leaveTransmission, reduceCtorEq, false_and, iff_false]
      split_ifs with hsome hconnected
      · simp
      · have hnone : s.pendingJoinTransmissionId = none := by simpa using hsome
        simp [hnone]
      · have hnone : s.pendingJoinTransmissionId = none := by simpa using hsome
        simp [hnone]
  | destroy => simp [step, handle, destroy]
  | login success =>
      cases success with
      | true =>
          simp only [step, handle, loginSuccess, reduceCtorEq, false_and, iff_false]
          split
          · rename_i hnone
            simp [setSignalStatus, hnone]
          · simp [setSignalStatus, sendJoinRequestLocked]
      | false => simp [step, handle, loginFail]
  | wsStatus _ | userId _ => exact absurd trivial h

/-- The flag of a leave is set by `Leave` and `Destroy` only. -/
theorem leave_step (hleave : s.leave = false) (h : ¬ Leaves e) : (s.step e).leave = false := by
  cases e with
  | join other =>
      simp only [step, handle, join]
      split_ifs
      · rfl
      · rfl
      · exact hleave
  | leave _ | destroy => exact absurd trivial h
  | wsStatus status =>
      exact (on_ws_status_fields status).2.1.trans hleave
  | login success =>
      cases success with
      | true =>
          simp only [step, handle, loginSuccess]
          split
          · exact hleave
          · rfl
      | false => exact hleave
  | userId _ => exact hleave

/-- A login that succeeds leaves no join behind, and nothing else makes the status connected. -/
theorem flushed_step (hs : s.Flushed) : (s.step e).Flushed := by
  intro hconnected
  cases e with
  | join other =>
      revert hconnected
      simp only [step, handle, join]
      split_ifs with hstatus hwaiting
      · exact fun _ => hs hstatus
      · exact fun hafter => absurd hafter hstatus
      · exact hs
  | leave other =>
      revert hconnected
      simp only [step, handle, leaveTransmission]
      split_ifs
      · exact fun _ => rfl
      · exact hs
      · exact hs
  | destroy => rfl
  | wsStatus status =>
      have hfields := s.on_ws_status_fields status
      exact hfields.1.trans (hs (hfields.2.2 hconnected))
  | login success =>
      cases success with
      | true =>
          simp only [step, handle, loginSuccess]
          split
          · assumption
          · rfl
      | false => rfl
  | userId _ => exact hs hconnected

/-- A join message is sent by a `Join` while connected, and by a login that succeeds while a join
is queued. -/
theorem joins_sent_cases :
    s.joinsSent e = [] ∨
      (∃ id, e = .join id ∧ s.signalStatus = .connected ∧ s.joinsSent e = [id]) ∨
      (∃ id, e = .login true ∧ s.pendingJoinTransmissionId = some id ∧ s.joinsSent e = [id]) := by
  cases e with
  | join other =>
      by_cases hconnected : s.signalStatus = .connected
      · refine Or.inr (Or.inl ⟨other, rfl, hconnected, ?_⟩)
        simp [joinsSent, handle, join, hconnected, sendJoinRequestLocked]
      · refine Or.inl ?_
        by_cases hwaiting : s.Waiting
        · simp [joinsSent, handle, join, hconnected, hwaiting]
        · simp [joinsSent, handle, join, hconnected, hwaiting]
  | leave other =>
      refine Or.inl ?_
      simp only [joinsSent, handle, leaveTransmission]
      split_ifs <;> simp
  | destroy => exact Or.inl rfl
  | wsStatus status =>
      refine Or.inl ?_
      cases status <;> simp [joinsSent, handle, onWsStatus]
  | login success =>
      cases success with
      | true =>
          cases hpending : s.pendingJoinTransmissionId with
          | none =>
              refine Or.inl ?_
              simp [joinsSent, handle, loginSuccess, hpending]
          | some id =>
              refine Or.inr (Or.inr ⟨id, rfl, rfl, ?_⟩)
              simp [joinsSent, handle, loginSuccess, hpending, sendJoinRequestLocked]
      | false => exact Or.inl rfl
  | userId _ => exact Or.inl rfl

/-- A login that succeeds sends the queued join. -/
theorem joins_sent_login (h : s.pendingJoinTransmissionId = some id) :
    s.joinsSent (.login true) = [id] := by
  simp [joinsSent, handle, loginSuccess, h, sendJoinRequestLocked]

/-- A join message takes the flag of a leave back. -/
theorem leave_of_joins_sent (h : s.joinsSent e ≠ []) : (s.step e).leave = false := by
  rcases joins_sent_cases (s := s) (e := e) with hnone | ⟨id, rfl, hconnected, -⟩ |
    ⟨id, rfl, hpending, -⟩
  · exact absurd hnone h
  · simp [step, handle, join, hconnected, sendJoinRequestLocked]
  · simp [step, handle, loginSuccess, hpending, sendJoinRequestLocked]

/-! ## Runs -/

/-- The state after some events. -/
def after (userIdWithPwd userId : Text) (events : List SignalEvent) : SignalSession :=
  events.foldl step (initial userIdWithPwd userId)

/-- A join that came after the events `first` is still queued after the events `later`: it came
while the login had not ended, and all later events keep it. -/
def Waits (userIdWithPwd userId : Text) (first : List SignalEvent) (transmissionId : Text)
    (later : List SignalEvent) : Prop :=
  (after userIdWithPwd userId first).Waiting ∧
    Along step Keeps (after userIdWithPwd userId (first ++ [.join transmissionId])) later

variable {userIdWithPwd userId : Text} {first later events : List SignalEvent}

theorem after_append :
    after userIdWithPwd userId (first ++ later) =
      later.foldl step (after userIdWithPwd userId first) :=
  List.foldl_append

theorem after_snoc :
    after userIdWithPwd userId (events ++ [e]) = (after userIdWithPwd userId events).step e :=
  after_append

theorem flushed_after : (after userIdWithPwd userId events).Flushed := by
  induction events using List.reverseRecOn with
  | nil => exact fun _ => rfl
  | append_singleton events e ih =>
      rw [after_snoc]
      exact flushed_step ih

/-- A join that waits is the queued one. -/
theorem pending_of_waits (h : Waits userIdWithPwd userId first id later) :
    (after userIdWithPwd userId (first ++ .join id :: later)).pendingJoinTransmissionId =
      some id := by
  have hqueued : (after userIdWithPwd userId (first ++ [.join id])).pendingJoinTransmissionId =
      some id := by
    have haccepted : ¬ (after userIdWithPwd userId first).Keeps (.join id) :=
      not_not.mpr (accepts_iff.mpr (Or.inr h.1))
    rw [after_snoc]
    exact (pending_step_of_not_keeps flushed_after haccepted).mpr ⟨rfl, h.1⟩
  have hsplit : first ++ .join id :: later = (first ++ [.join id]) ++ later := by simp
  rw [hsplit, after_append]
  exact h.2.invariant (I := fun s => s.pendingJoinTransmissionId = some id)
    (fun s e hs he => (pending_step_of_keeps he).trans hs) hqueued

/-- The queued join after a run is the last one that was accepted while the login had not ended,
when nothing took it away since. -/
theorem pending_iff_waits :
    (after userIdWithPwd userId events).pendingJoinTransmissionId = some id ↔
      ∃ first later, events = first ++ .join id :: later ∧
        Waits userIdWithPwd userId first id later := by
  constructor
  · induction events using List.reverseRecOn with
    | nil => exact fun h => by cases h
    | append_singleton events e ih =>
        intro h
        rw [after_snoc] at h
        by_cases hkeeps : (after userIdWithPwd userId events).Keeps e
        · rw [pending_step_of_keeps hkeeps] at h
          obtain ⟨first, later, rfl, hwaits⟩ := ih h
          refine ⟨first, later ++ [e], by simp, hwaits.1, ?_⟩
          refine along_append.mpr ⟨hwaits.2, ?_, trivial⟩
          rw [← after_append]
          simpa using hkeeps
        · obtain ⟨rfl, hwaiting⟩ := (pending_step_of_not_keeps flushed_after hkeeps).mp h
          exact ⟨events, [], rfl, hwaiting, trivial⟩
  · intro ⟨first, later, hevents, hwaits⟩
    rw [hevents]
    exact pending_of_waits hwaits

/-- No join is queued after one was taken away, unless another one comes. -/
theorem not_pending_of_cancels (hcancels : Cancels e) (hlater : ∀ id, .join id ∉ later) :
    (after userIdWithPwd userId (first ++ e :: later)).pendingJoinTransmissionId = none := by
  rw [Option.eq_none_iff_forall_not_mem]
  intro id hpending
  obtain ⟨start, rest, hevents, hwaits⟩ := pending_iff_waits.mp hpending
  -- the queued join stands before the event that took it away
  rcases List.append_eq_append_iff.mp hevents with ⟨middle, rfl, htail⟩ | ⟨middle, hstart, htail⟩
  · cases middle with
    | nil =>
        obtain ⟨rfl, -⟩ := List.cons.inj htail
        exact hcancels
    | cons other middle =>
        obtain ⟨-, hrest⟩ := List.cons.inj htail
        exact hlater id (by rw [hrest]; simp)
  · cases middle with
    | nil =>
        obtain ⟨rfl, -⟩ := List.cons.inj htail
        exact hcancels
    | cons other middle =>
        obtain ⟨-, hrest⟩ := List.cons.inj htail
        rw [hrest] at hwaits
        have hkeeps := (along_append.mp hwaits.2).2.1
        cases e with
        | leave _ | destroy => exact hkeeps
        | login success => exact hkeeps
        | join _ | wsStatus _ | userId _ => exact hcancels

/-- The flag of a leave stays down without `Leave` and `Destroy`. -/
theorem leave_of_run (hleave : s.leave = false) (hlater : ∀ e ∈ later, ¬ Leaves e) :
    (later.foldl step s).leave = false := by
  induction later generalizing s with
  | nil => exact hleave
  | cons e rest ih =>
      refine ih (leave_step hleave (hlater e List.mem_cons_self)) fun other hother => ?_
      exact hlater other (List.mem_cons_of_mem e hother)

/-- The queued join is sent when the login succeeds, and every join message is that of a `Join`
while connected or of the join that waits then. A join that was sent waits no longer, nothing is
sent after a `Leave`, a `Destroy` or a failed login without a new `Join`, and the flag of a leave is
down from a join message to the next `Leave` or `Destroy`. -/
theorem queued_join_protocol (userIdWithPwd userId : Text) (events : List SignalEvent) :
    let s := after userIdWithPwd userId events
    (∀ first id later, events = first ++ .join id :: later →
      Waits userIdWithPwd userId first id later → s.joinsSent (.login true) = [id]) ∧
    (∀ e, s.joinsSent e = [] ∨
      (∃ id, e = .join id ∧ s.signalStatus = .connected ∧ s.joinsSent e = [id]) ∨
      (∃ first id later, e = .login true ∧ events = first ++ .join id :: later ∧
        Waits userIdWithPwd userId first id later ∧ s.joinsSent e = [id])) ∧
    (∀ first id later success rest,
      ¬ Waits userIdWithPwd userId first id (later ++ .login success :: rest)) ∧
    (∀ first other later e, events = first ++ other :: later → Cancels other →
      (∀ id, .join id ∉ later) → (∀ id, e ≠ .join id) → s.joinsSent e = []) ∧
    (∀ first e later, events = first ++ e :: later →
      (after userIdWithPwd userId first).joinsSent e ≠ [] → (∀ other ∈ later, ¬ Leaves other) →
      s.leave = false) := by
  intro s
  refine ⟨?_, ?_, ?_, ?_, ?_⟩
  · intro first id later hevents hwaits
    exact joins_sent_login (pending_iff_waits.mpr ⟨first, later, hevents, hwaits⟩)
  · intro e
    rcases joins_sent_cases (s := s) (e := e) with hnone | hdirect | ⟨id, he, hpending, hsent⟩
    · exact Or.inl hnone
    · exact Or.inr (Or.inl hdirect)
    · obtain ⟨first, later, hevents, hwaits⟩ := pending_iff_waits.mp hpending
      exact Or.inr (Or.inr ⟨first, id, later, he, hevents, hwaits, hsent⟩)
  · intro first id later success rest hwaits
    exact (along_append.mp hwaits.2).2.1
  · intro first other later e hevents hcancels hlater he
    have hnone : s.pendingJoinTransmissionId = none := by
      show (after userIdWithPwd userId events).pendingJoinTransmissionId = none
      rw [hevents]
      exact not_pending_of_cancels hcancels hlater
    rcases joins_sent_cases (s := s) (e := e) with hempty | ⟨id, hjoin, -⟩ | ⟨id, -, hpending, -⟩
    · exact hempty
    · exact absurd hjoin (he id)
    · rw [hnone] at hpending
      cases hpending
  · intro first e later hevents hsent hlater
    have hrun : s = later.foldl step ((after userIdWithPwd userId first).step e) := by
      show after userIdWithPwd userId events = _
      rw [hevents, after_append, List.foldl_cons]
    rw [hrun]
    exact leave_of_run (leave_of_joins_sent hsent) hlater

/-- Two joins are queued while the websocket opens, and the login sends the second one. -/
example :
    (after "u@p".toList "u".toList [.wsStatus .opening, .join "a".toList, .wsStatus .opened,
      .join "b".toList]).joinsSent (.login true) = ["b".toList] := by
  decide

end SignalSession

end MiniRtc
