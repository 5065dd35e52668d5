import MiniRtc.Signaling.PeerConnection

/-!
# The threads of a peer

What each thread may have to do, and what the steps of a run are. Every step performs the first
operation of a thread or gives an idle thread its operations (`step_cases`). `Makes` lists what an
operation may put in front of its thread. `Allowed` says which operations a thread can hold, and
`Final` which of them stand at its end.
-/

namespace MiniRtc

open Text Threads PeerConnection

/-- What an operation may leave to its thread. -/
inductive Makes : Operation → Operation → Prop
  | releaseReplaced {user msg init} (connection) :
      Makes (.replaceOrCreate user msg init) (.release connection)
  | initializeConnection {user msg init} (connection) :
      Makes (.replaceOrCreate user msg init) (.initialized user connection msg init)
  | retireFailed {user connection msg init} :
      Makes (.initialized user connection msg init) (.retire user connection .failed)
  | pushFirst {user connection msg init} :
      Makes (.initialized user connection msg init) (.push msg)
  | connecting {user connection msg init} :
      Makes (.initialized user connection msg init) (.report (some connection) .connecting)
  | reportRetired {user connection status} :
      Makes (.retire user connection status) (.report (some connection) status)
  | reportChecked {user connection status} :
      Makes (.checkCurrent user connection status) (.report (some connection) status)
  | reportCleared (connection) : Makes .clear (.report (some connection) .closed)
  | releaseCleared (connection) : Makes .clear (.release connection)
  | reportDestroyed (connection) : Makes (.destroy .clear) (.report (some connection) .closed)
  | releaseDestroyed (connection) : Makes (.destroy .clear) (.release connection)
  | destroy {stage} (later) : Makes (.destroy stage) (.destroy later)
  | cleanUp (connection) : Makes .wait (.release connection)
  | take (msg) : Makes .wait (.process msg)
  | again : Makes .wait .wait
  | leave : Makes .wait .exit
  | reportLeft {msg} (connection) : Makes (.process msg) (.report (some connection) .closed)
  | deliver {msg} (connection) : Makes (.process msg) (.deliver connection msg)

/-- The operations that a thread may hold. -/
def Operation.Allowed : Thread → Operation → Prop
  | .websocket, op =>
      match op with
      | .replaceOrCreate .. | .initialized .. | .retire .. | .report .. | .release .. | .push ..
      | .clear | .handled => True
      | _ => False
  | .iceWorker, op =>
      match op with
      | .wait | .exit | .process .. | .report .. | .release .. | .deliver .. => True
      | _ => False
  | .application _, op =>
      match op with
      | .clear | .report .. | .release .. | .destroy .. => True
      | _ => False
  | .transport _, op =>
      match op with
      | .retire .. | .checkCurrent .. | .report .. => True
      | _ => False

/-- The operations that end what a thread does, or start it over. -/
def Operation.Final : Operation → Prop
  | .wait | .exit | .handled | .destroy _ => True
  | _ => False

namespace PeerConnection

variable {s : PeerConnection} {t : Thread} {op new : Operation}

/-- Clearing the map makes reports and releases. -/
theorem clear_made (h : new ∈ s.clearPeerConnections.2) :
    ∃ connection, s.Current connection ∧
      (new = .report (some connection) .closed ∨ new = .release connection) := by
  unfold clearPeerConnections at h
  obtain ⟨connection, hin, hnew⟩ := List.mem_flatMap.mp h
  refine ⟨connection, by simpa using (List.mem_filter.mp hin).2, ?_⟩
  rcases List.mem_cons.mp hnew with hreport | hrelease
  · exact Or.inl hreport
  · exact Or.inr (List.mem_singleton.mp hrelease)

/-- What an operation leaves to its thread is in the list. -/
theorem makes_of_mem (h : new ∈ (exec s op).2) : Makes op new := by
  cases op with
  | replaceOrCreate user msg init =>
      rcases List.mem_append.mp h with hreplaced | hinit
      · obtain ⟨connection, -, rfl⟩ := List.mem_map.mp hreplaced
        exact .releaseReplaced connection
      · rw [List.mem_singleton.mp hinit]
        exact .initializeConnection _
  | initialized user connection msg init =>
      have hmade : new ∈ afterInit user connection msg init := h
      unfold afterInit at hmade
      split_ifs at hmade
      · rw [List.mem_singleton.mp hmade]
        exact .retireFailed
      · rcases List.mem_cons.mp hmade with rfl | hreport
        · exact .pushFirst
        · rw [List.mem_singleton.mp hreport]
          exact .connecting
      · rw [List.mem_singleton.mp hmade]
        exact .pushFirst
  | retire user connection status =>
      have hmade : new ∈ (s.retirePeerConnection user connection status).2 := h
      unfold retirePeerConnection at hmade
      split_ifs at hmade
      · rw [List.mem_singleton.mp hmade]
        exact .reportRetired
      · cases hmade
  | checkCurrent user connection status =>
      have hmade : new ∈ (if s.peerConnectionMap user = some connection then
        [Operation.report (some connection) status] else []) := h
      split_ifs at hmade
      · rw [List.mem_singleton.mp hmade]
        exact .reportChecked
      · cases hmade
  | clear =>
      obtain ⟨connection, -, rfl | rfl⟩ := clear_made (s := s) h
      · exact .reportCleared connection
      · exact .releaseCleared connection
  | wait =>
      have hmade : new ∈ s.waitForWork.2 := h
      unfold waitForWork at hmade
      split at hmade
      · rcases List.mem_cons.mp hmade with rfl | hwait
        · exact .cleanUp _
        · rw [List.mem_singleton.mp hwait]
          exact .again
      · split_ifs at hmade
        · rw [List.mem_singleton.mp hmade]
          exact .leave
        · split at hmade
          · rcases List.mem_cons.mp hmade with rfl | hwait
            · exact .take _
            · rw [List.mem_singleton.mp hwait]
              exact .again
          · rw [List.mem_singleton.mp hmade]
            exact .again
  | process msg =>
      have hmade : new ∈ (s.processIceWorkMsg msg).2 := h
      unfold processIceWorkMsg at hmade
      split at hmade
      · cases hmade
      · split at hmade
        · cases hmade
        · split at hmade
          · rcases List.mem_cons.mp hmade with rfl | hdeliver
            · exact .reportLeft _
            · rw [List.mem_singleton.mp hdeliver]
              exact .deliver _
          · rw [List.mem_singleton.mp hmade]
            exact .deliver _
  | destroy stage =>
      cases stage with
      | clear =>
          rcases List.mem_append.mp h with hcleared | hnext
          · obtain ⟨connection, -, rfl | rfl⟩ := clear_made (s := s) hcleared
            · exact .reportDestroyed connection
            · exact .releaseDestroyed connection
          · rw [List.mem_singleton.mp hnext]
            exact .destroy _
      | finish => cases h
      | _ =>
          rw [List.mem_singleton.mp h]
          exact .destroy _
  | _ => cases h

/-- A message that the worker has taken changes the map at most. -/
theorem process_state (s : PeerConnection) (msg : IceWorkMsg) :
    ∃ map, (s.processIceWorkMsg msg).1 = { s with peerConnectionMap := map } := by
  unfold processIceWorkMsg
  by_cases hempty : msg.remoteUserId = []
  · rw [if_pos hempty]
    exact ⟨_, rfl⟩
  · rw [if_neg hempty]
    cases s.peerConnectionMap msg.remoteUserId with
    | none => exact ⟨_, rfl⟩
    | some connection =>
        simp only
        split_ifs
        · exact ⟨_, rfl⟩
        · exact ⟨_, rfl⟩

/-- An operation only makes operations that its thread may hold. -/
theorem made_allowed (h : op.Allowed t) (hnew : new ∈ (exec s op).2) : new.Allowed t := by
  cases t <;> cases makes_of_mem hnew <;> first | exact trivial | exact h.elim

/-- Only final operations make final operations. -/
theorem made_not_final (h : ¬ op.Final) (hnew : new ∈ (exec s op).2) : ¬ new.Final := by
  cases makes_of_mem hnew <;> first | exact id | exact absurd trivial h

/-- What a final operation makes is final at its end only. -/
theorem closing_made (h : op.Final) : System.Closing Operation.Final (exec s op).2 := by
  cases op with
  | wait =>
      show System.Closing Operation.Final s.waitForWork.2
      unfold waitForWork
      split
      · exact ⟨fun hop => hop.elim, fun _ => rfl, trivial⟩
      · split
        · exact ⟨fun _ => rfl, trivial⟩
        · split
          · exact ⟨fun hop => hop.elim, fun _ => rfl, trivial⟩
          · exact ⟨fun _ => rfl, trivial⟩
  | exit => exact trivial
  | handled => exact trivial
  | destroy stage =>
      cases stage with
      | clear =>
          refine System.Closing.append (fun op hop => ?_) ⟨fun _ => rfl, trivial⟩
          obtain ⟨connection, -, rfl | rfl⟩ := clear_made (s := s) hop
          · exact id
          · exact id
      | finish => exact trivial
      | _ => exact ⟨fun _ => rfl, trivial⟩
  | _ => exact h.elim

end PeerConnection

namespace PeerSystem

open PeerConnection System

variable {s : PeerSystem} {a : PeerAction} {t : Thread} {shared : PeerConnection}
  {program : List Operation}

/-- What an idle thread is given to do, with the state in which it begins. -/
inductive Starts (s : PeerSystem) :
    PeerAction → Thread → PeerConnection → List Operation → Prop
  | signal (signal : Signal) (hopen : s.shared.shutdown = false) :
      Starts s (.signal signal) .websocket
        { s.shared with handling := true, arrived := s.shared.arrived ++ [signal] }
        (s.shared.processSignal signal ++ [.handled])
  | signalLost (hopen : s.shared.shutdown = false) :
      Starts s .signalLost .websocket { s.shared with handling := true } [.clear, .handled]
  | leave (n : Nat) : Starts s (.leave n) (.application n) s.shared [.clear]
  | destroy (n : Nat) (hfirst : s.shared.destroyCalled = false) :
      Starts s (.destroy n) (.application n) { s.shared with destroyCalled := true }
        [.destroy .clear]
  | status (n connection : Nat) (status : ConnectionStatus) {user : Text}
      (huser : s.shared.connections[connection]? = some user) :
      Starts s (.status n connection status) (.transport n) s.shared
        (statusProgram user connection status)

/-- A step changes nothing, gives an idle thread something to do, or performs the first operation
of a thread. -/
theorem step_cases (s : PeerSystem) (a : PeerAction) :
    step s a = s ∨
      (∃ t shared program, Starts s a t shared program ∧ s.todo t = [] ∧
        step s a = s.next t shared program []) ∨
      ∃ t op rest, a = .run t ∧ s.todo t = op :: rest ∧
        step s a = s.next t (exec s.shared op).1 (exec s.shared op).2 rest := by
  cases a with
  | signal signal =>
      by_cases h : s.todo .websocket = [] ∧ s.shared.shutdown = false
      · exact Or.inr (Or.inl ⟨_, _, _, .signal signal h.2, h.1, if_pos h⟩)
      · exact Or.inl (if_neg h)
  | signalLost =>
      by_cases h : s.todo .websocket = [] ∧ s.shared.shutdown = false
      · exact Or.inr (Or.inl ⟨_, _, _, .signalLost h.2, h.1, if_pos h⟩)
      · exact Or.inl (if_neg h)
  | leave n =>
      by_cases h : s.todo (.application n) = []
      · exact Or.inr (Or.inl ⟨_, _, _, .leave n, h, if_pos h⟩)
      · exact Or.inl (if_neg h)
  | destroy n =>
      by_cases h : s.todo (.application n) = [] ∧ s.shared.destroyCalled = false
      · exact Or.inr (Or.inl ⟨_, _, _, .destroy n h.2, h.1, if_pos h⟩)
      · exact Or.inl (if_neg h)
  | status n connection status =>
      cases huser : s.shared.connections[connection]? with
      | none => exact Or.inl (by simp only [step, huser])
      | some user =>
          by_cases h : s.todo (.transport n) = []
          · refine Or.inr (Or.inl ⟨_, _, _, .status n connection status huser, h, ?_⟩)
            simp only [step, huser, if_pos h]
            rfl
          · exact Or.inl (by simp only [step, huser, if_neg h])
  | run t =>
      cases h : s.todo t with
      | nil => exact Or.inl (perform_idle h)
      | cons op rest => exact Or.inr (Or.inr ⟨t, op, rest, rfl, h, perform_cons h⟩)

/-- The user for which an action creates a connection. -/
def created (s : PeerSystem) : PeerAction → Option Text
  | .run .websocket =>
      match s.todo .websocket with
      | .replaceOrCreate user _ _ :: _ => some user
      | _ => none
  | _ => none

theorem created_of_todo {user : Text} {msg : IceWorkMsg} {init : Bool}
    {rest : List Operation}
    (h : s.todo .websocket = .replaceOrCreate user msg init :: rest) :
    user ∈ s.created (.run .websocket) := by
  unfold created
  rw [h]
  rfl

/-- What a message of the signaling server makes the websocket do. -/
inductive SignalProgram (s : PeerConnection) : List Operation → Prop
  | ignored : SignalProgram s []
  | refused : SignalProgram s [.report none .failed]
  | created (user : Text) (msg : IceWorkMsg) (init : Bool) :
      SignalProgram s [.replaceOrCreate user msg init]
  | queued (msg : IceWorkMsg) : SignalProgram s [.push msg]
  | answered (user : Text) (msg : IceWorkMsg) :
      SignalProgram s [.push msg, .report (s.latest user) .connecting]

/-- A message of the signaling server has one of the programs. -/
theorem signal_program (s : PeerConnection) (signal : Signal) :
    SignalProgram s (s.processSignal signal) := by
  cases signal with
  | userJoinTransmission transmissionId user info init =>
      show SignalProgram s
        (if user = [] ∨ user = s.userId then [] else if info = false then _ else _)
      split_ifs
      · exact .ignored
      · exact .refused
      · exact .created ..
  | userLeaveTransmission user => exact .queued _
  | offer transmissionId user sdp info init =>
      cases sdp with
      | none => exact .ignored
      | some sdp =>
          show SignalProgram s (if user = [] then [] else if info = false then _ else _)
          split_ifs
          · exact .ignored
          · exact .refused
          · exact .created ..
  | answer transmissionId user sdp =>
      cases sdp with
      | none => exact .ignored
      | some sdp => exact .answered ..
  | newCandidate transmissionId user sdp ufrag =>
      simp only [PeerConnection.processSignal]
      split
      · exact .ignored
      · exact .queued _
  | newCandidateMid transmissionId user candidate mid ufrag =>
      simp only [PeerConnection.processSignal]
      split
      · exact .ignored
      · split_ifs
        · exact .ignored
        · exact .queued _

/-- The threads hold operations of their own, and they are closed. -/
structure Threaded (s : PeerSystem) : Prop where
  allowed : s.Everywhere fun t op => op.Allowed t
  closing : ∀ t, Closing Operation.Final (s.todo t)

/-- What is started belongs to its thread. -/
theorem starts_allowed (h : Starts s a t shared program) :
    (∀ op ∈ program, op.Allowed t) ∧ Closing Operation.Final program := by
  cases h with
  | signal signal =>
      have hprogram := signal_program s.shared signal
      generalize s.shared.processSignal signal = program at hprogram
      cases hprogram <;> simp [Operation.Allowed, Closing, Operation.Final]
  | signalLost => simp [Operation.Allowed, Closing, Operation.Final]
  | leave n => simp [Operation.Allowed, Closing]
  | destroy n => simp [Operation.Allowed, Closing]
  | status n connection status =>
      unfold statusProgram
      split <;> simp [Operation.Allowed, Closing]

theorem Threaded.step (h : s.Threaded) : (step s a).Threaded := by
  rcases step_cases s a with hsame | ⟨t, shared, program, hstarts, hidle, hstep⟩ |
    ⟨t, op, rest, -, htodo, hstep⟩
  · rw [hsame]
    exact h
  · rw [hstep]
    obtain ⟨hallowed, hclosing⟩ := starts_allowed hstarts
    exact
      { allowed := h.allowed.next (List.nil_suffix) hallowed
        closing := closing_next h.closing (by rwa [List.append_nil]) }
  · rw [hstep]
    have hop : op.Allowed t := h.allowed t op (by rw [htodo]; exact List.mem_cons_self)
    have hclosed : (op.Final → rest = []) ∧ Closing Operation.Final rest := by
      have hthread := h.closing t
      rwa [htodo] at hthread
    refine
      { allowed := h.allowed.next (rest_suffix htodo) fun new hnew => made_allowed hop hnew
        closing := closing_next h.closing ?_ }
    by_cases hfinal : op.Final
    · rw [hclosed.1 hfinal, List.append_nil]
      exact closing_made hfinal
    · exact Closing.append (fun new hnew => made_not_final hfinal hnew) hclosed.2

theorem threaded_start (userId : Text) : (start userId).Threaded where
  allowed := fun t op hop => by
    cases t with
    | iceWorker =>
        rw [List.mem_singleton.mp hop]
        trivial
    | _ => cases hop
  closing := fun t => by
    cases t with
    | iceWorker => exact ⟨fun _ => rfl, trivial⟩
    | _ => trivial

/-- In all runs, threads hold operations of their own. -/
theorem threaded_run (userId : Text) (actions : List PeerAction) :
    (actions.foldl PeerSystem.step (start userId)).Threaded :=
  List.foldlRecOn actions _ (threaded_start userId) fun _ hs _ _ => hs.step

end PeerSystem

end MiniRtc
