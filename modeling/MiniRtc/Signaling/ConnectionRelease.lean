import MiniRtc.Signaling.PeerMap

/-!
# The release of the connections

A connection that was created is in the map, it waits in the cleanup queue of the ICE worker, a
thread is about to release it, or it has been released: `Held` is the invariant of all runs, and
`tracked_exec` is its step. `Destroy` empties the map, ends the worker and waits for the websocket,
one after the other (`StageDone`). What it leaves behind is a connection that is created after the
map was emptied, or that a `Leave` on another thread has still to release: without these
(`CreatesBeforeClear`, `ReturnsAlone`), everything is released when `Destroy` returns.
-/

namespace MiniRtc

open Text Threads Run

namespace PeerConnection

variable {s : PeerConnection} {op new : Operation} {user : Text} {connection : Nat}

/-- `ReleaseAllIceTransmission` was called, or the connection has processed its leave. -/
def Released (s : PeerConnection) (connection : Nat) : Prop :=
  connection ∈ s.released ∨
    ∃ msg, (connection, msg) ∈ s.delivered ∧ msg.type = .userLeaveTransmission

/-- The operation releases the connection. -/
def Releases (connection : Nat) : Operation → Prop
  | .release other => other = connection
  | .deliver other msg => other = connection ∧ msg.type = .userLeaveTransmission
  | _ => False

/-- What is left of a connection after a step of its thread. -/
def Tracked (s : PeerConnection) (made : List Operation) (connection : Nat) : Prop :=
  s.Current connection ∨ connection ∈ s.terminalConnectionCleanupQueue ∨
    (∃ new ∈ made, Releases connection new) ∨ s.Released connection

/-! ## Operations keep track of connections -/

theorem released_exec (h : s.Released connection) (op : Operation) :
    (exec s op).1.Released connection := by
  cases op with
  | release other =>
      rcases h with hin | ⟨msg, hin, hleave⟩
      · exact Or.inl (List.mem_append_left _ hin)
      · exact Or.inr ⟨msg, hin, hleave⟩
  | deliver other given =>
      rcases h with hin | ⟨msg, hin, hleave⟩
      · exact Or.inl hin
      · exact Or.inr ⟨msg, List.mem_append_left _ hin, hleave⟩
  | retire user other status =>
      show (s.retirePeerConnection user other status).1.Released connection
      unfold retirePeerConnection
      split_ifs <;> exact h
  | wait =>
      show s.waitForWork.1.Released connection
      unfold waitForWork
      split
      · exact h
      · split_ifs
        · exact h
        · split <;> exact h
  | process msg =>
      show (s.processIceWorkMsg msg).1.Released connection
      unfold processIceWorkMsg
      split
      · exact h
      · split
        · exact h
        · split <;> exact h
  | destroy stage => cases stage <;> exact h
  | _ => exact h

/-- An operation that releases a connection has released it. -/
theorem released_of_releases (h : Releases connection op) :
    (exec s op).1.Released connection := by
  cases op with
  | release other =>
      rw [← (h : other = connection)]
      exact Or.inl (List.mem_append_right _ List.mem_cons_self)
  | deliver other msg =>
      obtain ⟨rfl, hleave⟩ := h
      exact Or.inr ⟨msg, List.mem_append_right _ List.mem_cons_self, hleave⟩
  | _ => exact h.elim

/-- The worker takes connections out of its queue to release them. -/
theorem tracked_queue (h : connection ∈ s.terminalConnectionCleanupQueue) (op : Operation) :
    (exec s op).1.Tracked (exec s op).2 connection := by
  cases op with
  | retire user other status =>
      show (s.retirePeerConnection user other status).1.Tracked _ connection
      unfold retirePeerConnection
      split_ifs
      · exact Or.inr (Or.inl (List.mem_append_left _ h))
      · exact Or.inr (Or.inl h)
  | wait =>
      show s.waitForWork.1.Tracked s.waitForWork.2 connection
      unfold waitForWork
      split
      · next first rest hqueue =>
          rw [hqueue] at h
          rcases List.mem_cons.mp h with rfl | hrest
          · exact Or.inr (Or.inr (Or.inl ⟨_, List.mem_cons_self, rfl⟩))
          · exact Or.inr (Or.inl hrest)
      · next hqueue =>
          rw [hqueue] at h
          cases h
  | process msg =>
      show (s.processIceWorkMsg msg).1.Tracked _ connection
      unfold processIceWorkMsg
      split
      · exact Or.inr (Or.inl h)
      · split
        · exact Or.inr (Or.inl h)
        · split <;> exact Or.inr (Or.inl h)
  | destroy stage => cases stage <;> exact Or.inr (Or.inl h)
  | _ => exact Or.inr (Or.inl h)

/-- A connection that is cleared is released. -/
theorem release_of_current (h : s.Current connection) :
    .release connection ∈ s.clearPeerConnections.2 := by
  have hin : connection ∈ s.current :=
    List.mem_filter.mpr ⟨List.mem_range.mpr (length_of_current h), decide_eq_true h⟩
  exact List.mem_flatMap.mpr ⟨connection, hin, List.mem_cons_of_mem _ List.mem_cons_self⟩

/-- A connection that leaves the map is released or queued for it. -/
theorem tracked_current (h : s.Current connection) (op : Operation) :
    (exec s op).1.Tracked (exec s op).2 connection := by
  obtain ⟨user, hin, hmap⟩ := h
  have hother : ∀ {other : Text}, other ≠ user → s.erased other user = some connection := by
    intro other hne
    unfold erased
    rwa [Function.update_of_ne hne.symm]
  cases op with
  | replaceOrCreate other msg init =>
      by_cases hsame : user = other
      · subst hsame
        refine Or.inr (Or.inr (Or.inl ⟨.release connection, ?_, rfl⟩))
        show _ ∈ (s.peerConnectionMap user).toList.map Operation.release ++ _
        rw [hmap]
        exact List.mem_append_left _ List.mem_cons_self
      · refine Or.inl ⟨user, ?_, ?_⟩
        · show (s.connections ++ [other])[connection]? = some user
          rw [List.getElem?_append_left (List.getElem?_eq_some_iff.mp hin).1]
          exact hin
        · show Function.update s.peerConnectionMap other _ user = some connection
          rwa [Function.update_of_ne hsame]
  | retire other retired status =>
      show (s.retirePeerConnection other retired status).1.Tracked _ connection
      unfold retirePeerConnection
      split_ifs with hretire
      · by_cases hsame : user = other
        · subst hsame
          rw [hretire.1] at hmap
          cases hmap
          exact Or.inr (Or.inl (List.mem_append_right _ List.mem_cons_self))
        · exact Or.inl ⟨user, hin, hother fun h => hsame h.symm⟩
      · exact Or.inl ⟨user, hin, hmap⟩
  | process msg =>
      show (s.processIceWorkMsg msg).1.Tracked (s.processIceWorkMsg msg).2 connection
      unfold processIceWorkMsg
      split
      · exact Or.inl ⟨user, hin, hmap⟩
      · split
        · exact Or.inl ⟨user, hin, hmap⟩
        · next left hleft =>
            split
            · next hleave =>
                by_cases hsame : user = msg.remoteUserId
                · rw [← hsame, hmap] at hleft
                  cases hleft
                  exact Or.inr (Or.inr (Or.inl
                    ⟨_, List.mem_cons_of_mem _ List.mem_cons_self, rfl, hleave⟩))
                · exact Or.inl ⟨user, hin, hother fun h => hsame h.symm⟩
            · exact Or.inl ⟨user, hin, hmap⟩
  | clear => exact Or.inr (Or.inr (Or.inl ⟨_, release_of_current ⟨user, hin, hmap⟩, rfl⟩))
  | wait =>
      obtain ⟨hsame, hconnections⟩ := s.wait_map
      refine Or.inl ⟨user, ?_, ?_⟩
      · show user ∈ s.waitForWork.1.connections[connection]?
        rwa [hconnections]
      · show s.waitForWork.1.peerConnectionMap user = some connection
        rwa [hsame]
  | destroy stage =>
      cases stage with
      | clear =>
          exact Or.inr (Or.inr (Or.inl
            ⟨_, List.mem_append_left _ (release_of_current ⟨user, hin, hmap⟩), rfl⟩))
      | _ => exact Or.inl ⟨user, hin, hmap⟩
  | _ => exact Or.inl ⟨user, hin, hmap⟩

/-- A connection that is created is in the map. -/
theorem current_of_created (hnew : s.connections.length ≤ connection)
    (hin : connection < (exec s op).1.connections.length) :
    (exec s op).1.Current connection := by
  cases map_change s op with
  | created user msg init =>
      have hlength : connection < (s.connections ++ [user]).length := hin
      rw [List.length_append, List.length_singleton] at hlength
      obtain rfl : connection = s.connections.length := by omega
      refine ⟨user, ?_, ?_⟩
      · show (s.connections ++ [user])[s.connections.length]? = some user
        exact List.getElem?_concat_length
      · show Function.update s.peerConnectionMap user (some s.connections.length) user = _
        exact Function.update_self _ _ _
  | kept _ hconnections | erased _ _ _ _ hconnections | cleared _ hconnections =>
      rw [hconnections] at hin
      omega

/-! ## What `Destroy` has done -/

/-- What has been done before a step of `Destroy`. -/
def StageDone : DestroyStage → PeerConnection → Prop
  | .clear, _ => True
  | .stopIceWorker, s | .joinIceWorker, s => s.destroyCleared = true
  | .shutdownWebsocket, s => s.destroyCleared = true ∧ s.iceWorkerExited = true
  | .joinWebsocket, s =>
      s.destroyCleared = true ∧ s.iceWorkerExited = true ∧ s.shutdown = true
  | .finish, s =>
      s.destroyCleared = true ∧ s.iceWorkerExited = true ∧ s.shutdown = true ∧ s.handling = false

/-- What has been done stays done. -/
structure Done (before after : PeerConnection) : Prop where
  cleared : before.destroyCleared = true → after.destroyCleared = true
  running : before.iceWorkerRunning = false → after.iceWorkerRunning = false
  exited : before.iceWorkerExited = true → after.iceWorkerExited = true
  shutdown : before.shutdown = true → after.shutdown = true
  handling : before.shutdown = true → before.handling = false → after.handling = false
  destroyed : before.destroyed = true → after.destroyed = true

theorem Done.stage {before after : PeerConnection} (h : Done before after) {stage : DestroyStage}
    (hstage : StageDone stage before) : StageDone stage after := by
  cases stage with
  | clear => trivial
  | stopIceWorker | joinIceWorker => exact h.cleared hstage
  | shutdownWebsocket => exact ⟨h.cleared hstage.1, h.exited hstage.2⟩
  | joinWebsocket =>
      obtain ⟨hcleared, hexited, hshutdown⟩ := hstage
      exact ⟨h.cleared hcleared, h.exited hexited, h.shutdown hshutdown⟩
  | finish =>
      obtain ⟨hcleared, hexited, hshutdown, hidle⟩ := hstage
      exact ⟨h.cleared hcleared, h.exited hexited, h.shutdown hshutdown, h.handling hshutdown hidle⟩

/-- The flags of `Destroy` and of the threads are the same. -/
structure SameFlags (before after : PeerConnection) : Prop where
  cleared : after.destroyCleared = before.destroyCleared
  running : after.iceWorkerRunning = before.iceWorkerRunning
  exited : after.iceWorkerExited = before.iceWorkerExited
  shutdown : after.shutdown = before.shutdown
  handling : after.handling = before.handling
  destroyed : after.destroyed = before.destroyed

theorem SameFlags.done {before after : PeerConnection} (h : SameFlags before after) :
    Done before after where
  cleared := h.cleared.trans
  running := h.running.trans
  exited := h.exited.trans
  shutdown := h.shutdown.trans
  handling := fun _ => h.handling.trans
  destroyed := h.destroyed.trans

/-- The operations that change flags: the steps of `Destroy` and the ends of threads. -/
def SetsFlags : Operation → Prop
  | .exit | .handled | .destroy _ => True
  | _ => False

theorem flags_kept (h : ¬ SetsFlags op) : SameFlags s (exec s op).1 := by
  cases op with
  | retire user other status =>
      show SameFlags s (s.retirePeerConnection user other status).1
      unfold retirePeerConnection
      split_ifs <;> exact ⟨rfl, rfl, rfl, rfl, rfl, rfl⟩
  | wait =>
      show SameFlags s s.waitForWork.1
      unfold waitForWork
      split
      · exact ⟨rfl, rfl, rfl, rfl, rfl, rfl⟩
      · split_ifs
        · exact ⟨rfl, rfl, rfl, rfl, rfl, rfl⟩
        · split <;> exact ⟨rfl, rfl, rfl, rfl, rfl, rfl⟩
  | process msg =>
      show SameFlags s (s.processIceWorkMsg msg).1
      unfold processIceWorkMsg
      split
      · exact ⟨rfl, rfl, rfl, rfl, rfl, rfl⟩
      · split
        · exact ⟨rfl, rfl, rfl, rfl, rfl, rfl⟩
        · split <;> exact ⟨rfl, rfl, rfl, rfl, rfl, rfl⟩
  | exit | handled | destroy => exact absurd trivial h
  | _ => exact ⟨rfl, rfl, rfl, rfl, rfl, rfl⟩

theorem done_exec (s : PeerConnection) (op : Operation) : Done s (exec s op).1 := by
  cases op with
  | exit => exact ⟨id, id, fun _ => rfl, id, fun _ => id, id⟩
  | handled => exact ⟨id, id, id, id, fun _ _ => rfl, id⟩
  | destroy stage =>
      cases stage with
      | clear => exact ⟨fun _ => rfl, id, id, id, fun _ => id, id⟩
      | stopIceWorker => exact ⟨id, fun _ => rfl, id, id, fun _ => id, id⟩
      | shutdownWebsocket => exact ⟨id, id, id, fun _ => rfl, fun _ => id, id⟩
      | finish => exact ⟨id, id, id, id, fun _ => id, fun _ => rfl⟩
      | joinIceWorker | joinWebsocket => exact ⟨id, id, id, id, fun _ => id, id⟩
  | _ => exact (flags_kept id).done

/-- Only the end of the worker says that it has ended. -/
theorem exited_kept (h : op ≠ .exit) :
    (exec s op).1.iceWorkerExited = s.iceWorkerExited := by
  cases op with
  | exit => exact absurd rfl h
  | destroy stage => cases stage <;> rfl
  | handled => rfl
  | _ => exact (flags_kept id).exited

/-- Only the end of a handler says that the websocket is idle. -/
theorem handling_kept (h : op ≠ .handled) : (exec s op).1.handling = s.handling := by
  cases op with
  | handled => exact absurd rfl h
  | destroy stage => cases stage <;> rfl
  | exit => rfl
  | _ => exact (flags_kept id).handling

/-- Only the first step of `Destroy` says that it has emptied the map. -/
theorem cleared_kept (h : op ≠ .destroy .clear) :
    (exec s op).1.destroyCleared = s.destroyCleared := by
  cases op with
  | destroy stage =>
      cases stage with
      | clear => exact absurd rfl h
      | _ => rfl
  | exit | handled => rfl
  | _ => exact (flags_kept id).cleared

/-- Only the last step of `Destroy` says that it has returned. -/
theorem destroyed_kept (h : op ≠ .destroy .finish) :
    (exec s op).1.destroyed = s.destroyed := by
  cases op with
  | destroy stage =>
      cases stage with
      | finish => exact absurd rfl h
      | _ => rfl
  | exit | handled => rfl
  | _ => exact (flags_kept id).destroyed

/-- Nothing is queued for a worker that does not run. -/
theorem cleanup_kept (hrunning : s.iceWorkerRunning = false)
    (hempty : s.terminalConnectionCleanupQueue = []) (op : Operation) :
    (exec s op).1.terminalConnectionCleanupQueue = [] := by
  cases op with
  | retire user other status =>
      show (s.retirePeerConnection user other status).1.terminalConnectionCleanupQueue = []
      unfold retirePeerConnection
      rw [if_neg fun h => by rw [hrunning] at h; cases h.2]
      exact hempty
  | wait =>
      show s.waitForWork.1.terminalConnectionCleanupQueue = []
      unfold waitForWork
      split
      · next hqueue =>
          rw [hempty] at hqueue
          cases hqueue
      · rw [if_pos hrunning]
        exact hempty
  | process msg =>
      obtain ⟨map, hstate⟩ := process_state s msg
      show (s.processIceWorkMsg msg).1.terminalConnectionCleanupQueue = []
      rw [hstate]
      exact hempty
  | destroy stage => cases stage <;> exact hempty
  | _ => exact hempty

/-- The worker decides to end when it does not run and nothing is queued. -/
theorem exit_made (h : .exit ∈ (exec s op).2) :
    (exec s op).1.iceWorkerRunning = false ∧
      (exec s op).1.terminalConnectionCleanupQueue = [] := by
  cases makes_of_mem h with
  | leave =>
      have hmade : Operation.exit ∈ s.waitForWork.2 := h
      show s.waitForWork.1.iceWorkerRunning = false ∧
        s.waitForWork.1.terminalConnectionCleanupQueue = []
      unfold waitForWork at hmade ⊢
      split at hmade
      · simp at hmade
      · next hqueue =>
          split_ifs at hmade with hrunning
          · rw [hqueue, if_pos hrunning]
            exact ⟨hrunning, hqueue⟩
          · split at hmade <;> simp at hmade

/-- The next step of `Destroy` comes when this one is done. -/
theorem stage_made {stage later : DestroyStage} (h : StageDone stage s)
    (hnew : .destroy later ∈ (exec s (.destroy stage)).2) :
    StageDone later (exec s (.destroy stage)).1 := by
  cases stage with
  | clear =>
      rcases List.mem_append.mp hnew with hcleared | hnext
      · obtain ⟨connection, -, hreport | hrelease⟩ := clear_made hcleared
        · cases hreport
        · cases hrelease
      · cases List.mem_singleton.mp hnext
        rfl
  | stopIceWorker =>
      cases List.mem_singleton.mp hnew
      exact h
  | joinIceWorker =>
      have hlater := List.mem_singleton.mp hnew
      cases hexited : s.iceWorkerExited with
      | true =>
          rw [hexited] at hlater
          cases hlater
          exact ⟨h, hexited⟩
      | false =>
          rw [hexited] at hlater
          cases hlater
          exact h
  | shutdownWebsocket =>
      cases List.mem_singleton.mp hnew
      exact ⟨h.1, h.2, rfl⟩
  | joinWebsocket =>
      have hlater := List.mem_singleton.mp hnew
      cases hhandling : s.handling with
      | true =>
          rw [hhandling] at hlater
          cases hlater
          exact h
      | false =>
          rw [hhandling] at hlater
          cases hlater
          exact ⟨h.1, h.2.1, h.2.2, hhandling⟩
  | finish => cases hnew

end PeerConnection

namespace PeerSystem

open PeerConnection System

variable {userId : Text} {s : PeerSystem} {a : PeerAction} {t : Thread} {op : Operation}
  {rest made : List Operation} {shared : PeerConnection} {connection : Nat}

/-- The connection is in the map, it is queued for its release, a thread is about to release it, or
it has been released. -/
def Held (s : PeerSystem) (connection : Nat) : Prop :=
  s.shared.Current connection ∨ connection ∈ s.shared.terminalConnectionCleanupQueue ∨
    s.Pending (Releases connection) ∨ s.shared.Released connection

/-- The invariant of all runs. -/
structure Kept (s : PeerSystem) : Prop where
  threaded : s.Threaded
  placed : s.shared.Placed
  held : ∀ connection < s.shared.connections.length, s.Held connection
  exiting : s.shared.iceWorkerExited = true ∨ .exit ∈ s.todo .iceWorker →
    s.shared.iceWorkerRunning = false ∧ s.shared.terminalConnectionCleanupQueue = []
  exited : s.shared.iceWorkerExited = true → s.todo .iceWorker = []
  idle : s.shared.handling = false → s.todo .websocket = []
  stages : ∀ t stage, .destroy stage ∈ s.todo t → StageDone stage s.shared

/-! ## Steps of all runs -/

theorem held_of_tracked (h : shared.Tracked made connection) :
    Held (s.next t shared made rest) connection := by
  rcases h with hcurrent | hqueued | ⟨new, hnew, hreleases⟩ | hreleased
  · exact Or.inl hcurrent
  · exact Or.inr (Or.inl hqueued)
  · exact Or.inr (Or.inr (Or.inl ⟨t, new, mem_todo_made hnew, hreleases⟩))
  · exact Or.inr (Or.inr (Or.inr hreleased))

/-- An operation keeps all connections held. -/
theorem held_exec (hs : s.Kept) (htodo : s.todo t = op :: rest)
    (hin : connection < (exec s.shared op).1.connections.length) :
    Held (s.next t (exec s.shared op).1 (exec s.shared op).2 rest) connection := by
  by_cases hold : connection < s.shared.connections.length
  · rcases hs.held connection hold with hcurrent | hqueued | ⟨u, old, hin, hreleases⟩ | hreleased
    · exact held_of_tracked (tracked_current hcurrent op)
    · exact held_of_tracked (tracked_queue hqueued op)
    · by_cases hsame : old = op
      · rw [hsame] at hreleases
        exact held_of_tracked (Or.inr (Or.inr (Or.inr (released_of_releases hreleases))))
      · exact Or.inr (Or.inr (Or.inl ⟨u, old, mem_todo_kept htodo hsame hin, hreleases⟩))
    · exact held_of_tracked (Or.inr (Or.inr (Or.inr (released_exec hreleased op))))
  · exact Or.inl (current_of_created (Nat.le_of_not_lt hold) hin)

/-- Once the worker ends, nothing is queued for it. -/
theorem exiting_exec (hs : s.Kept) (htodo : s.todo t = op :: rest)
    (h : (exec s.shared op).1.iceWorkerExited = true ∨
      .exit ∈ (s.next t (exec s.shared op).1 (exec s.shared op).2 rest).todo .iceWorker) :
    (exec s.shared op).1.iceWorkerRunning = false ∧
      (exec s.shared op).1.terminalConnectionCleanupQueue = [] := by
  have hin : op ∈ s.todo t := by
    rw [htodo]
    exact List.mem_cons_self
  have hended : s.shared.iceWorkerExited = true ∨ .exit ∈ s.todo .iceWorker →
      (exec s.shared op).1.iceWorkerRunning = false ∧
        (exec s.shared op).1.terminalConnectionCleanupQueue = [] := by
    intro hbefore
    obtain ⟨hrunning, hempty⟩ := hs.exiting hbefore
    exact ⟨(done_exec s.shared op).running hrunning, cleanup_kept hrunning hempty op⟩
  rcases h with hexited | hexit
  · by_cases hop : op = .exit
    · subst hop
      have hallowed := hs.threaded.allowed t _ hin
      cases t with
      | iceWorker => exact hended (Or.inr hin)
      | _ => exact hallowed.elim
    · rw [exited_kept hop] at hexited
      exact hended (Or.inl hexited)
  · rcases mem_todo_next (rest_suffix htodo) hexit with hold | ⟨-, hnew⟩
    · exact hended (Or.inr hold)
    · exact exit_made hnew

/-- The worker has nothing to do after its end. -/
theorem exited_exec (hs : s.Kept) (htodo : s.todo t = op :: rest)
    (h : (exec s.shared op).1.iceWorkerExited = true) :
    (s.next t (exec s.shared op).1 (exec s.shared op).2 rest).todo .iceWorker = [] := by
  have hin : op ∈ s.todo t := by
    rw [htodo]
    exact List.mem_cons_self
  have hallowed := hs.threaded.allowed t op hin
  have hclosing := hs.threaded.closing t
  rw [htodo] at hclosing
  by_cases hexit : op = .exit
  · subst hexit
    cases t with
    | iceWorker =>
        rw [todo_next_self, hclosing.1 trivial]
        rfl
    | _ => exact hallowed.elim
  · rw [exited_kept hexit] at h
    have hidle := hs.exited h
    by_cases hworker : t = .iceWorker
    · rw [hworker, hidle] at htodo
      cases htodo
    · rw [todo_next_other (Ne.symm hworker)]
      exact hidle

/-- The websocket has nothing to do outside its handlers. -/
theorem idle_exec (hs : s.Kept) (htodo : s.todo t = op :: rest)
    (h : (exec s.shared op).1.handling = false) :
    (s.next t (exec s.shared op).1 (exec s.shared op).2 rest).todo .websocket = [] := by
  have hin : op ∈ s.todo t := by
    rw [htodo]
    exact List.mem_cons_self
  have hallowed := hs.threaded.allowed t op hin
  have hclosing := hs.threaded.closing t
  rw [htodo] at hclosing
  by_cases hhandled : op = .handled
  · subst hhandled
    cases t with
    | websocket =>
        rw [todo_next_self, hclosing.1 trivial]
        rfl
    | _ => exact hallowed.elim
  · rw [handling_kept hhandled] at h
    have hidle := hs.idle h
    by_cases hwebsocket : t = .websocket
    · rw [hwebsocket, hidle] at htodo
      cases htodo
    · rw [todo_next_other (Ne.symm hwebsocket)]
      exact hidle

/-- The steps of `Destroy` come one after the other. -/
theorem stages_exec (hs : s.Kept) (htodo : s.todo t = op :: rest) (u : Thread)
    (stage : DestroyStage)
    (h : .destroy stage ∈ (s.next t (exec s.shared op).1 (exec s.shared op).2 rest).todo u) :
    StageDone stage (exec s.shared op).1 := by
  rcases mem_todo_next (rest_suffix htodo) h with hold | ⟨-, hnew⟩
  · exact (done_exec s.shared op).stage (hs.stages u stage hold)
  · have hmakes := makes_of_mem hnew
    cases op with
    | destroy earlier =>
        have hin : .destroy earlier ∈ s.todo t := by
          rw [htodo]
          exact List.mem_cons_self
        exact stage_made (hs.stages t earlier hin) hnew
    | _ => cases hmakes

/-- What is started changes neither the map nor the queues. Only a handler of the websocket, which
is not shut down, is marked as such. -/
structure Begun (before after : PeerConnection) (t : Thread) (program : List Operation) : Prop where
  state : ∃ handling arrived called, after =
    { before with handling := handling, arrived := arrived, destroyCalled := called }
  handling : (t ≠ .websocket ∧ after.handling = before.handling) ∨
    (t = .websocket ∧ after.handling = true ∧ before.shutdown = false)
  stages : ∀ stage, .destroy stage ∈ program → stage = .clear
  worker : t ≠ .iceWorker

theorem starts_begun {program : List Operation} (h : Starts s a t shared program) :
    Begun s.shared shared t program := by
  cases h with
  | signal signal hopen =>
      refine ⟨⟨_, _, _, rfl⟩, Or.inr ⟨rfl, rfl, hopen⟩, fun stage hin => ?_, by simp⟩
      have hprogram := signal_program s.shared signal
      generalize s.shared.processSignal signal = program at hprogram hin
      cases hprogram <;> simp at hin
  | signalLost hopen =>
      exact ⟨⟨_, _, _, rfl⟩, Or.inr ⟨rfl, rfl, hopen⟩, by simp, by simp⟩
  | leave n => exact ⟨⟨_, _, _, rfl⟩, Or.inl ⟨by simp, rfl⟩, by simp, by simp⟩
  | destroy n hfirst => exact ⟨⟨_, _, _, rfl⟩, Or.inl ⟨by simp, rfl⟩, by simp, by simp⟩
  | status n other status huser =>
      refine ⟨⟨_, _, _, rfl⟩, Or.inl ⟨by simp, rfl⟩, fun stage hin => ?_, by simp⟩
      unfold statusProgram at hin
      split at hin <;> simp at hin

theorem Begun.done {program : List Operation} (h : Begun s.shared shared t program) :
    Done s.shared shared := by
  have hhandling := h.handling
  obtain ⟨handling, arrived, called, rfl⟩ := h.state
  refine ⟨id, id, id, id, fun hshutdown hidle => ?_, id⟩
  rcases hhandling with ⟨-, hsame⟩ | ⟨-, -, hopen⟩
  · exact hsame.trans hidle
  · rw [hopen] at hshutdown
    cases hshutdown

/-- What an idle thread is given leaves what the others have to do. -/
theorem pending_of_idle {p : Operation → Prop} (hidle : s.todo t = []) (h : s.Pending p) :
    Pending p (s.next t shared made []) := by
  obtain ⟨u, old, hin, hold⟩ := h
  have hut : u ≠ t := by
    intro hsame
    rw [hsame, hidle] at hin
    cases hin
  refine ⟨u, old, ?_, hold⟩
  rwa [todo_next_other hut]

theorem kept_begun (hs : s.Kept) {program : List Operation} (hidle : s.todo t = [])
    (h : Begun s.shared shared t program) (hthreaded : Threaded (s.next t shared program [])) :
    Kept (s.next t shared program []) := by
  have hdone := h.done
  have hhandling := h.handling
  obtain ⟨handling, arrived, called, rfl⟩ := h.state
  have hworker : ∀ {shared : PeerConnection},
      (s.next t shared program []).todo .iceWorker = s.todo .iceWorker :=
    todo_next_other h.worker.symm
  exact
    { threaded := hthreaded
      placed := hs.placed
      held := fun connection hin => by
        rcases hs.held connection hin with hcurrent | hqueued | hpending | hreleased
        · exact Or.inl hcurrent
        · exact Or.inr (Or.inl hqueued)
        · exact Or.inr (Or.inr (Or.inl (pending_of_idle hidle hpending)))
        · exact Or.inr (Or.inr (Or.inr hreleased))
      exiting := fun hexit => by
        rw [hworker] at hexit
        exact hs.exiting hexit
      exited := fun hexited => by
        rw [hworker]
        exact hs.exited hexited
      idle := fun hnot => by
        rcases hhandling with ⟨hother, hsame⟩ | ⟨-, hbusy, -⟩
        · rw [todo_next_other hother.symm]
          exact hs.idle (hsame.symm.trans hnot)
        · exact absurd (hbusy.symm.trans hnot) (by decide)
      stages := fun u stage hin => by
        rcases mem_todo_next List.nil_suffix hin with hold | ⟨-, hnew⟩
        · exact hdone.stage (hs.stages u stage hold)
        · rw [h.stages stage hnew]
          trivial }

theorem kept_step (hs : s.Kept) (a : PeerAction) : (step s a).Kept := by
  have hthreaded := hs.threaded.step (a := a)
  rcases step_cases s a with hsame | ⟨t, shared, program, hstarts, hidle, hstep⟩ |
    ⟨t, op, rest, rfl, htodo, hstep⟩
  · rw [hsame]
    exact hs
  · rw [hstep] at hthreaded ⊢
    exact kept_begun hs hidle (starts_begun hstarts) hthreaded
  · rw [hstep] at hthreaded ⊢
    exact
      { threaded := hthreaded
        placed := placed_exec hs.placed op
        held := fun connection hin => held_exec hs htodo hin
        exiting := fun h => exiting_exec hs htodo h
        exited := fun h => exited_exec hs htodo h
        idle := fun h => idle_exec hs htodo h
        stages := fun u stage h => stages_exec hs htodo u stage h }

theorem kept_start (userId : Text) : (start userId).Kept where
  threaded := threaded_start userId
  placed := fun user connection h => by cases h
  held := fun connection hin => absurd hin (Nat.not_lt_zero _)
  exiting := fun h => by
    rcases h with hexited | hexit
    · cases hexited
    · cases List.mem_singleton.mp hexit
  exited := fun h => by cases h
  idle := fun _ => rfl
  stages := fun t stage hin => by
    cases t with
    | iceWorker => cases List.mem_singleton.mp hin
    | _ => cases hin

/-! ## What `Destroy` leaves behind -/

/-- No connection is created after `Destroy` has emptied the map. -/
def CreatesBeforeClear (s : PeerSystem) (a : PeerAction) : Prop :=
  ∀ user ∈ s.created a, s.shared.destroyCleared = false

instance (s : PeerSystem) (a : PeerAction) : Decidable (s.CreatesBeforeClear a) :=
  inferInstanceAs (Decidable (∀ user ∈ s.created a, s.shared.destroyCleared = false))

/-- When `Destroy` returns, no other thread of the application has still to release connections. -/
def ReturnsAlone (s : PeerSystem) (a : PeerAction) : Prop :=
  ∀ t rest, a = .run t → s.todo t = .destroy .finish :: rest →
    ∀ n connection, .release connection ∉ s.todo (.application n)

/-- What holds after the steps of `Destroy`. -/
structure Cleaned (s : PeerSystem) : Prop where
  kept : s.Kept
  cleared : s.shared.destroyCleared = true → ∀ user, s.shared.peerConnectionMap user = none
  released : s.shared.destroyed = true → s.shared.destroyCleared = true ∧
    ∀ connection < s.shared.connections.length, s.shared.Released connection

theorem cleared_exec (hs : s.Cleaned) (htodo : s.todo t = op :: rest)
    (hcreates : s.CreatesBeforeClear (.run t)) (h : (exec s.shared op).1.destroyCleared = true)
    (user : Text) : (exec s.shared op).1.peerConnectionMap user = none := by
  by_cases hclear : op = .destroy .clear
  · subst hclear
    rfl
  · rw [cleared_kept hclear] at h
    have hempty := hs.cleared h
    have hin : op ∈ s.todo t := by
      rw [htodo]
      exact List.mem_cons_self
    have hallowed := hs.kept.threaded.allowed t op hin
    cases map_change s.shared op with
    | kept hmap => rw [hmap]; exact hempty user
    | created other msg init =>
        cases t with
        | websocket =>
            rw [hcreates other (created_of_todo htodo)] at h
            cases h
        | _ => exact hallowed.elim
    | erased other connection hcurrent =>
        rw [hempty other] at hcurrent
        cases hcurrent
    | cleared hmap => rw [hmap]

/-- When the last step of `Destroy` is performed, all threads but those of other calls are idle, so
nothing is held any more. -/
theorem released_finish (hs : s.Cleaned) (htodo : s.todo t = .destroy .finish :: rest)
    (hreturns : s.ReturnsAlone (.run t)) (hin : connection < s.shared.connections.length) :
    s.shared.Released connection := by
  have hfinish : .destroy .finish ∈ s.todo t := by
    rw [htodo]
    exact List.mem_cons_self
  obtain ⟨hcleared, hexited, -, hidle⟩ := hs.kept.stages t .finish hfinish
  rcases hs.kept.held connection hin with ⟨user, -, hcurrent⟩ | hqueued | ⟨u, old, hold, hreleases⟩ |
    hreleased
  · rw [hs.cleared hcleared user] at hcurrent
    cases hcurrent
  · rw [(hs.kept.exiting (Or.inl hexited)).2] at hqueued
    cases hqueued
  · have hallowed := hs.kept.threaded.allowed u old hold
    cases u with
    | websocket =>
        rw [hs.kept.idle hidle] at hold
        cases hold
    | iceWorker =>
        rw [hs.kept.exited hexited] at hold
        cases hold
    | application n =>
        cases old with
        | release other =>
            rw [(hreleases : other = connection)] at hold
            exact absurd hold (hreturns t rest rfl htodo n connection)
        | deliver => exact hallowed.elim
        | _ => exact hreleases.elim
    | transport n =>
        cases old with
        | release => exact hallowed.elim
        | deliver => exact hallowed.elim
        | _ => exact hreleases.elim
  · exact hreleased

theorem cleaned_step (hs : s.Cleaned) (hcreates : s.CreatesBeforeClear a)
    (hreturns : s.ReturnsAlone a) : (step s a).Cleaned := by
  have hkept := kept_step hs.kept a
  rcases step_cases s a with hsame | ⟨t, shared, program, hstarts, hidle, hstep⟩ |
    ⟨t, op, rest, rfl, htodo, hstep⟩
  · rw [hsame]
    exact hs
  · rw [hstep] at hkept ⊢
    obtain ⟨handling, arrived, called, rfl⟩ := (starts_begun hstarts).state
    exact
      { kept := hkept
        cleared := hs.cleared
        released := hs.released }
  · rw [hstep] at hkept ⊢
    have hcleared : (exec s.shared op).1.destroyCleared = true → ∀ user,
        (exec s.shared op).1.peerConnectionMap user = none :=
      fun h => cleared_exec hs htodo hcreates h
    -- A connection that is created now would be in the map.
    have hold : (exec s.shared op).1.destroyCleared = true →
        ∀ connection < (exec s.shared op).1.connections.length,
          connection < s.shared.connections.length := by
      intro hdone connection hin
      by_contra hnew
      obtain ⟨user, -, hcurrent⟩ := current_of_created (Nat.le_of_not_lt hnew) hin
      rw [hcleared hdone user] at hcurrent
      cases hcurrent
    refine
      { kept := hkept
        cleared := hcleared
        released := fun hdestroyed => ?_ }
    by_cases hfinish : op = .destroy .finish
    · subst hfinish
      have hdone : s.shared.destroyCleared = true :=
        (hs.kept.stages t .finish (by rw [htodo]; exact List.mem_cons_self)).1
      exact ⟨hdone, fun connection hin =>
        released_exec (released_finish hs htodo hreturns hin) (.destroy .finish)⟩
    · have hbefore : s.shared.destroyed = true := (destroyed_kept hfinish).symm.trans hdestroyed
      obtain ⟨hdone, hreleased⟩ := hs.released hbefore
      have hdone' := (done_exec s.shared op).cleared hdone
      exact ⟨hdone', fun connection hin =>
        released_exec (hreleased connection (hold hdone' connection hin)) op⟩

theorem cleaned_start (userId : Text) : (start userId).Cleaned where
  kept := kept_start userId
  cleared := fun h => by cases h
  released := fun h => by cases h

/-! ## One thread of the application -/

/-- `Leave` and `Destroy` are called on one thread only. -/
def OnlyThread (n : Nat) (a : PeerAction) : Prop :=
  ∀ m, a = .leave m ∨ a = .destroy m → m = n

theorem only_thread_step {n : Nat} (hs : ∀ m, m ≠ n → s.todo (.application m) = [])
    (ha : OnlyThread n a) (m : Nat) (hm : m ≠ n) : (step s a).todo (.application m) = [] := by
  rcases step_cases s a with hsame | ⟨t, shared, program, hstarts, hidle, hstep⟩ |
    ⟨t, op, rest, rfl, htodo, hstep⟩
  · rw [hsame]
    exact hs m hm
  · rw [hstep]
    have hother : Thread.application m ≠ t := by
      intro hthread
      cases hstarts with
      | leave k =>
          cases hthread
          exact hm (ha m (Or.inl rfl))
      | destroy k =>
          cases hthread
          exact hm (ha m (Or.inr rfl))
      | signal | signalLost | status => cases hthread
    rw [todo_next_other hother]
    exact hs m hm
  · rw [hstep]
    have hother : Thread.application m ≠ t := by
      intro hthread
      rw [← hthread, hs m hm] at htodo
      cases htodo
    rw [todo_next_other hother]
    exact hs m hm

/-- When the application uses one thread, `Destroy` returns alone. -/
theorem returns_alone_of_only_thread {n : Nat} {actions : List PeerAction}
    (h : ∀ a ∈ actions, OnlyThread n a) :
    Along step ReturnsAlone (start userId) actions := by
  refine (along_of_forall h).imp
    (I := fun s : PeerSystem => s.Threaded ∧ ∀ m, m ≠ n → s.todo (.application m) = [])
    (fun s a hs ha => ⟨hs.1.step, only_thread_step hs.2 ha⟩) ?_
    ⟨threaded_start userId, fun m _ => rfl⟩
  intro s a hs _ t rest _ htodo m connection hrelease
  have hin : .destroy .finish ∈ s.todo t := by
    rw [htodo]
    exact List.mem_cons_self
  by_cases hm : m = n
  · subst hm
    have hallowed := hs.1.allowed t _ hin
    have hclosing := hs.1.closing t
    rw [htodo] at hclosing
    cases t with
    | application k =>
        by_cases hk : k = m
        · subst hk
          rw [htodo, hclosing.1 trivial] at hrelease
          cases List.mem_singleton.mp hrelease
        · rw [hs.2 k hk] at hin
          cases hin
    | _ => exact hallowed.elim
  · rw [hs.2 m hm] at hrelease
    cases hrelease

/-! ## Runs to the end of `Destroy` -/

/-- In every run in which no connection is created after the map was emptied, and in which no other
thread has still to release connections when `Destroy` returns: once `Destroy` has returned, all
connections have been released and none is in the map. Nothing is queued for a worker that has
ended. -/
theorem nothing_leaks {userId : Text} {actions : List PeerAction}
    (hcreates : Along step CreatesBeforeClear (start userId) actions)
    (hreturns : Along step ReturnsAlone (start userId) actions) :
    ((actions.foldl step (start userId)).shared.destroyed = true →
      ∀ connection < (actions.foldl step (start userId)).shared.connections.length,
        (actions.foldl step (start userId)).shared.Released connection ∧
          ¬ (actions.foldl step (start userId)).shared.Current connection) ∧
      ((actions.foldl step (start userId)).shared.iceWorkerExited = true →
        (actions.foldl step (start userId)).shared.terminalConnectionCleanupQueue = []) := by
  have hs := (hcreates.and hreturns).invariant (I := Cleaned)
    (fun s a hs h => cleaned_step hs h.1 h.2) (cleaned_start userId)
  generalize actions.foldl step (start userId) = s at hs
  refine ⟨fun hdestroyed connection hin => ?_, fun hexited => ?_⟩
  · obtain ⟨hdone, hreleased⟩ := hs.released hdestroyed
    refine ⟨hreleased connection hin, fun ⟨user, _, hcurrent⟩ => ?_⟩
    rw [hs.cleared hdone user] at hcurrent
    cases hcurrent
  · exact (hs.kept.exiting (Or.inl hexited)).2

/-- A user joins before `Destroy` is called, or it joins `late`, when the map has been emptied. -/
def joinAndDestroy (late : Bool) : List PeerAction :=
  let join := .signal (.userJoinTransmission ['t'] ['b'] true true) ::
    List.replicate 4 (PeerAction.run .websocket)
  let goOn := fun n => List.replicate n (PeerAction.run (.application 0))
  (if late then [] else join) ++ .destroy 0 :: goOn (if late then 2 else 4) ++
    (if late then join else []) ++ List.replicate 2 (PeerAction.run .iceWorker) ++ goOn 4

/-- A connection that was there before is released. -/
theorem nothing_leaks_before :
    ((joinAndDestroy false).foldl step (start ['a'])).shared.Released 0 ∧
      ¬ ((joinAndDestroy false).foldl step (start ['a'])).shared.Current 0 :=
  (nothing_leaks (by decide)
    (returns_alone_of_only_thread fun a ha m hm => by
      simp [joinAndDestroy] at ha
      rcases hm with rfl | rfl
      · simp at ha
      · simpa using ha)).1 (by decide) 0 (by decide)

/-- A connection that is created between the first and the fourth step of `Destroy` stays in the
map, and nobody releases it. -/
theorem nothing_leaks_fails :
    ((joinAndDestroy true).foldl step (start ['a'])).shared.destroyed = true ∧
      0 < ((joinAndDestroy true).foldl step (start ['a'])).shared.connections.length ∧
      ((joinAndDestroy true).foldl step (start ['a'])).shared.Current 0 ∧
      ¬ ((joinAndDestroy true).foldl step (start ['a'])).shared.Released 0 := by
  have hreleased : ((joinAndDestroy true).foldl step (start ['a'])).shared.released = [] := by
    decide
  have hdelivered : ((joinAndDestroy true).foldl step (start ['a'])).shared.delivered = [] := by
    decide
  refine ⟨by decide, by decide, by decide, ?_⟩
  rintro (hin | ⟨msg, hin, -⟩)
  · rw [hreleased] at hin
    cases hin
  · rw [hdelivered] at hin
    cases hin

end PeerSystem

end MiniRtc
