import MiniRtc.Signaling.PeerThreads

/-!
# The order of the signaling messages

Connections are created while a message is handled, but the ICE worker looks the connection of a
message up only when it takes the message from its queue. `Settled` is the purpose: the connections
when each message has its whole effect before the next one arrives. `settled` applies to the state
of the peer what its two threads have still to do. A step keeps it, and an arrival adds the effect
of its message (`settles_step`), as long as no message is left for a user when the connection of
that user is replaced (`NoMessageLeft`).
-/

namespace MiniRtc

open Text Threads Run

/-- What the messages have led to: the map, the number of connections that were created, and the
messages that connections were given, without those of joins. -/
structure Settled where
  peerConnectionMap : Text → Option Nat := fun _ => none
  connections : Nat := 0
  received : List (Nat × IceWorkMsg) := []

namespace Settled

/-- A connection gets a message. -/
def give (r : Settled) (connection : Nat) (msg : IceWorkMsg) : Settled :=
  if msg.type = .userJoinTransmission then r
  else { r with received := r.received ++ [(connection, msg)] }

/-- The connection of a user, and the number of connections, are changed. -/
def place (r : Settled) (user : Text) (connection : Option Nat) (connections : Nat) : Settled :=
  { r with
    peerConnectionMap := Function.update r.peerConnectionMap user connection
    connections := connections }

/-- A user has a new connection. -/
def create (r : Settled) (user : Text) : Settled :=
  r.place user (some r.connections) (r.connections + 1)

/-- A user has no connection any more. -/
def erase (r : Settled) (user : Text) : Settled :=
  r.place user none r.connections

/-- The connection of the user gets the message. A leave takes it out of the map. -/
def handle (r : Settled) (msg : IceWorkMsg) : Settled :=
  if msg.remoteUserId = [] then r
  else
    match r.peerConnectionMap msg.remoteUserId with
    | none => r
    | some connection =>
        if msg.type = .userLeaveTransmission then
          (r.erase msg.remoteUserId).give connection msg
        else r.give connection msg

/-- A connection that could not be initialized is removed. -/
def retire (r : Settled) (user : Text) (connection : Nat) : Settled :=
  if r.peerConnectionMap user = some connection then r.erase user else r

/-- The rest of a join or an offer, once its connection is in the map. -/
def afterCreate (r : Settled) (user : Text) (connection : Nat) (msg : IceWorkMsg) (init : Bool) :
    Settled :=
  if init = false then r.retire user connection else r.handle msg

/-- The whole effect of an operation, with what it leaves to its thread and to the worker. -/
def effect (r : Settled) : Operation → Settled
  | .replaceOrCreate user msg init =>
      (r.create user).afterCreate user r.connections msg init
  | .initialized user connection msg init => r.afterCreate user connection msg init
  | .retire user connection _ => r.retire user connection
  | .push msg | .process msg => r.handle msg
  | .deliver connection msg => r.give connection msg
  | _ => r

/-- A message arrives and has its whole effect. -/
def arrive (userId : Text) (r : Settled) (signal : Signal) : Settled :=
  (PeerConnection.processSignal { userId := userId } signal).foldl effect r

/-! ## Effects that may change places -/

variable {r : Settled} {user : Text} {connection : Nat} {msg : IceWorkMsg} {op : Operation}
  {ops : List Operation}

/-- An operation of the worker that does nothing for the user, but for a join. -/
def Spares (user : Text) : Operation → Prop
  | .process msg => msg.remoteUserId = user → msg.type = .userJoinTransmission
  | .wait | .exit | .report .. | .release .. | .deliver .. => True
  | _ => False

instance (user : Text) : DecidablePred (Spares user)
  | .process msg =>
      inferInstanceAs (Decidable (msg.remoteUserId = user → msg.type = .userJoinTransmission))
  | .wait | .exit | .report .. | .release _ | .deliver .. => isTrue trivial
  | .replaceOrCreate .. | .initialized .. | .retire .. | .checkCurrent .. | .push _ | .clear
  | .handled | .destroy _ => isFalse id

/-- A message of a join changes nothing here. -/
theorem handle_join (h : msg.type = .userJoinTransmission) : r.handle msg = r := by
  unfold handle
  split
  · rfl
  · split
    · rfl
    · rw [if_neg (by rw [h]; decide)]
      exact if_pos h

/-- A message that is given and a change of the map may change places. -/
theorem give_place {value : Option Nat} {n : Nat} :
    (r.place user value n).give connection msg = (r.give connection msg).place user value n := by
  unfold give
  split <;> rfl

/-- A message for another user and a change of the map may change places. -/
theorem handle_place (hne : msg.remoteUserId ≠ user) {value : Option Nat} {n : Nat} :
    (r.place user value n).handle msg = (r.handle msg).place user value n := by
  have hsame : (r.place user value n).peerConnectionMap msg.remoteUserId =
      r.peerConnectionMap msg.remoteUserId := Function.update_of_ne hne _ _
  unfold handle
  rw [hsame]
  by_cases hempty : msg.remoteUserId = []
  · rw [if_pos hempty, if_pos hempty]
  · rw [if_neg hempty, if_neg hempty]
    cases r.peerConnectionMap msg.remoteUserId with
    | none => rfl
    | some connection =>
        show (if _ then _ else _) = (if _ then _ else _ : Settled).place user value n
        split_ifs
        · have herase : (r.place user value n).erase msg.remoteUserId =
              (r.erase msg.remoteUserId).place user value n := by
            unfold erase place
            exact congrArg (fun map => Settled.mk map n r.received)
              (Function.update_comm hne _ _ _).symm
          rw [herase, give_place]
        · exact give_place

/-- What spares a user leaves its connection and the number of connections. -/
theorem effect_place (h : Spares user op) {value : Option Nat} {n : Nat} :
    (r.place user value n).effect op = (r.effect op).place user value n := by
  cases op with
  | process msg =>
      by_cases huser : msg.remoteUserId = user
      · have hjoin := h huser
        show handle _ msg = (r.handle msg).place user value n
        rw [handle_join hjoin, handle_join hjoin]
      · exact handle_place huser
  | deliver connection msg => exact give_place
  | wait | exit | report | release => rfl
  | _ => exact h.elim

/-- A change of the map may come before or after all that spares its user. -/
theorem effects_place (h : ∀ op ∈ ops, Spares user op) {value : Option Nat} {n : Nat} :
    ops.foldl effect (r.place user value n) = (ops.foldl effect r).place user value n := by
  induction ops generalizing r with
  | nil => rfl
  | cons op ops ih =>
      rw [List.foldl_cons, List.foldl_cons, effect_place (h op List.mem_cons_self)]
      exact ih fun later hlater => h later (List.mem_cons_of_mem _ hlater)

/-- What spares a user leaves its connection, and it creates none. -/
theorem effects_kept (h : ∀ op ∈ ops, Spares user op) :
    (ops.foldl effect r).peerConnectionMap user = r.peerConnectionMap user ∧
      (ops.foldl effect r).connections = r.connections := by
  have hself : r.place user (r.peerConnectionMap user) r.connections = r := by
    unfold place
    rw [Function.update_eq_self]
  have hplace : ops.foldl effect (r.place user (r.peerConnectionMap user) r.connections) =
      (ops.foldl effect r).place user (r.peerConnectionMap user) r.connections := effects_place h
  rw [hself] at hplace
  rw [hplace]
  exact ⟨Function.update_self _ _ _, rfl⟩

/-- A connection may be created before or after what spares its user. -/
theorem effects_create (h : ∀ op ∈ ops, Spares user op) :
    ops.foldl effect (r.create user) = (ops.foldl effect r).create user := by
  unfold create
  rw [effects_place h, (effects_kept (r := r) h).2]

/-- A connection may be removed before or after what spares its user. -/
theorem effects_retire (h : ∀ op ∈ ops, Spares user op) :
    ops.foldl effect (r.retire user connection) =
      (ops.foldl effect r).retire user connection := by
  unfold retire erase
  rw [(effects_kept (r := r) h).1, (effects_kept (r := r) h).2]
  split
  · exact effects_place h
  · rfl

/-! ## The effect of an operation that is performed -/

section Performed

variable (s : PeerConnection)

/-- What the records of the peer have come to. -/
def ofPeer (s : PeerConnection) : Settled where
  peerConnectionMap := s.peerConnectionMap
  connections := s.connections.length
  received := s.delivered.filter fun entry => entry.2.type ≠ .userJoinTransmission

/-- A message that the worker has taken is handled for the connection in the map. -/
theorem process_effect (msg : IceWorkMsg) :
    (s.processIceWorkMsg msg).2.foldl effect (ofPeer (s.processIceWorkMsg msg).1) =
      (ofPeer s).handle msg := by
  have hmap : (ofPeer s).peerConnectionMap msg.remoteUserId =
      s.peerConnectionMap msg.remoteUserId := rfl
  unfold PeerConnection.processIceWorkMsg handle
  rw [hmap]
  by_cases hempty : msg.remoteUserId = []
  · rw [if_pos hempty, if_pos hempty]
    rfl
  · rw [if_neg hempty, if_neg hempty]
    cases s.peerConnectionMap msg.remoteUserId with
    | none => rfl
    | some connection =>
        simp only
        split_ifs
        · rfl
        · rfl

/-- A message that a connection gets is recorded. -/
theorem deliver_effect (connection : Nat) (msg : IceWorkMsg) :
    ofPeer { s with delivered := s.delivered ++ [(connection, msg)] } =
      (ofPeer s).give connection msg := by
  unfold give
  split
  · next hjoin => simp [ofPeer, hjoin]
  · next hother => simp [ofPeer, hother]

/-- The section of `ReplaceOrCreatePeerConnection` creates a connection. -/
theorem create_effect (user : Text) (msg : IceWorkMsg) (init : Bool) :
    ofPeer (s.replaceOrCreate user msg init).1 = (ofPeer s).create user := by
  simp [ofPeer, PeerConnection.replaceOrCreate, create, place]

/-- What it leaves to the websocket is the rest of the join or the offer. -/
theorem created_effect (user : Text) (msg : IceWorkMsg) (init : Bool) :
    (s.replaceOrCreate user msg init).2.foldl effect r =
      r.afterCreate user s.connections.length msg init := by
  unfold PeerConnection.replaceOrCreate
  cases s.peerConnectionMap user <;> rfl

/-- A connection that has been initialized gets its first message or is retired. -/
theorem initialized_effect (init : Bool) :
    (PeerConnection.afterInit user connection msg init).foldl effect r =
      r.afterCreate user connection msg init := by
  unfold PeerConnection.afterInit afterCreate
  split_ifs <;> rfl

/-- `RetirePeerConnection` retires the connection, as long as the worker runs. -/
theorem retire_effect (hrunning : s.iceWorkerRunning = true) (user : Text) (connection : Nat)
    (status : ConnectionStatus) :
    (s.retirePeerConnection user connection status).2.foldl effect r = r ∧
      ofPeer (s.retirePeerConnection user connection status).1 =
        (ofPeer s).retire user connection := by
  have hmap : (ofPeer s).peerConnectionMap user = s.peerConnectionMap user := rfl
  unfold PeerConnection.retirePeerConnection retire
  rw [hmap]
  by_cases hcurrent : s.peerConnectionMap user = some connection
  · rw [if_pos ⟨hcurrent, hrunning⟩, if_pos hcurrent]
    exact ⟨rfl, rfl⟩
  · rw [if_neg fun h => hcurrent h.1, if_neg hcurrent]
    exact ⟨rfl, rfl⟩

end Performed

end Settled

namespace PeerSystem

open PeerConnection Settled System

variable {userId : Text} {s : PeerSystem} {a : PeerAction} {op : Operation} {rest : List Operation}

/-- What the worker has to do, and what it will take from its queue. -/
def waiting (s : PeerSystem) : List Operation :=
  s.todo .iceWorker ++ s.shared.iceWorkMsgQueue.map Operation.process

/-- What the messages that have arrived will have led to. -/
def settled (s : PeerSystem) : Settled :=
  (s.waiting ++ s.todo .websocket).foldl effect (ofPeer s.shared)

/-- The actions of the signaling thread and of the worker. -/
def Signaling : PeerAction → Prop
  | .signal _ | .run .websocket | .run .iceWorker => True
  | _ => False

/-- When a connection of a user is created, the worker has no message for the user to process, but
for those of joins. -/
def NoMessageLeft (s : PeerSystem) (a : PeerAction) : Prop :=
  ∀ user ∈ s.created a, ∀ op ∈ s.waiting, Spares user op

instance (s : PeerSystem) (a : PeerAction) : Decidable (s.NoMessageLeft a) :=
  inferInstanceAs (Decidable (∀ user ∈ s.created a, ∀ op ∈ s.waiting, Spares user op))

/-- The queue is drained, and both threads are idle. -/
structure Drained (s : PeerSystem) : Prop where
  websocket : s.todo .websocket = []
  iceWorker : s.todo .iceWorker = [.wait]
  queue : s.shared.iceWorkMsgQueue = []

/-- The operations of which the websocket has one at most. -/
def Major : Operation → Prop
  | .replaceOrCreate .. | .initialized .. | .retire .. | .push _ => True
  | _ => False

instance : DecidablePred Major
  | .replaceOrCreate .. | .initialized .. | .retire .. | .push _ => isTrue trivial
  | .checkCurrent .. | .report .. | .release _ | .deliver .. | .clear | .wait | .exit | .process _
  | .handled | .destroy _ => isFalse id

/-- The operation goes on with a connection of the user that has just been created. -/
def Continues (user : Text) : Operation → Prop
  | .initialized other .. | .retire other .. => other = user
  | _ => False

/-- The invariant of the runs without other threads. -/
structure Settles (userId : Text) (s : PeerSystem) : Prop where
  threaded : s.Threaded
  plain : s.Everywhere fun _ op => op ≠ .clear ∧ op ≠ .exit
  running : s.shared.iceWorkerRunning = true
  user : s.shared.userId = userId
  major : (s.todo .websocket).countP (fun op => Major op) ≤ 1
  spared : ∀ op ∈ s.todo .websocket, ∀ user, Continues user op → ∀ w ∈ s.waiting, Spares user w
  settled : s.settled = s.shared.arrived.foldl (arrive userId) {}

/-! ## What operations do not change -/

/-- What the websocket and the worker never change. -/
structure SameRun (before after : PeerConnection) : Prop where
  user : after.userId = before.userId
  running : after.iceWorkerRunning = before.iceWorkerRunning
  arrived : after.arrived = before.arrived

theorem exec_same_run (shared : PeerConnection) {t : Thread} (h : op.Allowed t)
    (ht : t = .websocket ∨ t = .iceWorker) : SameRun shared (exec shared op).1 := by
  cases op with
  | retire user connection status =>
      show SameRun shared (shared.retirePeerConnection user connection status).1
      unfold retirePeerConnection
      split_ifs <;> exact ⟨rfl, rfl, rfl⟩
  | wait =>
      show SameRun shared shared.waitForWork.1
      unfold waitForWork
      split
      · exact ⟨rfl, rfl, rfl⟩
      · split_ifs
        · exact ⟨rfl, rfl, rfl⟩
        · split <;> exact ⟨rfl, rfl, rfl⟩
  | process msg =>
      obtain ⟨map, hstate⟩ := process_state shared msg
      show SameRun shared (shared.processIceWorkMsg msg).1
      rw [hstate]
      exact ⟨rfl, rfl, rfl⟩
  | destroy stage => rcases ht with rfl | rfl <;> exact h.elim
  | _ => exact ⟨rfl, rfl, rfl⟩

/-- As long as the worker runs, operations make none that clear the map or end the worker. -/
theorem made_plain {shared : PeerConnection} (hrunning : shared.iceWorkerRunning = true)
    {new : Operation} (hnew : new ∈ (exec shared op).2) : new ≠ .clear ∧ new ≠ .exit := by
  refine ⟨fun hclear => ?_, fun hexit => ?_⟩
  · rw [hclear] at hnew
    cases makes_of_mem hnew
  · rw [hexit] at hnew
    cases makes_of_mem hnew with
    | leave =>
        have hmade : Operation.exit ∈ shared.waitForWork.2 := hnew
        unfold waitForWork at hmade
        rw [hrunning] at hmade
        split at hmade
        · simp at hmade
        · rw [if_neg (by decide)] at hmade
          split at hmade
          · simp at hmade
          · simp at hmade

/-! ## The worker -/

/-- What the worker does was still to have its effect before. -/
theorem worker_effect (hs : s.Settles userId) (h : s.todo .iceWorker = op :: rest) :
    (((exec s.shared op).2 ++ rest) ++
        (exec s.shared op).1.iceWorkMsgQueue.map Operation.process).foldl effect
        (ofPeer (exec s.shared op).1) =
      s.waiting.foldl effect (ofPeer s.shared) := by
  have hin : op ∈ s.todo .iceWorker := by
    rw [h]
    exact List.mem_cons_self
  have hallowed := hs.threaded.allowed .iceWorker op hin
  have hwaiting : s.waiting = op :: rest ++ s.shared.iceWorkMsgQueue.map Operation.process := by
    unfold waiting
    rw [h]
  rw [hwaiting]
  cases op with
  | wait =>
      have hlast : rest = [] := by
        have hclosing := hs.threaded.closing .iceWorker
        rw [h] at hclosing
        exact hclosing.1 trivial
      rw [hlast]
      show (s.shared.waitForWork.2 ++ [] ++
        s.shared.waitForWork.1.iceWorkMsgQueue.map Operation.process).foldl effect
          (ofPeer s.shared.waitForWork.1) = _
      unfold waitForWork
      rw [hs.running]
      split
      · rfl
      · rw [if_neg (by decide)]
        split
        · next hqueue => rw [hqueue]; rfl
        · rfl
  | exit => exact absurd rfl (hs.plain .iceWorker _ hin).2
  | process msg =>
      obtain ⟨map, hstate⟩ := process_state s.shared msg
      have hqueue : (s.shared.processIceWorkMsg msg).1.iceWorkMsgQueue = s.shared.iceWorkMsgQueue := by
        rw [hstate]
      show ((s.shared.processIceWorkMsg msg).2 ++ rest ++
        (s.shared.processIceWorkMsg msg).1.iceWorkMsgQueue.map Operation.process).foldl effect
          (ofPeer (s.shared.processIceWorkMsg msg).1) = _
      rw [hqueue, List.append_assoc, List.foldl_append, process_effect]
      rfl
  | deliver connection msg =>
      show (rest ++ _).foldl effect (ofPeer { s.shared with
        delivered := s.shared.delivered ++ [(connection, msg)] }) = _
      rw [deliver_effect]
      rfl
  | report connection status => rfl
  | release connection => rfl
  | _ => exact hallowed.elim

/-- The worker gets nothing new to do but from its queue. -/
theorem worker_spares (hs : s.Settles userId) (h : s.todo .iceWorker = op :: rest) {user : Text}
    (hspared : ∀ w ∈ s.waiting, Spares user w) :
    ∀ w ∈ ((exec s.shared op).2 ++ rest) ++
      (exec s.shared op).1.iceWorkMsgQueue.map Operation.process, Spares user w := by
  have hin : op ∈ s.todo .iceWorker := by
    rw [h]
    exact List.mem_cons_self
  have hallowed := hs.threaded.allowed .iceWorker op hin
  have hrest : ∀ w ∈ rest, Spares user w := fun w hw =>
    hspared w (List.mem_append_left _ (by rw [h]; exact List.mem_cons_of_mem _ hw))
  have hqueue : ∀ msg ∈ s.shared.iceWorkMsgQueue, Spares user (.process msg) := fun msg hmsg =>
    hspared _ (List.mem_append_right _ (List.mem_map_of_mem hmsg))
  have hqueue' : ∀ msg ∈ (exec s.shared op).1.iceWorkMsgQueue, msg ∈ s.shared.iceWorkMsgQueue := by
    intro msg hmsg
    cases op with
    | wait =>
        have hwait : msg ∈ s.shared.waitForWork.1.iceWorkMsgQueue := hmsg
        unfold waitForWork at hwait
        rw [hs.running] at hwait
        split at hwait
        · exact hwait
        · rw [if_neg (by decide)] at hwait
          split at hwait
          · next hcons => rw [hcons]; exact List.mem_cons_of_mem _ hwait
          · exact hwait
    | process taken =>
        obtain ⟨map, hstate⟩ := process_state s.shared taken
        have hsame : msg ∈ (s.shared.processIceWorkMsg taken).1.iceWorkMsgQueue := hmsg
        rw [hstate] at hsame
        exact hsame
    | exit => cases hmsg
    | deliver connection taken => exact hmsg
    | report connection status => exact hmsg
    | release connection => exact hmsg
    | _ => exact hallowed.elim
  have hmade : ∀ w ∈ (exec s.shared op).2, Spares user w := by
    intro w hw
    cases op with
    | wait =>
        have hwait : w ∈ s.shared.waitForWork.2 := hw
        unfold waitForWork at hwait
        rw [hs.running] at hwait
        split at hwait
        · rcases List.mem_cons.mp hwait with rfl | hagain
          · trivial
          · rw [List.mem_singleton.mp hagain]
            trivial
        · rw [if_neg (by decide)] at hwait
          split at hwait
          · next hcons =>
              rcases List.mem_cons.mp hwait with rfl | hagain
              · exact hqueue _ (by rw [hcons]; exact List.mem_cons_self)
              · rw [List.mem_singleton.mp hagain]
                trivial
          · rw [List.mem_singleton.mp hwait]
            trivial
    | process taken => cases makes_of_mem hw <;> trivial
    | exit => cases hw
    | deliver connection taken => cases hw
    | report connection status => cases hw
    | release connection => cases hw
    | _ => exact hallowed.elim
  intro w hw
  rcases List.mem_append.mp hw with hnow | hlater
  · rcases List.mem_append.mp hnow with hnew | hold
    · exact hmade w hnew
    · exact hrest w hold
  · obtain ⟨msg, hmsg, rfl⟩ := List.mem_map.mp hlater
    exact hqueue msg (hqueue' msg hmsg)

/-! ## The websocket -/

/-- What the websocket does has its effect, also when the worker has something to do. -/
theorem websocket_effect (hs : s.Settles userId) (h : s.todo .websocket = op :: rest)
    (hleft : s.NoMessageLeft (.run .websocket)) :
    ((s.todo .iceWorker ++ (exec s.shared op).1.iceWorkMsgQueue.map Operation.process) ++
        ((exec s.shared op).2 ++ rest)).foldl effect (ofPeer (exec s.shared op).1) =
      (s.waiting ++ op :: rest).foldl effect (ofPeer s.shared) := by
  have hin : op ∈ s.todo .websocket := by
    rw [h]
    exact List.mem_cons_self
  have hallowed := hs.threaded.allowed .websocket op hin
  cases op with
  | push msg =>
      show ((s.todo .iceWorker ++ (s.shared.iceWorkMsgQueue ++ [msg]).map Operation.process) ++
        rest).foldl effect (ofPeer s.shared) = _
      rw [List.map_append, ← List.append_assoc, List.append_assoc _ _ rest]
      show (s.waiting ++ ([Operation.process msg] ++ rest)).foldl effect (ofPeer s.shared) = _
      rw [List.foldl_append, List.foldl_append, List.foldl_append]
      rfl
  | replaceOrCreate user msg init =>
      have hspares := hleft user (created_of_todo h)
      have hcount := (effects_kept (r := ofPeer s.shared) hspares).2
      show (s.waiting ++ ((s.shared.replaceOrCreate user msg init).2 ++ rest)).foldl effect
        (ofPeer (s.shared.replaceOrCreate user msg init).1) = _
      rw [create_effect, List.foldl_append, List.foldl_append, effects_create hspares,
        created_effect, List.foldl_append, List.foldl_cons]
      show List.foldl effect _ rest = List.foldl effect
        ((_ : Settled).afterCreate user (s.waiting.foldl effect (ofPeer s.shared)).connections
          msg init) rest
      rw [hcount]
      rfl
  | initialized user connection msg init =>
      show (s.waiting ++ (afterInit user connection msg init ++ rest)).foldl effect
        (ofPeer s.shared) = _
      rw [List.foldl_append, List.foldl_append, initialized_effect, List.foldl_append]
      rfl
  | retire user connection status =>
      have hspares := hs.spared _ hin user rfl
      obtain ⟨hmade, hretired⟩ := retire_effect (r := (s.waiting.foldl effect
        (ofPeer s.shared)).retire user connection) s.shared hs.running user connection status
      have hqueue : (s.shared.retirePeerConnection user connection status).1.iceWorkMsgQueue =
          s.shared.iceWorkMsgQueue := by
        unfold retirePeerConnection
        split_ifs <;> rfl
      show ((s.todo .iceWorker ++
        (s.shared.retirePeerConnection user connection status).1.iceWorkMsgQueue.map
          Operation.process) ++
        ((s.shared.retirePeerConnection user connection status).2 ++ rest)).foldl effect
          (ofPeer (s.shared.retirePeerConnection user connection status).1) = _
      rw [hqueue, hretired]
      show (s.waiting ++ (_ ++ rest)).foldl effect _ = _
      rw [List.foldl_append, effects_retire hspares, List.foldl_append, hmade, List.foldl_append]
      rfl
  | report connection status =>
      show (s.waiting ++ rest).foldl effect (ofPeer s.shared) = _
      rw [List.foldl_append, List.foldl_append]
      rfl
  | release connection =>
      show (s.waiting ++ rest).foldl effect (ofPeer s.shared) = _
      rw [List.foldl_append, List.foldl_append]
      rfl
  | handled =>
      show (s.waiting ++ rest).foldl effect (ofPeer s.shared) = _
      rw [List.foldl_append, List.foldl_append]
      rfl
  | clear => exact absurd rfl (hs.plain .websocket _ hin).1
  | _ => exact hallowed.elim

/-- A major operation makes one of them at most, and the others make none. -/
theorem made_major (shared : PeerConnection) (hallowed : op.Allowed .websocket) (hne : op ≠ .clear) :
    (exec shared op).2.countP (fun new => Major new) ≤ [op].countP (fun new => Major new) := by
  cases op with
  | replaceOrCreate user msg init =>
      show ((shared.peerConnectionMap user).toList.map Operation.release ++
        [Operation.initialized user _ msg init]).countP (fun new => Major new) ≤ 1
      cases shared.peerConnectionMap user <;> exact le_refl 1
  | initialized user connection msg init =>
      show (afterInit user connection msg init).countP (fun new => Major new) ≤ 1
      unfold afterInit
      split_ifs <;> exact le_refl 1
  | retire user connection status =>
      show (shared.retirePeerConnection user connection status).2.countP (fun new => Major new) ≤ 1
      unfold retirePeerConnection
      split_ifs <;> exact Nat.zero_le 1
  | push msg => exact Nat.zero_le 1
  | report connection status => exact Nat.zero_le 0
  | release connection => exact Nat.zero_le 0
  | handled => exact Nat.zero_le 0
  | clear => exact absurd rfl hne
  | _ => exact hallowed.elim

/-- The websocket changes the queue of the worker with its messages only. -/
theorem queue_kept {shared : PeerConnection} (hallowed : op.Allowed .websocket)
    (hpush : ∀ msg, op ≠ .push msg) :
    (exec shared op).1.iceWorkMsgQueue = shared.iceWorkMsgQueue := by
  cases op with
  | retire user connection status =>
      show (shared.retirePeerConnection user connection status).1.iceWorkMsgQueue = _
      unfold retirePeerConnection
      split_ifs <;> rfl
  | push msg => exact absurd rfl (hpush msg)
  | replaceOrCreate | initialized | report | release | clear | handled => rfl
  | _ => exact hallowed.elim

/-- As long as the websocket goes on with a connection, the worker has no message for its user. -/
theorem websocket_spares (hs : s.Settles userId) (h : s.todo .websocket = op :: rest)
    (hleft : s.NoMessageLeft (.run .websocket)) {other : Operation} {user : Text}
    (hother : other ∈ (exec s.shared op).2 ++ rest) (hcontinues : Continues user other) :
    ∀ w ∈ s.todo .iceWorker ++ (exec s.shared op).1.iceWorkMsgQueue.map Operation.process,
      Spares user w := by
  have hin : op ∈ s.todo .websocket := by
    rw [h]
    exact List.mem_cons_self
  have hqueue : (∀ msg, op ≠ .push msg) →
      (exec s.shared op).1.iceWorkMsgQueue = s.shared.iceWorkMsgQueue :=
    queue_kept (hs.threaded.allowed .websocket op hin)
  rcases List.mem_append.mp hother with hnew | hold
  · have hmakes := makes_of_mem hnew
    cases hmakes with
    | initializeConnection connection =>
        rw [hqueue fun msg => by simp]
        rw [← hcontinues]
        exact hleft _ (created_of_todo h)
    | retireFailed =>
        rw [hqueue fun msg => by simp]
        exact hs.spared _ hin user hcontinues
    | _ => exact hcontinues.elim
  · -- The operation that goes on with the connection is the only major one, so this one is not.
    have hmajor : Major other := by
      cases other with
      | initialized => trivial
      | retire => trivial
      | _ => exact hcontinues.elim
    have hminor : ∀ msg, op ≠ .push msg := by
      intro msg hpush
      have hcount := hs.major
      rw [h, hpush, List.countP_cons_of_pos (by rfl)] at hcount
      have hmore : 0 < rest.countP (fun op => Major op) :=
        List.countP_pos_iff.mpr ⟨other, hold, by simpa using hmajor⟩
      omega
    rw [hqueue hminor]
    exact hs.spared other (by rw [h]; exact List.mem_cons_of_mem _ hold) user hcontinues

/-! ## Steps of both threads -/

/-- The effect of a message does not depend on the connections that a peer has. -/
theorem signal_effect {shared : PeerConnection} (huser : shared.userId = userId) (signal : Signal)
    (r : Settled) : (shared.processSignal signal).foldl effect r = r.arrive userId signal := by
  subst huser
  cases signal with
  | answer transmissionId user sdp =>
      -- The status is about a connection of the peer, but a status has no effect here.
      cases sdp <;> rfl
  | _ => rfl

/-- What the websocket does for a message. -/
theorem program_kept (shared : PeerConnection) (signal : Signal) :
(∀ op ∈ shared.processSignal signal ++ [Operation.handled],
      (op ≠ .clear ∧ op ≠ .exit) ∧ ∀ user, ¬ Continues user op) ∧
      (shared.processSignal signal ++ [Operation.handled]).countP (fun op => Major op) ≤ 1 := by
  have hprogram := signal_program shared signal
  generalize shared.processSignal signal = program at hprogram
  cases hprogram with
  | ignored => exact ⟨by simp [Continues], Nat.zero_le 1⟩
  | refused => exact ⟨by simp [Continues], Nat.zero_le 1⟩
  | created user msg init => exact ⟨by simp [Continues], le_refl 1⟩
  | queued msg => exact ⟨by simp [Continues], le_refl 1⟩
  | answered user msg => exact ⟨by simp [Continues], le_refl 1⟩

/-- A message that arrives adds its effect to what is to come. -/
theorem signal_settles (hs : s.Settles userId) (signal : Signal)
    (hidle : s.todo .websocket = []) :
    settled (s.next .websocket
      { s.shared with handling := true, arrived := s.shared.arrived ++ [signal] }
      (s.shared.processSignal signal ++ [Operation.handled]) []) =
      (s.shared.arrived ++ [signal]).foldl (arrive userId) {} := by
  have hbefore : s.waiting.foldl effect (ofPeer s.shared) =
      s.shared.arrived.foldl (arrive userId) {} := by
    have hsettled := hs.settled
    unfold settled at hsettled
    rwa [hidle, List.append_nil] at hsettled
  unfold settled
  rw [todo_next_self, List.append_nil]
  show (s.waiting ++ (s.shared.processSignal signal ++ [Operation.handled])).foldl effect
    (ofPeer s.shared) = _
  rw [List.foldl_append, List.foldl_append, hbefore, signal_effect hs.user, List.foldl_append]
  rfl

theorem settles_step (hs : s.Settles userId) (hsignaling : Signaling a)
    (hleft : s.NoMessageLeft a) : (step s a).Settles userId := by
  have hthreaded := hs.threaded.step (a := a)
  rcases step_cases s a with hsame | ⟨t, shared, program, hstarts, hidle, hstep⟩ |
    ⟨t, op, rest, rfl, htodo, hstep⟩
  · rw [hsame]
    exact hs
  · rw [hstep] at hthreaded ⊢
    cases hstarts with
    | signal signal hopen =>
        obtain ⟨hkept, hmajor⟩ := program_kept s.shared signal
        exact
          { threaded := hthreaded
            plain := hs.plain.next List.nil_suffix fun op hop => (hkept op hop).1
            running := hs.running
            user := hs.user
            major := by
              rw [todo_next_self, List.append_nil]
              exact hmajor
            spared := fun op hop user hcontinues => by
              rw [todo_next_self, List.append_nil] at hop
              exact absurd hcontinues ((hkept op hop).2 user)
            settled := signal_settles hs signal hidle }
    | signalLost hopen => exact hsignaling.elim
    | leave n => exact hsignaling.elim
    | destroy n hfirst => exact hsignaling.elim
    | status n connection status huser => exact hsignaling.elim
  · rw [hstep] at hthreaded ⊢
    have hin : op ∈ s.todo t := by
      rw [htodo]
      exact List.mem_cons_self
    -- The signals concern two threads only: the websocket and the ICE worker.
    have hthread : t = .websocket ∨ t = .iceWorker := by
      cases t with
      | websocket => exact Or.inl rfl
      | iceWorker => exact Or.inr rfl
      | application n => exact hsignaling.elim
      | transport n => exact hsignaling.elim
    obtain ⟨huser, hrunning, harrived⟩ :=
      exec_same_run s.shared (hs.threaded.allowed t op hin) hthread
    have hplain : (s.next t (exec s.shared op).1 (exec s.shared op).2 rest).Everywhere
        fun _ op => op ≠ .clear ∧ op ≠ .exit :=
      hs.plain.next (rest_suffix htodo) fun new hnew => made_plain hs.running hnew
    rcases hthread with rfl | rfl
    · have hwaiting : waiting (s.next .websocket (exec s.shared op).1 (exec s.shared op).2 rest) =
          s.todo .iceWorker ++ (exec s.shared op).1.iceWorkMsgQueue.map Operation.process := by
        unfold waiting
        rw [todo_next_other (by decide)]
        rfl
      exact
        { threaded := hthreaded
          plain := hplain
          running := hrunning.trans hs.running
          user := huser.trans hs.user
          major := by
            have hcount := made_major s.shared (hs.threaded.allowed _ op hin)
              (hs.plain _ op hin).1
            have hmajor := hs.major
            rw [htodo, ← List.singleton_append, List.countP_append] at hmajor
            rw [todo_next_self, List.countP_append]
            omega
          spared := fun other hother user hcontinues => by
            rw [todo_next_self] at hother
            rw [hwaiting]
            exact websocket_spares hs htodo hleft hother hcontinues
          settled := by
            show _ = (exec s.shared op).1.arrived.foldl (arrive userId) {}
            rw [harrived, ← hs.settled]
            unfold settled
            rw [hwaiting, todo_next_self, htodo]
            exact websocket_effect hs htodo hleft }
    · have hwaiting : waiting (s.next .iceWorker (exec s.shared op).1 (exec s.shared op).2 rest) =
          ((exec s.shared op).2 ++ rest) ++
            (exec s.shared op).1.iceWorkMsgQueue.map Operation.process := by
        unfold waiting
        rw [todo_next_self]
        rfl
      have hwebsocket : (s.next .iceWorker (exec s.shared op).1 (exec s.shared op).2 rest).todo
          .websocket = s.todo .websocket := todo_next_other (by decide)
      exact
        { threaded := hthreaded
          plain := hplain
          running := hrunning.trans hs.running
          user := huser.trans hs.user
          major := by
            rw [hwebsocket]
            exact hs.major
          spared := fun other hother user hcontinues => by
            rw [hwebsocket] at hother
            rw [hwaiting]
            exact worker_spares hs htodo (hs.spared other hother user hcontinues)
          settled := by
            show _ = (exec s.shared op).1.arrived.foldl (arrive userId) {}
            rw [harrived, ← hs.settled]
            unfold settled
            rw [hwaiting, hwebsocket, List.foldl_append, List.foldl_append (l := s.waiting),
              ← worker_effect hs htodo]
            rfl }

theorem settles_start (userId : Text) : (start userId).Settles userId where
  threaded := threaded_start userId
  plain := fun t op hop => by
    cases t with
    | iceWorker =>
        rw [List.mem_singleton.mp hop]
        exact ⟨by simp, by simp⟩
    | _ => cases hop
  running := rfl
  user := rfl
  major := Nat.zero_le 1
  spared := fun op hop => by cases hop
  settled := rfl

/-- In every run in which no message for a user is left when a connection of the user is created,
what has been done when the queue is drained is what the messages lead to one by one. -/
theorem drained_settled {actions : List PeerAction} (hsignaling : ∀ a ∈ actions, Signaling a)
    (hleft : Along step NoMessageLeft (start userId) actions)
    (hdrained : (actions.foldl step (start userId)).Drained) :
    ofPeer (actions.foldl step (start userId)).shared =
      (actions.foldl step (start userId)).shared.arrived.foldl (arrive userId) {} := by
  have hs := ((along_of_forall hsignaling).and hleft).invariant (I := fun s => s.Settles userId)
    (fun s a hs h => settles_step hs h.1 h.2) (settles_start userId)
  rw [← hs.settled]
  unfold settled waiting
  rw [hdrained.websocket, hdrained.iceWorker, hdrained.queue]
  rfl

/-- A user joins and leaves, the worker takes the messages when it is `handled` or not, and the user
joins again. -/
def rejoin (handled : Bool) : List PeerAction :=
  let join := PeerAction.signal (.userJoinTransmission ['t'] ['b'] true true)
  let takeLeave := List.replicate 5 (PeerAction.run .iceWorker)
  join :: List.replicate 4 (PeerAction.run .websocket) ++
    List.replicate 3 (PeerAction.run .iceWorker) ++
    .signal (.userLeaveTransmission ['b']) :: List.replicate 2 (PeerAction.run .websocket) ++
    (if handled then takeLeave else []) ++
    join :: List.replicate 5 (PeerAction.run .websocket) ++
    (if handled then [] else takeLeave) ++ List.replicate 3 (PeerAction.run .iceWorker)

/-- When the worker has handled the leave before, the user is connected again. -/
theorem drained_settled_rejoin :
    ofPeer ((rejoin true).foldl step (start ['a'])).shared =
      ((rejoin true).foldl step (start ['a'])).shared.arrived.foldl (arrive ['a']) {} :=
  drained_settled (by simp [rejoin, Signaling]) (by decide)
    { websocket := by decide
      iceWorker := by decide
      queue := by decide }

/-- When the leave is still in the queue, it removes the new connection. -/
theorem drained_settled_fails :
    (∀ a ∈ rejoin false, Signaling a) ∧ ((rejoin false).foldl step (start ['a'])).Drained ∧
      ofPeer ((rejoin false).foldl step (start ['a'])).shared ≠
        ((rejoin false).foldl step (start ['a'])).shared.arrived.foldl (arrive ['a']) {} := by
  have hdrained : ((rejoin false).foldl step (start ['a'])).Drained :=
    { websocket := by decide
      iceWorker := by decide
      queue := by decide }
  have hrun : (ofPeer ((rejoin false).foldl step (start ['a'])).shared).peerConnectionMap ['b'] =
      none := by decide
  have hwhole : (((rejoin false).foldl step (start ['a'])).shared.arrived.foldl
      (arrive ['a']) {}).peerConnectionMap ['b'] = some 1 := by decide
  refine ⟨by simp [rejoin, Signaling], hdrained, fun hsame => ?_⟩
  rw [hsame, hwhole] at hrun
  cases hrun

end PeerSystem

end MiniRtc
