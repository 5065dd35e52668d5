import MiniRtc.Foundation.Run
import MiniRtc.Foundation.Threads
import MiniRtc.Signaling.MiniRtcConnection

/-!
# The connections of a peer

`PeerConnection` of `peer_connection.cpp`: the map of its connections, the queue of the ICE worker
and the queue of the connections that the worker is to clean up. The functions run on the I/O worker
of the websocket, on the ICE worker, on threads of the application and on threads of the transports.
A section under a lock is one atomic operation, and so is a call of a connection or of the
application.

A connection is the number of its insertion into the map. What the connections were told, which of
them were released and what the application was told is recorded, each with the connection. The
results of `BuildConnectionInfo` and `Init` are inputs.
-/

namespace MiniRtc

open Text Threads

/-- `ConnectionStatus`, without the statuses of a join that failed. -/
inductive ConnectionStatus where
  | connecting
  | connected
  | gathering
  | disconnected
  | failed
  | closed
  deriving DecidableEq

/-- `IsTerminalConnectionStatus`. -/
def isTerminalConnectionStatus : ConnectionStatus → Bool
  | .disconnected | .failed | .closed => true
  | .connecting | .connected | .gathering => false

/-- The messages of the signaling server that `ProcessSignal` hands on. `info` is the result of
`BuildConnectionInfo`, and `init` says that `Init` of the connection succeeds. -/
inductive Signal where
  | userJoinTransmission (transmissionId userId : Text) (info init : Bool)
  | userLeaveTransmission (userId : Text)
  | offer (transmissionId remoteUserId : Text) (sdp : Option Text) (info init : Bool)
  | answer (transmissionId remoteUserId : Text) (sdp : Option Text)
  | newCandidate (transmissionId remoteUserId sdp ufrag : Text)
  | newCandidateMid (transmissionId remoteUserId candidate mid ufrag : Text)

/-- The steps of `Destroy`. -/
inductive DestroyStage where
  | clear
  | stopIceWorker
  | joinIceWorker
  | shutdownWebsocket
  | joinWebsocket
  | finish
  deriving DecidableEq

/-- The atomic operations of the threads. -/
inductive Operation where
  /-- The section of `ReplaceOrCreatePeerConnection` under the lock of the map. -/
  | replaceOrCreate (user : Text) (msg : IceWorkMsg) (init : Bool)
  /-- `Init` of the new connection has returned. -/
  | initialized (user : Text) (connection : Nat) (msg : IceWorkMsg) (init : Bool)
  /-- `RetirePeerConnection`. -/
  | retire (user : Text) (connection : Nat) (status : ConnectionStatus)
  /-- `IsCurrentPeerConnection`, before a status is reported. -/
  | checkCurrent (user : Text) (connection : Nat) (status : ConnectionStatus)
  /-- `on_connection_status_`, with the connection that the status is about. -/
  | report (connection : Option Nat) (status : ConnectionStatus)
  /-- `ReleaseAllIceTransmission`. -/
  | release (connection : Nat)
  /-- `ProcessIceWorkMsg` of a connection. -/
  | deliver (connection : Nat) (msg : IceWorkMsg)
  /-- `PushIceWorkMsg`. -/
  | push (msg : IceWorkMsg)
  /-- The section of `ClearPeerConnections` under the lock of the map. -/
  | clear
  /-- One round of the ICE worker, up to the message that it takes. -/
  | wait
  /-- The end of the ICE worker. -/
  | exit
  /-- The section of `ProcessIceWorkMsg` under the lock of the map. -/
  | process (msg : IceWorkMsg)
  /-- The websocket has handled what it received. -/
  | handled
  | destroy (stage : DestroyStage)
  deriving DecidableEq

/-- The threads. -/
inductive Thread where
  | websocket
  | iceWorker
  | application (n : Nat)
  | transport (n : Nat)
  deriving DecidableEq

/-- `PeerConnection`. `handling` says that the I/O worker of the websocket is inside a handler. The
last five fields are records of what has happened. -/
structure PeerConnection where
  userId : Text
  peerConnectionMap : Text → Option Nat := fun _ => none
  iceWorkMsgQueue : List IceWorkMsg := []
  terminalConnectionCleanupQueue : List Nat := []
  iceWorkerRunning : Bool := true
  iceWorkerExited : Bool := false
  shutdown : Bool := false
  handling : Bool := false
  destroyCalled : Bool := false
  destroyCleared : Bool := false
  destroyed : Bool := false
  connections : List Text := []
  arrived : List Signal := []
  delivered : List (Nat × IceWorkMsg) := []
  released : List Nat := []
  statuses : List (Option Nat × ConnectionStatus) := []

namespace PeerConnection

/-- The connection is in the map, under the user that it was created for. -/
def Current (s : PeerConnection) (connection : Nat) : Prop :=
  ∃ user ∈ s.connections[connection]?, s.peerConnectionMap user = some connection

instance (s : PeerConnection) (connection : Nat) : Decidable (s.Current connection) :=
  match h : s.connections[connection]? with
  | none => isFalse fun ⟨_, hin, _⟩ => by rw [h] at hin; cases hin
  | some user =>
      decidable_of_iff (s.peerConnectionMap user = some connection)
        ⟨fun hmap => ⟨user, h, hmap⟩, fun ⟨_, hin, hmap⟩ => by
          rw [h] at hin
          cases hin
          exact hmap⟩

/-- The connections in the map. -/
def current (s : PeerConnection) : List Nat :=
  (List.range s.connections.length).filter fun connection => s.Current connection

/-- The connection that was created last for a user. -/
def latest (s : PeerConnection) (user : Text) : Option Nat :=
  (List.range s.connections.length).reverse.find? fun connection =>
    s.connections[connection]? = some user

/-- The map without the user. -/
def erased (s : PeerConnection) (user : Text) : Text → Option Nat :=
  Function.update s.peerConnectionMap user none

/-! ## The functions of the source -/

/-- `ProcessSignal`: what the websocket does for a message. -/
def processSignal (s : PeerConnection) : Signal → List Operation
  | .userJoinTransmission transmissionId user info init =>
      if user = [] ∨ user = s.userId then []
      else if info = false then [.report none .failed]
      else
        [.replaceOrCreate user
          { type := .userJoinTransmission
            transmissionId := transmissionId
            remoteUserId := user } init]
  | .userLeaveTransmission user =>
      [.push { type := .userLeaveTransmission, remoteUserId := user }]
  | .offer transmissionId user sdp info init =>
      match sdp with
      | none => []
      | some sdp =>
          if user = [] then []
          else if info = false then [.report none .failed]
          else
            [.replaceOrCreate user
              { type := .offer
                transmissionId := transmissionId
                remoteUserId := user
                remoteSdp := sdp } init]
  | .answer transmissionId user sdp =>
      match sdp with
      | none => []
      | some sdp =>
          [.push
            { type := .answer
              transmissionId := transmissionId
              remoteUserId := user
              remoteSdp := sdp },
            .report (s.latest user) .connecting]
  | .newCandidate transmissionId user sdp ufrag =>
      match parseIceCandidateSignal sdp ufrag with
      | none => []
      | some signal =>
          [.push
            { type := .newCandidate
              transmissionId := transmissionId
              remoteUserId := user
              newCandidate := signal.sdp
              candidateUfrag := signal.ufrag }]
  | .newCandidateMid transmissionId user candidate mid ufrag =>
      match parseIceCandidateSignal candidate ufrag with
      | none => []
      | some signal =>
          if 256 < mid.length ∨ '\x00' ∈ mid ∨ mid.any isIceBlank then []
          else
            [.push
              { type := .newCandidateMid
                transmissionId := transmissionId
                remoteUserId := user
                candidate := signal.sdp
                candidateUfrag := signal.ufrag
                mid := mid }]

/-- The section of `ReplaceOrCreatePeerConnection`. -/
def replaceOrCreate (s : PeerConnection) (user : Text) (msg : IceWorkMsg) (init : Bool) :
    PeerConnection × List Operation :=
  let connection := s.connections.length
  ({ s with
    peerConnectionMap := Function.update s.peerConnectionMap user (some connection)
    connections := s.connections ++ [user] },
    (s.peerConnectionMap user).toList.map .release ++ [.initialized user connection msg init])

/-- The rest of the handler of a join or an offer. -/
def afterInit (user : Text) (connection : Nat) (msg : IceWorkMsg) (init : Bool) : List Operation :=
  if init = false then [.retire user connection .failed]
  else if msg.type = .offer then [.push msg, .report (some connection) .connecting]
  else [.push msg]

/-- `RetirePeerConnection`, with the report that follows. -/
def retirePeerConnection (s : PeerConnection) (user : Text) (connection : Nat)
    (status : ConnectionStatus) : PeerConnection × List Operation :=
  if s.peerConnectionMap user = some connection ∧ s.iceWorkerRunning = true then
    ({ s with
      terminalConnectionCleanupQueue := s.terminalConnectionCleanupQueue ++ [connection]
      peerConnectionMap := s.erased user }, [.report (some connection) status])
  else (s, [])

/-- `ClearPeerConnections`. -/
def clearPeerConnections (s : PeerConnection) : PeerConnection × List Operation :=
  ({ s with peerConnectionMap := fun _ => none },
    s.current.flatMap fun connection => [.report (some connection) .closed, .release connection])

/-- What the ICE worker takes from its queues. -/
def waitForWork (s : PeerConnection) : PeerConnection × List Operation :=
  match s.terminalConnectionCleanupQueue with
  | connection :: rest =>
      ({ s with terminalConnectionCleanupQueue := rest }, [.release connection, .wait])
  | [] =>
      if s.iceWorkerRunning = false then (s, [.exit])
      else
        match s.iceWorkMsgQueue with
        | msg :: rest => ({ s with iceWorkMsgQueue := rest }, [.process msg, .wait])
        | [] => (s, [.wait])

/-- `ProcessIceWorkMsg`, with the calls that follow. -/
def processIceWorkMsg (s : PeerConnection) (msg : IceWorkMsg) :
    PeerConnection × List Operation :=
  if msg.remoteUserId = [] then (s, [])
  else
    match s.peerConnectionMap msg.remoteUserId with
    | none => (s, [])
    | some connection =>
        if msg.type = .userLeaveTransmission then
          ({ s with peerConnectionMap := s.erased msg.remoteUserId },
            [.report (some connection) .closed, .deliver connection msg])
        else (s, [.deliver connection msg])

/-- `Destroy`. A thread that waits for another tries again. -/
def destroy (s : PeerConnection) : DestroyStage → PeerConnection × List Operation
  | .clear =>
      ({ s.clearPeerConnections.1 with destroyCleared := true },
        s.clearPeerConnections.2 ++ [.destroy .stopIceWorker])
  | .stopIceWorker => ({ s with iceWorkerRunning := false }, [.destroy .joinIceWorker])
  | .joinIceWorker =>
      (s, [.destroy (if s.iceWorkerExited then .shutdownWebsocket else .joinIceWorker)])
  | .shutdownWebsocket => ({ s with shutdown := true }, [.destroy .joinWebsocket])
  | .joinWebsocket => (s, [.destroy (if s.handling then .joinWebsocket else .finish)])
  | .finish => ({ s with destroyed := true }, [])

/-- What an operation does, and what its thread has to do after it. -/
def exec (s : PeerConnection) : Operation → PeerConnection × List Operation
  | .replaceOrCreate user msg init => s.replaceOrCreate user msg init
  | .initialized user connection msg init => (s, afterInit user connection msg init)
  | .retire user connection status => s.retirePeerConnection user connection status
  | .checkCurrent user connection status =>
      (s, if s.peerConnectionMap user = some connection then [.report (some connection) status]
        else [])
  | .report connection status => ({ s with statuses := s.statuses ++ [(connection, status)] }, [])
  | .release connection => ({ s with released := s.released ++ [connection] }, [])
  | .deliver connection msg => ({ s with delivered := s.delivered ++ [(connection, msg)] }, [])
  | .push msg => ({ s with iceWorkMsgQueue := s.iceWorkMsgQueue ++ [msg] }, [])
  | .clear => s.clearPeerConnections
  | .wait => s.waitForWork
  | .exit => ({ s with iceWorkMsgQueue := [], iceWorkerExited := true }, [])
  | .process msg => s.processIceWorkMsg msg
  | .handled => ({ s with handling := false }, [])
  | .destroy stage => s.destroy stage

end PeerConnection

/-! ## Runs -/

/-- The peer with its threads. -/
abbrev PeerSystem := System Thread PeerConnection Operation

/-- What may happen next. -/
inductive PeerAction where
  /-- The websocket receives a message. -/
  | signal (signal : Signal)
  /-- The websocket has failed or was closed, and its status is handled. -/
  | signalLost
  /-- A thread of the application calls `Leave`. -/
  | leave (n : Nat)
  /-- A thread of the application calls `Destroy`. -/
  | destroy (n : Nat)
  /-- A transport reports a status of its connection. -/
  | status (n : Nat) (connection : Nat) (status : ConnectionStatus)
  /-- A thread performs its next operation. -/
  | run (thread : Thread)

namespace PeerSystem

open PeerConnection

/-- The peer after `Init`. -/
def start (userId : Text) : PeerSystem where
  shared := { userId := userId }
  todo := fun t => if t = .iceWorker then [.wait] else []

/-- What a transport does with a status of its connection. -/
def statusProgram (user : Text) (connection : Nat) (status : ConnectionStatus) : List Operation :=
  if isTerminalConnectionStatus status then [.retire user connection status]
  else [.checkCurrent user connection status]

/-- One step of a run. An action that cannot happen changes nothing. -/
def step (s : PeerSystem) : PeerAction → PeerSystem
  | .signal signal =>
      if s.todo .websocket = [] ∧ s.shared.shutdown = false then
        System.start s .websocket
          { s.shared with handling := true, arrived := s.shared.arrived ++ [signal] }
          (s.shared.processSignal signal ++ [.handled])
      else s
  | .signalLost =>
      if s.todo .websocket = [] ∧ s.shared.shutdown = false then
        System.start s .websocket { s.shared with handling := true } [.clear, .handled]
      else s
  | .leave n =>
      if s.todo (.application n) = [] then System.start s (.application n) s.shared [.clear] else s
  | .destroy n =>
      if s.todo (.application n) = [] ∧ s.shared.destroyCalled = false then
        System.start s (.application n) { s.shared with destroyCalled := true } [.destroy .clear]
      else s
  | .status n connection status =>
      match s.shared.connections[connection]? with
      | none => s
      | some user =>
          if s.todo (.transport n) = [] then
            System.start s (.transport n) s.shared (statusProgram user connection status)
          else s
  | .run t => System.perform exec s t

end PeerSystem

end MiniRtc
