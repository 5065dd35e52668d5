import MiniRtc.Foundation.WorkQueue
import MiniRtc.Video.EncodeQueue

/-!
# The target bitrate of the encoders

`UpdateVideoBitrateAllocation`, `PostVideoBitrateUpdate` and `ApplyVideoBitrateUpdateOnEncodeQueue`
of `ice_transport_controller.cpp`. The controller writes the desired bitrate of its active video
streams, and a task of the encode queue gives it to the encoder of a stream. A flag of the stream
says that its task is on its way. Callers and the worker of the queue take their steps in any order:
each section under `stream_senders_mutex_`, each `PostTask` and each `SetTargetBitrate` is one
operation.

Contexts and codecs are numbered as they are created. What the encoders are told is recorded. The
share of the bitrate next to data streams, which is computed in floating point, and what the
encoders answer are parameters.
-/

namespace MiniRtc

open Threads System

/-- What the model takes from outside. -/
structure BitrateEnvironment where
  /-- `static_cast<int64_t>(target_bitrate_ * 0.9)`. -/
  videoShare : ℤ → ℤ
  /-- The results of `SetTargetBitrate`, in the order of the calls. -/
  setTargetBitrate : Nat → ℤ

/-- `StreamContext`, as far as the bitrate updates read it. -/
structure BitrateContext where
  name : String
  context : Nat
  type : StreamType
  codec : Option Nat := none
  lastActiveTime : Option ℤ := none
  desiredTargetBitrate : Option ℤ := none
  appliedTargetBitrate : Option ℤ := none
  bitrateUpdateQueued : Bool := false
  deriving DecidableEq

/-- What a task of `PostVideoBitrateUpdate` captures. -/
structure BitrateTask where
  channelName : String
  context : Nat
  codec : Nat
  deriving DecidableEq

/-- The tasks of the encode queue. -/
inductive BitrateQueueTask where
  | bitrate (task : BitrateTask)
  | other
  deriving DecidableEq

/-- A call of `SetTargetBitrate`. -/
structure BitrateCall where
  task : BitrateTask
  target : ℤ
  result : ℤ

/-- The operations of the threads. -/
inductive BitrateOperation where
  /-- The first checks of `UpdateVideoBitrateAllocation`. -/
  | updateVideoBitrateAllocation (nowMs : ℤ)
  /-- The section of `UpdateVideoBitrateAllocation`. -/
  | allocate (nowMs : ℤ)
  | postVideoBitrateUpdate (task : BitrateTask)
  /-- `ApplyVideoBitrateUpdateOnEncodeQueue`, up to the end of its first section. -/
  | applyVideoBitrateUpdate (task : BitrateTask)
  | setTargetBitrate (task : BitrateTask) (target : ℤ)
  /-- The second section of `ApplyVideoBitrateUpdateOnEncodeQueue`. -/
  | finishVideoBitrateUpdate (task : BitrateTask) (target result : ℤ)
  deriving DecidableEq

/-- The task that an operation belongs to. -/
def BitrateOperation.task? : BitrateOperation → Option BitrateTask
  | .updateVideoBitrateAllocation _ | .allocate _ => none
  | .postVideoBitrateUpdate task | .applyVideoBitrateUpdate task | .setTargetBitrate task _
  | .finishVideoBitrateUpdate task _ _ => some task

/-- The worker of the encode queue and the callers of the controller. -/
inductive BitrateThread where
  | worker
  | caller (n : Nat)
  deriving DecidableEq

/-- The part of `IceTransportController` that the functions share, with the encode queue. -/
structure BitrateController where
  targetBitrate : ℤ := 0
  isRunning : Bool := true
  streamSenders : List BitrateContext := []
  tasks : List BitrateQueueTask := []
  stopped : Bool := false
  nextContext : Nat := 0
  nextCodec : Nat := 0
  calls : List BitrateCall := []

namespace BitrateContext

/-- The task of a stream with a codec. -/
def task? (c : BitrateContext) : Option BitrateTask :=
  c.codec.map fun codec => ⟨c.name, c.context, codec⟩

/-- The stream was active within `kActiveStreamTimeoutMs`. -/
def isActive (nowMs : ℤ) (c : BitrateContext) : Bool :=
  c.lastActiveTime.any fun time => nowMs - time < 100

/-- An active video stream that has a codec. -/
def isActiveVideo (nowMs : ℤ) (c : BitrateContext) : Bool :=
  c.isActive nowMs && c.type == .video && c.codec.isSome

/-- The stream gets a task when the desired bitrate is neither on its way nor applied. -/
def schedules (nowMs bitrate : ℤ) (c : BitrateContext) : Bool :=
  c.isActiveVideo nowMs && !c.bitrateUpdateQueued && c.appliedTargetBitrate != some bitrate

/-- One round of the second loop of `UpdateVideoBitrateAllocation`. -/
def allocate (nowMs bitrate : ℤ) (c : BitrateContext) : BitrateContext :=
  if c.isActiveVideo nowMs then
    { c with
      desiredTargetBitrate := some bitrate
      bitrateUpdateQueued := c.bitrateUpdateQueued || c.schedules nowMs bitrate }
  else c

/-- A successful call of the encoder is recorded. -/
def recordResult (target result : ℤ) (c : BitrateContext) : BitrateContext :=
  if result = 0 then { c with appliedTargetBitrate := some target } else c

/-- The flag goes down. -/
def unqueue (c : BitrateContext) : BitrateContext :=
  { c with bitrateUpdateQueued := false }

end BitrateContext

namespace BitrateController

/-! ## The functions of the source -/

/-- `PER_VIDEO_BITRATE` of `UpdateVideoBitrateAllocation`, when there are active video streams. -/
def perVideoBitrate (env : BitrateEnvironment) (s : BitrateController) (nowMs : ℤ) : ℤ :=
  let activeVideoCount := s.streamSenders.countP fun c => c.isActiveVideo nowMs
  let activeDataCount := s.streamSenders.countP fun c => c.isActive nowMs && c.type == .data
  let videoBitrateTotal :=
    if 0 < activeDataCount then env.videoShare s.targetBitrate else s.targetBitrate
  (videoBitrateTotal.tdiv activeVideoCount).bmod (2 ^ 32)

/-- The section of `UpdateVideoBitrateAllocation`, and the posts behind it. -/
def allocate (env : BitrateEnvironment) (s : BitrateController) (nowMs : ℤ) :
    BitrateController × List BitrateOperation :=
  if s.streamSenders.countP (fun c => c.isActiveVideo nowMs) = 0 then (s, [])
  else
    let bitrate := s.perVideoBitrate env nowMs
    ({ s with streamSenders := s.streamSenders.map (·.allocate nowMs bitrate) },
      ((s.streamSenders.filter (·.schedules nowMs bitrate)).filterMap (·.task?)).map
        .postVideoBitrateUpdate)

/-- `PostVideoBitrateUpdate`. A stopped queue drops the task. -/
def postVideoBitrateUpdate (s : BitrateController) (task : BitrateTask) : BitrateController :=
  if s.stopped then s else { s with tasks := s.tasks ++ [.bitrate task] }

/-- The stream of a task, when it still has the context and the codec of the task. -/
def current (s : BitrateController) (task : BitrateTask) : Option BitrateContext :=
  (s.streamSenders.find? fun c => c.name = task.channelName).filter fun c =>
    c.context = task.context ∧ c.codec = some task.codec

/-- Change the context of a stream. -/
def updateSender (s : BitrateController) (channelName : String)
    (f : BitrateContext → BitrateContext) : BitrateController :=
  { s with streamSenders := s.streamSenders.map fun c => if c.name = channelName then f c else c }

/-- `ApplyVideoBitrateUpdateOnEncodeQueue`, up to the end of its first section. -/
def applyVideoBitrateUpdate (s : BitrateController) (task : BitrateTask) :
    BitrateController × List BitrateOperation :=
  if s.isRunning = false then (s, [])
  else
    match s.current task with
    | none => (s, [])
    | some c =>
        match c.desiredTargetBitrate with
        | none => (s.updateSender task.channelName (·.unqueue), [])
        | some target =>
            if c.appliedTargetBitrate = some target then (s.updateSender task.channelName (·.unqueue), [])
            else (s, [.setTargetBitrate task target])

/-- `SetTargetBitrate` of the codec of a task. -/
def setTargetBitrate (env : BitrateEnvironment) (s : BitrateController) (task : BitrateTask)
    (target : ℤ) : BitrateController × List BitrateOperation :=
  let result := env.setTargetBitrate s.calls.length
  ({ s with calls := s.calls ++ [⟨task, target, result⟩] },
    [.finishVideoBitrateUpdate task target result])

/-- The second section of `ApplyVideoBitrateUpdateOnEncodeQueue`. -/
def finishVideoBitrateUpdate (s : BitrateController) (task : BitrateTask) (target result : ℤ) :
    BitrateController × List BitrateOperation :=
  if s.isRunning = false then (s, [])
  else
    match s.current task with
    | none => (s, [])
    | some c =>
        let s := s.updateSender task.channelName (·.recordResult target result)
        if c.desiredTargetBitrate.isSome ∧ c.desiredTargetBitrate ≠ some target then
          (s, [.postVideoBitrateUpdate task])
        else (s.updateSender task.channelName (·.unqueue), [])

/-- What an operation does, and what its thread goes on with. -/
def exec (env : BitrateEnvironment) (s : BitrateController) :
    BitrateOperation → BitrateController × List BitrateOperation
  | .updateVideoBitrateAllocation nowMs =>
      if s.targetBitrate ≤ 0 ∨ s.isRunning = false then (s, []) else (s, [.allocate nowMs])
  | .allocate nowMs => s.allocate env nowMs
  | .postVideoBitrateUpdate task => (s.postVideoBitrateUpdate task, [])
  | .applyVideoBitrateUpdate task => s.applyVideoBitrateUpdate task
  | .setTargetBitrate task target => s.setTargetBitrate env task target
  | .finishVideoBitrateUpdate task target result => s.finishVideoBitrateUpdate task target result

/-- `AddVideoSendChannel` and its siblings. -/
def addSendChannel (s : BitrateController) (channelName : String) (type : StreamType) :
    BitrateController :=
  if (s.streamSenders.find? fun c => c.name = channelName).isSome then s
  else
    { s with
      streamSenders := OrderedMap.insertOrAssign IceTransportController.nameLt BitrateContext.name
        { name := channelName, context := s.nextContext, type := type } s.streamSenders
      nextContext := s.nextContext + 1 }

/-- `CreateStreamCodecs` for one video stream. -/
def createStreamCodec (s : BitrateController) (channelName : String) : BitrateController :=
  { s.updateSender channelName fun c =>
      if c.type = .video ∧ c.codec = none then
        { c with
          codec := some s.nextCodec
          desiredTargetBitrate := none
          appliedTargetBitrate := none
          bitrateUpdateQueued := false }
      else c with
    nextCodec := s.nextCodec + 1 }

/-- The last call of `SetTargetBitrate` for the codec of a task, with its target and its result. -/
def lastCall (s : BitrateController) (task : BitrateTask) : Option (ℤ × ℤ) :=
  (s.calls.filter fun call => call.task = task).getLast?.map fun call => (call.target, call.result)

end BitrateController

/-! ## Runs -/

/-- The threads over the controller. -/
abbrev BitrateSystem := System BitrateThread BitrateController BitrateOperation

/-- What happens next. -/
inductive BitrateAction where
  /-- A caller that does nothing else calls `UpdateVideoBitrateAllocation`. -/
  | update (n : Nat) (nowMs : ℤ)
  /-- A thread performs its next operation. -/
  | perform (t : BitrateThread)
  /-- The worker takes a task. -/
  | take (index : Nat)
  /-- Another task is posted. -/
  | postOther
  | setTarget (targetBitrate : ℤ)
  | addSendChannel (channelName : String) (type : StreamType)
  | createStreamCodec (channelName : String)
  /-- A frame of a stream is sent. -/
  | sendFrame (channelName : String) (nowMs : ℤ)
  /-- `Destroy` ends the controller. -/
  | destroy
  /-- `Destroy` stops the encode queue and drops the streams. -/
  | stop

namespace BitrateSystem

/-- The worker takes a task of the queue. Tasks of other kinds are over at once. -/
def take (s : BitrateSystem) (index : Nat) : BitrateSystem :=
  if s.todo .worker = [] then
    match s.shared.tasks[index]? with
    | none => s
    | some task =>
        s.start .worker { s.shared with tasks := s.shared.tasks.eraseIdx index }
          (match task with
            | .bitrate task => [.applyVideoBitrateUpdate task]
            | .other => [])
  else s

/-- One step of the system. -/
def step (env : BitrateEnvironment) (s : BitrateSystem) : BitrateAction → BitrateSystem
  | .update n nowMs =>
      if s.todo (.caller n) = [] then
        s.start (.caller n) s.shared [.updateVideoBitrateAllocation nowMs]
      else s
  | .perform t => s.perform (fun shared op => shared.exec env op) t
  | .take index => s.take index
  | .postOther =>
      if s.shared.stopped then s
      else { s with shared := { s.shared with tasks := s.shared.tasks ++ [.other] } }
  | .setTarget targetBitrate =>
      { s with shared := { s.shared with targetBitrate := targetBitrate } }
  | .addSendChannel channelName type =>
      { s with shared := s.shared.addSendChannel channelName type }
  | .createStreamCodec channelName =>
      { s with shared := s.shared.createStreamCodec channelName }
  | .sendFrame channelName nowMs =>
      { s with shared := s.shared.updateSender channelName fun c =>
          { c with lastActiveTime := some nowMs } }
  | .destroy => { s with shared := { s.shared with isRunning := false } }
  | .stop =>
      if s.shared.isRunning then s
      else { s with shared := { s.shared with stopped := true, streamSenders := [] } }

/-- The controller after its construction. -/
def initial : BitrateSystem where
  shared := {}
  todo := fun _ => []

end BitrateSystem

end MiniRtc
