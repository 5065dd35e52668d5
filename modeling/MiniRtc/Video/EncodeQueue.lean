import MiniRtc.Foundation.OrderedMap
import Mathlib.Data.Finset.Basic
import Mathlib.Data.String.Basic

/-!
# Key-frame requests and the encode queue

`SendVideo` of `ice_transport_controller.cpp` with the task that it posts to the encode queue, and
the functions that request key frames. A request is a marker of its stream in
`force_i_frame_streams_`, or the flag `b_force_i_frame_` when there is no video stream yet.
`SendVideo` moves it into the task of the frame that it accepts, and the task calls `ForceIdr`.

The calls may interleave in any order. The worker of the queue takes a task in one step and runs it
in another, so that frames are accepted while a task runs. What the task gets from
`MaterializeNativeFrame`, `ResolutionDowngrade` and `ForceIdr` is an input of the step.
-/

namespace MiniRtc

/-- The kind of a stream. -/
inductive StreamType where
  | audio
  | video
  | data
  deriving DecidableEq

/-- `MiniRtcNativeVideoFrameType`, without the value of a frame that has no native payload. -/
inductive NativeVideoFrameType where
  | cpuNv12
  | cudaNv12
  | cvPixelBuffer
  deriving DecidableEq

/-- `MiniRtcNativeVideoFrame`. `complete` says that the owner, its callbacks and the members of the
payload that the type selects are there. -/
structure NativeVideoFrame where
  type : NativeVideoFrameType
  width : Nat
  height : Nat
  complete : Bool

/-- `MiniRtcVideoFrame`, with `data` for the presence of the pixels. -/
structure VideoFrame where
  width : Nat
  height : Nat
  size : Nat
  data : Bool
  nativeFrame : Option NativeVideoFrame

/-- `RawFrame`: its size and its native frame, if it has one. -/
structure RawFrame where
  width : Nat
  height : Nat
  nativeFrame : Option NativeVideoFrameType

/-- The largest `size_t`. -/
def sizeMax : Nat := 2 ^ 64 - 1

/-- `GetNv12FrameSize`, with the product modulo `2 ^ 64`. -/
def getNv12FrameSize (width height : Nat) : Option Nat :=
  if width = 0 ∨ height = 0 ∨ width % 2 ≠ 0 ∨ height % 2 ≠ 0 ∨ sizeMax / height < width then none
  else if sizeMax / 3 * 2 < width * height then none
  else some (width * height * 3 % 2 ^ 64 / 2)

/-- `GetNativeVideoFrame`. -/
def getNativeVideoFrame (frame : NativeVideoFrame) : Option NativeVideoFrame :=
  if frame.complete ∧ frame.width < 2 ^ 31 ∧ frame.height < 2 ^ 31 ∧
      getNv12FrameSize frame.width frame.height ≠ none then some frame
  else none

/-- `GetNativeVideoFrameInput`: the native frame when it has the size of the frame. -/
def getNativeVideoFrameInput (frame : VideoFrame) : Option NativeVideoFrame :=
  (frame.nativeFrame.bind getNativeVideoFrame).filter fun native =>
    frame.width = native.width ∧ frame.height = native.height

/-- The frame that `SendVideo` encodes, if the input is valid. -/
def rawFrameOf (frame : VideoFrame) : Option RawFrame :=
  match getNativeVideoFrameInput frame with
  | some native => some ⟨native.width, native.height, some native.type⟩
  | none =>
      match getNv12FrameSize frame.width frame.height with
      | none => none
      | some required =>
          if frame.data ∧ required ≤ frame.size then some ⟨frame.width, frame.height, none⟩
          else none

/-- A codec, as far as the encode task asks it. -/
structure MediaCodec where
  supportsNativeFrameInput : NativeVideoFrameType → Bool

/-- `StreamContext`, as far as `SendVideo` and the key-frame requests read it. -/
structure StreamContext where
  name : String
  type : StreamType
  ssrc : Option Nat
  codec : Option MediaCodec := none
  targetWidth : Option Int := none
  targetHeight : Option Int := none

/-- What the task of `SendVideo` captures. -/
structure EncodeTask where
  channelName : String
  forceIFrame : Bool
  targetWidth : Int
  targetHeight : Int
  frame : RawFrame

/-- A task of the encode queue. -/
inductive QueuedTask where
  | encode (task : EncodeTask)
  | updateVideoBitrate (channelName : String)

/-- What the calls of an encode task return. -/
structure EncodeResults where
  materialized : Bool
  downgrade : Int
  forceIdr : Int

/-- `IceTransportController` with the worker of its encode queue. -/
structure IceTransportController where
  isRunning : Bool := true
  bForceIFrame : Bool := true
  forceIFrameStreams : Finset String := ∅
  streamSenders : List StreamContext := []
  encodeQueue : List QueuedTask := []
  running : Option QueuedTask := none

/-- The calls of the application and of the peer, and the steps of the worker. -/
inductive ControllerCall where
  /-- `AddVideoSendChannel` and its siblings, with the numbers that `GenerateUniqueSsrc` draws. -/
  | addSendChannel (channelName : String) (type : StreamType) (draws : List Nat)
  /-- `CreateStreamCodecs` for one stream. -/
  | createStreamCodec (channelName : String) (codec : MediaCodec)
  /-- The resolution adaptation sets the target of a stream. -/
  | setTarget (channelName : String) (width height : Option Int)
  /-- `SendVideo`, and whether the pacer is too far behind for a desktop frame. -/
  | sendVideo (frame : Option VideoFrame) (channelName : String) (backlogged : Bool)
  | fullIntraRequest (channelName : String)
  | fullIntraRequestSsrc (mediaSsrc : Nat)
  | fullIntraRequestAllVideoStreams
  /-- A bitrate update is posted. -/
  | postBitrateUpdate (channelName : String)
  /-- The worker takes a task from the queue. -/
  | dequeue
  /-- The worker runs the task that it has taken. -/
  | run (results : EncodeResults)
  | destroy

namespace IceTransportController

/-- The order of `std::map<std::string, ...>`. -/
def nameLt (a b : String) : Bool := decide (a < b)

/-- `stream_senders_.find`. -/
def findSender (s : IceTransportController) (channelName : String) : Option StreamContext :=
  OrderedMap.find? nameLt StreamContext.name channelName s.streamSenders

/-- A number that no stream has, as `GenerateUniqueSsrc` returns it. -/
def generateUniqueSsrc (s : IceTransportController) (draws : List Nat) : Option Nat :=
  draws.find? fun draw => draw ≠ 0 && s.streamSenders.all fun context => context.ssrc ≠ some draw

/-- `AddVideoSendChannel` and its siblings. -/
def addSendChannel (s : IceTransportController) (channelName : String) (type : StreamType)
    (draws : List Nat) : IceTransportController :=
  match s.findSender channelName, s.generateUniqueSsrc draws with
  | none, some ssrc =>
      { s with
        streamSenders := OrderedMap.insertOrAssign nameLt StreamContext.name
          { name := channelName, type := type, ssrc := some ssrc } s.streamSenders }
  | _, _ => s

/-- Change the context of a stream. -/
def updateSender (s : IceTransportController) (channelName : String)
    (f : StreamContext → StreamContext) : IceTransportController :=
  { s with streamSenders := s.streamSenders.map fun context =>
      if context.name = channelName then f context else context }

/-- The names of the video streams. -/
def videoNames (s : IceTransportController) : List String :=
  (s.streamSenders.filter fun context => context.type = .video).map StreamContext.name

/-- The early returns of `SendVideo`: the frame and the context of a frame that it accepts. -/
def accepted (s : IceTransportController) (frame : Option VideoFrame) (channelName : String)
    (backlogged : Bool) : Option (RawFrame × StreamContext) :=
  if s.isRunning = false then none
  else
    match frame.bind rawFrameOf, s.findSender channelName with
    | some rawFrame, some context =>
        if context.type ≠ .data ∧ context.codec.isNone then none
        else if backlogged then none
        else if s.encodeQueue.isEmpty then some (rawFrame, context)
        else none
    | _, _ => none

/-- Whether the next accepted frame of a stream carries a request. -/
def forces (s : IceTransportController) (channelName : String) : Bool :=
  s.bForceIFrame || decide (channelName ∈ s.forceIFrameStreams)

/-- `SendVideo`. -/
def sendVideo (s : IceTransportController) (frame : Option VideoFrame) (channelName : String)
    (backlogged : Bool) : IceTransportController :=
  match s.accepted frame channelName backlogged with
  | none => s
  | some (rawFrame, context) =>
      { s with
        bForceIFrame := false
        forceIFrameStreams := s.forceIFrameStreams.erase channelName
        encodeQueue := s.encodeQueue ++ [.encode {
          channelName := channelName
          forceIFrame := s.forces channelName
          targetWidth := context.targetWidth.getD 0
          targetHeight := context.targetHeight.getD 0
          frame := rawFrame }] }

/-- `FullIntraRequestAllVideoStreams`: an early request waits for the first video sender. -/
def fullIntraRequestAllVideoStreams (s : IceTransportController) : IceTransportController :=
  if s.videoNames = [] then { s with bForceIFrame := true }
  else { s with forceIFrameStreams := s.videoNames.toFinset ∪ s.forceIFrameStreams }

/-- `FullIntraRequest` of a channel name. -/
def fullIntraRequest (s : IceTransportController) (channelName : String) : IceTransportController :=
  if channelName = "" then s.fullIntraRequestAllVideoStreams
  else { s with forceIFrameStreams := insert channelName s.forceIFrameStreams }

/-- The first video stream with the SSRC. -/
def findVideoSsrc (s : IceTransportController) (mediaSsrc : Nat) : Option StreamContext :=
  s.streamSenders.find? fun context =>
    context.type = .video && decide (context.ssrc.getD 0 = mediaSsrc)

/-- `FullIntraRequest` of an SSRC, where 0 stands for all streams. -/
def fullIntraRequestSsrc (s : IceTransportController) (mediaSsrc : Nat) :
    IceTransportController :=
  if mediaSsrc = 0 then s.fullIntraRequestAllVideoStreams
  else
    match s.findVideoSsrc mediaSsrc with
    | none => s
    | some context => if context.name = "" then s else s.fullIntraRequest context.name

/-- `needs_scaling` of an encode task. -/
def needsScaling (task : EncodeTask) : Bool :=
  decide (0 < task.targetWidth ∧ 0 < task.targetHeight ∧ task.targetWidth < task.frame.width ∧
    task.targetHeight < task.frame.height)

/-- The frame that an encode task hands to the codec. The task returns without it when the stream
is gone or one of its calls fails. -/
def prepareFrame (s : IceTransportController) (task : EncodeTask) (results : EncodeResults) :
    Option RawFrame :=
  if s.isRunning = false then none
  else
    match (s.findSender task.channelName).bind StreamContext.codec with
    | none => none
    | some codec =>
        if task.frame.nativeFrame.any (fun type =>
            needsScaling task || !codec.supportsNativeFrameInput type) &&
            !results.materialized then none
        else if needsScaling task then
          if results.downgrade ≠ 0 then none
          else some ⟨task.targetWidth.toNat, task.targetHeight.toNat, none⟩
        else some task.frame

/-- The encode task, up to the call of `Encode`. -/
def runEncodeTask (s : IceTransportController) (task : EncodeTask) (results : EncodeResults) :
    IceTransportController :=
  match s.prepareFrame task results with
  | none => s
  | some _ =>
      if task.forceIFrame ∧ results.forceIdr ≠ 0 then
        { s with forceIFrameStreams := insert task.channelName s.forceIFrameStreams }
      else s

/-- `Destroy`: the streams are gone, and the worker drains the queue. -/
def destroy (s : IceTransportController) : IceTransportController :=
  { s with isRunning := false, streamSenders := [] }

/-- One call. The worker takes a task only when it is idle. -/
def step (s : IceTransportController) : ControllerCall → IceTransportController
  | .addSendChannel channelName type draws => s.addSendChannel channelName type draws
  | .createStreamCodec channelName codec =>
      s.updateSender channelName fun context =>
        if context.codec.isNone then { context with codec := some codec } else context
  | .setTarget channelName width height =>
      s.updateSender channelName fun context =>
        { context with targetWidth := width, targetHeight := height }
  | .sendVideo frame channelName backlogged => s.sendVideo frame channelName backlogged
  | .fullIntraRequest channelName => s.fullIntraRequest channelName
  | .fullIntraRequestSsrc mediaSsrc => s.fullIntraRequestSsrc mediaSsrc
  | .fullIntraRequestAllVideoStreams => s.fullIntraRequestAllVideoStreams
  | .postBitrateUpdate channelName =>
      if s.isRunning then
        { s with encodeQueue := s.encodeQueue ++ [.updateVideoBitrate channelName] }
      else s
  | .dequeue =>
      match s.running, s.encodeQueue with
      | none, task :: rest => { s with encodeQueue := rest, running := some task }
      | _, _ => s
  | .run results =>
      match s.running with
      | some (.encode task) => { s.runEncodeTask task results with running := none }
      | some (.updateVideoBitrate _) => { s with running := none }
      | none => s
  | .destroy => s.destroy

end IceTransportController

end MiniRtc
