import MiniRtc.Rtcp.Feedback
import MiniRtc.Rtcp.Nack
import MiniRtc.Rtcp.Reports

/-!
# Compound RTCP packets

`ParseRtcpPacket` of `ice_transport.cpp` with its handlers. The loop takes one packet after the
other from a buffer. It gives up at a packet whose header is not accepted, and it goes on behind a
packet that its handler rejects; only where all were accepted it hands the report blocks over.
-/

namespace MiniRtc

open Wire

/-- What the clock of the transport says when a report block is handled. -/
structure ClockReading where
  nowUs : ℤ
  nowNtp : BitVec 64
  utcUs : ℤ

/-- `CompactNtp`. -/
def compactNtp (ntpTime : BitVec 64) : BitVec 32 :=
  ((ntpTime >>> 32).setWidth 32 <<< 16) ||| (ntpTime.setWidth 32 >>> 16)

/-- `CompactNtpIntervalToMilliseconds`. -/
def compactNtpIntervalToMilliseconds (interval : BitVec 32) : ℤ :=
  (interval.toNat * 1000 + 65536 / 2) / 65536

/-- `RtcpReportBlock` as it is handed over, with one round trip time or none. -/
structure ReportBlockData where
  senderSsrc : BitVec 32
  sourceSsrc : BitVec 32
  fractionLost : Byte
  cumulativeLost : BitVec 32
  extendedHighSeqNum : BitVec 32
  jitter : BitVec 32
  reportBlockTimestampUtc : ℤ
  reportBlockTimestamp : ℤ
  lastRtt : Option ℤ
  deriving DecidableEq

/-- `RtcpPacketInfo`, what the handlers write of it. -/
structure RtcpPacketInfo where
  remoteSsrc : BitVec 32 := 0
  reportBlockDatas : List ReportBlockData := []
  rtt : Option ℤ := none
  deriving DecidableEq

/-- The calls of the transport controller. -/
inductive RtcpCall where
  | onSenderReport (report : SenderReport)
  | onCongestionControlFeedback (feedback : ParsedFeedback)
  | onReceiveNack (mediaSsrc : BitVec 32) (packetIds : List (BitVec 16))
  | fullIntraRequest (ssrc : BitVec 32)
  | onReceiverReport (reportBlockDatas : List ReportBlockData)
  deriving DecidableEq

/-- What a handler or the whole parse did. -/
structure Handled where
  valid : Bool
  info : RtcpPacketInfo
  calls : List RtcpCall
  deriving DecidableEq

namespace IceTransport

variable (clock : Nat → ClockReading) (controller : Bool)

/-- The calls of a controller that may be missing. -/
def whenPresent (calls : List RtcpCall) : List RtcpCall :=
  if controller then calls else []

/-- `SetReportBlock`, and the round trip time of a block that knows a sender report. -/
def reportBlockData (now : ClockReading) (remoteSsrc : BitVec 32) (block : RtcpReportBlock) :
    ReportBlockData where
  senderSsrc := remoteSsrc
  sourceSsrc := block.sourceSsrc
  fractionLost := block.fractionLost
  cumulativeLost := block.cumulativeLost
  extendedHighSeqNum := block.extendedHighSeqNum
  jitter := block.jitter
  reportBlockTimestampUtc := now.utcUs
  reportBlockTimestamp := now.nowUs
  lastRtt :=
    if block.lastSr ≠ 0 then
      some (compactNtpIntervalToMilliseconds
        (compactNtp now.nowNtp - block.delaySinceLastSr - block.lastSr))
    else none

/-- `HandleReportBlock`. The clock is read once for each block that is handed over. -/
def handleReportBlock (remoteSsrc : BitVec 32) (info : RtcpPacketInfo) (block : RtcpReportBlock) :
    RtcpPacketInfo :=
  let data := reportBlockData (clock info.reportBlockDatas.length) remoteSsrc block
  { info with
    reportBlockDatas := info.reportBlockDatas ++ [data]
    rtt := if block.lastSr ≠ 0 then data.lastRtt else info.rtt }

/-- `HandleSenderReport`. -/
def handleSenderReport (block : RtcpCommonHeader) (info : RtcpPacketInfo) : Option Handled := do
  let fresh : SenderReport := ⟨0, ⟨0, 0, 0, 0, 0, 0⟩, [], [], rfl⟩
  let (parsed, report) ← fresh.parse block
  some (if parsed then ⟨true, info, whenPresent controller [.onSenderReport report]⟩
    else ⟨false, info, []⟩)

/-- `HandleReceiverReport`. -/
def handleReceiverReport (block : RtcpCommonHeader) (info : RtcpPacketInfo) :
    Option Handled := do
  let fresh : ReceiverReport := ⟨0, [], []⟩
  let (parsed, report) ← fresh.parse block
  some (if parsed = 0 then ⟨false, info, []⟩
    else
      ⟨true, report.reports.foldl (handleReportBlock clock report.senderSsrc)
        { info with remoteSsrc := report.senderSsrc }, []⟩)

/-- `HandleCongestionControlFeedback`. -/
def handleCongestionControlFeedback (block : RtcpCommonHeader) (info : RtcpPacketInfo) :
    Option Handled := do
  let parsed ← ParsedFeedback.parse block
  some (match parsed with
    | none => ⟨false, info, []⟩
    | some feedback =>
        if feedback.packets = [] then ⟨false, info, []⟩
        else ⟨true, info, whenPresent controller [.onCongestionControlFeedback feedback]⟩)

/-- `HandleNack`. -/
def handleNack (block : RtcpCommonHeader) (info : RtcpPacketInfo) : Option Handled := do
  let (parsed, nack) ← ({} : Nack).parse block
  some (if parsed then
      ⟨controller, info, whenPresent controller [.onReceiveNack nack.mediaSsrc nack.packetIds]⟩
    else ⟨false, info, []⟩)

/-- `HandleFir`. -/
def handleFir (block : RtcpCommonHeader) (info : RtcpPacketInfo) : Option Handled := do
  let parsed ← Fir.parse block
  some (match parsed with
    | none => ⟨false, info, []⟩
    | some fir =>
        ⟨controller, info,
          whenPresent controller (fir.items.map fun request => .fullIntraRequest request.ssrc)⟩)

/-- The switch over the type and the format of a packet. -/
def handleBlock (block : RtcpCommonHeader) (info : RtcpPacketInfo) : Option Handled :=
  if block.packetType = kSenderReportType then handleSenderReport controller block info
  else if block.packetType = kReceiverReportType then handleReceiverReport clock block info
  else if block.packetType = ParsedFeedback.kPacketType then
    if block.countOrFormat = ParsedFeedback.kFeedbackMessageType then
      handleCongestionControlFeedback controller block info
    else if block.countOrFormat = BitVec.ofNat 8 Nack.kFeedbackMessageType then
      handleNack controller block info
    else some ⟨true, info, []⟩
  else if block.packetType = Fir.kPacketType then
    if block.countOrFormat = Fir.kFeedbackMessageType then handleFir controller block info
    else some ⟨true, info, []⟩
  else some ⟨true, info, []⟩

/-- What follows the loop. -/
def finish (s : Handled) : Handled :=
  if s.valid && controller && s.info.reportBlockDatas ≠ [] then
    { s with calls := s.calls ++ [.onReceiverReport s.info.reportBlockDatas] }
  else s

/-- The loop over the packets of a buffer, with what was done so far. A return from the loop skips
what follows it. -/
def parseBlocks (nextBlock : List Byte) (remaining : Nat) (s : Handled) : Option Handled :=
  if remaining = 0 then some (finish controller s)
  else
    match RtcpCommonHeader.parse nextBlock remaining with
    | none => none
    | some none => some { s with valid := false }
    | some (some block) =>
        if _h : block.packetSize = 0 ∨ block.packetSize > remaining then
          some { s with valid := false }
        else
          match handleBlock clock controller block s.info with
          | none => none
          | some handled =>
              parseBlocks block.nextPacket (remaining - block.packetSize)
                ⟨s.valid && handled.valid, handled.info, s.calls ++ handled.calls⟩
termination_by remaining
decreasing_by omega

/-- `ParseRtcpPacket`, which gives `none` where it reads outside of the buffer. -/
def parseRtcpPacket (buffer : List Byte) (info : RtcpPacketInfo) : Option Handled :=
  if buffer.length = 0 then some ⟨false, info, []⟩
  else parseBlocks clock controller buffer buffer.length ⟨true, info, []⟩

end IceTransport

end MiniRtc
