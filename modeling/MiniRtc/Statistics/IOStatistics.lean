import Mathlib.Data.BitVec

/-!
# The statistics of the traffic

The counters of `IOStatistics` of `io_statistics.cpp` that are updated packet by packet, as they
are between two reports of the statistics thread.
-/

namespace MiniRtc

/-- What `IOStatistics` knows about the losses of one medium. -/
structure RtpPktLoss where
  lastReceivedRtpPktSeq : BitVec 16 := 0
  rtpPktLossCnt : BitVec 32 := 0
  deriving DecidableEq

/-- `HALF_SEQ_RANGE`. -/
def halfSeqRange : Nat := 65535 / 2 + 1

/-- The common form of the three functions. -/
def RtpPktLoss.update (s : RtpPktLoss) (seqNum : BitVec 16) : RtpPktLoss :=
  if s.lastReceivedRtpPktSeq = 0 then { s with lastReceivedRtpPktSeq := seqNum }
  else
    let diff := seqNum - s.lastReceivedRtpPktSeq
    if diff = 0 then s
    else if diff.toNat < halfSeqRange then
      { lastReceivedRtpPktSeq := seqNum
        rtpPktLossCnt :=
          if 1 < diff.toNat then s.rtpPktLossCnt + BitVec.ofNat 32 (diff.toNat - 1)
          else s.rtpPktLossCnt }
    else if 0 < s.rtpPktLossCnt.toNat then { s with rtpPktLossCnt := s.rtpPktLossCnt - 1 }
    else s

/-- The losses of the media in `IOStatistics`, and what has been sent as data. -/
structure IOStatistics where
  video : RtpPktLoss := {}
  audio : RtpPktLoss := {}
  data : RtpPktLoss := {}
  dataOutboundBytes : BitVec 32 := 0
  dataOutboundRtpPktCnt : BitVec 32 := 0

/-- The media of a connection. -/
inductive Medium where
  | video
  | audio
  | data

namespace IOStatistics

/-- `UpdateVideoPacketLossCount`. -/
def updateVideoPacketLossCount (s : IOStatistics) (seqNum : BitVec 16) : IOStatistics :=
  { s with video := s.video.update seqNum }

/-- `UpdateAudioPacketLossCount`. -/
def updateAudioPacketLossCount (s : IOStatistics) (seqNum : BitVec 16) : IOStatistics :=
  { s with audio := s.audio.update seqNum }

/-- `UpdateDataPacketLossCount`. -/
def updateDataPacketLossCount (s : IOStatistics) (seqNum : BitVec 16) : IOStatistics :=
  { s with data := s.data.update seqNum }

/-- `UpdateDataOutboundBytes`. -/
def updateDataOutboundBytes (s : IOStatistics) (bytes : BitVec 32) : IOStatistics :=
  { s with dataOutboundBytes := s.dataOutboundBytes + bytes }

/-- `IncrementDataOutboundRtpPacketCount`. -/
def incrementDataOutboundRtpPacketCount (s : IOStatistics) : IOStatistics :=
  { s with dataOutboundRtpPktCnt := s.dataOutboundRtpPktCnt + 1 }

/-- The function of a medium. -/
def updatePacketLossCount (medium : Medium) (s : IOStatistics) (seqNum : BitVec 16) :
    IOStatistics :=
  match medium with
  | .video => s.updateVideoPacketLossCount seqNum
  | .audio => s.updateAudioPacketLossCount seqNum
  | .data => s.updateDataPacketLossCount seqNum

/-- The losses of a medium. -/
def loss (s : IOStatistics) : Medium → RtpPktLoss
  | .video => s.video
  | .audio => s.audio
  | .data => s.data

theorem loss_update (medium : Medium) (s : IOStatistics) (seqNum : BitVec 16) :
    (updatePacketLossCount medium s seqNum).loss medium = (s.loss medium).update seqNum := by
  cases medium <;> rfl

end IOStatistics

end MiniRtc
