import MiniRtc.Foundation.Circle
import MiniRtc.Foundation.OrderedMap
import MiniRtc.Foundation.Run
import MiniRtc.Foundation.Refinement
import MiniRtc.Foundation.Text
import MiniRtc.Foundation.Slots
import MiniRtc.Numerics.Histogram
import MiniRtc.Numerics.SequenceNumber
import MiniRtc.Qos.VideoRecoveryTiming
import MiniRtc.Qos.NackRequester
import MiniRtc.Qos.NackWindow
import MiniRtc.Qos.NackEntries
import MiniRtc.Qos.NackSender
import MiniRtc.Qos.NackPositions
import MiniRtc.Qos.NackGaps
import MiniRtc.Qos.TransportFeedback
import MiniRtc.Qos.InFlight
import MiniRtc.Qos.FeedbackRollback
import MiniRtc.Qos.RecentAcknowledgements
import MiniRtc.Qos.FeedbackTracker
import MiniRtc.Qos.DuplicateCopies
import MiniRtc.Qos.FeedbackMessage
import MiniRtc.Qos.FeedbackGenerator
import MiniRtc.Qos.PacketQueue
import MiniRtc.Qos.PacedSender
import MiniRtc.Qos.SendOrder
import MiniRtc.Rtp.Packet
import MiniRtc.Rtp.Timestamp
import MiniRtc.Rtp.CaptureClock
import MiniRtc.Rtp.PacketH264
import MiniRtc.Rtp.Datagram
import MiniRtc.Rtp.PacketGeneric
import MiniRtc.Rtp.Obu
import MiniRtc.Rtp.PacketAv1
import MiniRtc.Rtp.PacketToSend
import MiniRtc.Rtp.PacketHistory
import MiniRtc.Rtp.HistorySlots
import MiniRtc.Rtp.HistoryEntries
import MiniRtc.Video.FrameAssembly
import MiniRtc.Video.Reassembly
import MiniRtc.Video.FrameCollector
import MiniRtc.Video.FragmentRuns
import MiniRtc.Video.EncodeQueue
import MiniRtc.Video.KeyframeRequests
import MiniRtc.Video.FeedbackCompleteness
import MiniRtc.Video.TransportH264
import MiniRtc.Video.TransportAv1
import MiniRtc.Video.Receiver
import MiniRtc.Video.Retransmission
import MiniRtc.Video.RetransmissionOnce
import MiniRtc.Video.ReceiverOutcomes
import MiniRtc.Video.PendingFrames
import MiniRtc.Video.Session
import MiniRtc.Video.KeyframeGate
import MiniRtc.Video.DeliveryOrder
import MiniRtc.Video.Leftovers
import MiniRtc.Video.Stream
import MiniRtc.Video.Accounting
import MiniRtc.Video.LossGate
import MiniRtc.Transport.PayloadNegotiation
import MiniRtc.Transport.SsrcLines
import MiniRtc.Transport.LocalDescription
import MiniRtc.Transport.RemoteCapabilities
import MiniRtc.Transport.StreamMapping
import MiniRtc.Transport.SessionCapabilities
import MiniRtc.Transport.ReliableDelivery
import MiniRtc.Transport.CandidateSignal
import MiniRtc.Transport.RemoteSdp
import MiniRtc.Foundation.FirstOccurrences
import MiniRtc.Transport.RemoteCandidates
import MiniRtc.Signaling.MiniRtcConnection
import MiniRtc.Foundation.Threads
import MiniRtc.Signaling.PeerConnection
import MiniRtc.Signaling.PeerThreads
import MiniRtc.Signaling.QueuedJoin
import MiniRtc.Foundation.WorkQueue
import MiniRtc.Video.PendingNacks
import MiniRtc.Video.NackTasks
import MiniRtc.Video.BitrateUpdate
import MiniRtc.Video.BitrateTasks
import MiniRtc.Rtcp.Wire
import MiniRtc.Rtcp.CommonHeader
import MiniRtc.Rtcp.Reports
import MiniRtc.Rtcp.PackedNack
import MiniRtc.Rtcp.Nack
import MiniRtc.Rtcp.Feedback
import MiniRtc.Rtcp.Compound
import MiniRtc.Rtcp.Messages
import MiniRtc.Rtcp.CompoundRuns
import MiniRtc.Video.LossReports
import MiniRtc.Transport.RemoteNegotiation
import MiniRtc.Video.FirRequests
import MiniRtc.Rtcp.RoundTripTime
import MiniRtc.Rtp.PacketParsing
import MiniRtc.Transport.MalformedDatagrams
import MiniRtc.Numerics.ScaledRoots
import MiniRtc.Numerics.SinglePrecision
import MiniRtc.Media.ResolutionAdapter
import MiniRtc.Media.ResolutionLadder
import MiniRtc.Media.StreamContext
import MiniRtc.Media.UpgradeProbe
import MiniRtc.Media.TargetAspect
import MiniRtc.Media.BandwidthMapping
import MiniRtc.Foundation.BitReader
import MiniRtc.H264.BitstreamParser
import MiniRtc.H264.Syntax
import MiniRtc.H264.SyntaxReading
import MiniRtc.H264.AnnexB
import MiniRtc.H264.SliceQp
import MiniRtc.Signaling.SignalOrder
import MiniRtc.Signaling.PeerMap
import MiniRtc.Signaling.TerminalStatus
import MiniRtc.Signaling.ConnectionRelease
import MiniRtc.Statistics.IOStatistics
import MiniRtc.Statistics.PacketLoss
import MiniRtc.Transport.DataSender
import MiniRtc.Ice.PortPrediction
import MiniRtc.Numerics.Eras
import MiniRtc.Rtcp.NtpConversion
import MiniRtc.Rtp.Padding
import MiniRtc.Ice.ServerUrl
import MiniRtc.Ice.ServerConfig
import MiniRtc.Transport.ConfiguredLines
import MiniRtc.Ice.LocalSdp
import MiniRtc.Transport.Fingerprint
import MiniRtc.Transport.SectionReading
import MiniRtc.Transport.SentSections
import MiniRtc.Transport.OfferAnswer
import MiniRtc.Foundation.Stopwatch
import MiniRtc.Qos.QueueTimes
import MiniRtc.Qos.TurnTaking
import MiniRtc.Numerics.Units
import MiniRtc.Qos.BitrateProber
import MiniRtc.Qos.PacingController
import MiniRtc.Qos.PacerSteps
import MiniRtc.Qos.PacerRefinement
import MiniRtc.Qos.PacketFates
import MiniRtc.Qos.SendRules
import MiniRtc.Foundation.Inventory
import MiniRtc.Common.TaskOrder
import MiniRtc.Common.WakeUps
import MiniRtc.Qos.ProbeController
import MiniRtc.Qos.ProbeLimits
import MiniRtc.Qos.ProbeTiming
import MiniRtc.Qos.ProbeBatches
import MiniRtc.Qos.ProbePacing
import MiniRtc.Qos.ProbingSystem
