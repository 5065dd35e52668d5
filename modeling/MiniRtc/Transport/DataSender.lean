import Mathlib.Algebra.BigOperators.Group.List.Basic
import Mathlib.Algebra.Order.BigOperators.Group.List
import MiniRtc.Foundation.Run
import MiniRtc.Statistics.IOStatistics

/-!
# The bytes of the data channel

`RtpDataSender` of `rtp_data_sender.cpp`, with the send function that `DataChannelSend::Initialize`
of `data_channel_send.cpp` gives it. Both update the counter of the outbound bytes: the send
function by the size of the packet, and the sender by all that the round has sent so far. The
sender keeps a record of the updates (`counted`) and of the packets that the ICE agent got
(`handed`).

What is counted beyond the packets never gets less (`excess_send`), so nothing makes up for a
packet that is counted again: `counted_once_iff` says that the bytes of a run are counted once if
and only if the sender goes on with no packet but with empty ones.
-/

namespace MiniRtc

open Run

/-! ## The functions of the source -/

/-- What the sender reads of an `RtpPacket`. `Build` takes sizes of 32 bits. -/
structure DataPacket where
  size : BitVec 32
  payloadSize : BitVec 32
  deriving DecidableEq

/-- What the send function meets: no ICE agent, one in `ICE_STATE_DESTROYED`, or one whose `Send`
has a result. -/
inductive IceAgentState where
  | missing
  | destroyed
  | present (result : ℤ)
  deriving DecidableEq

/-- `RtpDataSender`, once it has its send function, and the statistics. The last two fields are
records of what has happened. -/
structure RtpDataSender where
  rtpPacketQueue : List DataPacket := []
  lastSendBytes : BitVec 32 := 0
  totalRtpPayloadSent : BitVec 32 := 0
  totalRtpPacketsSent : BitVec 32 := 0
  ioStatistics : IOStatistics := {}
  counted : List (BitVec 32) := []
  handed : List DataPacket := []

namespace RtpDataSender

/-- The packets that `RingBuffer` holds at most. -/
def queueCapacity : Nat := 1280 - 1

/-- `Enqueue`. A packet that finds the queue full is dropped. -/
def enqueue (s : RtpDataSender) (rtpPackets : List DataPacket) : RtpDataSender :=
  { s with
    rtpPacketQueue := rtpPackets.foldl (fun queue packet =>
      if queue.length = queueCapacity then queue else queue ++ [packet]) s.rtpPacketQueue }

/-- `UpdateDataOutboundBytes`, with its record. -/
def updateDataOutboundBytes (s : RtpDataSender) (bytes : BitVec 32) : RtpDataSender :=
  { s with
    ioStatistics := s.ioStatistics.updateDataOutboundBytes bytes
    counted := s.counted ++ [bytes] }

/-- The result of the send function. -/
def sendResult : IceAgentState → ℤ
  | .missing => -1
  | .destroyed => -2
  | .present result => result

/-- The send function of `DataChannelSend::Initialize`. -/
def dataSendFunc (s : RtpDataSender) (packet : DataPacket) : IceAgentState → RtpDataSender
  | .missing | .destroyed => s
  | .present _ =>
      { s.updateDataOutboundBytes packet.size with handed := s.handed ++ [packet] }

/-- `SendRtpPacket`. -/
def sendRtpPacket (s : RtpDataSender) (packet : DataPacket) (agent : IceAgentState) :
    RtpDataSender :=
  let s := s.dataSendFunc packet agent
  if sendResult agent = -2 then { s with rtpPacketQueue := [] }
  else
    let s :=
      { s with
        lastSendBytes := s.lastSendBytes + packet.size
        totalRtpPayloadSent := s.totalRtpPayloadSent + packet.payloadSize
        totalRtpPacketsSent := s.totalRtpPacketsSent + 1 }
    let s := s.updateDataOutboundBytes s.lastSendBytes
    { s with ioStatistics := s.ioStatistics.incrementDataOutboundRtpPacketCount }

/-- One turn of the loop of `Process`. -/
def sendNext (s : RtpDataSender) (agent : IceAgentState) : RtpDataSender :=
  match s.rtpPacketQueue with
  | [] => s
  | packet :: rest => { s with rtpPacketQueue := rest }.sendRtpPacket packet agent

/-- `Process`. The ICE agent may be in another state for each packet. -/
def process (s : RtpDataSender) (agent : Fin 10 → IceAgentState) : RtpDataSender :=
  (List.ofFn agent).foldl sendNext { s with lastSendBytes := 0 }

/-- What happens to the sender. -/
inductive Action where
  | enqueue (rtpPackets : List DataPacket)
  | process (agent : Fin 10 → IceAgentState)

/-- One action. -/
def step (s : RtpDataSender) : Action → RtpDataSender
  | .enqueue rtpPackets => s.enqueue rtpPackets
  | .process agent => s.process agent

/-! ## What is counted too much -/

variable {s : RtpDataSender} {packet : DataPacket} {agent : IceAgentState}

/-- The bytes that have been counted. -/
def countedBytes (s : RtpDataSender) : Nat :=
  (s.counted.map BitVec.toNat).sum

/-- The bytes of the packets that the ICE agent got. -/
def handedBytes (s : RtpDataSender) : Nat :=
  (s.handed.map fun packet => packet.size.toNat).sum

/-- The bytes that are counted beyond those of the packets. -/
def excess (s : RtpDataSender) : ℤ :=
  (s.countedBytes : ℤ) - s.handedBytes

/-- The sender goes on with the packet: the ICE agent has not been destroyed. -/
def GoesOn (agent : IceAgentState) : Prop :=
  sendResult agent ≠ -2

instance : DecidablePred GoesOn :=
  fun agent => inferInstanceAs (Decidable (sendResult agent ≠ -2))

/-- The next packet is empty, if the sender goes on with it. -/
def SendsNothing (s : RtpDataSender) (agent : IceAgentState) : Prop :=
  ∀ packet ∈ s.rtpPacketQueue.head?, GoesOn agent → packet.size = 0

instance (s : RtpDataSender) (agent : IceAgentState) : Decidable (s.SendsNothing agent) :=
  inferInstanceAs (Decidable (∀ packet ∈ s.rtpPacketQueue.head?, GoesOn agent → packet.size = 0))

/-- In a round, the sender goes on with empty packets only. -/
def RoundSendsNothing (s : RtpDataSender) : Action → Prop
  | .enqueue _ => True
  | .process agent => Along sendNext SendsNothing { s with lastSendBytes := 0 } (List.ofFn agent)

instance (s : RtpDataSender) : DecidablePred s.RoundSendsNothing
  | .enqueue _ => isTrue trivial
  | .process agent =>
      inferInstanceAs
        (Decidable (Along sendNext SendsNothing { s with lastSendBytes := 0 } (List.ofFn agent)))

/-! ## The counter of the statistics -/

/-- The counter is the sum of the updates, up to its 32 bits. -/
def Recorded (s : RtpDataSender) : Prop :=
  s.ioStatistics.dataOutboundBytes = BitVec.ofNat 32 s.countedBytes

theorem counted_update (s : RtpDataSender) (bytes : BitVec 32) :
    (s.updateDataOutboundBytes bytes).countedBytes = s.countedBytes + bytes.toNat := by
  show ((s.counted ++ [bytes]).map BitVec.toNat).sum = _
  rw [List.map_append, List.sum_append]
  rfl

theorem recorded_update (h : s.Recorded) (bytes : BitVec 32) :
    (s.updateDataOutboundBytes bytes).Recorded := by
  unfold Recorded at h ⊢
  rw [counted_update, BitVec.ofNat_add, ← h, BitVec.ofNat_toNat, BitVec.setWidth_eq]
  rfl

theorem recorded_send (h : s.Recorded) (packet : DataPacket) (agent : IceAgentState) :
    (s.sendRtpPacket packet agent).Recorded := by
  have hsent : (s.dataSendFunc packet agent).Recorded := by
    cases agent with
    | missing => exact h
    | destroyed => exact h
    | present result => exact recorded_update h packet.size
  unfold sendRtpPacket
  simp only
  split
  · exact hsent
  · exact recorded_update hsent _

theorem recorded_step (h : s.Recorded) (a : Action) : (s.step a).Recorded := by
  cases a with
  | enqueue rtpPackets => exact h
  | process agent =>
      have hreset : Recorded { s with lastSendBytes := 0 } := h
      show ((List.ofFn agent).foldl sendNext { s with lastSendBytes := 0 }).Recorded
      generalize List.ofFn agent = agents
      refine List.foldlRecOn agents sendNext hreset fun s hs agent _ => ?_
      unfold sendNext
      split
      · exact hs
      · next packet rest _ =>
          have hpopped : Recorded { s with rtpPacketQueue := rest } := hs
          exact recorded_send hpopped packet agent

/-- In every run, the counter is the sum of the updates. -/
theorem counter_of_updates (actions : List Action) :
    (actions.foldl step {}).ioStatistics.dataOutboundBytes =
      BitVec.ofNat 32 (actions.foldl step {}).countedBytes :=
  List.foldlRecOn actions step (motive := Recorded) rfl fun _ hs a _ => recorded_step hs a

/-! ## One packet -/

theorem excess_update (s : RtpDataSender) (bytes : BitVec 32) :
    (s.updateDataOutboundBytes bytes).excess = s.excess + bytes.toNat := by
  have hhanded : (s.updateDataOutboundBytes bytes).handedBytes = s.handedBytes := rfl
  unfold excess
  rw [counted_update, hhanded]
  push_cast
  omega

/-- The send function counts what it hands on. -/
theorem excess_data_send_func (s : RtpDataSender) (packet : DataPacket) (agent : IceAgentState) :
    (s.dataSendFunc packet agent).excess = s.excess := by
  cases agent with
  | missing => rfl
  | destroyed => rfl
  | present result =>
      have hcounted : (s.dataSendFunc packet (.present result)).countedBytes =
          (s.updateDataOutboundBytes packet.size).countedBytes := rfl
      have hhanded : (s.dataSendFunc packet (.present result)).handedBytes =
          s.handedBytes + packet.size.toNat := by
        show ((s.handed ++ [packet]).map fun packet => packet.size.toNat).sum = _
        rw [List.map_append, List.sum_append]
        rfl
      have hupdate := excess_update s packet.size
      unfold excess at hupdate ⊢
      rw [hcounted, hhanded]
      have hsame : (s.updateDataOutboundBytes packet.size).handedBytes = s.handedBytes := rfl
      rw [hsame] at hupdate
      push_cast
      omega

theorem last_data_send_func (s : RtpDataSender) (packet : DataPacket) (agent : IceAgentState) :
    (s.dataSendFunc packet agent).lastSendBytes = s.lastSendBytes := by
  cases agent <;> rfl

/-- A packet with which the sender goes on is counted again, with all of its round. -/
theorem excess_send (h : GoesOn agent) (s : RtpDataSender) (packet : DataPacket) :
    (s.sendRtpPacket packet agent).excess =
        s.excess + ((s.lastSendBytes + packet.size).toNat : ℤ) ∧
      (s.sendRtpPacket packet agent).lastSendBytes = s.lastSendBytes + packet.size := by
  unfold sendRtpPacket
  simp only
  rw [if_neg h, last_data_send_func]
  refine ⟨?_, rfl⟩
  have hafter := excess_update (s.dataSendFunc packet agent) (s.lastSendBytes + packet.size)
  rw [excess_data_send_func] at hafter
  exact hafter

/-- When the ICE agent has been destroyed, nothing is counted any more. -/
theorem excess_stop (h : ¬ GoesOn agent) (s : RtpDataSender) (packet : DataPacket) :
    (s.sendRtpPacket packet agent).excess = s.excess ∧
      (s.sendRtpPacket packet agent).lastSendBytes = s.lastSendBytes := by
  unfold sendRtpPacket
  simp only
  rw [if_pos (not_not.mp h)]
  exact ⟨excess_data_send_func s packet agent, last_data_send_func s packet agent⟩

/-! ## Rounds -/

theorem excess_next_le (s : RtpDataSender) (agent : IceAgentState) :
    s.excess ≤ (s.sendNext agent).excess := by
  unfold sendNext
  split
  · exact le_refl _
  · next packet rest hqueue =>
      by_cases h : GoesOn agent
      · rw [(excess_send h _ packet).1]
        show s.excess ≤ s.excess + _
        omega
      · rw [(excess_stop h _ packet).1]
        exact le_refl s.excess

/-- What was counted too much is never taken back. -/
theorem excess_round_le (s : RtpDataSender) (agents : List IceAgentState) :
    s.excess ≤ (agents.foldl sendNext s).excess := by
  induction agents generalizing s with
  | nil => exact le_refl _
  | cons agent agents ih => exact (excess_next_le s agent).trans (ih _)

/-- As long as the round has sent nothing, the next packet is counted once if and only if the sender
does not go on with it, or it is empty. -/
theorem next_sends_nothing (agent : IceAgentState) (hlast : s.lastSendBytes = 0) :
    (s.SendsNothing agent ↔ (s.sendNext agent).excess = s.excess) ∧
      (s.SendsNothing agent → (s.sendNext agent).lastSendBytes = 0) := by
  unfold SendsNothing sendNext
  cases hqueue : s.rtpPacketQueue with
  | nil => simp [hlast]
  | cons packet rest =>
      have hnothing : (∀ other ∈ (packet :: rest).head?, GoesOn agent → other.size = 0) ↔
          (GoesOn agent → packet.size = 0) := by simp
      rw [hnothing]
      simp only
      by_cases h : GoesOn agent
      · obtain ⟨hexcess, hsent⟩ := excess_send h { s with rtpPacketQueue := rest } packet
        have hadd : ({ s with rtpPacketQueue := rest } : RtpDataSender).lastSendBytes +
            packet.size = packet.size := by
          show s.lastSendBytes + packet.size = packet.size
          rw [hlast]
          exact BitVec.zero_add _
        rw [hadd] at hexcess hsent
        rw [hexcess, hsent]
        have hsame : ({ s with rtpPacketQueue := rest } : RtpDataSender).excess = s.excess := rfl
        rw [hsame]
        refine ⟨⟨fun hempty => ?_, fun hcounted _ => ?_⟩, fun hempty => hempty h⟩
        · rw [hempty h]
          exact Int.add_zero s.excess
        · apply BitVec.eq_of_toNat_eq
          show packet.size.toNat = 0
          omega
      · obtain ⟨hexcess, hsent⟩ := excess_stop h { s with rtpPacketQueue := rest } packet
        rw [hexcess, hsent]
        exact ⟨⟨fun _ => rfl, fun _ hgoes => absurd hgoes h⟩, fun _ => hlast⟩

/-- A round counts once if and only if the sender goes on with empty packets only. -/
theorem round_sends_nothing (agents : List IceAgentState) (hlast : s.lastSendBytes = 0) :
    (agents.foldl sendNext s).excess = s.excess ↔ Along sendNext SendsNothing s agents := by
  induction agents generalizing s with
  | nil => simp
  | cons agent agents ih =>
      obtain ⟨hiff, hkept⟩ := next_sends_nothing agent hlast
      rw [List.foldl_cons, along_cons]
      constructor
      · intro hsame
        have hnext := excess_next_le s agent
        have hrest := excess_round_le (s.sendNext agent) agents
        have hnothing : s.SendsNothing agent := hiff.mpr (by omega)
        exact ⟨hnothing, (ih (hkept hnothing)).mp (by omega)⟩
      · rintro ⟨hnothing, hrest⟩
        rw [(ih (hkept hnothing)).mpr hrest]
        exact hiff.mp hnothing

/-! ## Runs -/

theorem step_sends_nothing (s : RtpDataSender) (a : Action) :
    s.excess ≤ (s.step a).excess ∧
      ((s.step a).excess = s.excess ↔ s.RoundSendsNothing a) := by
  cases a with
  | enqueue rtpPackets => exact ⟨le_refl s.excess, iff_of_true rfl trivial⟩
  | process agent =>
      exact ⟨excess_round_le { s with lastSendBytes := 0 } _,
        round_sends_nothing (s := { s with lastSendBytes := 0 }) (List.ofFn agent) rfl⟩

/-- What is counted too much in a run is what is counted too much in one of its rounds. -/
theorem run_sends_nothing (s : RtpDataSender) (actions : List Action) :
    s.excess ≤ (actions.foldl step s).excess ∧
      ((actions.foldl step s).excess = s.excess ↔ Along step RoundSendsNothing s actions) := by
  induction actions generalizing s with
  | nil => exact ⟨le_refl _, by simp⟩
  | cons a actions ih =>
      obtain ⟨hle, hiff⟩ := step_sends_nothing s a
      obtain ⟨hlater, hrest⟩ := ih (s.step a)
      rw [List.foldl_cons, along_cons, ← hiff, ← hrest]
      refine ⟨hle.trans hlater, ?_⟩
      omega

/-- In every run, the bytes that are counted are those of the packets that the ICE agent got if and
only if the sender goes on with no packet but with empty ones. -/
theorem counted_once_iff (actions : List Action) :
    (actions.foldl step {}).countedBytes = (actions.foldl step {}).handedBytes ↔
      Along step RoundSendsNothing {} actions := by
  have hstart : excess {} = 0 := rfl
  rw [← (run_sends_nothing {} actions).2, hstart]
  unfold excess
  omega

/-- One packet of 20 bytes is sent, and 40 bytes are counted. -/
theorem counted_once_fails :
    (([.enqueue [⟨20, 8⟩], .process fun _ => .present 0] : List Action).foldl step {}).handedBytes =
        20 ∧
      (([.enqueue [⟨20, 8⟩], .process fun _ => .present 0] : List Action).foldl step
        {}).countedBytes = 40 := by
  decide

end RtpDataSender

end MiniRtc
