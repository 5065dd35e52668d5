import MiniRtc.Qos.NackEntries

/-!
# Sending NACK batches

A batch is prepared under the lock of the requester, sent without it, in datagrams of at most
256 numbers, and reported datagram by datagram. Two threads do this: the one that ingests packets
(`OnReceivedPacket`) and the worker (`ProcessNacks`). `NackSender` is the requester together with
what each of the two still has to send, and `step` lets the threads take turns in any order.

An entry remembers by `sendPending` that its number is in a batch that was not reported yet. The
main result, `nack_send_protocol`, says which part of this holds in every interleaving and which
part needs that no number is added to the list again while it is still being sent.
-/

namespace MiniRtc

/-- Most sequence numbers in one RTCP datagram. -/
def kMaxNackIdsPerRtcpPacket : Nat := 256

/-- The threads that prepare and send batches. -/
inductive Producer where
  | ingestion
  | worker
  deriving DecidableEq

/-- The requester, and for each thread the part of its batch that it has not reported yet. -/
structure NackSender where
  requester : NackRequester := {}
  outstanding : Producer → List (BitVec 16) := fun _ => []

namespace NackSender

/-- What the threads do. `sendDatagram` is one round of the loop of `SendPreparedNackBatch`: the
next datagram of the producer's batch was sent, or not, and is reported. -/
inductive Action where
  | onReceivedPacket (seqNum : BitVec 16) (isRecovered : Bool)
  | processPendingNacks
  | sendDatagram (producer : Producer) (sendSuccessful : Bool)
  | consumeKeyFrameRequest
  | clearUpTo (seqNum : BitVec 16)
  | updateRtt (rttMs : ℤ)

/-- The numbers of the next datagram of a producer. -/
def datagramBatch (s : NackSender) (producer : Producer) : List (BitVec 16) :=
  (s.outstanding producer).take kMaxNackIdsPerRtcpPacket

/-- One step of a thread at the given time. A thread that is still sending a batch cannot
prepare another one. -/
def step (s : NackSender) : ℤ × Action → NackSender
  | (now, .onReceivedPacket seqNum isRecovered) =>
      if s.outstanding .ingestion = [] then
        let result := s.requester.onReceivedPacket now seqNum isRecovered
        { requester := result.1
          outstanding := Function.update s.outstanding .ingestion result.2 }
      else s
  | (now, .processPendingNacks) =>
      if s.outstanding .worker = [] then
        let result := s.requester.processNacks now
        { requester := result.1
          outstanding := Function.update s.outstanding .worker result.2 }
      else s
  | (now, .sendDatagram producer sendSuccessful) =>
      { requester :=
          s.requester.onNackBatchSent now (s.datagramBatch producer) sendSuccessful
        outstanding :=
          Function.update s.outstanding producer
            ((s.outstanding producer).drop kMaxNackIdsPerRtcpPacket) }
  | (_, .consumeKeyFrameRequest) =>
      { s with requester := s.requester.consumeKeyFrameRequest.1 }
  | (_, .clearUpTo seqNum) => { s with requester := s.requester.clearUpTo seqNum }
  | (_, .updateRtt rttMs) => { s with requester := s.requester.updateRtt rttMs }

/-- In how many places of the outstanding batches a number occurs. -/
def occurrences (s : NackSender) (x : BitVec 16) : Nat :=
  (s.outstanding .ingestion).count x + (s.outstanding .worker).count x

/-- A batch of an idle producer adds its numbers. -/
theorem occurrences_prepare {s : NackSender} {producer : Producer}
    (hidle : s.outstanding producer = []) (requester : NackRequester)
    (batch : List (BitVec 16)) (x : BitVec 16) :
    occurrences ⟨requester, Function.update s.outstanding producer batch⟩ x =
      s.occurrences x + batch.count x := by
  cases producer with
  | ingestion => simp [occurrences, hidle, Nat.add_comm]
  | worker => simp [occurrences, hidle]

/-- A reported datagram takes its numbers away. -/
theorem occurrences_report (s : NackSender) (producer : Producer) (requester : NackRequester)
    (x : BitVec 16) :
    occurrences ⟨requester, Function.update s.outstanding producer
        ((s.outstanding producer).drop kMaxNackIdsPerRtcpPacket)⟩ x +
      (s.datagramBatch producer).count x = s.occurrences x := by
  have hsplit : (s.outstanding producer).count x = (s.datagramBatch producer).count x +
      ((s.outstanding producer).drop kMaxNackIdsPerRtcpPacket).count x := by
    rw [datagramBatch, ← List.count_append, List.take_append_drop]
  cases producer with
  | ingestion =>
      simp only [occurrences, Function.update_self, Function.update_of_ne, ne_eq, reduceCtorEq,
        not_false_eq_true]
      omega
  | worker =>
      simp only [occurrences, Function.update_self, Function.update_of_ne, ne_eq, reduceCtorEq,
        not_false_eq_true]
      omega

/-- What a step can do to the entry of a number. -/
inductive EntryStep (s : NackSender) (now : ℤ) (s' : NackSender) (x : BitVec 16)
    (info' : NackInfo) : Action → Prop where
  | kept (action) (hmem : (x, info') ∈ s.requester.nackList)
      (hcount : s'.occurrences x = s.occurrences x) : EntryStep s now s' x info' action
  | added (seqNum isRecovered) (hadds : s.requester.Adds seqNum isRecovered x)
      (hnew : ∀ info, (x, info) ∉ s.requester.nackList) (hfresh : NackRequester.Fresh now info')
      (hcount : s'.occurrences x = s.occurrences x) :
      EntryStep s now s' x info' (.onReceivedPacket seqNum isRecovered)
  | prepared (action info) (hmem : (x, info) ∈ s.requester.nackList)
      (hidle : info.sendPending = false) (heq : info' = { info with sendPending := true })
      (hcount : s'.occurrences x = s.occurrences x + 1) : EntryStep s now s' x info' action
  | skipped (producer sendSuccessful) (hmem : (x, info') ∈ s.requester.nackList)
      (hidle : info'.sendPending = false) :
      EntryStep s now s' x info' (.sendDatagram producer sendSuccessful)
  | reported (producer sendSuccessful info) (hmem : (x, info) ∈ s.requester.nackList)
      (hpending : info.sendPending = true) (hin : x ∈ s.datagramBatch producer)
      (heq : info' = NackRequester.reportedInfo now sendSuccessful info)
      (hcount : s'.occurrences x + (s.datagramBatch producer).count x = s.occurrences x) :
      EntryStep s now s' x info' (.sendDatagram producer sendSuccessful)

/-- Every step does one of these to every entry. -/
theorem step_entry {s : NackSender} (h : s.requester.WellFormed) {now : ℤ} {action : Action}
    {entry : BitVec 16 × NackInfo} (hentry : entry ∈ (s.step (now, action)).requester.nackList) :
    EntryStep s now (s.step (now, action)) entry.1 entry.2 action := by
  cases action with
  | onReceivedPacket seqNum isRecovered =>
      simp only [step] at hentry ⊢
      split_ifs at hentry ⊢ with hidle
      · rcases NackRequester.on_received_packet_entry h hentry with
          ⟨hadds, hnew, hfresh, hcount⟩ | ⟨info, hmem, ⟨rfl, hcount⟩ | ⟨hready, heq, hcount⟩⟩
        · exact .added _ _ hadds hnew hfresh (by rw [occurrences_prepare hidle, hcount]; rfl)
        · exact .kept _ hmem (by rw [occurrences_prepare hidle, hcount]; rfl)
        · exact .prepared _ info hmem hready heq (by rw [occurrences_prepare hidle, hcount])
      · exact .kept _ hentry rfl
  | processPendingNacks =>
      simp only [step] at hentry ⊢
      split_ifs at hentry ⊢ with hidle
      · obtain ⟨info, hmem, hcase⟩ := NackRequester.get_nack_batch_entry h.window hentry
        rcases hcase with ⟨rfl, -, hcount⟩ | ⟨hdue, heq, hcount⟩
        · exact .kept _ hmem
            (by rw [occurrences_prepare hidle, NackRequester.processNacks, hcount]; rfl)
        · exact .prepared _ info hmem (NackRequester.not_pending_of_is_due hdue) heq
            (by rw [occurrences_prepare hidle, NackRequester.processNacks, hcount])
      · exact .kept _ hentry rfl
  | sendDatagram producer sendSuccessful =>
      simp only [step] at hentry ⊢
      have hreport := occurrences_report s producer
        (s.requester.onNackBatchSent now (s.datagramBatch producer) sendSuccessful) entry.1
      rcases NackRequester.on_nack_batch_sent_entry h.window hentry with
        ⟨hmem, hout | hidle⟩ | ⟨hin, info, hmem, hpending, heq⟩
      · refine .kept _ hmem ?_
        rwa [List.count_eq_zero.mpr hout, Nat.add_zero] at hreport
      · exact .skipped _ _ hmem hidle
      · exact .reported _ _ info hmem hpending hin heq hreport
  | consumeKeyFrameRequest => exact .kept _ hentry rfl
  | clearUpTo seqNum => exact .kept _ (OrderedMap.mem_of_mem_upper_bound hentry) rfl
  | updateRtt rttMs =>
      refine .kept _ ?_ rfl
      obtain ⟨rtt, hasSample, heq⟩ := NackRequester.update_rtt_eq s.requester rttMs
      simp only [step, heq] at hentry
      exact hentry

/-- Every step keeps the list well formed. -/
theorem step_window {s : NackSender} (h : s.requester.WellFormed) (action : ℤ × Action) :
    (s.step action).requester.WellFormed := by
  obtain ⟨now, action⟩ := action
  cases action with
  | onReceivedPacket seqNum isRecovered =>
      simp only [step]
      split_ifs
      · exact NackRequester.on_received_packet_window h now seqNum isRecovered
      · exact h
  | processPendingNacks =>
      simp only [step]
      split_ifs
      · exact NackRequester.get_nack_batch_window h _ now
      · exact h
  | sendDatagram producer sendSuccessful =>
      exact NackRequester.on_nack_batch_sent_window h now _ sendSuccessful
  | consumeKeyFrameRequest =>
      exact NackRequester.perform_window h (now, .consumeKeyFrameRequest)
  | clearUpTo seqNum => exact NackRequester.clear_up_to_window h seqNum
  | updateRtt rttMs => exact NackRequester.perform_window h (now, .updateRtt rttMs)

/-! ## The invariants -/

/-- Every marked entry is in a batch that will be reported. -/
structure Tracked (s : NackSender) : Prop where
  wellFormed : s.requester.WellFormed
  pending : ∀ entry ∈ s.requester.nackList,
    entry.2.sendPending = true → 1 ≤ s.occurrences entry.1

/-- Every step, whatever the order of the threads, keeps the marks accounted for. -/
theorem step_tracked {s : NackSender} (h : s.Tracked) (action : ℤ × Action) :
    (s.step action).Tracked := by
  obtain ⟨now, action⟩ := action
  refine ⟨step_window h.wellFormed _, ?_⟩
  intro entry hentry hpending
  have hstep := step_entry h.wellFormed hentry
  generalize s.step (now, action) = s' at hstep
  cases hstep with
  | kept _ hmem hcount =>
      rw [hcount]
      exact h.pending _ hmem hpending
  | added _ _ _ _ hfresh => simp [hfresh.idle] at hpending
  | prepared _ _ _ _ _ hcount => omega
  | skipped _ _ _ hidle => simp [hidle] at hpending
  | reported _ _ _ _ _ _ heq => simp [heq] at hpending

/-- Every state of every run accounts for its marks. -/
theorem run_tracked (actions : List (ℤ × Action)) : (actions.foldl step {}).Tracked :=
  List.foldlRecOn actions step ⟨NackRequester.initial_window, by simp⟩
    fun _ h action _ => step_tracked h action

/-- The step adds no number to the list that is still being sent. -/
def NoneReadded (s : NackSender) : ℤ × Action → Prop
  | (_, .onReceivedPacket seqNum isRecovered) =>
      ∀ x, s.requester.Adds seqNum isRecovered x → s.occurrences x = 0
  | _ => True

/-- A number with an entry is being sent once if the entry is marked, and not at all if not. -/
structure Exclusive (s : NackSender) : Prop where
  wellFormed : s.requester.WellFormed
  once : ∀ entry ∈ s.requester.nackList,
    s.occurrences entry.1 = if entry.2.sendPending then 1 else 0

/-- A step that adds no number that is still being sent keeps the batches apart. -/
theorem step_exclusive {s : NackSender} {action : ℤ × Action} (h : s.Exclusive)
    (hnew : s.NoneReadded action) : (s.step action).Exclusive := by
  obtain ⟨now, action⟩ := action
  refine ⟨step_window h.wellFormed _, ?_⟩
  intro entry hentry
  have hstep := step_entry h.wellFormed hentry
  cases hstep with
  | kept _ hmem hcount => rw [hcount, h.once _ hmem]
  | added seqNum isRecovered hadds _ hfresh hcount =>
      rw [hcount, hnew _ hadds, hfresh.idle]
      rfl
  | prepared _ info hmem hidle heq hcount =>
      rw [hcount, h.once _ hmem, heq]
      simp [hidle]
  | skipped producer sendSuccessful hmem hidle =>
      -- the number is in no batch, so it is not in the reported one either
      have hzero := h.once _ hmem
      have hreport := occurrences_report s producer
        (s.requester.onNackBatchSent now (s.datagramBatch producer) sendSuccessful) entry.1
      simp only [hidle, Bool.false_eq_true, if_false] at hzero ⊢
      simp only [step]
      omega
  | reported producer sendSuccessful info hmem hpending hin heq hcount =>
      have hone := h.once _ hmem
      have hpos := List.count_pos_iff.mpr hin
      simp only [hpending, if_true] at hone
      simp only [heq, NackRequester.reported_info_send_pending, Bool.false_eq_true, if_false]
      omega

/-- A run in which every added number is new keeps the batches apart. -/
theorem run_exclusive {actions : List (ℤ × Action)}
    (h : Run.Along step NoneReadded {} actions) : (actions.foldl step {}).Exclusive :=
  h.invariant (fun _ _ hs hnew => step_exclusive hs hnew)
    ⟨NackRequester.initial_window, by simp⟩

/-- What a step does to the retry counter and the send time of an entry. -/
theorem step_retries {s : NackSender} (h : s.requester.WellFormed) {now : ℤ} {action : Action}
    {entry : BitVec 16 × NackInfo} (hentry : entry ∈ (s.step (now, action)).requester.nackList) :
    (∃ info, (entry.1, info) ∈ s.requester.nackList ∧
      entry.2.retries = info.retries ∧ entry.2.sentAtTime = info.sentAtTime) ∨
    ((∀ info, (entry.1, info) ∉ s.requester.nackList) ∧
      entry.2.retries = 0 ∧ entry.2.sentAtTime = none) ∨
    ∃ producer info, action = .sendDatagram producer true ∧
      entry.1 ∈ s.datagramBatch producer ∧ (entry.1, info) ∈ s.requester.nackList ∧
      info.sendPending = true ∧ entry.2.retries = info.retries + 1 ∧
      entry.2.sentAtTime = some now := by
  have hstep := step_entry h hentry
  generalize s.step (now, action) = s' at hstep
  cases hstep with
  | kept _ hmem => exact Or.inl ⟨_, hmem, rfl, rfl⟩
  | added _ _ _ hnew hfresh => exact Or.inr (Or.inl ⟨hnew, hfresh.retries, hfresh.sent⟩)
  | prepared _ info hmem _ heq => exact Or.inl ⟨info, hmem, by rw [heq], by rw [heq]⟩
  | skipped _ _ hmem => exact Or.inl ⟨_, hmem, rfl, rfl⟩
  | reported producer sendSuccessful info hmem hpending hin heq =>
      cases sendSuccessful with
      | false => exact Or.inl ⟨info, hmem, by simp [heq, NackRequester.reportedInfo],
          by simp [heq, NackRequester.reportedInfo]⟩
      | true =>
          refine Or.inr (Or.inr ⟨producer, info, rfl, hin, hmem, hpending, ?_, ?_⟩)
          all_goals simp [heq, NackRequester.reportedInfo]

/-- A failed datagram leaves its entries as they were, apart from the pause before they are due
again. -/
theorem step_failed {s : NackSender} (h : s.requester.WellFormed) (now : ℤ) {producer : Producer}
    {entry : BitVec 16 × NackInfo} (hentry : entry ∈ s.requester.nackList)
    (hpending : entry.2.sendPending = true) (hin : entry.1 ∈ s.datagramBatch producer) :
    let s' := s.step (now, .sendDatagram producer false)
    ∃ info, (entry.1, info) ∈ s'.requester.nackList ∧
      info.retries = entry.2.retries ∧ info.sentAtTime = entry.2.sentAtTime ∧
      ∀ later, entry.1 ∈ (s'.requester.processNacks later).2 ↔
        20000 ≤ later - now ∧ 10000 ≤ later - info.createdAtTime ∧
          ∀ sent, info.sentAtTime = some sent →
            s'.requester.retryDelayUs info ≤ later - sent := by
  intro s'
  have hmem := NackRequester.on_nack_batch_sent_failed h.window now hentry hin hpending
  have hwindow : s'.requester.WellFormed := step_window h _
  refine ⟨NackRequester.reportedInfo now false entry.2, hmem, rfl, rfl, ?_⟩
  intro later
  rw [NackRequester.mem_process_nacks_iff hwindow.window hmem]
  exact NackRequester.is_due_time_only_iff (by simp) rfl

/-- The send protocol, for every interleaving of the two producers and of everything else that
changes the list. As long as no packet adds a number to the list again that is still being sent, a
number with an entry is in at most one outstanding batch. In every run, retries and send time
of an entry change only by a successful report of a datagram that contained it, a failed report
leaves them unchanged and the entry is requested again after the pause of 20 ms (as soon as it is
old enough and the time between two requests is over), and an entry all of whose batches were
reported is not marked. -/
theorem nack_send_protocol (actions : List (ℤ × Action)) :
    let s := actions.foldl step {}
    (Run.Along step NoneReadded {} actions →
      ∀ entry ∈ s.requester.nackList, s.occurrences entry.1 ≤ 1) ∧
    (∀ now action, ∀ entry ∈ (s.step (now, action)).requester.nackList,
      (∃ info, (entry.1, info) ∈ s.requester.nackList ∧
        entry.2.retries = info.retries ∧ entry.2.sentAtTime = info.sentAtTime) ∨
      ((∀ info, (entry.1, info) ∉ s.requester.nackList) ∧
        entry.2.retries = 0 ∧ entry.2.sentAtTime = none) ∨
      ∃ producer info, action = .sendDatagram producer true ∧
        entry.1 ∈ s.datagramBatch producer ∧ (entry.1, info) ∈ s.requester.nackList ∧
        info.sendPending = true ∧ entry.2.retries = info.retries + 1 ∧
        entry.2.sentAtTime = some now) ∧
    (∀ now producer, ∀ entry ∈ s.requester.nackList, entry.2.sendPending = true →
      entry.1 ∈ s.datagramBatch producer →
      let s' := s.step (now, .sendDatagram producer false)
      ∃ info, (entry.1, info) ∈ s'.requester.nackList ∧
        info.retries = entry.2.retries ∧ info.sentAtTime = entry.2.sentAtTime ∧
        ∀ later, entry.1 ∈ (s'.requester.processNacks later).2 ↔
          20000 ≤ later - now ∧ 10000 ≤ later - info.createdAtTime ∧
            ∀ sent, info.sentAtTime = some sent →
              s'.requester.retryDelayUs info ≤ later - sent) ∧
    (∀ entry ∈ s.requester.nackList, (∀ producer, entry.1 ∉ s.outstanding producer) →
      entry.2.sendPending = false) := by
  intro s
  have htracked : s.Tracked := run_tracked actions
  refine ⟨?_, ?_, ?_, ?_⟩
  · intro halong entry hentry
    have hcount : s.occurrences entry.1 = if entry.2.sendPending then 1 else 0 :=
      (run_exclusive halong).once entry hentry
    split_ifs at hcount <;> omega
  · exact fun now action entry hentry => step_retries htracked.wellFormed hentry
  · exact fun now producer entry hentry hpending hin =>
      step_failed htracked.wellFormed now hentry hpending hin
  · intro entry hentry hout
    by_contra hmark
    have hpos := htracked.pending entry hentry (by simpa using hmark)
    simp [occurrences, List.count_eq_zero.mpr (hout _)] at hpos

/-- The worker sends a batch for packet 1, which is missing. -/
def sendingRun : List (ℤ × Action) :=
  [(0, .onReceivedPacket 0 false), (0, .onReceivedPacket 2 false), (10000, .processPendingNacks)]

/-- An ordinary loss meets the condition, and its number is in one batch. -/
theorem sending_run_exclusive :
    Run.Along step NoneReadded {} sendingRun ∧
      (∃ entry ∈ (sendingRun.foldl step {}).requester.nackList, entry.1 = 1) ∧
      1 ∈ (sendingRun.foldl step {}).outstanding .worker ∧
      ∀ entry ∈ (sendingRun.foldl step {}).requester.nackList,
        (sendingRun.foldl step {}).occurrences entry.1 ≤ 1 := by
  have halong : Run.Along step NoneReadded {} sendingRun :=
    ⟨fun _ _ => rfl, fun _ _ => rfl, trivial, trivial⟩
  exact ⟨halong, by decide, by decide, (nack_send_protocol sendingRun).1 halong⟩

/-- While the worker is still sending its batch, the sequence numbers go once around the circle.
Packet 1 is lost again and the ingestion thread prepares a batch for it. -/
def readdingRun : List (ℤ × Action) :=
  sendingRun ++
    [(10000, .onReceivedPacket 30000 false), (10000, .onReceivedPacket 60000 false),
      (10000, .onReceivedPacket 0 false), (10000, .onReceivedPacket 2 false),
      (20000, .onReceivedPacket 3 false)]

/-- Then packet 1 has an entry and is in two outstanding batches. -/
theorem readding_run_sends_twice :
    ¬ ∀ entry ∈ (readdingRun.foldl step {}).requester.nackList,
      (readdingRun.foldl step {}).occurrences entry.1 ≤ 1 := by
  decide

end NackSender

end MiniRtc
