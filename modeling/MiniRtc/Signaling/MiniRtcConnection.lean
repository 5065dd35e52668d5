import MiniRtc.Transport.RemoteCandidates
import MiniRtc.Transport.RemoteCapabilities

/-!
# The candidates of a connection

`MiniRtcConnection::ProcessIceWorkMsg` of `minirtc_connection.cpp`, as far as it creates the
transport and hands it the remote description and the candidates. Candidates that come before the
transport wait in a queue of the connection, and those that come before the description wait in the
queue of the transport.

`candidates_confluent` says that the calls of the ICE agent depend on the candidates only, and not
on the place of the join, the offer or the answer among them.
-/

namespace MiniRtc

open Text FirstOccurrences IceTransport

/-! ## The functions of the source -/

/-- `IceWorkMsg::Type`. -/
inductive IceWorkMsgType where
  | login
  | userLeaveTransmission
  | userJoinTransmission
  | offer
  | answer
  | newCandidate
  | newCandidateMid
  | retryWithTurn
  deriving DecidableEq

/-- `IceWorkMsg`, without the user ids that nothing reads. -/
structure IceWorkMsg where
  type : IceWorkMsgType
  transmissionId : Text := []
  remoteUserId : Text := []
  newCandidate : Text := []
  candidateUfrag : Text := []
  candidate : Text := []
  mid : Text := []
  remoteSdp : Text := []
  deriving DecidableEq

/-- `ConnectionInfo`, as far as the messages are checked with it. -/
structure ConnectionInfo where
  transmissionId : Text
  userId : Text
  remoteUserId : Text

/-- The message is for the connection. -/
def ConnectionInfo.Accepts (info : ConnectionInfo) (msg : IceWorkMsg) : Prop :=
  ¬ ((info.transmissionId ≠ [] ∧ msg.transmissionId ≠ [] ∧
        msg.transmissionId ≠ info.transmissionId) ∨
      (info.remoteUserId ≠ [] ∧ msg.remoteUserId ≠ info.remoteUserId))

instance (info : ConnectionInfo) (msg : IceWorkMsg) : Decidable (info.Accepts msg) :=
  inferInstanceAs (Decidable (¬ _))

/-- What a message meets that creates the transport: whether `ConnectionIceConfigFresh` holds, and
the result of `InitIceTransmission`. -/
structure IceCreation where
  iceConfigFresh : Bool
  initIceTransmission : ℤ

/-- The transport is created. -/
structure IceCreation.Succeeds (creation : IceCreation) : Prop where
  fresh : creation.iceConfigFresh = true
  init : creation.initIceTransmission = 0

/-- `MiniRtcConnection`. -/
structure MiniRtcConnection where
  info : ConnectionInfo
  iceTransport : Option IceTransport := none
  pendingIceCandidates : List IceWorkMsg := []

namespace MiniRtcConnection

/-- `ApplyRemoteIceCandidate`. -/
def applyRemoteIceCandidate (agent : IceAgent) (c : MiniRtcConnection) (msg : IceWorkMsg) :
    MiniRtcConnection :=
  match parseIceCandidateSignal msg.newCandidate msg.candidateUfrag with
  | none => c
  | some signal =>
      match c.iceTransport with
      | some t =>
          { c with iceTransport := some (t.addRemoteCandidate agent signal.sdp signal.ufrag).1 }
      | none =>
          if ∃ pending ∈ c.pendingIceCandidates,
              pending.newCandidate = signal.sdp ∧ pending.candidateUfrag = signal.ufrag then c
          else if 256 ≤ c.pendingIceCandidates.length then c
          else
            { c with
              pendingIceCandidates := c.pendingIceCandidates ++
                [{ msg with newCandidate := signal.sdp, candidateUfrag := signal.ufrag }] }

/-- `ProcessIceWorkMsg` for a candidate. -/
def processCandidate (agent : IceAgent) (c : MiniRtcConnection) (msg : IceWorkMsg) :
    MiniRtcConnection :=
  if c.info.Accepts msg then c.applyRemoteIceCandidate agent msg else c

/-- `FlushRemoteIceCandidates`. -/
def flushRemoteIceCandidates (agent : IceAgent) (c : MiniRtcConnection) : MiniRtcConnection :=
  c.pendingIceCandidates.foldl (processCandidate agent) { c with pendingIceCandidates := [] }

/-- `ProcessIceWorkMsg`. -/
def processIceWorkMsg (agent : IceAgent) (getRemoteCapabilities : Text → Text)
    (creation : IceCreation) (c : MiniRtcConnection) (msg : IceWorkMsg) : MiniRtcConnection :=
  if ¬ c.info.Accepts msg then c
  else
    match msg.type with
    | .login | .newCandidateMid => c
    | .retryWithTurn | .userJoinTransmission =>
        if creation.iceConfigFresh = false ∨ msg.remoteUserId = c.info.userId then c
        else if creation.initIceTransmission ≠ 0 then
          { c with iceTransport := none, pendingIceCandidates := [] }
        else { c with iceTransport := some {} }.flushRemoteIceCandidates agent
    | .userLeaveTransmission => { c with pendingIceCandidates := [] }
    | .offer =>
        if creation.iceConfigFresh = false then c
        else if creation.initIceTransmission ≠ 0 then
          { c with iceTransport := none, pendingIceCandidates := [] }
        else
          let result := IceTransport.setRemoteSdp agent getRemoteCapabilities {} msg.remoteSdp
          let created := { c with iceTransport := some result.1 }
          if result.2 ≠ 0 then created else created.flushRemoteIceCandidates agent
    | .answer =>
        { c with
          iceTransport := c.iceTransport.map fun t =>
            (t.setRemoteSdp agent getRemoteCapabilities msg.remoteSdp).1 }
    | .newCandidate => c.applyRemoteIceCandidate agent msg

/-- The signal of a candidate for the connection. -/
def candidateSignal (info : ConnectionInfo) (msg : IceWorkMsg) : Option IceCandidateSignal :=
  if info.Accepts msg then parseIceCandidateSignal msg.newCandidate msg.candidateUfrag else none

/-! ## One candidate -/

variable {agent : IceAgent} {info : ConnectionInfo} {msg : IceWorkMsg} {t : IceTransport}
  {messages waiting : List IceWorkMsg}

/-- A candidate message that leaves room for what the parser may add. -/
structure IsCandidate (msg : IceWorkMsg) : Prop where
  type : msg.type = .newCandidate
  short : msg.newCandidate.length ≤ 4094

instance (msg : IceWorkMsg) : Decidable (IsCandidate msg) :=
  decidable_of_iff (msg.type = .newCandidate ∧ msg.newCandidate.length ≤ 4094)
    ⟨fun h => ⟨h.1, h.2⟩, fun h => ⟨h.type, h.short⟩⟩

/-- The message carries a parsed signal for the connection. -/
structure IsWaiting (info : ConnectionInfo) (msg : IceWorkMsg) : Prop where
  accepts : info.Accepts msg
  parsed : IsParsed ⟨msg.newCandidate, msg.candidateUfrag⟩

/-- The signal of a short candidate is parsed to itself. -/
theorem candidate_signal_parsed (hmsg : IsCandidate msg) {signal : IceCandidateSignal}
    (h : candidateSignal info msg = some signal) : IsParsed signal := by
  unfold candidateSignal at h
  split at h
  · exact parse_again hmsg.short h
  · cases h

/-- The signal of a waiting message is what it carries. -/
theorem candidate_signal_waiting (h : IsWaiting info msg) :
    candidateSignal info msg = some ⟨msg.newCandidate, msg.candidateUfrag⟩ := by
  unfold candidateSignal
  rw [if_pos h.accepts]
  exact h.parsed

/-- A candidate goes to the transport, when there is one. -/
theorem process_candidate_transport
    (hparsed : ∀ signal, candidateSignal info msg = some signal → IsParsed signal)
    (waiting : List IceWorkMsg) :
    processCandidate agent ⟨info, some t, waiting⟩ msg =
      ⟨info, some ((candidateSignal info msg).toList.foldl (take agent) t), waiting⟩ := by
  unfold processCandidate
  split_ifs with haccepts
  · unfold applyRemoteIceCandidate
    have hsignal : candidateSignal info msg =
        parseIceCandidateSignal msg.newCandidate msg.candidateUfrag := if_pos haccepts
    cases hread : parseIceCandidateSignal msg.newCandidate msg.candidateUfrag with
    | none =>
        rw [hsignal, hread]
        rfl
    | some signal =>
        rw [hsignal, hread]
        have hagain : parseIceCandidateSignal signal.sdp signal.ufrag = some signal :=
          hparsed signal (hsignal.trans hread)
        show MiniRtcConnection.mk info (some (t.addRemoteCandidate agent signal.sdp
          signal.ufrag).1) waiting = _
        unfold addRemoteCandidate
        rw [hagain]
        rfl
  · have hsignal : candidateSignal info msg = none := if_neg haccepts
    rw [hsignal]
    rfl

/-- Candidates go to the transport in their order. -/
theorem process_candidates_transport (waiting : List IceWorkMsg)
    (hparsed : ∀ msg ∈ messages, ∀ signal, candidateSignal info msg = some signal →
      IsParsed signal) :
    messages.foldl (processCandidate agent) ⟨info, some t, waiting⟩ =
      ⟨info, some ((messages.filterMap (candidateSignal info)).foldl (take agent) t), waiting⟩ := by
  induction messages generalizing t with
  | nil => rfl
  | cons msg messages ih =>
      rw [List.foldl_cons, process_candidate_transport (hparsed msg (by simp)) waiting,
        ih fun m hm => hparsed m (List.mem_cons_of_mem _ hm)]
      cases hsignal : candidateSignal info msg with
      | none => rw [List.filterMap_cons_none hsignal]; rfl
      | some signal => rw [List.filterMap_cons_some hsignal]; rfl

/-! ## The queue of the connection -/

/-- The signal that a waiting message carries. -/
def carried (msg : IceWorkMsg) : IceCandidateSignal :=
  ⟨msg.newCandidate, msg.candidateUfrag⟩

/-- The signals of waiting messages are those that they carry. -/
theorem signals_waiting (h : ∀ msg ∈ waiting, IsWaiting info msg) :
    waiting.filterMap (candidateSignal info) = waiting.map carried := by
  rw [← List.filterMap_eq_map]
  exact List.filterMap_congr fun msg hin => candidate_signal_waiting (h msg hin)

/-- A candidate that comes before the transport waits, when its signal is new. -/
theorem process_candidate_queue (agent : IceAgent) (hmsg : IsCandidate msg)
    (hwaiting : ∀ msg ∈ waiting, IsWaiting info msg)
    (hroom : ∀ signal, candidateSignal info msg = some signal → signal ∉ waiting.map carried →
      waiting.length < 256) :
    ∃ waiting', processCandidate agent ⟨info, none, waiting⟩ msg = ⟨info, none, waiting'⟩ ∧
      waiting'.map carried = waiting.map carried ++ (candidateSignal info msg).toList.filter
        (fun signal => signal ∉ waiting.map carried) ∧
      ∀ msg ∈ waiting', IsWaiting info msg := by
  unfold processCandidate
  cases hsignal : candidateSignal info msg with
  | none =>
      refine ⟨waiting, ?_, (List.append_nil _).symm, hwaiting⟩
      split_ifs with haccepts
      · have hread : parseIceCandidateSignal msg.newCandidate msg.candidateUfrag = none :=
          (if_pos haccepts : candidateSignal info msg = _).symm.trans hsignal
        unfold applyRemoteIceCandidate
        rw [hread]
      · rfl
  | some signal =>
      have haccepts : info.Accepts msg := by
        by_contra hrejected
        rw [candidateSignal, if_neg hrejected] at hsignal
        cases hsignal
      have hread : parseIceCandidateSignal msg.newCandidate msg.candidateUfrag = some signal :=
        (if_pos haccepts : candidateSignal info msg = _).symm.trans hsignal
      have hknown : (∃ pending ∈ waiting, pending.newCandidate = signal.sdp ∧
          pending.candidateUfrag = signal.ufrag) ↔ signal ∈ waiting.map carried := by
        rw [List.mem_map]
        refine exists_congr fun pending => and_congr_right fun _ => ?_
        exact ⟨fun h => by rw [carried, h.1, h.2], fun h => by rw [← h]; exact ⟨rfl, rfl⟩⟩
      rw [if_pos haccepts]
      unfold applyRemoteIceCandidate
      simp only [hread, hknown]
      by_cases hin : signal ∈ waiting.map carried
      · rw [if_pos hin]
        refine ⟨waiting, rfl, ?_, hwaiting⟩
        rw [Option.toList_some, List.filter_cons_of_neg (by simpa using hin), List.filter_nil,
          List.append_nil]
      · rw [if_neg hin, if_neg (Nat.not_le.mpr (hroom signal hsignal hin))]
        refine ⟨_, rfl, ?_, fun m hm => ?_⟩
        · rw [List.map_append, Option.toList_some, List.filter_cons_of_pos (by simpa using hin)]
          rfl
        · rcases List.mem_append.mp hm with hold | hnew
          · exact hwaiting m hold
          · rw [List.mem_singleton.mp hnew]
            exact ⟨haccepts, candidate_signal_parsed hmsg hsignal⟩

/-- Candidates that come before the transport wait, each once, when there are at most 256. -/
theorem queue_candidates (agent : IceAgent) (hmessages : ∀ msg ∈ messages, IsCandidate msg)
    (hfew : (messages.filterMap (candidateSignal info)).toFinset.card ≤ 256) :
    ∃ waiting, messages.foldl (processCandidate agent) { info := info } = ⟨info, none, waiting⟩ ∧
      waiting.map carried = (messages.filterMap (candidateSignal info)).eraseDups ∧
        ∀ msg ∈ waiting, IsWaiting info msg := by
  induction messages using List.reverseRecOn with
  | nil => exact ⟨[], rfl, rfl, fun _ hin => by cases hin⟩
  | append_singleton messages msg ih =>
      have hsignals : (messages ++ [msg]).filterMap (candidateSignal info) =
          messages.filterMap (candidateSignal info) ++ (candidateSignal info msg).toList := by
        rw [List.filterMap_append]
        cases hsignal : candidateSignal info msg with
        | none => rw [List.filterMap_cons_none hsignal]; rfl
        | some signal => rw [List.filterMap_cons_some hsignal]; rfl
      rw [hsignals] at hfew ⊢
      generalize messages.filterMap (candidateSignal info) = signals at hfew ih ⊢
      have hsub : signals.toFinset ⊆ (signals ++ (candidateSignal info msg).toList).toFinset := by
        rw [List.toFinset_append]
        exact Finset.subset_union_left
      obtain ⟨waiting, hfold, hcarried, hwaiting⟩ :=
        ih (fun m hm => hmessages m (List.mem_append_left [msg] hm))
          ((Finset.card_le_card hsub).trans hfew)
      have hlength : waiting.length = signals.toFinset.card := by
        rw [← length_erase_dups, ← hcarried, List.length_map]
      obtain ⟨waiting', hstep, hcarried', hwaiting'⟩ :=
        process_candidate_queue agent (hmessages msg (by simp)) hwaiting fun signal hsignal hnew => by
          rw [hcarried, List.mem_eraseDups] at hnew
          rw [hsignal, Option.toList_some, List.toFinset_append, List.toFinset_cons,
            List.toFinset_nil, insert_empty_eq, Finset.union_comm, ← Finset.insert_eq,
            Finset.card_insert_of_notMem fun h => hnew (List.mem_toFinset.mp h)] at hfew
          omega
      refine ⟨waiting', ?_, ?_, hwaiting'⟩
      · rw [List.foldl_append, hfold]
        exact hstep
      · rw [hcarried', hcarried]
        cases candidateSignal info msg with
        | none => rw [Option.toList_none, List.filter_nil, List.append_nil, List.append_nil]
        | some signal =>
            rw [Option.toList_some, erase_dups_snoc]
            by_cases hin : signal ∈ signals
            · rw [if_pos hin, List.filter_cons_of_neg (by simpa using hin), List.filter_nil,
                List.append_nil]
            · rw [if_neg hin, List.filter_cons_of_pos (by simpa using hin), List.filter_nil]

/-- The queue of the connection goes to a new transport. -/
theorem flush_candidates (hwaiting : ∀ msg ∈ waiting, IsWaiting info msg) :
    flushRemoteIceCandidates agent ⟨info, some t, waiting⟩ =
      ⟨info, some ((waiting.map carried).foldl (take agent) t), []⟩ := by
  unfold flushRemoteIceCandidates
  show waiting.foldl (processCandidate agent) ⟨info, some t, []⟩ = _
  rw [process_candidates_transport [] fun msg hin signal hsignal => ?_,
    signals_waiting hwaiting]
  rw [candidate_signal_waiting (hwaiting msg hin)] at hsignal
  rw [← Option.some.inj hsignal]
  exact (hwaiting msg hin).parsed

/-! ## Every place of the description -/

/-- The description is accepted by a transport that has none. -/
structure Acceptable (agent : IceAgent) (getRemoteCapabilities : Text → Text) (remoteSdp : Text) :
    Prop where
  username : getIceUsername remoteSdp ≠ []
  capabilities : getRemoteCapabilities remoteSdp ≠ []
  agent : agent.setRemoteSdp (agentDescription remoteSdp (getRemoteCapabilities remoteSdp)) = 0

/-- An acceptable description is set. -/
theorem set_acceptable {getRemoteCapabilities : Text → Text} {remoteSdp : Text}
    (h : Acceptable agent getRemoteCapabilities remoteSdp) (signals : List IceCandidateSignal) :
    (setRemoteSdp agent getRemoteCapabilities { pendingRemoteCandidates := signals }
      remoteSdp).2 = 0 := by
  unfold setRemoteSdp
  simp only
  rw [if_neg h.username, if_neg (fun hchanged => hchanged.1 rfl), if_neg h.capabilities,
    if_neg (not_not.mpr h.agent)]

/-- Candidate messages are processed as candidates. -/
theorem process_candidate_messages (getRemoteCapabilities : Text → Text) (creation : IceCreation)
    (hmessages : ∀ msg ∈ messages, IsCandidate msg) (c : MiniRtcConnection) :
    messages.foldl (processIceWorkMsg agent getRemoteCapabilities creation) c =
      messages.foldl (processCandidate agent) c := by
  refine List.foldl_ext _ _ c fun c msg hin => ?_
  unfold processIceWorkMsg processCandidate
  rw [(hmessages msg hin).type]
  split_ifs <;> rfl

/-- The transport that an offer creates takes the candidates of the connection. -/
theorem process_offer {getRemoteCapabilities : Text → Text} {creation : IceCreation}
    {offer : IceWorkMsg} (hcreation : creation.Succeeds) (htype : offer.type = .offer)
    (hinfo : info.Accepts offer)
    (hsdp : Acceptable agent getRemoteCapabilities offer.remoteSdp)
    (hwaiting : ∀ msg ∈ waiting, IsWaiting info msg) :
    processIceWorkMsg agent getRemoteCapabilities creation ⟨info, none, waiting⟩ offer =
      ⟨info, some ((waiting.map carried).foldl (take agent) (described offer.remoteSdp)), []⟩ := by
  have hset := set_acceptable hsdp []
  have hfirst := (set_remote_sdp_accepted (fun _ hin => by cases hin) hset).2
  unfold processIceWorkMsg
  rw [if_neg (not_not.mpr hinfo), htype]
  simp only [hcreation.fresh, hcreation.init, hset, hfirst, Bool.true_eq_false, ne_eq,
    not_true_eq_false, if_false]
  exact flush_candidates hwaiting

/-- The transport that a join creates takes the candidates of the connection. -/
theorem process_join (getRemoteCapabilities : Text → Text) {creation : IceCreation}
    {join : IceWorkMsg} (hcreation : creation.Succeeds) (htype : join.type = .userJoinTransmission)
    (hinfo : info.Accepts join) (huser : join.remoteUserId ≠ info.userId)
    (hwaiting : ∀ msg ∈ waiting, IsWaiting info msg) :
    processIceWorkMsg agent getRemoteCapabilities creation ⟨info, none, waiting⟩ join =
      ⟨info, some ((waiting.map carried).foldl (take agent) {}), []⟩ := by
  unfold processIceWorkMsg
  rw [if_neg (not_not.mpr hinfo), htype]
  simp only [hcreation.fresh, hcreation.init, huser, Bool.true_eq_false, or_self, ne_eq,
    not_true_eq_false, if_false]
  exact flush_candidates hwaiting

/-- An answer replays the queue of the transport. -/
theorem process_answer {getRemoteCapabilities : Text → Text} (creation : IceCreation)
    {answer : IceWorkMsg} (htype : answer.type = .answer) (hinfo : info.Accepts answer)
    (hsdp : Acceptable agent getRemoteCapabilities answer.remoteSdp)
    {signals : List IceCandidateSignal} (hparsed : ∀ signal ∈ signals, IsParsed signal) :
    processIceWorkMsg agent getRemoteCapabilities creation
        ⟨info, some { pendingRemoteCandidates := signals }, []⟩ answer =
      ⟨info, some (signals.foldl (take agent) (described answer.remoteSdp)), []⟩ := by
  have hset := set_acceptable hsdp signals
  unfold processIceWorkMsg
  rw [if_neg (not_not.mpr hinfo), htype]
  show MiniRtcConnection.mk info (some (setRemoteSdp agent getRemoteCapabilities
    { pendingRemoteCandidates := signals } answer.remoteSdp).1) [] = _
  rw [(set_remote_sdp_accepted hparsed hset).2]

/-- The calls of the agent for the candidates do not depend on the place of the join and the answer,
or of the offer, among them: they are the first occurrences of the candidates of the generation, in
the order of their arrival, up to and including its first completion. -/
theorem candidates_confluent (haccepts : agent.Accepting) {getRemoteCapabilities : Text → Text}
    {remoteSdp : Text} (hsdp : Acceptable agent getRemoteCapabilities remoteSdp)
    {creation : IceCreation} (hcreation : creation.Succeeds) {early mid late : List IceWorkMsg}
    (hmessages : ∀ msg ∈ early ++ mid ++ late, IsCandidate msg)
    (hfew : ((early ++ mid).filterMap (candidateSignal info)).toFinset.card ≤ 256) :
    (∀ join answer : IceWorkMsg, join.type = .userJoinTransmission → info.Accepts join →
      join.remoteUserId ≠ info.userId → answer.type = .answer → info.Accepts answer →
      answer.remoteSdp = remoteSdp →
        ((early ++ join :: (mid ++ answer :: late)).foldl
          (processIceWorkMsg agent getRemoteCapabilities creation)
          { info := info }).iceTransport.map (·.calls) =
          some (expectedCalls (getIceUsername remoteSdp)
            ((early ++ mid ++ late).filterMap (candidateSignal info)))) ∧
    (∀ offer : IceWorkMsg, offer.type = .offer → info.Accepts offer →
      offer.remoteSdp = remoteSdp →
        ((early ++ mid ++ offer :: late).foldl
          (processIceWorkMsg agent getRemoteCapabilities creation)
          { info := info }).iceTransport.map (·.calls) =
          some (expectedCalls (getIceUsername remoteSdp)
            ((early ++ mid ++ late).filterMap (candidateSignal info)))) := by
  have hearlyMid : ∀ msg ∈ early ++ mid, IsCandidate msg := fun msg hin =>
    hmessages msg (List.mem_append_left late hin)
  have hearly : ∀ msg ∈ early, IsCandidate msg := fun msg hin =>
    hearlyMid msg (List.mem_append_left mid hin)
  have hmid : ∀ msg ∈ mid, IsCandidate msg := fun msg hin =>
    hearlyMid msg (List.mem_append_right early hin)
  have hlate : ∀ msg ∈ late, IsCandidate msg := fun msg hin =>
    hmessages msg (List.mem_append_right (early ++ mid) hin)
  have hparsed : ∀ {messages : List IceWorkMsg}, (∀ msg ∈ messages, IsCandidate msg) →
      ∀ msg ∈ messages, ∀ signal, candidateSignal info msg = some signal → IsParsed signal :=
    fun hall msg hin signal hsignal => candidate_signal_parsed (hall msg hin) hsignal
  constructor
  · -- Candidates before the join wait in the connection, those before the answer in the transport.
    intro join answer hjoin hjoinInfo huser hanswer hanswerInfo hanswerSdp
    subst hanswerSdp
    have hfewEarly : (early.filterMap (candidateSignal info)).toFinset.card ≤ 256 := by
      refine (Finset.card_le_card ?_).trans hfew
      rw [List.filterMap_append, List.toFinset_append]
      exact Finset.subset_union_left
    obtain ⟨waiting, hqueued, hcarried, hwaiting⟩ := queue_candidates agent hearly hfewEarly
    have hsignals : ∀ signal ∈ waiting.map carried ++ mid.filterMap (candidateSignal info),
        IsParsed signal := by
      intro signal hin
      rcases List.mem_append.mp hin with hold | hnew
      · obtain ⟨msg, hmsg, rfl⟩ := List.mem_map.mp hold
        exact (hwaiting msg hmsg).parsed
      · obtain ⟨msg, hmsg, hsignal⟩ := List.mem_filterMap.mp hnew
        exact hparsed hmid msg hmsg signal hsignal
    have hfew' : (waiting.map carried ++ mid.filterMap (candidateSignal info)).toFinset.card ≤
        256 := by
      refine (Finset.card_le_card ?_).trans hfew
      intro signal hin
      rw [List.mem_toFinset, hcarried, List.mem_append, List.mem_eraseDups] at hin
      rw [List.mem_toFinset, List.filterMap_append, List.mem_append]
      exact hin
    rw [List.foldl_append, process_candidate_messages getRemoteCapabilities creation hearly,
      hqueued, List.foldl_cons, process_join getRemoteCapabilities hcreation hjoin hjoinInfo huser
        hwaiting, List.foldl_append, process_candidate_messages getRemoteCapabilities creation hmid,
      process_candidates_transport [] (hparsed hmid), ← List.foldl_append,
      queue_signals agent hfew', List.foldl_cons,
      process_answer creation hanswer hanswerInfo hsdp fun signal hin =>
        hsignals signal (List.mem_eraseDups.mp hin),
      process_candidate_messages getRemoteCapabilities creation hlate,
      process_candidates_transport [] (hparsed hlate), ← List.foldl_append,
      calls_of_signals haccepts hsdp.username]
    show some (expectedCalls (getIceUsername answer.remoteSdp) _) = _
    rw [expected_calls_erase_dups haccepts hsdp.username, hcarried, List.append_assoc,
      expected_calls_erase_dups haccepts hsdp.username, ← List.append_assoc,
      ← List.filterMap_append, ← List.filterMap_append]
  · -- The offer makes the transport and describes it, so all earlier candidates wait for it.
    intro offer hoffer hofferInfo hofferSdp
    subst hofferSdp
    obtain ⟨waiting, hqueued, hcarried, hwaiting⟩ := queue_candidates agent hearlyMid hfew
    rw [List.foldl_append, process_candidate_messages getRemoteCapabilities creation hearlyMid,
      hqueued, List.foldl_cons, process_offer hcreation hoffer hofferInfo hsdp hwaiting,
      process_candidate_messages getRemoteCapabilities creation hlate,
      process_candidates_transport [] (hparsed hlate), ← List.foldl_append, hcarried,
      calls_of_signals haccepts hsdp.username]
    show some (expectedCalls (getIceUsername offer.remoteSdp) _) = _
    rw [expected_calls_erase_dups haccepts hsdp.username, ← List.filterMap_append]

/-- A candidate message for the connection of `b`. -/
def candidateOfB (sdp ufrag : String) : IceWorkMsg where
  type := .newCandidate
  remoteUserId := "b".toList
  newCandidate := sdp.toList
  candidateUfrag := ufrag.toList

/-- An agent that accepts everything. -/
def acceptingAgent : IceAgent where
  setRemoteSdp := fun _ => 0
  addRemoteCandidate := fun _ _ => 0
  setRemoteCandidateGatheringDone := fun _ => 0

/-- A candidate that comes before the join and again after the answer is added once. One of another
generation is not added, and nothing is added behind the completion. -/
theorem candidates_around_answer :
    (([candidateOfB "candidate:1 1 udp 1 h 1 typ host" "u"] ++
        { type := .userJoinTransmission, remoteUserId := "b".toList } ::
        ([candidateOfB "candidate:2 1 udp 1 h 2 typ host" "old"] ++
          { type := .answer
            remoteUserId := "b".toList
            remoteSdp := "a=ice-ufrag:u\na=fingerprint:sha-256 F\n".toList } ::
          [candidateOfB "candidate:1 1 udp 1 h 1 typ host" "u", candidateOfB "" "u",
            candidateOfB "candidate:3 1 udp 1 h 3 typ host" "u"])).foldl
      (processIceWorkMsg acceptingAgent mediaStreamSdp ⟨true, 0⟩)
      { info := ⟨[], "a".toList, "b".toList⟩ }).iceTransport.map (·.calls) =
      some [.addRemoteCandidate "a=candidate:1 1 udp 1 h 1 typ host".toList,
        .setRemoteCandidateGatheringDone] :=
  ((candidates_confluent ⟨fun _ _ => rfl, fun _ => rfl⟩ ⟨by decide, by decide, rfl⟩ ⟨rfl, rfl⟩
    (show ∀ msg ∈ [candidateOfB "candidate:1 1 udp 1 h 1 typ host" "u"] ++
      [candidateOfB "candidate:2 1 udp 1 h 2 typ host" "old"] ++
      [candidateOfB "candidate:1 1 udp 1 h 1 typ host" "u", candidateOfB "" "u",
        candidateOfB "candidate:3 1 udp 1 h 3 typ host" "u"], IsCandidate msg by decide)
    (by decide)).1 _ _ rfl (by decide) (by decide) rfl (by decide) rfl).trans
      (by decide)

end MiniRtcConnection

end MiniRtc
