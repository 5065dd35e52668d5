import MiniRtc.Foundation.FirstOccurrences
import MiniRtc.Transport.RemoteSdp

/-!
# Remote candidates

`AddRemoteCandidate`, `SetRemoteCandidateGatheringDone` and `SetRemoteSdp` of `ice_transport.cpp`.
Before the remote description is known the candidates wait in a queue, and `SetRemoteSdp` replays
it. `GetRemoteCapabilities` is a parameter here, and so are the results of the ICE agent.

`calls_of_signals` says which calls of the agent a list of signals causes once the description is
known. The queue and the transport ignore what they have seen, so it does not matter how many of
the signals came before the description (`calls_confluent`).
-/

namespace MiniRtc

open Text FirstOccurrences

/-! ## The functions of the source -/

/-- The calls of `ice_agent_` for the candidates. -/
inductive AgentCall where
  | addRemoteCandidate (sdp : Text)
  | setRemoteCandidateGatheringDone
  deriving DecidableEq

/-- `IceAgent`, by the results of its calls. They may depend on the calls so far. -/
structure IceAgent where
  setRemoteSdp : Text → ℤ
  addRemoteCandidate : List AgentCall → Text → ℤ
  setRemoteCandidateGatheringDone : List AgentCall → ℤ

/-- The agent accepts every call for the candidates. -/
structure IceAgent.Accepting (agent : IceAgent) : Prop where
  addRemoteCandidate : ∀ calls sdp, agent.addRemoteCandidate calls sdp = 0
  setRemoteCandidateGatheringDone : ∀ calls, agent.setRemoteCandidateGatheringDone calls = 0

/-- `IceTransport`, with the calls of the agent so far. -/
structure IceTransport where
  remoteSdp : Text := []
  remoteIceUsername : Text := []
  remoteCandidateKeys : List Text := []
  pendingRemoteCandidates : List IceCandidateSignal := []
  remoteGatheringDone : Bool := false
  calls : List AgentCall := []

namespace IceTransport

/-- The fragment belongs to another generation. -/
def staleUfrag (t : IceTransport) (ufrag : Text) : Prop :=
  ufrag ≠ [] ∧ t.remoteIceUsername ≠ [] ∧ ufrag ≠ t.remoteIceUsername

instance (t : IceTransport) (ufrag : Text) : Decidable (t.staleUfrag ufrag) :=
  inferInstanceAs (Decidable (_ ∧ _))

/-- The part of `AddRemoteCandidate` before the remote description is known. -/
def queueCandidate (t : IceTransport) (signal : IceCandidateSignal) : IceTransport × ℤ :=
  if signal ∈ t.pendingRemoteCandidates then (t, 0)
  else if 256 ≤ t.pendingRemoteCandidates.length then (t, -1)
  else ({ t with pendingRemoteCandidates := t.pendingRemoteCandidates ++ [signal] }, 0)

/-- `SetRemoteCandidateGatheringDone`. Its call of `AddRemoteCandidate` is written out. -/
def setRemoteCandidateGatheringDone (agent : IceAgent) (t : IceTransport) (candidateUfrag : Text) :
    IceTransport × ℤ :=
  if t.staleUfrag candidateUfrag then (t, 0)
  else if t.remoteSdp = [] then
    match parseIceCandidateSignal [] candidateUfrag with
    | none => (t, -1)
    | some signal => if t.staleUfrag signal.ufrag then (t, 0) else t.queueCandidate signal
  else if t.remoteGatheringDone then (t, 0)
  else
    let result := agent.setRemoteCandidateGatheringDone t.calls
    ({ t with
      calls := t.calls ++ [.setRemoteCandidateGatheringDone]
      remoteGatheringDone := decide (result = 0) }, result)

/-- `AddRemoteCandidate` for a signal that is parsed. -/
def addSignal (agent : IceAgent) (t : IceTransport) (signal : IceCandidateSignal) :
    IceTransport × ℤ :=
  if t.staleUfrag signal.ufrag then (t, 0)
  else if t.remoteSdp = [] then t.queueCandidate signal
  else if signal.complete then t.setRemoteCandidateGatheringDone agent signal.ufrag
  else if t.remoteGatheringDone then (t, 0)
  else if signal.sdp ∈ t.remoteCandidateKeys then (t, 0)
  else
    let called := { t with calls := t.calls ++ [.addRemoteCandidate signal.sdp] }
    if agent.addRemoteCandidate t.calls signal.sdp ≠ 0 then (called, -1)
    else ({ called with remoteCandidateKeys := t.remoteCandidateKeys ++ [signal.sdp] }, 0)

/-- `AddRemoteCandidate`. -/
def addRemoteCandidate (agent : IceAgent) (t : IceTransport) (candidateSdp candidateUfrag : Text) :
    IceTransport × ℤ :=
  match parseIceCandidateSignal candidateSdp candidateUfrag with
  | none => (t, -1)
  | some signal => t.addSignal agent signal

/-- Hands the queued candidates to `AddRemoteCandidate`. -/
def replay (agent : IceAgent) (t : IceTransport) (candidates : List IceCandidateSignal) :
    IceTransport :=
  candidates.foldl (fun t candidate =>
    (t.addRemoteCandidate agent candidate.sdp candidate.ufrag).1) t

/-- `SetRemoteSdp`. -/
def setRemoteSdp (agent : IceAgent) (getRemoteCapabilities : Text → Text) (t : IceTransport)
    (remoteSdp : Text) : IceTransport × ℤ :=
  let remoteUfrag := getIceUsername remoteSdp
  if remoteUfrag = [] then (t, -1)
  else if t.remoteIceUsername ≠ [] ∧ t.remoteIceUsername ≠ remoteUfrag then (t, -1)
  else if getRemoteCapabilities remoteSdp = [] then (t, -1)
  else if agent.setRemoteSdp (agentDescription remoteSdp (getRemoteCapabilities remoteSdp)) ≠ 0 then
    (t, -1)
  else
    let accepted :=
      { t with
        remoteSdp := remoteSdp
        remoteIceUsername := remoteUfrag
        pendingRemoteCandidates := [] }
    (accepted.replay agent t.pendingRemoteCandidates, 0)

/-! ## What the agent is to be called for -/

/-- The signal belongs to the generation. -/
def IsCurrent (username : Text) (signal : IceCandidateSignal) : Prop :=
  signal.ufrag = [] ∨ signal.ufrag = username

instance (username : Text) (signal : IceCandidateSignal) : Decidable (IsCurrent username signal) :=
  inferInstanceAs (Decidable (_ ∨ _))

/-- The signals of the generation. -/
def currentSignals (username : Text) (signals : List IceCandidateSignal) :
    List IceCandidateSignal :=
  signals.filter fun signal => IsCurrent username signal

/-- The candidates before the first completion, each once. -/
def candidatesBefore (signals : List IceCandidateSignal) : List Text :=
  ((signals.takeWhile fun signal => !signal.complete).map (·.sdp)).eraseDups

/-- The calls for signals of the generation: the first occurrences of the candidates, up to and
including the first completion. -/
def callsOf (current : List IceCandidateSignal) : List AgentCall :=
  (candidatesBefore current).map .addRemoteCandidate ++
    if current.any (·.complete) then [.setRemoteCandidateGatheringDone] else []

/-- The calls for the signals. -/
def expectedCalls (username : Text) (signals : List IceCandidateSignal) : List AgentCall :=
  callsOf (currentSignals username signals)

/-! ## Candidates before the first completion -/

variable {agent : IceAgent} {signal : IceCandidateSignal} {signals more : List IceCandidateSignal}

/-- Nothing counts after a completion. -/
theorem candidates_before_done (h : signals.any (·.complete) = true)
    (more : List IceCandidateSignal) :
    candidatesBefore (signals ++ more) = candidatesBefore signals := by
  have hstops : (signals.takeWhile fun signal => !signal.complete).length ≠ signals.length := by
    intro hlength
    obtain ⟨done, hin, hdone⟩ := List.any_eq_true.mp h
    rw [← (List.takeWhile_prefix _).eq_of_length hlength] at hin
    have hopen := List.mem_takeWhile_imp hin
    rw [hdone] at hopen
    cases hopen
  unfold candidatesBefore
  rw [List.takeWhile_append, if_neg hstops]

/-- All signals count as long as there is no completion. -/
theorem candidates_before_open (h : signals.any (·.complete) = false) :
    candidatesBefore signals = (signals.map (·.sdp)).eraseDups := by
  have hall : (signals.takeWhile fun signal => !signal.complete) = signals := by
    refine List.takeWhile_eq_self_iff.mpr fun signal hin => ?_
    rw [List.any_eq_false] at h
    simpa using h signal hin
  unfold candidatesBefore
  rw [hall]

/-- One more candidate counts when it is new. -/
theorem candidates_before_snoc (h : signals.any (·.complete) = false)
    (hsignal : signal.complete = false) :
    candidatesBefore (signals ++ [signal]) =
      if signal.sdp ∈ candidatesBefore signals then candidatesBefore signals
      else candidatesBefore signals ++ [signal.sdp] := by
  have hboth : (signals ++ [signal]).any (·.complete) = false := by
    rw [List.any_append, h, List.any_cons, hsignal]
    rfl
  rw [candidates_before_open hboth, candidates_before_open h, List.map_append, List.map_singleton,
    erase_dups_snoc]
  simp only [List.mem_eraseDups]

/-- A completion is no candidate. -/
theorem candidates_before_complete (h : signals.any (·.complete) = false)
    (hsignal : signal.complete = true) :
    candidatesBefore (signals ++ [signal]) = candidatesBefore signals := by
  have hall : (signals.takeWhile fun signal => !signal.complete) = signals := by
    refine List.takeWhile_eq_self_iff.mpr fun signal hin => ?_
    rw [List.any_eq_false] at h
    simpa using h signal hin
  unfold candidatesBefore
  rw [List.takeWhile_append, hall, if_pos rfl, List.takeWhile_cons_of_neg (by simp [hsignal]),
    List.append_nil]

/-! ## The calls -/

/-- The transport after a signal. -/
def take (agent : IceAgent) (t : IceTransport) (signal : IceCandidateSignal) : IceTransport :=
  (t.addSignal agent signal).1

/-- The transport once the description is known, before any candidate. -/
def described (remoteSdp : Text) : IceTransport where
  remoteSdp := remoteSdp
  remoteIceUsername := getIceUsername remoteSdp

/-- Signals that came before the description wait, each once, when there are at most 256. -/
theorem queue_signals (agent : IceAgent) (hfew : signals.toFinset.card ≤ 256) :
    signals.foldl (take agent) {} = { pendingRemoteCandidates := signals.eraseDups } := by
  induction signals using List.reverseRecOn with
  | nil => rfl
  | append_singleton signals signal ih =>
      have hsub : signals.toFinset ⊆ (signals ++ [signal]).toFinset := by
        intro s hs
        rw [List.mem_toFinset] at hs ⊢
        exact List.mem_append_left [signal] hs
      rw [List.foldl_append, ih ((Finset.card_le_card hsub).trans hfew), List.foldl_cons,
        List.foldl_nil, erase_dups_snoc]
      show (addSignal agent { pendingRemoteCandidates := signals.eraseDups } signal).1 = _
      unfold addSignal
      rw [if_neg (fun hstale => hstale.2.1 rfl), if_pos rfl]
      unfold queueCandidate
      simp only [List.mem_eraseDups]
      split_ifs with hin hfull
      · rfl
      · exfalso
        have hnew : signal ∉ signals.toFinset := fun h => hin (List.mem_toFinset.mp h)
        have hinsert : (signals ++ [signal]).toFinset = insert signal signals.toFinset := by
          ext s
          simp
        rw [hinsert, Finset.card_insert_of_notMem hnew, ← length_erase_dups] at hfew
        omega
      · rfl

/-- A signal is current when it is not of another generation. -/
theorem not_stale_iff {t : IceTransport} (hne : t.remoteIceUsername ≠ []) :
    ¬ t.staleUfrag signal.ufrag ↔ IsCurrent t.remoteIceUsername signal := by
  unfold staleUfrag IsCurrent
  tauto

/-- The transport after signals of the generation that come with a known description. -/
def afterCurrent (remoteSdp : Text) (current : List IceCandidateSignal) : IceTransport :=
  { described remoteSdp with
    remoteCandidateKeys := candidatesBefore current
    remoteGatheringDone := current.any (·.complete)
    calls := callsOf current }

/-- The transport after signals that come with a known description. -/
def after (remoteSdp : Text) (signals : List IceCandidateSignal) : IceTransport :=
  afterCurrent remoteSdp (currentSignals (getIceUsername remoteSdp) signals)

/-- Signals of the generation are added to those before. -/
theorem after_snoc_current {remoteSdp : Text} (h : IsCurrent (getIceUsername remoteSdp) signal) :
    after remoteSdp (signals ++ [signal]) =
      afterCurrent remoteSdp (currentSignals (getIceUsername remoteSdp) signals ++ [signal]) := by
  unfold after currentSignals
  rw [List.filter_append, List.filter_cons_of_pos (by simpa using h), List.filter_nil]

/-- Signals of other generations do not count. -/
theorem after_snoc_stale {remoteSdp : Text} (h : ¬ IsCurrent (getIceUsername remoteSdp) signal) :
    after remoteSdp (signals ++ [signal]) = after remoteSdp signals := by
  unfold after currentSignals
  rw [List.filter_append, List.filter_cons_of_neg (by simpa using h), List.filter_nil,
    List.append_nil]

/-- Nothing changes behind a completion. -/
theorem after_current_done (remoteSdp : Text) (h : signals.any (·.complete) = true) :
    afterCurrent remoteSdp (signals ++ [signal]) = afterCurrent remoteSdp signals := by
  unfold afterCurrent callsOf
  rw [candidates_before_done h, List.any_append, h, Bool.true_or]

/-- What a signal of the generation does once the description is known. -/
theorem take_current (haccepts : agent.Accepting) {t : IceTransport} (hsdp : t.remoteSdp ≠ [])
    (hfresh : ¬ t.staleUfrag signal.ufrag) :
    take agent t signal =
      if t.remoteGatheringDone then t
      else if signal.complete then
        { t with calls := t.calls ++ [.setRemoteCandidateGatheringDone], remoteGatheringDone := true }
      else if signal.sdp ∈ t.remoteCandidateKeys then t
      else
        { t with
          calls := t.calls ++ [.addRemoteCandidate signal.sdp]
          remoteCandidateKeys := t.remoteCandidateKeys ++ [signal.sdp] } := by
  unfold take addSignal setRemoteCandidateGatheringDone
  simp only [if_neg hfresh, if_neg hsdp, haccepts.setRemoteCandidateGatheringDone,
    haccepts.addRemoteCandidate]
  split_ifs <;> simp_all

/-- One more signal. -/
theorem take_after (haccepts : agent.Accepting) {remoteSdp : Text}
    (husername : getIceUsername remoteSdp ≠ []) (signals : List IceCandidateSignal)
    (signal : IceCandidateSignal) :
    take agent (after remoteSdp signals) signal = after remoteSdp (signals ++ [signal]) := by
  have hsdp : (after remoteSdp signals).remoteSdp ≠ [] := by
    intro hnil
    have hempty : remoteSdp = [] := hnil
    rw [hempty] at husername
    exact husername rfl
  have hfresh : ¬ (after remoteSdp signals).staleUfrag signal.ufrag ↔
      IsCurrent (getIceUsername remoteSdp) signal :=
    not_stale_iff (t := after remoteSdp signals) husername
  by_cases hcurrent : IsCurrent (getIceUsername remoteSdp) signal
  · rw [take_current haccepts hsdp (hfresh.mpr hcurrent), after_snoc_current hcurrent]
    unfold after
    generalize currentSignals (getIceUsername remoteSdp) signals = current
    cases hdone : current.any (·.complete) with
    | true =>
        rw [after_current_done remoteSdp hdone]
        exact if_pos hdone
    | false =>
        unfold afterCurrent callsOf
        rw [List.any_append, hdone, List.any_cons, List.any_nil, Bool.or_false, Bool.false_or]
        cases hsignal : signal.complete with
        | true =>
            rw [candidates_before_complete hdone hsignal]
            simp
        | false =>
            rw [candidates_before_snoc hdone hsignal]
            by_cases hknown : signal.sdp ∈ candidatesBefore current
            · simp [hknown]
            · simp [hknown]
  · unfold take addSignal
    rw [if_pos (not_not.mp (mt hfresh.mp hcurrent)), after_snoc_stale hcurrent]

/-- Signals that come with a known description cause the expected calls. -/
theorem calls_of_signals (haccepts : agent.Accepting) {remoteSdp : Text}
    (husername : getIceUsername remoteSdp ≠ []) (signals : List IceCandidateSignal) :
    signals.foldl (take agent) (described remoteSdp) = after remoteSdp signals := by
  induction signals using List.reverseRecOn with
  | nil => rfl
  | append_singleton signals signal ih =>
      rw [List.foldl_append, ih]
      exact take_after haccepts husername signals signal

/-- The transport ignores a signal that it has seen. -/
theorem ignores_described (haccepts : agent.Accepting) {remoteSdp : Text}
    (husername : getIceUsername remoteSdp ≠ []) :
    Ignores (take agent) (described remoteSdp) := by
  intro signals signal hin
  rw [calls_of_signals haccepts husername, take_after haccepts husername]
  by_cases hcurrent : IsCurrent (getIceUsername remoteSdp) signal
  · rw [after_snoc_current hcurrent]
    have hseen : signal ∈ currentSignals (getIceUsername remoteSdp) signals :=
      List.mem_filter.mpr ⟨hin, by simpa using hcurrent⟩
    unfold after
    generalize currentSignals (getIceUsername remoteSdp) signals = current at hseen
    cases hdone : current.any (·.complete) with
    | true => exact after_current_done remoteSdp hdone
    | false =>
        have hsignal : signal.complete = false := by
          rw [List.any_eq_false] at hdone
          exact Bool.eq_false_iff.mpr (hdone signal hseen)
        have hknown : signal.sdp ∈ candidatesBefore current := by
          rw [candidates_before_open hdone, List.mem_eraseDups]
          exact List.mem_map_of_mem hseen
        unfold afterCurrent callsOf
        rw [candidates_before_snoc hdone hsignal, if_pos hknown, List.any_append, List.any_cons,
          hsignal, List.any_nil, Bool.or_false, Bool.or_false]
  · exact after_snoc_stale hcurrent

/-- Repeated signals cause no calls. -/
theorem expected_calls_erase_dups (haccepts : agent.Accepting) {remoteSdp : Text}
    (husername : getIceUsername remoteSdp ≠ []) (signals more : List IceCandidateSignal) :
    expectedCalls (getIceUsername remoteSdp) (signals.eraseDups ++ more) =
      expectedCalls (getIceUsername remoteSdp) (signals ++ more) := by
  have hsame : (signals.eraseDups ++ more).foldl (take agent) (described remoteSdp) =
      (signals ++ more).foldl (take agent) (described remoteSdp) := by
    rw [List.foldl_append, foldl_erase_dups (ignores_described haccepts husername),
      ← List.foldl_append]
  rw [calls_of_signals haccepts husername, calls_of_signals haccepts husername] at hsame
  exact congrArg IceTransport.calls hsame

/-! ## The queue -/

/-- A signal is parsed to itself. -/
def IsParsed (signal : IceCandidateSignal) : Prop :=
  parseIceCandidateSignal signal.sdp signal.ufrag = some signal

/-- Parsed signals are replayed as they are. -/
theorem replay_parsed (t : IceTransport) (h : ∀ signal ∈ signals, IsParsed signal) :
    t.replay agent signals = signals.foldl (take agent) t := by
  unfold replay
  refine List.foldl_ext _ _ t fun t signal hin => ?_
  have hparsed : parseIceCandidateSignal signal.sdp signal.ufrag = some signal := h signal hin
  unfold addRemoteCandidate take
  rw [hparsed]

/-- The description that is accepted replays the queue. -/
theorem set_remote_sdp_accepted {getRemoteCapabilities : Text → Text} {remoteSdp : Text}
    (hwaiting : ∀ signal ∈ signals, IsParsed signal)
    (h : (setRemoteSdp agent getRemoteCapabilities { pendingRemoteCandidates := signals }
      remoteSdp).2 = 0) :
    getIceUsername remoteSdp ≠ [] ∧
      (setRemoteSdp agent getRemoteCapabilities { pendingRemoteCandidates := signals }
        remoteSdp).1 = signals.foldl (take agent) (described remoteSdp) := by
  unfold setRemoteSdp at h ⊢
  simp only at h ⊢
  split_ifs at h ⊢ with husername hchanged hcapabilities hagent
  · cases h
  · cases h
  · cases h
  · cases h
  · exact ⟨husername, replay_parsed (described remoteSdp) hwaiting⟩

/-- The calls do not depend on how many of the signals came before the description. -/
theorem calls_confluent (haccepts : agent.Accepting) {getRemoteCapabilities : Text → Text}
    {remoteSdp : Text} (hparsed : ∀ signal ∈ signals, IsParsed signal)
    (hfew : signals.toFinset.card ≤ 256)
    (h : (setRemoteSdp agent getRemoteCapabilities (signals.foldl (take agent) {}) remoteSdp).2 = 0)
    (more : List IceCandidateSignal) :
    (more.foldl (take agent)
      (setRemoteSdp agent getRemoteCapabilities (signals.foldl (take agent) {}) remoteSdp).1).calls =
      expectedCalls (getIceUsername remoteSdp) (signals ++ more) := by
  rw [queue_signals agent hfew] at h ⊢
  have hwaiting : ∀ signal ∈ signals.eraseDups, IsParsed signal := fun signal hin =>
    hparsed signal (List.mem_eraseDups.mp hin)
  obtain ⟨husername, hreplayed⟩ := set_remote_sdp_accepted hwaiting h
  rw [hreplayed, foldl_erase_dups (ignores_described haccepts husername), ← List.foldl_append,
    calls_of_signals haccepts husername]
  rfl

end IceTransport

end MiniRtc
