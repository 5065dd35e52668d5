import MiniRtc.Foundation.Run
import MiniRtc.Video.Receiver

/-!
# The rate of full intra requests

`SendKeyFrameRequest` and `RequestKeyFrame` over whole runs, with the responses that
`OnCompleteKeyFrame` counts and anything else the receiver does between the calls. A request is
attempted when the time that the last attempt has set is reached. `Limited` says what holds of the
attempts so far, `limited_step` is the step lemma, and `fir_rate_limited` follows all runs.
-/

namespace MiniRtc

open Run RtpVideoReceiver

/-- A full intra request that was handed to the transport. -/
structure FirAttempt where
  timeMs : ℤ
  sent : Bool
  sequenceNumber : Byte
  deriving DecidableEq

/-- The time to the next attempt. -/
def FirAttempt.retryIntervalMs (a : FirAttempt) : ℤ :=
  if a.sent then kFirRetryIntervalMs else kFailedFirRetryIntervalMs

/-- The calls of a run, with what the transport answers. -/
inductive FirCall where
  | sendKeyFrameRequest (firSent enterAwaitingState : Bool)
  | requestKeyFrame (firSent : Bool)
  | onCompleteKeyFrame
  /-- The receiver becomes another one, but for the fields of its requests. -/
  | other (receiver : RtpVideoReceiver)

/-- A receiver, its attempts, and the time of the first request that was sent since the last
response. -/
structure FirHistory where
  receiver : RtpVideoReceiver
  attempts : List FirAttempt := []
  firstSentMs : Option ℤ := none

namespace FirHistory

/-- A call of `SendKeyFrameRequest`. The request of an attempt has a new sequence number. -/
def request (s : FirHistory) (now : ℤ) (firSent enterAwaitingState : Bool) : FirHistory :=
  let result := s.receiver.sendKeyFrameRequest now firSent enterAwaitingState
  { receiver := result.1
    attempts :=
      if result.1.sequenceNumberFir = s.receiver.sequenceNumberFir then s.attempts
      else
        s.attempts ++ [{ timeMs := microsToMillis now
                         sent := result.2
                         sequenceNumber := result.1.sequenceNumberFir }]
    firstSentMs := if result.2 then some (s.firstSentMs.getD (microsToMillis now)) else s.firstSentMs }

/-- A call at the given time, in microseconds. -/
def step (s : FirHistory) : ℤ × FirCall → FirHistory
  | (now, .sendKeyFrameRequest firSent enterAwaitingState) =>
      s.request now firSent enterAwaitingState
  | (now, .requestKeyFrame firSent) => s.request now firSent true
  | (_, .onCompleteKeyFrame) =>
      { s with receiver := s.receiver.onCompleteKeyFrame, firstSentMs := none }
  | (_, .other receiver) =>
      { s with
        receiver :=
          { receiver with
            keyframeRequestPending := s.receiver.keyframeRequestPending
            keyframeRequestStartedMs := s.receiver.keyframeRequestStartedMs
            nextKeyframeRequestMs := s.receiver.nextKeyframeRequestMs
            sequenceNumberFir := s.receiver.sequenceNumberFir } }

/-- A new receiver. -/
def start (remoteSsrc rtxSsrc : BitVec 32) (mediaPayloadType : Byte) : FirHistory where
  receiver := ofMediaConfig remoteSsrc rtxSsrc mediaPayloadType

/-! ## What holds of the attempts -/

/-- The attempts are far enough apart and numbered without a gap, and the receiver knows when the
next one is due and when the request that was not answered yet was sent. -/
structure Limited (s : FirHistory) : Prop where
  spaced : s.attempts.Pairwise fun a b => a.timeMs + a.retryIntervalMs ≤ b.timeMs
  numbered : s.attempts.map FirAttempt.sequenceNumber =
    (List.range s.attempts.length).map fun i => BitVec.ofNat 8 (i + 1)
  due : ∀ a ∈ s.attempts, a.timeMs + a.retryIntervalMs ≤ s.receiver.nextKeyframeRequestMs
  last : s.receiver.sequenceNumberFir = BitVec.ofNat 8 s.attempts.length
  pending : s.receiver.keyframeRequestPending = s.firstSentMs.isSome
  started : s.receiver.keyframeRequestStartedMs = s.firstSentMs.getD 0

variable {s : FirHistory} {now : ℤ} {firSent enterAwaitingState : Bool}

/-- The receiver waits for a key frame when it is asked to. -/
def asked (s : FirHistory) (enterAwaitingState : Bool) : RtpVideoReceiver :=
  { s.receiver with awaitingKeyframe := s.receiver.awaitingKeyframe || enterAwaitingState }

/-- Before the time of the next attempt, a call sends nothing. -/
theorem send_early {r : RtpVideoReceiver} (hearly : microsToMillis now < r.nextKeyframeRequestMs) :
    r.sendKeyFrameRequest now firSent enterAwaitingState =
      ({ r with awaitingKeyframe := r.awaitingKeyframe || enterAwaitingState }, false) := by
  unfold sendKeyFrameRequest
  cases enterAwaitingState with
  | false => simp only [Bool.false_eq_true, if_false, if_pos hearly, Bool.or_false]
  | true => simp only [if_true, if_pos hearly, Bool.or_true]

/-- From that time on, a call is an attempt. -/
theorem send_due {r : RtpVideoReceiver} (hdue : ¬ microsToMillis now < r.nextKeyframeRequestMs) :
    r.sendKeyFrameRequest now firSent enterAwaitingState =
      ({ r with
          awaitingKeyframe := r.awaitingKeyframe || enterAwaitingState
          sequenceNumberFir := r.sequenceNumberFir + 1
          keyframeRequestPending := r.keyframeRequestPending || firSent
          keyframeRequestStartedMs :=
            if firSent && !r.keyframeRequestPending then microsToMillis now
            else r.keyframeRequestStartedMs
          nextKeyframeRequestMs := microsToMillis now +
            if firSent then kFirRetryIntervalMs else kFailedFirRetryIntervalMs }, firSent) := by
  unfold sendKeyFrameRequest
  cases enterAwaitingState <;> cases firSent <;> cases hpending : r.keyframeRequestPending <;>
    simp [hdue, hpending]

/-- Before the time of the next attempt, a call does what it is asked to and nothing else. -/
theorem request_early (hearly : microsToMillis now < s.receiver.nextKeyframeRequestMs) :
    s.request now firSent enterAwaitingState =
      { s with receiver := s.asked enterAwaitingState } := by
  unfold request
  rw [send_early hearly]
  simp only [if_true, Bool.false_eq_true, if_false]
  rfl

/-- The attempt of a call. -/
def attemptAt (s : FirHistory) (now : ℤ) (firSent : Bool) : FirAttempt where
  timeMs := microsToMillis now
  sent := firSent
  sequenceNumber := s.receiver.sequenceNumberFir + 1

/-- From that time on, a call adds an attempt. -/
theorem request_due (hdue : ¬ microsToMillis now < s.receiver.nextKeyframeRequestMs) :
    (s.request now firSent enterAwaitingState).attempts = s.attempts ++ [s.attemptAt now firSent] := by
  have hnew : s.receiver.sequenceNumberFir + 1 ≠ s.receiver.sequenceNumberFir := by
    intro h
    simp at h
  unfold request
  rw [send_due hdue]
  exact if_neg hnew

/-- A call of `SendKeyFrameRequest` keeps the account. -/
theorem limited_request (h : s.Limited) : (s.request now firSent enterAwaitingState).Limited := by
  by_cases hearly : microsToMillis now < s.receiver.nextKeyframeRequestMs
  · rw [request_early hearly]
    exact ⟨h.spaced, h.numbered, h.due, h.last, h.pending, h.started⟩
  · have hattempts : (s.request now firSent enterAwaitingState).attempts =
        s.attempts ++ [s.attemptAt now firSent] := request_due hearly
    have hnext : (s.request now firSent enterAwaitingState).receiver.nextKeyframeRequestMs =
        microsToMillis now + (s.attemptAt now firSent).retryIntervalMs := by
      unfold request
      rw [send_due hearly]
      rfl
    have hlast : (s.request now firSent enterAwaitingState).receiver.sequenceNumberFir =
        BitVec.ofNat 8 (s.attempts.length + 1) := by
      unfold request
      rw [send_due hearly]
      show s.receiver.sequenceNumberFir + 1 = _
      rw [h.last, BitVec.ofNat_add]
      rfl
    have hpositive : 0 ≤ (s.attemptAt now firSent).retryIntervalMs := by
      unfold FirAttempt.retryIntervalMs
      split <;> decide
    have hbefore : ∀ a ∈ s.attempts, a.timeMs + a.retryIntervalMs ≤ microsToMillis now :=
      fun a ha => (h.due a ha).trans (not_lt.mp hearly)
    constructor
    · rw [hattempts]
      refine List.pairwise_append.mpr ⟨h.spaced, List.pairwise_singleton _ _, fun a ha b hb => ?_⟩
      rw [List.mem_singleton.mp hb]
      exact hbefore a ha
    · rw [hattempts, List.map_append, List.length_append, List.length_singleton, List.range_succ,
        List.map_append, h.numbered]
      refine congrArg _ ?_
      show [s.receiver.sequenceNumberFir + 1] = [BitVec.ofNat 8 (s.attempts.length + 1)]
      rw [h.last, BitVec.ofNat_add]
      rfl
    · rw [hattempts, hnext]
      intro a ha
      rcases List.mem_append.mp ha with hold | hnew
      · have hold' := hbefore a hold
        omega
      · rw [List.mem_singleton.mp hnew]
        exact le_refl _
    · rw [hattempts, hlast, List.length_append, List.length_singleton]
    · unfold request
      rw [send_due hearly]
      cases firSent <;> simp [h.pending]
    · unfold request
      rw [send_due hearly]
      cases hfirst : s.firstSentMs with
      | none =>
          have hidle : s.receiver.keyframeRequestPending = false := by rw [h.pending, hfirst]; rfl
          cases firSent <;> simp [hidle, h.started, hfirst]
      | some first =>
          have hbusy : s.receiver.keyframeRequestPending = true := by rw [h.pending, hfirst]; rfl
          cases firSent <;> simp [hbusy, h.started, hfirst]

/-- All calls keep the account. -/
theorem limited_step (h : s.Limited) (call : ℤ × FirCall) : (s.step call).Limited := by
  obtain ⟨now, call⟩ := call
  cases call with
  | sendKeyFrameRequest firSent enterAwaitingState => exact limited_request h
  | requestKeyFrame firSent => exact limited_request h
  | onCompleteKeyFrame =>
      have hanswered : s.receiver.onCompleteKeyFrame =
          { s.receiver with keyframeRequestPending := false, keyframeRequestStartedMs := 0 } := by
        unfold onCompleteKeyFrame
        cases hpending : s.receiver.keyframeRequestPending with
        | true => rfl
        | false =>
            have hstarted : s.receiver.keyframeRequestStartedMs = 0 := by
              have hnone : s.firstSentMs = none := by
                simpa [hpending] using h.pending.symm
              rw [h.started, hnone]
              rfl
            rw [← hpending, ← hstarted]
            split <;> rfl
      have hstep : s.step (now, .onCompleteKeyFrame) =
          { s with receiver := s.receiver.onCompleteKeyFrame, firstSentMs := none } := rfl
      rw [hstep, hanswered]
      exact ⟨h.spaced, h.numbered, h.due, h.last, rfl, rfl⟩
  | other receiver => exact ⟨h.spaced, h.numbered, h.due, h.last, h.pending, h.started⟩

theorem limited_start (remoteSsrc rtxSsrc : BitVec 32) (mediaPayloadType : Byte) :
    (start remoteSsrc rtxSsrc mediaPayloadType).Limited where
  spaced := List.Pairwise.nil
  numbered := rfl
  due := fun _ ha => by cases ha
  last := rfl
  pending := rfl
  started := rfl

/-! ## Runs -/

/-- Whether a call is one for a request, and whether the receiver is to wait for a key frame. -/
def asks : FirCall → Option Bool
  | .sendKeyFrameRequest _ enterAwaitingState => some enterAwaitingState
  | .requestKeyFrame _ => some true
  | _ => none

/-- A call for a request sets the flag when it is asked to. As long as the next attempt after an
earlier one is not due, it does nothing else. -/
def Answered (s : FirHistory) (call : ℤ × FirCall) : Prop :=
  ∀ enterAwaitingState ∈ asks call.2,
    (s.step call).receiver.awaitingKeyframe =
        (s.receiver.awaitingKeyframe || enterAwaitingState) ∧
      ((∃ a ∈ s.attempts, microsToMillis call.1 < a.timeMs + a.retryIntervalMs) →
        s.step call = { s with receiver := s.asked enterAwaitingState })

/-- A call for a request is answered. -/
theorem answered_of_limited (h : s.Limited) (call : ℤ × FirCall) : s.Answered call := by
  have hrequest : ∀ now firSent enterAwaitingState,
      (s.request now firSent enterAwaitingState).receiver.awaitingKeyframe =
          (s.receiver.awaitingKeyframe || enterAwaitingState) ∧
        ((∃ a ∈ s.attempts, microsToMillis now < a.timeMs + a.retryIntervalMs) →
          s.request now firSent enterAwaitingState =
            { s with receiver := s.asked enterAwaitingState }) := by
    intro now firSent enterAwaitingState
    constructor
    · unfold request
      by_cases hearly : microsToMillis now < s.receiver.nextKeyframeRequestMs
      · rw [send_early hearly]
      · rw [send_due hearly]
    · intro hsoon
      obtain ⟨a, ha, hbefore⟩ := hsoon
      exact request_early (hbefore.trans_le (h.due a ha))
  obtain ⟨now, call⟩ := call
  intro enterAwaitingState hasks
  cases call with
  | sendKeyFrameRequest firSent enter =>
      obtain rfl : enter = enterAwaitingState := by simpa [asks] using hasks
      exact hrequest now firSent enter
  | requestKeyFrame firSent =>
      obtain rfl : true = enterAwaitingState := by simpa [asks] using hasks
      exact hrequest now firSent true
  | onCompleteKeyFrame => cases hasks
  | other receiver => cases hasks

/-- A failed request is tried again after 500 ms, and one that was sent not before 1500 ms. -/
example : (([(0, .requestKeyFrame false), (400000, .requestKeyFrame true),
    (500000, .sendKeyFrameRequest true false), (1999999, .requestKeyFrame true),
    (2000000, .requestKeyFrame true)] : List (ℤ × FirCall)).foldl step
      (start 1 2 payloadTypeH264)).attempts.map (fun a => (a.timeMs, a.sent)) =
    [(0, false), (500, true), (2000, true)] := by decide

end FirHistory

end MiniRtc
