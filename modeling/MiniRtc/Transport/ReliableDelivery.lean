import MiniRtc.Rtp.Packet
import MiniRtc.Foundation.Run

/-!
# Delivery of reliable data

`TryReceiveKcpData` of `data_channel_receive.cpp`, which the RTP receive path and the update timer of
KCP both call. A call takes all messages that are ready out of KCP under `kcp_mutex_`, and passes them
to `on_receive_data_` after it has released the mutex.

KCP itself is a list of messages, in the order in which the peer sent them, that `ikcp_input` extends
and `ikcp_recv` takes from. An update makes no message ready.

The main result, `in_order_run`, says that messages are delivered in order when a thread finds messages
only while the other one holds none. `overtaken_by_timer` is a run in which it does.
-/

namespace MiniRtc

/-- The threads that call `TryReceiveKcpData`. -/
inductive ReceiveThread where
  | rtpReceive
  | updateTimer
  deriving DecidableEq

/-- A message as `ikcp_recv` returns it. -/
abbrev KcpMessage := List Byte

/-- `DataChannelReceive` with its KCP: the messages that are ready, those that `ikcp_recv` has
returned, those that a thread holds in `received_messages`, and those that were delivered. -/
structure DataChannelReceive where
  ready : List KcpMessage := []
  returned : List KcpMessage := []
  held : ReceiveThread → List KcpMessage := fun _ => []
  delivered : List KcpMessage := []

/-- The steps of the two threads. -/
inductive ReceiveStep where
  /-- `ikcp_input` in the section of the receive callback, and the messages that become ready. -/
  | input (messages : List KcpMessage)
  /-- The section of `TryReceiveKcpData`. -/
  | receive (thread : ReceiveThread)
  /-- One call of `on_receive_data_`. -/
  | deliver (thread : ReceiveThread)

namespace DataChannelReceive

/-- The loop of `TryReceiveKcpData`: the messages that `ikcp_recv` returns, those that are stored, and
those that stay. A message without bytes ends the loop. -/
def receiveLoop : List KcpMessage → List KcpMessage × List KcpMessage × List KcpMessage
  | [] => ([], [], [])
  | message :: rest =>
      if message = [] then ([message], [], rest)
      else
        let later := receiveLoop rest
        (message :: later.1, message :: later.2.1, later.2.2)

/-- One step. A thread that still delivers does not take part in the others. -/
def step (s : DataChannelReceive) : ReceiveStep → DataChannelReceive
  | .input messages =>
      if s.held .rtpReceive = [] then { s with ready := s.ready ++ messages } else s
  | .receive thread =>
      if s.held thread = [] then
        let received := receiveLoop s.ready
        { s with
          ready := received.2.2
          returned := s.returned ++ received.1
          held := Function.update s.held thread received.2.1 }
      else s
  | .deliver thread =>
      match s.held thread with
      | [] => s
      | message :: rest =>
          { s with
            held := Function.update s.held thread rest
            delivered := s.delivered ++ [message] }

/-- What was delivered is what `ikcp_recv` returned, up to what the threads still hold. -/
def InOrder (s : DataChannelReceive) : Prop :=
  s.delivered <+: s.returned ∧ ((∀ thread, s.held thread = []) → s.delivered = s.returned)

/-- A thread finds no messages while another one holds some, and none without bytes. -/
def Serial (s : DataChannelReceive) : ReceiveStep → Prop
  | .receive thread => s.held thread = [] →
      [] ∉ (receiveLoop s.ready).1 ∧ (s.ready ≠ [] → ∀ other, s.held other = [])
  | _ => True

/-- The loop stores all messages that it gets when all have bytes. -/
theorem receive_loop_stored {ready : List KcpMessage} (h : [] ∉ (receiveLoop ready).1) :
    (receiveLoop ready).2.1 = (receiveLoop ready).1 := by
  induction ready with
  | nil => rfl
  | cons message rest ih =>
      unfold receiveLoop at h ⊢
      split_ifs at h ⊢ with hempty
      · exact absurd (List.mem_singleton.mpr hempty.symm) h
      · exact congrArg (message :: ·) (ih fun hin => h (List.mem_cons_of_mem _ hin))

/-- One thread at most holds messages, and these are the ones that were returned last. -/
def Kept (s : DataChannelReceive) : Prop :=
  ∃ thread, (∀ other, other ≠ thread → s.held other = []) ∧
    s.returned = s.delivered ++ s.held thread

/-- A serial step keeps the order. -/
theorem kept_step {s : DataChannelReceive} (h : s.Kept) {a : ReceiveStep} (hserial : s.Serial a) :
    (s.step a).Kept := by
  obtain ⟨thread, hothers, hreturned⟩ := h
  cases a with
  | input messages =>
      unfold step
      simp only
      split_ifs
      · exact ⟨thread, hothers, hreturned⟩
      · exact ⟨thread, hothers, hreturned⟩
  | receive caller =>
      unfold step
      simp only
      split_ifs with hidle
      · obtain ⟨hbytes, halone⟩ := hserial hidle
        have hstored := receive_loop_stored hbytes
        by_cases hready : s.ready = []
        · rw [hready]
          refine ⟨thread, fun other hother => ?_, ?_⟩
          · by_cases hcaller : other = caller
            · rw [hcaller]
              exact Function.update_self ..
            · exact (Function.update_of_ne hcaller _ _).trans (hothers other hother)
          · show s.returned ++ [] = s.delivered ++ Function.update s.held caller [] thread
            rw [Function.update_eq_self_iff.mpr hidle.symm, List.append_nil, hreturned]
        · have hnone := halone hready
          refine ⟨caller, fun other hother => ?_, ?_⟩
          · exact (Function.update_of_ne hother _ _).trans (hnone other)
          · show s.returned ++ _ = s.delivered ++ Function.update s.held caller _ caller
            rw [Function.update_self, hstored, hreturned, hnone thread, List.append_nil]
      · exact ⟨thread, hothers, hreturned⟩
  | deliver caller =>
      unfold step
      simp only
      split
      · exact ⟨thread, hothers, hreturned⟩
      · rename_i message rest hheld
        have hcaller : caller = thread := by
          by_contra hne
          rw [hothers caller hne] at hheld
          cases hheld
        subst hcaller
        refine ⟨caller, fun other hother => ?_, ?_⟩
        · exact (Function.update_of_ne hother _ _).trans (hothers other hother)
        · show s.returned = s.delivered ++ [message] ++ Function.update s.held caller rest caller
          rw [Function.update_self, hreturned, hheld, List.append_assoc, List.singleton_append]

/-- What is kept is in order. -/
theorem in_order_of_kept {s : DataChannelReceive} (h : s.Kept) : s.InOrder := by
  obtain ⟨thread, -, hreturned⟩ := h
  refine ⟨⟨s.held thread, hreturned.symm⟩, fun hnone => ?_⟩
  rw [hreturned, hnone thread, List.append_nil]

/-- In every state of a run in which a thread finds messages only while the other one holds none, the
messages are delivered in the order in which they were returned, each once. -/
theorem in_order_run (steps : List ReceiveStep)
    (hserial : Run.Along step Serial ({} : DataChannelReceive) steps) :
    (steps.foldl step ({} : DataChannelReceive)).InOrder :=
  in_order_of_kept (hserial.invariant (fun _ _ h hin => kept_step h hin)
    ⟨.rtpReceive, fun _ _ => rfl, rfl⟩)

/-- When a thread finds a message while another one holds a different one, it can deliver it first. -/
theorem overtakes_of_not_serial {s : DataChannelReceive} (h : s.Kept) {thread other : ReceiveThread}
    (hidle : s.held thread = []) {held found : KcpMessage} {rest later : List KcpMessage}
    (hheld : s.held other = held :: rest) (hready : s.ready = found :: later) (hbytes : found ≠ [])
    (hne : found ≠ held) : ¬ ((s.step (.receive thread)).step (.deliver thread)).InOrder := by
  obtain ⟨owner, hothers, hreturned⟩ := h
  obtain rfl : owner = other := by
    by_contra hdifferent
    rw [hothers other fun heq => hdifferent heq.symm] at hheld
    cases hheld
  have hstored : receiveLoop s.ready = (found :: (receiveLoop later).1,
      found :: (receiveLoop later).2.1, (receiveLoop later).2.2) := by
    rw [hready]
    exact if_neg hbytes
  rintro ⟨⟨rest', hstart⟩, -⟩
  unfold step at hstart
  simp only [hidle, hstored, if_true, Function.update_self] at hstart
  rw [hreturned, hheld, List.append_assoc, List.append_assoc] at hstart
  exact hne (List.cons.inj (List.append_cancel_left hstart)).1

/-- A message that arrives while the other thread is idle. -/
def oneByOne : List ReceiveStep :=
  [.input [[1]], .receive .updateTimer, .deliver .updateTimer, .input [[2]], .receive .rtpReceive,
    .deliver .rtpReceive]

/-- Messages that are taken one after the other are delivered in order. -/
theorem one_by_one_in_order :
    Run.Along step Serial ({} : DataChannelReceive) oneByOne ∧
      (oneByOne.foldl step ({} : DataChannelReceive)).InOrder := by
  have hserial : Run.Along step Serial ({} : DataChannelReceive) oneByOne := by
    refine ⟨trivial, fun _ => ⟨by decide, fun _ other => ?_⟩, trivial, trivial,
      fun _ => ⟨by decide, fun _ other => ?_⟩, trivial, trivial⟩
    · rfl
    · cases other
      · rfl
      · rfl
  exact ⟨hserial, in_order_run oneByOne hserial⟩

/-- The timer takes a message, and before it delivers it the receive path gets and delivers the
next one. -/
def timerIsLate : List ReceiveStep :=
  [.input [[1]], .receive .updateTimer, .input [[2]], .receive .rtpReceive, .deliver .rtpReceive,
    .deliver .updateTimer]

/-- The second message is delivered before the first one. -/
theorem overtaken_by_timer :
    ¬ ∀ steps : List ReceiveStep, (steps.foldl step ({} : DataChannelReceive)).InOrder := by
  intro h
  have hdelivered := (h timerIsLate).2 (by intro thread; cases thread <;> rfl)
  exact absurd hdelivered (by decide)

end DataChannelReceive

end MiniRtc
