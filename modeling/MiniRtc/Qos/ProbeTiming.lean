import MiniRtc.Qos.ProbeLimits

/-!
# When probes are made

`Process` probes periodically, but never sooner than a second after the last probes, and it waits for
the results of probes for a second. Both depend on the time of the last probes, and that can be plus
infinity: the first call of `SetBitrates` has the time of the initial constraints. Probes that were
initiated then are waited for until the estimate exceeds their threshold or the network is lost.
-/

namespace MiniRtc

/-- A controller and the time of the last probes that it made. -/
structure ProbeHistory where
  controller : ProbeController := {}
  lastProbes : Option Timestamp := none

namespace ProbeHistory

variable (times : ℤ → ℚ → ℤ)

/-- The controller after a call. -/
def step (h : ProbeHistory) (call : ProbeCall) : ProbeHistory where
  controller := (h.controller.step times call).1
  lastProbes :=
    match (h.controller.step times call).2 with
    | [] => h.lastProbes
    | probe :: _ => some probe.atTime

/-- `Process` probes at least a second after the last probes, and it goes on waiting for results only
when those were made a second ago at most. -/
def Paced (h : ProbeHistory) : ProbeCall → Prop
  | .process now =>
      ((h.controller.process times now).2 ≠ [] → ∀ last ∈ h.lastProbes,
        .micros kMaxWaitingTimeForProbingResult ≤ now.minus last) ∧
      ((h.controller.process times now).2 = [] →
        (h.controller.process times now).1.state = .waitingForProbingResult →
        ∃ last ∈ h.lastProbes, now.minus last ≤ .micros kMaxWaitingTimeForProbingResult)
  | _ => True

/-- The controller knows the time of the last probes, and waits only when there were some. -/
structure Timed (h : ProbeHistory) : Prop where
  sound : h.controller.Sound
  last : ∀ last ∈ h.lastProbes, h.controller.timeLastProbingInitiated = last
  waiting : h.controller.state = .waitingForProbingResult → h.lastProbes.isSome = true

variable {times} {h : ProbeHistory}

open ProbeController

/-- A call keeps the time. -/
theorem Timed.step (ht : h.Timed) (call : ProbeCall) : (h.step times call).Timed := by
  obtain ⟨now, ready, hready, hsettings | ⟨hnetwork, bitrates, further, hbitrates, hprobing⟩⟩ :
      ∃ now, Called times now h.controller (h.controller.step times call) :=
    step_cases ht.sound call
  · have hstep : h.step times call = ⟨ready, h.lastProbes⟩ := by
      unfold ProbeHistory.step
      rw [hsettings]
    rw [hstep]
    exact ⟨hready.sound ht.sound, fun last hlast => hready.time.trans (ht.last last hlast),
      fun hwaiting => ht.waiting (hready.waiting hwaiting)⟩
  · have hinit : Initiated times now ready _ _ := initiated ready hbitrates further
    rw [← hprobing] at hinit
    have hsound := hinit.sound (hready.sound ht.sound) hnetwork
    have hrates := hinit.rates
    rcases hinit.time with ⟨hnone, htime, hwaits⟩ | ⟨hsome, htime⟩
    · have hstep : h.step times call = ⟨(h.controller.step times call).1, h.lastProbes⟩ := by
        unfold ProbeHistory.step
        rw [hnone]
      rw [hstep]
      exact ⟨hsound, fun last hlast => htime.trans (hready.time.trans (ht.last last hlast)),
        fun hwaiting => ht.waiting (hready.waiting (hwaits hwaiting))⟩
    · obtain ⟨probe, rest, hprobes⟩ := List.exists_cons_of_ne_nil hsome
      have hstep : h.step times call = ⟨(h.controller.step times call).1, some now⟩ := by
        unfold ProbeHistory.step
        rw [hprobes, ← (hrates probe (hprobes ▸ List.mem_cons_self)).1]
      rw [hstep]
      refine ⟨hsound, fun last hlast => ?_, fun _ => rfl⟩
      rw [← Option.some.inj hlast]
      exact htime

/-! ## `Process` -/

theorem end_waiting_time (c : ProbeController) (now : Timestamp) :
    (c.endWaiting now).timeLastProbingInitiated = c.timeLastProbingInitiated ∧
      (c.endWaiting now).config = c.config := by
  unfold endWaiting
  split_ifs
  · exact ⟨rfl, rfl⟩
  · exact ⟨rfl, rfl⟩

/-- The intervals between probes are at least a second. -/
theorem intervals {c : ProbeController} (hs : c.Sound) :
    kMaxWaitingTimeForProbingResult ≤ c.config.alrProbingInterval ∧
      c.config.networkStateEstimateProbingInterval = none ∧
      c.config.estimateLowerThanNetworkStateEstimateProbingInterval = some 3000000 := by
  rcases hs.config with hdirect | hrelay
  · rw [hdirect]
    exact ⟨by decide, rfl, rfl⟩
  · rw [hrelay]
    exact ⟨by decide, rfl, rfl⟩

/-- When it is time to probe, the last probes are a second ago. -/
theorem elapsed_of_time {c : ProbeController} (hs : c.Sound) {now : Timestamp}
    (h : c.timeForNextRepeatedInitialProbe now = true ∨ c.timeForAlrProbe now = true ∨
      c.timeForNetworkStateProbe times now = true) :
    .micros kMaxWaitingTimeForProbingResult ≤ now.minus c.timeLastProbingInitiated := by
  obtain ⟨halr, hperiodic, hlow⟩ := intervals hs
  rcases h with hrepeated | htraffic | hnetwork
  · unfold timeForNextRepeatedInitialProbe at hrepeated
    simp only [Bool.and_eq_true, decide_eq_true_eq] at hrepeated
    exact Timestamp.le_minus_of_plus_le (le_refl _) hrepeated.2
  · unfold timeForAlrProbe at htraffic
    simp only [Bool.and_eq_true, Option.any_eq_true, decide_eq_true_eq] at htraffic
    obtain ⟨-, us, -, hdue⟩ := htraffic
    exact Timestamp.le_minus_of_plus_le halr
      ((Timestamp.plus_le_plus (le_max_right _ _) _).trans hdue)
  · unfold timeForNetworkStateProbe at hnetwork
    split at hnetwork
    · cases hnetwork
    · rw [hperiodic, hlow] at hnetwork
      split_ifs at hnetwork
      simp only [Option.any_none, Bool.and_false, Bool.if_false_right, Bool.and_eq_true,
        decide_eq_true_eq] at hnetwork
      exact Timestamp.le_minus_of_plus_le (by decide) hnetwork.2

/-- `Process` probes when it is time to. -/
theorem process_cases (times : ℤ → ℚ → ℤ) (c : ProbeController) (now : Timestamp) :
    c.process times now = (c.endWaiting now, []) ∨
      (c.endWaiting now).state = .probingComplete ∧
        ((c.endWaiting now).timeForNextRepeatedInitialProbe now = true ∨
          (c.endWaiting now).timeForAlrProbe now = true ∨
          (c.endWaiting now).timeForNetworkStateProbe times now = true) ∧
        ∃ bitrates, bitrates ≠ [] ∧
          c.process times now = (c.endWaiting now).initiateProbing times now bitrates true := by
  unfold process
  simp only
  split_ifs with hidle hrepeated hdue
  · exact Or.inl rfl
  · refine Or.inr ⟨?_, Or.inl hrepeated, _, List.cons_ne_nil _ _, rfl⟩
    by_contra hstate
    exact hidle (Or.inr hstate)
  · refine Or.inr ⟨?_, Or.inr ?_, _, List.cons_ne_nil _ _, rfl⟩
    · by_contra hstate
      exact hidle (Or.inr hstate)
    · exact Bool.or_eq_true_iff.mp hdue
  · exact Or.inl rfl

/-- A call keeps to the pace. -/
theorem paced_call (ht : h.Timed) (call : ProbeCall) : h.Paced times call := by
  cases call with
  | process now =>
      obtain ⟨htime, hconfig⟩ := end_waiting_time h.controller now
      have hready := prepared_end_waiting ht.sound now
      rcases process_cases times h.controller now with hidle |
        ⟨hcomplete, hdue, bitrates, hbitrates, hprobing⟩
      · refine ⟨fun hsome => absurd (by rw [hidle]) hsome, fun _ hwaiting => ?_⟩
        rw [hidle] at hwaiting
        obtain ⟨last, hlast⟩ := Option.isSome_iff_exists.mp (ht.waiting (hready.waiting hwaiting))
        refine ⟨last, hlast, ?_⟩
        by_contra hlate
        rw [← ht.last last hlast] at hlate
        have hends : (h.controller.endWaiting now).state = .probingComplete := by
          unfold endWaiting
          rw [if_pos ⟨not_le.mp hlate, hready.waiting hwaiting⟩]
          rfl
        rw [hends] at hwaiting
        cases hwaiting
      · refine ⟨fun _ last hlast => ?_, fun hnone hwaiting => ?_⟩
        · rw [← ht.last last hlast, ← htime]
          exact elapsed_of_time (hready.sound ht.sound) hdue
        · have hinit : Initiated times now (h.controller.endWaiting now) _ _ :=
            initiated _ hbitrates true
          rw [← hprobing] at hinit
          rcases hinit.time with ⟨-, -, hwaits⟩ | ⟨hsome, -⟩
          · rw [hwaits hwaiting] at hcomplete
            cases hcomplete
          · exact absurd hnone hsome
  | setBitrates | onMaxTotalAllocatedBitrate | onNetworkAvailability | setEstimatedBitrate
  | enablePeriodicAlrProbing | enableRepeatedInitialProbing | setRelayPath | setAlrStartTimeMs
  | setAlrEndedTimeMs | requestProbe | setNetworkStateEstimate => trivial

theorem timed_new : ({} : ProbeHistory).Timed where
  sound := sound_new
  last := fun last h => by cases h
  waiting := fun h => by cases h

/-- In every run of the probe controller, on a direct or a relayed path, `Process` makes probes only
when the last probes, whatever made them, are at least a second ago. And when `Process` makes none, it
goes on waiting for results only as long as those probes are not more than a second ago. -/
theorem process_paced (calls : List ProbeCall) :
    Run.Along (ProbeHistory.step times) (Paced times) {} calls :=
  Run.along_of_invariant (I := Timed) (fun _ call ht => ht.step call)
    (fun _ call ht => paced_call ht call) timed_new calls

end ProbeHistory

namespace ProbeController

variable {times : ℤ → ℚ → ℤ} {c : ProbeController}

/-! ## Probes at plus infinity -/

/-- The calls that end the waiting for the results of probes at plus infinity: the network is lost, or
an estimate exceeds the threshold. -/
def EndsWaiting (c : ProbeController) : ProbeCall → Prop
  | .onNetworkAvailability networkAvailable _ => networkAvailable = false
  | .setEstimatedBitrate bitrate _ _ => c.minBitrateToProbeFurther < bitrate
  | .process now => now = .plusInfinity
  | _ => False

instance decidableEndsWaiting (c : ProbeController) :
    (call : ProbeCall) → Decidable (c.EndsWaiting call)
  | .onNetworkAvailability _ _ => inferInstanceAs (Decidable (_ = false))
  | .setEstimatedBitrate .. => inferInstanceAs (Decidable (_ < _))
  | .process _ => inferInstanceAs (Decidable (_ = _))
  | .setBitrates .. => isFalse id
  | .onMaxTotalAllocatedBitrate .. => isFalse id
  | .enablePeriodicAlrProbing _ => isFalse id
  | .enableRepeatedInitialProbing _ => isFalse id
  | .setRelayPath _ => isFalse id
  | .setAlrStartTimeMs _ => isFalse id
  | .setAlrEndedTimeMs _ => isFalse id
  | .requestProbe _ => isFalse id
  | .setNetworkStateEstimate _ => isFalse id

/-- The results of probes at plus infinity are waited for. -/
structure Endless (c : ProbeController) : Prop where
  sound : c.Sound
  state : c.state = .waitingForProbingResult
  time : c.timeLastProbingInitiated = .plusInfinity

/-- A change of settings that keeps the state keeps the waiting. -/
theorem Endless.settings (he : c.Endless) {c' : ProbeController} (h : Prepared c c')
    (hstate : c'.state = .waitingForProbingResult) : c'.Endless :=
  ⟨h.sound he.sound, hstate, h.time.trans he.time⟩

/-- An estimate that does not exceed the threshold. -/
theorem Endless.estimate (he : c.Endless) {bitrate : ℤ} (cause : BandwidthLimitedCause)
    (now : Timestamp) (hlow : ¬ c.minBitrateToProbeFurther < bitrate) :
    ∃ c', c.setEstimatedBitrate times bitrate cause now = (c', []) ∧ c'.Endless := by
  have hrecord : Prepared c (c.recordEstimate times bitrate cause now) ∧
      (c.recordEstimate times bitrate cause now).state = c.state ∧
      (c.recordEstimate times bitrate cause now).minBitrateToProbeFurther =
        c.minBitrateToProbeFurther := by
    unfold recordEstimate
    simp only
    split_ifs
    · exact ⟨Prepared.of_settings rfl rfl rfl rfl rfl rfl, rfl, rfl⟩
    · exact ⟨Prepared.of_settings rfl rfl rfl rfl rfl rfl, rfl, rfl⟩
  obtain ⟨hready, hstate, hmin⟩ := hrecord
  unfold setEstimatedBitrate
  set recorded := c.recordEstimate times bitrate cause now
  have hkept : recorded.Endless := he.settings hready (hstate.trans he.state)
  -- In neither configuration the waiting is aborted.
  have habort : recorded.abortsFurtherProbe bitrate = false := by
    unfold abortsFurtherProbe
    rcases hkept.sound.config with hdirect | hrelay
    · rw [hdirect]
      rfl
    · rw [hrelay]
      rfl
  refine ⟨recorded, ?_, hkept⟩
  simp only
  rw [if_pos hkept.state, habort, if_neg Bool.false_ne_true, if_neg]
  rintro ⟨hqualified, -⟩
  rw [hmin] at hqualified
  exact hlow hqualified

/-- Other calls neither end the waiting nor make probes. -/
theorem Endless.step (times : ℤ → ℚ → ℤ) (he : c.Endless) {call : ProbeCall} (hcall : ¬ c.EndsWaiting call) :
    ∃ c', c.step times call = (c', []) ∧ c'.Endless := by
  have hsettings : ∀ {c' : ProbeController}, Prepared c c' →
      c'.state = .waitingForProbingResult → ∃ after, (c', ([] : List ProbeClusterConfig)) =
        (after, []) ∧ after.Endless := fun h hstate => ⟨_, rfl, he.settings h hstate⟩
  cases call with
  | setBitrates minBitrate startBitrate maxBitrate atTime =>
      have hstart : Prepared c (c.setStartBitrate minBitrate startBitrate) ∧
          (c.setStartBitrate minBitrate startBitrate).state = .waitingForProbingResult := by
        unfold setStartBitrate
        split_ifs
        · exact ⟨Prepared.of_settings rfl rfl rfl rfl rfl rfl, he.state⟩
        · exact ⟨Prepared.of_settings rfl rfl rfl rfl rfl rfl, he.state⟩
        · exact ⟨Prepared.refl c, he.state⟩
      obtain ⟨hready, hstate⟩ := hstart
      show ∃ c', c.setBitrates times minBitrate startBitrate maxBitrate atTime = (c', []) ∧ _
      unfold setBitrates
      simp only
      -- Waiting for results, the controller only stores the limits.
      split
      · rename_i hinit
        rw [hstate] at hinit
        cases hinit
      · exact hsettings ⟨fun hs => ⟨(hready.sound hs).unavailable, (hready.sound hs).waiting,
          (hready.sound hs).config⟩, hready.next, hready.time, hready.waiting⟩ hstate
      · rename_i hcomplete
        rw [hstate] at hcomplete
        cases hcomplete
  | onMaxTotalAllocatedBitrate maxTotalAllocatedBitrate atTime =>
      show ∃ c', c.onMaxTotalAllocatedBitrate times maxTotalAllocatedBitrate atTime =
        (c', []) ∧ _
      unfold onMaxTotalAllocatedBitrate
      rw [if_neg]
      · exact hsettings (Prepared.of_settings rfl rfl rfl rfl rfl rfl) he.state
      · rintro ⟨-, hcomplete, -⟩
        rw [he.state] at hcomplete
        cases hcomplete
  | onNetworkAvailability networkAvailable atTime =>
      cases networkAvailable with
      | false => exact absurd rfl hcall
      | true =>
          show ∃ c', c.onNetworkAvailability times true atTime = (c', []) ∧ _
          unfold onNetworkAvailability
          simp only [Bool.not_true, Bool.false_eq_true, if_false]
          rw [if_neg]
          · exact hsettings ⟨fun hs => ⟨fun h => (by cases h), hs.waiting, hs.config⟩, rfl, rfl,
              id⟩ he.state
          · simp only [he.state, reduceCtorEq, decide_false, Bool.and_false, Bool.false_and,
              Bool.false_eq_true, not_false_eq_true]
  | setEstimatedBitrate bitrate cause atTime => exact he.estimate cause atTime hcall
  | requestProbe atTime =>
      show ∃ c', c.requestProbe times atTime = (c', []) ∧ _
      unfold requestProbe
      simp only
      rw [if_neg]
      · exact hsettings (Prepared.refl c) he.state
      · rintro ⟨-, hcomplete, -⟩
        rw [he.state] at hcomplete
        cases hcomplete
  | process now =>
      -- The probes were initiated at plus infinity, which no clock gets past.
      have hgoes : c.endWaiting now = c := by
        unfold endWaiting
        rw [if_neg]
        rintro ⟨hlate, -⟩
        rw [he.time] at hlate
        cases now with
        | plusInfinity => exact hcall rfl
        | micros us => exact absurd hlate (not_lt.mpr (Timestamp.minus_infinity_le _))
        | minusInfinity => exact absurd hlate (not_lt.mpr (Timestamp.minus_infinity_le _))
      rcases ProbeHistory.process_cases times c now with hidle | ⟨hcomplete, -⟩
      · rw [hgoes] at hidle
        exact ⟨c, hidle, he⟩
      · rw [hgoes, he.state] at hcomplete
        cases hcomplete
  | setRelayPath relayPath =>
      show ∃ c', (c.setRelayPath relayPath, []) = (c', []) ∧ _
      unfold setRelayPath
      split_ifs
      · exact hsettings (Prepared.refl c) he.state
      · exact hsettings ⟨fun hs => ⟨hs.unavailable, hs.waiting, Or.inr rfl⟩, rfl, rfl, id⟩ he.state
      · exact hsettings ⟨fun hs => ⟨hs.unavailable, hs.waiting, Or.inl rfl⟩, rfl, rfl, id⟩ he.state
  | enablePeriodicAlrProbing | enableRepeatedInitialProbing | setAlrStartTimeMs
  | setAlrEndedTimeMs | setNetworkStateEstimate =>
      exact hsettings (Prepared.of_settings rfl rfl rfl rfl rfl rfl) he.state

/-- While nothing ends the waiting, no probes are made. -/
theorem endless_run (he : c.Endless) (calls : List ProbeCall)
    (hcalls : Run.Along (fun c call => (c.step times call).1) (fun c call => ¬ c.EndsWaiting call)
      c calls) :
    (Machine.run (step times) c calls).1.Endless ∧ (Machine.run (step times) c calls).2 = [] := by
  induction calls generalizing c with
  | nil => exact ⟨he, rfl⟩
  | cons call rest ih =>
      obtain ⟨hcall, hrest⟩ := hcalls
      obtain ⟨c', hstep, he'⟩ := he.step times hcall
      have hnext : (c.step times call).1 = c' := by rw [hstep]
      change Run.Along _ _ (c.step times call).1 rest at hrest
      rw [hnext] at hrest
      obtain ⟨hend, hnone⟩ := ih he' hrest
      rw [Machine.run_cons, hstep]
      exact ⟨hend, by rw [hnone, List.append_nil]⟩

/-- The initial probes of `SetBitrates` with the time plus infinity leave the controller waiting. -/
theorem endless_of_initial (hs : c.Sound) {minBitrate startBitrate maxBitrate : ℤ}
    (hinit : c.state = .init)
    (hwaits : (c.setBitrates times minBitrate startBitrate maxBitrate .plusInfinity).1.state =
      .waitingForProbingResult) :
    (c.setBitrates times minBitrate startBitrate maxBitrate .plusInfinity).1.Endless := by
  have hcalled : Called times .plusInfinity c
      (c.setBitrates times minBitrate startBitrate maxBitrate .plusInfinity) :=
    called_set_bitrates hs minBitrate startBitrate maxBitrate .plusInfinity
  obtain ⟨ready, hready, hsettings | ⟨hnetwork, bitrates, further, hbitrates, hprobing⟩⟩ := hcalled
  · rw [hsettings] at hwaits
    rw [hready.waiting hwaits] at hinit
    cases hinit
  · have hprobes : Initiated times .plusInfinity ready _ _ := initiated ready hbitrates further
    rw [← hprobing] at hprobes
    refine ⟨hprobes.sound (hready.sound hs) hnetwork, hwaits, ?_⟩
    rcases hprobes.time with ⟨-, -, hkeeps⟩ | ⟨-, htime⟩
    · rw [hready.waiting (hkeeps hwaits)] at hinit
      cases hinit
    · exact htime

/-- Probes that `SetBitrates` initiates with the time plus infinity, after any calls. If their results
are waited for at all, then they are waited for, and no more probes are made, until the network is
lost or an estimate exceeds the threshold, however often `Process` is called at later times. -/
theorem initial_probes_outlast {before calls : List ProbeCall}
    {minBitrate startBitrate maxBitrate : ℤ}
    (hinit : (Machine.run (step times) {} before).1.state = .init)
    (hwaits : ((Machine.run (step times) {} before).1.setBitrates times minBitrate startBitrate
      maxBitrate .plusInfinity).1.state = .waitingForProbingResult)
    (hcalls : Run.Along (fun c call => (c.step times call).1) (fun c call => ¬ c.EndsWaiting call)
      ((Machine.run (step times) {} before).1.setBitrates times minBitrate startBitrate
        maxBitrate .plusInfinity).1 calls) :
    let run := Machine.run (step times) ((Machine.run (step times) {} before).1.setBitrates times
      minBitrate startBitrate maxBitrate .plusInfinity).1 calls
    run.1.state = .waitingForProbingResult ∧ run.2 = [] := by
  have hs : (Machine.run (step times) {} before).1.Sound := (numbered_run sound_new before).1
  obtain ⟨hend, hnone⟩ := endless_run (endless_of_initial hs hinit hwaits) calls hcalls
  exact ⟨hend.state, hnone⟩

/-- The products of the tests, rounded down. -/
def scaled (rate : ℤ) (scale : ℚ) : ℤ :=
  rate * scale.num / scale.den

/-- A controller whose network becomes available at 5 µs and whose first probes are at plus infinity:
an hour later it still waits for the results. -/
theorem waits_for_an_hour :
    let ready := (Machine.run (step scaled) {} [.onNetworkAvailability true (.micros 5)]).1
    let run := Machine.run (step scaled)
      (ready.setBitrates scaled 300000 1000000 20000000 .plusInfinity).1
      [.process (.micros 60000000), .setEstimatedBitrate 4000000 .delayBasedLimited
        (.micros 61000000), .process (.micros 3600000000)]
    run.1.state = .waitingForProbingResult ∧ run.2 = [] :=
  initial_probes_outlast (by decide +kernel) (by decide +kernel) (by decide +kernel)

end ProbeController

end MiniRtc
