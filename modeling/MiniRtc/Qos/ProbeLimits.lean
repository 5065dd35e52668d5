import MiniRtc.Foundation.Refinement
import MiniRtc.Qos.ProbeController

/-!
# The limits of probing

Whatever calls the probe controller gets, it probes only while the network is available and the
estimate is not held back, and no probe goes above the configured bitrates. The clusters are numbered
one after the other. `step_cases` is the one analysis of the calls: a call may change the settings, and
then it may initiate probing.
-/

namespace MiniRtc.ProbeController

variable {times : ℤ → ℚ → ℤ} {c c' : ProbeController} {now : Timestamp}
  {probes : List ProbeClusterConfig}

/-! ## Numbers -/

/-- Numbers one after the other. -/
def numbers (first : ℤ) (count : ℕ) : List ℤ :=
  (List.range count).map fun i : ℕ => first + i

theorem numbers_succ (first : ℤ) (count : ℕ) :
    numbers first (count + 1) = first :: numbers (first + 1) count := by
  unfold numbers
  rw [List.range_succ_eq_map, List.map_cons, List.map_map, Nat.cast_zero, add_zero]
  refine congrArg _ (List.map_congr_left fun i _ => ?_)
  show first + ((i + 1 : ℕ) : ℤ) = first + 1 + (i : ℤ)
  omega

theorem numbers_append (first : ℤ) (count more : ℕ) :
    numbers first count ++ numbers (first + count) more = numbers first (count + more) := by
  induction count generalizing first with
  | zero =>
      rw [Nat.cast_zero, add_zero, Nat.zero_add]
      rfl
  | succ count ih =>
      have hstart : first + ((count + 1 : ℕ) : ℤ) = first + 1 + count := by omega
      rw [Nat.succ_add, numbers_succ, numbers_succ, List.cons_append, hstart, ih]

/-! ## Initiating probes -/

/-- What the creation of clusters does: it only counts them. -/
theorem create_probes (now : Timestamp) (limit : ℤ) (c : ProbeController) (bitrates : List ℤ) :
    (createProbes now limit c bitrates).1 =
        { c with nextProbeClusterId := c.nextProbeClusterId + bitrates.length } ∧
      (createProbes now limit c bitrates).2.map (fun probe => probe.id) =
        numbers c.nextProbeClusterId bitrates.length ∧
      ∀ probe ∈ (createProbes now limit c bitrates).2,
        probe.atTime = now ∧ probe.targetDataRate ≤ limit := by
  induction bitrates generalizing c with
  | nil =>
      refine ⟨?_, rfl, fun probe h => by cases h⟩
      show c = { c with nextProbeClusterId := c.nextProbeClusterId + ((0 : ℕ) : ℤ) }
      rw [Nat.cast_zero, add_zero]
  | cons bitrate rest ih =>
      obtain ⟨hend, hids, hall⟩ :=
        ih { c with nextProbeClusterId := c.nextProbeClusterId + 1 }
      refine ⟨?_, ?_, ?_⟩
      · refine hend.trans ?_
        rw [List.length_cons, Nat.cast_succ, add_assoc, add_comm 1 (rest.length : ℤ)]
      · show c.nextProbeClusterId :: _ = _
        rw [hids, List.length_cons, numbers_succ]
      · intro probe hprobe
        rcases List.mem_cons.mp hprobe with rfl | hrest
        · refine ⟨rfl, ?_⟩
          show (if limit ≤ bitrate then limit else bitrate) ≤ limit
          split_ifs with hcut
          · exact le_refl _
          · exact le_of_not_ge hcut
        · exact hall probe hrest

/-- The parts of the state that are only right together. -/
structure Sound (c : ProbeController) : Prop where
  unavailable : c.networkAvailable = false → c.state = .init
  waiting : c.minBitrateToProbeFurther ≠ DataRate.plusInfinity →
    c.state = .waitingForProbingResult
  config : c.config = {} ∨ c.config = relayConfig

/-- What `InitiateProbing` does with a controller. -/
structure Initiated (times : ℤ → ℚ → ℤ) (now : Timestamp) (c c' : ProbeController)
    (probes : List ProbeClusterConfig) : Prop where
  kept : c' = { c with
    state := c'.state
    minBitrateToProbeFurther := c'.minBitrateToProbeFurther
    timeLastProbingInitiated := c'.timeLastProbingInitiated
    nextProbeClusterId := c.nextProbeClusterId + probes.length }
  sound : c.Sound → c.networkAvailable = true → c'.Sound
  ids : probes.map (fun probe => probe.id) = numbers c.nextProbeClusterId probes.length
  rates : ∀ probe ∈ probes, probe.atTime = now ∧
    ∃ limit, c.maxProbeBitrate times = some limit ∧ probe.targetDataRate ≤ limit
  time : probes = [] ∧ c'.timeLastProbingInitiated = c.timeLastProbingInitiated ∧
      (c'.state = .waitingForProbingResult → c.state = .waitingForProbingResult) ∨
    probes ≠ [] ∧ c'.timeLastProbingInitiated = now

theorem sound_complete (hs : c.Sound) (havailable : c.networkAvailable = true) :
    (c.updateState .probingComplete).Sound where
  unavailable := fun h => absurd (havailable.symm.trans h) (by decide)
  waiting := fun h => absurd rfl h
  config := hs.config

/-- `InitiateProbing`, of at least one rate. -/
theorem initiated (c : ProbeController) {bitrates : List ℤ} (hbitrates : bitrates ≠ [])
    (further : Bool) :
    Initiated times now c (c.initiateProbing times now bitrates further).1
      (c.initiateProbing times now bitrates further).2 := by
  have hnone : ∀ c' : ProbeController, c' = { c with
      state := c'.state
      minBitrateToProbeFurther := c'.minBitrateToProbeFurther
      timeLastProbingInitiated := c'.timeLastProbingInitiated } → c' = { c with
      state := c'.state
      minBitrateToProbeFurther := c'.minBitrateToProbeFurther
      timeLastProbingInitiated := c'.timeLastProbingInitiated
      nextProbeClusterId := c.nextProbeClusterId + (([] : List ProbeClusterConfig).length : ℤ) } := by
    intro c' h
    rw [List.length_nil, Nat.cast_zero, add_zero]
    exact h
  unfold initiateProbing
  split_ifs with hskip
  · exact ⟨hnone _ rfl, sound_complete, rfl, fun probe h => (by cases h),
      Or.inl ⟨rfl, rfl, fun h => by cases h⟩⟩
  · split
    · exact ⟨hnone _ rfl, fun hs _ => hs, rfl, fun probe h => (by cases h),
        Or.inl ⟨rfl, rfl, fun h => h⟩⟩
    · rename_i limit hlimit
      obtain ⟨hend, hids, hall⟩ := create_probes now limit c bitrates
      have hlength : (createProbes now limit c bitrates).2.length = bitrates.length := by
        have hlengths := congrArg List.length hids
        unfold numbers at hlengths
        rwa [List.length_map, List.length_map, List.length_range] at hlengths
      have hsome : (createProbes now limit c bitrates).2 ≠ [] := by
        intro hempty
        rw [hempty, List.length_nil] at hlength
        exact hbitrates (List.length_eq_zero_iff.mp hlength.symm)
      simp only
      rw [hend]
      -- The results are waited for only if there is more to probe.
      split_ifs with hfurther
      · refine ⟨?_, fun hs havailable => ⟨fun h => absurd (havailable.symm.trans h) (by decide),
          fun _ => rfl, hs.config⟩, ?_, fun probe hprobe => ⟨(hall probe hprobe).1, limit, hlimit,
          (hall probe hprobe).2⟩, Or.inr ⟨hsome, rfl⟩⟩
        · rw [hlength]
          rfl
        · rw [hlength]
          exact hids
      · refine ⟨?_, fun hs havailable => ⟨fun h => absurd (havailable.symm.trans h) (by decide),
          fun h => absurd rfl h, hs.config⟩, ?_, fun probe hprobe => ⟨(hall probe hprobe).1, limit,
          hlimit, (hall probe hprobe).2⟩, Or.inr ⟨hsome, rfl⟩⟩
        · rw [hlength]
          rfl
        · rw [hlength]
          exact hids

/-! ## Calls -/

/-- A change of the settings, before probes may be initiated. -/
structure Prepared (c c' : ProbeController) : Prop where
  sound : c.Sound → c'.Sound
  next : c'.nextProbeClusterId = c.nextProbeClusterId
  time : c'.timeLastProbingInitiated = c.timeLastProbingInitiated
  waiting : c'.state = .waitingForProbingResult → c.state = .waitingForProbingResult

theorem Prepared.refl (c : ProbeController) : Prepared c c :=
  ⟨id, rfl, rfl, id⟩

/-- A change of settings that the state does not depend on. -/
theorem Prepared.of_settings (hnetwork : c'.networkAvailable = c.networkAvailable)
    (hstate : c'.state = c.state)
    (hfurther : c'.minBitrateToProbeFurther = c.minBitrateToProbeFurther)
    (hconfig : c'.config = c.config) (hnext : c'.nextProbeClusterId = c.nextProbeClusterId)
    (htime : c'.timeLastProbingInitiated = c.timeLastProbingInitiated) : Prepared c c' where
  sound := fun hs =>
    { unavailable := by
        rw [hnetwork, hstate]
        exact hs.unavailable
      waiting := by
        rw [hfurther, hstate]
        exact hs.waiting
      config := by
        rw [hconfig]
        exact hs.config }
  next := hnext
  time := htime
  waiting := fun h => hstate ▸ h

/-- Once probing has started, the network is available. -/
theorem Sound.available (hs : c.Sound) (h : c.state ≠ .init) : c.networkAvailable = true := by
  by_contra hnetwork
  exact h (hs.unavailable (by simpa using hnetwork))

/-- A call changes the settings, and then it may initiate probing with the network available. -/
def Called (times : ℤ → ℚ → ℤ) (now : Timestamp) (c : ProbeController)
    (result : ProbeController × List ProbeClusterConfig) : Prop :=
  ∃ ready, Prepared c ready ∧
    (result = (ready, []) ∨
      ready.networkAvailable = true ∧ ∃ bitrates further, bitrates ≠ [] ∧
        result = ready.initiateProbing times now bitrates further)

theorem Called.of_settings (h : Prepared c c') : Called times now c (c', []) :=
  ⟨c', h, Or.inl rfl⟩

theorem Called.of_probing (h : Prepared c c') (hnetwork : c'.networkAvailable = true)
    {bitrates : List ℤ} (hbitrates : bitrates ≠ []) (further : Bool) :
    Called times now c (c'.initiateProbing times now bitrates further) :=
  ⟨c', h, Or.inr ⟨hnetwork, bitrates, further, hbitrates, rfl⟩⟩

/-- `InitiateExponentialProbing`, after a change of settings. -/
theorem Called.of_exponential (h : Prepared c c') (hnetwork : c'.networkAvailable = true)
    (now : Timestamp) : Called times now c (c'.initiateExponentialProbing times now) := by
  have hprobes : ∀ a b : ℤ, (if 0 < c'.config.secondExponentialProbeScale then [a, b] else [a])
      ≠ [] := by
    intro a b
    split_ifs <;> exact List.cons_ne_nil _ _
  set raised : ProbeController :=
    if c'.repeatedInitialProbingEnabled && decide (c'.maxTotalAllocatedBitrate = 0) then
      { c' with
        lastAllowedRepeatedInitialProbe :=
          now.plus c'.config.repeatedInitialProbingTimePeriod }
    else c' with hraised
  have hready : Prepared c raised ∧ raised.networkAvailable = true := by
    rw [hraised]
    split_ifs
    · exact ⟨⟨fun hs => ⟨(h.sound hs).unavailable, (h.sound hs).waiting, (h.sound hs).config⟩,
        h.next, h.time, h.waiting⟩, hnetwork⟩
    · exact ⟨h, hnetwork⟩
  exact Called.of_probing hready.1 hready.2 (hprobes _ _) true

theorem called_set_bitrates (hs : c.Sound) (minBitrate startBitrate maxBitrate : ℤ)
    (now : Timestamp) :
    Called times now c (c.setBitrates times minBitrate startBitrate maxBitrate now) := by
  have hstart : Prepared c (c.setStartBitrate minBitrate startBitrate) := by
    unfold setStartBitrate
    split_ifs
    · exact Prepared.of_settings rfl rfl rfl rfl rfl rfl
    · exact Prepared.of_settings rfl rfl rfl rfl rfl rfl
    · exact Prepared.refl c
  unfold setBitrates
  simp only
  set ready : ProbeController := { c.setStartBitrate minBitrate startBitrate with
    maxBitrate := if DataRate.Finite maxBitrate then maxBitrate else kDefaultMaxProbingBitrate }
  have hready : Prepared c ready :=
    ⟨fun hs => ⟨(hstart.sound hs).unavailable, (hstart.sound hs).waiting,
      (hstart.sound hs).config⟩, hstart.next, hstart.time, hstart.waiting⟩
  split
  · by_cases hnetwork : ready.networkAvailable = true
    · rw [if_pos hnetwork]
      exact Called.of_exponential hready hnetwork now
    · rw [if_neg hnetwork]
      exact Called.of_settings hready
  · exact Called.of_settings hready
  · rename_i hcomplete
    have hnetwork : ready.networkAvailable = true :=
      (hready.sound hs).available (by rw [hcomplete]; decide)
    by_cases hraised : ready.estimatedBitrate ≠ 0 ∧
        (c.setStartBitrate minBitrate startBitrate).maxBitrate < ready.maxBitrate ∧
        ready.estimatedBitrate < ready.maxBitrate
    · rw [if_pos hraised]
      exact Called.of_probing hready hnetwork (List.cons_ne_nil _ _) false
    · rw [if_neg hraised]
      exact Called.of_settings hready

theorem called_max_total (hs : c.Sound) (maxTotalAllocatedBitrate : ℤ) (now : Timestamp) :
    Called times now c (c.onMaxTotalAllocatedBitrate times maxTotalAllocatedBitrate now) := by
  unfold onMaxTotalAllocatedBitrate
  split_ifs with hprobe
  · obtain ⟨-, hcomplete, -⟩ := hprobe
    have hready : Prepared c { c with maxTotalAllocatedBitrate } :=
      Prepared.of_settings rfl rfl rfl rfl rfl rfl
    simp only
    split_ifs
    · exact Called.of_settings hready
    · refine Called.of_probing hready ?_ ?_ _
      · exact hs.available (by rw [hcomplete]; decide)
      · unfold allocationProbes
        simp only
        split_ifs <;> exact List.cons_ne_nil _ _
  · exact Called.of_settings (Prepared.of_settings rfl rfl rfl rfl rfl rfl)
  · exact Called.of_settings (Prepared.of_settings rfl rfl rfl rfl rfl rfl)

theorem called_network (networkAvailable : Bool) (now : Timestamp) :
    Called times now c (c.onNetworkAvailability times networkAvailable now) := by
  unfold onNetworkAvailability
  cases networkAvailable with
  | false =>
      refine Called.of_settings ⟨fun hs => ⟨fun _ => rfl, fun h => absurd rfl h, hs.config⟩, rfl,
        rfl, fun h => by cases h⟩
  | true =>
      have hready : Prepared c { c with networkAvailable := true } :=
        ⟨fun hs => ⟨fun h => (by cases h), hs.waiting, hs.config⟩, rfl, rfl, id⟩
      simp only [Bool.not_true, Bool.false_eq_true, if_false]
      split_ifs
      · exact Called.of_exponential hready rfl now
      · exact Called.of_settings hready

theorem called_estimate (hs : c.Sound) (bitrate : ℤ) (cause : BandwidthLimitedCause)
    (now : Timestamp) : Called times now c (c.setEstimatedBitrate times bitrate cause now) := by
  have hrecord : Prepared c (c.recordEstimate times bitrate cause now) := by
    unfold recordEstimate
    simp only
    split_ifs
    · exact Prepared.of_settings rfl rfl rfl rfl rfl rfl
    · exact Prepared.of_settings rfl rfl rfl rfl rfl rfl
  unfold setEstimatedBitrate
  set recorded := c.recordEstimate times bitrate cause now
  have haborted : Prepared c { recorded with
      minBitrateToProbeFurther := DataRate.plusInfinity } :=
    ⟨fun hs => ⟨(hrecord.sound hs).unavailable, fun h => absurd rfl h,
      (hrecord.sound hs).config⟩, hrecord.next, hrecord.time, hrecord.waiting⟩
  simp only
  split_ifs with hwaiting habort hqualified hqualified
  · refine Called.of_probing haborted ?_ (List.cons_ne_nil _ _) true
    exact (hrecord.sound hs).available (by rw [hwaiting]; decide)
  · exact Called.of_settings haborted
  · refine Called.of_probing hrecord ?_ (List.cons_ne_nil _ _) true
    exact (hrecord.sound hs).available (by rw [hwaiting]; decide)
  · exact Called.of_settings hrecord
  · exact Called.of_settings hrecord

theorem called_request (hs : c.Sound) (now : Timestamp) :
    Called times now c (c.requestProbe times now) := by
  unfold requestProbe
  simp only
  split_ifs with hprobe
  · obtain ⟨-, hcomplete, -⟩ := hprobe
    have hready : Prepared c { c with lastBweDropProbingTime := now } :=
      Prepared.of_settings rfl rfl rfl rfl rfl rfl
    refine Called.of_probing hready ?_ (List.cons_ne_nil _ _) false
    exact hs.available (by rw [hcomplete]; decide)
  · exact Called.of_settings (Prepared.refl c)

theorem prepared_end_waiting (hs : c.Sound) (now : Timestamp) : Prepared c (c.endWaiting now) := by
  unfold endWaiting
  split_ifs with hend
  · obtain ⟨-, hwaiting⟩ := hend
    exact ⟨fun _ => sound_complete hs (hs.available (by rw [hwaiting]; decide)), rfl, rfl,
      fun h => by cases h⟩
  · exact Prepared.refl c

theorem called_process (hs : c.Sound) (now : Timestamp) :
    Called times now c (c.process times now) := by
  have hready := prepared_end_waiting hs now
  unfold process
  simp only
  split_ifs with hidle
  · exact Called.of_settings hready
  · refine Called.of_probing hready ?_ (List.cons_ne_nil _ _) true
    exact (hready.sound hs).available fun h => hidle (Or.inr (by rw [h]; decide))
  · refine Called.of_probing hready ?_ (List.cons_ne_nil _ _) true
    exact (hready.sound hs).available fun h => hidle (Or.inr (by rw [h]; decide))
  · exact Called.of_settings hready

/-- Every call changes the settings, and may then initiate probing. -/
theorem step_cases (hs : c.Sound) (call : ProbeCall) :
    ∃ now, Called times now c (c.step times call) := by
  cases call with
  | setBitrates minBitrate startBitrate maxBitrate atTime =>
      exact ⟨atTime, called_set_bitrates hs minBitrate startBitrate maxBitrate atTime⟩
  | onMaxTotalAllocatedBitrate maxTotalAllocatedBitrate atTime =>
      exact ⟨atTime, called_max_total hs maxTotalAllocatedBitrate atTime⟩
  | onNetworkAvailability networkAvailable atTime =>
      exact ⟨atTime, called_network networkAvailable atTime⟩
  | setEstimatedBitrate bitrate cause atTime =>
      exact ⟨atTime, called_estimate hs bitrate cause atTime⟩
  | requestProbe atTime => exact ⟨atTime, called_request hs atTime⟩
  | process atTime => exact ⟨atTime, called_process hs atTime⟩
  | setRelayPath relayPath =>
      refine ⟨.micros 0, Called.of_settings ?_⟩
      unfold setRelayPath
      split_ifs
      · exact Prepared.refl c
      · exact ⟨fun hs => ⟨hs.unavailable, hs.waiting, Or.inr rfl⟩, rfl, rfl, id⟩
      · exact ⟨fun hs => ⟨hs.unavailable, hs.waiting, Or.inl rfl⟩, rfl, rfl, id⟩
  | enablePeriodicAlrProbing | enableRepeatedInitialProbing | setAlrStartTimeMs
  | setAlrEndedTimeMs | setNetworkStateEstimate =>
      exact ⟨.micros 0, Called.of_settings (Prepared.of_settings rfl rfl rfl rfl rfl rfl)⟩

/-! ## Limits -/

/-- A probe keeps to the limits of the controller that has made it. -/
structure Within (times : ℤ → ℚ → ℤ) (c : ProbeController) (probe : ProbeClusterConfig) :
    Prop where
  available : c.networkAvailable = true
  cause : c.bandwidthLimitedCause = .delayBasedLimited ∨
    c.bandwidthLimitedCause = .lossLimitedBweIncreasing
  rate : probe.targetDataRate ≤ c.maxBitrate
  allocated : 0 < c.maxTotalAllocatedBitrate →
    probe.targetDataRate ≤ c.maxTotalAllocatedBitrate * 2
  loss : c.bandwidthLimitedCause = .lossLimitedBweIncreasing →
    probe.targetDataRate ≤ times c.estimatedBitrate c.config.lossLimitedProbeScale

theorem limit_by_network_le {limit most : ℤ} (h : c.limitByNetwork times limit = some most) :
    most ≤ limit := by
  unfold limitByNetwork at h
  split at h
  · exact le_of_eq (Option.some.inj h).symm
  · split_ifs at h
    rw [← Option.some.inj h]
    exact min_le_left _ _

/-- What is below the configured limit is below what is configured. -/
theorem configured_limit_le {rate : ℤ} (h : rate ≤ c.configuredLimit) :
    rate ≤ c.maxBitrate ∧
      (0 < c.maxTotalAllocatedBitrate → rate ≤ c.maxTotalAllocatedBitrate * 2) := by
  unfold configuredLimit at h
  split_ifs at h with hallocated
  · exact ⟨h.trans (min_le_left _ _), fun _ => h.trans (min_le_right _ _)⟩
  · exact ⟨h, fun hpos => absurd hpos hallocated⟩

/-- A probe below the greatest rate keeps to the limits. -/
theorem within_of_limit (hnetwork : c.networkAvailable = true) {most : ℤ}
    (hmost : c.maxProbeBitrate times = some most) {probe : ProbeClusterConfig}
    (hrate : probe.targetDataRate ≤ most) : c.Within times probe := by
  unfold maxProbeBitrate at hmost
  cases hcause : c.bandwidthLimitedCause with
  | rttBasedBackOffHighRtt | delayBasedLimitedDelayIncreased | lossLimitedBwe =>
      rw [hcause] at hmost
      cases hmost
  | delayBasedLimited =>
      rw [hcause] at hmost
      obtain ⟨hmax, htotal⟩ := configured_limit_le (hrate.trans (limit_by_network_le hmost))
      refine ⟨hnetwork, Or.inl hcause, hmax, htotal, fun h => ?_⟩
      rw [hcause] at h
      cases h
  | lossLimitedBweIncreasing =>
      rw [hcause] at hmost
      have hall := hrate.trans (limit_by_network_le hmost)
      obtain ⟨hmax, htotal⟩ := configured_limit_le (hall.trans (min_le_left _ _))
      exact ⟨hnetwork, Or.inr hcause, hmax, htotal, fun _ => hall.trans (min_le_right _ _)⟩

/-- What a call keeps, and what its probes are. -/
theorem step_spec (hs : c.Sound) (call : ProbeCall) :
    (c.step times call).1.Sound ∧
      (c.step times call).1.nextProbeClusterId =
        c.nextProbeClusterId + (c.step times call).2.length ∧
      (c.step times call).2.map (fun probe => probe.id) =
        numbers c.nextProbeClusterId (c.step times call).2.length ∧
      ∀ probe ∈ (c.step times call).2, (c.step times call).1.Within times probe := by
  obtain ⟨now, ready, hready, hsettings | ⟨hnetwork, bitrates, further, hbitrates, hprobing⟩⟩ :=
    step_cases hs call
  · rw [hsettings]
    refine ⟨hready.sound hs, ?_, rfl, fun probe h => by cases h⟩
    rw [List.length_nil, Nat.cast_zero, add_zero]
    exact hready.next
  · rw [hprobing]
    have hinit : Initiated times now ready _ _ := initiated ready hbitrates further
    have hkept := hinit.kept
    set probing := ready.initiateProbing times now bitrates further
    have hsame : probing.1.networkAvailable = true ∧
        probing.1.maxProbeBitrate times = ready.maxProbeBitrate times := by
      rw [hkept]
      exact ⟨hnetwork, rfl⟩
    refine ⟨hinit.sound (hready.sound hs) hnetwork, ?_, ?_, fun probe hprobe => ?_⟩
    · rw [hkept, ← hready.next]
    · rw [← hready.next]
      exact hinit.ids
    · obtain ⟨-, most, hmost, hrate⟩ := hinit.rates probe hprobe
      exact within_of_limit hsame.1 (hsame.2.trans hmost) hrate

/-- A new controller is sound. -/
theorem sound_new : ({} : ProbeController).Sound where
  unavailable := fun _ => rfl
  waiting := fun h => absurd rfl h
  config := Or.inl rfl

/-- The clusters of a run are numbered one after the other. -/
theorem numbered_run (hs : c.Sound) (calls : List ProbeCall) :
    (Machine.run (step times) c calls).1.Sound ∧
      (Machine.run (step times) c calls).2.map (fun probe => probe.id) =
        numbers c.nextProbeClusterId (Machine.run (step times) c calls).2.length := by
  induction calls generalizing c with
  | nil => exact ⟨hs, rfl⟩
  | cons call rest ih =>
      obtain ⟨hsound, hnext, hids, -⟩ := step_spec hs call
      obtain ⟨hlast, hrest⟩ := ih hsound
      rw [Machine.run_cons]
      refine ⟨hlast, ?_⟩
      rw [List.map_append, hids, hrest, hnext, numbers_append, List.length_append]

/-- In every run of the probe controller, a probe is only made while the network is available and the
estimate is not held back by delay, by losses or by a high round-trip time. Its rate is at most the
greatest bitrate, at most twice what is allocated, and it is limited by the estimate when that
recovers from losses. The clusters have the numbers 1, 2, 3 and so on. -/
theorem probes_within_limits (calls : List ProbeCall) :
    Run.Along (fun c call => (step times c call).1)
        (fun c call => ∀ probe ∈ (step times c call).2, (step times c call).1.Within times probe)
        {} calls ∧
      (Machine.run (step times) {} calls).2.map (fun probe => probe.id) =
        numbers 1 (Machine.run (step times) {} calls).2.length ∧
      (Machine.run (step times) {} calls).1.Sound := by
  refine ⟨?_, (numbered_run sound_new calls).2, (numbered_run sound_new calls).1⟩
  exact Run.along_of_invariant (I := Sound) (fun c call hs => (step_spec hs call).1)
    (fun c call hs => (step_spec hs call).2.2.2) sound_new calls

end MiniRtc.ProbeController
