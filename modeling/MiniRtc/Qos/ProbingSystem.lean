import MiniRtc.Qos.PacerRefinement
import MiniRtc.Qos.ProbePacing
import MiniRtc.Qos.ProbeTiming

/-!
# From the estimates to the probes

The clusters that the probe controller makes are posted to the task queue of the pacer, and the pacer
hands over their packets. `probes_in_time` is about all runs of the two: whatever the estimates are, a
probe that leaves the pacer belongs to a cluster of the controller and keeps to its rate.
-/

namespace MiniRtc

/-- The probe controller and the pacer, with the tasks that are posted to the pacer, the clusters
that it got, and the probes that it handed over. -/
structure ProbingSystem (Env Content : Type*) where
  controller : ProbeController := {}
  posted : List (List ProbeClusterConfig) := []
  pacer : PacingController Env Content
  created : List ProbeClusterConfig := []
  sent : List SentProbe := []

/-- What happens in the system: the controller is called, the pacer runs the first posted task, or
discards it because the transport is not ready, and the pacer is called. -/
inductive ProbingAction (Content : Type*) where
  | estimate (call : ProbeCall)
  | deliver
  | discard
  | pace (call : PacingCall Content)

namespace ProbingSystem

open ProberHistory

variable {Env Content : Type*} (times : ℤ → ℚ → ℤ) (world : PacerEnvironment Env Content)

/-- The probe that a call of the pacer hands over. -/
def probe (s : ProbingSystem Env Content) (call : PacingCall Content) : Option SentProbe :=
  s.pacer.probeOf (s.pacer.currentTime world).1 (s.pacer.step world call).2

/-- The system after an action. -/
def step (s : ProbingSystem Env Content) : ProbingAction Content → ProbingSystem Env Content
  | .estimate call =>
      let (controller, probes) := s.controller.step times call
      { s with
        controller
        posted := if probes = [] then s.posted else s.posted ++ [probes] }
  | .deliver =>
      { s with
        posted := s.posted.tail
        pacer := s.pacer.createProbeClusters (s.posted.headD [])
        created := s.created ++ s.posted.headD [] }
  | .discard => { s with posted := s.posted.tail }
  | .pace call =>
      { s with
        pacer := s.pacer.act world call
        sent := s.sent ++ (s.probe world call).toList }

/-- The clusters that are created have positive rates, and the calls of the pacer are legal. -/
def Legal (s : ProbingSystem Env Content) : ProbingAction Content → Prop
  | .deliver => ∀ c ∈ s.posted.headD [], 0 < c.targetDataRate
  | .pace call => s.pacer.LegalCall world call
  | _ => True

instance decidableLegal (s : ProbingSystem Env Content) :
    (action : ProbingAction Content) → Decidable (s.Legal world action)
  | .deliver => inferInstanceAs (Decidable (∀ c ∈ _, _))
  | .pace _ => PacingController.decidableLegalCall ..
  | .estimate _ => isTrue trivial
  | .discard => isTrue trivial

/-- The probe that an action hands over is timely. -/
def ProbedInTime (s : ProbingSystem Env Content) : ProbingAction Content → Prop
  | .pace call => ∀ probe ∈ s.probe world call,
      PacingController.Timely s.created s.sent probe
  | _ => True

/-! ## Numbers -/

/-- The clusters that were created or are posted have different numbers, which the controller does
not use again. -/
structure Numbered (s : ProbingSystem Env Content) : Prop where
  sound : s.controller.Sound
  distinct : ((s.created ++ s.posted.flatten).map fun c => c.id).Nodup
  used : ∀ c ∈ s.created ++ s.posted.flatten, c.id < s.controller.nextProbeClusterId

theorem mem_numbers {first id : ℤ} {count : ℕ} (h : id ∈ ProbeController.numbers first count) :
    first ≤ id ∧ id < first + count := by
  obtain ⟨i, hi, rfl⟩ := List.mem_map.mp h
  have hlt := List.mem_range.mp hi
  omega

theorem numbers_nodup (first : ℤ) (count : ℕ) : (ProbeController.numbers first count).Nodup := by
  refine List.Nodup.map (fun i j hij => ?_) List.nodup_range
  have hsame : first + (i : ℤ) = first + (j : ℤ) := hij
  omega

variable {times world} {s : ProbingSystem Env Content}

theorem Numbered.estimate (hs : s.Numbered) (call : ProbeCall) :
    (s.step times world (.estimate call)).Numbered := by
  obtain ⟨hsound, hnext, hids, -⟩ :=
    @ProbeController.step_spec times s.controller hs.sound call
  have hposted : (s.step times world (.estimate call)).posted.flatten =
      s.posted.flatten ++ (s.controller.step times call).2 := by
    show (if (s.controller.step times call).2 = [] then s.posted
      else s.posted ++ [(s.controller.step times call).2]).flatten = _
    split_ifs with hnone
    · rw [hnone, List.append_nil]
    · simp
  have hnew : ∀ c ∈ (s.controller.step times call).2,
      s.controller.nextProbeClusterId ≤ c.id ∧
        c.id < (s.controller.step times call).1.nextProbeClusterId := by
    intro c hc
    rw [hnext]
    exact mem_numbers (hids ▸ List.mem_map_of_mem hc)
  refine ⟨hsound, ?_, ?_⟩
  · show ((s.created ++ (s.step times world (.estimate call)).posted.flatten).map _).Nodup
    rw [hposted, ← List.append_assoc, List.map_append]
    refine List.Nodup.append hs.distinct (hids ▸ numbers_nodup _ _) ?_
    intro id hold hlater
    obtain ⟨c, hc, rfl⟩ := List.mem_map.mp hold
    obtain ⟨d, hd, hsame⟩ := List.mem_map.mp hlater
    have hused := hs.used c hc
    have hfresh := (hnew d hd).1
    omega
  · intro c hc
    have hin : c ∈ s.created ++ (s.step times world (.estimate call)).posted.flatten := hc
    rw [hposted, ← List.append_assoc] at hin
    show c.id < (s.controller.step times call).1.nextProbeClusterId
    rcases List.mem_append.mp hin with hold | hlater
    · have hused := hs.used c hold
      omega
    · exact (hnew c hlater).2

theorem flatten_head_tail {α : Type*} (tasks : List (List α)) :
    tasks.headD [] ++ tasks.tail.flatten = tasks.flatten := by
  cases tasks with
  | nil => rfl
  | cons first rest => rfl

theorem Numbered.deliver (hs : s.Numbered) : (s.step times world .deliver).Numbered := by
  have hall : (s.created ++ s.posted.headD []) ++ s.posted.tail.flatten =
      s.created ++ s.posted.flatten := by
    rw [List.append_assoc, flatten_head_tail]
  refine ⟨hs.sound, ?_, fun c hc => ?_⟩
  · show (((s.created ++ s.posted.headD []) ++ s.posted.tail.flatten).map _).Nodup
    rw [hall]
    exact hs.distinct
  · refine hs.used c ?_
    rw [← hall]
    exact hc

theorem Numbered.discard (hs : s.Numbered) : (s.step times world .discard).Numbered := by
  have hless : List.Sublist (s.created ++ s.posted.tail.flatten)
      (s.created ++ s.posted.flatten) := by
    rw [← flatten_head_tail s.posted]
    exact List.Sublist.append_left (List.sublist_append_right _ _) _
  exact ⟨hs.sound, hs.distinct.sublist (hless.map _), fun c hc => hs.used c (hless.subset hc)⟩

/-! ## Observed probes -/

/-- A probe of the log is one of the history, which has the time at which the prober was told. -/
def Earlier (logged told : SentProbe) : Prop :=
  logged.cluster = told.cluster ∧ logged.size = told.size ∧ logged.time ≤ told.time

theorem bytes_of_earlier {logged told : List SentProbe} (h : List.Forall₂ Earlier logged told) :
    bytesOf logged = bytesOf told := by
  induction h with
  | nil => rfl
  | cons hone _ ih =>
      show _ + bytesOf _ = _ + bytesOf _
      exact congrArg₂ (fun a b => a + b) hone.2.1 ih

theorem head_of_earlier {logged told : List SentProbe} (h : List.Forall₂ Earlier logged told)
    {first : SentProbe} (hfirst : first ∈ logged.head?) :
    ∃ other ∈ told.head?, Earlier first other := by
  cases h with
  | nil => cases hfirst
  | cons hone _ =>
      obtain rfl := Option.some.inj hfirst
      exact ⟨_, rfl, hone⟩

/-- The probes of a cluster in the log and in the history. -/
theorem probes_of_earlier {logged told : List SentProbe} (h : List.Forall₂ Earlier logged told)
    (cluster : ℤ) : List.Forall₂ Earlier (probesOf logged cluster) (probesOf told cluster) := by
  unfold probesOf
  induction h with
  | nil => exact List.Forall₂.nil
  | @cons a b rest others hone _ ih =>
      have hsame : decide (a.cluster = cluster) = decide (b.cluster = cluster) := by
        rw [hone.1]
      rw [List.filter_cons, List.filter_cons, hsame]
      split_ifs
      · exact List.Forall₂.cons hone ih
      · exact ih

/-- A probe that is paced after the history is paced after the log. -/
theorem paced_of_earlier {logged told : List SentProbe} (h : List.Forall₂ Earlier logged told)
    {early time : ℤ} {clusterConfig : ProbeClusterConfig}
    (hrate : 0 < clusterConfig.targetDataRate)
    (hpaced : PacedAfter early clusterConfig told time) :
    PacedAfter early clusterConfig logged time := by
  -- The log has earlier times than the history: the distances only grow.
  intro first hfirst last hlast
  obtain ⟨first', hfirst', hopens⟩ := head_of_earlier h hfirst
  have hreverse : List.Forall₂ Earlier logged.reverse told.reverse := List.rel_reverse h
  rw [← List.head?_reverse] at hlast
  obtain ⟨last', hlast', hcloses⟩ := head_of_earlier hreverse hlast
  rw [List.head?_reverse] at hlast'
  obtain ⟨hbytes, hdistance⟩ := hpaced first' hfirst' last' hlast'
  have hfirstTime := hopens.2.2
  have hlastTime := hcloses.2.2
  refine ⟨?_, by omega⟩
  rw [bytes_of_earlier h]
  refine hbytes.trans_le ?_
  exact Int.mul_le_mul_of_nonneg_left (by omega) hrate.le

theorem timely_of_earlier {created : List ProbeClusterConfig} {logged told : List SentProbe}
    (h : List.Forall₂ Earlier logged told) (hrates : ∀ c ∈ created, 0 < c.targetDataRate)
    {probe : SentProbe} (hprobe : PacingController.Timely created told probe) :
    PacingController.Timely created logged probe := by
  obtain ⟨c, hc, hid, hpaced | hexpires⟩ := hprobe
  · exact ⟨c, hc, hid, Or.inl (paced_of_earlier (probes_of_earlier h _) (hrates c hc) hpaced)⟩
  · exact ⟨c, hc, hid, Or.inr hexpires⟩

/-! ## Runs -/

/-- The numbers are different, and there is a history of the prober. -/
structure Observed (s : ProbingSystem Env Content) : Prop where
  numbered : s.Numbered
  history : ∃ h, s.pacer.Follows h ∧ h.created = s.created ∧ List.Forall₂ Earlier s.sent h.sent

variable (times) in
/-- An action keeps the history, and what it hands over is timely. -/
theorem observed_step (hs : s.Observed) (action : ProbingAction Content)
    (hlegal : s.Legal world action) :
    (s.step times world action).Observed ∧ s.ProbedInTime world action := by
  obtain ⟨h, hfollows, hcreated, hsent⟩ := hs.history
  cases action with
  | estimate call =>
      exact ⟨⟨hs.numbered.estimate call, h, hfollows, hcreated, hsent⟩, trivial⟩
  | discard => exact ⟨⟨hs.numbered.discard, h, hfollows, hcreated, hsent⟩, trivial⟩
  | deliver =>
      -- The numbers of the posted clusters are new to the prober.
      refine ⟨⟨hs.numbered.deliver, _, PacingController.create_reports hfollows hlegal ?_, ?_,
        hsent⟩, trivial⟩
      · rw [hcreated]
        refine hs.numbered.distinct.sublist (List.Sublist.map _ ?_)
        rw [← flatten_head_tail s.posted]
        exact List.Sublist.append_left (List.sublist_append_left _ _) _
      · show h.created ++ _ = s.created ++ _
        rw [hcreated]
  | pace call =>
      obtain ⟨h', hfollows', hreported⟩ := PacingController.call_reports hfollows hlegal
      have hrates : ∀ c ∈ s.created, 0 < c.targetDataRate := hcreated ▸ hfollows.sound.rates
      refine ⟨⟨⟨hs.numbered.sound, hs.numbered.distinct, hs.numbered.used⟩, h', hfollows',
        hreported.created.trans hcreated, ?_⟩, ?_⟩
      · show List.Forall₂ Earlier (s.sent ++ (s.probe world call).toList) h'.sent
        rcases hreported.sent with ⟨hnone, hsame⟩ | ⟨p, later, hsome, hlater, hnew, -⟩
        · rw [show s.probe world call = none from hnone, hsame]
          simpa using hsent
        · rw [show s.probe world call = some p from hsome, hnew]
          refine List.rel_append hsent (List.Forall₂.cons ⟨rfl, rfl, hlater⟩ List.Forall₂.nil)
      · intro probe hprobe
        rcases hreported.sent with ⟨hnone, -⟩ | ⟨p, later, hsome, -, -, htimely⟩
        · rw [show s.probe world call = none from hnone] at hprobe
          cases hprobe
        · rw [show s.probe world call = some p from hsome] at hprobe
          obtain rfl := Option.some.inj hprobe
          rw [hcreated] at htimely
          exact timely_of_earlier hsent hrates htimely

variable (world) in
/-- A new system has handed over nothing. -/
theorem observed_new (env : Env) :
    Observed ({ pacer := PacingController.new world env } : ProbingSystem Env Content) where
  numbered := ⟨ProbeController.sound_new, List.nodup_nil, fun c hc => by cases hc⟩
  history := ⟨{}, ⟨rfl, sound_start, TimedPacketQueue.sound_new _, le_refl _,
    fun hfailure => by cases hfailure⟩, rfl, List.Forall₂.nil⟩

/-- From the estimates to the packets: in every run of the probe controller and the pacer, a probe
is handed over for a cluster of the controller, and it keeps to the rate and the distance of its
cluster after the probes that were handed over before, up to a millisecond. The only exception is a
probe in the last millisecond before its cluster expires. -/
theorem probes_in_time (times : ℤ → ℚ → ℤ) (world : PacerEnvironment Env Content) (env : Env)
    (actions : List (ProbingAction Content))
    (hactions : Run.Along (step times world) (Legal world)
      { pacer := PacingController.new world env } actions) :
    Run.Along (step times world) (ProbedInTime world)
      { pacer := PacingController.new world env } actions :=
  hactions.imp (fun _ action hs hlegal => (observed_step times hs action hlegal).1)
    (fun _ action hs hlegal => (observed_step times hs action hlegal).2)
    (observed_new world env)

/-- The network becomes available, the two initial clusters are posted and created, and a video
packet of 1000 bytes starts the first of them. -/
def initialProbes : List (ProbingAction Unit) :=
  [.estimate (.onNetworkAvailability true (.micros 0)),
    .estimate (.setBitrates 300000 1000000 20000000 (.micros 0)),
    .deliver,
    .pace (.setPacingRates 2500000 0),
    .pace (.enqueuePacket
      { ssrc := 7, packetType := .video, content := { payloadSize := 1000, content := () } }),
    .pace .processPackets,
    .pace .processPackets,
    .pace .processPackets,
    .pace .processPackets,
    .pace .processPackets]

/-- The probes of the first cluster, at 3 Mbps and 2 ms apart at least, by a clock that goes on by a
millisecond whenever it is read. -/
theorem initial_probes_in_time :
    let start : ProbingSystem ℤ Unit :=
      { pacer := PacingController.new PacingController.steadyWorld 0 }
    let next := step ProbeController.scaled PacingController.steadyWorld
    ((initialProbes.foldl next start).sent.map fun probe =>
        (probe.cluster, probe.time, probe.size)) =
      [(1, 5000, 1001), (1, 10000, 750), (1, 16000, 750), (1, 22000, 750), (1, 28000, 750)] ∧
      Run.Along next (ProbedInTime PacingController.steadyWorld) start initialProbes :=
  ⟨by decide +kernel,
    probes_in_time ProbeController.scaled PacingController.steadyWorld 0 initialProbes
      (by decide +kernel)⟩

/-- A clock that jumps after some readings to half a millisecond before clusters from its start
expire. -/
def jumpingWorld : PacerEnvironment ℕ Unit where
  currentTime readings := (if readings = 0 then 4999500 else 0, readings - 1)
  generatePadding size readings :=
    ([{ ssrc := 0, packetType := .padding
        content := { paddingSize := size.toNat, content := () } }], readings)

/-- The initial clusters of a start bitrate of 1 kbps. -/
def slowProbes : List (ProbingAction Unit) :=
  [.estimate (.onNetworkAvailability true (.micros 0)),
    .estimate (.setBitrates 300 1000 20000000 (.micros 0)),
    .deliver,
    .pace (.enqueuePacket
      { ssrc := 7, packetType := .video, content := { payloadSize := 1000, content := () } }),
    .pace .processPackets,
    .pace .processPackets,
    .pace .processPackets]

/-- The exception occurs: the first probe of the second cluster takes more than a second at 6 kbps, and
another one is handed over at once. -/
example :
    let start : ProbingSystem ℕ Unit := { pacer := PacingController.new jumpingWorld 7 }
    ((slowProbes.foldl (step ProbeController.scaled jumpingWorld) start).sent.map fun probe =>
        (probe.cluster, probe.time, probe.size)) =
      [(1, 0, 1), (2, 4999500, 1001), (2, 4999500, 2)] := by
  decide +kernel

end ProbingSystem

end MiniRtc
