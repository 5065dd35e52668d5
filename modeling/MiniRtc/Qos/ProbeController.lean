import MiniRtc.Qos.BitrateProber
import Mathlib.Algebra.Order.Ring.Rat

/-!
# The probe controller

`ProbeController` of `probe_controller.cc` decides when the network is probed, and at which rates. It
probes when the network becomes available, goes on as long as the results are good enough, and later
probes when the limits change, after a drop of the estimate, and periodically. The clusters that it
returns go to the bitrate prober. The product of a rate and a floating-point scale is a parameter.
-/

namespace MiniRtc

namespace DataRate

/-- `DataRate::PlusInfinity`, the greatest value of the type. -/
def plusInfinity : ℤ :=
  9223372036854775807

/-- `DataRate::MinusInfinity`, the least value of the type. -/
def minusInfinity : ℤ :=
  -9223372036854775808

/-- `IsFinite`. -/
def Finite (rate : ℤ) : Prop :=
  rate ≠ plusInfinity ∧ rate ≠ minusInfinity

instance decidableFinite (rate : ℤ) : Decidable (Finite rate) :=
  inferInstanceAs (Decidable (_ ∧ _))

end DataRate

/-- `kMaxWaitingTimeForProbingResult`. -/
def kMaxWaitingTimeForProbingResult : ℤ :=
  1000000

/-- `kDefaultMaxNetworkBitrateBps`, of `bitrate_limits.h`. -/
def kDefaultMaxProbingBitrate : ℤ :=
  20000000

/-- `kBitrateDropThreshold`. -/
def kBitrateDropThreshold : ℚ :=
  66 / 100

/-- `kBitrateDropTimeout`. -/
def kBitrateDropTimeout : ℤ :=
  5000000

/-- `kProbeFractionAfterDrop`. -/
def kProbeFractionAfterDrop : ℚ :=
  85 / 100

/-- `kAlrEndedTimeout`. -/
def kAlrEndedTimeout : ℤ :=
  3000000

/-- `kMinTimeBetweenAlrProbes`. -/
def kMinTimeBetweenAlrProbes : ℤ :=
  5000000

/-- `kProbeUncertainty`. -/
def kProbeUncertainty : ℚ :=
  5 / 100

/-- `ProbeControllerConfig`, with the values of a direct path. An interval can be infinite. -/
structure ProbeControllerConfig where
  firstExponentialProbeScale : ℚ := 3
  secondExponentialProbeScale : ℚ := 6
  furtherExponentialProbeScale : ℚ := 2
  furtherProbeThreshold : ℚ := 7 / 10
  abortFurtherProbeIfMaxLowerThanCurrent : Bool := false
  repeatedInitialProbingTimePeriod : ℤ := 5000000
  initialProbeDuration : ℤ := 100000
  initialMinProbeDelta : ℤ := 20000
  alrProbingInterval : ℤ := 5000000
  alrProbeScale : ℚ := 2
  networkStateEstimateProbingInterval : Option ℤ := none
  probeIfEstimateLowerThanNetworkStateEstimateRatio : ℚ := 0
  estimateLowerThanNetworkStateEstimateProbingInterval : Option ℤ := some 3000000
  networkStateProbeScale : ℚ := 1
  networkStateProbeDuration : ℤ := 15000
  networkStateMinProbeDelta : ℤ := 20000
  probeOnMaxAllocatedBitrateChange : Bool := true
  firstAllocationProbeScale : ℚ := 1
  secondAllocationProbeScale : ℚ := 2
  allocationProbeLimitByCurrentScale : ℚ := 2
  minProbePacketsSent : ℤ := 5
  minProbeDuration : ℤ := 15000
  minProbeDelta : ℤ := 2000
  lossLimitedProbeScale : ℚ := 3 / 2
  skipIfEstimateLargerThanFractionOfMax : ℚ := 0
  skipProbeMaxAllocatedScale : ℚ := 1

/-- The values of a relayed path, as `SetRelayPath` has them. -/
def relayConfig : ProbeControllerConfig where
  firstExponentialProbeScale := 2
  secondExponentialProbeScale := 4
  furtherExponentialProbeScale := 3 / 2
  furtherProbeThreshold := 85 / 100
  repeatedInitialProbingTimePeriod := 3000000
  initialProbeDuration := 80000
  alrProbingInterval := 8000000
  alrProbeScale := 3 / 2
  secondAllocationProbeScale := 3 / 2
  allocationProbeLimitByCurrentScale := 3 / 2
  lossLimitedProbeScale := 5 / 4

/-- `BandwidthLimitedCause`. -/
inductive BandwidthLimitedCause where
  | lossLimitedBweIncreasing
  | lossLimitedBwe
  | delayBasedLimited
  | delayBasedLimitedDelayIncreased
  | rttBasedBackOffHighRtt
  deriving DecidableEq

/-- `ProbeController::State`. -/
inductive ProbeState where
  | init
  | waitingForProbingResult
  | probingComplete
  deriving DecidableEq

/-- `ProbeController`. Of the network estimate only the upper link capacity is used. -/
structure ProbeController where
  networkAvailable : Bool := false
  repeatedInitialProbingEnabled : Bool := false
  relayPath : Bool := false
  lastAllowedRepeatedInitialProbe : Timestamp := .minusInfinity
  bandwidthLimitedCause : BandwidthLimitedCause := .delayBasedLimited
  state : ProbeState := .init
  minBitrateToProbeFurther : ℤ := DataRate.plusInfinity
  timeLastProbingInitiated : Timestamp := .micros 0
  estimatedBitrate : ℤ := 0
  networkEstimate : Option ℤ := none
  startBitrate : ℤ := 0
  maxBitrate : ℤ := kDefaultMaxProbingBitrate
  lastBweDropProbingTime : Timestamp := .micros 0
  alrStartTime : Option ℤ := none
  alrEndTime : Option ℤ := none
  enablePeriodicAlrProbing : Bool := false
  timeOfLastLargeDrop : Timestamp := .micros 0
  bitrateBeforeLastLargeDrop : ℤ := 0
  maxTotalAllocatedBitrate : ℤ := 0
  nextProbeClusterId : ℤ := 1
  config : ProbeControllerConfig := {}

namespace ProbeController

/-- `UpdateState`. -/
def updateState (c : ProbeController) : ProbeState → ProbeController
  | .init => { c with state := .init }
  | .waitingForProbingResult => { c with state := .waitingForProbingResult }
  | .probingComplete =>
      { c with
        state := .probingComplete
        minBitrateToProbeFurther := DataRate.plusInfinity }

/-- Whether the network state estimate limits the probes, and its upper link capacity. -/
def finiteNetworkEstimate (c : ProbeController) : Option ℤ :=
  match c.config.networkStateEstimateProbingInterval, c.networkEstimate with
  | some _, some upper => if DataRate.Finite upper then some upper else none
  | _, _ => none

/-- `CreateProbeClusterConfig`. -/
def createProbeClusterConfig (c : ProbeController) (atTime : Timestamp) (bitrate : ℤ) :
    ProbeController × ProbeClusterConfig :=
  let (targetDuration, minProbeDelta) :=
    if c.finiteNetworkEstimate.any (fun upper => decide (bitrate ≤ upper)) then
      (c.config.networkStateProbeDuration, c.config.networkStateMinProbeDelta)
    else if atTime < c.lastAllowedRepeatedInitialProbe then
      (c.config.initialProbeDuration, c.config.initialMinProbeDelta)
    else (c.config.minProbeDuration, c.config.minProbeDelta)
  ({ c with nextProbeClusterId := c.nextProbeClusterId + 1 },
    { atTime
      targetDataRate := bitrate
      targetDuration
      minProbeDelta
      targetProbeCount := c.config.minProbePacketsSent
      id := c.nextProbeClusterId })

/-- The clusters for the rates, none of which is above the limit. -/
def createProbes (atTime : Timestamp) (limit : ℤ) :
    ProbeController → List ℤ → ProbeController × List ProbeClusterConfig
  | c, [] => (c, [])
  | c, bitrate :: rest =>
      let (c, probe) := c.createProbeClusterConfig atTime (if limit ≤ bitrate then limit else bitrate)
      let (c, probes) := createProbes atTime limit c rest
      (c, probe :: probes)

/-! ## Probing -/

variable (times : ℤ → ℚ → ℤ)

/-- The estimate is so close to the limits that probes are skipped. -/
def skipsProbes (c : ProbeController) : Bool :=
  let networkEstimate := c.networkEstimate.getD DataRate.plusInfinity
  let maxProbeRate :=
    if c.maxTotalAllocatedBitrate = 0 then c.maxBitrate
    else min (times c.maxTotalAllocatedBitrate c.config.skipProbeMaxAllocatedScale) c.maxBitrate
  decide (0 < c.config.skipIfEstimateLargerThanFractionOfMax) &&
    decide (times maxProbeRate c.config.skipIfEstimateLargerThanFractionOfMax <
      min networkEstimate c.estimatedBitrate)

/-- The greatest rate by the configured bitrates: twice what is allocated, if something is. -/
def configuredLimit (c : ProbeController) : ℤ :=
  if 0 < c.maxTotalAllocatedBitrate then min c.maxBitrate (c.maxTotalAllocatedBitrate * 2)
  else c.maxBitrate

/-- A limit, lowered by the network state estimate. Nothing is probed when that is zero. -/
def limitByNetwork (c : ProbeController) (limit : ℤ) : Option ℤ :=
  match c.finiteNetworkEstimate with
  | none => some limit
  | some upper =>
      if upper = 0 then none
      else some (min limit (max c.estimatedBitrate (times upper c.config.networkStateProbeScale)))

/-- The greatest rate of a probe, unless nothing may be probed. -/
def maxProbeBitrate (c : ProbeController) : Option ℤ :=
  match c.bandwidthLimitedCause with
  | .rttBasedBackOffHighRtt | .delayBasedLimitedDelayIncreased | .lossLimitedBwe => none
  | .lossLimitedBweIncreasing =>
      c.limitByNetwork times
        (min c.configuredLimit (times c.estimatedBitrate c.config.lossLimitedProbeScale))
  | .delayBasedLimited => c.limitByNetwork times c.configuredLimit

/-- `InitiateProbing`. A rate that was cut to the limit is not followed by further probes. -/
def initiateProbing (c : ProbeController) (now : Timestamp) (bitratesToProbe : List ℤ)
    (probeFurther : Bool) : ProbeController × List ProbeClusterConfig :=
  if c.skipsProbes times then (c.updateState .probingComplete, [])
  else
    match c.maxProbeBitrate times with
    | none => (c, [])
    | some limit =>
        let (c, pendingProbes) := createProbes now limit c bitratesToProbe
        let c := { c with timeLastProbingInitiated := now }
        if probeFurther && bitratesToProbe.all (fun bitrate => decide (bitrate < limit)) then
          let c := c.updateState .waitingForProbingResult
          ({ c with
              minBitrateToProbeFurther :=
                match pendingProbes.getLast? with
                | none => c.minBitrateToProbeFurther
                | some probe => times probe.targetDataRate c.config.furtherProbeThreshold },
            pendingProbes)
        else (c.updateState .probingComplete, pendingProbes)

/-- `InitiateExponentialProbing`. -/
def initiateExponentialProbing (c : ProbeController) (atTime : Timestamp) :
    ProbeController × List ProbeClusterConfig :=
  let first := times c.startBitrate c.config.firstExponentialProbeScale
  let probes :=
    if 0 < c.config.secondExponentialProbeScale then
      [first, times c.startBitrate c.config.secondExponentialProbeScale]
    else [first]
  let c :=
    if c.repeatedInitialProbingEnabled && decide (c.maxTotalAllocatedBitrate = 0) then
      { c with
        lastAllowedRepeatedInitialProbe :=
          atTime.plus c.config.repeatedInitialProbingTimePeriod }
    else c
  c.initiateProbing times atTime probes true

/-! ## Settings and estimates -/

/-- The start bitrate of `SetBitrates`. -/
def setStartBitrate (c : ProbeController) (minBitrate startBitrate : ℤ) : ProbeController :=
  if 0 < startBitrate then { c with startBitrate, estimatedBitrate := startBitrate }
  else if c.startBitrate = 0 then { c with startBitrate := minBitrate }
  else c

/-- `SetBitrates`. -/
def setBitrates (c : ProbeController) (minBitrate startBitrate maxBitrate : ℤ)
    (atTime : Timestamp) : ProbeController × List ProbeClusterConfig :=
  let c := c.setStartBitrate minBitrate startBitrate
  let oldMaxBitrate := c.maxBitrate
  let c := { c with
    maxBitrate := if DataRate.Finite maxBitrate then maxBitrate else kDefaultMaxProbingBitrate }
  match c.state with
  | .init => if c.networkAvailable then c.initiateExponentialProbing times atTime else (c, [])
  | .waitingForProbingResult => (c, [])
  | .probingComplete =>
      if c.estimatedBitrate ≠ 0 ∧ oldMaxBitrate < c.maxBitrate ∧ c.estimatedBitrate < c.maxBitrate
      then c.initiateProbing times atTime [c.maxBitrate] false
      else (c, [])

/-- The rates for a new allocation, and whether they are limited by the current estimate. -/
def allocationProbes (c : ProbeController) (maxTotalAllocatedBitrate : ℤ) : List ℤ × Bool :=
  let firstProbeRate := times maxTotalAllocatedBitrate c.config.firstAllocationProbeScale
  let currentBweLimit := times c.estimatedBitrate c.config.allocationProbeLimitByCurrentScale
  if currentBweLimit < firstProbeRate then ([currentBweLimit], true)
  else if c.config.secondAllocationProbeScale = 0 then ([firstProbeRate], false)
  else
    let secondProbeRate := times maxTotalAllocatedBitrate c.config.secondAllocationProbeScale
    let limited := decide (currentBweLimit < secondProbeRate)
    let secondProbeRate := if limited then currentBweLimit else secondProbeRate
    (if firstProbeRate < secondProbeRate then [firstProbeRate, secondProbeRate]
      else [firstProbeRate], limited)

/-- `OnMaxTotalAllocatedBitrate`. Without application-limited traffic no probe is made. -/
def onMaxTotalAllocatedBitrate (c : ProbeController) (maxTotalAllocatedBitrate : ℤ)
    (atTime : Timestamp) : ProbeController × List ProbeClusterConfig :=
  if c.config.probeOnMaxAllocatedBitrateChange = true ∧ c.state = .probingComplete ∧
      maxTotalAllocatedBitrate ≠ c.maxTotalAllocatedBitrate ∧ c.estimatedBitrate < c.maxBitrate ∧
      c.estimatedBitrate < maxTotalAllocatedBitrate ∧ c.alrStartTime.isSome = true then
    let c := { c with maxTotalAllocatedBitrate }
    if c.config.firstAllocationProbeScale = 0 then (c, [])
    else
      let (probes, limitedByCurrentBwe) := c.allocationProbes times maxTotalAllocatedBitrate
      c.initiateProbing times atTime probes limitedByCurrentBwe
  else
    ({ c with
        lastAllowedRepeatedInitialProbe :=
          if maxTotalAllocatedBitrate ≠ 0 then atTime else c.lastAllowedRepeatedInitialProbe
        maxTotalAllocatedBitrate }, [])

/-- `OnNetworkAvailability`. -/
def onNetworkAvailability (c : ProbeController) (networkAvailable : Bool) (atTime : Timestamp) :
    ProbeController × List ProbeClusterConfig :=
  let wasNetworkAvailable := c.networkAvailable
  let c := { c with networkAvailable }
  if !networkAvailable then
    ({ c with
        state := .init
        minBitrateToProbeFurther := DataRate.plusInfinity
        lastAllowedRepeatedInitialProbe := .micros 0 }, [])
  else if !wasNetworkAvailable && decide (c.state = .init) && decide (c.startBitrate ≠ 0) then
    c.initiateExponentialProbing times atTime
  else (c, [])

/-- `SetEstimatedBitrate`, before the state is looked at. -/
def recordEstimate (c : ProbeController) (bitrate : ℤ)
    (bandwidthLimitedCause : BandwidthLimitedCause) (atTime : Timestamp) : ProbeController :=
  let c := { c with bandwidthLimitedCause }
  let c :=
    if bitrate < times c.estimatedBitrate kBitrateDropThreshold then
      { c with
        timeOfLastLargeDrop := atTime
        bitrateBeforeLastLargeDrop := c.estimatedBitrate }
    else c
  { c with estimatedBitrate := bitrate }

/-- No more is expected of the network than the estimate. -/
def abortsFurtherProbe (c : ProbeController) (bitrate : ℤ) : Bool :=
  c.config.abortFurtherProbeIfMaxLowerThanCurrent &&
    (decide (c.maxBitrate < bitrate) ||
      decide (c.maxTotalAllocatedBitrate ≠ 0 ∧ 2 * c.maxTotalAllocatedBitrate < bitrate))

/-- `SetEstimatedBitrate`. -/
def setEstimatedBitrate (c : ProbeController) (bitrate : ℤ)
    (bandwidthLimitedCause : BandwidthLimitedCause) (atTime : Timestamp) :
    ProbeController × List ProbeClusterConfig :=
  let c := c.recordEstimate times bitrate bandwidthLimitedCause atTime
  if c.state = .waitingForProbingResult then
    let c :=
      if c.abortsFurtherProbe bitrate then
        { c with minBitrateToProbeFurther := DataRate.plusInfinity }
      else c
    let furtherLimit :=
      match c.finiteNetworkEstimate with
      | none => DataRate.plusInfinity
      | some upper => times upper c.config.furtherProbeThreshold
    if c.minBitrateToProbeFurther < bitrate ∧ bitrate ≤ furtherLimit then
      c.initiateProbing times atTime [times bitrate c.config.furtherExponentialProbeScale] true
    else (c, [])
  else (c, [])

/-- `EnablePeriodicAlrProbing`. -/
def setPeriodicAlrProbing (c : ProbeController) (enable : Bool) : ProbeController :=
  { c with enablePeriodicAlrProbing := enable }

/-- `EnableRepeatedInitialProbing`. -/
def enableRepeatedInitialProbing (c : ProbeController) (enable : Bool) : ProbeController :=
  { c with
    repeatedInitialProbingEnabled := enable
    lastAllowedRepeatedInitialProbe :=
      if enable then c.lastAllowedRepeatedInitialProbe else .micros 0 }

/-- `SetRelayPath`. -/
def setRelayPath (c : ProbeController) (relayPath : Bool) : ProbeController :=
  if c.relayPath = relayPath then c
  else { c with relayPath, config := if relayPath then relayConfig else {} }

/-- `SetAlrStartTimeMs`. -/
def setAlrStartTimeMs (c : ProbeController) (alrStartTimeMs : Option ℤ) : ProbeController :=
  { c with alrStartTime := alrStartTimeMs.map fun ms => ms * 1000 }

/-- `SetAlrEndedTimeMs`. -/
def setAlrEndedTimeMs (c : ProbeController) (alrEndTimeMs : ℤ) : ProbeController :=
  { c with alrEndTime := some (alrEndTimeMs * 1000) }

/-- `SetNetworkStateEstimate`. -/
def setNetworkStateEstimate (c : ProbeController) (linkCapacityUpper : ℤ) : ProbeController :=
  { c with networkEstimate := some linkCapacityUpper }

/-! ## Probing by time -/

/-- The traffic is limited by the application, or was until recently. -/
def alrRecently (c : ProbeController) (atTime : Timestamp) : Bool :=
  c.alrStartTime.isSome ||
    c.alrEndTime.any fun us => decide (atTime.minus (.micros us) < .micros kAlrEndedTimeout)

/-- `RequestProbe`. -/
def requestProbe (c : ProbeController) (atTime : Timestamp) :
    ProbeController × List ProbeClusterConfig :=
  let suggestedProbe := times c.bitrateBeforeLastLargeDrop kProbeFractionAfterDrop
  if c.alrRecently atTime = true ∧ c.state = .probingComplete ∧
      c.estimatedBitrate < times suggestedProbe (1 - kProbeUncertainty) ∧
      atTime.minus c.timeOfLastLargeDrop < .micros kBitrateDropTimeout ∧
      .micros kMinTimeBetweenAlrProbes < atTime.minus c.lastBweDropProbingTime then
    initiateProbing times { c with lastBweDropProbingTime := atTime } atTime [suggestedProbe] false
  else (c, [])

/-- `TimeForAlrProbe`. -/
def timeForAlrProbe (c : ProbeController) (atTime : Timestamp) : Bool :=
  c.enablePeriodicAlrProbing && c.alrStartTime.any fun us =>
    decide ((max (.micros us) c.timeLastProbingInitiated).plus c.config.alrProbingInterval ≤ atTime)

/-- `TimeForNetworkStateProbe`. -/
def timeForNetworkStateProbe (c : ProbeController) (atTime : Timestamp) : Bool :=
  match c.networkEstimate with
  | none => false
  | some upper =>
      if !decide (DataRate.Finite upper) then false
      else
        let low := decide (c.bandwidthLimitedCause = .delayBasedLimited ∧ c.estimatedBitrate <
          times upper c.config.probeIfEstimateLowerThanNetworkStateEstimateRatio)
        match c.config.estimateLowerThanNetworkStateEstimateProbingInterval,
          c.config.networkStateEstimateProbingInterval with
        | some interval, periodic =>
            if low then decide (c.timeLastProbingInitiated.plus interval ≤ atTime)
            else
              decide (c.estimatedBitrate < upper) && periodic.any fun interval =>
                decide (c.timeLastProbingInitiated.plus interval ≤ atTime)
        | none, periodic =>
            decide (c.estimatedBitrate < upper) && periodic.any fun interval =>
              decide (c.timeLastProbingInitiated.plus interval ≤ atTime)

/-- `TimeForNextRepeatedInitialProbe`. -/
def timeForNextRepeatedInitialProbe (c : ProbeController) (atTime : Timestamp) : Bool :=
  c.repeatedInitialProbingEnabled && decide (c.state ≠ .waitingForProbingResult) &&
    decide (atTime < c.lastAllowedRepeatedInitialProbe) &&
    decide (c.timeLastProbingInitiated.plus kMaxWaitingTimeForProbingResult ≤ atTime)

/-- The results of the last probes are no longer waited for. -/
def endWaiting (c : ProbeController) (atTime : Timestamp) : ProbeController :=
  if .micros kMaxWaitingTimeForProbingResult < atTime.minus c.timeLastProbingInitiated ∧
      c.state = .waitingForProbingResult then c.updateState .probingComplete
  else c

/-- `Process`. -/
def process (c : ProbeController) (atTime : Timestamp) :
    ProbeController × List ProbeClusterConfig :=
  let c := c.endWaiting atTime
  if c.estimatedBitrate = 0 ∨ c.state ≠ .probingComplete then (c, [])
  else if c.timeForNextRepeatedInitialProbe atTime then
    c.initiateProbing times atTime
      [times c.estimatedBitrate c.config.firstExponentialProbeScale] true
  else if c.timeForAlrProbe atTime || c.timeForNetworkStateProbe times atTime then
    c.initiateProbing times atTime [times c.estimatedBitrate c.config.alrProbeScale] true
  else (c, [])

end ProbeController

/-- A call of the probe controller. -/
inductive ProbeCall where
  | setBitrates (minBitrate startBitrate maxBitrate : ℤ) (atTime : Timestamp)
  | onMaxTotalAllocatedBitrate (maxTotalAllocatedBitrate : ℤ) (atTime : Timestamp)
  | onNetworkAvailability (networkAvailable : Bool) (atTime : Timestamp)
  | setEstimatedBitrate (bitrate : ℤ) (bandwidthLimitedCause : BandwidthLimitedCause)
      (atTime : Timestamp)
  | enablePeriodicAlrProbing (enable : Bool)
  | enableRepeatedInitialProbing (enable : Bool)
  | setRelayPath (relayPath : Bool)
  | setAlrStartTimeMs (alrStartTimeMs : Option ℤ)
  | setAlrEndedTimeMs (alrEndTimeMs : ℤ)
  | requestProbe (atTime : Timestamp)
  | setNetworkStateEstimate (linkCapacityUpper : ℤ)
  | process (atTime : Timestamp)

namespace ProbeController

variable (times : ℤ → ℚ → ℤ)

/-- The controller after a call, and the clusters that it returns. -/
def step (c : ProbeController) : ProbeCall → ProbeController × List ProbeClusterConfig
  | .setBitrates minBitrate startBitrate maxBitrate atTime =>
      c.setBitrates times minBitrate startBitrate maxBitrate atTime
  | .onMaxTotalAllocatedBitrate maxTotalAllocatedBitrate atTime =>
      c.onMaxTotalAllocatedBitrate times maxTotalAllocatedBitrate atTime
  | .onNetworkAvailability networkAvailable atTime =>
      c.onNetworkAvailability times networkAvailable atTime
  | .setEstimatedBitrate bitrate cause atTime => c.setEstimatedBitrate times bitrate cause atTime
  | .enablePeriodicAlrProbing enable => (c.setPeriodicAlrProbing enable, [])
  | .enableRepeatedInitialProbing enable => (c.enableRepeatedInitialProbing enable, [])
  | .setRelayPath relayPath => (c.setRelayPath relayPath, [])
  | .setAlrStartTimeMs alrStartTimeMs => (c.setAlrStartTimeMs alrStartTimeMs, [])
  | .setAlrEndedTimeMs alrEndTimeMs => (c.setAlrEndedTimeMs alrEndTimeMs, [])
  | .requestProbe atTime => c.requestProbe times atTime
  | .setNetworkStateEstimate linkCapacityUpper => (c.setNetworkStateEstimate linkCapacityUpper, [])
  | .process atTime => c.process times atTime

end ProbeController

end MiniRtc
