import MiniRtc.Media.ResolutionAdapter
import Mathlib.Data.Int.Order.Basic

/-!
# The resolution of a video stream

The `StreamContext` of `ice_transport_controller.cpp`, as far as it decides at which size frames are
encoded, with the sections under the stream lock that read and write it: `SendVideo`, the sections of
`MaybeDegradeResolutionOnEncodeTime` between which the encoder is configured without the lock, and the
part of `PostUpdates` for one stream.

What the encoder and the queues are measured to do (frame rates, queue delays, quantizers) decides
which branch a section takes; an `EncodeReport` brings these values along, and every result holds
whatever they are.
-/

namespace MiniRtc.Adaptation

/-- The part of `media_config_` that adaptation reads, and the resolution adapter with its
preference. -/
structure AdaptationConfig where
  adapter : ResolutionAdapter
  screenContent : Bool
  maxFrameRate : Nat

namespace AdaptationConfig

def maintainResolution (cfg : AdaptationConfig) : Bool :=
  decide (cfg.adapter.videoDegradationPreference = .maintainResolution)

def maintainFrameRate (cfg : AdaptationConfig) : Bool :=
  decide (cfg.adapter.videoDegradationPreference = .maintainFrameRate)

def balanced (cfg : AdaptationConfig) : Bool :=
  decide (cfg.adapter.videoDegradationPreference = .balanced)

end AdaptationConfig

/-! ## VideoAdaptationPolicy -/

def kBandwidthMappingStabilityMs : ℤ := 2000
def kBandwidthResolutionStartupGraceMs : ℤ := 5000
def kBandwidthResolutionCooldownMs : ℤ := 5000
def kStaticContentEnterHoldMs : ℤ := 1000
def kStaticContentExitHoldMs : ℤ := 3000
def kStaticContentMaxRttMs : ℤ := 150
def kStaticContentCriticalRttMs : ℤ := 300
def kMeaningfulDownscaleAreaPercent : Nat := 80

def upgradeFrameRate (configuredFrameRate : Nat) : Nat :=
  if configuredFrameRate ≤ 30 then 28 else 55

def isUpgradeFrameRateHealthy (configuredFrameRate measuredFrameRate : Nat) : Bool :=
  decide (measuredFrameRate ≥ upgradeFrameRate configuredFrameRate)

def shouldDowngradeForFrameHealth (sustainedLowEncodedFrameRate captureLimited
    sustainedPacerRejection sustainedEncodeQueueDrop : Bool) : Bool :=
  (sustainedLowEncodedFrameRate && !captureLimited) || sustainedPacerRejection ||
    sustainedEncodeQueueDrop

def isBandwidthMappingStable (nowMs candidateSinceMs : ℤ) : Bool :=
  decide (candidateSinceMs > 0 ∧ nowMs ≥ candidateSinceMs ∧
    nowMs - candidateSinceMs ≥ kBandwidthMappingStabilityMs)

def isBandwidthStartupGraceElapsed (nowMs sourceStartedMs : ℤ) : Bool :=
  decide (sourceStartedMs > 0 ∧ nowMs ≥ sourceStartedMs ∧
    nowMs - sourceStartedMs ≥ kBandwidthResolutionStartupGraceMs)

def isMeaningfulBandwidthDownscale (currentArea targetArea : Nat) : Bool :=
  decide (currentArea > 0 ∧ targetArea > 0 ∧ targetArea < currentArea ∧
    targetArea * 100 ≤ currentArea * kMeaningfulDownscaleAreaPercent)

def shouldApplyBandwidthResolutionDowngrade (allowSpatialDowngrade : Bool)
    (nowMs sourceStartedMs lastResolutionChangeMs : ℤ) (currentArea targetArea : Nat) : Bool :=
  allowSpatialDowngrade && isMeaningfulBandwidthDownscale currentArea targetArea &&
    isBandwidthStartupGraceElapsed nowMs sourceStartedMs &&
      decide (nowMs ≥ lastResolutionChangeMs ∧
        nowMs - lastResolutionChangeMs ≥ kBandwidthResolutionCooldownMs)

/-! ## The context -/

/-- An upgrade that is tried out: the sizes before and during it, the frames that were encoded, and
when it started. -/
structure UpgradeProbe where
  base : Size
  target : Size
  sampleCount : Nat := 0
  startedMs : ℤ

/-- `StreamContext`. The two halves of a size are always written together, and a probe is active
when there is one. A stream without a source size has the size `0` by `0`. -/
structure StreamContext where
  source : Size := ⟨0, 0⟩
  target : Option Size := none
  mappedTarget : Option Size := none
  pendingMapped : Option Size := none
  mappingStabilityCount : Nat := 0
  pendingMappedSinceMs : ℤ := 0
  sourceResolutionInitializedMs : ℤ := 0
  lastResolutionChangeMs : ℤ := 0
  resolutionUpgradeProbe : Option UpgradeProbe := none
  resolutionUpgradeProbeFailureCount : Nat := 0
  nextResolutionUpgradeProbeMs : ℤ := 0
  postUpgradeProtectionUntilMs : ℤ := 0
  encodingSpeedPriorityEnabled : Bool := false
  freezeResolution : Bool := false
  staticContentCandidate : Bool := false
  staticContentCandidateInitialized : Bool := false
  staticContentCandidateSinceMs : ℤ := 0

namespace StreamContext

/-- `ResetResolutionUpgradeProbe`. -/
def resetResolutionUpgradeProbe (c : StreamContext) : StreamContext :=
  { c with
    resolutionUpgradeProbe := none
    resolutionUpgradeProbeFailureCount := 0
    nextResolutionUpgradeProbeMs := 0 }

/-- The four assignments that forget the mapping which waits for confirmation. -/
def resetPendingMapping (c : StreamContext) : StreamContext :=
  { c with pendingMapped := none, mappingStabilityCount := 0, pendingMappedSinceMs := 0 }

/-- The section of `SendVideo` that notices another size of the captured frames. -/
def recordSource (c : StreamContext) (nowMs : ℤ) (frame : Size) : StreamContext :=
  if c.source.width = 0 ∨ c.source.height = 0 ∨ c.source ≠ frame then
    { c.resetPendingMapping.resetResolutionUpgradeProbe with
      source := frame
      sourceResolutionInitializedMs := nowMs
      postUpgradeProtectionUntilMs := 0 }
  else c

end StreamContext

/-! ## Encode time -/

/-- What a report of an encoded frame has measured. -/
structure EncodeReport where
  nowMs : ℤ
  encoded : Size
  sustainedEncodeBacklog : Bool
  sustainedSevereEncodeBacklog : Bool
  sustainedCriticalEncodeBacklog : Bool
  startupCriticalEncodeBacklog : Bool
  sustainedLowEncodedFrameRate : Bool
  captureLimited : Bool
  sustainedHighPacerRejection : Bool
  sustainedHighEncodeQueueDrop : Bool
  encodedFrameRateReady : Bool
  measuredEncodedFrameRate : Nat
  encodedFrameRateHealthySinceMs : ℤ
  /-- The delays of the encode queue are small, or not known yet. -/
  queueDelayHealthy : Bool
  /-- The average quantizer is known and too high for an upgrade. -/
  qpTooHigh : Bool
  /-- There is an encoder, and it can prefer speed over quality. -/
  supportsSpeedPriority : Bool

/-- What a section of `MaybeDegradeResolutionOnEncodeTime` ends with: what it logs, or the setting of
the encoder for which it leaves the lock. -/
inductive EncodeOutcome where
  | nothing
  | setEncodingSpeedPriority (prioritizeSpeed : Bool)
  | probeFailed
  | probeSucceeded
  | probeStarted
  | downgraded
  deriving DecidableEq

def kCriticalFrameRate : Nat := 20
def kFrameRateHealthyDurationMs : ℤ := 2000
def kUpgradeProbeMinDurationMs : ℤ := 2000
def kPostUpgradeProtectionMs : ℤ := 2000
def kUpgradeProbeBackoffBaseMs : ℤ := 3000
def kMaxUpgradeProbeBackoffMs : ℤ := 24000
def kUpgradeCooldownMs : ℤ := 3000

def downgradeCooldownMs (cfg : AdaptationConfig) : ℤ :=
  if cfg.maintainFrameRate then 750 else if cfg.balanced then 1500 else 3000

/-- The frames of a probe for each second, rounded to the nearest. -/
def probeFrameRate (p : UpgradeProbe) (nowMs : ℤ) : Nat :=
  let durationMs := nowMs - p.startedMs
  if durationMs > 0 then ((p.sampleCount * 1000 + durationMs / 2) / durationMs).toNat else 0

/-- The loop of a downgrade, which stops when there is no lower rung. -/
def lowerSteps (a : ResolutionAdapter) (source : Size) : Nat → Size → Size
  | 0, current => current
  | steps + 1, current =>
      match a.getNextLowerResolution current source with
      | none => current
      | some next => lowerSteps a source steps next

/-- The mapped target caps the ladder. -/
def capToMapped (mapped : Option Size) (next : Size) : Size :=
  match mapped with
  | some mapped => if next.area > mapped.area then mapped else next
  | none => next

namespace StreamContext

variable (cfg : AdaptationConfig) (c : StreamContext) (r : EncodeReport)

/-- The evaluation of a probe. -/
def evaluateProbe (p : UpgradeProbe) : StreamContext × EncodeOutcome :=
  let durationMs := r.nowMs - p.startedMs
  let backlogged := r.sustainedSevereEncodeBacklog || r.sustainedCriticalEncodeBacklog ||
    (r.startupCriticalEncodeBacklog && decide (durationMs ≥ downgradeCooldownMs cfg))
  let frameRateTooLow := decide (durationMs ≥ kUpgradeProbeMinDurationMs) &&
    !isUpgradeFrameRateHealthy cfg.maxFrameRate (probeFrameRate p r.nowMs)
  let qpTooHigh := decide (durationMs ≥ kUpgradeProbeMinDurationMs) && r.qpTooHigh
  if backlogged || frameRateTooLow || qpTooHigh then
    let failures := min (c.resolutionUpgradeProbeFailureCount + 1) 3
    let backoffMs := min kMaxUpgradeProbeBackoffMs (kUpgradeProbeBackoffBaseMs * 2 ^ failures)
    ({ c with
        target := some p.base
        lastResolutionChangeMs := r.nowMs
        resolutionUpgradeProbeFailureCount := failures
        nextResolutionUpgradeProbeMs := r.nowMs + backoffMs
        resolutionUpgradeProbe := none
        postUpgradeProtectionUntilMs := 0 }, .probeFailed)
  else if durationMs ≥ kUpgradeProbeMinDurationMs then
    ({ c.resetResolutionUpgradeProbe with
        lastResolutionChangeMs := r.nowMs
        postUpgradeProtectionUntilMs := r.nowMs + kPostUpgradeProtectionMs }, .probeSucceeded)
  else (c, .nothing)

/-- The start of a probe, from the target of the stream. -/
def maybeUpgrade : StreamContext × EncodeOutcome :=
  match c.target with
  | none => (c, .nothing)
  | some base =>
      if !r.encodedFrameRateReady ||
          !isUpgradeFrameRateHealthy cfg.maxFrameRate r.measuredEncodedFrameRate ||
          decide (r.encodedFrameRateHealthySinceMs = 0) ||
          decide (r.nowMs - r.encodedFrameRateHealthySinceMs < kFrameRateHealthyDurationMs) ||
          r.qpTooHigh then (c, .nothing)
      else if r.nowMs - c.lastResolutionChangeMs < kUpgradeCooldownMs then (c, .nothing)
      else if r.nowMs < c.nextResolutionUpgradeProbeMs then (c, .nothing)
      else
        match cfg.adapter.getNextHigherResolution base c.source with
        | none => (c, .nothing)
        | some next =>
            let next := capToMapped c.mappedTarget next
            if next.area ≤ base.area then (c, .nothing)
            else
              ({ c with
                  resolutionUpgradeProbe := some { base, target := next, startedMs := r.nowMs }
                  target := some next
                  lastResolutionChangeMs := r.nowMs
                  postUpgradeProtectionUntilMs := 0 }, .probeStarted)

/-- The number of rungs of a downgrade. -/
def downgradeSteps : Nat :=
  if !r.encodedFrameRateReady then if r.startupCriticalEncodeBacklog then 3 else 1
  else if r.measuredEncodedFrameRate < 10 ∨ r.sustainedCriticalEncodeBacklog then 3
  else if r.measuredEncodedFrameRate < kCriticalFrameRate then 2
  else 1

/-- A downgrade, from the target of the stream or else from the size of the encoded frame. -/
def maybeDowngrade : StreamContext × EncodeOutcome :=
  let base := c.target.getD r.encoded
  if c.lastResolutionChangeMs > 0 ∧
      r.nowMs - c.lastResolutionChangeMs < downgradeCooldownMs cfg then (c, .nothing)
  else
    let next := lowerSteps cfg.adapter c.source (downgradeSteps r) base
    if next.width = 0 ∨ next.height = 0 ∨ next.width ≥ base.width ∨ next.height ≥ base.height then
      (c, .nothing)
    else
      ({ c.resetResolutionUpgradeProbe with
          target := some next
          lastResolutionChangeMs := r.nowMs
          postUpgradeProtectionUntilMs := 0 }, .downgraded)

/-- The last section of `MaybeDegradeResolutionOnEncodeTime`. -/
def adaptResolution : StreamContext × EncodeOutcome :=
  match c.resolutionUpgradeProbe with
  | some p => c.evaluateProbe cfg r p
  | none =>
      let protectionEmergency := r.sustainedCriticalEncodeBacklog ||
        (r.encodedFrameRateReady && decide (r.measuredEncodedFrameRate < kCriticalFrameRate) &&
          r.sustainedEncodeBacklog)
      if r.nowMs < c.postUpgradeProtectionUntilMs ∧ !protectionEmergency then (c, .nothing)
      else
        let shouldDowngrade := r.startupCriticalEncodeBacklog || r.sustainedEncodeBacklog ||
          (cfg.maintainFrameRate && shouldDowngradeForFrameHealth r.sustainedLowEncodedFrameRate
            r.captureLimited r.sustainedHighPacerRejection r.sustainedHighEncodeQueueDrop)
        if !shouldDowngrade then c.maybeUpgrade cfg r else c.maybeDowngrade cfg r

/-- The section that gives speed priority back when a balanced stream is healthy. -/
def maybeRestoreQuality : StreamContext × EncodeOutcome :=
  if cfg.balanced && c.resolutionUpgradeProbe.isNone && c.encodingSpeedPriorityEnabled &&
      r.encodedFrameRateReady &&
      isUpgradeFrameRateHealthy cfg.maxFrameRate r.measuredEncodedFrameRate &&
      decide (r.encodedFrameRateHealthySinceMs > 0 ∧
        r.nowMs - r.encodedFrameRateHealthySinceMs ≥ kFrameRateHealthyDurationMs) &&
      r.queueDelayHealthy && !r.qpTooHigh then (c, .setEncodingSpeedPriority false)
  else c.adaptResolution cfg r

/-- The frames of a probe are counted. -/
def countProbeSample : StreamContext :=
  { c with
    resolutionUpgradeProbe :=
      c.resolutionUpgradeProbe.map fun p => { p with sampleCount := p.sampleCount + 1 } }

/-- The first section. -/
def onEncoded : StreamContext × EncodeOutcome :=
  let c := c.countProbeSample
  if cfg.maintainResolution then (c, .nothing)
  else if c.resolutionUpgradeProbe.isNone && !c.encodingSpeedPriorityEnabled &&
      (r.sustainedEncodeBacklog || r.startupCriticalEncodeBacklog) && cfg.screenContent &&
      r.supportsSpeedPriority then (c, .setEncodingSpeedPriority true)
  else c.maybeRestoreQuality cfg r

/-- The section after the encoder was configured: nothing when the stream or its encoder is gone,
and the next section when the encoder has refused. Resolution priority never gets here. -/
def onPrioritySet (prioritizeSpeed : Bool) (changed : Option Bool) : StreamContext × EncodeOutcome :=
  if cfg.maintainResolution then (c, .nothing)
  else
    match changed with
    | none => (c, .nothing)
    | some true => ({ c with encodingSpeedPriorityEnabled := prioritizeSpeed }, .nothing)
    | some false =>
        if prioritizeSpeed then c.maybeRestoreQuality cfg r else c.adaptResolution cfg r

end StreamContext

/-! ## Controller updates -/

/-- What an update says about a stream: its share of the bitrate, the network estimate, and the
resolution of the encoder, for a stream without a source size. -/
structure ControllerUpdate where
  nowMs : ℤ
  subTargetBitrate : Nat
  inAlr : Bool
  /-- The loss rate is at most `kStaticContentMaxLossRate`. -/
  lossRateLow : Bool
  /-- The loss rate is at least `kStaticContentCriticalLossRate`. -/
  lossRateCritical : Bool
  rttMs : ℤ
  codecResolution : Option Size

namespace ControllerUpdate

variable (cfg : AdaptationConfig) (u : ControllerUpdate)

/-- `IsStaticContentCandidate`. -/
def isStaticContentCandidate : Bool :=
  cfg.screenContent && u.inAlr && u.lossRateLow && decide (u.rttMs ≤ kStaticContentMaxRttMs)

/-- `IsStaticContentNetworkCritical`. -/
def isStaticContentNetworkCritical : Bool :=
  u.lossRateCritical || decide (u.rttMs ≥ kStaticContentCriticalRttMs)

end ControllerUpdate

namespace StreamContext

variable (cfg : AdaptationConfig) (c : StreamContext) (u : ControllerUpdate)

/-- The source size of the stream, or else the resolution of the encoder. -/
def sourceOf : Option Size :=
  if c.source.width = 0 ∨ c.source.height = 0 then u.codecResolution else some c.source

/-- The candidate and the hold for static content. -/
def updateStaticContent : StreamContext :=
  let candidate := u.isStaticContentCandidate cfg
  let c := if !c.staticContentCandidateInitialized || c.staticContentCandidate != candidate then
      { c with
        staticContentCandidate := candidate
        staticContentCandidateInitialized := true
        staticContentCandidateSinceMs := u.nowMs }
    else c
  let durationMs := u.nowMs - c.staticContentCandidateSinceMs
  if !c.freezeResolution && candidate && decide (durationMs ≥ kStaticContentEnterHoldMs) then
    { c with freezeResolution := true }
  else if c.freezeResolution && (!cfg.screenContent || u.isStaticContentNetworkCritical) then
    { c with freezeResolution := false }
  else if c.freezeResolution && !candidate &&
      decide (durationMs ≥ kStaticContentExitHoldMs) then { c with freezeResolution := false }
  else c

/-- The hold of static content: in frame-rate and balanced mode the ceiling stays, in resolution mode
the quality decides. -/
def holdStaticContent (source : Size) : StreamContext :=
  if !cfg.maintainResolution then
    { c with mappedTarget := some (c.mappedTarget.getD (c.target.getD source)) }.resetPendingMapping
  else
    match cfg.adapter.getResolution 2147483647 source with
    | none => c
    | some quality =>
        let c := { c with mappedTarget := some quality }.resetPendingMapping
        let target := if quality.area ≥ source.area then none else some quality
        if c.target ≠ target then
          { c with
            target
            lastResolutionChangeMs := u.nowMs
            postUpgradeProtectionUntilMs := 0 }
        else c

/-- The downgrade of a mapping that is stable, by one rung. -/
def applyMapping (source mapped : Size) : StreamContext :=
  let c := { c with
    mappedTarget := some mapped
    mappingStabilityCount := 0
    pendingMappedSinceMs := 0 }
  let current := c.target.getD source
  if shouldApplyBandwidthResolutionDowngrade (!cfg.maintainResolution) u.nowMs
      c.sourceResolutionInitializedMs c.lastResolutionChangeMs current.area mapped.area then
    let downgrade := match cfg.adapter.getNextLowerResolution current source with
      | some next => if next.area ≥ mapped.area then next else mapped
      | none => mapped
    { c.resetResolutionUpgradeProbe with
      target := some downgrade
      lastResolutionChangeMs := u.nowMs
      postUpgradeProtectionUntilMs := 0 }
  else c

/-- The mapping of the bitrate to a resolution, which has to stay the same for a while. -/
def mapBandwidth (source : Size) : StreamContext :=
  match cfg.adapter.getResolution u.subTargetBitrate source with
  | none => c
  | some mapped =>
      if c.pendingMapped ≠ some mapped then
        { c with
          pendingMapped := some mapped
          mappingStabilityCount := 1
          pendingMappedSinceMs := u.nowMs }
      else
        let c := { c with mappingStabilityCount := c.mappingStabilityCount + 1 }
        if !isBandwidthMappingStable u.nowMs c.pendingMappedSinceMs then c
        else c.applyMapping cfg u source mapped

/-- The part of `PostUpdates` for one stream. -/
def postUpdates : StreamContext :=
  match c.sourceOf u with
  | none => c
  | some source =>
      let wasFrozen := c.freezeResolution
      let c := c.updateStaticContent cfg u
      if !c.freezeResolution && u.isStaticContentCandidate cfg then c
      else if c.freezeResolution then c.holdStaticContent cfg u source
      else
        let c := if wasFrozen then
            { c with mappedTarget := some (c.target.getD source) }.resetPendingMapping
          else c
        c.mapBandwidth cfg u source

end StreamContext

/-! ## The stream -/

/-- A frame in the encode queue, with the target that the stream had when it was captured. -/
structure EncodeTask where
  target : Option Size
  frame : Size

namespace EncodeTask

/-- `needs_scaling`. -/
def needsScaling (t : EncodeTask) : Bool :=
  match t.target with
  | none => false
  | some target =>
      decide (target.width > 0 ∧ target.height > 0 ∧ target.width < t.frame.width ∧
        target.height < t.frame.height)

end EncodeTask

/-- A stream with all its encode tasks. -/
structure VideoStream where
  context : StreamContext := {}
  tasks : List EncodeTask := []

/-- The sections under the stream lock. -/
inductive StreamAction where
  /-- `SendVideo` with a frame that the pacer and the encode queue admit or not. -/
  | sendVideo (nowMs : ℤ) (frame : Size) (admitted : Bool)
  /-- The first section of `MaybeDegradeResolutionOnEncodeTime`. -/
  | encoded (report : EncodeReport)
  /-- The section after the encoder was configured. -/
  | prioritySet (report : EncodeReport) (prioritizeSpeed : Bool) (changed : Option Bool)
  /-- The part of `PostUpdates`. -/
  | controllerUpdate (update : ControllerUpdate)

namespace VideoStream

variable (cfg : AdaptationConfig)

/-- `SendVideo`, which takes NV12 frames only. -/
def sendVideo (s : VideoStream) (nowMs : ℤ) (frame : Size) (admitted : Bool) : VideoStream :=
  if ¬ (frame.IsPositive ∧ frame.IsEven) ∨ !admitted then s
  else
    let c := s.context.recordSource nowMs frame
    { context := c, tasks := s.tasks ++ [{ target := c.target, frame }] }

/-- A section, with what it ends with. -/
def perform (s : VideoStream) : StreamAction → VideoStream × EncodeOutcome
  | .sendVideo nowMs frame admitted => (s.sendVideo nowMs frame admitted, .nothing)
  | .encoded report =>
      let result := s.context.onEncoded cfg report
      ({ s with context := result.1 }, result.2)
  | .prioritySet report prioritizeSpeed changed =>
      let result := s.context.onPrioritySet cfg report prioritizeSpeed changed
      ({ s with context := result.1 }, result.2)
  | .controllerUpdate update => ({ s with context := s.context.postUpdates cfg update }, .nothing)

/-- The state after a section. -/
def step (s : VideoStream) (a : StreamAction) : VideoStream :=
  (s.perform cfg a).1

end VideoStream

/-! ## What a section can do -/

namespace StreamContext

/-- The sizes of the probe. -/
def probeSizes (c : StreamContext) : Option (Size × Size) :=
  c.resolutionUpgradeProbe.map fun p => (p.base, p.target)

/-- What the sections of `MaybeDegradeResolutionOnEncodeTime` can do to the sizes of a stream. -/
inductive EncodeStep (cfg : AdaptationConfig) (c c' : StreamContext) : EncodeOutcome → Prop
  | kept {outcome : EncodeOutcome} (houtcome : outcome = .nothing ∨
      ∃ speed, outcome = .setEncodingSpeedPriority speed) (htarget : c'.target = c.target)
      (hprobe : c'.probeSizes = c.probeSizes) : EncodeStep cfg c c' outcome
  | failed {base tried : Size} (hprobe : c.probeSizes = some (base, tried))
      (htarget : c'.target = some base) (hcleared : c'.probeSizes = none) :
      EncodeStep cfg c c' .probeFailed
  | succeeded (htarget : c'.target = c.target) (hcleared : c'.probeSizes = none) :
      EncodeStep cfg c c' .probeSucceeded
  | started {base next : Size} (hallowed : cfg.maintainResolution = false)
      (hidle : c.probeSizes = none) (hbase : c.target = some base)
      (htarget : c'.target = some next) (hprobe : c'.probeSizes = some (base, next)) (hlarger : base.area < next.area)
      (hceiling : ∀ mapped, c.mappedTarget = some mapped → next.area ≤ mapped.area)
      (hrung : cfg.adapter.getNextHigherResolution base c.source = some next ∨
        c.mappedTarget = some next) : EncodeStep cfg c c' .probeStarted
  | downgraded {base : Size} {steps : Nat}
      (htarget : c'.target = some (lowerSteps cfg.adapter c.source steps base))
      (hless : (lowerSteps cfg.adapter c.source steps base).width < base.width)
      (hcleared : c'.probeSizes = none) : EncodeStep cfg c c' .downgraded

/-- A section of `MaybeDegradeResolutionOnEncodeTime` with its outcome. -/
structure EncodeSection (cfg : AdaptationConfig) (c : StreamContext)
    (result : StreamContext × EncodeOutcome) : Prop where
  step : EncodeStep cfg c result.1 result.2
  source : result.1.source = c.source
  mapped : result.1.mappedTarget = c.mappedTarget

variable {cfg : AdaptationConfig} {c : StreamContext} {r : EncodeReport}

/-- A section that does nothing. -/
theorem section_nothing : EncodeSection cfg c (c, .nothing) :=
  ⟨.kept (Or.inl rfl) rfl rfl, rfl, rfl⟩

theorem evaluate_probe_section {p : UpgradeProbe} (hp : c.resolutionUpgradeProbe = some p) :
    EncodeSection cfg c (c.evaluateProbe cfg r p) := by
  have hsizes : c.probeSizes = some (p.base, p.target) := by
    unfold probeSizes
    rw [hp]
    rfl
  unfold evaluateProbe
  simp only
  split_ifs
  · exact ⟨.failed hsizes rfl rfl, rfl, rfl⟩
  · exact ⟨.succeeded rfl rfl, rfl, rfl⟩
  · exact section_nothing

/-- The rung or the cap, and not more than the cap. -/
theorem cap_to_mapped_spec (mapped : Option Size) (next : Size) :
    (∀ m, mapped = some m → (capToMapped mapped next).area ≤ m.area) ∧
      (capToMapped mapped next = next ∨ mapped = some (capToMapped mapped next)) := by
  unfold capToMapped
  cases mapped with
  | none => exact ⟨fun m h => (by cases h), Or.inl rfl⟩
  | some mapped =>
      simp only
      split_ifs with hover
      · exact ⟨fun m h => by rw [Option.some.inj h], Or.inr rfl⟩
      · exact ⟨fun m h => by rw [← Option.some.inj h]; exact Nat.not_lt.mp hover, Or.inl rfl⟩

theorem maybe_upgrade_section (hallowed : cfg.maintainResolution = false)
    (hidle : c.probeSizes = none) : EncodeSection cfg c (c.maybeUpgrade cfg r) := by
  unfold maybeUpgrade
  cases hbase : c.target with
  | none => exact section_nothing
  | some base =>
      simp only
      split_ifs with hhealth hcooldown hbackoff
      · exact section_nothing
      · exact section_nothing
      · exact section_nothing
      · cases hnext : cfg.adapter.getNextHigherResolution base c.source with
        | none => exact section_nothing
        | some next =>
            obtain ⟨hceiling, hcapped⟩ := cap_to_mapped_spec c.mappedTarget next
            simp only
            split_ifs with hsame
            · exact section_nothing
            · refine ⟨.started hallowed hidle hbase rfl rfl (Nat.not_le.mp hsame) hceiling ?_, rfl,
                rfl⟩
              rcases hcapped with hladder | hmapped
              · exact Or.inl (by rw [hnext, hladder])
              · exact Or.inr hmapped

theorem maybe_downgrade_section : EncodeSection cfg c (c.maybeDowngrade cfg r) := by
  unfold maybeDowngrade
  simp only
  split_ifs with hcooldown hsame
  · exact section_nothing
  · exact section_nothing
  · exact ⟨.downgraded rfl (by omega) rfl, rfl, rfl⟩

theorem adapt_resolution_section (hallowed : cfg.maintainResolution = false) :
    EncodeSection cfg c (c.adaptResolution cfg r) := by
  unfold adaptResolution
  cases hprobe : c.resolutionUpgradeProbe with
  | some p => exact evaluate_probe_section hprobe
  | none =>
      simp only
      split_ifs
      · exact section_nothing
      · refine maybe_upgrade_section hallowed ?_
        unfold probeSizes
        rw [hprobe]
        rfl
      · exact maybe_downgrade_section

theorem maybe_restore_quality_section (hallowed : cfg.maintainResolution = false) :
    EncodeSection cfg c (c.maybeRestoreQuality cfg r) := by
  unfold maybeRestoreQuality
  split_ifs
  · exact ⟨.kept (Or.inr ⟨false, rfl⟩) rfl rfl, rfl, rfl⟩
  · exact adapt_resolution_section hallowed

/-- The sizes of a stream do not depend on the number of frames of a probe. -/
theorem EncodeSection.of_counted {counted : StreamContext}
    {result : StreamContext × EncodeOutcome} (h : EncodeSection cfg counted result)
    (htarget : counted.target = c.target) (hprobe : counted.probeSizes = c.probeSizes)
    (hsource : counted.source = c.source) (hmapped : counted.mappedTarget = c.mappedTarget) :
    EncodeSection cfg c result := by
  obtain ⟨hstep, hsource', hmapped'⟩ := h
  refine ⟨?_, hsource'.trans hsource, hmapped'.trans hmapped⟩
  generalize result.1 = c', result.2 = outcome at hstep
  cases hstep with
  | kept houtcome ht hp => exact .kept houtcome (ht.trans htarget) (hp.trans hprobe)
  | failed hp ht hcleared => exact .failed (hprobe.symm.trans hp) ht hcleared
  | succeeded ht hcleared => exact .succeeded (ht.trans htarget) hcleared
  | started hallowed hidle hbase ht hp hlarger hceiling hrung =>
      rw [hsource, hmapped] at hrung
      rw [hmapped] at hceiling
      exact .started hallowed (hprobe.symm.trans hidle) (htarget.symm.trans hbase) ht hp hlarger hceiling hrung
  | downgraded ht hless hcleared =>
      rw [hsource] at ht hless
      exact .downgraded ht hless hcleared

theorem on_encoded_section : EncodeSection cfg c (c.onEncoded cfg r) := by
  have hcount : ∀ result, EncodeSection cfg c.countProbeSample result →
      EncodeSection cfg c result := by
    intro result h
    refine h.of_counted rfl ?_ rfl rfl
    unfold probeSizes countProbeSample
    cases c.resolutionUpgradeProbe <;> rfl
  unfold onEncoded
  simp only
  split_ifs with hmaintain
  · exact hcount _ section_nothing
  · exact hcount _ ⟨.kept (Or.inr ⟨true, rfl⟩) rfl rfl, rfl, rfl⟩
  · exact hcount _ (maybe_restore_quality_section (by simpa using hmaintain))

theorem on_priority_set_section {prioritizeSpeed : Bool} {changed : Option Bool} :
    EncodeSection cfg c (c.onPrioritySet cfg r prioritizeSpeed changed) := by
  unfold onPrioritySet
  by_cases hmaintain : cfg.maintainResolution = true
  · rw [if_pos hmaintain]
    exact section_nothing
  · rw [if_neg hmaintain]
    have hallowed : cfg.maintainResolution = false := by simpa using hmaintain
    match changed with
    | none => exact section_nothing
    | some true => exact ⟨.kept (Or.inl rfl) rfl rfl, rfl, rfl⟩
    | some false =>
        simp only
        split_ifs
        · exact maybe_restore_quality_section hallowed
        · exact adapt_resolution_section hallowed

/-- A size that `GetResolution` gives for the source. -/
def IsMapped (cfg : AdaptationConfig) (source next : Size) : Prop :=
  ∃ targetBitrate, cfg.adapter.getResolution targetBitrate source = some next

/-- What `PostUpdates` can do to the sizes of a stream with a source. -/
inductive UpdateStep (cfg : AdaptationConfig) (source : Size) (c c' : StreamContext) : Prop
  | kept (htarget : c'.target = c.target) (hprobe : c'.probeSizes = c.probeSizes)
      (hmapped : c'.mappedTarget = c.mappedTarget ∨
        c'.mappedTarget = some (c.target.getD source) ∨
          ∃ next, IsMapped cfg source next ∧ c'.mappedTarget = some next)
  | restored {quality : Size} (hmaintain : cfg.maintainResolution = true)
      (hquality : IsMapped cfg source quality) (hprobe : c'.probeSizes = c.probeSizes)
      (htarget : c'.target = none ∨ c'.target = some quality)
      (hmapped : c'.mappedTarget = some quality)
  | downgraded {mapped next : Size} (hallowed : cfg.maintainResolution = false)
      (hquality : IsMapped cfg source mapped)
      (hmeaningful : mapped.area < (c.target.getD source).area)
      (hrung : next = mapped ∨ mapped.area ≤ next.area ∧
        cfg.adapter.getNextLowerResolution (c.target.getD source) source = some next)
      (htarget : c'.target = some next) (hmapped : c'.mappedTarget = some mapped)
      (hcleared : c'.probeSizes = none)

variable {u : ControllerUpdate} {source : Size}

/-- What waits for confirmation and what is held do not matter for the sizes. -/
structure SameSizes (c c' : StreamContext) : Prop where
  source : c'.source = c.source
  target : c'.target = c.target
  mapped : c'.mappedTarget = c.mappedTarget
  probe : c'.probeSizes = c.probeSizes

theorem update_static_content_sizes : SameSizes c (c.updateStaticContent cfg u) := by
  unfold updateStaticContent
  simp only
  split_ifs <;> exact ⟨rfl, rfl, rfl, rfl⟩

theorem hold_static_content_step :
    UpdateStep cfg source c (c.holdStaticContent cfg u source) := by
  unfold holdStaticContent
  by_cases hmaintain : cfg.maintainResolution = true
  · simp only [hmaintain, Bool.not_true, Bool.false_eq_true, if_false]
    cases hquality : cfg.adapter.getResolution 2147483647 source with
    | none => exact .kept rfl rfl (Or.inl rfl)
    | some quality =>
        have hmapped : IsMapped cfg source quality := ⟨_, hquality⟩
        simp only
        split_ifs with hnative hchanged hchanged
        · exact .restored hmaintain hmapped rfl (Or.inl rfl) rfl
        · exact .kept rfl rfl (Or.inr (Or.inr ⟨quality, hmapped, rfl⟩))
        · exact .restored hmaintain hmapped rfl (Or.inr rfl) rfl
        · exact .kept rfl rfl (Or.inr (Or.inr ⟨quality, hmapped, rfl⟩))
  · simp only [hmaintain, Bool.not_false, if_true]
    refine .kept rfl rfl ?_
    show some (c.mappedTarget.getD (c.target.getD source)) = c.mappedTarget ∨ _
    cases c.mappedTarget with
    | none => exact Or.inr (Or.inl rfl)
    | some mapped => exact Or.inl rfl

theorem apply_mapping_step {mapped : Size} (hmapped : IsMapped cfg source mapped) :
    UpdateStep cfg source c (c.applyMapping cfg u source mapped) := by
  unfold applyMapping
  simp only
  split_ifs with hdowngrade
  · unfold shouldApplyBandwidthResolutionDowngrade isMeaningfulBandwidthDownscale at hdowngrade
    simp only [Bool.and_eq_true, Bool.not_eq_true', decide_eq_true_eq] at hdowngrade
    obtain ⟨⟨⟨hallowed, -, -, hmeaningful, -⟩, -⟩, -⟩ := hdowngrade
    refine .downgraded hallowed hmapped hmeaningful ?_ rfl rfl rfl
    cases hnext : cfg.adapter.getNextLowerResolution (c.target.getD source) source with
    | none => exact Or.inl rfl
    | some next =>
        simp only
        split_ifs with hlarge
        · exact Or.inr ⟨hlarge, rfl⟩
        · exact Or.inl rfl
  · exact .kept rfl rfl (Or.inr (Or.inr ⟨mapped, hmapped, rfl⟩))

/-- The sizes decide what a step is, and the current size may have become the ceiling before. -/
theorem UpdateStep.of_before {before c' : StreamContext} (h : UpdateStep cfg source before c')
    (htarget : before.target = c.target) (hprobe : before.probeSizes = c.probeSizes)
    (hmapped : before.mappedTarget = c.mappedTarget ∨
      before.mappedTarget = some (c.target.getD source)) : UpdateStep cfg source c c' := by
  cases h with
  | kept ht hp hm =>
      rw [htarget] at hm
      refine .kept (ht.trans htarget) (hp.trans hprobe) ?_
      rcases hm with hsame | hcurrent | hnew
      · rcases hmapped with hold | hcurrent
        · exact Or.inl (hsame.trans hold)
        · exact Or.inr (Or.inl (hsame.trans hcurrent))
      · exact Or.inr (Or.inl hcurrent)
      · exact Or.inr (Or.inr hnew)
  | restored hmaintain hquality hp ht hm =>
      exact .restored hmaintain hquality (hp.trans hprobe) ht hm
  | downgraded hallowed hquality hmeaningful hrung ht hm hcleared =>
      rw [htarget] at hmeaningful hrung
      exact .downgraded hallowed hquality hmeaningful hrung ht hm hcleared

theorem map_bandwidth_step : UpdateStep cfg source c (c.mapBandwidth cfg u source) := by
  unfold mapBandwidth
  cases hmapped : cfg.adapter.getResolution u.subTargetBitrate source with
  | none => exact .kept rfl rfl (Or.inl rfl)
  | some mapped =>
      simp only
      split_ifs with hpending hstable
      · exact .kept rfl rfl (Or.inl rfl)
      · exact .kept rfl rfl (Or.inl rfl)
      · exact (apply_mapping_step ⟨_, hmapped⟩).of_before rfl rfl (Or.inl rfl)

/-- `PostUpdates` does one of these to a stream with a source, and nothing to one without. -/
theorem post_updates_step (cfg : AdaptationConfig) (c : StreamContext) (u : ControllerUpdate) :
    (c.sourceOf u = none ∧ c.postUpdates cfg u = c) ∨
      ∃ source, c.sourceOf u = some source ∧ UpdateStep cfg source c (c.postUpdates cfg u) := by
  unfold postUpdates
  cases hsource : c.sourceOf u with
  | none => exact Or.inl ⟨rfl, rfl⟩
  | some source =>
      refine Or.inr ⟨source, rfl, ?_⟩
      have hstatic : SameSizes c (c.updateStaticContent cfg u) := update_static_content_sizes
      obtain ⟨-, htarget, hmapped, hprobe⟩ := hstatic
      simp only
      generalize c.updateStaticContent cfg u = held at *
      split_ifs with hentering hfrozen hwas
      · exact .kept htarget hprobe (Or.inl hmapped)
      · exact hold_static_content_step.of_before htarget hprobe (Or.inl hmapped)
      · exact map_bandwidth_step.of_before htarget hprobe
          (Or.inr (congrArg (fun t => some (Option.getD t source)) htarget))
      · exact map_bandwidth_step.of_before htarget hprobe (Or.inl hmapped)

/-- The source is that of the frames. -/
theorem post_updates_source : (c.postUpdates cfg u).source = c.source := by
  have hstatic : (c.updateStaticContent cfg u).source = c.source :=
    update_static_content_sizes.source
  have hhold : ∀ (d : StreamContext) (source : Size),
      (d.holdStaticContent cfg u source).source = d.source := by
    intro d source
    unfold holdStaticContent
    split
    · rfl
    · split
      · rfl
      · simp only
        split_ifs <;> rfl
  have hmap : ∀ (d : StreamContext) (source : Size),
      (d.mapBandwidth cfg u source).source = d.source := by
    intro d source
    unfold mapBandwidth applyMapping
    split
    · rfl
    · simp only
      split_ifs <;> rfl
  unfold postUpdates
  split
  · rfl
  · simp only
    split_ifs
    · exact hstatic
    · exact (hhold _ _).trans hstatic
    · exact (hmap _ _).trans hstatic
    · exact (hmap _ _).trans hstatic

end StreamContext

end MiniRtc.Adaptation
