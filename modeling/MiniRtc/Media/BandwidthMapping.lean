import MiniRtc.Media.StreamContext

/-!
# The steps of a bandwidth ceiling

`PostUpdates` lowers the resolution towards that of the bandwidth estimate by one rung when the
estimate has mapped to the same size for two seconds. It then forgets since when, but not to what, so
that an estimate which stays the same is never stable again: there is one decisive update, and the
rung that it goes down has to be enough. `ceiling_reached_iff` says when it is.
-/

namespace MiniRtc.Adaptation

namespace StreamContext

variable {cfg : AdaptationConfig} {c : StreamContext} {source mapped : Size} {u : ControllerUpdate}
  {updates : List ControllerUpdate}

/-- The size that frames are scaled to. -/
def current (c : StreamContext) (source : Size) : Size :=
  c.target.getD source

/-- The mapped size has at most four fifths of the current area. -/
def IsAbove (current mapped : Size) : Prop :=
  isMeaningfulBandwidthDownscale current.area mapped.area = true

instance (current mapped : Size) : Decidable (IsAbove current mapped) :=
  inferInstanceAs (Decidable (_ = _))

/-- The size after one downgrade: the next rung, or the mapped size when the rung is smaller. -/
def oneRungDown (cfg : AdaptationConfig) (source mapped current : Size) : Size :=
  match cfg.adapter.getNextLowerResolution current source with
  | some next => if next.area ≥ mapped.area then next else mapped
  | none => mapped

/-- Neither the startup grace nor the cooldown forbids a change. -/
def MayChange (c : StreamContext) (nowMs : ℤ) : Prop :=
  isBandwidthStartupGraceElapsed nowMs c.sourceResolutionInitializedMs = true ∧
    c.lastResolutionChangeMs ≤ nowMs ∧
      kBandwidthResolutionCooldownMs ≤ nowMs - c.lastResolutionChangeMs

instance (c : StreamContext) (nowMs : ℤ) : Decidable (c.MayChange nowMs) :=
  inferInstanceAs (Decidable (_ ∧ _ ∧ _))

/-- An update of which the estimate maps to `mapped`, without static content. -/
structure MapsTo (cfg : AdaptationConfig) (c : StreamContext) (source mapped : Size)
    (u : ControllerUpdate) : Prop where
  known : c.sourceOf u = some source
  moving : u.isStaticContentCandidate cfg = false
  resolution : cfg.adapter.getResolution u.subTargetBitrate source = some mapped

/-- The updates of a fixed estimate, in a mode that allows downgrades and without a hold. -/
structure FixedEstimate (cfg : AdaptationConfig) (c : StreamContext) (source mapped : Size)
    (updates : List ControllerUpdate) : Prop where
  allowed : cfg.maintainResolution = false
  unfrozen : c.freezeResolution = false
  updates : ∀ u ∈ updates, MapsTo cfg c source mapped u

/-- The stream after some updates. -/
def postAll (cfg : AdaptationConfig) (c : StreamContext) (updates : List ControllerUpdate) :
    StreamContext :=
  updates.foldl (fun c u => c.postUpdates cfg u) c

/-- The first update at which the mapping has been stable. The mapping waits already, or else since
the first update. -/
def decisiveUpdate (c : StreamContext) (mapped : Size) (updates : List ControllerUpdate) :
    Option ControllerUpdate :=
  if c.pendingMapped = some mapped then
    updates.find? fun u => isBandwidthMappingStable u.nowMs c.pendingMappedSinceMs
  else
    match updates with
    | [] => none
    | first :: rest => rest.find? fun u => isBandwidthMappingStable u.nowMs first.nowMs

/-- The size after the decisive update, which no later update changes. -/
def decidedSize (cfg : AdaptationConfig) (c : StreamContext) (source mapped : Size) :
    Option ControllerUpdate → Size
  | none => c.current source
  | some u =>
      if IsAbove (c.current source) mapped ∧ c.MayChange u.nowMs then
        oneRungDown cfg source mapped (c.current source)
      else c.current source

/-! ## One update -/

/-- What an update that waits leaves alone. -/
structure SameTimers (c c' : StreamContext) : Prop where
  source : c'.source = c.source
  target : c'.target = c.target
  initialized : c'.sourceResolutionInitializedMs = c.sourceResolutionInitializedMs
  changed : c'.lastResolutionChangeMs = c.lastResolutionChangeMs
  frozen : c'.freezeResolution = c.freezeResolution

/-- Without static content only the candidate is recorded. -/
theorem update_static_content_moving (hunfrozen : c.freezeResolution = false)
    (hmoving : u.isStaticContentCandidate cfg = false) :
    SameTimers c (c.updateStaticContent cfg u) ∧
      (c.updateStaticContent cfg u).pendingMapped = c.pendingMapped ∧
        (c.updateStaticContent cfg u).pendingMappedSinceMs = c.pendingMappedSinceMs := by
  unfold updateStaticContent
  simp only [hmoving]
  split_ifs with hnew hfreeze hcritical hexit hfreeze hcritical hexit <;>
    first
    | exact ⟨⟨rfl, rfl, rfl, rfl, rfl⟩, rfl, rfl⟩
    | simp [hunfrozen] at *

/-- An update without static content goes on to the mapping. -/
theorem post_updates_moving (hunfrozen : c.freezeResolution = false)
    (hu : MapsTo cfg c source mapped u) :
    c.postUpdates cfg u = (c.updateStaticContent cfg u).mapBandwidth cfg u source := by
  obtain ⟨⟨-, -, -, -, hfrozen⟩, -, -⟩ := update_static_content_moving hunfrozen hu.moving
  unfold postUpdates
  rw [hu.known]
  simp only [hfrozen, hunfrozen, hu.moving, Bool.and_false, Bool.false_eq_true, if_false]

/-- A new mapping starts to wait. -/
theorem post_updates_new (hunfrozen : c.freezeResolution = false)
    (hu : MapsTo cfg c source mapped u) (hnew : c.pendingMapped ≠ some mapped) :
    SameTimers c (c.postUpdates cfg u) ∧ (c.postUpdates cfg u).pendingMapped = some mapped ∧
      (c.postUpdates cfg u).pendingMappedSinceMs = u.nowMs := by
  obtain ⟨⟨hsource, htarget, hinit, hchange, hfrozen⟩, hpending, -⟩ :=
    update_static_content_moving hunfrozen hu.moving
  rw [post_updates_moving hunfrozen hu]
  unfold mapBandwidth
  rw [hu.resolution]
  simp only [hpending]
  rw [if_pos hnew]
  exact ⟨⟨hsource, htarget, hinit, hchange, hfrozen⟩, rfl, rfl⟩

/-- A mapping that is not stable goes on waiting. -/
theorem post_updates_waiting (hunfrozen : c.freezeResolution = false)
    (hu : MapsTo cfg c source mapped u) (hpending : c.pendingMapped = some mapped)
    (hwait : isBandwidthMappingStable u.nowMs c.pendingMappedSinceMs = false) :
    SameTimers c (c.postUpdates cfg u) ∧ (c.postUpdates cfg u).pendingMapped = some mapped ∧
      (c.postUpdates cfg u).pendingMappedSinceMs = c.pendingMappedSinceMs := by
  obtain ⟨⟨hsource, htarget, hinit, hchange, hfrozen⟩, hsame, hsince⟩ :=
    update_static_content_moving hunfrozen hu.moving
  rw [← hsince] at hwait ⊢
  have hwaits := hsame.trans hpending
  rw [post_updates_moving hunfrozen hu]
  unfold mapBandwidth
  rw [hu.resolution]
  simp only
  rw [if_neg (not_not.mpr hwaits), hwait, if_pos (by decide)]
  exact ⟨⟨hsource, htarget, hinit, hchange, hfrozen⟩, hwaits, rfl⟩

/-- A downgrade is applied to a size that is above the mapped one and may change. -/
theorem should_apply_iff (c : StreamContext) (mapped : Size)
    (hallowed : cfg.maintainResolution = false) (current : Size) (nowMs : ℤ) :
    shouldApplyBandwidthResolutionDowngrade (!cfg.maintainResolution) nowMs
        c.sourceResolutionInitializedMs c.lastResolutionChangeMs current.area mapped.area = true ↔
      IsAbove current mapped ∧ c.MayChange nowMs := by
  unfold shouldApplyBandwidthResolutionDowngrade IsAbove MayChange
  simp [hallowed, and_assoc]

/-- A stable mapping goes down one rung when it may, and then waits since time `0`. -/
theorem map_bandwidth_stable (hallowed : cfg.maintainResolution = false)
    (hresolution : cfg.adapter.getResolution u.subTargetBitrate source = some mapped)
    (hpending : c.pendingMapped = some mapped)
    (hstable : isBandwidthMappingStable u.nowMs c.pendingMappedSinceMs = true) :
    (c.mapBandwidth cfg u source).source = c.source ∧
      (c.mapBandwidth cfg u source).freezeResolution = c.freezeResolution ∧
        (c.mapBandwidth cfg u source).pendingMapped = some mapped ∧
          (c.mapBandwidth cfg u source).pendingMappedSinceMs = 0 ∧
            (c.mapBandwidth cfg u source).current source =
              decidedSize cfg c source mapped (some u) := by
  have happlies := c.should_apply_iff mapped hallowed (c.current source) u.nowMs
  have hcurrent : c.target.getD source = c.current source := rfl
  unfold mapBandwidth decidedSize
  rw [hresolution]
  simp only
  rw [if_neg (not_not.mpr hpending), hstable, if_neg (by decide)]
  unfold applyMapping
  simp only [hcurrent]
  by_cases hdown : IsAbove (c.current source) mapped ∧ c.MayChange u.nowMs
  · rw [if_pos hdown, if_pos (happlies.mpr hdown)]
    exact ⟨rfl, rfl, hpending, rfl, rfl⟩
  · rw [if_neg hdown, if_neg (fun h => hdown (happlies.mp h))]
    exact ⟨rfl, rfl, hpending, rfl, rfl⟩

/-- What an update leaves alone decides the size. -/
theorem decided_size_same {c' : StreamContext} (hsame : SameTimers c c')
    (decisive : Option ControllerUpdate) :
    decidedSize cfg c' source mapped decisive = decidedSize cfg c source mapped decisive := by
  have hcurrent : c'.current source = c.current source :=
    congrArg (fun t => Option.getD t source) hsame.target
  have hmay : ∀ nowMs, c'.MayChange nowMs ↔ c.MayChange nowMs := by
    intro nowMs
    unfold MayChange
    rw [hsame.initialized, hsame.changed]
  cases decisive with
  | none => exact hcurrent
  | some u => simp only [decidedSize, hcurrent, hmay]

/-! ## All updates -/

/-- An update that keeps the source keeps the estimates of the later ones. -/
theorem fixed_estimate_rest {c' : StreamContext}
    (h : FixedEstimate cfg c source mapped (u :: updates)) (hsource : c'.source = c.source) (hfrozen : c'.freezeResolution = false) :
    FixedEstimate cfg c' source mapped updates := by
  refine ⟨h.allowed, hfrozen, fun u hu => ?_⟩
  obtain ⟨hknown, hmoving, hresolution⟩ := h.updates u (List.mem_cons_of_mem _ hu)
  refine ⟨?_, hmoving, hresolution⟩
  rw [← hknown]
  unfold sourceOf
  rw [hsource]

/-- A mapping that waits since time `0` waits for ever. -/
theorem post_all_blocked (h : FixedEstimate cfg c source mapped updates)
    (hpending : c.pendingMapped = some mapped) (hsince : c.pendingMappedSinceMs = 0) :
    (c.postAll cfg updates).current source = c.current source := by
  induction updates generalizing c with
  | nil => rfl
  | cons u rest ih =>
      have hnever : isBandwidthMappingStable u.nowMs c.pendingMappedSinceMs = false := by
        unfold isBandwidthMappingStable
        rw [hsince]
        exact decide_eq_false fun hstable => absurd hstable.1 (lt_irrefl _)
      obtain ⟨hsame, hwaits, hsince'⟩ := post_updates_waiting h.unfrozen
        (h.updates u List.mem_cons_self) hpending hnever
      have hrest := fixed_estimate_rest h hsame.source (hsame.frozen.trans h.unfrozen)
      show (postAll cfg (c.postUpdates cfg u) rest).current source = c.current source
      rw [ih hrest hwaits (hsince'.trans hsince)]
      exact congrArg (fun t => Option.getD t source) hsame.target

/-- The updates for a mapping that waits already. -/
theorem post_all_waiting (h : FixedEstimate cfg c source mapped updates)
    (hpending : c.pendingMapped = some mapped) :
    (c.postAll cfg updates).current source = decidedSize cfg c source mapped
      (updates.find? fun u => isBandwidthMappingStable u.nowMs c.pendingMappedSinceMs) := by
  induction updates generalizing c with
  | nil => rfl
  | cons u rest ih =>
      show (postAll cfg (c.postUpdates cfg u) rest).current source = _
      by_cases hstable : isBandwidthMappingStable u.nowMs c.pendingMappedSinceMs = true
      · -- this update decides, and blocks all others
        have hu := h.updates u List.mem_cons_self
        obtain ⟨hsame, hpending', hsince'⟩ := update_static_content_moving h.unfrozen hu.moving
        rw [post_updates_moving h.unfrozen hu]
        obtain ⟨hsource, hfrozen, hwaits, hsince, hdecided⟩ := map_bandwidth_stable h.allowed
          hu.resolution (hpending'.trans hpending) (hsince'.symm ▸ hstable)
        rw [List.find?_cons_of_pos (by simpa using hstable),
          post_all_blocked (fixed_estimate_rest h (hsource.trans hsame.source)
            (hfrozen.trans (hsame.frozen.trans h.unfrozen))) hwaits hsince, hdecided]
        exact decided_size_same hsame _
      · have hwait : isBandwidthMappingStable u.nowMs c.pendingMappedSinceMs = false := by
          simpa using hstable
        obtain ⟨hsame, hwaits, hsince⟩ := post_updates_waiting h.unfrozen
          (h.updates u List.mem_cons_self) hpending hwait
        rw [List.find?_cons_of_neg (by simpa using hstable),
          ih (fixed_estimate_rest h hsame.source (hsame.frozen.trans h.unfrozen)) hwaits, hsince]
        exact decided_size_same hsame _

/-- The size after all updates is decided by one of them. -/
theorem post_all_current (h : FixedEstimate cfg c source mapped updates) :
    (c.postAll cfg updates).current source =
      decidedSize cfg c source mapped (c.decisiveUpdate mapped updates) := by
  unfold decisiveUpdate
  split_ifs with hpending
  · exact post_all_waiting h hpending
  · cases updates with
    | nil => rfl
    | cons first rest =>
        obtain ⟨hsame, hwaits, hsince⟩ := post_updates_new h.unfrozen
          (h.updates first List.mem_cons_self) hpending
        show (postAll cfg (c.postUpdates cfg first) rest).current source = _
        rw [post_all_waiting (fixed_estimate_rest h hsame.source (hsame.frozen.trans h.unfrozen))
          hwaits, hsince]
        exact decided_size_same hsame _

/-- The updates of a fixed estimate reach its size exactly when the stream is there already, or one
rung is enough and the decisive update comes after the startup grace and the cooldown. -/
theorem ceiling_reached_iff (h : FixedEstimate cfg c source mapped updates) :
    ¬ IsAbove ((c.postAll cfg updates).current source) mapped ↔
      ¬ IsAbove (c.current source) mapped ∨
        ∃ u, c.decisiveUpdate mapped updates = some u ∧ c.MayChange u.nowMs ∧
          ¬ IsAbove (oneRungDown cfg source mapped (c.current source)) mapped := by
  rw [post_all_current h]
  by_cases habove : IsAbove (c.current source) mapped
  · simp only [habove, not_true_eq_false, false_or]
    cases hdecisive : c.decisiveUpdate mapped updates with
    | none =>
        show ¬ IsAbove (c.current source) mapped ↔ _
        simp [habove]
    | some u =>
        unfold decidedSize
        by_cases hmay : c.MayChange u.nowMs
        · simp [habove, hmay]
        · simp [habove, hmay]
  · have hstays : decidedSize cfg c source mapped (c.decisiveUpdate mapped updates) =
        c.current source := by
      unfold decidedSize
      split
      · rfl
      · exact if_neg fun hdown => habove hdown.1
    rw [hstays]
    simp [habove]

/-! ## An estimate several rungs away -/

/-- The updates come in order, at most one second apart. -/
def Regular (updates : List ControllerUpdate) : Prop :=
  updates.IsChain fun u v => u.nowMs ≤ v.nowMs ∧ v.nowMs ≤ u.nowMs + 1000

instance (updates : List ControllerUpdate) : Decidable (Regular updates) :=
  inferInstanceAs (Decidable (List.IsChain _ _))

/-- The updates go on for the startup grace, the stability of the mapping and seven seconds for each
of the rungs down to the mapped size. -/
def CoversRungs (cfg : AdaptationConfig) (c : StreamContext) (source mapped : Size)
    (updates : List ControllerUpdate) : Prop :=
  ∃ rungs first last, (lowerSteps cfg.adapter source rungs (c.current source)).area ≤ mapped.area ∧
    updates.head? = some first ∧ updates.getLast? = some last ∧
      first.nowMs + kBandwidthResolutionStartupGraceMs + kBandwidthMappingStabilityMs +
        7000 * rungs ≤ last.nowMs

/-- A full-HD stream with a bitrate for `1280` by `720`. -/
def hdBitrateConfig : AdaptationConfig where
  adapter := ⟨.high, .balanced, fun _ => 1280 * 720⟩
  screenContent := true
  maxFrameRate := 30

/-- An update of a good network in which something moves. -/
def movingUpdate (nowMs : ℤ) : ControllerUpdate where
  nowMs
  subTargetBitrate := 1000000
  inAlr := false
  lossRateLow := true
  lossRateCritical := false
  rttMs := 20
  codecResolution := none

/-- Updates in every second from the fourth on. -/
def everySecond (count : Nat) : List ControllerUpdate :=
  (List.range count).map fun i => movingUpdate (4000 + 1000 * i)

/-- A stream that has sent its first frame after one second, and has this target. -/
def streamAt (target : Option Size) : StreamContext :=
  { source := ⟨1920, 1080⟩, sourceResolutionInitializedMs := 1000, target }

example : (VideoStream.sendVideo {} 1000 ⟨1920, 1080⟩ true).context = streamAt none := rfl

theorem every_second_fixed (target : Option Size) (count : Nat) :
    FixedEstimate hdBitrateConfig (streamAt target) ⟨1920, 1080⟩ ⟨1280, 720⟩
      (everySecond count) := by
  refine ⟨rfl, rfl, fun u hu => ?_⟩
  obtain ⟨i, -, rfl⟩ := List.mem_map.mp hu
  have hresolution : hdBitrateConfig.adapter.getResolution 1000000 ⟨1920, 1080⟩ =
      some ⟨1280, 720⟩ := by
    decide +kernel
  exact ⟨rfl, rfl, hresolution⟩

/-- One rung above the mapped size the updates get there. -/
theorem ceiling_reached_from_next_rung :
    ¬ IsAbove (((streamAt (some ⟨1504, 846⟩)).postAll hdBitrateConfig (everySecond 4)).current
      ⟨1920, 1080⟩) ⟨1280, 720⟩ := by
  rw [ceiling_reached_iff (every_second_fixed _ 4)]
  refine Or.inr ⟨movingUpdate 6000, rfl, ?_, ?_⟩
  · decide +kernel
  · decide +kernel

/-- Four rungs above it the second one is never gone down. -/
theorem ceiling_not_reached_from_source :
    ¬ ∀ updates, FixedEstimate hdBitrateConfig (streamAt none) ⟨1920, 1080⟩ ⟨1280, 720⟩ updates →
      Regular updates →
        CoversRungs hdBitrateConfig (streamAt none) ⟨1920, 1080⟩ ⟨1280, 720⟩ updates →
          ¬ IsAbove (((streamAt none).postAll hdBitrateConfig updates).current ⟨1920, 1080⟩)
            ⟨1280, 720⟩ := by
  intro hreaches
  have hcovers : CoversRungs hdBitrateConfig (streamAt none) ⟨1920, 1080⟩ ⟨1280, 720⟩
      (everySecond 36) := by
    refine ⟨4, movingUpdate 4000, movingUpdate 39000, ?_, rfl, rfl, ?_⟩
    · decide +kernel
    · decide
  have hregular : Regular (everySecond 36) := by
    decide +kernel
  refine hreaches (everySecond 36) (every_second_fixed none 36) hregular hcovers ?_
  decide +kernel

end StreamContext

end MiniRtc.Adaptation
