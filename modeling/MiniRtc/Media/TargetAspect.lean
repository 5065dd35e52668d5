import MiniRtc.Media.StreamContext
import MiniRtc.Foundation.Run

/-!
# The aspect ratio of scaled frames

All sizes that adaptation chooses are even and have the aspect ratio of the source that it knows.
`SendVideo` forgets a waiting mapping and a probe when the source changes, but neither the target nor
its ceiling: `SourceFits` says that these two still match. `scaling_keeps_aspect` is about the runs in
which they always do.
-/

namespace MiniRtc

/-- A size that a source may be scaled to. -/
structure Size.Fits (source next : Size) : Prop where
  aspect : next.SameAspect source
  even : next.IsEven

instance (source next : Size) : Decidable (source.Fits next) :=
  decidable_of_iff (next.SameAspect source ∧ next.IsEven)
    ⟨fun h => ⟨h.1, h.2⟩, fun h => ⟨h.aspect, h.even⟩⟩

namespace Adaptation

section Fits

variable {a : ResolutionAdapter} {source current next : Size}

theorem fits_self (heven : source.IsEven) : source.Fits source :=
  ⟨Nat.mul_comm .., heven⟩

/-- The next lower size fits, also where it is the source. -/
theorem next_lower_fits (heven : source.IsEven)
    (h : a.getNextLowerResolution current source = some next) : source.Fits next := by
  by_cases hsmall : current.area ≤ source.area
  · obtain ⟨haspect, hnext, -⟩ := ResolutionAdapter.next_lower_spec hsmall h
    exact ⟨haspect, hnext⟩
  · obtain ⟨rest, hlimits⟩ := a.get_bitrate_limits_front
    unfold ResolutionAdapter.getNextLowerResolution at h
    rw [hlimits] at h
    simp only [if_pos (Nat.not_le.mp hsmall)] at h
    split_ifs at h
    rw [← Option.some.inj h]
    exact fits_self heven

theorem next_higher_fits (h : a.getNextHigherResolution current source = some next) :
    source.Fits next := by
  obtain ⟨haspect, heven, -⟩ := ResolutionAdapter.next_higher_spec h
  exact ⟨haspect, heven⟩

/-- A downgrade that gets anywhere ends at a size that fits. -/
theorem lower_steps_fits (heven : source.IsEven) (steps : Nat) (current : Size) :
    lowerSteps a source steps current = current ∨
      source.Fits (lowerSteps a source steps current) := by
  induction steps generalizing current with
  | zero => exact Or.inl rfl
  | succ steps ih =>
      unfold lowerSteps
      cases hnext : a.getNextLowerResolution current source with
      | none => exact Or.inl rfl
      | some next =>
          right
          simp only
          rcases ih next with hsame | hfits
          · rw [hsame]
            exact next_lower_fits heven hnext
          · exact hfits

theorem mapped_fits {cfg : AdaptationConfig} (h : StreamContext.IsMapped cfg source next) :
    source.Fits next := by
  obtain ⟨targetBitrate, hresolution⟩ := h
  obtain ⟨haspect, heven, -⟩ := ResolutionAdapter.get_resolution_spec hresolution
  exact ⟨haspect, heven⟩

end Fits

namespace StreamContext

variable {cfg : AdaptationConfig} {c c' : StreamContext} {source : Size}

/-- The sizes of a stream fit a source. -/
structure SizesFit (source : Size) (c : StreamContext) : Prop where
  target : ∀ t ∈ c.target, source.Fits t
  mapped : ∀ m ∈ c.mappedTarget, source.Fits m
  base : ∀ sizes ∈ c.probeSizes, source.Fits sizes.1

theorem sizes_fit_target (h : c.SizesFit source) (heven : source.IsEven) :
    source.Fits (c.target.getD source) := by
  cases htarget : c.target with
  | none => exact fits_self heven
  | some t => exact h.target t htarget

/-- The sections of an encoded frame choose sizes that fit. -/
theorem sizes_fit_encode {result : StreamContext × EncodeOutcome} (h : c.SizesFit source)
    (heven : source.IsEven) (hsource : c.source = source)
    (hsection : EncodeSection cfg c result) : result.1.SizesFit source := by
  obtain ⟨hstep, -, hmapped⟩ := hsection
  generalize result.1 = c', result.2 = outcome at *
  have hceiling : ∀ m ∈ c'.mappedTarget, source.Fits m := by
    rw [hmapped]
    exact h.mapped
  cases hstep with
  | kept houtcome htarget hprobe =>
      exact ⟨by rw [htarget]; exact h.target, hceiling, by rw [hprobe]; exact h.base⟩
  | failed hprobe htarget hcleared =>
      refine ⟨fun t ht => ?_, hceiling, by rw [hcleared]; exact fun sizes hsizes => by cases hsizes⟩
      rw [htarget] at ht
      exact Option.some.inj ht ▸ h.base _ hprobe
  | succeeded htarget hcleared =>
      exact ⟨by rw [htarget]; exact h.target, hceiling, by
        rw [hcleared]; exact fun sizes hsizes => by cases hsizes⟩
  | started hallowed hidle hbase htarget hprobe hlarger hcapped hrung =>
      refine ⟨fun t ht => ?_, hceiling, fun sizes hsizes => ?_⟩
      · rw [htarget] at ht
        rw [← Option.some.inj ht]
        rcases hrung with hnext | hcap
        · exact next_higher_fits (hsource ▸ hnext)
        · exact h.mapped _ hcap
      · rw [hprobe] at hsizes
        exact Option.some.inj hsizes ▸ h.target _ hbase
  | downgraded htarget hless hcleared =>
      refine ⟨fun t ht => ?_, hceiling, by rw [hcleared]; exact fun sizes hsizes => by cases hsizes⟩
      rw [htarget] at ht
      rw [← Option.some.inj ht, hsource]
      rw [hsource] at hless
      rcases lower_steps_fits heven _ _ with hsame | hfits
      · rw [hsame] at hless
        exact absurd hless (lt_irrefl _)
      · exact hfits

/-- A controller update chooses sizes that fit. -/
theorem sizes_fit_update (h : c.SizesFit source) (heven : source.IsEven)
    (hstep : UpdateStep cfg source c c') : c'.SizesFit source := by
  cases hstep with
  | kept htarget hprobe hmapped =>
      refine ⟨by rw [htarget]; exact h.target, fun m hm => ?_, by rw [hprobe]; exact h.base⟩
      rcases hmapped with hsame | hcurrent | ⟨next, hnext, hnew⟩
      · exact h.mapped m (hsame ▸ hm)
      · rw [hcurrent] at hm
        exact Option.some.inj hm ▸ sizes_fit_target h heven
      · rw [hnew] at hm
        exact Option.some.inj hm ▸ mapped_fits hnext
  | restored hmaintain hquality hprobe htarget hmapped =>
      refine ⟨fun t ht => ?_, fun m hm => ?_, by rw [hprobe]; exact h.base⟩
      · rcases htarget with hnone | hsome
        · rw [hnone] at ht
          cases ht
        · rw [hsome] at ht
          exact Option.some.inj ht ▸ mapped_fits hquality
      · rw [hmapped] at hm
        exact Option.some.inj hm ▸ mapped_fits hquality
  | downgraded hallowed hquality hmeaningful hrung htarget hmapped hcleared =>
      refine ⟨fun t ht => ?_, fun m hm => ?_, by
        rw [hcleared]; exact fun sizes hsizes => by cases hsizes⟩
      · rw [htarget] at ht
        rw [← Option.some.inj ht]
        rcases hrung with rfl | ⟨-, hnext⟩
        · exact mapped_fits hquality
        · exact next_lower_fits heven hnext
      · rw [hmapped] at hm
        exact Option.some.inj hm ▸ mapped_fits hquality

end StreamContext

namespace VideoStream

variable {cfg : AdaptationConfig} {s : VideoStream} {a : StreamAction}

/-- A task that scales keeps the aspect ratio and makes an even size. -/
def KeepsAspect (t : EncodeTask) : Prop :=
  t.needsScaling = true → ∀ target ∈ t.target,
    target.width * t.frame.height = target.height * t.frame.width ∧
      target.width % 2 = 0 ∧ target.height % 2 = 0

instance (t : EncodeTask) : Decidable (KeepsAspect t) := by
  unfold KeepsAspect
  infer_instance

/-- When `SendVideo` admits a frame of another size than the source, the target and its ceiling are
even and have the aspect ratio of the frame. -/
def SourceFits (s : VideoStream) : StreamAction → Prop
  | .sendVideo _ frame admitted => admitted = true → frame ≠ s.context.source →
      (∀ t ∈ s.context.target, frame.Fits t) ∧ ∀ m ∈ s.context.mappedTarget, frame.Fits m
  | _ => True

instance (s : VideoStream) (a : StreamAction) : Decidable (s.SourceFits a) := by
  cases a <;> unfold SourceFits <;> infer_instance

/-- A stream without a source has sent nothing, and the sizes of one with a source fit it. -/
def Fitting (s : VideoStream) : Prop :=
  (s.context.source = ⟨0, 0⟩ ∧ s.tasks = []) ∨
    (s.context.source.IsPositive ∧ s.context.source.IsEven ∧
      s.context.SizesFit s.context.source ∧ ∀ t ∈ s.tasks, KeepsAspect t)

/-- The invariant of the sections that do not send. -/
theorem fitting_of_context {c : StreamContext} (h : s.Fitting)
    (hsource : c.source = s.context.source)
    (hsizes : s.context.source.IsEven → s.context.SizesFit s.context.source →
      s.context.source.IsPositive → c.SizesFit s.context.source) :
    Fitting { s with context := c } := by
  rcases h with ⟨hzero, htasks⟩ | ⟨hpositive, heven, hfit, htasks⟩
  · exact Or.inl ⟨hsource.trans hzero, htasks⟩
  · refine Or.inr ⟨?_, ?_, ?_, htasks⟩
    · rw [hsource]
      exact hpositive
    · rw [hsource]
      exact heven
    · rw [hsource]
      exact hsizes heven hfit hpositive

/-- A frame is sent with a target that fits it. -/
theorem fitting_send (h : s.Fitting) {nowMs : ℤ} {frame : Size} {admitted : Bool}
    (hfits : s.SourceFits (.sendVideo nowMs frame admitted)) :
    (s.sendVideo nowMs frame admitted).Fitting := by
  unfold sendVideo
  split_ifs with hdropped
  · exact h
  · have hvalid : frame.IsPositive ∧ frame.IsEven := by
      by_contra hinvalid
      exact hdropped (Or.inl hinvalid)
    have hadmitted : admitted = true := by
      by_contra hrejected
      exact hdropped (Or.inr (by simpa using hrejected))
    have htasks : ∀ t ∈ s.tasks, KeepsAspect t := by
      rcases h with ⟨-, hnone⟩ | ⟨-, -, -, htasks⟩
      · rw [hnone]
        exact fun t ht => by cases ht
      · exact htasks
    -- the context knows the size of the frame, and its sizes fit it
    have hrecorded : (s.context.recordSource nowMs frame).source = frame ∧
        (s.context.recordSource nowMs frame).SizesFit frame := by
      unfold StreamContext.recordSource
      split_ifs with hnew
      · have hother : frame ≠ s.context.source := by
          rintro rfl
          obtain ⟨hwidth, hheight⟩ := hvalid.1
          rcases hnew with hzero | hzero | hdiffers
          · omega
          · omega
          · exact hdiffers rfl
        obtain ⟨htarget, hmapped⟩ := hfits hadmitted hother
        exact ⟨rfl, htarget, hmapped, fun sizes hsizes => by cases hsizes⟩
      · have hsame : s.context.source = frame := by
          by_contra hdiffers
          exact hnew (Or.inr (Or.inr hdiffers))
        refine ⟨hsame, ?_⟩
        rcases h with ⟨hzero, -⟩ | ⟨-, -, hfit, -⟩
        · rw [hzero] at hsame
          obtain ⟨hwidth, -⟩ := hvalid.1
          rw [← hsame] at hwidth
          exact absurd hwidth (lt_irrefl _)
        · exact hsame ▸ hfit
    obtain ⟨hsource, hsizes⟩ := hrecorded
    refine Or.inr ⟨?_, ?_, ?_, fun t ht => ?_⟩
    · rw [hsource]
      exact hvalid.1
    · rw [hsource]
      exact hvalid.2
    · rw [hsource]
      exact hsizes
    · rcases List.mem_append.mp ht with hold | hnew
      · exact htasks t hold
      · obtain rfl := List.mem_singleton.mp hnew
        intro _ target htarget
        obtain ⟨haspect, heven⟩ := hsizes.target target htarget
        exact ⟨haspect, heven⟩

/-- Every section keeps the sizes of a stream fitting, when those of the frames do. -/
theorem fitting_step (h : s.Fitting) (hfits : s.SourceFits a) : (s.step cfg a).Fitting := by
  cases a with
  | sendVideo nowMs frame admitted => exact fitting_send h hfits
  | encoded report =>
      have hsection : StreamContext.EncodeSection cfg s.context (s.context.onEncoded cfg report) :=
        StreamContext.on_encoded_section
      exact fitting_of_context h hsection.source fun heven hfit _ =>
        StreamContext.sizes_fit_encode hfit heven rfl hsection
  | prioritySet report prioritizeSpeed changed =>
      have hsection : StreamContext.EncodeSection cfg s.context
        (s.context.onPrioritySet cfg report prioritizeSpeed changed) :=
          StreamContext.on_priority_set_section
      exact fitting_of_context h hsection.source fun heven hfit _ =>
        StreamContext.sizes_fit_encode hfit heven rfl hsection
  | controllerUpdate update =>
      refine fitting_of_context h StreamContext.post_updates_source fun heven hfit hpositive => ?_
      have hupdate := s.context.post_updates_step cfg update
      rcases hupdate with ⟨-, hsame⟩ | ⟨source, hsource, hstep⟩
      · rw [hsame]
        exact hfit
      · have hknown : source = s.context.source := by
          unfold StreamContext.sourceOf at hsource
          obtain ⟨hwidth, hheight⟩ := hpositive
          rw [if_neg (by omega)] at hsource
          exact (Option.some.inj hsource).symm
        rw [hknown] at hstep
        exact StreamContext.sizes_fit_update hfit heven hstep

/-- In a run in which the sizes fit whenever the source changes, all frames are scaled with their
aspect ratio and to an even size. -/
theorem scaling_keeps_aspect (cfg : AdaptationConfig) {actions : List StreamAction}
    (hfits : Run.Along (step cfg) SourceFits {} actions) :
    ∀ t ∈ (actions.foldl (step cfg) {}).tasks, KeepsAspect t := by
  have hstart : Fitting {} := Or.inl ⟨rfl, rfl⟩
  rcases hfits.invariant (fun s a h ha => fitting_step h ha) hstart with
    ⟨-, hnone⟩ | ⟨-, -, -, htasks⟩
  · rw [hnone]
    exact fun t ht => by cases ht
  · exact htasks

/-- A stream of which the bitrate allows the lowest tier. -/
def lowBitrateConfig : AdaptationConfig where
  adapter := ⟨.high, .balanced, fun _ => 0⟩
  screenContent := true
  maxFrameRate := 30

/-- An update without packet loss, outside of application limited periods. -/
def plainUpdate (nowMs : ℤ) : ControllerUpdate where
  nowMs
  subTargetBitrate := 300000
  inAlr := false
  lossRateLow := true
  lossRateCritical := false
  rttMs := 20
  codecResolution := none

/-- A full-HD stream that is downgraded once, and then gets frames of another size. -/
def resizedRun (resized : Size) : List StreamAction :=
  [.sendVideo 1000 ⟨1920, 1080⟩ true, .controllerUpdate (plainUpdate 2000),
    .controllerUpdate (plainUpdate 7000), .sendVideo 7100 resized true]

/-- A larger window of the same aspect ratio is scaled well. -/
theorem scaling_keeps_aspect_of_larger_window :
    ∃ t ∈ ((resizedRun ⟨3840, 2160⟩).foldl (step lowBitrateConfig) {}).tasks,
      t.needsScaling = true ∧ KeepsAspect t := by
  have hfits : Run.Along (step lowBitrateConfig) SourceFits {} (resizedRun ⟨3840, 2160⟩) := by
    decide +kernel
  have hscaled : ∃ t ∈ ((resizedRun ⟨3840, 2160⟩).foldl (step lowBitrateConfig) {}).tasks,
      t.needsScaling = true := by
    decide +kernel
  obtain ⟨t, ht, hneeds⟩ := hscaled
  exact ⟨t, ht, hneeds, scaling_keeps_aspect lowBitrateConfig hfits t ht⟩

/-- A frame of another aspect ratio is distorted. -/
theorem scaling_distorts_resized_window :
    ¬ ∀ t ∈ ((resizedRun ⟨1920, 1200⟩).foldl (step lowBitrateConfig) {}).tasks, KeepsAspect t := by
  decide +kernel

end VideoStream

end Adaptation

end MiniRtc
