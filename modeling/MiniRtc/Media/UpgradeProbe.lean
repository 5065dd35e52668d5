import MiniRtc.Media.StreamContext
import MiniRtc.Foundation.Run

/-!
# Upgrade probes are transactions

A probe tries a larger size for a while. It remembers the size that was in force before, and goes
back to exactly this one when it fails. Six sections write the target of a stream; `transactional_step`
says that each of them either keeps a probe with its target or ends it.
-/

namespace MiniRtc.Adaptation

/-- A stream with the target and the ceiling that were in force when the last probe started. -/
structure ProbeHistory where
  stream : VideoStream := {}
  before : Option Size := none
  ceiling : Option Size := none

namespace ProbeHistory

/-- A section, which may start a probe. -/
def step (cfg : AdaptationConfig) (h : ProbeHistory) (a : StreamAction) : ProbeHistory :=
  if (h.stream.perform cfg a).2 = .probeStarted then
    { stream := h.stream.step cfg a
      before := h.stream.context.target
      ceiling := h.stream.context.mappedTarget }
  else { h with stream := h.stream.step cfg a }

variable {cfg : AdaptationConfig} {h : ProbeHistory} {a : StreamAction}

@[simp] theorem step_stream : (h.step cfg a).stream = h.stream.step cfg a := by
  unfold step
  split <;> rfl

/-- A probe from one size to another is in force: the stream has the larger size, which is not above
the ceiling, and had the smaller one before. -/
structure Tries (cfg : AdaptationConfig) (h : ProbeHistory) (base tried : Size) : Prop where
  target : h.stream.context.target = some tried
  larger : base.area < tried.area
  before : h.before = some base
  capped : ∀ mapped, h.ceiling = some mapped → tried.area ≤ mapped.area
  allowed : cfg.maintainResolution = false

/-- Whenever a probe is active, it is in force. -/
def Transactional (cfg : AdaptationConfig) (h : ProbeHistory) : Prop :=
  ∀ base tried, h.stream.context.probeSizes = some (base, tried) → h.Tries cfg base tried

/-- What a section does to a probe: a failed one goes back and is over, and one that stays active
keeps the target. -/
structure ProbeStep (cfg : AdaptationConfig) (h : ProbeHistory) (a : StreamAction) : Prop where
  failed : (h.stream.perform cfg a).2 = .probeFailed → ∃ base,
    h.before = some base ∧ (h.step cfg a).stream.context.target = some base ∧
      (h.step cfg a).stream.context.resolutionUpgradeProbe = none
  changed : h.stream.context.resolutionUpgradeProbe.isSome = true →
    (h.step cfg a).stream.context.target ≠ h.stream.context.target →
      (h.step cfg a).stream.context.resolutionUpgradeProbe = none

theorem probe_sizes_eq_none {c : StreamContext} :
    c.probeSizes = none ↔ c.resolutionUpgradeProbe = none :=
  Option.map_eq_none_iff

/-- A section that keeps target and probe, and does not start one. -/
theorem transactional_kept (ht : h.Transactional cfg)
    (houtcome : (h.stream.perform cfg a).2 ≠ .probeStarted)
    (htarget : (h.stream.step cfg a).context.target = h.stream.context.target)
    (hprobe : (h.stream.step cfg a).context.probeSizes = h.stream.context.probeSizes) :
    (h.step cfg a).Transactional cfg := by
  unfold step
  rw [if_neg houtcome]
  intro base tried hactive
  obtain ⟨htried, hlarger, hbefore, hcapped, hallowed⟩ := ht base tried (hprobe.symm.trans hactive)
  exact ⟨htarget.trans htried, hlarger, hbefore, hcapped, hallowed⟩

/-- A section that ends with no probe. -/
theorem transactional_cleared (hcleared : (h.stream.step cfg a).context.probeSizes = none) :
    (h.step cfg a).Transactional cfg := by
  intro base tried hactive
  rw [step_stream, hcleared] at hactive
  cases hactive

/-- A section keeps a probe with its target or ends it. -/
structure KeepsOrEnds (cfg : AdaptationConfig) (h : ProbeHistory) (a : StreamAction) : Prop where
  transactional : (h.step cfg a).Transactional cfg
  step : h.ProbeStep cfg a

theorem keeps_of_kept (ht : h.Transactional cfg)
    (hfailed : (h.stream.perform cfg a).2 ≠ .probeFailed)
    (hstarted : (h.stream.perform cfg a).2 ≠ .probeStarted)
    (htarget : (h.stream.step cfg a).context.target = h.stream.context.target)
    (hprobe : (h.stream.step cfg a).context.probeSizes = h.stream.context.probeSizes) :
    h.KeepsOrEnds cfg a :=
  ⟨transactional_kept ht hstarted htarget hprobe, fun houtcome => absurd houtcome hfailed,
    fun _ hchanged => absurd (by rw [step_stream]; exact htarget) hchanged⟩

theorem ends_of_cleared (hfailed : (h.stream.perform cfg a).2 ≠ .probeFailed)
    (hcleared : (h.stream.step cfg a).context.probeSizes = none) : h.KeepsOrEnds cfg a :=
  ⟨transactional_cleared hcleared, fun houtcome => absurd houtcome hfailed,
    fun _ _ => by rw [step_stream]; exact probe_sizes_eq_none.mp hcleared⟩

/-- `SendVideo` ends a probe when the source changes. -/
theorem send_video_keeps (ht : h.Transactional cfg) (nowMs : ℤ) (frame : Size) (admitted : Bool) :
    h.KeepsOrEnds cfg (.sendVideo nowMs frame admitted) := by
  have hcontext : (h.stream.step cfg (.sendVideo nowMs frame admitted)).context =
        h.stream.context ∨
      (h.stream.step cfg (.sendVideo nowMs frame admitted)).context =
        h.stream.context.recordSource nowMs frame := by
    show (h.stream.sendVideo nowMs frame admitted).context = _ ∨
      (h.stream.sendVideo nowMs frame admitted).context = _
    unfold VideoStream.sendVideo
    split_ifs
    · exact Or.inl rfl
    · exact Or.inr rfl
  have hnothing : (h.stream.perform cfg (.sendVideo nowMs frame admitted)).2 = .nothing := rfl
  rcases hcontext with hsame | hrecorded
  · exact keeps_of_kept ht (by rw [hnothing]; decide) (by rw [hnothing]; decide) (by rw [hsame])
      (by rw [hsame])
  · unfold StreamContext.recordSource at hrecorded
    split_ifs at hrecorded
    · exact ends_of_cleared (by rw [hnothing]; decide) (by rw [hrecorded]; rfl)
    · exact keeps_of_kept ht (by rw [hnothing]; decide) (by rw [hnothing]; decide)
        (by rw [hrecorded]) (by rw [hrecorded])

/-- The sections of an encoded frame evaluate a probe, or start one, or end one. -/
theorem encode_section_keeps (ht : h.Transactional cfg)
    (hsection : StreamContext.EncodeSection cfg h.stream.context
      ((h.stream.perform cfg a).1.context, (h.stream.perform cfg a).2)) :
    h.KeepsOrEnds cfg a := by
  obtain ⟨hstep, -, -⟩ := hsection
  generalize houtcome : (h.stream.perform cfg a).2 = outcome at hstep
  cases hstep with
  | kept hnothing htarget hprobe =>
      refine keeps_of_kept ht ?_ ?_ htarget hprobe
      · rw [houtcome]
        rcases hnothing with rfl | ⟨speed, rfl⟩ <;> simp
      · rw [houtcome]
        rcases hnothing with rfl | ⟨speed, rfl⟩ <;> simp
  | failed hprobe htarget hcleared =>
      obtain ⟨-, -, hbefore, -, -⟩ := ht _ _ hprobe
      refine ⟨transactional_cleared hcleared, fun _ => ⟨_, hbefore, ?_, ?_⟩, fun _ _ => ?_⟩
      · rw [step_stream]
        exact htarget
      · rw [step_stream]
        exact probe_sizes_eq_none.mp hcleared
      · rw [step_stream]
        exact probe_sizes_eq_none.mp hcleared
  | succeeded htarget hcleared => exact ends_of_cleared (by rw [houtcome]; decide) hcleared
  | downgraded htarget hless hcleared => exact ends_of_cleared (by rw [houtcome]; decide) hcleared
  | started hallowed hidle hbase htarget hprobe hlarger hceiling hrung =>
      refine ⟨?_, fun hfailed => absurd (houtcome.symm.trans hfailed) (by decide),
        fun hactive => ?_⟩
      · unfold step
        rw [if_pos houtcome]
        intro base tried hactive
        obtain ⟨rfl, rfl⟩ := Prod.mk.inj (Option.some.inj (hprobe.symm.trans hactive))
        exact ⟨htarget, hlarger, hbase, hceiling, hallowed⟩
      · rw [probe_sizes_eq_none.mp hidle] at hactive
        cases hactive

/-- A controller update keeps a probe or ends it. It restores the size of static content only when
resolution has priority, and then no probe was started. -/
theorem controller_update_keeps (ht : h.Transactional cfg) (u : ControllerUpdate) :
    h.KeepsOrEnds cfg (.controllerUpdate u) := by
  have hnothing : (h.stream.perform cfg (.controllerUpdate u)).2 = .nothing := rfl
  have hfailed : (h.stream.perform cfg (.controllerUpdate u)).2 ≠ .probeFailed := by
    rw [hnothing]
    decide
  have hstarted : (h.stream.perform cfg (.controllerUpdate u)).2 ≠ .probeStarted := by
    rw [hnothing]
    decide
  have hcontext : (h.stream.step cfg (.controllerUpdate u)).context =
      h.stream.context.postUpdates cfg u := rfl
  rcases h.stream.context.post_updates_step cfg u with ⟨-, hsame⟩ | ⟨source, -, hstep⟩
  · rw [hsame] at hcontext
    exact keeps_of_kept ht hfailed hstarted (by rw [hcontext]) (by rw [hcontext])
  · rw [← hcontext] at hstep
    cases hstep with
    | kept htarget hprobe hmapped => exact keeps_of_kept ht hfailed hstarted htarget hprobe
    | downgraded hallowed hquality hmeaningful hrung htarget hmapped hcleared =>
        exact ends_of_cleared hfailed hcleared
    | restored hmaintain hquality hprobe htarget hmapped =>
        refine ends_of_cleared hfailed (hprobe.trans ?_)
        by_contra hactive
        obtain ⟨sizes, hsizes⟩ := Option.ne_none_iff_exists'.mp hactive
        have hallowed := (ht sizes.1 sizes.2 hsizes).allowed
        rw [hmaintain] at hallowed
        cases hallowed

/-- Every section keeps a probe with its target or ends it. -/
theorem transactional_step (ht : h.Transactional cfg) (a : StreamAction) :
    h.KeepsOrEnds cfg a := by
  cases a with
  | sendVideo nowMs frame admitted => exact send_video_keeps ht nowMs frame admitted
  | encoded report => exact encode_section_keeps ht StreamContext.on_encoded_section
  | prioritySet report prioritizeSpeed changed =>
      exact encode_section_keeps ht StreamContext.on_priority_set_section
  | controllerUpdate update => exact controller_update_keeps ht update

/-- In every run an active probe has the target of the stream, a smaller base that was in force
before it, and a target within the ceiling of its start; a failed one restores the base, and any
other change of the target ends it. -/
theorem upgrade_probes_transactional (cfg : AdaptationConfig) (actions : List StreamAction) :
    (actions.foldl (step cfg) {}).Transactional cfg ∧
      Run.Along (step cfg) (ProbeStep cfg) {} actions := by
  have hstart : Transactional cfg {} := fun base tried hactive => by cases hactive
  have hstep : ∀ h a, Transactional cfg h → (h.step cfg a).Transactional cfg :=
    fun h a ht => (transactional_step ht a).transactional
  refine ⟨?_, Run.along_of_invariant hstep (fun h a ht => (transactional_step ht a).step) hstart
    actions⟩
  have hrun := Run.along_of_invariant (C := fun _ _ => True) hstep (fun _ _ _ => trivial) hstart
    actions
  exact hrun.invariant (fun h a ht _ => hstep h a ht) hstart

end ProbeHistory

end MiniRtc.Adaptation
