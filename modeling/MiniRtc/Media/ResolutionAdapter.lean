import MiniRtc.Numerics.ScaledRoots
import MiniRtc.Numerics.SinglePrecision

/-!
# Resolutions of a video stream

`resolution_adapter.cpp`. All resolutions of a stream come from `BuildStrictAspectResolution`, which
scales the reduced form of the source size by an even factor. `chosen_k_spec` says which factor it
chooses, and `build_strict_spec` what the size is like.
-/

namespace MiniRtc

/-- The size of a frame. -/
structure Size where
  width : Nat
  height : Nat
  deriving DecidableEq

namespace Size

/-- The number of pixels. -/
def area (s : Size) : Nat :=
  s.width * s.height

/-- NV12 frames have an even width and an even height. -/
def IsEven (s : Size) : Prop :=
  s.width % 2 = 0 ∧ s.height % 2 = 0

instance (s : Size) : Decidable s.IsEven :=
  inferInstanceAs (Decidable (_ ∧ _))

/-- Two sizes have the same aspect ratio. -/
def SameAspect (s t : Size) : Prop :=
  s.width * t.height = s.height * t.width

instance (s t : Size) : Decidable (s.SameAspect t) :=
  inferInstanceAs (Decidable (_ = _))

/-- A size with a pixel. -/
def IsPositive (s : Size) : Prop :=
  0 < s.width ∧ 0 < s.height

instance (s : Size) : Decidable s.IsPositive :=
  inferInstanceAs (Decidable (_ ∧ _))

/-- The reduced form of a size. -/
def unit (s : Size) : Size :=
  ⟨s.width / Nat.gcd s.width s.height, s.height / Nat.gcd s.width s.height⟩

/-- A size times a factor. -/
def scale (s : Size) (k : Nat) : Size :=
  ⟨s.width * k, s.height * k⟩

end Size

inductive VideoQuality where
  | low
  | medium
  | high
  deriving DecidableEq

inductive VideoDegradationPreference where
  | maintainFrameRate
  | maintainResolution
  | balanced
  deriving DecidableEq

/-- The tiers, from the lowest to the highest. -/
def kResolutionSteps : List Size :=
  [⟨320, 180⟩, ⟨480, 270⟩, ⟨640, 360⟩, ⟨960, 540⟩, ⟨1280, 720⟩, ⟨1920, 1080⟩, ⟨2560, 1440⟩,
    ⟨3840, 2160⟩]

/-- `ClampI64` and `ClampInt`. -/
def clampInt (value minV maxV : Nat) : Nat :=
  if value < minV then minV else if value > maxV then maxV else value

def snapDownToMultiple (value step : Nat) : Nat :=
  if step ≤ 1 then value else value - value % step

def snapUpToMultiple (value step : Nat) : Nat :=
  if step ≤ 1 then value else (value + step - 1) / step * step

/-- The part of `BuildStrictAspectResolution` that chooses the factor. -/
def chosenK (unitArea kStep targetArea minArea maxArea : Nat) : Option Nat :=
  let clampedTargetArea := clampInt targetArea minArea maxArea
  let minK := max 1 (snapUpToMultiple (ceilRoot minArea unitArea) kStep)
  let maxK := snapDownToMultiple (floorRoot maxArea unitArea) kStep
  if maxK < minK then none
  else
    let idealK := clampInt (roundRoot clampedTargetArea unitArea) minK maxK
    let kDown := snapDownToMultiple idealK kStep
    let kUp := snapUpToMultiple idealK kStep
    let kDown := if kDown < minK then minK else kDown
    let kUp := if kUp > maxK then maxK else kUp
    let diff := fun k : Nat => ((unitArea * k * k : Nat) - (clampedTargetArea : Int)).natAbs
    if kUp ≥ minK ∧ kUp ≤ maxK ∧ diff kUp < diff kDown then some kUp else some kDown

/-- `BuildStrictAspectResolution`. -/
def buildStrictAspectResolution (src : Size) (targetArea minArea maxArea : Nat) : Option Size :=
  if src.width = 0 ∨ src.height = 0 ∨ minArea = 0 ∨ maxArea = 0 ∨ minArea > maxArea then none
  else
    -- the reduced form has an odd side, so that only even factors make both sides even
    let kStep := if src.unit.width % 2 ≠ 0 ∨ src.unit.height % 2 ≠ 0 then 2 else 1
    (chosenK src.unit.area kStep targetArea minArea maxArea).map src.unit.scale

/-- A `ResolutionAdapter`, with the number of pixels that the bitrate model gives for a bitrate. -/
structure ResolutionAdapter where
  videoQuality : VideoQuality
  videoDegradationPreference : VideoDegradationPreference
  pixelsForBitrate : Nat → Nat

/-- `0.88f` has this significand and 24 binary places. -/
def kDownscaleStep : Nat := 14763950

/-- `1.0f / 0.88f` has this significand and 23 binary places. -/
def kUpscaleStep : Nat := 9532509

example : 2 * (2 ^ 47 - kUpscaleStep * kDownscaleStep) < kDownscaleStep := by decide

/-- `std::llround(area * step * step)` in single precision. -/
def scaledArea (area step places : Nat) : Nat :=
  llround (roundToSingle (roundToSingle (roundToSingle area * step) * step)) (2 * places)

namespace ResolutionAdapter

variable (a : ResolutionAdapter)

def getMaxPixelsForQuality : Nat :=
  match a.videoQuality with
  | .high => 3840 * 2160
  | .medium => 1920 * 1080
  | .low => 1280 * 720

/-- The sizes of `GetBitrateLimits`: all tiers up to the last one within the quality. -/
def getBitrateLimits : List Size :=
  let lastValid := (List.range kResolutionSteps.length).foldl (fun last i =>
    if (kResolutionSteps.getD i ⟨0, 0⟩).area ≤ a.getMaxPixelsForQuality then i + 1 else last) 0
  kResolutionSteps.take lastValid

/-- The smallest and the largest number of pixels that `GetResolution` allows. -/
def pixelRange (front current : Size) : Nat × Nat :=
  let maxPixels := min a.getMaxPixelsForQuality current.area
  (min front.area maxPixels, maxPixels)

/-- `GetResolution`. The result is the target, if there is one. -/
def getResolution (targetBitrate : Nat) (current : Size) : Option Size :=
  if current.width = 0 ∨ current.height = 0 ∨ targetBitrate = 0 then none
  else
    match a.getBitrateLimits with
    | [] => none
    | front :: _ =>
        let (minPixels, maxPixels) := a.pixelRange front current
        let estimatedPixels :=
          if a.videoDegradationPreference = .maintainResolution then maxPixels
          else a.pixelsForBitrate targetBitrate
        buildStrictAspectResolution current (max minPixels (min estimatedPixels maxPixels))
          minPixels maxPixels

/-- `GetNextLowerResolution`. -/
def getNextLowerResolution (current source : Size) : Option Size :=
  match a.getBitrateLimits with
  | [] => none
  | front :: _ =>
      if current.width = 0 ∨ current.height = 0 ∨ source.width = 0 ∨ source.height = 0 then none
      else
        let minArea := min front.area source.area
        if current.area > source.area then some source
        else if current.area ≤ minArea then none
        else
          match buildStrictAspectResolution source (scaledArea current.area kDownscaleStep 24)
            minArea (min current.area source.area) with
          | none => none
          | some next =>
              if next.width ≥ current.width ∨ next.height ≥ current.height then none else some next

/-- `GetNextHigherResolution`. -/
def getNextHigherResolution (current source : Size) : Option Size :=
  match a.getBitrateLimits.getLast? with
  | none => none
  | some back =>
      if current.width = 0 ∨ current.height = 0 ∨ source.width = 0 ∨ source.height = 0 then none
      else
        let maxArea := min back.area source.area
        if current.area ≥ maxArea then none
        else
          match buildStrictAspectResolution source (scaledArea current.area kUpscaleStep 23)
            current.area maxArea with
          | none => none
          | some next =>
              if next.width ≤ current.width ∨ next.height ≤ current.height then none else some next

end ResolutionAdapter

/-! ## The factor -/

section Factor

variable {U t lo hi n k : Nat}

theorem clamp_int_between (v : Nat) (h : lo ≤ hi) :
    lo ≤ clampInt v lo hi ∧ clampInt v lo hi ≤ hi := by
  unfold clampInt
  split_ifs <;> omega

/-- The even factor next to `i`, by the distance of the areas from `c` when `i` is odd. -/
def evenFactor (unitArea c i : Nat) : Nat :=
  if i % 2 = 0 then i
  else if unitArea * ((i - 1) * (i - 1)) + unitArea * ((i + 1) * (i + 1)) < 2 * c then i + 1
  else i - 1

/-- The factors run from the least even one to the largest even one. -/
theorem chosen_k_eq (hu : 0 < U) (hlo : 0 < lo) :
    chosenK U 2 t lo hi =
      if floorRoot hi U / 2 * 2 < (ceilRoot lo U + 1) / 2 * 2 then none
      else some (evenFactor U (clampInt t lo hi) (clampInt (roundRoot (clampInt t lo hi) U)
        ((ceilRoot lo U + 1) / 2 * 2) (floorRoot hi U / 2 * 2))) := by
  have hleast : 0 < ceilRoot lo U := by
    by_contra hzero
    have hnone := (ceil_root_le_iff (a := lo) (k := 0) hu).mp (by omega)
    omega
  have hdown : ∀ v, snapDownToMultiple v 2 = v / 2 * 2 := fun v => by
    show v - v % 2 = v / 2 * 2
    omega
  have hup : ∀ v, snapUpToMultiple v 2 = (v + 1) / 2 * 2 := fun v => rfl
  unfold chosenK
  simp only [hdown, hup]
  rw [show max 1 ((ceilRoot lo U + 1) / 2 * 2) = (ceilRoot lo U + 1) / 2 * 2 by omega]
  generalize hm : (ceilRoot lo U + 1) / 2 * 2 = m
  generalize hM : floorRoot hi U / 2 * 2 = M
  by_cases hnone : M < m
  · rw [if_pos hnone, if_pos hnone]
  · rw [if_neg hnone, if_neg hnone]
    have hi := clamp_int_between (roundRoot (clampInt t lo hi) U) (Nat.not_lt.mp hnone)
    generalize clampInt (roundRoot (clampInt t lo _) U) m M = i at hi ⊢
    generalize clampInt t lo _ = c
    rw [if_neg (show ¬ i / 2 * 2 < m by omega), if_neg (show ¬ (i + 1) / 2 * 2 > M by omega)]
    unfold evenFactor
    by_cases heven : i % 2 = 0
    · rw [if_pos heven, show i / 2 * 2 = i by omega, show (i + 1) / 2 * 2 = i by omega]
      simp
    · rw [if_neg heven, show i / 2 * 2 = i - 1 by omega, show (i + 1) / 2 * 2 = i + 1 by omega,
        Nat.mul_assoc, Nat.mul_assoc]
      have hless : U * ((i - 1) * (i - 1)) ≤ U * ((i + 1) * (i + 1)) :=
        Nat.mul_le_mul_left U (Nat.mul_le_mul (by omega) (by omega))
      have hstrict : U * ((i - 1) * (i - 1)) < U * ((i + 1) * (i + 1)) :=
        Nat.mul_lt_mul_of_pos_left (Nat.mul_self_lt_mul_self (by omega)) hu
      split_ifs with hnear hsum hsum
      · rfl
      · exact absurd hnear.2.2 (by omega)
      · exact absurd ⟨by omega, by omega, by omega⟩ hnear
      · rfl

/-- What lies between even bounds is rounded between them. -/
theorem even_factor_between {c m M i : Nat} (hm : m % 2 = 0) (hM : M % 2 = 0) (hi : m ≤ i ∧ i ≤ M) :
    evenFactor U c i % 2 = 0 ∧ m ≤ evenFactor U c i ∧ evenFactor U c i ≤ M := by
  unfold evenFactor
  split_ifs <;> omega

/-- The factor is even, and its area is within the bounds. -/
theorem chosen_k_spec (hu : 0 < U) (hlo : 0 < lo) (h : chosenK U 2 t lo hi = some k) :
    k % 2 = 0 ∧ lo ≤ U * (k * k) ∧ U * (k * k) ≤ hi := by
  rw [chosen_k_eq hu hlo] at h
  split_ifs at h with hnone
  obtain ⟨heven, hleast, hlargest⟩ := even_factor_between (U := U) (c := clampInt t lo hi)
    (by omega) (by omega) (clamp_int_between (roundRoot (clampInt t lo hi) U)
      (Nat.not_lt.mp hnone))
  rw [Option.some.inj h] at heven hleast hlargest
  exact ⟨heven, (ceil_root_le_iff hu).mp (by omega), (le_floor_root_iff hu).mp (by omega)⟩

/-- The square root of a multiple of a square. -/
theorem floor_root_square (hu : 0 < U) : floorRoot (U * (k * k)) U = k := by
  refine le_antisymm ?_ ((le_floor_root_iff hu).mpr (le_refl _))
  rw [← Nat.lt_succ_iff, floor_root_lt_iff hu]
  exact Nat.mul_lt_mul_of_pos_left (Nat.mul_self_lt_mul_self (Nat.lt_succ_self k)) hu

theorem ceil_root_square (hu : 0 < U) : ceilRoot (U * (k * k)) U = k := by
  refine le_antisymm ((ceil_root_le_iff hu).mpr (le_refl _)) ?_
  by_contra hless
  have hsquare := Nat.mul_lt_mul_of_pos_left
    (Nat.mul_self_lt_mul_self (Nat.not_le.mp hless)) hu
  have hroot := (ceil_root_le_iff hu).mp (le_refl (ceilRoot (U * (k * k)) U))
  omega

/-- The rounded root of an area between those of two neighbours, and the even factor next to it:
the neighbour whose area is nearer. -/
theorem even_factor_of_midpoint {c i : Nat} (hu : 0 < U) (hn : n % 2 = 0)
    (hbelow : roundRoot c U ≤ n → i ≤ n) (habove : n + 2 ≤ roundRoot c U → n + 2 ≤ i)
    (hodd : roundRoot c U = n + 1 → i = n + 1) :
    (U * (n * n) + U * ((n + 2) * (n + 2)) < 2 * c → n + 2 ≤ evenFactor U c i) ∧
      (2 * c ≤ U * (n * n) + U * ((n + 2) * (n + 2)) → evenFactor U c i ≤ n) := by
  have hhigh : U * ((2 * (n + 1) + 1) * (2 * (n + 1) + 1)) =
      2 * (U * (n * n)) + 2 * (U * ((n + 2) * (n + 2))) + U * (4 * n + 1) := by ring
  have hlow : U * ((2 * n + 1) * (2 * n + 1)) + U * (4 * n + 7) =
      2 * (U * (n * n)) + 2 * (U * ((n + 2) * (n + 2))) := by ring
  have hpos : 0 < U * (4 * n + 1) := Nat.mul_pos hu (by omega)
  constructor
  · intro hmid
    have hround : n < roundRoot c U := (lt_round_root_iff hu).mpr (by omega)
    unfold evenFactor
    rcases Nat.lt_or_ge (roundRoot c U) (n + 2) with hnext | hfar
    · rw [hodd (by omega), if_neg (by omega), if_pos (by simpa using hmid)]
    · have hi := habove hfar
      split_ifs <;> omega
  · intro hmid
    have hround : roundRoot c U ≤ n + 1 := (round_root_le_iff hu).mpr (by omega)
    unfold evenFactor
    rcases Nat.lt_or_ge n (roundRoot c U) with hnext | hfar
    · rw [hodd (by omega), if_neg (by omega), if_neg (by simpa using hmid)]
      omega
    · have hi := hbelow hfar
      split_ifs <;> omega

/-- Below a factor of which the next smaller one is large enough: a smaller one is chosen exactly
when the target area is not beyond the middle of the two areas. -/
theorem chosen_k_below (hu : 0 < U) (hn : n % 2 = 0) (hlo : 0 < lo) (hfit : lo ≤ U * (n * n)) :
    ∃ j, chosenK U 2 t lo (U * ((n + 2) * (n + 2))) = some j ∧ j ≤ n + 2 ∧
      (j < n + 2 ↔ 2 * t ≤ U * (n * n) + U * ((n + 2) * (n + 2))) := by
  have hroot : ceilRoot lo U ≤ n := (ceil_root_le_iff hu).mpr hfit
  have hless : U * (n * n) < U * ((n + 2) * (n + 2)) :=
    Nat.mul_lt_mul_of_pos_left (Nat.mul_self_lt_mul_self (by omega)) hu
  rw [chosen_k_eq hu hlo, floor_root_square hu, if_neg (by omega)]
  have hmid : 2 * clampInt t lo (U * ((n + 2) * (n + 2))) ≤
      U * (n * n) + U * ((n + 2) * (n + 2)) ↔
        2 * t ≤ U * (n * n) + U * ((n + 2) * (n + 2)) := by
    unfold clampInt
    split_ifs <;> omega
  generalize clampInt t lo _ = c at hmid ⊢
  have hbetween : (ceilRoot lo U + 1) / 2 * 2 ≤ _ ∧ _ ≤ (n + 2) / 2 * 2 :=
    clamp_int_between (roundRoot c U) (by omega)
  obtain ⟨hup, hdown⟩ := even_factor_of_midpoint (c := c)
    (i := clampInt (roundRoot c U) ((ceilRoot lo U + 1) / 2 * 2) ((n + 2) / 2 * 2)) hu hn
    (by unfold clampInt; split_ifs <;> omega) (by unfold clampInt; split_ifs <;> omega)
    (by unfold clampInt; split_ifs <;> omega)
  obtain ⟨-, -, hlargest⟩ := even_factor_between (U := U) (c := c) (by omega) (by omega) hbetween
  refine ⟨_, rfl, by omega, ?_⟩
  rw [← hmid]
  constructor
  · intro h
    by_contra hbeyond
    have := hup (by omega)
    omega
  · intro h
    have := hdown h
    omega

/-- Above a factor of which the next larger one is small enough: a larger one is chosen exactly when
the target area is beyond the middle. -/
theorem chosen_k_above (hu : 0 < U) (hn : n % 2 = 0) (hpos : 0 < n)
    (hfit : U * ((n + 2) * (n + 2)) ≤ hi) :
    ∃ j, chosenK U 2 t (U * (n * n)) hi = some j ∧ n ≤ j ∧
      (n < j ↔ U * (n * n) + U * ((n + 2) * (n + 2)) < 2 * t) := by
  have hroot : n + 2 ≤ floorRoot hi U := (le_floor_root_iff hu).mpr hfit
  have hless : U * (n * n) < U * ((n + 2) * (n + 2)) :=
    Nat.mul_lt_mul_of_pos_left (Nat.mul_self_lt_mul_self (by omega)) hu
  rw [chosen_k_eq hu (Nat.mul_pos hu (Nat.mul_pos hpos hpos)), ceil_root_square hu,
    if_neg (by omega)]
  have hmid : U * (n * n) + U * ((n + 2) * (n + 2)) < 2 * clampInt t (U * (n * n)) hi ↔
      U * (n * n) + U * ((n + 2) * (n + 2)) < 2 * t := by
    unfold clampInt
    split_ifs <;> omega
  generalize clampInt t (U * (n * n)) hi = c at hmid ⊢
  have hbetween : (n + 1) / 2 * 2 ≤ _ ∧ _ ≤ floorRoot hi U / 2 * 2 :=
    clamp_int_between (roundRoot c U) (by omega)
  obtain ⟨hup, hdown⟩ := even_factor_of_midpoint (c := c)
    (i := clampInt (roundRoot c U) ((n + 1) / 2 * 2) (floorRoot hi U / 2 * 2)) hu hn
    (by unfold clampInt; split_ifs <;> omega) (by unfold clampInt; split_ifs <;> omega)
    (by unfold clampInt; split_ifs <;> omega)
  obtain ⟨-, hleast, -⟩ := even_factor_between (U := U) (c := c) (by omega) (by omega) hbetween
  refine ⟨_, rfl, by omega, ?_⟩
  rw [← hmid]
  constructor
  · intro h
    by_contra hbefore
    have := hdown (by omega)
    omega
  · intro h
    have := hup h
    omega

end Factor

/-! ## The size -/

namespace Size

variable {s t : Size} {k : Nat}

theorem unit_coprime (hs : s.IsPositive) : Nat.Coprime s.unit.width s.unit.height :=
  Nat.coprime_div_gcd_div_gcd (Nat.gcd_pos_of_pos_left _ hs.1)

theorem unit_positive (hs : s.IsPositive) : s.unit.IsPositive :=
  ⟨Nat.div_pos (Nat.gcd_le_left _ hs.1) (Nat.gcd_pos_of_pos_left _ hs.1),
    Nat.div_pos (Nat.gcd_le_right _ hs.2) (Nat.gcd_pos_of_pos_left _ hs.1)⟩

theorem area_pos (hs : s.IsPositive) : 0 < s.area :=
  Nat.mul_pos hs.1 hs.2

theorem area_scale (s : Size) (k : Nat) : (s.scale k).area = s.area * (k * k) := by
  unfold area scale
  ring

/-- A reduced size has an odd side. -/
theorem unit_odd (hs : s.IsPositive) : s.unit.width % 2 ≠ 0 ∨ s.unit.height % 2 ≠ 0 := by
  by_contra heven
  have hdvd := Nat.dvd_gcd (Nat.dvd_of_mod_eq_zero (n := s.unit.width) (m := 2) (by omega))
    (Nat.dvd_of_mod_eq_zero (n := s.unit.height) (m := 2) (by omega))
  rw [unit_coprime hs] at hdvd
  exact absurd (Nat.le_of_dvd one_pos hdvd) (by decide)

/-- So that a multiple of it is even when the factor is. -/
theorem scale_even_iff (hs : s.IsPositive) : (s.unit.scale k).IsEven ↔ k % 2 = 0 := by
  show s.unit.width * k % 2 = 0 ∧ s.unit.height * k % 2 = 0 ↔ k % 2 = 0
  rw [Nat.mul_mod s.unit.width, Nat.mul_mod s.unit.height]
  rcases unit_odd hs with hwidth | hheight
  · constructor
    · intro h
      have hodd : s.unit.width % 2 = 1 := by omega
      rw [hodd] at h
      omega
    · intro h
      simp [h]
  · constructor
    · intro h
      have hodd : s.unit.height % 2 = 1 := by omega
      rw [hodd] at h
      omega
    · intro h
      simp [h]

theorem scale_same_aspect (s : Size) (k : Nat) : (s.unit.scale k).SameAspect s := by
  have hwidth : s.unit.width * Nat.gcd s.width s.height = s.width :=
    Nat.div_mul_cancel (Nat.gcd_dvd_left ..)
  have hheight : s.unit.height * Nat.gcd s.width s.height = s.height :=
    Nat.div_mul_cancel (Nat.gcd_dvd_right ..)
  show s.unit.width * k * s.height = s.unit.height * k * s.width
  generalize Nat.gcd s.width s.height = g at hwidth hheight
  rw [← hheight, ← hwidth]
  ring

/-- The sizes of the same aspect ratio are the multiples of the reduced form. -/
theorem same_aspect_iff (hs : s.IsPositive) : t.SameAspect s ↔ ∃ k, t = s.unit.scale k := by
  constructor
  · intro h
    have hg : 0 < Nat.gcd s.width s.height := Nat.gcd_pos_of_pos_left _ hs.1
    have hunits : t.width * s.unit.height = t.height * s.unit.width := by
      have hwidth := Nat.div_mul_cancel (Nat.gcd_dvd_left s.width s.height)
      have hheight := Nat.div_mul_cancel (Nat.gcd_dvd_right s.width s.height)
      refine Nat.eq_of_mul_eq_mul_right hg ?_
      show t.width * (s.height / _) * _ = t.height * (s.width / _) * _
      rw [Nat.mul_assoc, hheight, Nat.mul_assoc, hwidth]
      exact h
    have hdvd : s.unit.width ∣ t.width :=
      (unit_coprime hs).dvd_of_dvd_mul_right ⟨t.height, by rw [hunits, Nat.mul_comm]⟩
    obtain ⟨k, hk⟩ := hdvd
    refine ⟨k, ?_⟩
    have hheight : t.height = s.unit.height * k := by
      refine Nat.eq_of_mul_eq_mul_right (unit_positive hs).1 ?_
      rw [← hunits, hk]
      ring
    exact congrArg₂ Size.mk hk hheight
  · rintro ⟨k, rfl⟩
    exact scale_same_aspect s k

/-- The factor of a multiple of the reduced form. -/
theorem gcd_scale (hs : s.IsPositive) :
    Nat.gcd (s.unit.scale k).width (s.unit.scale k).height = k := by
  show Nat.gcd (s.unit.width * k) (s.unit.height * k) = k
  rw [Nat.gcd_mul_right, unit_coprime hs, Nat.one_mul]

/-- Multiples compare as their factors, in each side and in the area. -/
theorem scale_lt_iff (hs : s.IsPositive) {j : Nat} :
    (s.unit.scale j).width < (s.unit.scale k).width ↔ j < k :=
  Nat.mul_lt_mul_left (unit_positive hs).1

theorem scale_height_lt_iff (hs : s.IsPositive) {j : Nat} :
    (s.unit.scale j).height < (s.unit.scale k).height ↔ j < k :=
  Nat.mul_lt_mul_left (unit_positive hs).2

end Size

section Build

variable {src next : Size} {targetArea minArea maxArea : Nat}

theorem build_strict_eq (hsrc : src.IsPositive) (hmin : 0 < minArea) (hrange : minArea ≤ maxArea) :
    buildStrictAspectResolution src targetArea minArea maxArea =
      (chosenK src.unit.area 2 targetArea minArea maxArea).map src.unit.scale := by
  unfold buildStrictAspectResolution
  have hwidth := hsrc.1
  have hheight := hsrc.2
  rw [if_neg (by omega)]
  simp only [if_pos (Size.unit_odd hsrc)]

/-- What `BuildStrictAspectResolution` builds has the aspect ratio of the source, even sides and an
area within the bounds. -/
theorem build_strict_spec
    (h : buildStrictAspectResolution src targetArea minArea maxArea = some next) :
    next.SameAspect src ∧ next.IsEven ∧ minArea ≤ next.area ∧ next.area ≤ maxArea ∧
      next.IsPositive := by
  by_cases hguard : src.width = 0 ∨ src.height = 0 ∨ minArea = 0 ∨ maxArea = 0 ∨ minArea > maxArea
  · unfold buildStrictAspectResolution at h
    rw [if_pos hguard] at h
    cases h
  · have hsrc : src.IsPositive := ⟨by omega, by omega⟩
    rw [build_strict_eq hsrc (by omega) (by omega)] at h
    obtain ⟨k, hk, rfl⟩ := Option.map_eq_some_iff.mp h
    have hunit := Size.area_pos (Size.unit_positive hsrc)
    obtain ⟨heven, hleast, hlargest⟩ := chosen_k_spec hunit (by omega) hk
    rw [← Size.area_scale] at hleast hlargest
    have harea : 0 < (src.unit.scale k).area := by omega
    exact ⟨Size.scale_same_aspect src k, (Size.scale_even_iff hsrc).mpr heven, hleast, hlargest,
      Nat.pos_of_mul_pos_right harea, Nat.pos_of_mul_pos_left harea⟩

end Build

/-! ## The three functions -/

namespace ResolutionAdapter

variable {a : ResolutionAdapter} {source current next : Size} {targetBitrate : Nat}

theorem get_bitrate_limits_front (a : ResolutionAdapter) :
    ∃ rest, a.getBitrateLimits = ⟨320, 180⟩ :: rest := by
  unfold getBitrateLimits getMaxPixelsForQuality
  cases a.videoQuality
  · exact ⟨_, rfl⟩
  · exact ⟨_, rfl⟩
  · exact ⟨_, rfl⟩

theorem get_bitrate_limits_back (a : ResolutionAdapter) :
    ∃ back, a.getBitrateLimits.getLast? = some back ∧ back.area = a.getMaxPixelsForQuality := by
  unfold getBitrateLimits getMaxPixelsForQuality
  cases a.videoQuality
  · exact ⟨⟨1280, 720⟩, rfl, rfl⟩
  · exact ⟨⟨1920, 1080⟩, rfl, rfl⟩
  · exact ⟨⟨3840, 2160⟩, rfl, rfl⟩

/-- The area of the lowest tier, of which no source needs more. -/
def minRung (source : Size) : Nat :=
  min (320 * 180) source.area

/-- The largest area of the quality, of which no source has more. -/
def maxRung (a : ResolutionAdapter) (source : Size) : Nat :=
  min a.getMaxPixelsForQuality source.area

/-- What `GetResolution` returns. -/
theorem get_resolution_spec (h : a.getResolution targetBitrate source = some next) :
    next.SameAspect source ∧ next.IsEven ∧ min (320 * 180) (a.maxRung source) ≤ next.area ∧
      next.area ≤ a.maxRung source ∧ next.IsPositive := by
  obtain ⟨rest, hlimits⟩ := a.get_bitrate_limits_front
  unfold getResolution at h
  rw [hlimits] at h
  by_cases hguard : source.width = 0 ∨ source.height = 0 ∨ targetBitrate = 0
  · rw [if_pos hguard] at h
    cases h
  · rw [if_neg hguard] at h
    exact build_strict_spec h

/-- What `GetNextLowerResolution` returns, of a source that is not smaller than the current size. -/
theorem next_lower_spec (hsmall : current.area ≤ source.area)
    (h : a.getNextLowerResolution current source = some next) :
    next.SameAspect source ∧ next.IsEven ∧ minRung source ≤ next.area ∧
      next.area ≤ min current.area source.area ∧
        next.width < current.width ∧ next.height < current.height := by
  obtain ⟨rest, hlimits⟩ := a.get_bitrate_limits_front
  unfold getNextLowerResolution at h
  rw [hlimits] at h
  simp only [if_neg (Nat.not_lt.mpr hsmall)] at h
  split_ifs at h with hguard hmin
  split at h
  · cases h
  · rename_i built hbuilt
    split_ifs at h with hless
    obtain rfl := Option.some.inj h
    obtain ⟨haspect, heven, hleast, hlargest, -⟩ := build_strict_spec hbuilt
    exact ⟨haspect, heven, hleast, hlargest, by omega, by omega⟩

/-- What `GetNextHigherResolution` returns. -/
theorem next_higher_spec (h : a.getNextHigherResolution current source = some next) :
    next.SameAspect source ∧ next.IsEven ∧ current.area ≤ next.area ∧
      next.area ≤ a.maxRung source ∧ current.width < next.width ∧ current.height < next.height := by
  obtain ⟨back, hlimits, hback⟩ := a.get_bitrate_limits_back
  unfold getNextHigherResolution at h
  rw [hlimits] at h
  simp only [hback] at h
  split_ifs at h with hguard hmax
  split at h
  · cases h
  · rename_i built hbuilt
    split_ifs at h with hmore
    obtain rfl := Option.some.inj h
    obtain ⟨haspect, heven, hleast, hlargest, -⟩ := build_strict_spec hbuilt
    exact ⟨haspect, heven, hleast, hlargest, by omega, by omega⟩

/-- The results of the three functions have the aspect ratio of the source, even sides and an area
within the bounds, and the next lower and the next higher one differ from the current size in both
sides. -/
theorem resolutions_valid (a : ResolutionAdapter) (source current : Size) (targetBitrate : Nat) :
    (∀ next, a.getResolution targetBitrate source = some next →
      next.SameAspect source ∧ next.IsEven ∧ min (320 * 180) (a.maxRung source) ≤ next.area ∧
        next.area ≤ source.area ∧ next.area ≤ a.getMaxPixelsForQuality) ∧
    (∀ next, current.area ≤ source.area → a.getNextLowerResolution current source = some next →
      next.SameAspect source ∧ next.IsEven ∧ minRung source ≤ next.area ∧
        next.area ≤ current.area ∧ next.area ≤ source.area ∧
          next.width < current.width ∧ next.height < current.height) ∧
    (∀ next, a.getNextHigherResolution current source = some next →
      next.SameAspect source ∧ next.IsEven ∧ current.area ≤ next.area ∧
        next.area ≤ source.area ∧ next.area ≤ a.getMaxPixelsForQuality ∧
          current.width < next.width ∧ current.height < next.height) := by
  refine ⟨fun next h => ?_, fun next hsmall h => ?_, fun next h => ?_⟩
  · obtain ⟨haspect, heven, hleast, hlargest, -⟩ := get_resolution_spec h
    unfold maxRung at hlargest
    exact ⟨haspect, heven, hleast, by omega, by omega⟩
  · obtain ⟨haspect, heven, hleast, hlargest, hless⟩ := next_lower_spec hsmall h
    exact ⟨haspect, heven, hleast, by omega, by omega, hless⟩
  · obtain ⟨haspect, heven, hleast, hlargest, hmore⟩ := next_higher_spec h
    unfold maxRung at hlargest
    exact ⟨haspect, heven, hleast, by omega, by omega, hmore⟩

/-- A 720p stream of a full-HD source. -/
theorem resolutions_valid_at_720p :
    let a : ResolutionAdapter := ⟨.medium, .balanced, id⟩
    a.getNextLowerResolution ⟨1280, 720⟩ ⟨1920, 1080⟩ = some ⟨1120, 630⟩ ∧
      Size.SameAspect ⟨1120, 630⟩ ⟨1920, 1080⟩ ∧ Size.area ⟨1120, 630⟩ ≤ Size.area ⟨1280, 720⟩ := by
  intro a
  have hlower : a.getNextLowerResolution ⟨1280, 720⟩ ⟨1920, 1080⟩ = some ⟨1120, 630⟩ := by
    decide +kernel
  have hvalid := (resolutions_valid a ⟨1920, 1080⟩ ⟨1280, 720⟩ 0).2.1 _ (by decide) hlower
  exact ⟨hlower, hvalid.1, hvalid.2.2.2.1⟩

end ResolutionAdapter

end MiniRtc
