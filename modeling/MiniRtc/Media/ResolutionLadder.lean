import MiniRtc.Media.ResolutionAdapter

/-!
# The rungs of the resolution ladder

The even multiples of the reduced source size are the rungs between which a stream moves. The next
lower and the next higher one are searched near the current area times 0.88 squared and divided by
it. `next_lower_none_iff` and `next_higher_none_iff` say when the search comes back to the current
size, or when there is no other rung within the bounds.
-/

namespace MiniRtc

/-- The target area of a downgrade, up to the rounding of single precision. -/
theorem scaled_area_down (area : Nat) :
    77439 * area ≤ 100000 * scaledArea area kDownscaleStep 24 + 50000 ∧
      100000 * scaledArea area kDownscaleStep 24 ≤ 77441 * area + 50000 := by
  have hfirst := round_to_single_near area
  have hsecond := round_to_single_near (roundToSingle area * kDownscaleStep)
  have hthird := round_to_single_near
    (roundToSingle (roundToSingle area * kDownscaleStep) * kDownscaleStep)
  have hround := llround_near
    (roundToSingle (roundToSingle (roundToSingle area * kDownscaleStep) * kDownscaleStep)) (2 * 24)
  unfold scaledArea
  simp only [kDownscaleStep] at *
  omega

/-- The target area of an upgrade. -/
theorem scaled_area_up (area : Nat) :
    129131 * area ≤ 100000 * scaledArea area kUpscaleStep 23 + 50000 ∧
      100000 * scaledArea area kUpscaleStep 23 ≤ 129133 * area + 50000 := by
  have hfirst := round_to_single_near area
  have hsecond := round_to_single_near (roundToSingle area * kUpscaleStep)
  have hthird := round_to_single_near
    (roundToSingle (roundToSingle area * kUpscaleStep) * kUpscaleStep)
  have hround := llround_near
    (roundToSingle (roundToSingle (roundToSingle area * kUpscaleStep) * kUpscaleStep)) (2 * 23)
  unfold scaledArea
  simp only [kUpscaleStep] at *
  omega

section Middle

variable {U n : Nat}

/-- A downgrade from the factor `n + 2` aims below the middle to the next one, except for 4 and 6. -/
theorem down_beyond_middle_iff (hn : n % 2 = 0) (hpos : 0 < n) (hlarge : 320 * 180 ≤ U * (n * n)) :
    2 * scaledArea (U * ((n + 2) * (n + 2))) kDownscaleStep 24 ≤
      U * (n * n) + U * ((n + 2) * (n + 2)) ↔ n ≠ 2 ∧ n ≠ 4 := by
  obtain ⟨hleast, hlargest⟩ := scaled_area_down (U * ((n + 2) * (n + 2)))
  generalize scaledArea _ _ _ = T at hleast hlargest ⊢
  have harea : U * ((n + 2) * (n + 2)) = U * (n * n) + 4 * (U * n) + 4 * U := by ring
  rw [harea] at hleast hlargest ⊢
  rcases Nat.lt_or_ge n 6 with hsmall | hbig
  · have hcases : n = 2 ∨ n = 4 := by omega
    rcases hcases with rfl | rfl
    · omega
    · omega
  · have hfirst : 6 * U ≤ U * n := by
      rw [Nat.mul_comm]
      exact Nat.mul_le_mul_left U hbig
    have hsecond : 6 * (U * n) ≤ U * (n * n) := by
      rw [← Nat.mul_assoc U, Nat.mul_comm 6]
      exact Nat.mul_le_mul_left (U * n) hbig
    generalize U * (n * n) = X at *
    generalize U * n = Y at *
    omega

/-- An upgrade from the factor `n` aims above the middle to the next one, except for 2, 4 and 6. -/
theorem up_beyond_middle_iff (hu : 0 < U) (hn : n % 2 = 0) (hpos : 0 < n) :
    U * (n * n) + U * ((n + 2) * (n + 2)) < 2 * scaledArea (U * (n * n)) kUpscaleStep 23 ↔
      n ≠ 2 ∧ n ≠ 4 ∧ n ≠ 6 := by
  obtain ⟨hleast, hlargest⟩ := scaled_area_up (U * (n * n))
  generalize scaledArea _ _ _ = T at hleast hlargest ⊢
  have harea : U * ((n + 2) * (n + 2)) = U * (n * n) + 4 * (U * n) + 4 * U := by ring
  rw [harea]
  rcases Nat.lt_or_ge n 8 with hsmall | hbig
  · have hcases : n = 2 ∨ n = 4 ∨ n = 6 := by omega
    rcases hcases with rfl | rfl | rfl
    · omega
    · omega
    · omega
  · have hfirst : 8 * U ≤ U * n := by
      rw [Nat.mul_comm]
      exact Nat.mul_le_mul_left U hbig
    have hsecond : 8 * (U * n) ≤ U * (n * n) := by
      rw [← Nat.mul_assoc U, Nat.mul_comm 8]
      exact Nat.mul_le_mul_left (U * n) hbig
    generalize U * (n * n) = X at *
    generalize U * n = Y at *
    omega

end Middle

namespace ResolutionAdapter

variable {a : ResolutionAdapter} {source : Size} {k : Nat}

/-- The factor of a size, and what its even multiple says about it. -/
theorem even_multiple {current : Size} (hs : source.IsPositive) (haspect : current.SameAspect source)
    (heven : current.IsEven) :
    current = source.unit.scale (Nat.gcd current.width current.height) ∧
      Nat.gcd current.width current.height % 2 = 0 := by
  obtain ⟨k, rfl⟩ := (Size.same_aspect_iff hs).mp haspect
  rw [Size.gcd_scale hs]
  exact ⟨rfl, (Size.scale_even_iff hs).mp heven⟩

/-- The guard of both functions. -/
theorem positive_multiple (hs : source.IsPositive) (hk : 0 < k) :
    ¬ ((source.unit.scale k).width = 0 ∨ (source.unit.scale k).height = 0 ∨ source.width = 0 ∨
      source.height = 0) := by
  have hwidth := Nat.mul_pos (Size.unit_positive hs).1 hk
  have hheight := Nat.mul_pos (Size.unit_positive hs).2 hk
  have hsource := hs.1
  have hsource' := hs.2
  unfold Size.scale
  simp only
  omega

/-- There is no lower resolution for a size that is small enough, or when the search comes back. -/
theorem next_lower_none_iff (a : ResolutionAdapter) (hs : source.IsPositive) (hk : 0 < k)
    (hin : (source.unit.scale k).area ≤ source.area) :
    a.getNextLowerResolution (source.unit.scale k) source = none ↔
      (source.unit.scale k).area ≤ minRung source ∨
        ∀ j, chosenK source.unit.area 2 (scaledArea (source.unit.scale k).area kDownscaleStep 24)
          (minRung source) (source.unit.scale k).area = some j → k ≤ j := by
  obtain ⟨rest, hlimits⟩ := a.get_bitrate_limits_front
  have hmin : min (Size.area ⟨320, 180⟩) source.area = minRung source := rfl
  unfold getNextLowerResolution
  rw [hlimits]
  simp only [if_neg (positive_multiple hs hk), if_neg (Nat.not_lt.mpr hin), hmin,
    Nat.min_eq_left hin]
  by_cases hsmall : (source.unit.scale k).area ≤ minRung source
  · rw [if_pos hsmall]
    exact iff_of_true rfl (Or.inl hsmall)
  · have hpos : 0 < minRung source := lt_min (by decide) (Size.area_pos hs)
    rw [if_neg hsmall, build_strict_eq hs hpos (by omega)]
    cases hchosen : chosenK source.unit.area 2 _ (minRung source) _ with
    | none => exact iff_of_true rfl (Or.inr fun j hj => by cases hj)
    | some j =>
        simp only [Option.map_some]
        have hwidth := Size.scale_lt_iff hs (k := k) (j := j)
        have hheight := Size.scale_height_lt_iff hs (k := k) (j := j)
        by_cases hless : j < k
        · rw [if_neg (by omega)]
          exact iff_of_false (by simp) fun h => by
            rcases h with h | h
            · exact hsmall h
            · exact absurd (h j rfl) (by omega)
        · rw [if_pos (by omega)]
          refine iff_of_true rfl (Or.inr fun i hi => ?_)
          obtain rfl := Option.some.inj hi
          omega

/-- There is no higher resolution for a size that is large enough, or when the search comes back. -/
theorem next_higher_none_iff (a : ResolutionAdapter) (hs : source.IsPositive) (hk : 0 < k) :
    a.getNextHigherResolution (source.unit.scale k) source = none ↔
      a.maxRung source ≤ (source.unit.scale k).area ∨
        ∀ j, chosenK source.unit.area 2 (scaledArea (source.unit.scale k).area kUpscaleStep 23)
          (source.unit.scale k).area (a.maxRung source) = some j → j ≤ k := by
  obtain ⟨back, hlimits, hback⟩ := a.get_bitrate_limits_back
  have hmax : min back.area source.area = a.maxRung source := by rw [hback, maxRung]
  unfold getNextHigherResolution
  rw [hlimits]
  simp only [if_neg (positive_multiple hs hk), hmax]
  by_cases hlarge : a.maxRung source ≤ (source.unit.scale k).area
  · rw [if_pos hlarge]
    exact iff_of_true rfl (Or.inl hlarge)
  · have hpos : 0 < (source.unit.scale k).area := by
      rw [Size.area_scale]
      exact Nat.mul_pos (Size.area_pos (Size.unit_positive hs)) (Nat.mul_pos hk hk)
    rw [if_neg hlarge, build_strict_eq hs hpos (by omega)]
    cases hchosen : chosenK source.unit.area 2 _ _ (a.maxRung source) with
    | none => exact iff_of_true rfl (Or.inr fun j hj => by cases hj)
    | some j =>
        simp only [Option.map_some]
        have hwidth := Size.scale_lt_iff hs (k := j) (j := k)
        have hheight := Size.scale_height_lt_iff hs (k := j) (j := k)
        by_cases hmore : k < j
        · rw [if_neg (by omega)]
          exact iff_of_false (by simp) fun h => by
            rcases h with h | h
            · exact hlarge h
            · exact absurd (h j rfl) (by omega)
        · rw [if_pos (by omega)]
          refine iff_of_true rfl (Or.inr fun i hi => ?_)
          obtain rfl := Option.some.inj hi
          omega

/-- A rung below a size, not below the lowest tier. -/
structure SmallerRung (source current s : Size) : Prop where
  aspect : s.SameAspect source
  even : s.IsEven
  less : s.width < current.width ∧ s.height < current.height
  large : minRung source ≤ s.area

/-- A rung above a size, within the quality and the source. -/
structure LargerRung (a : ResolutionAdapter) (source current s : Size) : Prop where
  aspect : s.SameAspect source
  even : s.IsEven
  more : current.width < s.width ∧ current.height < s.height
  small : s.area ≤ a.maxRung source

theorem smaller_rung_iff (hs : source.IsPositive) (hk : k % 2 = 0) :
    (∃ s, SmallerRung source (source.unit.scale (k + 2)) s) ↔
      minRung source ≤ source.unit.area * (k * k) := by
  constructor
  · rintro ⟨s, haspect, heven, hless, hlarge⟩
    obtain ⟨j, rfl⟩ := (Size.same_aspect_iff hs).mp haspect
    have hj := (Size.scale_even_iff hs).mp heven
    have hbelow := (Size.scale_lt_iff hs).mp hless.1
    rw [Size.area_scale] at hlarge
    exact hlarge.trans (Nat.mul_le_mul_left _ (Nat.mul_le_mul (by omega) (by omega)))
  · intro h
    refine ⟨source.unit.scale k, Size.scale_same_aspect source k, (Size.scale_even_iff hs).mpr hk,
      ⟨(Size.scale_lt_iff hs).mpr (by omega), (Size.scale_height_lt_iff hs).mpr (by omega)⟩, ?_⟩
    rwa [Size.area_scale]

theorem larger_rung_iff (a : ResolutionAdapter) (hs : source.IsPositive) (hk : k % 2 = 0) :
    (∃ s, LargerRung a source (source.unit.scale k) s) ↔
      source.unit.area * ((k + 2) * (k + 2)) ≤ a.maxRung source := by
  constructor
  · rintro ⟨s, haspect, heven, hmore, hsmall⟩
    obtain ⟨j, rfl⟩ := (Size.same_aspect_iff hs).mp haspect
    have hj := (Size.scale_even_iff hs).mp heven
    have habove := (Size.scale_lt_iff hs).mp hmore.1
    rw [Size.area_scale] at hsmall
    exact (Nat.mul_le_mul_left _ (Nat.mul_le_mul (by omega) (by omega))).trans hsmall
  · intro h
    refine ⟨source.unit.scale (k + 2), Size.scale_same_aspect source _,
      (Size.scale_even_iff hs).mpr (by omega),
      ⟨(Size.scale_lt_iff hs).mpr (by omega), (Size.scale_height_lt_iff hs).mpr (by omega)⟩, ?_⟩
    rwa [Size.area_scale]

/-- The factors 4 and 6 are not left downwards, although there is a rung. -/
structure DeadBelow (source current : Size) : Prop where
  inside : current.area ≤ source.area
  factor : Nat.gcd current.width current.height = 4 ∨ Nat.gcd current.width current.height = 6
  large : minRung source ≤
    (source.unit.scale (Nat.gcd current.width current.height - 2)).area

/-- The factors 2, 4 and 6 are not left upwards. -/
structure DeadAbove (a : ResolutionAdapter) (source current : Size) : Prop where
  factor : Nat.gcd current.width current.height = 2 ∨ Nat.gcd current.width current.height = 4 ∨
    Nat.gcd current.width current.height = 6
  small : (source.unit.scale (Nat.gcd current.width current.height + 2)).area ≤ a.maxRung source

/-- The way down ends at the last rung exactly when the current one is not dead. -/
theorem lower_complete_iff (a : ResolutionAdapter) (hs : source.IsPositive) (hk : k % 2 = 0) :
    (a.getNextLowerResolution (source.unit.scale (k + 2)) source = none →
      ¬ ∃ s, SmallerRung source (source.unit.scale (k + 2)) s) ↔
        ¬ DeadBelow source (source.unit.scale (k + 2)) := by
  have hunit := Size.area_pos (Size.unit_positive hs)
  have hmin : 0 < minRung source := lt_min (by decide) (Size.area_pos hs)
  have hdead : DeadBelow source (source.unit.scale (k + 2)) ↔
      (source.unit.scale (k + 2)).area ≤ source.area ∧ (k = 2 ∨ k = 4) ∧
        minRung source ≤ source.unit.area * (k * k) := by
    rw [← Size.area_scale]
    constructor
    · rintro ⟨hin, hfactor, hlarge⟩
      rw [Size.gcd_scale hs] at hfactor hlarge
      exact ⟨hin, by omega, hlarge⟩
    · rintro ⟨hin, hfactor, hlarge⟩
      refine ⟨hin, ?_, ?_⟩
      · rw [Size.gcd_scale hs]
        omega
      · rw [Size.gcd_scale hs]
        exact hlarge
  rw [smaller_rung_iff hs hk, hdead]
  by_cases hrung : minRung source ≤ source.unit.area * (k * k)
  · by_cases hin : (source.unit.scale (k + 2)).area ≤ source.area
    · have hpos : 0 < k := by
        by_contra hzero
        rw [show k = 0 by omega] at hrung
        omega
      have harea : source.unit.area * (k * k) < (source.unit.scale (k + 2)).area := by
        rw [Size.area_scale]
        exact Nat.mul_lt_mul_of_pos_left (Nat.mul_self_lt_mul_self (by omega)) hunit
      -- the source is larger than the lowest tier
      have hlarge : 320 * 180 ≤ source.unit.area * (k * k) := by
        have htier : minRung source = 320 * 180 ∨ minRung source = source.area := by
          unfold minRung
          omega
        omega
      obtain ⟨j, hj, hle, hless⟩ := chosen_k_below
        (t := scaledArea (source.unit.scale (k + 2)).area kDownscaleStep 24) hunit hk hmin hrung
      have hmiddle := down_beyond_middle_iff (U := source.unit.area) hk hpos hlarge
      rw [next_lower_none_iff a hs (by omega) hin]
      rw [Size.area_scale] at hj hless harea ⊢
      constructor
      · intro h hdead
        refine h (Or.inr fun i hi => ?_) hrung
        rw [hj] at hi
        obtain rfl := Option.some.inj hi
        by_contra hjump
        have hgood := hmiddle.mp (hless.mp (by omega))
        omega
      · intro h hnone _
        rcases hnone with hsmall | hback
        · omega
        · have hstays := hback j hj
          have hjump := hless.mpr (hmiddle.mpr (by
            constructor
            · exact fun h2 => h ⟨Size.area_scale .. ▸ hin, Or.inl h2, hrung⟩
            · exact fun h4 => h ⟨Size.area_scale .. ▸ hin, Or.inr h4, hrung⟩))
          omega
    · refine iff_of_true (fun hnone _ => ?_) fun h => hin h.1
      obtain ⟨rest, hlimits⟩ := a.get_bitrate_limits_front
      unfold getNextLowerResolution at hnone
      rw [hlimits] at hnone
      simp only [if_neg (positive_multiple hs (by omega : 0 < k + 2)),
        if_pos (Nat.not_le.mp hin)] at hnone
      cases hnone
  · exact iff_of_true (fun _ h => hrung h) fun h => hrung h.2.2

/-- And the way up ends at the last rung exactly when the current one is not dead. -/
theorem higher_complete_iff (a : ResolutionAdapter) (hs : source.IsPositive) (hk : k % 2 = 0)
    (hpos : 0 < k) :
    (a.getNextHigherResolution (source.unit.scale k) source = none →
      ¬ ∃ s, LargerRung a source (source.unit.scale k) s) ↔
        ¬ DeadAbove a source (source.unit.scale k) := by
  have hunit := Size.area_pos (Size.unit_positive hs)
  have hdead : DeadAbove a source (source.unit.scale k) ↔
      (k = 2 ∨ k = 4 ∨ k = 6) ∧ source.unit.area * ((k + 2) * (k + 2)) ≤ a.maxRung source := by
    rw [← Size.area_scale]
    constructor
    · rintro ⟨hfactor, hsmall⟩
      rw [Size.gcd_scale hs] at hfactor hsmall
      exact ⟨hfactor, hsmall⟩
    · rintro ⟨hfactor, hsmall⟩
      refine ⟨?_, ?_⟩
      · rwa [Size.gcd_scale hs]
      · rwa [Size.gcd_scale hs]
  rw [larger_rung_iff a hs hk, hdead]
  by_cases hrung : source.unit.area * ((k + 2) * (k + 2)) ≤ a.maxRung source
  · have harea : (source.unit.scale k).area < source.unit.area * ((k + 2) * (k + 2)) := by
      rw [Size.area_scale]
      exact Nat.mul_lt_mul_of_pos_left (Nat.mul_self_lt_mul_self (by omega)) hunit
    obtain ⟨j, hj, hle, hmore⟩ := chosen_k_above
      (t := scaledArea (source.unit.scale k).area kUpscaleStep 23) hunit hk hpos hrung
    have hmiddle := up_beyond_middle_iff (U := source.unit.area) hunit hk hpos
    rw [next_higher_none_iff a hs hpos]
    rw [Size.area_scale] at hj hmore harea ⊢
    constructor
    · intro h hdead
      refine h (Or.inr fun i hi => ?_) hrung
      rw [hj] at hi
      obtain rfl := Option.some.inj hi
      by_contra hjump
      have hgood := hmiddle.mp (hmore.mp (by omega))
      omega
    · intro h hnone _
      rcases hnone with hlarge | hback
      · omega
      · have hstays := hback j hj
        have hjump := hmore.mpr (hmiddle.mpr ⟨fun h2 => h ⟨Or.inl h2, hrung⟩,
          fun h4 => h ⟨Or.inr (Or.inl h4), hrung⟩, fun h6 => h ⟨Or.inr (Or.inr h6), hrung⟩⟩)
        omega
  · exact iff_of_true (fun _ h => hrung h) fun h => hrung h.2

/-- The ladder has no dead rung for a current size exactly when this has none of the small factors
at which the search comes back. -/
theorem no_dead_rungs_iff (a : ResolutionAdapter) {source current : Size}
    (hs : source.IsPositive) (hc : current.IsPositive) (haspect : current.SameAspect source)
    (heven : current.IsEven) :
    ((a.getNextLowerResolution current source = none → ¬ ∃ s, SmallerRung source current s) ∧
      (a.getNextHigherResolution current source = none → ¬ ∃ s, LargerRung a source current s)) ↔
        ¬ DeadBelow source current ∧ ¬ DeadAbove a source current := by
  obtain ⟨hmultiple, hfactor⟩ := even_multiple hs haspect heven
  have hgcd : 0 < Nat.gcd current.width current.height := Nat.gcd_pos_of_pos_left _ hc.1
  rw [hmultiple]
  generalize Nat.gcd current.width current.height = k at hfactor hgcd
  have habove := higher_complete_iff a hs hfactor hgcd
  obtain ⟨n, rfl⟩ : ∃ n, k = n + 2 := ⟨k - 2, by omega⟩
  have hbelow := lower_complete_iff a (k := n) hs (by omega)
  exact and_congr hbelow habove

/-- The ladder of a full-HD source at 720p. -/
theorem no_dead_rung_at_720p :
    let a : ResolutionAdapter := ⟨.medium, .balanced, id⟩
    a.getNextLowerResolution ⟨1280, 720⟩ ⟨1920, 1080⟩ = some ⟨1120, 630⟩ ∧
      (a.getNextHigherResolution ⟨1280, 720⟩ ⟨1920, 1080⟩ = none →
        ¬ ∃ s, LargerRung a ⟨1920, 1080⟩ ⟨1280, 720⟩ s) := by
  intro a
  have hdead : ¬ DeadBelow ⟨1920, 1080⟩ ⟨1280, 720⟩ ∧ ¬ DeadAbove a ⟨1920, 1080⟩ ⟨1280, 720⟩ :=
    ⟨fun h => absurd h.factor (by decide), fun h => absurd h.factor (by decide)⟩
  exact ⟨by decide +kernel, ((no_dead_rungs_iff a (by decide) (by decide) (by decide)
    (by decide)).mpr hdead).2⟩

/-- A source of 2732 by 1536 is not left downwards, although half of it is a rung. -/
theorem dead_rung_of_wide_source :
    let a : ResolutionAdapter := ⟨.high, .balanced, id⟩
    a.getNextLowerResolution ⟨2732, 1536⟩ ⟨2732, 1536⟩ = none ∧
      SmallerRung ⟨2732, 1536⟩ ⟨2732, 1536⟩ ⟨1366, 768⟩ ∧
      ¬ (a.getNextLowerResolution ⟨2732, 1536⟩ ⟨2732, 1536⟩ = none →
        ¬ ∃ s, SmallerRung ⟨2732, 1536⟩ ⟨2732, 1536⟩ s) := by
  intro a
  have hnone : a.getNextLowerResolution ⟨2732, 1536⟩ ⟨2732, 1536⟩ = none := by decide +kernel
  have hrung : SmallerRung ⟨2732, 1536⟩ ⟨2732, 1536⟩ ⟨1366, 768⟩ :=
    ⟨by decide, by decide, by decide, by decide⟩
  exact ⟨hnone, hrung, fun h => h hnone ⟨_, hrung⟩⟩

end ResolutionAdapter

end MiniRtc
