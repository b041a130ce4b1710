import AgentPlatform.Harness.State
import Mathlib.Analysis.Real.Sqrt
import Mathlib.Algebra.Order.Floor.Semiring

/-!
# Prepared images

`image_dimensions` of `filesystem_tools.rs`: an image is reduced until its longer side fits and its
area is that of the patches that the model may be charged. The source computes in `f64`; the
definition here is the same computation over the real numbers, and `fitted` computes its sides with
natural numbers.

**The two limits.** The sides keep to theirs. The patches do not: the scale is taken from the area,
and a side that ends inside a patch is charged all of it.
-/

namespace AgentPlatform.Harness.Images

/-- `PATCH_SIZE`. -/
def patchSize : Nat := 32

/-- What a prepared image may measure: `max_dimension` and `max_patches`. -/
structure Limits where
  maxDimension : Nat
  maxPatches : Nat
deriving DecidableEq, Repr

/-- The limits that `prepare_image` takes for a detail. -/
def limitsOf : ImageDetailChoice → Limits
  | .high => ⟨2048, 2500⟩
  | .original => ⟨6000, 10000⟩

/-- `u32::div_ceil` of a side by the size of a patch. -/
def patchesAlong (side : Nat) : Nat := (side + (patchSize - 1)) / patchSize

/-- The patches that an image is charged. -/
def patches (width height : Nat) : Nat := patchesAlong width * patchesAlong height

/-! ## The scale -/

noncomputable def dimensionScale (width height maxDimension : Nat) : ℝ :=
  min ((maxDimension : ℝ) / (max width height : ℕ)) 1

noncomputable def patchScale (width height maxPatches : Nat) : ℝ :=
  if maxPatches < patches width height then
    √((maxPatches * (patchSize * patchSize : ℕ)) / (width * height))
  else 1

/-- `image_dimensions`. -/
noncomputable def imageDimensions (width height : Nat) (limits : Limits) : Nat × Nat :=
  let scale := min (min (dimensionScale width height limits.maxDimension)
    (patchScale width height limits.maxPatches)) 1
  (max ⌊width * scale⌋₊ 1, max ⌊height * scale⌋₊ 1)

/-- One side of the reduced image, in natural numbers. -/
def fitted (limits : Limits) (side other : Nat) : Nat :=
  let byDimension := side * limits.maxDimension / max side other
  let byPatches :=
    if limits.maxPatches < patches side other then
      Nat.sqrt (limits.maxPatches * (patchSize * patchSize) * side / other)
    else side
  max (min (min byDimension byPatches) side) 1

variable {width height side other k : Nat} {limits : Limits}

theorem patches_comm (width height : Nat) : patches width height = patches height width :=
  Nat.mul_comm _ _

/-- What a reduced side is long: as the original, within the dimension, and within its share of
the patches' area if the image has too many patches. -/
def Within (limits : Limits) (side other k : Nat) : Prop :=
  k ≤ side ∧ k * max side other ≤ side * limits.maxDimension ∧
    (limits.maxPatches < patches side other →
      k * k * other ≤ limits.maxPatches * (patchSize * patchSize) * side)

theorem le_fitted (hside : 0 < side) (hother : 0 < other) (hk : 1 < k) :
    k ≤ fitted limits side other ↔ Within limits side other k := by
  have hmax : 0 < max side other := lt_max_of_lt_left hside
  have hne : ¬k ≤ 1 := by omega
  unfold fitted Within
  rw [le_max_iff, or_iff_left hne, le_min_iff, le_min_iff, Nat.le_div_iff_mul_le hmax, and_comm]
  by_cases crowded : limits.maxPatches < patches side other
  · rw [if_pos crowded, Nat.le_sqrt, Nat.le_div_iff_mul_le hother]
    simp only [crowded, true_implies]
  · rw [if_neg crowded]
    simp only [crowded, false_implies, and_true]
    constructor
    · intro h
      exact ⟨h.1, h.2.1⟩
    · intro h
      exact ⟨h.1, h.2, h.1⟩

/-- A product with the smaller of two scales. -/
theorem le_mul_min (k side : Nat) (a b : ℝ) :
    (k : ℝ) ≤ side * min a b ↔ (k : ℝ) ≤ side * a ∧ (k : ℝ) ≤ side * b := by
  rw [mul_min_of_nonneg a b (Nat.cast_nonneg side), le_min_iff]

theorem le_mul_dimensionScale (hside : 0 < side) :
    (k : ℝ) ≤ side * dimensionScale side other limits.maxDimension ↔
      k * max side other ≤ side * limits.maxDimension ∧ k ≤ side := by
  have hmax : (0 : ℝ) < (max side other : ℕ) := by exact_mod_cast lt_max_of_lt_left hside
  unfold dimensionScale
  rw [le_mul_min, mul_one, Nat.cast_le, ← mul_div_assoc, le_div_iff₀ hmax]
  exact and_congr_left fun _ => by exact_mod_cast Iff.rfl

/-- A side times the root of an area over the image's own is the root of the area in the side's
proportion. -/
theorem le_mul_sqrt (hside : 0 < side) (hother : 0 < other) (area : Nat) :
    (k : ℝ) ≤ side * √(area / (side * other)) ↔ k * k * other ≤ area * side := by
  have hs : (0 : ℝ) < side := by exact_mod_cast hside
  have ho : (0 : ℝ) < other := by exact_mod_cast hother
  have share : (side : ℝ) * √(area / (side * other)) = √(area * side / other) := by
    rw [show (area * side / other : ℝ) = side ^ 2 * (area / (side * other)) by field_simp,
      Real.sqrt_mul (by positivity), Real.sqrt_sq hs.le]
  have hshare : (0 : ℝ) ≤ area * side / other := by positivity
  rw [share, Real.le_sqrt (Nat.cast_nonneg k) hshare, le_div_iff₀ ho, pow_two]
  exact_mod_cast Iff.rfl

theorem le_mul_patchScale (hside : 0 < side) (hother : 0 < other) (hk : k ≤ side) :
    (k : ℝ) ≤ side * patchScale side other limits.maxPatches ↔
      (limits.maxPatches < patches side other →
        k * k * other ≤ limits.maxPatches * (patchSize * patchSize) * side) := by
  unfold patchScale
  by_cases crowded : limits.maxPatches < patches side other
  · rw [if_pos crowded, ← Nat.cast_mul, le_mul_sqrt hside hother]
    simp only [crowded, true_implies]
  · rw [if_neg crowded, mul_one, Nat.cast_le]
    simp only [crowded, false_implies, hk]

/-- What the scale leaves of a side. -/
theorem le_scaled (hside : 0 < side) (hother : 0 < other) (hk : 1 < k) :
    k ≤ max ⌊side * min (min (dimensionScale side other limits.maxDimension)
        (patchScale side other limits.maxPatches)) 1⌋₊ 1 ↔
      Within limits side other k := by
  have hscale : (0 : ℝ) ≤ side * min (min (dimensionScale side other limits.maxDimension)
      (patchScale side other limits.maxPatches)) 1 := by
    unfold dimensionScale patchScale
    positivity
  have hne : ¬k ≤ 1 := by omega
  rw [le_max_iff, or_iff_left hne, Nat.le_floor_iff hscale, le_mul_min, le_mul_min, mul_one,
    Nat.cast_le, le_mul_dimensionScale hside]
  unfold Within
  constructor
  · rintro ⟨⟨⟨hdimension, _⟩, hpatches⟩, hk⟩
    exact ⟨hk, hdimension, (le_mul_patchScale hside hother hk).mp hpatches⟩
  · rintro ⟨hk, hdimension, hpatches⟩
    exact ⟨⟨⟨hdimension, hk⟩, (le_mul_patchScale hside hother hk).mpr hpatches⟩, hk⟩

theorem dimensionScale_comm (width height maxDimension : Nat) :
    dimensionScale width height maxDimension = dimensionScale height width maxDimension := by
  unfold dimensionScale
  rw [max_comm]

theorem patchScale_comm (width height maxPatches : Nat) :
    patchScale width height maxPatches = patchScale height width maxPatches := by
  unfold patchScale
  rw [patches_comm, mul_comm (width : ℝ)]

theorem le_width (hwidth : 0 < width) (hheight : 0 < height) (hk : 1 < k) :
    k ≤ (imageDimensions width height limits).1 ↔ Within limits width height k :=
  le_scaled hwidth hheight hk

theorem le_height (hwidth : 0 < width) (hheight : 0 < height) (hk : 1 < k) :
    k ≤ (imageDimensions width height limits).2 ↔ Within limits height width k := by
  rw [← le_scaled hheight hwidth hk, dimensionScale_comm, patchScale_comm]
  exact Iff.rfl

/-- Numbers from one on that have the same greater ones below them are the same. -/
theorem eq_of_le_iff {m n : Nat} (hm : 1 ≤ m) (hn : 1 ≤ n) (h : ∀ k, 1 < k → (k ≤ m ↔ k ≤ n)) :
    m = n := by
  apply Nat.le_antisymm
  · by_cases one : 1 < m
    · exact (h m one).mp le_rfl
    · omega
  · by_cases one : 1 < n
    · exact (h n one).mpr le_rfl
    · omega

/-- The computation with natural numbers is that with real ones. -/
theorem imageDimensions_eq (hwidth : 0 < width) (hheight : 0 < height) :
    imageDimensions width height limits =
      (fitted limits width height, fitted limits height width) := by
  apply Prod.ext
  · apply eq_of_le_iff (le_max_right _ _) (le_max_right _ _)
    intro k hk
    exact (le_width hwidth hheight hk).trans (le_fitted hwidth hheight hk).symm
  · apply eq_of_le_iff (le_max_right _ _) (le_max_right _ _)
    intro k hk
    exact (le_height hwidth hheight hk).trans (le_fitted hheight hwidth hk).symm

/-! ## The limits -/

/-- The prepared image is no larger than the source and keeps to both limits. -/
def RespectsLimits (limits : Limits) (width height : Nat) : Prop :=
  let size := imageDimensions width height limits
  size.1 ≤ width ∧ size.2 ≤ height ∧
    size.1 ≤ limits.maxDimension ∧ size.2 ≤ limits.maxDimension ∧
    patches size.1 size.2 ≤ limits.maxPatches

/-- Whether a side at the reduced scale reaches into its patch of a number, counted from one. -/
def Reaches (limits : Limits) (side other patch : Nat) : Prop :=
  patch ≤ 1 ∨ Within limits side other (patchSize * (patch - 1) + 1)

theorem le_patchesAlong (hk : 1 ≤ k) (patch : Nat) :
    patch ≤ patchesAlong k ↔ patch ≤ 1 ∨ patchSize * (patch - 1) + 1 ≤ k := by
  unfold patchesAlong patchSize
  omega

theorem fitted_le (hside : 0 < side) : fitted limits side other ≤ side :=
  max_le (min_le_right _ _) hside

theorem fitted_le_maxDimension (hlimit : 0 < limits.maxDimension) :
    fitted limits side other ≤ limits.maxDimension := by
  apply max_le _ hlimit
  apply le_trans (min_le_left _ _)
  apply le_trans (min_le_left _ _)
  apply Nat.div_le_of_le_mul
  exact Nat.mul_le_mul_right _ (le_max_left _ _)

theorem le_patchesAlong_fitted (hside : 0 < side) (hother : 0 < other) (patch : Nat) :
    patch ≤ patchesAlong (fitted limits side other) ↔ Reaches limits side other patch := by
  have hfitted : 1 ≤ fitted limits side other := le_max_right _ _
  rw [le_patchesAlong hfitted]
  unfold Reaches
  by_cases one : patch ≤ 1
  · simp only [one, true_or]
  · rw [le_fitted hside hother (by unfold patchSize; omega)]

/-- An image that has few enough patches as it is keeps to both limits. -/
theorem respectsLimits_of_few (hlimit : 0 < limits.maxDimension) (hwidth : 0 < width)
    (hheight : 0 < height) (few : patches width height ≤ limits.maxPatches) :
    RespectsLimits limits width height := by
  have monotone : ∀ {a b : Nat}, a ≤ b → patchesAlong a ≤ patchesAlong b := by
    intro a b hab
    exact Nat.div_le_div_right (Nat.add_le_add_right hab _)
  unfold RespectsLimits
  rw [imageDimensions_eq hwidth hheight]
  refine ⟨fitted_le hwidth, fitted_le hheight, fitted_le_maxDimension hlimit,
    fitted_le_maxDimension hlimit, le_trans ?_ few⟩
  exact Nat.mul_le_mul (monotone (fitted_le hwidth)) (monotone (fitted_le hheight))

theorem respectsLimits_iff (hlimit : 0 < limits.maxDimension) (hwidth : 0 < width)
    (hheight : 0 < height) :
    RespectsLimits limits width height ↔
      ∀ across down, Reaches limits width height across → Reaches limits height width down →
        across * down ≤ limits.maxPatches := by
  unfold RespectsLimits
  rw [imageDimensions_eq hwidth hheight]
  constructor
  · rintro ⟨_, _, _, _, hpatches⟩ across down hacross hdown
    apply le_trans _ hpatches
    apply Nat.mul_le_mul
    · exact (le_patchesAlong_fitted hwidth hheight across).mpr hacross
    · exact (le_patchesAlong_fitted hheight hwidth down).mpr hdown
  · intro h
    refine ⟨fitted_le hwidth, fitted_le hheight, fitted_le_maxDimension hlimit,
      fitted_le_maxDimension hlimit, h _ _ ?_ ?_⟩
    · exact (le_patchesAlong_fitted hwidth hheight _).mp le_rfl
    · exact (le_patchesAlong_fitted hheight hwidth _).mp le_rfl

theorem maxDimension_pos (detail : ImageDetailChoice) : 0 < (limitsOf detail).maxDimension := by
  cases detail with
  | high => decide
  | original => decide

/-- A prepared image keeps to both limits exactly if its sides, at the reduced scale, never reach
together into more patches than are allowed. -/
theorem prepared_images_respect_limits (detail : ImageDetailChoice) (hwidth : 1 ≤ width)
    (hheight : 1 ≤ height) :
    RespectsLimits (limitsOf detail) width height ↔
      ∀ across down, Reaches (limitsOf detail) width height across →
        Reaches (limitsOf detail) height width down →
          across * down ≤ (limitsOf detail).maxPatches :=
  respectsLimits_iff (maxDimension_pos detail) hwidth hheight

/-- An icon keeps to both limits, so its sides reach into few patches. -/
theorem prepared_images_respect_limits_icon :
    RespectsLimits (limitsOf .high) 64 64 ↔
      ∀ across down, Reaches (limitsOf .high) 64 64 across →
        Reaches (limitsOf .high) 64 64 down → across * down ≤ (limitsOf .high).maxPatches :=
  prepared_images_respect_limits .high (by decide) (by decide)

/-- A photo of 4000 by 3000 is reduced to 1847 by 1385, which is 58 by 44 patches. -/
theorem photo_exceeds_patches :
    ¬∀ width height, 1 ≤ width → 1 ≤ height → ∀ detail,
      RespectsLimits (limitsOf detail) width height := by
  intro h
  have photo := h 4000 3000 (by decide) (by decide) .high
  have within := (respectsLimits_iff (by decide) (by decide) (by decide)).mp photo 58 44
  have across : Reaches (limitsOf .high) 4000 3000 58 := by
    right
    exact ⟨by decide, by decide, fun _ => by decide⟩
  have down : Reaches (limitsOf .high) 3000 4000 44 := by
    right
    exact ⟨by decide, by decide, fun _ => by decide⟩
  exact absurd (within across down) (by decide)

end AgentPlatform.Harness.Images
