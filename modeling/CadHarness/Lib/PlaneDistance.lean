import CadHarness.Lib.Numerals
import Mathlib.Analysis.CStarAlgebra.Classes
import Mathlib.Analysis.Complex.Basic
import Mathlib.Analysis.Convex.Jensen
import Mathlib.Analysis.Convex.PathConnected
import Mathlib.Analysis.Normed.Module.Convex
import Mathlib.Analysis.InnerProductSpace.Basic
import Mathlib.Topology.MetricSpace.HausdorffDistance
import Mathlib.Order.CompletePartialOrder
import Mathlib.Topology.Order.IntermediateValue

/-!
# Distances of sets in the plane

The distance of two sets is the infimum of the distances of their points. To a circle it is attained along a radius, and
between two segments that do not meet at an end of one of them.
-/

namespace CadHarness.Lib
open Set Metric

/-! ## Distances of sets -/

section

variable {α : Type} [PseudoMetricSpace α] {S T : Set α} {v : ℝ}

/-- The infimum of the distances between points of two sets. -/
noncomputable def setDist (S T : Set α) : ℝ := sInf (image2 dist S T)

theorem bddBelow_dist (S T : Set α) : BddBelow (image2 dist S T) :=
  ⟨0, by rintro _ ⟨x, -, y, -, rfl⟩; exact dist_nonneg⟩

theorem setDist_comm (S T : Set α) : setDist S T = setDist T S := by
  rw [setDist, setDist, image2_swap]
  simp only [dist_comm]

theorem setDist_le {x y : α} (hx : x ∈ S) (hy : y ∈ T) : setDist S T ≤ dist x y :=
  csInf_le (bddBelow_dist S T) ⟨x, hx, y, hy, rfl⟩

theorem le_setDist (hS : S.Nonempty) (hT : T.Nonempty) (h : ∀ x ∈ S, ∀ y ∈ T, v ≤ dist x y) : v ≤ setDist S T := by
  apply le_csInf (hS.image2 hT)
  rintro _ ⟨x, hx, y, hy, rfl⟩
  exact h x hx y hy

theorem setDist_nonneg (hS : S.Nonempty) (hT : T.Nonempty) : 0 ≤ setDist S T :=
  le_setDist hS hT fun _ _ _ _ => dist_nonneg

theorem setDist_anti {S' T' : Set α} (hS : S ⊆ S') (hT : T ⊆ T') (hne : S.Nonempty) (hne' : T.Nonempty) :
    setDist S' T' ≤ setDist S T :=
  le_setDist hne hne' fun _ hx _ hy => setDist_le (hS hx) (hT hy)

theorem setDist_le_infDist {x : α} (hx : x ∈ S) (hT : T.Nonempty) : setDist S T ≤ infDist x T :=
  (le_infDist hT).mpr fun _ hy => setDist_le hx hy

/-- The distance of two sets is the infimum over the points of one of them. -/
theorem sInf_infDist (hS : S.Nonempty) (hT : T.Nonempty) : sInf ((fun x => infDist x T) '' S) = setDist S T := by
  have hbelow : BddBelow ((fun x => infDist x T) '' S) := ⟨0, by rintro _ ⟨x, -, rfl⟩; exact infDist_nonneg⟩
  apply le_antisymm
  · apply le_setDist hS hT
    intro x hx y hy
    exact (csInf_le hbelow ⟨x, hx, rfl⟩).trans (infDist_le_dist_of_mem hy)
  · apply le_csInf (hS.image _)
    rintro _ ⟨x, hx, rfl⟩
    exact setDist_le_infDist hx hT

/-- Two sets give all distances alike up to a bound just when each is within it of the other. -/
theorem abs_infDist_sub_le_iff (hS : S.Nonempty) (hT : T.Nonempty) :
    (∀ x, |infDist x S - infDist x T| ≤ v) ↔ (∀ x ∈ S, infDist x T ≤ v) ∧ ∀ x ∈ T, infDist x S ≤ v := by
  constructor
  · intro h
    constructor
    · intro x hx
      have hclose := h x
      rw [infDist_zero_of_mem hx, zero_sub, abs_neg] at hclose
      exact (le_abs_self _).trans hclose
    · intro x hx
      have hclose := h x
      rw [infDist_zero_of_mem hx, sub_zero] at hclose
      exact (le_abs_self _).trans hclose
  · rintro ⟨hST, hTS⟩ x
    have hle {S T : Set α} (hT : T.Nonempty) (h : ∀ y ∈ T, infDist y S ≤ v) : infDist x S - v ≤ infDist x T := by
      rw [le_infDist hT]
      intro y hy
      have hstep := infDist_le_infDist_add_dist (x := x) (y := y) (s := S)
      linarith [h y hy]
    rw [abs_sub_le_iff]
    constructor
    · linarith [hle hT hTS]
    · linarith [hle hS hST]

theorem setDist_le_add {S' : Set α} (hS : S.Nonempty) (hS' : S'.Nonempty) (hT : T.Nonempty)
    (h : ∀ x ∈ S, infDist x S' ≤ v) : setDist S' T ≤ setDist S T + v := by
  rw [← sub_le_iff_le_add]
  apply le_setDist hS hT
  intro x hx y hy
  have hstep := infDist_le_infDist_add_dist (x := y) (y := x) (s := S')
  have hle := setDist_le_infDist hy hS'
  rw [setDist_comm] at hle
  rw [dist_comm] at hstep
  linarith [h x hx]

/-- Sets with a common point have no distance. -/
theorem setDist_of_meets {x : α} (hS : x ∈ S) (hT : x ∈ T) : setDist S T = 0 := by
  apply le_antisymm
  · simpa using setDist_le hS hT
  · exact setDist_nonneg ⟨x, hS⟩ ⟨x, hT⟩

end

/-! ## Circles -/

variable {c x y : ℂ} {r v : ℝ} {T : Set ℂ}

/-- The point of a circle on the radius through a point. -/
theorem exists_mem_sphere (c x : ℂ) (hr : 0 ≤ r) : ∃ p ∈ sphere c r, dist x p = |dist x c - r| := by
  by_cases hx : x = c
  · refine ⟨c + r, ?_, ?_⟩
    · simp [abs_of_nonneg hr]
    · rw [hx, dist_self, zero_sub, abs_neg, dist_self_add_right, Complex.norm_real, Real.norm_eq_abs]
  · have hpos : 0 < ‖x - c‖ := norm_pos_iff.mpr (sub_ne_zero.mpr hx)
    refine ⟨c + ((r / ‖x - c‖ : ℝ) : ℂ) * (x - c), ?_, ?_⟩
    · rw [mem_sphere_iff_norm, add_sub_cancel_left, norm_mul, Complex.norm_real, Real.norm_of_nonneg (by positivity),
        div_mul_cancel₀ _ hpos.ne']
    · have hfactor : x - (c + ((r / ‖x - c‖ : ℝ) : ℂ) * (x - c)) = ((1 - r / ‖x - c‖ : ℝ) : ℂ) * (x - c) := by
        push_cast
        ring
      have hscale : (1 - r / ‖x - c‖) * ‖x - c‖ = ‖x - c‖ - r := by rw [sub_mul, one_mul, div_mul_cancel₀ _ hpos.ne']
      rw [dist_eq_norm, hfactor, norm_mul, Complex.norm_real, Real.norm_eq_abs, dist_eq_norm, ← hscale, abs_mul, abs_norm]

/-- The opposite point of a circle is the farthest one. -/
theorem exists_farthest_mem_sphere (c x : ℂ) (hr : 0 ≤ r) : ∃ p ∈ sphere c r, dist x p = dist x c + r := by
  obtain ⟨q, hq, hdist⟩ := exists_mem_sphere c x hr
  refine ⟨2 * c - q, ?_, ?_⟩
  · rw [mem_sphere_iff_norm, two_mul, add_sub_right_comm, add_sub_cancel_right, norm_sub_rev]
    exact mem_sphere_iff_norm.mp hq
  · have hlaw := parallelogram_law_with_norm ℝ (x - c) (q - c)
    have hopposite : x - c + (q - c) = x - (2 * c - q) := by ring
    have hnear : x - c - (q - c) = x - q := by ring
    rw [hopposite, hnear, ← dist_eq_norm, ← dist_eq_norm, ← dist_eq_norm, mem_sphere_iff_norm.mp hq, hdist,
      sq_abs] at hlaw
    rw [← sq_eq_sq₀ dist_nonneg (add_nonneg dist_nonneg hr)]
    linear_combination hlaw

theorem infDist_sphere (c x : ℂ) (hr : 0 ≤ r) : infDist x (sphere c r) = |dist x c - r| := by
  obtain ⟨p, hp, hdist⟩ := exists_mem_sphere c x hr
  apply le_antisymm
  · exact hdist ▸ infDist_le_dist_of_mem hp
  · rw [le_infDist ⟨p, hp⟩]
    intro q hq
    rw [← mem_sphere.mp hq]
    exact abs_dist_sub_le x q c

/-- A set outside a circle is as far from it as its nearest point to the center. -/
theorem setDist_sphere_of_outside (hr : 0 ≤ r) (hT : T.Nonempty) (h : ∀ x ∈ T, r ≤ dist x c) :
    setDist (sphere c r) T = infDist c T - r := by
  have hsphere : (sphere c r).Nonempty := ⟨_, (exists_mem_sphere c c hr).choose_spec.1⟩
  rw [setDist_comm, ← sInf_infDist hT hsphere]
  have hvalues : (fun x => infDist x (sphere c r)) '' T = (fun x => dist x c - r) '' T := by
    apply image_congr
    intro x hx
    rw [infDist_sphere c x hr, abs_of_nonneg (sub_nonneg.mpr (h x hx))]
  rw [hvalues]
  have hbelow : BddBelow ((fun x => dist x c - r) '' T) :=
    ⟨-r, by rintro _ ⟨x, -, rfl⟩; linarith [dist_nonneg (x := x) (y := c)]⟩
  apply le_antisymm
  · rw [le_sub_iff_add_le, le_infDist hT]
    intro x hx
    have := csInf_le hbelow ⟨x, hx, rfl⟩
    rw [dist_comm c x]
    linarith
  · apply le_csInf (hT.image _)
    rintro _ ⟨x, hx, rfl⟩
    have := infDist_le_dist_of_mem (x := c) hx
    rw [dist_comm] at this
    linarith

/-- A connected set with points on both sides of a circle meets it. -/
theorem setDist_sphere_of_crossing (hT : IsPreconnected T) (hx : x ∈ T) (hy : y ∈ T) (hin : dist x c ≤ r)
    (hout : r ≤ dist y c) : setDist (sphere c r) T = 0 := by
  have hcontinuous : ContinuousOn (fun z => dist z c) T := (continuous_id.dist continuous_const).continuousOn
  obtain ⟨z, hz, heq⟩ := hT.intermediate_value hx hy hcontinuous ⟨hin, hout⟩
  exact setDist_of_meets (mem_sphere.mpr heq) hz

/-- A set inside a circle is as far from it as its farthest point from the center. -/
theorem setDist_sphere_of_inside (hr : 0 ≤ r) (hx : x ∈ T) (hmax : ∀ y ∈ T, dist y c ≤ dist x c) (hin : dist x c ≤ r) :
    setDist (sphere c r) T = r - dist x c := by
  obtain ⟨p, hp, hdist⟩ := exists_mem_sphere c x hr
  apply le_antisymm
  · have hle := setDist_le hp hx
    rwa [dist_comm, hdist, abs_of_nonpos (sub_nonpos.mpr hin), neg_sub] at hle
  · apply le_setDist ⟨p, hp⟩ ⟨x, hx⟩
    intro q hq y hy
    have htriangle := dist_triangle q y c
    have hmost := hmax y hy
    rw [mem_sphere.mp hq] at htriangle
    linarith

/-! ## Segments -/

section

/-- A way out of the unit square passes its boundary. -/
theorem exists_boundary {t s δt δs : ℝ} (ht : t ∈ Icc (0 : ℝ) 1) (hs : s ∈ Icc (0 : ℝ) 1)
    (hout : ¬ (t + δt ∈ Icc (0 : ℝ) 1 ∧ s + δs ∈ Icc (0 : ℝ) 1)) :
    ∃ l ∈ Icc (0 : ℝ) 1, t + l * δt ∈ Icc (0 : ℝ) 1 ∧ s + l * δs ∈ Icc (0 : ℝ) 1 ∧
      (t + l * δt = 0 ∨ t + l * δt = 1 ∨ s + l * δs = 0 ∨ s + l * δs = 1) := by
  -- How far inside the square the point is.
  let depth (l : ℝ) := min (min (t + l * δt) (1 - (t + l * δt))) (min (s + l * δs) (1 - (s + l * δs)))
  have hcontinuous : Continuous depth := by fun_prop
  have hstart : 0 ≤ depth 0 := by
    simp only [depth, zero_mul, add_zero, le_min_iff, sub_nonneg]
    exact ⟨ht, hs⟩
  have hend : depth 1 ≤ 0 := by
    by_contra hpos
    simp only [depth, one_mul, not_le, lt_min_iff] at hpos
    exact hout ⟨⟨hpos.1.1.le, by linarith⟩, ⟨hpos.2.1.le, by linarith⟩⟩
  obtain ⟨l, hl, hzero⟩ := intermediate_value_Icc' zero_le_one hcontinuous.continuousOn ⟨hend, hstart⟩
  have hinside : 0 ≤ depth l := hzero.ge
  simp only [depth, le_min_iff, sub_nonneg] at hinside
  refine ⟨l, hl, hinside.1, hinside.2, ?_⟩
  simp only [depth] at hzero
  rcases min_choice (min (t + l * δt) (1 - (t + l * δt))) (min (s + l * δs) (1 - (s + l * δs))) with h | h
  · rw [h] at hzero
    rcases min_choice (t + l * δt) (1 - (t + l * δt)) with h | h
    · exact .inl (h ▸ hzero)
    · exact .inr (.inl (by linarith [h ▸ hzero]))
  · rw [h] at hzero
    rcases min_choice (s + l * δs) (1 - (s + l * δs)) with h | h
    · exact .inr (.inr (.inl (h ▸ hzero)))
    · exact .inr (.inr (.inr (by linarith [h ▸ hzero])))

variable {a b c d x y : ℂ}

/-- Two directions that are not parallel span the plane. -/
theorem exists_combination {p q : ℂ} (hp : p ≠ 0) (hparallel : (q / p).im ≠ 0) (w : ℂ) :
    ∃ δt δs : ℝ, (δt : ℂ) * p - δs * q = -w := by
  refine ⟨(w / p).im / (q / p).im * (q / p).re - (w / p).re, (w / p).im / (q / p).im, ?_⟩
  rw [← div_mul_cancel₀ q hp, ← div_mul_cancel₀ w hp, ← mul_assoc, ← sub_mul, ← neg_mul]
  congr 1
  rw [mul_div_assoc, mul_div_assoc, div_self hp, mul_one, mul_one]
  apply Complex.ext
  · simp
  · simp [hparallel]

/-- From two points of segments that do not meet one gets to an end of one of them without going apart. -/
theorem exists_end_of_disjoint (hdisjoint : Disjoint (segment ℝ a b) (segment ℝ c d)) (hx : x ∈ segment ℝ a b)
    (hy : y ∈ segment ℝ c d) : ∃ x' ∈ segment ℝ a b, ∃ y' ∈ segment ℝ c d,
      (x' = a ∨ x' = b ∨ y' = c ∨ y' = d) ∧ dist x' y' ≤ dist x y := by
  rw [segment_eq_image'] at hx hy
  obtain ⟨t, ht, rfl⟩ := hx
  obtain ⟨s, hs, rfl⟩ := hy
  -- A direction that brings the points together and leads out of the segments.
  obtain ⟨δt, δs, v, hv0, hv1, hdirection, hout⟩ : ∃ δt δs v : ℝ, 0 ≤ v ∧ v ≤ 1 ∧
      ((δt : ℂ) * (b - a) - δs * (d - c) = -v * (a + t • (b - a) - (c + s • (d - c)))) ∧
      ¬ (t + δt ∈ Icc (0 : ℝ) 1 ∧ s + δs ∈ Icc (0 : ℝ) 1) := by
    by_cases hab : b - a = 0
    · refine ⟨2, 0, 0, le_rfl, zero_le_one, by simp [hab], fun h => ?_⟩
      linarith [h.1.2, ht.1]
    · by_cases hparallel : ((d - c) / (b - a)).im = 0
      · have hmultiple : d - c = (((d - c) / (b - a)).re : ℂ) * (b - a) := by
          rw [← div_eq_iff hab]
          exact Complex.ext rfl hparallel
        refine ⟨2 * ((d - c) / (b - a)).re, 2, 0, le_rfl, zero_le_one, ?_, fun h => ?_⟩
        · push_cast
          linear_combination -2 * hmultiple
        · linarith [h.2.2, hs.1]
      · obtain ⟨δt, δs, hdirection⟩ := exists_combination hab hparallel (a + t • (b - a) - (c + s • (d - c)))
        refine ⟨δt, δs, 1, zero_le_one, le_rfl, by rw [hdirection]; push_cast; ring, fun h => ?_⟩
        -- There the lines of the segments meet.
        refine Set.disjoint_left.mp hdisjoint (?_ : a + (t + δt) • (b - a) ∈ segment ℝ a b) ?_
        · rw [segment_eq_image']
          exact ⟨_, h.1, rfl⟩
        · rw [segment_eq_image']
          refine ⟨_, h.2, ?_⟩
          simp only [Complex.real_smul] at hdirection ⊢
          push_cast
          linear_combination -hdirection
  obtain ⟨l, hl, ht', hs', hend⟩ := exists_boundary ht hs hout
  refine ⟨a + (t + l * δt) • (b - a), ?_, c + (s + l * δs) • (d - c), ?_, ?_, ?_⟩
  · rw [segment_eq_image']
    exact ⟨_, ht', rfl⟩
  · rw [segment_eq_image']
    exact ⟨_, hs', rfl⟩
  · rcases hend with h | h | h | h
    · simp [h]
    · simp [h]
    · simp [h]
    · simp [h]
  · have hmove : a + (t + l * δt) • (b - a) - (c + (s + l * δs) • (d - c)) =
        ((1 - l * v : ℝ) : ℂ) * (a + t • (b - a) - (c + s • (d - c))) := by
      simp only [Complex.real_smul] at hdirection ⊢
      push_cast
      linear_combination (l : ℂ) * hdirection
    have hfactor : |1 - l * v| ≤ 1 := by
      rw [abs_of_nonneg (sub_nonneg.mpr (mul_le_one₀ hl.2 hv0 hv1))]
      linarith [mul_nonneg hl.1 hv0]
    rw [dist_eq_norm, dist_eq_norm, hmove, norm_mul, Complex.norm_real]
    exact mul_le_of_le_one_left (norm_nonneg _) hfactor

/-- A way along one segment beside another one that is longer comes to an end near it. -/
theorem exists_end_along {ε : ℝ} (hε : 0 < ε) (hlength : ‖b - a‖ ≤ ‖d - c‖) (hx : x ∈ segment ℝ a b) (hy : x ∈ segment ℝ c d)
    (hsmall : |(b - a).im * (d - c).re - (b - a).re * (d - c).im| ≤ ε * ε) :
    ∃ x' ∈ segment ℝ a b, ∃ y' ∈ segment ℝ c d, (x' = a ∨ x' = b ∨ y' = c ∨ y' = d) ∧ dist x' y' ≤ ε := by
  rcases le_or_gt ‖d - c‖ ε with hshort | hlong
  · refine ⟨a, left_mem_segment ℝ a b, x, hy, .inl rfl, ?_⟩
    have hle := (convexOn_dist a convex_univ).le_max_of_mem_segment trivial trivial hx
    rw [dist_self, max_eq_right dist_nonneg, dist_eq_norm b a] at hle
    rw [dist_comm]
    linarith
  · have hpos : 0 < ‖d - c‖ := hε.trans hlong
    have hne : d - c ≠ 0 := norm_pos_iff.mp hpos
    rw [segment_eq_image'] at hx hy
    obtain ⟨t, ht, rfl⟩ := hx
    obtain ⟨s, hs, heq⟩ := hy
    simp only [Complex.real_smul] at heq
    have hout : ¬ (t + 2 ∈ Icc (0 : ℝ) 1 ∧ s + 2 * ((b - a) / (d - c)).re ∈ Icc (0 : ℝ) 1) := by
      intro h
      linarith [h.1.2, ht.1]
    obtain ⟨l, hl, ht', hs', hend⟩ := exists_boundary ht hs hout
    refine ⟨a + (t + l * 2) • (b - a), ?_, c + (s + l * (2 * ((b - a) / (d - c)).re)) • (d - c), ?_, ?_, ?_⟩
    · rw [segment_eq_image']
      exact ⟨_, ht', rfl⟩
    · rw [segment_eq_image']
      exact ⟨_, hs', rfl⟩
    · rcases hend with h | h | h | h
      · simp [h]
      · simp [h]
      · simp [h]
      · simp [h]
    · -- Beside the longer segment only the part across it is left.
      have hacross : b - a - ((b - a) / (d - c)).re * (d - c) = ((b - a) / (d - c)).im * Complex.I * (d - c) := by
        rw [sub_eq_iff_eq_add, ← add_mul, add_comm, Complex.re_add_im, div_mul_cancel₀ _ hne]
      have hmove : a + (t + l * 2) • (b - a) - (c + (s + l * (2 * ((b - a) / (d - c)).re)) • (d - c)) =
          ((l * 2 * ((b - a) / (d - c)).im : ℝ) : ℂ) * Complex.I * (d - c) := by
        simp only [Complex.real_smul]
        push_cast
        linear_combination -heq + (l : ℂ) * 2 * hacross
      have him : |((b - a) / (d - c)).im| * ‖d - c‖ ≤ ε := by
        have hratio : ((b - a) / (d - c)).im = ((b - a).im * (d - c).re - (b - a).re * (d - c).im) / ‖d - c‖ ^ 2 := by
          rw [Complex.div_im, Complex.sq_norm, sub_div]
        rw [hratio, abs_div, abs_of_nonneg (sq_nonneg ‖d - c‖), div_mul_eq_mul_div, div_le_iff₀ (by positivity),
          sq, ← mul_assoc]
        exact mul_le_mul_of_nonneg_right (hsmall.trans (mul_le_mul_of_nonneg_left hlong.le hε.le)) hpos.le
      rw [dist_eq_norm, hmove, norm_mul, norm_mul, Complex.norm_I, mul_one, Complex.norm_real, Real.norm_eq_abs, abs_mul,
        abs_of_nonneg (mul_nonneg hl.1 zero_le_two), mul_assoc]
      exact (mul_le_of_le_one_left (by positivity) (by linarith [ht'.2, ht.1])).trans him

/-- Segments that meet at a small angle, or are short, have an end near the other one. -/
theorem exists_end_near {ε : ℝ} (hε : 0 < ε) (hx : x ∈ segment ℝ a b) (hy : x ∈ segment ℝ c d)
    (hsmall : |(b - a).im * (d - c).re - (b - a).re * (d - c).im| ≤ ε * ε) :
    ∃ x' ∈ segment ℝ a b, ∃ y' ∈ segment ℝ c d, (x' = a ∨ x' = b ∨ y' = c ∨ y' = d) ∧ dist x' y' ≤ ε := by
  rcases le_total ‖b - a‖ ‖d - c‖ with hle | hle
  · exact exists_end_along hε hle hx hy hsmall
  · have hswap : (d - c).im * (b - a).re - (d - c).re * (b - a).im =
        -((b - a).im * (d - c).re - (b - a).re * (d - c).im) := by ring
    obtain ⟨y', hy', x', hx', hend, hdist⟩ := exists_end_along hε hle hy hx (by rw [hswap, abs_neg]; exact hsmall)
    exact ⟨x', hx', y', hy', by tauto, by rwa [dist_comm]⟩

/-- The distance of segments that do not meet is that of an end of one of them. -/
theorem setDist_segment_of_disjoint (hdisjoint : Disjoint (segment ℝ a b) (segment ℝ c d)) :
    setDist (segment ℝ a b) (segment ℝ c d) =
      min (min (infDist a (segment ℝ c d)) (infDist b (segment ℝ c d)))
        (min (infDist c (segment ℝ a b)) (infDist d (segment ℝ a b))) := by
  have hfirst := left_mem_segment ℝ a b
  have hsecond := left_mem_segment ℝ c d
  apply le_antisymm
  · refine le_min (le_min ?_ ?_) (le_min ?_ ?_)
    · exact setDist_le_infDist hfirst ⟨c, hsecond⟩
    · exact setDist_le_infDist (right_mem_segment ℝ a b) ⟨c, hsecond⟩
    · rw [setDist_comm]
      exact setDist_le_infDist hsecond ⟨a, hfirst⟩
    · rw [setDist_comm]
      exact setDist_le_infDist (right_mem_segment ℝ c d) ⟨a, hfirst⟩
  · apply le_setDist ⟨a, hfirst⟩ ⟨c, hsecond⟩
    intro x hx y hy
    obtain ⟨x', hx', y', hy', hend, hle⟩ := exists_end_of_disjoint hdisjoint hx hy
    refine le_trans ?_ hle
    rcases hend with rfl | rfl | rfl | rfl
    · exact (min_le_left _ _).trans ((min_le_left _ _).trans (infDist_le_dist_of_mem hy'))
    · exact (min_le_left _ _).trans ((min_le_right _ _).trans (infDist_le_dist_of_mem hy'))
    · exact (min_le_right _ _).trans ((min_le_left _ _).trans (dist_comm x' y' ▸ infDist_le_dist_of_mem hx'))
    · exact (min_le_right _ _).trans ((min_le_right _ _).trans (dist_comm x' y' ▸ infDist_le_dist_of_mem hx'))

/-- How far along a segment a point is nearest to it, as a part of its length. -/
noncomputable def nearestPart (p a b : ℂ) : ℝ :=
  max 0 (min 1 (((p - a).re * (b - a).re + (p - a).im * (b - a).im) / ((b - a).re ^ 2 + (b - a).im ^ 2)))

theorem nearestPart_mem (p a b : ℂ) : nearestPart p a b ∈ Icc (0 : ℝ) 1 :=
  ⟨le_max_left _ _, max_le zero_le_one (min_le_left _ _)⟩

/-- A parabola is least on the unit interval where its vertex is held within the interval. -/
theorem parabola_clamp {L m t : ℝ} (hL : 0 ≤ L) (hm : L = 0 → m = 0) (ht : t ∈ Icc (0 : ℝ) 1) :
    max 0 (min 1 (m / L)) ^ 2 * L - 2 * max 0 (min 1 (m / L)) * m ≤ t ^ 2 * L - 2 * t * m := by
  rcases hL.eq_or_lt with h | hpos
  · simp [← h, hm h.symm]
  · rcases le_or_gt m 0 with hneg | hmpos
    · rw [max_eq_left (min_le_of_right_le (div_nonpos_of_nonpos_of_nonneg hneg hL))]
      nlinarith [mul_nonneg (sq_nonneg t) hL, mul_nonneg ht.1 (neg_nonneg.mpr hneg)]
    · rcases le_or_gt L m with hbig | hsmall
      · rw [min_eq_left ((one_le_div hpos).mpr hbig), max_eq_right zero_le_one]
        nlinarith [mul_nonneg (sub_nonneg.mpr ht.2) (sub_nonneg.mpr hbig), mul_nonneg (sq_nonneg (1 - t)) hL]
      · rw [min_eq_right ((div_le_one hpos).mpr hsmall.le), max_eq_right (div_nonneg hmpos.le hL)]
        have hvertex : t ^ 2 * L - 2 * t * m - ((m / L) ^ 2 * L - 2 * (m / L) * m) = (t - m / L) ^ 2 * L := by
          field_simp
          ring
        linarith [mul_nonneg (sq_nonneg (t - m / L)) hL]

theorem infDist_segment (p a b : ℂ) : infDist p (segment ℝ a b) = dist p (a + nearestPart p a b • (b - a)) := by
  have hsquare (t : ℝ) : dist p (a + t • (b - a)) ^ 2 = ‖p - a‖ ^ 2 +
      (t ^ 2 * ((b - a).re ^ 2 + (b - a).im ^ 2) - 2 * t * ((p - a).re * (b - a).re + (p - a).im * (b - a).im)) := by
    rw [dist_eq_norm, Complex.sq_norm, Complex.sq_norm, Complex.normSq_apply, Complex.normSq_apply]
    simp only [Complex.real_smul, Complex.sub_re, Complex.sub_im, Complex.add_re, Complex.add_im, Complex.mul_re,
      Complex.mul_im, Complex.ofReal_re, Complex.ofReal_im]
    ring
  apply le_antisymm
  · apply infDist_le_dist_of_mem
    rw [segment_eq_image']
    exact ⟨_, nearestPart_mem p a b, rfl⟩
  · rw [le_infDist ⟨a, left_mem_segment ℝ a b⟩, segment_eq_image']
    rintro _ ⟨t, ht, rfl⟩
    rw [← sq_le_sq₀ dist_nonneg dist_nonneg, hsquare, hsquare, add_le_add_iff_left]
    apply parabola_clamp (by positivity) _ ht
    intro hzero
    have hre : (b - a).re = 0 := by nlinarith [sq_nonneg (b - a).re, sq_nonneg (b - a).im]
    have him : (b - a).im = 0 := by nlinarith [sq_nonneg (b - a).re, sq_nonneg (b - a).im]
    rw [hre, him, mul_zero, mul_zero, add_zero]

end

end CadHarness.Lib
