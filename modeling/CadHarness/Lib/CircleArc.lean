import Mathlib.Analysis.CStarAlgebra.Classes
import Mathlib.Analysis.Convex.Segment
import Mathlib.Analysis.SpecialFunctions.Complex.CircleMap
import Mathlib.Analysis.SpecialFunctions.Trigonometric.Inverse
import Mathlib.Tactic.Linarith

/-!
# Arcs of a circle

The points that `circleMap` runs through between two angles. Which way it runs is forgotten, how far it
runs is not: a turn by less than the full angle and the turn back the other way around differ.
-/

namespace CadHarness.Lib
open Real Set

/-- The points between two angles, given in either order. -/
noncomputable def circleArc (c : ℂ) (R a b : ℝ) : Set ℂ := circleMap c R '' uIcc a b

variable {c : ℂ} {R a b s θ : ℝ}

theorem circleArc_comm (c : ℂ) (R a b : ℝ) : circleArc c R a b = circleArc c R b a := by
  rw [circleArc, circleArc, uIcc_comm]

/-- Whole turns do not move an arc. -/
theorem circleArc_add_turns (c : ℂ) (R a b : ℝ) (k : ℤ) :
    circleArc c R (a + k * (2 * π)) (b + k * (2 * π)) = circleArc c R a b := by
  have hturns (θ : ℝ) : circleMap c R (θ + k * (2 * π)) = circleMap c R θ := (periodic_circleMap c R).int_mul k θ
  rw [circleArc, circleArc, ← image_add_const_uIcc, image_image]
  simp only [hturns]

theorem circleMap_mem_circleArc (h : θ ∈ uIcc a b) : circleMap c R θ ∈ circleArc c R a b := ⟨θ, h, rfl⟩

/-- An angle strictly within one turn above every angle of the arc gives a point off the arc. -/
theorem circleMap_notMem_circleArc (hR : R ≠ 0) (h : ∀ φ ∈ uIcc a b, 0 < θ - φ ∧ θ - φ < 2 * π) :
    circleMap c R θ ∉ circleArc c R a b := by
  rintro ⟨φ, hφ, hp⟩
  obtain ⟨hpos, hlt⟩ := h φ hφ
  have heq : θ = φ := eq_of_circleMap_eq hR (by rw [abs_of_pos hpos]; exact hlt) hp.symm
  linarith

/-- A full turn reaches the whole circle. -/
theorem circleArc_eq_range (h : a + 2 * π ≤ b) : circleArc c R a b = range (circleMap c R) := by
  apply (image_subset_range _ _).antisymm
  rintro _ ⟨θ, rfl⟩
  obtain ⟨φ, hφ, heq⟩ := (periodic_circleMap c R).exists_mem_Ico two_pi_pos θ a
  rw [heq]
  apply circleMap_mem_circleArc
  rw [uIcc_of_le (by linarith [two_pi_pos])]
  exact ⟨hφ.1, by linarith [hφ.2]⟩

/-- Less than a full turn does not. -/
theorem circleArc_ne_range (hR : R ≠ 0) (hab : a ≤ b) (h : b < a + 2 * π) :
    circleArc c R a b ≠ range (circleMap c R) := by
  have hoff : circleMap c R ((a + b) / 2 + π) ∉ circleArc c R a b := by
    apply circleMap_notMem_circleArc hR
    intro φ hφ
    rw [uIcc_of_le hab] at hφ
    constructor <;> linarith [hφ.1, hφ.2]
  intro heq
  exact hoff (heq ▸ mem_range_self _)

/-- An arc and the rest of its circle differ: the middle of the one is not on the other. -/
theorem circleMap_mid_notMem_rest (hR : R ≠ 0) (hs : 0 < s) (hs' : s < 2 * π) :
    circleMap c R (a - s / 2) ∉ circleArc c R a (a + (2 * π - s)) := by
  rw [← periodic_circleMap c R (a - s / 2)]
  apply circleMap_notMem_circleArc hR
  intro φ hφ
  rw [uIcc_of_le (by linarith)] at hφ
  constructor <;> linarith [hφ.1, hφ.2]

end CadHarness.Lib

/-!
## Chords of a circle

An arc of at most half a turn and its chord are as close as the middle of the arc is to the chord.
-/

namespace CadHarness.Lib
open Real Set

variable {c z w : ℂ} {R a b : ℝ}

/-- A point of an arc and one of its chord that differ along the bisector only. -/
theorem dist_chord {m h φ t : ℝ} (hsin : sin φ = (2 * t - 1) * sin h) :
    dist (circleMap c R (m + φ))
      (circleMap c R (m - h) + t • (circleMap c R (m + h) - circleMap c R (m - h))) = |R| * |cos φ - cos h| := by
  have hunit (θ : ℝ) : circleMap c R (m + θ) = c + R * Complex.exp (m * Complex.I) * (cos θ + sin θ * Complex.I) := by
    rw [circleMap, Complex.ofReal_add, add_mul, Complex.exp_add, Complex.exp_ofReal_mul_I θ, mul_assoc]
  have hdiff : circleMap c R (m + φ) - (circleMap c R (m - h) + t • (circleMap c R (m + h) - circleMap c R (m - h))) =
      R * Complex.exp (m * Complex.I) * ((cos φ - cos h : ℝ) : ℂ) := by
    rw [sub_eq_add_neg m h, hunit, hunit, hunit, cos_neg, sin_neg, hsin, Complex.real_smul]
    push_cast
    ring
  rw [dist_eq_norm, hdiff, norm_mul, norm_mul, Complex.norm_exp_ofReal_mul_I, mul_one, Complex.norm_real, Complex.norm_real,
    norm_eq_abs, norm_eq_abs]

/-- How far a chord of a circle is from its arc. -/
noncomputable def sagitta (R a b : ℝ) : ℝ := R * (1 - cos ((b - a) / 2))

section

variable {m h φ : ℝ}

theorem cos_le_cos_of_abs (hφ : |φ| ≤ |h|) (hh : |h| ≤ π / 2) : cos h ≤ cos φ := by
  rw [← cos_abs h, ← cos_abs φ]
  exact cos_le_cos_of_nonneg_of_le_pi (abs_nonneg φ) (by linarith [pi_pos]) hφ

theorem abs_sin_le_of_abs (hφ : |φ| ≤ |h|) (hh : |h| ≤ π / 2) : |sin φ| ≤ |sin h| := by
  have habs (x : ℝ) (hx : |x| ≤ π / 2) : |sin x| = sin |x| := abs_sin_eq_sin_abs_of_abs_le_pi (by linarith [pi_pos])
  rw [habs φ (hφ.trans hh), habs h hh]
  exact sin_le_sin_of_le_of_le_pi_div_two (by linarith [abs_nonneg φ, pi_pos]) hh hφ

theorem add_mem_uIcc_iff : m + φ ∈ uIcc (m - h) (m + h) ↔ |φ| ≤ |h| := by
  rw [mem_uIcc, abs_le]
  rcases le_total 0 h with hpos | hneg
  · rw [abs_of_nonneg hpos]
    constructor
    · rintro (hφ | hφ)
      · constructor <;> linarith
      · constructor <;> linarith
    · intro hφ
      exact .inl ⟨by linarith, by linarith⟩
  · rw [abs_of_nonpos hneg]
    constructor
    · rintro (hφ | hφ)
      · constructor <;> linarith
      · constructor <;> linarith
    · intro hφ
      exact .inr ⟨by linarith, by linarith⟩

/-- At the same height above the bisector, the arc is beyond the chord by at most the sagitta. -/
theorem dist_chord_le {t : ℝ} (hR : 0 ≤ R) (hφ : |φ| ≤ |h|) (hh : |h| ≤ π / 2) (hsin : sin φ = (2 * t - 1) * sin h) :
    dist (circleMap c R (m + φ))
      (circleMap c R (m - h) + t • (circleMap c R (m + h) - circleMap c R (m - h))) ≤ R * (1 - cos h) := by
  rw [dist_chord hsin, abs_of_nonneg hR, abs_of_nonneg (sub_nonneg.mpr (cos_le_cos_of_abs hφ hh))]
  exact mul_le_mul_of_nonneg_left (sub_le_sub_right (cos_le_one φ) _) hR

end

theorem chord_near_arc (hR : 0 ≤ R) (h : |b - a| ≤ π) (hz : z ∈ segment ℝ (circleMap c R a) (circleMap c R b)) :
    ∃ w ∈ circleArc c R a b, dist z w ≤ sagitta R a b := by
  obtain ⟨m, k, rfl, rfl⟩ : ∃ m k, a = m - k ∧ b = m + k := ⟨(a + b) / 2, (b - a) / 2, by ring, by ring⟩
  have hk : (m + k - (m - k)) / 2 = k := by ring
  have hhalf : |k| ≤ π / 2 := by
    rw [← hk, abs_div, abs_two]
    linarith
  rw [segment_eq_image'] at hz
  obtain ⟨t, ht, rfl⟩ := hz
  have hpart : |2 * t - 1| ≤ 1 := abs_le.mpr ⟨by linarith [ht.1], by linarith [ht.2]⟩
  have hle : |(2 * t - 1) * sin k| ≤ |sin k| := by
    rw [abs_mul]
    exact mul_le_of_le_one_left (abs_nonneg _) hpart
  have hsin : sin (arcsin ((2 * t - 1) * sin k)) = (2 * t - 1) * sin k := by
    have hbound := abs_le.mp (hle.trans (abs_sin_le_one k))
    exact sin_arcsin hbound.1 hbound.2
  have hφ : |arcsin ((2 * t - 1) * sin k)| ≤ |k| := by
    rw [abs_sin_eq_sin_abs_of_abs_le_pi (by linarith [pi_pos]), abs_le] at hle
    have habs : arcsin (sin |k|) = |k| := arcsin_sin (by linarith [abs_nonneg k, pi_pos]) hhalf
    rw [abs_le, ← habs, ← arcsin_neg]
    exact ⟨monotone_arcsin hle.1, monotone_arcsin hle.2⟩
  refine ⟨circleMap c R (m + arcsin ((2 * t - 1) * sin k)), circleMap_mem_circleArc (add_mem_uIcc_iff.mpr hφ), ?_⟩
  rw [dist_comm, sagitta, hk]
  exact dist_chord_le hR hφ hhalf hsin

theorem arc_near_chord (hR : 0 ≤ R) (h : |b - a| ≤ π) (hw : w ∈ circleArc c R a b) :
    ∃ z ∈ segment ℝ (circleMap c R a) (circleMap c R b), dist w z ≤ sagitta R a b := by
  obtain ⟨m, k, rfl, rfl⟩ : ∃ m k, a = m - k ∧ b = m + k := ⟨(a + b) / 2, (b - a) / 2, by ring, by ring⟩
  have hk : (m + k - (m - k)) / 2 = k := by ring
  have hhalf : |k| ≤ π / 2 := by
    rw [← hk, abs_div, abs_two]
    linarith
  obtain ⟨θ, hθ, rfl⟩ := hw
  obtain ⟨φ, rfl⟩ : ∃ φ, θ = m + φ := ⟨θ - m, by ring⟩
  rw [add_mem_uIcc_iff] at hθ
  have hsin := abs_sin_le_of_abs hθ hhalf
  obtain ⟨t, ht, hheight⟩ : ∃ t ∈ Icc (0 : ℝ) 1, sin φ = (2 * t - 1) * sin k := by
    by_cases hzero : sin k = 0
    · rw [hzero, abs_zero, abs_nonpos_iff] at hsin
      exact ⟨0, ⟨le_rfl, zero_le_one⟩, by rw [hsin, hzero, mul_zero]⟩
    · have hpart : |sin φ / sin k| ≤ 1 := by
        rw [abs_div]
        exact (div_le_one (abs_pos.mpr hzero)).mpr hsin
      rw [abs_le] at hpart
      refine ⟨(sin φ / sin k + 1) / 2, ⟨by linarith, by linarith⟩, ?_⟩
      field_simp
      ring
  refine ⟨circleMap c R (m - k) + t • (circleMap c R (m + k) - circleMap c R (m - k)), ?_, ?_⟩
  · rw [segment_eq_image']
    exact ⟨t, ht, rfl⟩
  · rw [sagitta, hk]
    exact dist_chord_le hR hθ hhalf hheight

end CadHarness.Lib

/-!
## How far an arc reaches

The cosine on an interval is greatest at an end or at a whole turn.
-/

namespace CadHarness.Lib
open Real

/-- Within one turn the cosine falls and then rises. -/
theorem cos_le_max_of_within {α β θ : ℝ} (hα : 0 ≤ α) (hβ : β ≤ 2 * π) (hαθ : α ≤ θ) (hθβ : θ ≤ β) :
    cos θ ≤ max (cos α) (cos β) := by
  rcases le_total θ π with h | h
  · exact le_max_of_le_left (cos_le_cos_of_nonneg_of_le_pi hα h hαθ)
  · have hmirror (x : ℝ) : cos (2 * π - x) = cos x := by rw [cos_two_pi_sub]
    rw [← hmirror θ, ← hmirror β]
    exact le_max_of_le_right (cos_le_cos_of_nonneg_of_le_pi (by linarith) (by linarith) (by linarith))

theorem cos_le_of_between {α β θ m : ℝ} (hα : cos α ≤ m) (hβ : cos β ≤ m)
    (hturn : ∀ k : ℤ, α ≤ k * (2 * π) → k * (2 * π) ≤ β → 1 ≤ m) (hαθ : α ≤ θ) (hθβ : θ ≤ β) : cos θ ≤ m := by
  have hpos : 0 < 2 * π := two_pi_pos
  have hceil : α ≤ ⌈α / (2 * π)⌉ * (2 * π) := (div_le_iff₀ hpos).mp (Int.le_ceil _)
  by_cases hreach : ⌈α / (2 * π)⌉ * (2 * π) ≤ β
  · exact (cos_le_one θ).trans (hturn _ hceil hreach)
  · -- the interval lies within one turn
    have hlow : (⌈α / (2 * π)⌉ - 1 : ℝ) * (2 * π) < α := by
      rw [← lt_div_iff₀ hpos]
      linarith [Int.ceil_lt_add_one (α / (2 * π))]
    have hshift (x : ℝ) : cos (x - (⌈α / (2 * π)⌉ - 1 : ℤ) * (2 * π)) = cos x := cos_sub_int_mul_two_pi x _
    rw [← hshift θ]
    rw [← hshift α] at hα
    rw [← hshift β] at hβ
    push_cast at hα hβ ⊢
    exact (cos_le_max_of_within (by linarith) (by linarith) (by linarith) (by linarith)).trans (max_le hα hβ)

end CadHarness.Lib
