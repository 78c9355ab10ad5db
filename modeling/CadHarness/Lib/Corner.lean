import CadHarness.Lib.Numerals
import Mathlib.Analysis.SpecialFunctions.Complex.Circle
import Mathlib.Analysis.SpecialFunctions.Trigonometric.Arctan

/-!
# Rounded corners

Two rays from an apex and the circular arc that touches both.
-/

namespace CadHarness.Lib
open Complex (I exp)

/-- Two rays, as a bisector and the angle to either side of it. The first ray is the bisector turned to the left
when `side` is one, and to the right when it is minus one. -/
structure Corner where
  apex : ℂ
  bisector : ℂ
  halfAngle : ℝ
  side : ℝ
  norm_bisector : ‖bisector‖ = 1
  halfAngle_pos : 0 < halfAngle
  halfAngle_lt : halfAngle < Real.pi / 2
  side_eq : side = 1 ∨ side = -1

namespace Corner

noncomputable section

variable (c : Corner)

/-- The direction at an angle from the bisector, counted towards the first ray. -/
def ray (angle : ℝ) : ℂ := c.bisector * exp (↑(c.side * angle) * I)

def first : ℂ := c.ray c.halfAngle

def second : ℂ := c.ray (-c.halfAngle)

/-- How far from the apex an arc touches the rays. -/
def tangentLength (radius : ℝ) : ℝ := radius / Real.tan c.halfAngle

def center (radius : ℝ) : ℂ := c.apex + c.bisector * ↑(radius / Real.sin c.halfAngle)

/-- The points of the arc, from the first ray at zero to the second one at one. -/
def arcPoint (radius fraction : ℝ) : ℂ :=
  c.center radius - radius * c.ray ((2 * fraction - 1) * (Real.pi / 2 - c.halfAngle))

variable {c : Corner} {radius fraction : ℝ}

theorem sin_pos : 0 < Real.sin c.halfAngle :=
  Real.sin_pos_of_pos_of_lt_pi c.halfAngle_pos (by linarith [c.halfAngle_lt, Real.pi_pos])

theorem cos_pos : 0 < Real.cos c.halfAngle :=
  Real.cos_pos_of_mem_Ioo ⟨by linarith [c.halfAngle_pos, Real.pi_pos], c.halfAngle_lt⟩

theorem side_mul_self : c.side * c.side = 1 := by
  rcases c.side_eq with h | h <;> rw [h] <;> norm_num

theorem cos_side (angle : ℝ) : Real.cos (c.side * angle) = Real.cos angle := by
  rcases c.side_eq with h | h <;> simp [h]

theorem sin_side (angle : ℝ) : Real.sin (c.side * angle) = c.side * Real.sin angle := by
  rcases c.side_eq with h | h <;> simp [h]

theorem ray_eq (angle : ℝ) :
    c.ray angle = c.bisector * (Real.cos angle + c.side * Real.sin angle * I) := by
  rw [ray, Complex.exp_mul_I, ← Complex.ofReal_cos, ← Complex.ofReal_sin, cos_side, sin_side]
  push_cast
  rfl

theorem norm_ray (angle : ℝ) : ‖c.ray angle‖ = 1 := by
  rw [ray, norm_mul, c.norm_bisector, Complex.norm_exp_ofReal_mul_I, one_mul]

theorem first_add_second : c.first + c.second = c.bisector * ↑(2 * Real.cos c.halfAngle) := by
  rw [first, second, ray_eq, ray_eq, Real.cos_neg, Real.sin_neg]
  push_cast
  ring

/-- The product whose parts are the dot product and the cross product of two rays. -/
theorem star_ray_mul_ray (a b : ℝ) :
    star (c.ray a) * c.ray b = ⟨Real.cos (b - a), c.side * Real.sin (b - a)⟩ := by
  have hbisector : star c.bisector * c.bisector = 1 := by
    rw [Complex.star_def, mul_comm, Complex.mul_conj, Complex.normSq_eq_norm_sq, c.norm_bisector, one_pow, Complex.ofReal_one]
  have hstar : star (exp (↑(c.side * a) * I)) = exp (-(↑(c.side * a) * I)) := by
    rw [Complex.star_def, ← Complex.exp_conj, map_mul, Complex.conj_ofReal, Complex.conj_I, mul_neg]
  have hangle : -(↑(c.side * a) * I) + ↑(c.side * b) * I = ↑(c.side * (b - a)) * I := by
    push_cast
    ring
  rw [ray, ray, star_mul', mul_mul_mul_comm, hbisector, one_mul, hstar, ← Complex.exp_add, hangle, Complex.exp_mul_I,
    ← Complex.ofReal_cos, ← Complex.ofReal_sin, cos_side, sin_side, Complex.mk_eq_add_mul_I]

theorem star_first_mul_second : star c.first * c.second =
    ⟨Real.cos (2 * c.halfAngle), -(c.side * Real.sin (2 * c.halfAngle))⟩ := by
  rw [first, second, star_ray_mul_ray, ← neg_add', ← two_mul, Real.cos_neg, Real.sin_neg, mul_neg]

theorem ray_add (a b : ℝ) : c.ray (a + b) = c.ray a * exp (↑(c.side * b) * I) := by
  rw [ray, ray, mul_add, Complex.ofReal_add, add_mul, Complex.exp_add, mul_assoc]

theorem arcPoint_sub_center : c.arcPoint radius fraction - c.center radius =
    -(radius * c.ray ((2 * fraction - 1) * (Real.pi / 2 - c.halfAngle))) := by
  rw [arcPoint]
  ring

theorem norm_arcPoint_sub_center (h : 0 < radius) : ‖c.arcPoint radius fraction - c.center radius‖ = radius := by
  rw [arcPoint_sub_center, norm_neg, norm_mul, norm_ray, Complex.norm_real, Real.norm_of_nonneg h.le, mul_one]

/-- The radius of the arc is perpendicular to the first ray where it touches it. -/
theorem star_arcPoint_zero_mul_first :
    (star (c.arcPoint radius 0 - c.center radius) * c.first).re = 0 := by
  have hangle : c.halfAngle - (2 * 0 - 1) * (Real.pi / 2 - c.halfAngle) = Real.pi / 2 := by ring
  rw [arcPoint_sub_center, star_neg, star_mul', neg_mul, mul_assoc, first, star_ray_mul_ray, hangle, Real.cos_pi_div_two,
    Complex.star_def, Complex.conj_ofReal, Complex.neg_re, Complex.re_ofReal_mul, mul_zero, neg_zero]

theorem star_arcPoint_one_mul_second :
    (star (c.arcPoint radius 1 - c.center radius) * c.second).re = 0 := by
  have hangle : -c.halfAngle - (2 * 1 - 1) * (Real.pi / 2 - c.halfAngle) = -(Real.pi / 2) := by ring
  rw [arcPoint_sub_center, star_neg, star_mul', neg_mul, mul_assoc, second, star_ray_mul_ray, hangle, Real.cos_neg,
    Real.cos_pi_div_two, Complex.star_def, Complex.conj_ofReal, Complex.neg_re, Complex.re_ofReal_mul, mul_zero, neg_zero]

/-- The arc turns from its start by what the rays leave of half a turn. -/
theorem arcPoint_turn : c.arcPoint radius fraction = c.center radius +
    (c.arcPoint radius 0 - c.center radius) * exp (↑(c.side * (Real.pi - 2 * c.halfAngle) * fraction) * I) := by
  have hangle : (2 * fraction - 1) * (Real.pi / 2 - c.halfAngle) =
      (2 * 0 - 1) * (Real.pi / 2 - c.halfAngle) + (Real.pi - 2 * c.halfAngle) * fraction := by ring
  rw [← sub_eq_iff_eq_add', arcPoint_sub_center, arcPoint_sub_center, hangle, ray_add, neg_mul, mul_assoc, mul_assoc c.side]

theorem tangentLength_eq : c.tangentLength radius = radius * Real.cos c.halfAngle / Real.sin c.halfAngle := by
  rw [tangentLength, Real.tan_eq_sin_div_cos, div_div_eq_mul_div]

theorem tangentLength_pos (h : 0 < radius) : 0 < c.tangentLength radius := by
  rw [tangentLength_eq]
  exact div_pos (mul_pos h c.cos_pos) c.sin_pos

/-- The arc starts where it touches the first ray. -/
theorem arcPoint_zero : c.arcPoint radius 0 = c.apex + c.first * c.tangentLength radius := by
  have hsin : (Real.sin c.halfAngle : ℂ) ≠ 0 := Complex.ofReal_ne_zero.mpr c.sin_pos.ne'
  have hangle : (2 * 0 - 1) * (Real.pi / 2 - c.halfAngle) = -(Real.pi / 2 - c.halfAngle) := by ring
  rw [arcPoint, first, center, tangentLength_eq, hangle, ray_eq, ray_eq, Real.cos_neg, Real.sin_neg,
    Real.cos_pi_div_two_sub, Real.sin_pi_div_two_sub]
  have hpyth : (Real.sin c.halfAngle : ℂ) ^ 2 + (Real.cos c.halfAngle : ℂ) ^ 2 = 1 := by
    exact_mod_cast Real.sin_sq_add_cos_sq c.halfAngle
  push_cast at hsin hpyth ⊢
  field_simp
  linear_combination -(c.bisector * radius) * hpyth

/-- It ends where it touches the second one. -/
theorem arcPoint_one : c.arcPoint radius 1 = c.apex + c.second * c.tangentLength radius := by
  have hsin : (Real.sin c.halfAngle : ℂ) ≠ 0 := Complex.ofReal_ne_zero.mpr c.sin_pos.ne'
  have hangle : (2 * 1 - 1) * (Real.pi / 2 - c.halfAngle) = Real.pi / 2 - c.halfAngle := by ring
  rw [arcPoint, second, center, tangentLength_eq, hangle, ray_eq, ray_eq, Real.cos_neg, Real.sin_neg,
    Real.cos_pi_div_two_sub, Real.sin_pi_div_two_sub]
  have hpyth : (Real.sin c.halfAngle : ℂ) ^ 2 + (Real.cos c.halfAngle : ℂ) ^ 2 = 1 := by
    exact_mod_cast Real.sin_sq_add_cos_sq c.halfAngle
  push_cast at hsin hpyth ⊢
  field_simp
  linear_combination -(c.bisector * radius) * hpyth

theorem arcPoint_sub_apex : c.arcPoint radius fraction - c.apex =
    c.bisector * ⟨radius / Real.sin c.halfAngle - radius * Real.cos ((2 * fraction - 1) * (Real.pi / 2 - c.halfAngle)),
      -(radius * c.side * Real.sin ((2 * fraction - 1) * (Real.pi / 2 - c.halfAngle)))⟩ := by
  rw [arcPoint, center, ray_eq, Complex.mk_eq_add_mul_I]
  push_cast
  ring

theorem norm_arcPoint_sub_apex_sq : ‖c.arcPoint radius fraction - c.apex‖ ^ 2 =
    (radius / Real.sin c.halfAngle) ^ 2 + radius ^ 2 - 2 * (radius / Real.sin c.halfAngle) * radius *
      Real.cos ((2 * fraction - 1) * (Real.pi / 2 - c.halfAngle)) := by
  rw [arcPoint_sub_apex, norm_mul, c.norm_bisector, one_mul, Complex.sq_norm, Complex.normSq_mk]
  have hside : c.side * c.side = 1 := c.side_mul_self
  have hpyth := Real.sin_sq_add_cos_sq ((2 * fraction - 1) * (Real.pi / 2 - c.halfAngle))
  linear_combination radius ^ 2 * hpyth +
    radius ^ 2 * Real.sin ((2 * fraction - 1) * (Real.pi / 2 - c.halfAngle)) ^ 2 * hside

/-- The direction of the bisector is in the middle of the arc, so that its cosine is least at the ends. -/
theorem sin_le_cos (h0 : 0 ≤ fraction) (h1 : fraction ≤ 1) :
    Real.sin c.halfAngle ≤ Real.cos ((2 * fraction - 1) * (Real.pi / 2 - c.halfAngle)) := by
  have hpos : 0 < Real.pi / 2 - c.halfAngle := by linarith [c.halfAngle_lt]
  have hle : |2 * fraction - 1| ≤ 1 := abs_le.mpr ⟨by linarith, by linarith⟩
  have habs : |(2 * fraction - 1) * (Real.pi / 2 - c.halfAngle)| ≤ Real.pi / 2 - c.halfAngle := by
    rw [abs_mul, abs_of_pos hpos]
    exact mul_le_of_le_one_left hpos.le hle
  rw [← Real.cos_pi_div_two_sub, ← Real.cos_abs ((2 * fraction - 1) * _)]
  exact Real.cos_le_cos_of_nonneg_of_le_pi (abs_nonneg _) (by linarith [c.halfAngle_pos, Real.pi_pos]) habs

/-- No point of the arc is further from the apex than its ends. -/
theorem norm_arcPoint_sub_apex_le (h : 0 < radius) (h0 : 0 ≤ fraction) (h1 : fraction ≤ 1) :
    ‖c.arcPoint radius fraction - c.apex‖ ≤ c.tangentLength radius := by
  have hsin := c.sin_pos
  refine le_of_sq_le_sq ?_ (tangentLength_pos h).le
  have hdistance : radius / Real.sin c.halfAngle * Real.sin c.halfAngle = radius := div_mul_cancel₀ _ hsin.ne'
  have hlength : c.tangentLength radius ^ 2 = (radius / Real.sin c.halfAngle) ^ 2 - radius ^ 2 := by
    rw [tangentLength_eq, div_pow, div_pow, mul_pow, Real.cos_sq']
    field_simp
  have hcos := mul_le_mul_of_nonneg_left (sin_le_cos (c := c) h0 h1)
    (mul_pos (div_pos h hsin) h).le
  rw [norm_arcPoint_sub_apex_sq, hlength]
  nlinarith

end

end Corner

end CadHarness.Lib
