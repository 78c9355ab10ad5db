import CadHarness.Comprehension.RasterTrace
import CadHarness.Geometry.Extents
import CadHarness.Geometry.FilletTheorems
import Mathlib.Analysis.Convex.Segment
import Mathlib.Data.List.GetD

/-!
# Arcs of raster images

A calibration turns the ordinates of pixels over, but the angles of an arc keep their order: the arc that comes out is
the rest of the circle.
-/

namespace CadHarness.Comprehension
open CadHarness.Geometry CadHarness.Lib

noncomputable section
open Classical

variable {vision : Vision} {points : List Point2D} {fit : CircleFit} {angles : List ℝ} {component : Component}

/-! ## Directions and gaps -/

theorem tau_pos : 0 < tau := Real.two_pi_pos

theorem length_directions (center : Point2D) : (directions center points).length = points.length := by
  simp [directions]

theorem pairwise_directions (center : Point2D) : (directions center points).Pairwise (· ≤ ·) :=
  List.pairwise_insertionSort _ _

theorem mem_directions {center : Point2D} {angle : ℝ} : angle ∈ directions center points ↔
    ∃ p ∈ points, modulo (atan2 (p.y - center.y) (p.x - center.x)) tau = angle := by
  rw [directions, List.mem_insertionSort, List.mem_map]

theorem directions_mem {center : Point2D} {angle : ℝ} (h : angle ∈ directions center points) : 0 ≤ angle ∧ angle < tau := by
  obtain ⟨p, -, rfl⟩ := mem_directions.mp h
  exact modulo_mem tau_pos

theorem length_turnGaps (h : angles ≠ []) : (turnGaps angles).length = angles.length := by
  cases angles with
  | nil => exact absurd rfl h
  | cons a l => simp [turnGaps]

/-- The gap after an angle reaches to the next one, after the last angle to the first one a turn later. -/
theorem getElem_turnGaps {i : Nat} (hi : i < (turnGaps angles).length) (hlast : i < angles.length) :
    (turnGaps angles)[i] = (if h : i + 1 < angles.length then angles[i + 1] else angles[0] + tau) - angles[i] := by
  cases angles with
  | nil => exact absurd hlast (Nat.not_lt_zero i)
  | cons a l =>
      simp only [turnGaps, List.getElem_map, List.getElem_zip, List.tail_cons, List.take_succ_cons, List.take_zero,
        List.map_cons, List.map_nil, List.getElem_cons_zero, List.length_cons, Nat.add_lt_add_iff_right]
      congr 1
      rw [List.getElem_append]
      split
      · simp
      · simp

theorem argmax_lt {l : List ℝ} (h : l ≠ []) : argmax l < l.length := by
  rw [argmax, List.findIdx_lt_length]
  exact ⟨_, (maximumOf_mem h).1, by simp⟩

theorem getD_argmax {l : List ℝ} (h : l ≠ []) : l.getD (argmax l) 0 = maximumOf l := by
  rw [List.getD_eq_getElem _ _ (argmax_lt h)]
  have hfound := List.findIdx_getElem (w := argmax_lt h)
  simp only [decide_eq_true_eq] at hfound
  exact hfound

/-! ## Fitted arcs -/

theorem circleFit_eq (h : circleFit vision points = some fit) : 8 ≤ points.length ∧ 0 < fit.radius ∧
    let angles := directions fit.center points
    fit.start = angles.getD ((argmax (turnGaps angles) + 1) % angles.length) 0 ∧
    fit.endAngle = angles.getD (argmax (turnGaps angles)) 0 ∧
    fit.sweep = tau - (turnGaps angles).getD (argmax (turnGaps angles)) 0 := by
  rw [circleFit] at h
  split_ifs at h with hlength
  cases hsolved : vision.lstsq points with
  | none => simp [hsolved] at h
  | some solution =>
      obtain ⟨centerX, centerY, constant⟩ := solution
      simp only [hsolved] at h
      split_ifs at h with hpos
      cases h
      exact ⟨not_lt.mp hlength, Real.sqrt_pos.mpr (not_le.mp hpos), rfl, rfl, rfl⟩

/-- The greatest gap is somewhere within the turn, or after the last direction. -/
theorem circleFit_ends (h : circleFit vision points = some fit) (hangles : angles = directions fit.center points) :
    (∃ i, ∃ hi : i + 1 < angles.length, fit.endAngle = angles[i] ∧ fit.start = angles[i + 1] ∧
      fit.sweep = tau - (angles[i + 1] - angles[i])) ∨
    ∃ hne : 0 < angles.length, fit.endAngle = angles[angles.length - 1] ∧ fit.start = angles[0] ∧
      fit.sweep = angles[angles.length - 1] - angles[0] := by
  obtain ⟨hlength, -, hstart, hend, hsweep⟩ := circleFit_eq h
  rw [← hangles] at hstart hend hsweep
  have hcount : angles.length = points.length := hangles ▸ length_directions fit.center
  have hne : angles ≠ [] := by
    intro hnil
    rw [hnil, List.length_nil] at hcount
    omega
  have hgaps := length_turnGaps hne
  have hi := argmax_lt (l := turnGaps angles) (by
    intro hnil
    rw [hnil, List.length_nil] at hgaps
    omega)
  set i := argmax (turnGaps angles)
  rw [hgaps] at hi
  rw [List.getD_eq_getElem _ _ (hgaps ▸ hi), getElem_turnGaps (hgaps ▸ hi) hi] at hsweep
  rw [List.getD_eq_getElem _ _ hi] at hend
  by_cases hinner : i + 1 < angles.length
  · left
    rw [Nat.mod_eq_of_lt hinner, List.getD_eq_getElem _ _ hinner] at hstart
    rw [dif_pos hinner] at hsweep
    exact ⟨i, hinner, hend, hstart, hsweep⟩
  · right
    have hlast : i = angles.length - 1 := by omega
    have hwrap : (i + 1) % angles.length = 0 := by
      rw [show i + 1 = angles.length by omega, Nat.mod_self]
    rw [hwrap, List.getD_eq_getElem _ _ (by omega)] at hstart
    rw [dif_neg hinner] at hsweep
    have hpos : 0 < angles.length := List.length_pos_of_ne_nil hne
    simp only [hlast] at hend hsweep
    exact ⟨hpos, hend, hstart, by rw [hsweep]; ring⟩

/-- From the start of a fit to its end is its sweep. -/
theorem modulo_ends (h : circleFit vision points = some fit) (hnonneg : 0 ≤ fit.sweep) (hlt : fit.sweep < tau) :
    modulo (fit.endAngle - fit.start) tau = fit.sweep := by
  cases circleFit_ends h rfl with
  | inl hinner =>
      obtain ⟨i, hi, hend, hstart, hsweep⟩ := hinner
      rw [← modulo_add_self tau_pos.ne', hend, hstart]
      rw [show (directions fit.center points)[i] - (directions fit.center points)[i + 1] + tau = fit.sweep by
        rw [hsweep]; ring]
      exact modulo_of_mem hnonneg hlt
  | inr hlast =>
      obtain ⟨hne, hend, hstart, hsweep⟩ := hlast
      rw [hend, hstart, ← hsweep]
      exact modulo_of_mem hnonneg hlt

/-- The pixels of a fitted component lie in the directions of its arc. -/
theorem directions_on_arc (h : circleFit vision points = some fit) {angle : ℝ}
    (hangle : angle ∈ directions fit.center points) :
    ∃ turn, 0 ≤ turn ∧ turn ≤ fit.sweep ∧ (fit.start + turn = angle ∨ fit.start + turn = angle + tau) := by
  obtain ⟨j, hj, rfl⟩ := List.getElem_of_mem hangle
  have hsorted {k l : Nat} (hl : l < (directions fit.center points).length) (hkl : k ≤ l) :
      (directions fit.center points)[k] ≤ (directions fit.center points)[l] := by
    rcases hkl.eq_or_lt with rfl | hlt
    · exact le_rfl
    · exact List.pairwise_iff_getElem.mp (pairwise_directions fit.center) k l (by omega) hl hlt
  have hbounds {k : Nat} (hk : k < (directions fit.center points).length) :=
    directions_mem (List.getElem_mem hk)
  cases circleFit_ends h rfl with
  | inl hinner =>
      obtain ⟨i, hi, hend, hstart, hsweep⟩ := hinner
      obtain ⟨hnonneg, hlt⟩ := hbounds hj
      by_cases hside : j ≤ i
      · refine ⟨(directions fit.center points)[j] + tau - fit.start, ?_, ?_, .inr (by ring)⟩
        · rw [hstart]
          linarith [(hbounds hi).2]
        · rw [hstart, hsweep]
          linarith [hsorted (by omega) hside]
      · refine ⟨(directions fit.center points)[j] - fit.start, ?_, ?_, .inl (by ring)⟩
        · rw [hstart]
          linarith [hsorted hj (show i + 1 ≤ j by omega)]
        · rw [hstart, hsweep]
          linarith [(hbounds (show i < (directions fit.center points).length by omega)).1]
  | inr hlast =>
      obtain ⟨hne, hend, hstart, hsweep⟩ := hlast
      refine ⟨(directions fit.center points)[j] - fit.start, ?_, ?_, .inl (by ring)⟩
      · rw [hstart]
        linarith [hsorted hj (Nat.zero_le j)]
      · rw [hstart, hsweep]
        linarith [hsorted (show (directions fit.center points).length - 1 < _ by omega) (show j ≤ _ by omega)]

/-! ## Detected arcs -/

variable {center : Point2D} {radius start endAngle : ℝ}

theorem circular_arc {shape : DetectedShape} (h : component.circular fit = some shape)
    (harc : shape.shape = .arc center radius start endAngle) :
    (fit.center = center ∧ fit.radius = radius ∧ fit.start = start ∧ fit.endAngle = endAngle) ∧
    radians 25 ≤ fit.sweep ∧ fit.sweep < tau * 0.88 := by
  simp only [Component.circular] at h
  split_ifs at h with hcircle hfit
  · cases h
    cases harc
  · cases h
    simp only [ShapeKind.arc.injEq] at harc
    exact ⟨harc, hfit.1, hfit.2.1⟩

theorem linear_ne_arc {line : LineFit} {shape : DetectedShape} (h : component.linear line = some shape) :
    shape.shape ≠ .arc center radius start endAngle := by
  simp only [Component.linear] at h
  split_ifs at h
  cases h
  simp

theorem outlined_ne_arc {contour : Contour} {shape : DetectedShape} (h : component.outlined contour = some shape) :
    shape.shape ≠ .arc center radius start endAngle := by
  simp only [Component.outlined] at h
  split_ifs at h <;> cases h <;> simp

/-- An arc comes from a fit that turns by more than nothing and less than a circle. -/
theorem classifyComponent_arc (h : (classifyComponent vision component).shape = .arc center radius start endAngle) :
    ∃ fit, circleFit vision component.pixels = some fit ∧
      (fit.center = center ∧ fit.radius = radius ∧ fit.start = start ∧ fit.endAngle = endAngle) ∧
      radians 25 ≤ fit.sweep ∧ fit.sweep < tau * 0.88 := by
  rw [classifyComponent] at h
  cases hcircular : (circleFit vision component.pixels).bind component.circular with
  | some shape =>
      obtain ⟨fit, hfit, hshape⟩ := Option.bind_eq_some_iff.mp hcircular
      rw [hcircular] at h
      exact ⟨fit, hfit, circular_arc hshape h⟩
  | none =>
      rw [hcircular] at h
      cases hlinear : (lineFit vision component.pixels).bind component.linear with
      | some shape =>
          obtain ⟨fit, -, hshape⟩ := Option.bind_eq_some_iff.mp hlinear
          rw [hlinear] at h
          exact absurd h (linear_ne_arc hshape)
      | none =>
          rw [hlinear] at h
          cases houtlined : (vision.findContours component.pixels).bind component.outlined with
          | some shape =>
              obtain ⟨contour, -, hshape⟩ := Option.bind_eq_some_iff.mp houtlined
              rw [houtlined] at h
              exact absurd h (outlined_ne_arc hshape)
          | none =>
              rw [houtlined] at h
              cases h

/-- What every detected arc satisfies. -/
structure ArcBounds (radius start endAngle : ℝ) : Prop where
  radius_pos : 0 < radius
  sweep_pos : radians 25 ≤ modulo (endAngle - start) tau
  sweep_lt : modulo (endAngle - start) tau < tau * 0.88

theorem arcBounds (h : (classifyComponent vision component).shape = .arc center radius start endAngle) :
    ArcBounds radius start endAngle := by
  obtain ⟨fit, hfit, ⟨-, rfl, rfl, rfl⟩, hmore, hless⟩ := classifyComponent_arc h
  have hpos := radians_pos (show (0 : ℝ) < 25 by norm_num)
  have hsweep := modulo_ends hfit (by linarith) (by linarith [tau_pos])
  exact ⟨(circleFit_eq hfit).2.1, by rwa [hsweep], by rwa [hsweep]⟩

/-- The pixels of a component lie in the directions of the points of its arc. -/
theorem pixel_on_arc (h : (classifyComponent vision component).shape = .arc center radius start endAngle) {p : Point2D}
    (hp : p ∈ component.pixels) :
    (⟨center.x + radius * Real.cos (atan2 (p.y - center.y) (p.x - center.x)),
      center.y + radius * Real.sin (atan2 (p.y - center.y) (p.x - center.x))⟩ : Point2D) ∈
      pixelArc center radius start endAngle := by
  obtain ⟨fit, hfit, ⟨rfl, rfl, rfl, rfl⟩, hmore, hless⟩ := classifyComponent_arc h
  have hpos := radians_pos (show (0 : ℝ) < 25 by norm_num)
  have hsweep := modulo_ends hfit (by linarith) (by linarith [tau_pos])
  set angle := atan2 (p.y - fit.center.y) (p.x - fit.center.x)
  obtain ⟨turn, hnonneg, hle, hturn⟩ := directions_on_arc hfit (mem_directions.mpr ⟨p, hp, rfl⟩)
  refine ⟨turn, hnonneg, hsweep ▸ hle, ?_⟩
  obtain ⟨k, hk⟩ : ∃ k : ℤ, fit.start + turn = angle + k * (2 * Real.pi) := by
    cases hturn with
    | inl hturn =>
        refine ⟨-⌊angle / tau⌋, ?_⟩
        rw [hturn, modulo, tau]
        push_cast
        ring
    | inr hturn =>
        refine ⟨1 - ⌊angle / tau⌋, ?_⟩
        rw [hturn, modulo, tau]
        push_cast
        ring
  rw [hk, Real.cos_add_int_mul_two_pi, Real.sin_add_int_mul_two_pi]

/-! ## Calibrations -/

/-- The point of a circle at an angle. -/
def polar (center : Point2D) (radius angle : ℝ) : Point2D :=
  ⟨center.x + radius * Real.cos angle, center.y + radius * Real.sin angle⟩

theorem toComplex_polar (angle : ℝ) : (polar center radius angle).toComplex = circleMap center.toComplex radius angle := by
  apply Complex.ext <;>
    simp [polar, Point2D.toComplex, circleMap, Complex.exp_ofReal_mul_I_re, Complex.exp_ofReal_mul_I_im]

theorem radians_directionOf (hr : 0 < radius) (angle : ℝ) :
    ∃ k : ℤ, radians (directionOf center (polar center radius angle)) = angle + k * (2 * Real.pi) := by
  have hatan : atan2 ((polar center radius angle).y - center.y) ((polar center radius angle).x - center.x) =
      Complex.arg (radius * (Complex.cos angle + Complex.sin angle * Complex.I)) := by
    rw [atan2]
    congr 1
    apply Complex.ext <;> simp [polar, Complex.cos_ofReal_re, Complex.sin_ofReal_re]
  have hturns := Complex.arg_mul_cos_add_sin_mul_I_sub hr angle
  rw [directionOf, radians_modulo, radians_degrees, hatan]
  refine ⟨⌊(Real.pi - angle) / (2 * Real.pi)⌋ - ⌊degrees (Complex.arg (radius * (Complex.cos angle +
    Complex.sin angle * Complex.I))) / 360⌋, ?_⟩
  push_cast
  linear_combination hturns

/-- The direction of the reference in the image. -/
def RasterCalibration.angle (calibration : RasterCalibration) : ℝ :=
  atan2 (calibration.pixelB.y - calibration.pixelA.y) (calibration.pixelB.x - calibration.pixelA.x)

theorem ux_eq (calibration : RasterCalibration) : calibration.ux = Real.cos calibration.angle ∧
    calibration.uy = Real.sin calibration.angle := by
  have hnorm : hypot calibration.pixelA calibration.pixelB =
      ‖(⟨calibration.pixelB.x - calibration.pixelA.x, calibration.pixelB.y - calibration.pixelA.y⟩ : ℂ)‖ := by
    rw [hypot, Complex.norm_def, Complex.normSq_mk]
    congr 1
    ring
  have hpos := calibration.distinct
  rw [RasterCalibration.ux, RasterCalibration.uy, RasterCalibration.angle, atan2, div_eq_iff hpos.ne', div_eq_iff hpos.ne',
    hnorm, mul_comm, Complex.norm_mul_cos_arg, mul_comm, Complex.norm_mul_sin_arg]
  exact ⟨rfl, rfl⟩

theorem millimetresPerPixel_pos (calibration : RasterCalibration) : 0 < calibration.millimetresPerPixel :=
  div_pos calibration.reference_pos calibration.distinct

/-- Seen in millimetres the circle runs the other way around. -/
theorem transformPoint_polar (calibration : RasterCalibration) (angle : ℝ) :
    transformPoint (some calibration) (polar center radius angle) =
      polar (transformPoint (some calibration) center) (radius * calibration.millimetresPerPixel)
        (calibration.angle - angle) := by
  obtain ⟨hx, hy⟩ := ux_eq calibration
  simp only [transformPoint, polar, hx, hy, Real.cos_sub, Real.sin_sub]
  apply Point2D.ext
  · simp only
    ring
  · simp only
    ring

theorem image_pixelArc : Point2D.toComplex '' pixelArc center radius start endAngle =
    circleArc center.toComplex radius start (start + modulo (endAngle - start) tau) := by
  obtain ⟨hnonneg, -⟩ := modulo_mem (a := endAngle - start) tau_pos
  rw [circleArc, Set.uIcc_of_le (by linarith)]
  ext z
  simp only [Set.mem_image, Set.mem_Icc]
  constructor
  · rintro ⟨p, ⟨turn, hturn, hle, rfl⟩, rfl⟩
    exact ⟨start + turn, ⟨by linarith, by linarith⟩, (toComplex_polar (start + turn)).symm⟩
  · rintro ⟨angle, ⟨hge, hle⟩, rfl⟩
    refine ⟨polar center radius angle, ⟨angle - start, by linarith, by linarith, ?_⟩, toComplex_polar angle⟩
    rw [add_sub_cancel, polar]

theorem image_transformed_pixelArc (calibration : RasterCalibration) :
    Point2D.toComplex '' (transformPoint (some calibration) '' pixelArc center radius start endAngle) =
      circleArc (transformPoint (some calibration) center).toComplex (radius * calibration.millimetresPerPixel)
        (calibration.angle - start) (calibration.angle - start - modulo (endAngle - start) tau) := by
  obtain ⟨hnonneg, -⟩ := modulo_mem (a := endAngle - start) tau_pos
  rw [circleArc, Set.uIcc_of_ge (by linarith)]
  ext z
  simp only [Set.mem_image, Set.mem_Icc, exists_exists_and_eq_and]
  constructor
  · rintro ⟨p, ⟨turn, hturn, hle, rfl⟩, rfl⟩
    refine ⟨calibration.angle - (start + turn), ⟨by linarith, by linarith⟩, ?_⟩
    rw [← toComplex_polar, ← transformPoint_polar]
    rfl
  · rintro ⟨angle, ⟨hge, hle⟩, rfl⟩
    refine ⟨polar center radius (calibration.angle - angle), ⟨calibration.angle - angle - start, by linarith,
      by linarith, ?_⟩, ?_⟩
    · rw [add_sub_cancel, polar]
    · rw [transformPoint_polar, toComplex_polar, sub_sub_cancel]

/-! ## Emitted arcs -/

theorem ccwSweep_add_turns (w : ℝ) (k : ℤ) : ccwSweep (w + k * 360) = ccwSweep w := by
  simp only [ccwSweep, modulo_add_turns (show (360 : ℝ) ≠ 0 by norm_num)]

/-- An arc whose angles are a turn apart runs counter-clockwise by this turn. -/
theorem image_arc_turn {first second turn : ℝ} {k l : ℤ} {a : ℝ} (hr : 0 < radius) (hturn : 1e-12 < degrees turn)
    (hle : degrees turn ≤ 360) (hfirst : radians first = a + k * (2 * Real.pi))
    (hsecond : radians second = a + turn + l * (2 * Real.pi)) :
    Point2D.toComplex '' (OperationGeometry.arc center radius first second).points =
      circleArc center.toComplex radius a (a + turn) := by
  have hdegrees : second - first = degrees turn + (l - k : ℤ) * 360 := by
    have hradians : radians (second - first) = radians (degrees turn + (l - k : ℤ) * 360) := by
      rw [radians_sub, hfirst, hsecond, radians_add, radians_degrees, mul_comm _ (360 : ℝ), radians_mul, radians_full]
      push_cast
      ring
    simpa [radians, Real.pi_ne_zero] using hradians
  rw [image_points_arc hr, hdegrees, ccwSweep_add_turns, ccwSweep_pos hturn hle, radians_degrees, hfirst,
    add_right_comm, circleArc_add_turns]

theorem degrees_lt {a b : ℝ} (h : a < b) : degrees a < degrees b :=
  mul_lt_mul_of_pos_right h (div_pos (by norm_num) Real.pi_pos)

theorem degrees_tau : degrees tau = 360 := by
  rw [degrees, tau]
  field_simp
  norm_num

theorem degrees_rest {sweep : ℝ} (hpos : 0 < sweep) (hlt : sweep < tau * 0.88) :
    1e-12 < degrees (tau - sweep) ∧ degrees (tau - sweep) ≤ 360 := by
  have hdegrees : degrees (tau * 0.88) = 360 * 0.88 := by
    rw [← degrees_tau]
    unfold degrees
    ring
  have hmore := degrees_lt hpos
  have hless := degrees_lt hlt
  rw [degrees_sub, degrees_tau]
  rw [hdegrees] at hless
  rw [degrees, zero_mul] at hmore
  constructor <;> linarith

theorem ArcBounds.sweep (h : ArcBounds radius start endAngle) : 0 < modulo (endAngle - start) tau :=
  (radians_pos (by norm_num)).trans_le h.sweep_pos

/-- Without a calibration an arc keeps its points. -/
theorem uncalibrated_arc (h : ArcBounds radius start endAngle) :
    (rasterGeometry none (.arc center radius start endAngle)).arcPoints = pixelArc center radius start endAngle := by
  obtain ⟨k, hk⟩ := @radians_directionOf center _ h.radius_pos start
  obtain ⟨l, hl⟩ := @radians_directionOf center _ h.radius_pos endAngle
  rw [← Point2D.toComplex_injective.image_injective.eq_iff, image_pixelArc]
  refine image_arc_turn (l := l + ⌊(endAngle - start) / tau⌋) h.radius_pos ?_ ?_ hk ?_
  · have hless := degrees_lt (h.sweep_pos.trans_lt' (radians_lt (show (1 : ℝ) < 25 by norm_num)))
    rw [degrees, radians, one_mul, div_mul_div_cancel₀ (by norm_num), div_self Real.pi_ne_zero] at hless
    linarith
  · rw [← degrees_tau]
    exact (degrees_lt (modulo_mem tau_pos).2).le
  · refine hl.trans ?_
    rw [modulo, tau]
    push_cast
    ring

/-- With a calibration the arc that is emitted runs on from the start of the image of the arc to its end. -/
theorem image_calibrated_arc (calibration : RasterCalibration) (h : ArcBounds radius start endAngle) :
    Point2D.toComplex '' (rasterGeometry (some calibration) (.arc center radius start endAngle)).arcPoints =
      circleArc (transformPoint (some calibration) center).toComplex (radius * calibration.millimetresPerPixel)
        (calibration.angle - start) (calibration.angle - start + (2 * Real.pi - modulo (endAngle - start) tau)) := by
  have hradius := mul_pos h.radius_pos (millimetresPerPixel_pos calibration)
  obtain ⟨k, hk⟩ := @radians_directionOf (transformPoint (some calibration) center) _ hradius
    (calibration.angle - start)
  obtain ⟨l, hl⟩ := @radians_directionOf (transformPoint (some calibration) center) _ hradius
    (calibration.angle - endAngle)
  rw [← transformPoint_polar] at hk hl
  obtain ⟨hmore, hless⟩ := degrees_rest h.sweep h.sweep_lt
  refine image_arc_turn (l := l - 1 - ⌊(endAngle - start) / tau⌋) hradius hmore hless hk ?_
  refine hl.trans ?_
  rw [modulo, tau]
  push_cast
  ring

/-- Together they are the whole circle. -/
theorem calibrated_arc_union (calibration : RasterCalibration) (h : ArcBounds radius start endAngle) :
    Point2D.toComplex '' ((rasterGeometry (some calibration) (.arc center radius start endAngle)).arcPoints ∪
        transformPoint (some calibration) '' pixelArc center radius start endAngle) =
      Set.range (circleMap (transformPoint (some calibration) center).toComplex
        (radius * calibration.millimetresPerPixel)) := by
  have hpos := h.sweep
  have hlt := h.sweep_lt
  have htau : tau = 2 * Real.pi := rfl
  have hpi := Real.pi_pos
  have hturn := circleArc_add_turns (transformPoint (some calibration) center).toComplex
    (radius * calibration.millimetresPerPixel) (calibration.angle - start)
    (calibration.angle - start - modulo (endAngle - start) tau) 1
  rw [Set.image_union, image_calibrated_arc calibration h, image_transformed_pixelArc, ← hturn,
    ← circleArc_eq_range (a := calibration.angle - start) le_rfl]
  simp only [circleArc, ← Set.image_union]
  congr 1
  have hmeet : calibration.angle - start - modulo (endAngle - start) tau + 2 * Real.pi =
      calibration.angle - start + (2 * Real.pi - modulo (endAngle - start) tau) := by ring
  rw [Int.cast_one, one_mul, hmeet, Set.uIcc_of_le (by linarith), Set.uIcc_of_ge (by linarith),
    Set.uIcc_of_le (by linarith), Set.Icc_union_Icc_eq_Icc (by linarith) (by linarith)]

theorem arcPoints_ne (calibration : RasterCalibration) (h : ArcBounds radius start endAngle) :
    (rasterGeometry (some calibration) (.arc center radius start endAngle)).arcPoints ≠
      transformPoint (some calibration) '' pixelArc center radius start endAngle := by
  intro heq
  have hpos := h.sweep
  have hradius := mul_pos h.radius_pos (millimetresPerPixel_pos calibration)
  have hmiddle := circleMap_mid_notMem_rest (c := (transformPoint (some calibration) center).toComplex)
    (a := calibration.angle - start) hradius.ne' hpos (modulo_mem tau_pos).2
  rw [← image_calibrated_arc calibration h, heq, image_transformed_pixelArc] at hmiddle
  apply hmiddle
  apply circleMap_mem_circleArc
  rw [Set.uIcc_of_ge (by linarith)]
  constructor <;> linarith

/-- No calibration gives an arc that is the image of the detected one. -/
theorem calibrated_arc_ne (vision : Vision) (component : Component) (calibration : RasterCalibration) (center : Point2D)
    (radius start endAngle : ℝ)
    (h : (classifyComponent vision component).shape = .arc center radius start endAngle) :
    (rasterGeometry (some calibration) (classifyComponent vision component).shape).arcPoints ≠
      transformPoint (some calibration) '' pixelArc center radius start endAngle := by
  rw [h]
  exact arcPoints_ne calibration (arcBounds h)

/-! ## Half of a ring -/

/-- Pixels in all directions of the lower half plane of an image, from one side to the other, turn by half a circle. -/
theorem sweep_eq_pi (h : circleFit vision points = some fit) (hbelow : ∀ angle ∈ directions fit.center points, angle ≤ Real.pi)
    (hzero : 0 ∈ directions fit.center points) (hpi : Real.pi ∈ directions fit.center points) : fit.sweep = Real.pi := by
  have htau : tau = 2 * Real.pi := rfl
  obtain ⟨-, -, -, -, hsweep⟩ := circleFit_eq h
  obtain ⟨angles, hangles⟩ : ∃ angles, angles = directions fit.center points := ⟨_, rfl⟩
  have hsorted := List.pairwise_iff_getElem.mp (hangles ▸ pairwise_directions fit.center)
  have hnonneg (angle : ℝ) (hangle : angle ∈ angles) : 0 ≤ angle := (directions_mem (hangles ▸ hangle)).1
  rw [← hangles] at hbelow hzero hpi hsweep
  have hne : angles ≠ [] := List.ne_nil_of_mem hzero
  have hpos : 0 < angles.length := List.length_pos_of_ne_nil hne
  have hgaps := length_turnGaps hne
  have hgapsne : turnGaps angles ≠ [] := by
    intro hnil
    rw [hnil, List.length_nil] at hgaps
    omega
  apply le_antisymm
  · -- The gap between the last and the first direction leaves half a circle.
    have hlast : angles.length - 1 < (turnGaps angles).length := by omega
    have hwrap : (turnGaps angles)[angles.length - 1] = angles[0] + tau - angles[angles.length - 1] := by
      rw [getElem_turnGaps hlast (by omega), dif_neg (by omega)]
    have hle := (maximumOf_mem hgapsne).2 _ (List.getElem_mem hlast)
    rw [getD_argmax hgapsne] at hsweep
    have hfirst := hnonneg _ (List.getElem_mem hpos)
    have hend := hbelow _ (List.getElem_mem (show angles.length - 1 < angles.length by omega))
    linarith
  · cases circleFit_ends h hangles with
    | inl hinner =>
        obtain ⟨i, hi, -, -, hinner⟩ := hinner
        have hnext := hbelow _ (List.getElem_mem hi)
        have hbefore := hnonneg _ (List.getElem_mem (show i < angles.length by omega))
        rw [hinner]
        linarith
    | inr hlast =>
        obtain ⟨_, -, -, hlast⟩ := hlast
        obtain ⟨i, hi, hzero⟩ := List.getElem_of_mem hzero
        obtain ⟨j, hj, hpi⟩ := List.getElem_of_mem hpi
        have hfirst : angles[0] ≤ 0 := by
          rcases Nat.eq_zero_or_pos i with rfl | hlt
          · exact hzero.le
          · exact hzero ▸ hsorted 0 i hpos hi hlt
        have hend : Real.pi ≤ angles[angles.length - 1] := by
          rcases Nat.lt_or_ge j (angles.length - 1) with hlt | hge
          · exact hpi ▸ hsorted j (angles.length - 1) hj (by omega) hlt
          · have heq : j = angles.length - 1 := by omega
            subst heq
            exact hpi.ge
        rw [hlast]
        linarith

def halfRingPixels : List Point2D :=
  [⟨0, 0⟩, ⟨10, 0⟩, ⟨1, 1⟩, ⟨2, 1⟩, ⟨8, 1⟩, ⟨9, 1⟩, ⟨2, 2⟩, ⟨8, 2⟩, ⟨2, 3⟩, ⟨3, 3⟩, ⟨4, 3⟩, ⟨5, 3⟩, ⟨6, 3⟩, ⟨7, 3⟩, ⟨8, 3⟩,
    ⟨3, 4⟩, ⟨4, 4⟩, ⟨5, 4⟩, ⟨6, 4⟩, ⟨7, 4⟩, ⟨5, 5⟩]

/-- A ring of radius four around its upper side, in an image of twenty pixels each way. -/
def halfRing : Component := ⟨halfRingPixels, 0, 0, 11, 6, 21, 20, 20⟩

/-- The circle equations of these pixels are solved by the circle of radius four. -/
def ringVision : Vision where
  lstsq _ := some (5, 0, -9)
  eigh _ _ _ := ((0, 0), ⟨1, 0⟩)
  findContours _ := none

/-- The errors of the solution are orthogonal to the columns of the equations. -/
theorem ringVision_normal : let error (p : Point2D) := p.x ^ 2 + p.y ^ 2 - (2 * p.x * 5 + 2 * p.y * 0 + -9)
    (halfRingPixels.map fun p => error p * p.x).sum = 0 ∧ (halfRingPixels.map fun p => error p * p.y).sum = 0 ∧
      (halfRingPixels.map error).sum = 0 := by
  simp only [halfRingPixels, List.map_cons, List.map_nil, List.sum_cons, List.sum_nil]
  norm_num

theorem hypot_halfRing : ∀ p ∈ halfRingPixels, |hypot ⟨5, 0⟩ p - 4| ≤ 1 := by
  have hring {x y : ℝ} (h9 : 3 ^ 2 ≤ (x - 5) ^ 2 + (y - 0) ^ 2) (h25 : (x - 5) ^ 2 + (y - 0) ^ 2 ≤ 5 ^ 2) :
      |hypot ⟨5, 0⟩ ⟨x, y⟩ - 4| ≤ 1 := by
    have hlower := Real.le_sqrt_of_sq_le h9
    have hupper := Real.sqrt_le_iff.mpr ⟨(by norm_num : (0 : ℝ) ≤ 5), h25⟩
    rw [hypot, abs_le]
    constructor <;> linarith
  simp only [halfRingPixels, List.forall_mem_cons, List.not_mem_nil, IsEmpty.forall_iff, implies_true, and_true]
  refine ⟨?_, ?_, ?_, ?_, ?_, ?_, ?_, ?_, ?_, ?_, ?_, ?_, ?_, ?_, ?_, ?_, ?_, ?_, ?_, ?_, ?_⟩ <;>
    exact hring (by norm_num) (by norm_num)

theorem directions_halfRing : (∀ angle ∈ directions ⟨5, 0⟩ halfRingPixels, angle ≤ Real.pi) ∧
    0 ∈ directions ⟨5, 0⟩ halfRingPixels ∧ Real.pi ∈ directions ⟨5, 0⟩ halfRingPixels := by
  have htau : Real.pi < tau := by
    rw [tau]
    linarith [Real.pi_pos]
  have hbelow : ∀ p ∈ halfRingPixels, 0 ≤ p.y - 0 := by
    simp only [halfRingPixels, List.forall_mem_cons, List.not_mem_nil, IsEmpty.forall_iff, implies_true, and_true]
    norm_num
  refine ⟨?_, mem_directions.mpr ⟨⟨10, 0⟩, by simp [halfRingPixels], ?_⟩,
    mem_directions.mpr ⟨⟨0, 0⟩, by simp [halfRingPixels], ?_⟩⟩
  · intro angle hangle
    obtain ⟨p, hp, rfl⟩ := mem_directions.mp hangle
    have hnonneg : 0 ≤ atan2 (p.y - 0) (p.x - 5) := Complex.arg_nonneg_iff.mpr (hbelow p hp)
    have hle : atan2 (p.y - 0) (p.x - 5) ≤ Real.pi := Complex.arg_le_pi _
    rwa [modulo_of_mem hnonneg (by linarith)]
  · have hzero : atan2 (0 - 0) (10 - 5) = 0 := Complex.arg_eq_zero_iff.mpr ⟨by norm_num, by norm_num⟩
    rw [hzero, modulo_of_mem le_rfl tau_pos]
  · have hpi : atan2 (0 - 0) (0 - 5) = Real.pi := Complex.arg_eq_pi_iff.mpr ⟨by norm_num, by norm_num⟩
    rw [hpi, modulo_of_mem Real.pi_pos.le htau]

theorem classifyComponent_halfRing :
    ∃ center radius start endAngle, (classifyComponent ringVision halfRing).shape = .arc center radius start endAngle := by
  have hradius : √(-9 + 5 * 5 + 0 * 0 : ℝ) = 4 := by
    rw [show (-9 + 5 * 5 + 0 * 0 : ℝ) = 4 ^ 2 by norm_num, Real.sqrt_sq (by norm_num)]
  obtain ⟨fit, hfit, hcenter, hfour, herror⟩ : ∃ fit, circleFit ringVision halfRingPixels = some fit ∧
      fit.center = ⟨5, 0⟩ ∧ fit.radius = 4 ∧ fit.error ≤ 1 := by
    rw [circleFit, if_neg (by simp [halfRingPixels])]
    simp only [ringVision, hradius]
    rw [if_neg (by norm_num)]
    refine ⟨_, rfl, rfl, rfl, ?_⟩
    rw [Real.sqrt_le_one]
    apply mean_le (by simp [halfRingPixels])
    intro u hu
    obtain ⟨p, hp, rfl⟩ := List.mem_map.mp hu
    rw [sq_le_one_iff_abs_le_one]
    exact hypot_halfRing p hp
  obtain ⟨hbelow, hzero, hpi⟩ := directions_halfRing
  rw [← hcenter] at hbelow hzero hpi
  have hsweep := sweep_eq_pi hfit hbelow hzero hpi
  have hpos := Real.pi_pos
  have hscore : (0.5 : ℝ) ≤ max 0 (1 - fit.error / max 2 (4 * 0.08)) := by
    rw [max_eq_left (by norm_num : (4 : ℝ) * 0.08 ≤ 2)]
    apply le_max_of_le_right
    linarith
  have hangle : radians 25 ≤ Real.pi := by
    rw [radians]
    linarith
  have hdiagonal : (4 : ℝ) ≤ √(20 ^ 2 + 20 ^ 2) * 2 := by
    have := Real.le_sqrt_of_sq_le (show (4 : ℝ) ^ 2 ≤ 20 ^ 2 + 20 ^ 2 by norm_num)
    linarith
  have hcircular : ∃ shape, halfRing.circular fit = some shape ∧
      shape.shape = .arc fit.center fit.radius fit.start fit.endAngle := by
    simp only [Component.circular, hsweep, hfour, halfRing]
    rw [if_neg (by rw [tau]; intro h; linarith [h.1]), if_pos]
    · exact ⟨_, rfl, rfl⟩
    · refine ⟨hangle, ?_, by norm_num, hdiagonal, hscore⟩
      rw [tau]
      linarith
  obtain ⟨shape, hshape, harc⟩ := hcircular
  have hbind : (circleFit ringVision halfRing.pixels).bind halfRing.circular = some shape := by
    rw [show halfRing.pixels = halfRingPixels from rfl, hfit]
    exact hshape
  refine ⟨fit.center, fit.radius, fit.start, fit.endAngle, ?_⟩
  rw [classifyComponent, hbind]
  exact harc

/-- One millimetre for each pixel. -/
def plainCalibration : RasterCalibration where
  pixelA := ⟨0, 0⟩
  pixelB := ⟨1, 0⟩
  referenceDistanceMm := 1
  reference_pos := one_pos
  distinct := by simp [hypot]

/-- The half of a ring comes out as the other half. -/
theorem halfRing_arc_ne : ∃ center radius start endAngle,
    (classifyComponent ringVision halfRing).shape = .arc center radius start endAngle ∧
    (rasterGeometry (some plainCalibration) (classifyComponent ringVision halfRing).shape).arcPoints ≠
      transformPoint (some plainCalibration) '' pixelArc center radius start endAngle := by
  obtain ⟨center, radius, start, endAngle, h⟩ := classifyComponent_halfRing
  refine ⟨center, radius, start, endAngle, h, ?_⟩
  rw [h]
  exact arcPoints_ne plainCalibration (arcBounds h)

theorem calibrated_arc_ne_halfRing : ∃ center radius start endAngle,
    (rasterGeometry (some plainCalibration) (classifyComponent ringVision halfRing).shape).arcPoints ≠
      transformPoint (some plainCalibration) '' pixelArc center radius start endAngle := by
  obtain ⟨center, radius, start, endAngle, h⟩ := classifyComponent_halfRing
  exact ⟨center, radius, start, endAngle, calibrated_arc_ne ringVision halfRing plainCalibration center radius start endAngle h⟩

end

end CadHarness.Comprehension
