import CadHarness.Geometry.Theorems
import CadHarness.Lib.Corner
import CadHarness.Geometry.Extents
import Mathlib.Analysis.CStarAlgebra.Classes
import Mathlib.Analysis.Convex.StrictConvexBetween
import Mathlib.Analysis.InnerProductSpace.Convex
import Mathlib.Analysis.SpecialFunctions.Trigonometric.Bounds

/-!
# Fillets on their edges

The radius of a fillet is bounded by half of the shorter edge, whereas the arc touches the edges at the radius over
the tangent of half of the angle. The two bounds agree at a right angle only.
-/

namespace CadHarness.Geometry
open CadHarness.Lib Set
open Complex (I exp)

/-! ## Vectors -/

/-- The vector as a complex number. -/
def Vector2D.toComplex (v : Vector2D) : ℂ := ⟨v.dx, v.dy⟩

namespace Vector2D

theorem length_eq_norm (v : Vector2D) : v.length = ‖v.toComplex‖ := by
  rw [length, Complex.norm_def, Complex.normSq_apply, sq, sq]
  rfl

theorem dot_eq_re (v w : Vector2D) : v.dot w = (star v.toComplex * w.toComplex).re := by
  simp [dot, toComplex]

theorem cross_eq_im (v w : Vector2D) : v.cross w = (star v.toComplex * w.toComplex).im := by
  simp [cross, toComplex]
  ring

/-- A vector of positive length is divided by it. -/
theorem normalized_eq_ok {v w : Vector2D} :
    v.normalized = .ok w ↔ 0 < v.length ∧ v.toComplex = v.length * w.toComplex := by
  unfold normalized
  split
  · next hle => simp [not_lt.mpr hle]
  · next hlt =>
    have hpos : 0 < v.length := not_le.mp hlt
    simp only [Except.ok.injEq, hpos, true_and, Complex.ext_iff, toComplex, Complex.re_ofReal_mul, Complex.im_ofReal_mul]
    constructor
    · rintro rfl
      exact ⟨(mul_div_cancel₀ _ hpos.ne').symm, (mul_div_cancel₀ _ hpos.ne').symm⟩
    · rintro ⟨hx, hy⟩
      rw [hx, hy, mul_div_cancel_left₀ _ hpos.ne', mul_div_cancel_left₀ _ hpos.ne']

end Vector2D

theorem Point2D.toComplex_vectorTo (p q : Point2D) : (p.vectorTo q).toComplex = q.toComplex - p.toComplex := rfl

theorem Point2D.length_vectorTo (p q : Point2D) : (p.vectorTo q).length = p.distanceTo q := by
  rw [vectorTo, Vector2D.length, distanceTo, sub_sq_comm q.x, sub_sq_comm q.y]

theorem toComplex_offset (vertex : Point2D) (direction : Vector2D) (distance : ℝ) :
    (offset vertex direction distance).toComplex = vertex.toComplex + direction.toComplex * distance := by
  apply Complex.ext <;> simp [offset, Point2D.toComplex, Vector2D.toComplex]

theorem unitFromVertex_eq_ok {vertex point : Point2D} {unit : Vector2D} :
    unitFromVertex vertex point = .ok unit ↔ 0 < vertex.distanceTo point ∧
      point.toComplex = vertex.toComplex + unit.toComplex * vertex.distanceTo point := by
  have hnormal := Vector2D.normalized_eq_ok (v := vertex.vectorTo point) (w := unit)
  rw [Point2D.length_vectorTo, Point2D.toComplex_vectorTo, sub_eq_iff_eq_add', mul_comm] at hnormal
  unfold unitFromVertex
  dsimp only
  split
  · next hle =>
    rw [Point2D.length_vectorTo] at hle
    simp [not_lt.mpr hle]
  · exact hnormal

theorem unitFromVertex_norm {vertex point : Point2D} {unit : Vector2D} (h : unitFromVertex vertex point = .ok unit) :
    ‖unit.toComplex‖ = 1 := by
  obtain ⟨hpos, heq⟩ := unitFromVertex_eq_ok.mp h
  have hnorm := congrArg norm (sub_eq_iff_eq_add'.mpr heq)
  rw [← Point2D.toComplex_vectorTo, ← Vector2D.length_eq_norm, Point2D.length_vectorTo, norm_mul, Complex.norm_real,
    Real.norm_of_nonneg hpos.le] at hnorm
  exact (mul_eq_right₀ hpos.ne').mp hnorm.symm

/-! ## The corner of a fillet -/

/-- A unit number lies at the angle of its real part, on the side of its imaginary part. -/
theorem exp_side_arccos {z : ℂ} (h : ‖z‖ = 1) : ∃ side : ℝ, (side = 1 ∨ side = -1) ∧ (z.im < 0 → side = 1) ∧
    (¬ z.im < 0 → side = -1) ∧ z = exp (↑(side * -Real.arccos z.re) * I) := by
  have hpolar := Complex.norm_mul_exp_arg_mul_I z
  rw [h, Complex.ofReal_one, one_mul] at hpolar
  by_cases him : z.im < 0
  · refine ⟨1, .inl rfl, fun _ => rfl, fun hnot => absurd him hnot, ?_⟩
    rw [Complex.arg_of_im_neg him, h, div_one] at hpolar
    rw [one_mul, hpolar]
  · refine ⟨-1, .inr rfl, fun hneg => absurd hneg him, fun _ => rfl, ?_⟩
    have hne : z ≠ 0 := norm_ne_zero_iff.mp (h ▸ one_ne_zero)
    rw [Complex.arg_of_im_nonneg_of_ne_zero (not_lt.mp him) hne, h, div_one] at hpolar
    rw [neg_mul_neg, one_mul, hpolar]

/-- The angle between two unit vectors makes them the rays of a corner. -/
theorem interiorAngle_corner {first second : Vector2D} {angle : ℝ} (hfirst : ‖first.toComplex‖ = 1)
    (hsecond : ‖second.toComplex‖ = 1) (h : interiorAngle first second = .ok angle) (apex : ℂ) :
    ∃ c : Corner, c.apex = apex ∧ angle = 2 * c.halfAngle ∧ c.first = first.toComplex ∧ c.second = second.toComplex ∧
      (first.cross second < 0 → c.side = 1) ∧ (¬ first.cross second < 0 → c.side = -1) := by
  have hstar : first.toComplex * star first.toComplex = 1 := by
    rw [Complex.star_def, Complex.mul_conj, Complex.normSq_eq_norm_sq, hfirst, one_pow, Complex.ofReal_one]
  have hnorm : ‖star first.toComplex * second.toComplex‖ = 1 := by rw [norm_mul, norm_star, hfirst, hsecond, one_mul]
  obtain ⟨hlow, hhigh⟩ := abs_le.mp (hnorm ▸ Complex.abs_re_le_norm (star first.toComplex * second.toComplex))
  obtain ⟨side, hside, hright, hleft, hexp⟩ := exp_side_arccos hnorm
  unfold interiorAngle at h
  dsimp only at h
  rw [Vector2D.dot_eq_re, min_eq_right hhigh, max_eq_right hlow] at h
  rw [Vector2D.cross_eq_im]
  split at h
  · cases h
  next hwide =>
  obtain ⟨hpos, hlt⟩ := not_or.mp hwide
  obtain rfl := Except.ok.inj h
  generalize Real.arccos (star first.toComplex * second.toComplex).re = angle at *
  let c : Corner := {
    apex := apex
    bisector := first.toComplex * exp (↑(side * -(angle / 2)) * I)
    halfAngle := angle / 2
    side := side
    norm_bisector := by rw [norm_mul, hfirst, Complex.norm_exp_ofReal_mul_I, one_mul]
    halfAngle_pos := by linarith
    halfAngle_lt := by linarith
    side_eq := hside }
  refine ⟨c, rfl, (mul_div_cancel₀ _ two_ne_zero).symm, ?_, ?_, hright, hleft⟩
  · simp only [Corner.first, Corner.ray, c]
    rw [mul_assoc, ← Complex.exp_add, ← add_mul, ← Complex.ofReal_add, ← mul_add, neg_add_cancel, mul_zero,
      Complex.ofReal_zero, zero_mul, Complex.exp_zero, mul_one]
  · simp only [Corner.second, Corner.ray, c]
    rw [mul_assoc, ← Complex.exp_add, ← add_mul, ← Complex.ofReal_add, ← mul_add, ← neg_add, add_halves, ← hexp,
      ← mul_assoc, hstar, one_mul]

theorem radians_degrees (a : ℝ) : radians (degrees a) = a := by
  unfold radians degrees
  field_simp

theorem radians_halfTurn : radians 180 = Real.pi := by
  unfold radians
  field_simp

theorem degrees_sub (a b : ℝ) : degrees (a - b) = degrees a - degrees b := by unfold degrees; ring

theorem radians_neg (a : ℝ) : radians (-a) = -radians a := by unfold radians; ring

/-- An arc that starts towards a point of its circle turns that point around its center. -/
theorem normalizeArc_pointAt {center p : Point2D} {radius sweep : ℝ} {arc : CurveParams}
    (h : normalizeArc center radius (degrees (atan2 (p.y - center.y) (p.x - center.x))) none (some sweep) = .ok arc)
    (hnorm : ‖p.toComplex - center.toComplex‖ = radius) (t : ℝ) :
    (arc.pointAt t).toComplex =
      center.toComplex + (p.toComplex - center.toComplex) * exp (↑(radians sweep * t) * I) := by
  obtain ⟨hcenter, hradius, hstart, hsweep⟩ := normalizeArc_sweep h
  have hpolar := Complex.norm_mul_exp_arg_mul_I (p.toComplex - center.toComplex)
  rw [hnorm] at hpolar
  rw [CurveParams.toComplex_pointAt hradius, hcenter, hstart, hsweep, circleMap, radians_add, radians_mul, radians_degrees,
    Complex.ofReal_add, add_mul, Complex.exp_add, ← mul_assoc]
  exact congrArg (fun z => center.toComplex + z * _) hpolar

/-- A path turns left at a vertex where the way back is to the right of the way on. -/
theorem turn_pos_iff {previous vertex following : Point2D} {first second : Vector2D}
    (hfirst : unitFromVertex vertex previous = .ok first) (hsecond : unitFromVertex vertex following = .ok second) :
    0 < turn previous vertex following ↔ first.cross second < 0 := by
  obtain ⟨hfirstpos, hprevious⟩ := unitFromVertex_eq_ok.mp hfirst
  obtain ⟨hsecondpos, hfollowing⟩ := unitFromVertex_eq_ok.mp hsecond
  have hturn : turn previous vertex following =
      -(vertex.distanceTo previous * vertex.distanceTo following * first.cross second) := by
    rw [turn, Vector2D.cross_eq_im, Vector2D.cross_eq_im, Point2D.toComplex_vectorTo, Point2D.toComplex_vectorTo,
      hprevious, hfollowing]
    simp
    ring
  rw [hturn, ← mul_neg, mul_pos_iff_of_pos_left (mul_pos hfirstpos hsecondpos), neg_pos]

section corner

variable {c : Corner} {vertex : Point2D} {first second bisector : Vector2D} {radius : ℝ}

theorem offset_tangent (hapex : c.apex = vertex.toComplex) {direction : Vector2D} :
    (offset vertex direction (radius / Real.tan (2 * c.halfAngle / 2))).toComplex =
      c.apex + direction.toComplex * c.tangentLength radius := by
  rw [toComplex_offset, hapex, mul_div_cancel_left₀ _ two_ne_zero, Corner.tangentLength]

theorem offset_center (hapex : c.apex = vertex.toComplex) (hbisector : bisector.toComplex = c.bisector) :
    (offset vertex bisector (radius / Real.sin (2 * c.halfAngle / 2))).toComplex = c.center radius := by
  rw [toComplex_offset, ← hapex, hbisector, mul_div_cancel_left₀ _ two_ne_zero, Corner.center]

/-- The sum of the two directions is along the bisector. -/
theorem normalized_sum_eq_ok (hfirst : c.first = first.toComplex) (hsecond : c.second = second.toComplex) :
    Vector2D.normalized ⟨first.dx + second.dx, first.dy + second.dy⟩ = .ok bisector ↔
      bisector.toComplex = c.bisector := by
  have hsum : Vector2D.toComplex ⟨first.dx + second.dx, first.dy + second.dy⟩ =
      c.bisector * ↑(2 * Real.cos c.halfAngle) := by
    rw [← Corner.first_add_second, hfirst, hsecond]
    rfl
  have hcos : 0 < 2 * Real.cos c.halfAngle := mul_pos two_pos c.cos_pos
  rw [Vector2D.normalized_eq_ok, Vector2D.length_eq_norm, hsum, norm_mul, c.norm_bisector, Complex.norm_real,
    Real.norm_of_nonneg hcos.le, one_mul, mul_comm c.bisector, mul_right_inj' (Complex.ofReal_ne_zero.mpr hcos.ne')]
  exact ⟨fun h => h.2.symm, fun h => ⟨hcos, h.symm⟩⟩

end corner

/-- How a fillet lies in its corner. -/
structure Rounds (c : Corner) (previous vertex following : Point2D) (radiusMm : ℝ) (fillet : FilletResult) : Prop where
  radius_pos : 0 < radiusMm
  previous_pos : 0 < vertex.distanceTo previous
  following_pos : 0 < vertex.distanceTo following
  apex : c.apex = vertex.toComplex
  previous_eq : previous.toComplex = c.apex + c.first * vertex.distanceTo previous
  following_eq : following.toComplex = c.apex + c.second * vertex.distanceTo following
  tangentIn : fillet.tangentIn.toComplex = c.apex + c.first * c.tangentLength radiusMm
  tangentOut : fillet.tangentOut.toComplex = c.apex + c.second * c.tangentLength radiusMm
  arc : ∀ t, (fillet.arc.pointAt t).toComplex = c.arcPoint radiusMm t

/-- The tangency check measures a dot product that is zero. -/
theorem isZeroLength_dot {radial direction : Vector2D} {scale : ℝ} {tolerance : ToleranceProfile}
    (htolerance : 0 ≤ tolerance.absoluteLengthMm) (h : (star radial.toComplex * direction.toComplex).re = 0) :
    tolerance.IsZeroLength (|radial.dot direction| / scale) := by
  rw [ToleranceProfile.IsZeroLength, Vector2D.dot_eq_re, h, abs_zero, zero_div]
  exact htolerance

theorem filletVertex_rounds {previous vertex following : Point2D} {radius : ℝ} {tolerance : ToleranceProfile}
    {fillet : FilletResult} (h : filletVertex previous vertex following radius tolerance = .ok fillet) :
    ∃ c, Rounds c previous vertex following radius fillet := by
  unfold filletVertex at h
  split at h
  · cases h
  next hradius =>
  have hpos : 0 < radius := not_le.mp hradius
  obtain ⟨first, hfirst, h⟩ := bind_ok h
  obtain ⟨second, hsecond, h⟩ := bind_ok h
  obtain ⟨angle, hangle, h⟩ := bind_ok h
  obtain ⟨_, _, h⟩ := bind_ok h
  obtain ⟨bisector, hbisector, h⟩ := bind_ok h
  obtain ⟨arc, harc, h⟩ := bind_ok h
  obtain ⟨tangent, _, h⟩ := bind_ok h
  obtain ⟨c, hapex, rfl, hcfirst, hcsecond, hright, hleft⟩ :=
    interiorAngle_corner (unitFromVertex_norm hfirst) (unitFromVertex_norm hsecond) hangle vertex.toComplex
  obtain ⟨hfirstpos, hprevious⟩ := unitFromVertex_eq_ok.mp hfirst
  obtain ⟨hsecondpos, hfollowing⟩ := unitFromVertex_eq_ok.mp hsecond
  have hbisector' := (normalized_sum_eq_ok hcfirst hcsecond).mp hbisector
  have hsweep : radians (if turn previous vertex following > 0 then 180 - degrees (2 * c.halfAngle)
      else -(180 - degrees (2 * c.halfAngle))) = c.side * (Real.pi - 2 * c.halfAngle) := by
    have hturn := turn_pos_iff hfirst hsecond
    split
    · next hpositive => rw [radians_sub, radians_halfTurn, radians_degrees, hright (hturn.mp hpositive), one_mul]
    · next hnegative =>
      rw [radians_neg, radians_sub, radians_halfTurn, radians_degrees, hleft fun h => hnegative (hturn.mpr h), neg_one_mul]
  split at h
  swap
  · cases h
  obtain rfl := Except.ok.inj h
  refine ⟨c, hpos, hfirstpos, hsecondpos, hapex, ?_, ?_, ?_, ?_, fun t => ?_⟩
  · rw [hapex, hcfirst, hprevious]
  · rw [hapex, hcsecond, hfollowing]
  · rw [offset_tangent hapex, hcfirst]
  · rw [offset_tangent hapex, hcsecond]
  · have hcenter := @offset_center c vertex bisector radius hapex hbisector'
    have hin : (offset vertex first (radius / Real.tan (2 * c.halfAngle / 2))).toComplex = c.arcPoint radius 0 := by
      rw [offset_tangent hapex, ← hcfirst, Corner.arcPoint_zero]
    rw [normalizeArc_pointAt harc (by rw [hin, hcenter, Corner.norm_arcPoint_sub_center hpos]), hin, hcenter, hsweep,
      ← Corner.arcPoint_turn]

/-- The directions of the edges are found wherever they have a length. -/
theorem exists_unitFromVertex {vertex point : Point2D} (h : 0 < vertex.distanceTo point) :
    ∃ unit, unitFromVertex vertex point = .ok unit := by
  have hlength : 0 < (vertex.vectorTo point).length := by rwa [Point2D.length_vectorTo]
  rw [unitFromVertex, if_neg (not_le.mpr hlength), Vector2D.normalized, if_neg (not_le.mpr hlength)]
  exact ⟨_, rfl⟩

open Classical in
/-- The radii of a fillet are perpendicular to its edges. -/
theorem filletIsTangent_corner {c : Corner} {previous vertex following : Point2D} {radius : ℝ} {tolerance : ToleranceProfile}
    {first second : Vector2D} {fillet : FilletResult} (hfirst : unitFromVertex vertex previous = .ok first)
    (hsecond : unitFromVertex vertex following = .ok second) (hcfirst : c.first = first.toComplex)
    (hcsecond : c.second = second.toComplex) (hcenter : fillet.arc.center.toComplex = c.center radius)
    (hin : fillet.tangentIn.toComplex = c.arcPoint radius 0) (hout : fillet.tangentOut.toComplex = c.arcPoint radius 1)
    (htolerance : 0 ≤ tolerance.absoluteLengthMm) :
    filletIsTangent fillet previous vertex following tolerance = .ok true := by
  obtain ⟨hfirstpos, hprevious⟩ := unitFromVertex_eq_ok.mp hfirst
  obtain ⟨hsecondpos, hfollowing⟩ := unitFromVertex_eq_ok.mp hsecond
  have hincoming : (previous.vectorTo vertex).normalized = .ok ⟨-first.dx, -first.dy⟩ := by
    rw [Vector2D.normalized_eq_ok, Point2D.length_vectorTo, Point2D.distanceTo_comm, Point2D.toComplex_vectorTo, hprevious]
    refine ⟨hfirstpos, ?_⟩
    apply Complex.ext <;> simp [Vector2D.toComplex, mul_comm]
  have houtgoing : (vertex.vectorTo following).normalized = .ok second := by
    rw [Vector2D.normalized_eq_ok, Point2D.length_vectorTo, Point2D.toComplex_vectorTo, hfollowing, add_sub_cancel_left]
    exact ⟨hsecondpos, mul_comm _ _⟩
  have hreverse : Vector2D.toComplex ⟨-first.dx, -first.dy⟩ = -first.toComplex := rfl
  have hfirstError : (star (fillet.arc.center.vectorTo fillet.tangentIn).toComplex *
      Vector2D.toComplex ⟨-first.dx, -first.dy⟩).re = 0 := by
    rw [Point2D.toComplex_vectorTo, hin, hcenter, hreverse, ← hcfirst, mul_neg, Complex.neg_re,
      Corner.star_arcPoint_zero_mul_first, neg_zero]
  have hsecondError : (star (fillet.arc.center.vectorTo fillet.tangentOut).toComplex * second.toComplex).re = 0 := by
    rw [Point2D.toComplex_vectorTo, hout, hcenter, ← hcsecond, Corner.star_arcPoint_one_mul_second]
  unfold filletIsTangent
  rw [hincoming, houtgoing]
  exact congrArg Except.ok (decide_eq_true
    ⟨isZeroLength_dot htolerance hfirstError, isZeroLength_dot htolerance hsecondError⟩)

/-- A fillet is tangent to its edges, so that its last check passes. -/
theorem filletVertex_isOk {previous vertex following : Point2D} {radius angle : ℝ} {tolerance : ToleranceProfile}
    {first second : Vector2D} (hpos : 0 < radius) (hfirst : unitFromVertex vertex previous = .ok first)
    (hsecond : unitFromVertex vertex following = .ok second) (hangle : interiorAngle first second = .ok angle)
    (hle : radius ≤ min (vertex.distanceTo previous) (vertex.distanceTo following) / 2)
    (htolerance : 0 ≤ tolerance.absoluteLengthMm) :
    ∃ fillet, filletVertex previous vertex following radius tolerance = .ok fillet := by
  obtain ⟨hlong, hshort⟩ := interiorAngle_ok hangle
  obtain ⟨c, hapex, rfl, hcfirst, hcsecond, -, -⟩ :=
    interiorAngle_corner (unitFromVertex_norm hfirst) (unitFromVertex_norm hsecond) hangle vertex.toComplex
  let bisector : Vector2D := ⟨c.bisector.re, c.bisector.im⟩
  have hbisector := (@normalized_sum_eq_ok c first second bisector hcfirst hcsecond).mpr rfl
  have hcheck : checkFilletRadius radius (min (vertex.distanceTo previous) (vertex.distanceTo following) / 2) tolerance =
      .ok () := if_neg fun h => not_lt.mpr hle h.1
  have hsweep : (if turn previous vertex following > 0 then 180 - degrees (2 * c.halfAngle)
      else -(180 - degrees (2 * c.halfAngle))) ≠ 0 ∧
      |if turn previous vertex following > 0 then 180 - degrees (2 * c.halfAngle)
        else -(180 - degrees (2 * c.halfAngle))| ≤ 360 := by
    split
    · exact ⟨by linarith, abs_le.mpr ⟨by linarith, by linarith⟩⟩
    · exact ⟨by linarith, abs_le.mpr ⟨by linarith, by linarith⟩⟩
  obtain ⟨arc, harc, hfields⟩ := CurveFields.checked_arc (offset vertex bisector (radius / Real.sin (2 * c.halfAngle / 2)))
    _ hpos hsweep.1 hsweep.2
  unfold filletVertex
  simp only [if_neg (not_le.mpr hpos), hfirst, hsecond, hangle, hcheck, hbisector, normalizeArc, bind, Except.bind]
  rw [harc]
  dsimp only
  rw [filletIsTangent_corner hfirst hsecond hcfirst hcsecond]
  · exact ⟨_, rfl⟩
  · rw [hfields]
    exact offset_center hapex rfl
  · rw [offset_tangent hapex, ← hcfirst, Corner.arcPoint_zero]
  · rw [offset_tangent hapex, ← hcsecond, Corner.arcPoint_one]
  · exact htolerance

/-! ## Edges -/

/-- The half of an edge at its vertex. -/
def halfEdge (vertex neighbour : Point2D) : Set Point2D :=
  {p | ∃ s, 0 ≤ s ∧ s ≤ 1 / 2 ∧ p = ⟨vertex.x + (neighbour.x - vertex.x) * s, vertex.y + (neighbour.y - vertex.y) * s⟩}

/-- A fillet joins the two edges of its vertex, each on the half that is nearer to it. -/
structure StaysOnEdges (fillet : FilletResult) (previous vertex following : Point2D) : Prop where
  tangentIn : fillet.tangentIn ∈ halfEdge vertex previous
  tangentOut : fillet.tangentOut ∈ halfEdge vertex following
  startPoint : fillet.arc.startPoint = fillet.tangentIn
  endPoint : fillet.arc.endPoint = fillet.tangentOut

/-- The radius is at most half of the shorter edge times the tangent of half of the angle, which is the cross product
of the edges over the sum of their dot product and that of their lengths. -/
def CornerFits (previous vertex following : Point2D) (radiusMm : ℝ) : Prop :=
  let first := vertex.vectorTo previous
  let second := vertex.vectorTo following
  radiusMm * (first.length * second.length + first.dot second) ≤
    min first.length second.length / 2 * |first.cross second|

/-- A point on a ray is on the half of an edge along it just when it is at most half of the edge away. -/
theorem mem_halfEdge_iff {vertex neighbour p : Point2D} {direction : ℂ} {distance : ℝ} (hnorm : ‖direction‖ = 1)
    (hpos : 0 < vertex.distanceTo neighbour) (hdistance : 0 < distance)
    (hneighbour : neighbour.toComplex = vertex.toComplex + direction * vertex.distanceTo neighbour)
    (hp : p.toComplex = vertex.toComplex + direction * distance) :
    p ∈ halfEdge vertex neighbour ↔ distance ≤ vertex.distanceTo neighbour / 2 := by
  have hne : direction ≠ 0 := norm_ne_zero_iff.mp (hnorm ▸ one_ne_zero)
  have hpoint (s : ℝ) : p = ⟨vertex.x + (neighbour.x - vertex.x) * s, vertex.y + (neighbour.y - vertex.y) * s⟩ ↔
      distance = vertex.distanceTo neighbour * s := by
    have hcomplex : Point2D.toComplex ⟨vertex.x + (neighbour.x - vertex.x) * s, vertex.y + (neighbour.y - vertex.y) * s⟩ =
        vertex.toComplex + (neighbour.toComplex - vertex.toComplex) * s := by
      apply Complex.ext <;> simp [Point2D.toComplex]
    rw [← Point2D.toComplex_injective.eq_iff, hcomplex, hp, hneighbour, add_sub_cancel_left, add_right_inj, mul_assoc,
      mul_right_inj' hne, ← Complex.ofReal_mul, Complex.ofReal_inj]
  simp only [halfEdge, mem_ofPred_eq, hpoint]
  constructor
  · rintro ⟨s, -, hle, rfl⟩
    nlinarith
  · intro hle
    refine ⟨distance / vertex.distanceTo neighbour, by positivity, ?_, (mul_div_cancel₀ _ hpos.ne').symm⟩
    rw [div_le_iff₀ hpos]
    linarith

variable {c : Corner} {previous vertex following : Point2D} {radius : ℝ} {fillet : FilletResult}

/-- The edges of a corner fit just when the arc touches both within their halves. -/
theorem Rounds.cornerFits_iff (h : Rounds c previous vertex following radius fillet) :
    CornerFits previous vertex following radius ↔
      c.tangentLength radius ≤ vertex.distanceTo previous / 2 ∧ c.tangentLength radius ≤ vertex.distanceTo following / 2 := by
  have hfirst : (vertex.vectorTo previous).toComplex = c.first * vertex.distanceTo previous := by
    rw [Point2D.toComplex_vectorTo, h.previous_eq, h.apex, add_sub_cancel_left]
  have hsecond : (vertex.vectorTo following).toComplex = c.second * vertex.distanceTo following := by
    rw [Point2D.toComplex_vectorTo, h.following_eq, h.apex, add_sub_cancel_left]
  have hproduct : star (vertex.vectorTo previous).toComplex * (vertex.vectorTo following).toComplex =
      ↑(vertex.distanceTo previous * vertex.distanceTo following) *
        ⟨Real.cos (2 * c.halfAngle), -(c.side * Real.sin (2 * c.halfAngle))⟩ := by
    rw [hfirst, hsecond, star_mul', mul_mul_mul_comm, Corner.star_first_mul_second, Complex.star_def, Complex.conj_ofReal,
      ← Complex.ofReal_mul, mul_comm]
  have hside : |c.side| = 1 := by rcases c.side_eq with hs | hs <;> simp [hs]
  have hsin := c.sin_pos
  have hcos := c.cos_pos
  have harea := mul_pos h.previous_pos h.following_pos
  have hdouble : 0 < Real.sin (2 * c.halfAngle) := by
    rw [Real.sin_two_mul]
    positivity
  rw [← le_min_iff, min_div_div_right zero_le_two, CornerFits, Vector2D.dot_eq_re, Vector2D.cross_eq_im, hproduct,
    Complex.re_ofReal_mul, Complex.im_ofReal_mul, Point2D.length_vectorTo, Point2D.length_vectorTo, abs_mul,
    abs_of_pos harea, abs_neg, abs_mul, hside, one_mul, abs_of_pos hdouble]
  generalize min (vertex.distanceTo previous) (vertex.distanceTo following) / 2 = half
  have hleft : radius * (vertex.distanceTo previous * vertex.distanceTo following +
      vertex.distanceTo previous * vertex.distanceTo following * Real.cos (2 * c.halfAngle)) =
      vertex.distanceTo previous * vertex.distanceTo following * (2 * Real.cos c.halfAngle) *
        (radius * Real.cos c.halfAngle) := by
    rw [Real.cos_two_mul]
    ring
  have hright : half * (vertex.distanceTo previous * vertex.distanceTo following * Real.sin (2 * c.halfAngle)) =
      vertex.distanceTo previous * vertex.distanceTo following * (2 * Real.cos c.halfAngle) *
        (half * Real.sin c.halfAngle) := by
    rw [Real.sin_two_mul]
    ring
  rw [hleft, hright, Corner.tangentLength_eq, div_le_iff₀ hsin]
  exact mul_le_mul_iff_right₀ (mul_pos harea (mul_pos two_pos hcos))

theorem Rounds.staysOnEdges_iff (h : Rounds c previous vertex following radius fillet) :
    StaysOnEdges fillet previous vertex following ↔ CornerFits previous vertex following radius := by
  have hin : fillet.tangentIn ∈ halfEdge vertex previous ↔ c.tangentLength radius ≤ vertex.distanceTo previous / 2 :=
    mem_halfEdge_iff (Corner.norm_ray _) h.previous_pos (Corner.tangentLength_pos h.radius_pos)
      (h.apex ▸ h.previous_eq) (h.apex ▸ h.tangentIn)
  have hout : fillet.tangentOut ∈ halfEdge vertex following ↔ c.tangentLength radius ≤ vertex.distanceTo following / 2 :=
    mem_halfEdge_iff (Corner.norm_ray _) h.following_pos (Corner.tangentLength_pos h.radius_pos)
      (h.apex ▸ h.following_eq) (h.apex ▸ h.tangentOut)
  rw [h.cornerFits_iff]
  constructor
  · intro hstays
    exact ⟨hin.mp hstays.tangentIn, hout.mp hstays.tangentOut⟩
  · rintro ⟨hfirst, hsecond⟩
    refine ⟨hin.mpr hfirst, hout.mpr hsecond, Point2D.toComplex_injective ?_, Point2D.toComplex_injective ?_⟩
    · rw [CurveParams.startPoint, h.arc, h.tangentIn, Corner.arcPoint_zero]
    · rw [CurveParams.endPoint, h.arc, h.tangentOut, Corner.arcPoint_one]

/-- No point of the arc is further from the vertex than where it touches the edges. -/
theorem Rounds.distance_le (h : Rounds c previous vertex following radius fillet) {p : Point2D}
    (hp : p ∈ fillet.arc.points) : dist vertex.toComplex p.toComplex ≤ c.tangentLength radius := by
  obtain ⟨t, ⟨h0, h1⟩, rfl⟩ := CurveParams.mem_points.mp hp
  rw [dist_comm, dist_eq_norm, h.arc, ← h.apex]
  exact Corner.norm_arcPoint_sub_apex_le h.radius_pos h0 h1

noncomputable def middle (p q : Point2D) : Point2D := ⟨(p.x + q.x) / 2, (p.y + q.y) / 2⟩

theorem toComplex_middle (p q : Point2D) : (middle p q).toComplex = midpoint ℝ p.toComplex q.toComplex := by
  rw [midpoint_eq_smul_add]
  apply Complex.ext <;> simp [middle, Point2D.toComplex] <;> ring

theorem Point2D.distanceTo_eq_dist (p q : Point2D) : p.distanceTo q = dist p.toComplex q.toComplex := by
  rw [← length_vectorTo, Vector2D.length_eq_norm, toComplex_vectorTo, dist_eq_norm, norm_sub_rev]

theorem eq_middle_of_dist_le {p q r : Point2D} (hp : dist p.toComplex r.toComplex ≤ p.distanceTo q / 2)
    (hq : dist q.toComplex r.toComplex ≤ p.distanceTo q / 2) : r = middle p q := by
  have htriangle := dist_triangle p.toComplex r.toComplex q.toComplex
  rw [Point2D.distanceTo_eq_dist] at hp hq
  rw [dist_comm q.toComplex] at hq
  apply Point2D.toComplex_injective
  rw [toComplex_middle]
  exact eq_midpoint_of_dist_eq_half (by linarith) (by linarith)

theorem distanceTo_eq {p q : Point2D} {d : ℝ} (h0 : 0 ≤ d) (h : (p.x - q.x) ^ 2 + (p.y - q.y) ^ 2 = d ^ 2) :
    p.distanceTo q = d := by
  rw [Point2D.distanceTo, h, Real.sqrt_sq h0]

theorem unitFromVertex_of_distance {vertex point : Point2D} {unit : Vector2D} {d : ℝ} (hpos : 0 < d)
    (hdistance : vertex.distanceTo point = d) (hx : point.x = vertex.x + unit.dx * d)
    (hy : point.y = vertex.y + unit.dy * d) : unitFromVertex vertex point = .ok unit := by
  rw [unitFromVertex_eq_ok, hdistance]
  refine ⟨hpos, Complex.ext ?_ ?_⟩
  · simpa [Point2D.toComplex, Vector2D.toComplex] using hx
  · simpa [Point2D.toComplex, Vector2D.toComplex] using hy

/-- Directions whose sine is not too small have an angle. -/
theorem interiorAngle_isOk {first second : Vector2D} {sine : ℝ} (hlow : -1 ≤ first.dot second)
    (hhigh : first.dot second ≤ 1) (hpos : 1e-12 < sine) (hsine : 1 - first.dot second ^ 2 = sine ^ 2) :
    ∃ angle, interiorAngle first second = .ok angle := by
  have hsin : Real.sin (Real.arccos (first.dot second)) = sine := by
    rw [Real.sin_arccos, hsine, Real.sqrt_sq (by linarith)]
  have hangle := Real.sin_le (Real.arccos_nonneg (first.dot second))
  have hrest := Real.sin_le (sub_nonneg.mpr (Real.arccos_le_pi (first.dot second)))
  rw [Real.sin_pi_sub] at hrest
  unfold interiorAngle
  dsimp only
  rw [min_eq_right hhigh, max_eq_right hlow, if_neg (by rw [not_or]; constructor <;> linarith)]
  exact ⟨_, rfl⟩

/-! ## Main result -/

end CadHarness.Geometry
