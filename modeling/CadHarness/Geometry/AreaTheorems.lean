import CadHarness.Geometry.Forest
import CadHarness.Geometry.TracingTheorems
import Mathlib.Algebra.BigOperators.Group.List.Lemmas

/-!
# Laws of areas and perimeters

What an edge adds to the area of its contour depends on where the origin is by the cross product of the origin with its
ends. Around a closed contour these cancel.
-/

namespace CadHarness.Geometry

/-! ## Edges that are moved and split -/

theorem CurveFields.Shape.congr {c d : CurveFields} (h : c.Shape) (hradius : d.radiusMm = c.radiusMm)
    (hmajor : d.semiMajorMm = c.semiMajorMm) (hminor : d.semiMinorMm = c.semiMinorMm) : d.Shape := by
  cases h with
  | circular radius hr hpos ha hb => exact .circular radius (hradius.trans hr) hpos (hmajor.trans ha) (hminor.trans hb)
  | elliptic major minor ha hb hpos hle hr =>
      exact .elliptic major minor (hmajor.trans ha) (hminor.trans hb) hpos hle (hradius.trans hr)

noncomputable section

namespace CurveParams

variable (c : CurveParams)

/-- The curve with another center and another part of its round. -/
def placed (center : Point2D) (startAngleDeg sweepDeg : ℝ) (hne : 0 < |sweepDeg|) (hle : |sweepDeg| ≤ 360) :
    CurveParams where
  toCurveFields := { c.toCurveFields with center, startAngleDeg, sweepDeg }
  sweep_ne := hne
  sweep_le := hle
  shape := c.shape.congr rfl rfl rfl

def translated (dx dy : ℝ) : CurveParams :=
  c.placed (c.center.translated dx dy) c.startAngleDeg c.sweepDeg c.sweep_ne c.sweep_le

variable {t : ℝ}

theorem sweep_part_ne (h0 : 0 < t) : 0 < |c.sweepDeg * t| := by
  rw [abs_mul, abs_of_pos h0]
  exact mul_pos c.sweep_ne h0

theorem sweep_part_le (h0 : 0 < t) (h1 : t < 1) : |c.sweepDeg * t| ≤ 360 := by
  rw [abs_mul, abs_of_pos h0]
  exact (mul_le_of_le_one_right (abs_nonneg _) h1.le).trans c.sweep_le

/-- The part of the curve before a fraction, and the part after it. -/
def split (h0 : 0 < t) (h1 : t < 1) : CurveParams × CurveParams :=
  (c.placed c.center c.startAngleDeg (c.sweepDeg * t) (c.sweep_part_ne h0) (c.sweep_part_le h0 h1),
    c.placed c.center (c.startAngleDeg + c.sweepDeg * t) (c.sweepDeg * (1 - t)) (c.sweep_part_ne (sub_pos.mpr h1))
      (c.sweep_part_le (sub_pos.mpr h1) (sub_lt_self 1 h0)))

end CurveParams

namespace ContourEdge

def startPoint (edge : ContourEdge) : Point2D := (EdgeRecord.mk edge "").startPoint

def endPoint (edge : ContourEdge) : Point2D := (EdgeRecord.mk edge "").endPoint

/-- The edge as `_reverse` turns it. -/
def reverse (edge : ContourEdge) : ContourEdge := (EdgeRecord.mk edge "").reverse.edge

def translated (dx dy : ℝ) : ContourEdge → ContourEdge
  | .line edge => .line ⟨edge.start.translated dx dy, edge.endPoint.translated dx dy⟩
  | .curve c => .curve (c.translated dx dy)

/-- The point at a fraction of an edge. -/
def pointAt (t : ℝ) : ContourEdge → Point2D
  | .line edge => ⟨edge.start.x + (edge.endPoint.x - edge.start.x) * t, edge.start.y + (edge.endPoint.y - edge.start.y) * t⟩
  | .curve c => c.pointAt t

/-- The two parts of an edge at one of its inner points. -/
def split {t : ℝ} (h0 : 0 < t) (h1 : t < 1) : ContourEdge → ContourEdge × ContourEdge
  | .line edge => (.line ⟨edge.start, (ContourEdge.line edge).pointAt t⟩, .line ⟨(ContourEdge.line edge).pointAt t, edge.endPoint⟩)
  | .curve c => (.curve (c.split h0 h1).1, .curve (c.split h0 h1).2)

/-- A straight or a circular edge. -/
inductive Circular : ContourEdge → Prop
  | line (edge : LineEdge) : Circular (.line edge)
  | curve (c : CurveParams) (radius : ℝ) (h : c.radiusMm = some radius) : Circular (.curve c)

end ContourEdge

namespace CurveContour

variable (contour : CurveContour)

/-- Each edge ends where the next one starts, and the last one where the first one starts. -/
structure Closes : Prop where
  meet : contour.edges.IsChain fun edge next => edge.endPoint = next.startPoint
  close : (contour.edges.getLast contour.edges_ne).endPoint = (contour.edges.head contour.edges_ne).startPoint

theorem map_ne {f : ContourEdge → ContourEdge} : contour.edges.map f ≠ [] := by
  simpa using contour.edges_ne

theorem rotate_ne (n : Nat) : contour.edges.rotate n ≠ [] := by
  simpa using contour.edges_ne

theorem reverse_ne : contour.edges.reverse.map ContourEdge.reverse ≠ [] := by
  simpa using contour.edges_ne

def translated (dx dy : ℝ) : CurveContour := ⟨contour.edges.map (.translated dx dy), contour.map_ne⟩

def rotated (n : Nat) : CurveContour := ⟨contour.edges.rotate n, contour.rotate_ne n⟩

/-- The contour taken the other way round. -/
def reversed : CurveContour := ⟨contour.edges.reverse.map .reverse, contour.reverse_ne⟩

/-- The contours with one edge of this one in two parts. -/
inductive IsSplit : CurveContour → Prop
  | mk (other : CurveContour) (before after : List ContourEdge) (edge : ContourEdge) (t : ℝ) (h0 : 0 < t) (h1 : t < 1)
      (hedges : contour.edges = before ++ edge :: after)
      (hother : other.edges = before ++ (edge.split h0 h1).1 :: (edge.split h0 h1).2 :: after) : IsSplit other

end CurveContour

/-! ## What one edge adds -/

/-- The square of the radius, or the product of the axes. -/
noncomputable def CurveParams.axisProduct (c : CurveParams) : ℝ :=
  match c.radiusMm with
  | some radius => radius ^ 2
  | none => c.semiMajorMm.getD 0 * c.semiMinorMm.getD 0

theorem ContourEdge.signedArea_curve (c : CurveParams) : (ContourEdge.curve c).signedArea =
    (crossProduct c.center c.endPoint - crossProduct c.center c.startPoint) / 2 + c.axisProduct * radians c.sweepDeg / 2 :=
  rfl

variable {t : ℝ} (h0 : 0 < t) (h1 : t < 1) (dx dy : ℝ)

namespace CurveParams

variable (c : CurveParams)

theorem pointAt_translated (s : ℝ) : (c.translated dx dy).pointAt s = (c.pointAt s).translated dx dy := by
  simp only [pointAt, translated, placed, Point2D.translated]
  split <;> ext <;> ring_nf

theorem pointAt_split_fst (s : ℝ) : (c.split h0 h1).1.pointAt s = c.pointAt (t * s) := by
  simp only [pointAt, split, placed, mul_assoc]

theorem pointAt_split_snd (s : ℝ) : (c.split h0 h1).2.pointAt s = c.pointAt (t + (1 - t) * s) := by
  have hangle : c.startAngleDeg + c.sweepDeg * t + c.sweepDeg * (1 - t) * s =
      c.startAngleDeg + c.sweepDeg * (t + (1 - t) * s) := by ring
  simp only [pointAt, split, placed, hangle]

end CurveParams

namespace ContourEdge

variable (edge : ContourEdge)

theorem reverse_startPoint : edge.reverse.startPoint = edge.endPoint :=
  EdgeRecord.reverse_startPoint ⟨edge, ""⟩

theorem reverse_endPoint : edge.reverse.endPoint = edge.startPoint :=
  EdgeRecord.reverse_endPoint ⟨edge, ""⟩

/-- The parts of an edge meet at their point, and keep its ends. -/
theorem split_ends : (edge.split h0 h1).1.startPoint = edge.startPoint ∧
    (edge.split h0 h1).1.endPoint = edge.pointAt t ∧ (edge.split h0 h1).2.startPoint = edge.pointAt t ∧
    (edge.split h0 h1).2.endPoint = edge.endPoint := by
  cases edge with
  | line edge => exact ⟨rfl, rfl, rfl, rfl⟩
  | curve c =>
      refine ⟨?_, ?_, ?_, ?_⟩
      · exact (c.pointAt_split_fst h0 h1 0).trans (by rw [mul_zero]; rfl)
      · exact (c.pointAt_split_fst h0 h1 1).trans (by rw [mul_one]; rfl)
      · exact (c.pointAt_split_snd h0 h1 0).trans (by rw [mul_zero, add_zero]; rfl)
      · exact (c.pointAt_split_snd h0 h1 1).trans (by rw [mul_one, add_sub_cancel]; rfl)

theorem signedArea_translated : (edge.translated dx dy).signedArea = edge.signedArea +
    ((dx * edge.endPoint.y - dy * edge.endPoint.x) - (dx * edge.startPoint.y - dy * edge.startPoint.x)) / 2 := by
  cases edge with
  | line edge =>
      simp only [translated, signedArea, crossProduct, Point2D.translated, startPoint, endPoint, EdgeRecord.startPoint,
        EdgeRecord.endPoint]
      ring
  | curve c =>
      have hstart := c.pointAt_translated dx dy 0
      have hend := c.pointAt_translated dx dy 1
      have hcenter : (c.translated dx dy).center = c.center.translated dx dy := rfl
      have hproduct : (c.translated dx dy).axisProduct = c.axisProduct := rfl
      have hsweep : (c.translated dx dy).sweepDeg = c.sweepDeg := rfl
      simp only [translated, signedArea_curve, startPoint, endPoint, EdgeRecord.startPoint, EdgeRecord.endPoint,
        CurveParams.startPoint, CurveParams.endPoint, hstart, hend, hcenter, hproduct, hsweep, crossProduct,
        Point2D.translated]
      ring

theorem signedArea_split : (edge.split h0 h1).1.signedArea + (edge.split h0 h1).2.signedArea = edge.signedArea := by
  cases edge with
  | line edge =>
      simp only [split, signedArea, crossProduct, pointAt]
      ring
  | curve c =>
      obtain ⟨hstart, hmeet, hmeet', hend⟩ := (ContourEdge.curve c).split_ends h0 h1
      have hfst : (c.split h0 h1).1.startPoint = c.startPoint := hstart
      have hmid : (c.split h0 h1).1.endPoint = (c.split h0 h1).2.startPoint := hmeet.trans hmeet'.symm
      have hsnd : (c.split h0 h1).2.endPoint = c.endPoint := hend
      have hsum : (c.split h0 h1).1.sweepDeg + (c.split h0 h1).2.sweepDeg = c.sweepDeg := by
        simp only [CurveParams.split, CurveParams.placed]
        ring
      have hproduct : (c.split h0 h1).1.axisProduct = c.axisProduct := rfl
      have hproduct' : (c.split h0 h1).2.axisProduct = c.axisProduct := rfl
      have hcenter : (c.split h0 h1).1.center = c.center := rfl
      have hcenter' : (c.split h0 h1).2.center = c.center := rfl
      simp only [split, signedArea_curve, hfst, hmid, hsnd, hproduct, hproduct', hcenter, hcenter', ← hsum, radians_add]
      ring

theorem signedArea_reverse : edge.reverse.signedArea = -edge.signedArea := by
  cases edge with
  | line edge =>
      simp only [reverse, EdgeRecord.reverse, signedArea, crossProduct]
      ring
  | curve c =>
      have hstart : (reverseCurve c).startPoint = c.endPoint := (ContourEdge.curve c).reverse_startPoint
      have hend : (reverseCurve c).endPoint = c.startPoint := (ContourEdge.curve c).reverse_endPoint
      have hcenter : (reverseCurve c).center = c.center := rfl
      have hproduct : (reverseCurve c).axisProduct = c.axisProduct := rfl
      have hsweep : radians (reverseCurve c).sweepDeg = -radians c.sweepDeg := neg_mul _ _
      simp only [reverse, EdgeRecord.reverse, signedArea_curve, hstart, hend, hcenter, hproduct, hsweep]
      ring

theorem length_translated : (edge.translated dx dy).length = edge.length := by
  cases edge with
  | line edge =>
      simp only [translated, length, Point2D.distanceTo, Point2D.translated, add_sub_add_right_eq_sub]
  | curve c => rfl

theorem distanceTo_of_scaled {p q r s : Point2D} {k : ℝ} (hk : 0 ≤ k)
    (h : (p.x - q.x) ^ 2 + (p.y - q.y) ^ 2 = k ^ 2 * ((r.x - s.x) ^ 2 + (r.y - s.y) ^ 2)) :
    p.distanceTo q = k * r.distanceTo s := by
  rw [Point2D.distanceTo, Point2D.distanceTo, h, Real.sqrt_mul (sq_nonneg k), Real.sqrt_sq hk]

theorem length_split (h : edge.Circular) : (edge.split h0 h1).1.length + (edge.split h0 h1).2.length = edge.length := by
  cases h with
  | line edge =>
      have hfst : edge.start.distanceTo ((ContourEdge.line edge).pointAt t) = t * edge.start.distanceTo edge.endPoint :=
        distanceTo_of_scaled h0.le (by simp only [pointAt]; ring)
      have hsnd : ((ContourEdge.line edge).pointAt t).distanceTo edge.endPoint =
          (1 - t) * edge.start.distanceTo edge.endPoint :=
        distanceTo_of_scaled (sub_nonneg.mpr h1.le) (by simp only [pointAt]; ring)
      simp only [split, length, hfst, hsnd]
      ring
  | curve c radius hradius =>
      have hfst : (c.split h0 h1).1.radiusMm = some radius := hradius
      have hsnd : (c.split h0 h1).2.radiusMm = some radius := hradius
      have hsum : |radians (c.split h0 h1).1.sweepDeg| + |radians (c.split h0 h1).2.sweepDeg| = |radians c.sweepDeg| := by
        simp only [CurveParams.split, CurveParams.placed, radians_mul, abs_mul, abs_of_pos h0, abs_of_pos (sub_pos.mpr h1)]
        ring
      simp only [split, length, curveLength, hfst, hsnd, hradius, ← hsum, mul_add]

theorem length_reverse (h : edge.Circular) : edge.reverse.length = edge.length := by
  cases h with
  | line edge => exact distanceTo_comm edge.endPoint edge.start
  | curve c radius hradius =>
      have hreverse : (reverseCurve c).radiusMm = some radius := hradius
      have hsweep : radians (reverseCurve c).sweepDeg = -radians c.sweepDeg := neg_mul _ _
      simp only [reverse, EdgeRecord.reverse, length, curveLength, hreverse, hradius, hsweep, abs_neg]

end ContourEdge

end

/-! ## Around a contour -/

/-- What telescopes along a chain of edges. -/
theorem sum_endPoint_sub_startPoint (f : Point2D → ℝ) {edges : List ContourEdge} (hne : edges ≠ [])
    (h : edges.IsChain fun edge next => edge.endPoint = next.startPoint) :
    (edges.map fun edge => f edge.endPoint - f edge.startPoint).sum =
      f (edges.getLast hne).endPoint - f (edges.head hne).startPoint := by
  induction edges with
  | nil => exact absurd rfl hne
  | cons edge rest ih =>
      cases rest with
      | nil => simp
      | cons next rest =>
          obtain ⟨hmeet, hrest⟩ := List.isChain_cons_cons.mp h
          rw [List.map_cons, List.sum_cons, ih (List.cons_ne_nil _ _) hrest, List.getLast_cons_cons, List.head_cons,
            List.head_cons, hmeet]
          ring

namespace CurveContour

variable {contour other : CurveContour}

theorem signedArea_translated (h : contour.Closes) (dx dy : ℝ) :
    (contour.translated dx dy).signedArea = contour.signedArea := by
  have hsum := sum_endPoint_sub_startPoint (fun p => (dx * p.y - dy * p.x) / 2) contour.edges_ne h.meet
  rw [h.close, sub_self] at hsum
  have hterm (edge : ContourEdge) : (edge.translated dx dy).signedArea = edge.signedArea +
      ((dx * edge.endPoint.y - dy * edge.endPoint.x) / 2 - (dx * edge.startPoint.y - dy * edge.startPoint.x) / 2) := by
    rw [edge.signedArea_translated]
    ring
  simp only [signedArea, translated, List.map_map, Function.comp_def, hterm, List.sum_map_add, hsum, add_zero]

theorem signedArea_rotated (n : Nat) : (contour.rotated n).signedArea = contour.signedArea := by
  simp only [signedArea, rotated, List.map_rotate]
  exact (List.rotate_perm _ n).sum_eq

theorem signedArea_split (h : contour.IsSplit other) : other.signedArea = contour.signedArea := by
  obtain ⟨before, after, edge, t, h0, h1, hedges, hother⟩ := h
  simp only [signedArea, hedges, hother, List.map_append, List.map_cons, List.sum_append, List.sum_cons,
    ← edge.signedArea_split h0 h1]
  ring

theorem signedArea_reversed : contour.reversed.signedArea = -contour.signedArea := by
  simp only [signedArea, reversed, List.map_map, Function.comp_def, ContourEdge.signedArea_reverse, List.map_reverse, List.sum_reverse]
  rw [← neg_one_mul, ← List.sum_map_mul_left]
  simp only [neg_one_mul]

theorem perimeter_translated (dx dy : ℝ) : contourPerimeter (contour.translated dx dy) = contourPerimeter contour := by
  simp only [contourPerimeter, translated, List.map_map, Function.comp_def, ContourEdge.length_translated]

theorem perimeter_rotated (n : Nat) : contourPerimeter (contour.rotated n) = contourPerimeter contour := by
  simp only [contourPerimeter, rotated, List.map_rotate]
  exact (List.rotate_perm _ n).sum_eq

theorem perimeter_split (hcircular : ∀ edge ∈ contour.edges, edge.Circular) (h : contour.IsSplit other) :
    contourPerimeter other = contourPerimeter contour := by
  obtain ⟨before, after, edge, t, h0, h1, hedges, hother⟩ := h
  have hedge := hcircular edge (hedges ▸ List.mem_append_right before (List.mem_cons_self ..))
  simp only [contourPerimeter, hedges, hother, List.map_append, List.map_cons, List.sum_append, List.sum_cons,
    ← edge.length_split h0 h1 hedge]
  ring

theorem perimeter_reversed (hcircular : ∀ edge ∈ contour.edges, edge.Circular) :
    contourPerimeter contour.reversed = contourPerimeter contour := by
  have hlength : (contour.edges.map fun edge => edge.reverse.length) = contour.edges.map ContourEdge.length :=
    List.map_congr_left fun edge hedge => edge.length_reverse (hcircular edge hedge)
  simp only [contourPerimeter, reversed, List.map_map, Function.comp_def, List.map_reverse, List.sum_reverse, hlength]

end CurveContour

/-! ## Main result -/

/-- The signed area of a closed contour is the same wherever the contour lies, where its list starts and however its
edges are cut, and is negated when it is taken the other way round. The perimeter of straight and circular edges is the
same under all four. -/
theorem area_perimeter_laws (contour : CurveContour) (h : contour.Closes) :
    (∀ dx dy, (contour.translated dx dy).signedArea = contour.signedArea) ∧
      (∀ n, (contour.rotated n).signedArea = contour.signedArea) ∧
      (∀ other, contour.IsSplit other → other.signedArea = contour.signedArea) ∧
      contour.reversed.signedArea = -contour.signedArea ∧
      ((∀ edge ∈ contour.edges, edge.Circular) →
        (∀ dx dy, contourPerimeter (contour.translated dx dy) = contourPerimeter contour) ∧
        (∀ n, contourPerimeter (contour.rotated n) = contourPerimeter contour) ∧
        (∀ other, contour.IsSplit other → contourPerimeter other = contourPerimeter contour) ∧
        contourPerimeter contour.reversed = contourPerimeter contour) :=
  ⟨CurveContour.signedArea_translated h, CurveContour.signedArea_rotated, fun _ => CurveContour.signedArea_split,
    CurveContour.signedArea_reversed, fun hcircular => ⟨CurveContour.perimeter_translated, CurveContour.perimeter_rotated,
      fun _ => CurveContour.perimeter_split hcircular, CurveContour.perimeter_reversed hcircular⟩⟩

theorem halfTurn_sweep : 0 < |(180 : ℝ)| ∧ |(180 : ℝ)| ≤ 360 := by
  norm_num

theorem upperHalf_shape : CurveFields.Shape
    { kind := .arc, center := ⟨0, 0⟩, startAngleDeg := 0, sweepDeg := 180, radiusMm := some 1 } :=
  .circular 1 rfl one_pos rfl rfl

/-- The upper half of the unit circle. -/
noncomputable def upperHalf : CurveParams where
  kind := .arc
  center := ⟨0, 0⟩
  startAngleDeg := 0
  sweepDeg := 180
  radiusMm := some 1
  sweep_ne := halfTurn_sweep.1
  sweep_le := halfTurn_sweep.2
  shape := upperHalf_shape

theorem upperHalf_startPoint : upperHalf.startPoint = ⟨1, 0⟩ := by
  simp [CurveParams.startPoint, CurveParams.pointAt, upperHalf, radians]

theorem upperHalf_endPoint : upperHalf.endPoint = ⟨-1, 0⟩ := by
  have hturn : radians (0 + 180 * 1) = Real.pi := by
    unfold radians
    field_simp
    norm_num
  simp only [CurveParams.endPoint, CurveParams.pointAt, upperHalf, hturn, Real.cos_pi, Real.sin_pi]
  norm_num

theorem halfDisc_ne : [ContourEdge.line ⟨⟨-1, 0⟩, ⟨1, 0⟩⟩, .curve upperHalf] ≠ [] := List.cons_ne_nil _ _

noncomputable def halfDisc : CurveContour := ⟨[.line ⟨⟨-1, 0⟩, ⟨1, 0⟩⟩, .curve upperHalf], halfDisc_ne⟩

theorem halfDisc_closes : halfDisc.Closes where
  meet := .cons_cons upperHalf_startPoint.symm (.singleton _)
  close := upperHalf_endPoint

theorem area_perimeter_laws_halfDisc : (halfDisc.translated 3 4).signedArea = halfDisc.signedArea ∧
    halfDisc.reversed.signedArea = -halfDisc.signedArea :=
  ⟨(area_perimeter_laws halfDisc halfDisc_closes).1 3 4, (area_perimeter_laws halfDisc halfDisc_closes).2.2.2.1⟩

end CadHarness.Geometry
