import CadHarness.Geometry.Predicates
import CadHarness.Geometry.Theorems
import Mathlib.Analysis.Complex.Norm
import Mathlib.Order.CompletePartialOrder
import Mathlib.Order.ConditionallyCompleteLattice.Basic

/-!
# Extents

How far lines, arcs and circles reach along the axes.
-/

/-!
## Regions of the plane

What circles and contours enclose.
-/

namespace CadHarness.Geometry

namespace Point2D

theorem distanceTo_triangle (p q r : Point2D) : p.distanceTo r ≤ p.distanceTo q + q.distanceTo r := by
  have hdist (a b : Point2D) : a.distanceTo b = dist a.toComplex b.toComplex := by
    rw [distanceTo, Complex.dist_eq_re_im]
    rfl
  rw [hdist, hdist, hdist]
  exact dist_triangle _ _ _

theorem distanceTo_comm (p q : Point2D) : p.distanceTo q = q.distanceTo p := by
  rw [distanceTo, distanceTo, sub_sq_comm p.x, sub_sq_comm p.y]

@[simp] theorem distanceTo_self (p : Point2D) : p.distanceTo p = 0 := by
  simp [distanceTo]

theorem abs_x_sub_le (p q : Point2D) : |p.x - q.x| ≤ p.distanceTo q := by
  rw [distanceTo]
  exact Real.abs_le_sqrt (by nlinarith [sq_nonneg (p.y - q.y)])

theorem abs_y_sub_le (p q : Point2D) : |p.y - q.y| ≤ p.distanceTo q := by
  rw [distanceTo]
  exact Real.abs_le_sqrt (by nlinarith [sq_nonneg (p.x - q.x)])

end Point2D

/-- What a circle encloses. -/
def disc (center : Point2D) (diameterMm : ℝ) : Set Point2D := {p | p.distanceTo center < diameterMm / 2}

theorem disjoint_disc {centerA centerB : Point2D} {diameterA diameterB : ℝ}
    (h : (diameterA + diameterB) / 2 ≤ centerA.distanceTo centerB) :
    Disjoint (disc centerA diameterA) (disc centerB diameterB) := by
  rw [Set.disjoint_left]
  intro p ha hb
  have htriangle := Point2D.distanceTo_triangle centerA p centerB
  rw [Point2D.distanceTo_comm centerA p] at htriangle
  simp only [disc, Set.mem_ofPred_eq] at ha hb
  linarith

theorem not_disjoint_disc_self {center : Point2D} {diameterMm : ℝ} (h : 0 < diameterMm) :
    ¬ Disjoint (disc center diameterMm) (disc center diameterMm) := by
  have hmem : center ∈ disc center diameterMm := by
    simp only [disc, Set.mem_ofPred_eq, Point2D.distanceTo_self]
    linarith
  exact fun hdisjoint => Set.disjoint_left.mp hdisjoint hmem hmem

namespace BoundingBox

variable (box : BoundingBox)

def region : Set Point2D := {p | box.minX ≤ p.x ∧ p.x ≤ box.maxX ∧ box.minY ≤ p.y ∧ p.y ≤ box.maxY}

variable {box}

/-- A circle whose center is at least its radius from each edge lies inside. -/
theorem disc_subset_region {center : Point2D} {diameterMm : ℝ} (h : diameterMm / 2 ≤ box.distanceToEdge center) :
    disc center diameterMm ⊆ box.region := by
  intro p hp
  simp only [distanceToEdge, le_min_iff] at h
  have hx := Point2D.abs_x_sub_le p center
  have hy := Point2D.abs_y_sub_le p center
  simp only [disc, Set.mem_ofPred_eq] at hp
  rw [abs_le] at hx hy
  obtain ⟨⟨hleft, hright⟩, hbottom, htop⟩ := h
  exact ⟨by linarith, by linarith, by linarith, by linarith⟩

end BoundingBox

/-- The points inside a contour or on it. -/
def Polyline2D.region (contour : Polyline2D) (tolerance : ToleranceProfile) : Set Point2D :=
  {p | ContainsPoint contour p tolerance}

/-- The points inside a contour, off it. -/
def Polyline2D.interior (contour : Polyline2D) (tolerance : ToleranceProfile) : Set Point2D :=
  {p | ContainsPoint contour p tolerance ∧ ¬ PointOnBoundary p contour tolerance}

end CadHarness.Geometry

namespace CadHarness.Geometry
open Set

/-! ## Sets of numbers -/

/-- An interval between members of a set is as long as the set exactly if it holds the whole set. -/
theorem sub_eq_extent_iff {S : Set ℝ} {lo hi : ℝ} (hbelow : BddBelow S) (habove : BddAbove S)
    (hlo : ∃ a ∈ S, a ≤ lo) (hhi : ∃ b ∈ S, hi ≤ b) :
    hi - lo = sSup S - sInf S ↔ ∀ x ∈ S, lo ≤ x ∧ x ≤ hi := by
  obtain ⟨a, ha, hlo⟩ := hlo
  obtain ⟨b, hb, hhi⟩ := hhi
  have hinf := csInf_le hbelow ha
  have hsup := le_csSup habove hb
  constructor
  · intro heq x hx
    have hxinf := csInf_le hbelow hx
    have hxsup := le_csSup habove hx
    constructor <;> linarith
  · intro hall
    have hleast : IsLeast S a := ⟨ha, fun x hx => hlo.trans (hall x hx).1⟩
    have hgreatest : IsGreatest S b := ⟨hb, fun x hx => (hall x hx).2.trans hhi⟩
    rw [hgreatest.csSup_eq, hleast.csInf_eq, le_antisymm (hall a ha).1 hlo, le_antisymm hhi (hall b hb).2]

section
variable {α : Type} {l : List α} {f : α → Set ℝ} {bound : α → ℝ}

theorem minimumOf_mem {l : List ℝ} (h : l ≠ []) : minimumOf l ∈ l ∧ ∀ x ∈ l, minimumOf l ≤ x := by
  cases l with
  | nil => exact absurd rfl h
  | cons x xs => exact List.min?_eq_some_iff.mp List.min?_cons'

theorem maximumOf_mem {l : List ℝ} (h : l ≠ []) : maximumOf l ∈ l ∧ ∀ x ∈ l, x ≤ maximumOf l := by
  cases l with
  | nil => exact absurd rfl h
  | cons x xs => exact List.max?_eq_some_iff.mp List.max?_cons'

/-- The least of the least members of several sets. -/
theorem isLeast_minimumOf (hne : l ≠ []) (h : ∀ a ∈ l, IsLeast (f a) (bound a)) :
    IsLeast {x | ∃ a ∈ l, x ∈ f a} (minimumOf (l.map bound)) := by
  obtain ⟨hmem, hle⟩ := minimumOf_mem (l := l.map bound) (by simpa using hne)
  obtain ⟨a, ha, heq⟩ := List.mem_map.mp hmem
  refine ⟨⟨a, ha, heq ▸ (h a ha).1⟩, ?_⟩
  rintro x ⟨b, hb, hx⟩
  exact (hle _ (List.mem_map_of_mem hb)).trans ((h b hb).2 hx)

theorem isGreatest_maximumOf (hne : l ≠ []) (h : ∀ a ∈ l, IsGreatest (f a) (bound a)) :
    IsGreatest {x | ∃ a ∈ l, x ∈ f a} (maximumOf (l.map bound)) := by
  obtain ⟨hmem, hle⟩ := maximumOf_mem (l := l.map bound) (by simpa using hne)
  obtain ⟨a, ha, heq⟩ := List.mem_map.mp hmem
  refine ⟨⟨a, ha, heq ▸ (h a ha).1⟩, ?_⟩
  rintro x ⟨b, hb, hx⟩
  exact ((h b hb).2 hx).trans (hle _ (List.mem_map_of_mem hb))

end

/-! ## Lines, circles and arcs -/

namespace OperationGeometry

variable {start endPoint center p : Point2D} {radius diameter a b : ℝ}

/-- A line stays between its ends along an axis. -/
theorem line_between {u v t : ℝ} (h0 : 0 ≤ t) (h1 : t ≤ 1) : min u v ≤ u + t * (v - u) ∧ u + t * (v - u) ≤ max u v := by
  rcases le_total u v with h | h
  · rw [min_eq_left h, max_eq_right h]
    constructor <;> nlinarith
  · rw [min_eq_right h, max_eq_left h]
    constructor <;> nlinarith

theorem start_mem_line : start ∈ (line start endPoint).points := ⟨0, by simp⟩

theorem end_mem_line : endPoint ∈ (line start endPoint).points := ⟨1, by simp⟩

/-- The points of a circular curve are at most its radius from the center along each axis. -/
theorem abs_sub_le_of_mem_points {c : CurveParams} (hr : c.radiusMm = some radius) (hpos : 0 ≤ radius) (hp : p ∈ c.points) :
    |p.x - c.center.x| ≤ radius ∧ |p.y - c.center.y| ≤ radius := by
  obtain ⟨fraction, hp⟩ := hp
  rw [CurveParams.pointAtFraction] at hp
  split at hp
  · obtain rfl := Except.ok.inj hp
    simp only [CurveParams.pointAt, hr, add_sub_cancel_left, abs_mul, abs_of_nonneg hpos]
    exact ⟨mul_le_of_le_one_right hpos (Real.abs_cos_le_one _), mul_le_of_le_one_right hpos (Real.abs_sin_le_one _)⟩
  · cases hp

theorem abs_sub_le_of_mem_circle (hp : p ∈ (circle center diameter).points) :
    |p.x - center.x| ≤ diameter / 2 ∧ |p.y - center.y| ≤ diameter / 2 := by
  obtain ⟨c, hc, hp⟩ := hp
  have hf := CurveFields.checked_ok hc
  have hr : c.radiusMm = some (diameter / 2) := by rw [hf]
  have hbounds := abs_sub_le_of_mem_points hr (c.radius_pos hr).le hp
  rwa [hf] at hbounds

theorem abs_sub_le_of_mem_arc (hp : p ∈ (arc center radius a b).points) :
    |p.x - center.x| ≤ radius ∧ |p.y - center.y| ≤ radius := by
  obtain ⟨c, hc, hp⟩ := hp
  have hf := CurveFields.checked_ok hc
  have hr : c.radiusMm = some radius := by rw [hf]
  have hbounds := abs_sub_le_of_mem_points hr (c.radius_pos hr).le hp
  rwa [hf] at hbounds

/-- A circle has a point at each fraction of a full turn. -/
theorem mem_circle (center : Point2D) (hpos : 0 < diameter) {t : ℝ} (h0 : 0 ≤ t) (h1 : t ≤ 1) :
    ⟨center.x + diameter / 2 * Real.cos (2 * Real.pi * t), center.y + diameter / 2 * Real.sin (2 * Real.pi * t)⟩ ∈
      (circle center diameter).points := by
  obtain ⟨c, hc, hf⟩ : ∃ c, normalizeCircle center (diameter / 2) = .ok c ∧ c.toCurveFields =
      { kind := .circle, center, startAngleDeg := 0, sweepDeg := 360, radiusMm := some (diameter / 2) } := by
    unfold normalizeCircle CurveFields.checked
    rw [dif_pos (by norm_num)]
    simp only [half_pos hpos, dite_true]
    exact ⟨_, rfl, rfl⟩
  refine ⟨c, hc, t, ?_⟩
  have hangle : radians (0 + 360 * t) = 2 * Real.pi * t := by
    rw [radians]
    ring
  rw [CurveParams.pointAtFraction, if_pos ⟨h0, h1⟩, CurveParams.pointAt, hf, hangle]

/-- The four outermost points of a circle. -/
theorem extremes_mem_circle (center : Point2D) (hpos : 0 < diameter) :
    ⟨center.x - diameter / 2, center.y⟩ ∈ (circle center diameter).points ∧
    ⟨center.x + diameter / 2, center.y⟩ ∈ (circle center diameter).points ∧
    ⟨center.x, center.y - diameter / 2⟩ ∈ (circle center diameter).points ∧
    ⟨center.x, center.y + diameter / 2⟩ ∈ (circle center diameter).points := by
  have hleft := mem_circle center hpos (t := 1 / 2) (by norm_num) (by norm_num)
  have hright := mem_circle center hpos (t := 0) (by norm_num) (by norm_num)
  have hbelow := mem_circle center hpos (t := 3 / 4) (by norm_num) (by norm_num)
  have habove := mem_circle center hpos (t := 1 / 4) (by norm_num) (by norm_num)
  have hthree : 2 * Real.pi * (3 / 4) = Real.pi / 2 + Real.pi := by ring
  have hone : 2 * Real.pi * (1 / 4) = Real.pi / 2 := by ring
  have htwo : 2 * Real.pi * (1 / 2) = Real.pi := by ring
  rw [htwo, Real.cos_pi, Real.sin_pi] at hleft
  rw [hthree, Real.cos_add_pi, Real.sin_add_pi, Real.cos_pi_div_two, Real.sin_pi_div_two] at hbelow
  rw [hone, Real.cos_pi_div_two, Real.sin_pi_div_two] at habove
  simp only [mul_zero, Real.cos_zero, Real.sin_zero, mul_one, add_zero, mul_neg_one, neg_zero, ← sub_eq_add_neg]
    at hleft hright hbelow habove
  exact ⟨hleft, hright, hbelow, habove⟩

end OperationGeometry

/-- The points of several lines, arcs and circles. -/
def pointsOf (geometry : List OperationGeometry) : Set Point2D := {p | ∃ g ∈ geometry, p ∈ g.points}

theorem mem_pointsOf_flatMap {α : Type} {l : List α} {f : α → List OperationGeometry} {p : Point2D} :
    p ∈ pointsOf (l.flatMap f) ↔ ∃ a ∈ l, p ∈ pointsOf (f a) := by
  simp only [pointsOf, mem_ofPred_eq, List.mem_flatMap]
  tauto

/-- The points of a line, an arc or a circle lie in a box. -/
theorem exists_box (g : OperationGeometry) : ∃ box : BoundingBox, g.points ⊆ box.region := by
  cases g with
  | line start endPoint =>
      refine ⟨⟨min start.x endPoint.x, min start.y endPoint.y, max start.x endPoint.x, max start.y endPoint.y⟩, ?_⟩
      rintro p ⟨t, h0, h1, rfl⟩
      exact ⟨(OperationGeometry.line_between h0 h1).1, (OperationGeometry.line_between h0 h1).2,
        (OperationGeometry.line_between h0 h1).1, (OperationGeometry.line_between h0 h1).2⟩
  | arc center radius a b =>
      refine ⟨⟨center.x - radius, center.y - radius, center.x + radius, center.y + radius⟩, ?_⟩
      intro p hp
      obtain ⟨hx, hy⟩ := OperationGeometry.abs_sub_le_of_mem_arc hp
      rw [abs_le] at hx hy
      exact ⟨by linarith, by linarith, by linarith, by linarith⟩
  | circle center diameter =>
      refine ⟨⟨center.x - diameter / 2, center.y - diameter / 2, center.x + diameter / 2, center.y + diameter / 2⟩, ?_⟩
      intro p hp
      obtain ⟨hx, hy⟩ := OperationGeometry.abs_sub_le_of_mem_circle hp
      rw [abs_le] at hx hy
      exact ⟨by linarith, by linarith, by linarith, by linarith⟩

/-- So do those of several. -/
theorem pointsOf_subset_region (l : List OperationGeometry) : ∃ box : BoundingBox, pointsOf l ⊆ box.region := by
  induction l with
  | nil => exact ⟨⟨0, 0, 0, 0⟩, by simp [pointsOf]⟩
  | cons g l ih =>
      obtain ⟨first, hfirst⟩ := exists_box g
      obtain ⟨rest, hrest⟩ := ih
      refine ⟨⟨min first.minX rest.minX, min first.minY rest.minY, max first.maxX rest.maxX, max first.maxY rest.maxY⟩, ?_⟩
      rintro p ⟨h, hh, hp⟩
      rcases List.mem_cons.mp hh with rfl | hh
      · obtain ⟨hleft, hright, hbelow, habove⟩ := hfirst hp
        exact ⟨min_le_of_left_le hleft, le_max_of_le_left hright, min_le_of_left_le hbelow, le_max_of_le_left habove⟩
      · obtain ⟨hleft, hright, hbelow, habove⟩ := hrest ⟨h, hh, hp⟩
        exact ⟨min_le_of_right_le hleft, le_max_of_le_right hright, min_le_of_right_le hbelow, le_max_of_le_right habove⟩

/-! ## Tight boxes -/

/-- The box of a set of points touches it on each side. -/
structure BoundingBox.Tight (box : BoundingBox) (points : Set Point2D) : Prop where
  left : IsLeast (Point2D.x '' points) box.minX
  right : IsGreatest (Point2D.x '' points) box.maxX
  below : IsLeast (Point2D.y '' points) box.minY
  above : IsGreatest (Point2D.y '' points) box.maxY

namespace Polyline2D

variable {polyline : Polyline2D} {v : Point2D} {s : Point2D × Point2D}

/-- The lines of a polyline. -/
def lines (polyline : Polyline2D) : List OperationGeometry := polyline.segments.map fun s => .line s.1 s.2

theorem endpoints_mem (h : s ∈ polyline.segments) : s.1 ∈ polyline.vertices ∧ s.2 ∈ polyline.vertices := by
  rw [segments] at h
  cases hvertices : polyline.vertices with
  | nil => simp [hvertices] at h
  | cons first rest =>
      rw [hvertices] at h
      obtain ⟨hfirst, hsecond⟩ := List.of_mem_zip h
      refine ⟨hfirst, ?_⟩
      split at hsecond
      · rcases List.mem_append.mp hsecond with h | h
        · exact List.mem_cons_of_mem _ h
        · exact List.mem_singleton.mp h ▸ List.mem_cons_self
      · exact List.mem_cons_of_mem _ hsecond

theorem exists_segment (h : v ∈ polyline.vertices) : ∃ s ∈ polyline.segments, s.1 = v ∨ s.2 = v := by
  have htwo := polyline.two_le
  rw [segments]
  cases hvertices : polyline.vertices with
  | nil => simp [hvertices] at h
  | cons first rest =>
      rw [hvertices] at h htwo
      cases rest with
      | nil => simp at htwo
      | cons second rest =>
          rcases List.mem_cons.mp h with rfl | hrest
          · exact ⟨(v, second), by cases polyline.closed <;> simp, .inl rfl⟩
          · have hsnd : v ∈ (((first :: second :: rest).zip
                (if polyline.closed then second :: rest ++ [first] else second :: rest))).map Prod.snd := by
              rw [List.map_snd_zip (by cases polyline.closed <;> simp)]
              split
              · exact List.mem_append_left _ hrest
              · exact hrest
            obtain ⟨s, hs, heq⟩ := List.mem_map.mp hsnd
            exact ⟨s, hs, .inr heq⟩

theorem mem_lines_of_mem_vertices (h : v ∈ polyline.vertices) : v ∈ pointsOf polyline.lines := by
  obtain ⟨s, hs, heq⟩ := exists_segment h
  refine ⟨.line s.1 s.2, List.mem_map_of_mem hs, ?_⟩
  rcases heq with rfl | rfl
  · exact OperationGeometry.start_mem_line
  · exact OperationGeometry.end_mem_line

theorem exists_between_of_mem_lines {p : Point2D} (h : p ∈ pointsOf polyline.lines) :
    ∃ u ∈ polyline.vertices, ∃ w ∈ polyline.vertices, (min u.x w.x ≤ p.x ∧ p.x ≤ max u.x w.x) ∧
      (min u.y w.y ≤ p.y ∧ p.y ≤ max u.y w.y) := by
  obtain ⟨g, hg, hp⟩ := h
  obtain ⟨s, hs, rfl⟩ := List.mem_map.mp hg
  obtain ⟨t, h0, h1, rfl⟩ := hp
  obtain ⟨hfirst, hsecond⟩ := endpoints_mem hs
  exact ⟨s.1, hfirst, s.2, hsecond, OperationGeometry.line_between h0 h1, OperationGeometry.line_between h0 h1⟩

theorem boundingBox_eq : polyline.boundingBox =
    ⟨minimumOf (polyline.vertices.map Point2D.x), minimumOf (polyline.vertices.map Point2D.y),
      maximumOf (polyline.vertices.map Point2D.x), maximumOf (polyline.vertices.map Point2D.y)⟩ := by
  rw [boundingBox]
  cases polyline.vertices with
  | nil => rfl
  | cons first rest => simp [BoundingBox.around, minimumOf, maximumOf, List.foldl_map]

theorem vertices_ne_nil (polyline : Polyline2D) : polyline.vertices ≠ [] := by
  have htwo := polyline.two_le
  intro h
  simp [h] at htwo

theorem segments_ne_nil (polyline : Polyline2D) : polyline.segments ≠ [] := by
  obtain ⟨v, hv⟩ := List.exists_mem_of_ne_nil _ polyline.vertices_ne_nil
  obtain ⟨s, hs, -⟩ := exists_segment hv
  exact List.ne_nil_of_mem hs

/-- A coordinate of the lines is least at a vertex. -/
theorem isLeast_lines {coordinate : Point2D → ℝ}
    (hbetween : ∀ p ∈ pointsOf polyline.lines, ∃ u ∈ polyline.vertices, ∃ w ∈ polyline.vertices,
      min (coordinate u) (coordinate w) ≤ coordinate p) :
    IsLeast (coordinate '' pointsOf polyline.lines) (minimumOf (polyline.vertices.map coordinate)) := by
  obtain ⟨hmem, hle⟩ := minimumOf_mem (l := polyline.vertices.map coordinate) (by simpa using vertices_ne_nil polyline)
  obtain ⟨v, hv, heq⟩ := List.mem_map.mp hmem
  refine ⟨⟨v, mem_lines_of_mem_vertices hv, heq⟩, ?_⟩
  rintro _ ⟨p, hp, rfl⟩
  obtain ⟨u, hu, w, hw, hmin⟩ := hbetween p hp
  exact (le_min (hle _ (List.mem_map_of_mem hu)) (hle _ (List.mem_map_of_mem hw))).trans hmin

theorem isGreatest_lines {coordinate : Point2D → ℝ}
    (hbetween : ∀ p ∈ pointsOf polyline.lines, ∃ u ∈ polyline.vertices, ∃ w ∈ polyline.vertices,
      coordinate p ≤ max (coordinate u) (coordinate w)) :
    IsGreatest (coordinate '' pointsOf polyline.lines) (maximumOf (polyline.vertices.map coordinate)) := by
  obtain ⟨hmem, hle⟩ := maximumOf_mem (l := polyline.vertices.map coordinate) (by simpa using vertices_ne_nil polyline)
  obtain ⟨v, hv, heq⟩ := List.mem_map.mp hmem
  refine ⟨⟨v, mem_lines_of_mem_vertices hv, heq⟩, ?_⟩
  rintro _ ⟨p, hp, rfl⟩
  obtain ⟨u, hu, w, hw, hmax⟩ := hbetween p hp
  exact hmax.trans (max_le (hle _ (List.mem_map_of_mem hu)) (hle _ (List.mem_map_of_mem hw)))

theorem tight_boundingBox : polyline.boundingBox.Tight (pointsOf polyline.lines) := by
  rw [boundingBox_eq]
  constructor
  · apply isLeast_lines
    intro p hp
    obtain ⟨u, hu, w, hw, hx, hy⟩ := exists_between_of_mem_lines hp
    exact ⟨u, hu, w, hw, hx.1⟩
  · apply isGreatest_lines
    intro p hp
    obtain ⟨u, hu, w, hw, hx, hy⟩ := exists_between_of_mem_lines hp
    exact ⟨u, hu, w, hw, hx.2⟩
  · apply isLeast_lines
    intro p hp
    obtain ⟨u, hu, w, hw, hx, hy⟩ := exists_between_of_mem_lines hp
    exact ⟨u, hu, w, hw, hy.1⟩
  · apply isGreatest_lines
    intro p hp
    obtain ⟨u, hu, w, hw, hx, hy⟩ := exists_between_of_mem_lines hp
    exact ⟨u, hu, w, hw, hy.2⟩

end Polyline2D

theorem tight_circle {center : Point2D} {diameter : ℝ} (hpos : 0 < diameter) :
    (⟨center.x - diameter / 2, center.y - diameter / 2, center.x + diameter / 2, center.y + diameter / 2⟩ :
      BoundingBox).Tight (OperationGeometry.circle center diameter).points := by
  obtain ⟨hleft, hright, hbelow, habove⟩ := OperationGeometry.extremes_mem_circle center hpos
  constructor
  · refine ⟨⟨_, hleft, rfl⟩, ?_⟩
    rintro _ ⟨p, hp, rfl⟩
    linarith [(abs_le.mp (OperationGeometry.abs_sub_le_of_mem_circle hp).1).1]
  · refine ⟨⟨_, hright, rfl⟩, ?_⟩
    rintro _ ⟨p, hp, rfl⟩
    linarith [(abs_le.mp (OperationGeometry.abs_sub_le_of_mem_circle hp).1).2]
  · refine ⟨⟨_, hbelow, rfl⟩, ?_⟩
    rintro _ ⟨p, hp, rfl⟩
    linarith [(abs_le.mp (OperationGeometry.abs_sub_le_of_mem_circle hp).2).1]
  · refine ⟨⟨_, habove, rfl⟩, ?_⟩
    rintro _ ⟨p, hp, rfl⟩
    linarith [(abs_le.mp (OperationGeometry.abs_sub_le_of_mem_circle hp).2).2]

end CadHarness.Geometry
