import CadHarness.Geometry.AreaTheorems
import CadHarness.Geometry.MeasureTheorems
import CadHarness.Geometry.PolylineTheorems
import CadHarness.Lib.CircleArc

/-!
# Chords along curves

The chords that a circular curve is cut into are within the chord tolerance of the curve, and the curve of the chords.
-/

namespace CadHarness.Geometry
open CadHarness.Lib Metric Set

variable {c : CurveParams} {radius chordTolerance : ℝ} {count : ℕ} {points : List Point2D} {z : ℂ}

/-! ## The number of chords -/

/-- The greatest turn of a chord. -/
noncomputable def maxStep (radius chordTolerance : ℝ) : ℝ :=
  if chordTolerance ≥ radius then Real.pi else 2 * Real.arccos (max (-1) (min 1 (1 - chordTolerance / radius)))

/-- A chord of at most that turn is within the tolerance of its arc. -/
theorem maxStep_spec (hr : 0 < radius) (hpos : 0 < chordTolerance) :
    0 < maxStep radius chordTolerance ∧ maxStep radius chordTolerance ≤ Real.pi ∧
      radius * (1 - Real.cos (maxStep radius chordTolerance / 2)) ≤ chordTolerance := by
  unfold maxStep
  split
  · rename_i hbig
    exact ⟨Real.pi_pos, le_rfl, by rw [Real.cos_pi_div_two, sub_zero, mul_one]; exact hbig⟩
  · rename_i hsmall
    have hratio : 0 < chordTolerance / radius := div_pos hpos hr
    have hless : chordTolerance / radius < 1 := (div_lt_one hr).mpr (not_le.mp hsmall)
    rw [min_eq_right (by linarith), max_eq_right (by linarith), mul_div_cancel_left₀ _ two_ne_zero,
      Real.cos_arccos (by linarith) (by linarith), sub_sub_cancel, mul_div_cancel₀ _ hr.ne']
    refine ⟨by linarith [Real.arccos_pos.mpr (show 1 - chordTolerance / radius < 1 by linarith)], ?_, le_rfl⟩
    linarith [Real.arccos_le_pi_div_two.mpr (show 0 ≤ 1 - chordTolerance / radius by linarith)]

/-- Each chord turns by at most half a turn, and is as close to its arc as the tolerance asks. -/
theorem chordSegmentCount_spec (hr : c.radiusMm = some radius) (h : chordSegmentCount c chordTolerance = .ok count) :
    0 < chordTolerance ∧ 0 < count ∧ |radians c.sweepDeg / count| ≤ Real.pi ∧
      radius * (1 - Real.cos (radians c.sweepDeg / count / 2)) ≤ chordTolerance := by
  have hcount := chordSegmentCount_pos h
  have hradius := c.radius_pos hr
  unfold chordSegmentCount at h
  split at h
  · cases h
  · rename_i hpos
    rw [not_le] at hpos
    obtain ⟨hstep, hle, hsagitta⟩ := maxStep_spec hradius hpos
    have hmaximum : c.maximumRadiusMm = radius := by rw [CurveParams.maximumRadiusMm, hr]; rfl
    have hceil : |radians c.sweepDeg| / maxStep radius chordTolerance ≤ count := by
      obtain rfl := Except.ok.inj h
      rw [hmaximum, ← maxStep]
      exact (Nat.le_ceil _).trans (Nat.cast_le.mpr (le_max_right _ _))
    have hcount' : (0 : ℝ) < count := Nat.cast_pos.mpr hcount
    have hturn : |radians c.sweepDeg / count| ≤ maxStep radius chordTolerance := by
      rw [abs_div, abs_of_pos hcount', div_le_iff₀ hcount', ← div_le_iff₀' hstep]
      exact hceil
    refine ⟨hpos, hcount, hturn.trans hle, le_trans ?_ hsagitta⟩
    have hcos : Real.cos (maxStep radius chordTolerance / 2) ≤ Real.cos (radians c.sweepDeg / count / 2) := by
      apply cos_le_cos_of_abs
      · rw [abs_div, abs_two, abs_of_pos (half_pos hstep)]
        linarith
      · rw [abs_of_pos (half_pos hstep)]
        linarith
    exact mul_le_mul_of_nonneg_left (sub_le_sub_left hcos 1) hradius.le

/-! ## The chords of a curve -/

/-- The segments from each point of a list to the next one. -/
def chords (points : List Point2D) : List (Point2D × Point2D) := points.zip points.tail

theorem mem_chords_iff {s : Point2D × Point2D} :
    s ∈ chords points ↔ ∃ i, ∃ hi : i + 1 < points.length, s = (points[i], points[i + 1]) := by
  rw [chords, List.mem_iff_getElem]
  constructor
  · rintro ⟨i, hi, rfl⟩
    rw [List.length_zip, List.length_tail] at hi
    exact ⟨i, by omega, by simp⟩
  · rintro ⟨i, hi, rfl⟩
    exact ⟨i, by rw [List.length_zip, List.length_tail]; omega, by simp⟩

/-- The angle of a curve at a fraction. -/
noncomputable def angleAt (c : CurveParams) (t : ℝ) : ℝ := radians (c.startAngleDeg + c.sweepDeg * t)

theorem angleAt_sub (c : CurveParams) (s t : ℝ) : angleAt c t - angleAt c s = radians c.sweepDeg * (t - s) := by
  unfold angleAt radians
  ring

theorem toComplex_pointAt_angle (hr : c.radiusMm = some radius) (t : ℝ) :
    (c.pointAt t).toComplex = circleMap c.center.toComplex radius (angleAt c t) :=
  CurveParams.toComplex_pointAt hr t

/-- The points of a curve between two fractions lie on the arc between their angles. -/
theorem pointAt_mem_circleArc (hr : c.radiusMm = some radius) {s t u : ℝ} (hs : s ≤ u) (ht : u ≤ t) :
    (c.pointAt u).toComplex ∈ circleArc c.center.toComplex radius (angleAt c s) (angleAt c t) := by
  rw [toComplex_pointAt_angle hr]
  apply circleMap_mem_circleArc
  have hfirst := angleAt_sub c s u
  have hsecond := angleAt_sub c u t
  rw [mem_uIcc]
  rcases le_total 0 (radians c.sweepDeg) with hpos | hneg
  · have hle := mul_nonneg hpos (sub_nonneg.mpr hs)
    have hle' := mul_nonneg hpos (sub_nonneg.mpr ht)
    exact .inl ⟨by linarith, by linarith⟩
  · have hle := mul_nonneg_of_nonpos_of_nonpos hneg (sub_nonpos.mpr hs)
    have hle := mul_nonpos_of_nonpos_of_nonneg hneg (sub_nonneg.mpr hs)
    have hle' := mul_nonpos_of_nonpos_of_nonneg hneg (sub_nonneg.mpr ht)
    exact .inr ⟨by linarith, by linarith⟩

/-- The arc between two fractions is a part of the curve. -/
theorem circleArc_subset (hr : c.radiusMm = some radius) {s t : ℝ} (hs : s ∈ Icc (0 : ℝ) 1) (ht : t ∈ Icc (0 : ℝ) 1) :
    circleArc c.center.toComplex radius (angleAt c s) (angleAt c t) ⊆ Point2D.toComplex '' c.points := by
  rintro z ⟨θ, hθ, rfl⟩
  rw [← segment_eq_uIcc, segment_eq_image'] at hθ
  obtain ⟨u, hu, rfl⟩ := hθ
  refine ⟨c.pointAt (s + u * (t - s)), CurveParams.mem_points.mpr ⟨_, ?_, rfl⟩, ?_⟩
  · have hmem := (convex_Icc (0 : ℝ) 1).add_smul_sub_mem hs ht hu
    simpa using hmem
  · rw [toComplex_pointAt_angle hr]
    congr 1
    simp only [smul_eq_mul, angleAt, radians]
    ring

/-- A set is within a distance of another one. -/
def WithinOf (v : ℝ) (S T : Set ℂ) : Prop := ∀ z ∈ S, ∃ w ∈ T, dist z w ≤ v

/-- A fraction of a curve is between those of two neighbouring points. -/
theorem exists_index {t : ℝ} (hpos : 0 < count) (ht : t ∈ Icc (0 : ℝ) 1) :
    ∃ i < count, (i / count : ℝ) ≤ t ∧ t ≤ ((i + 1 : ℕ) / count : ℝ) := by
  have hpos' : (0 : ℝ) < count := Nat.cast_pos.mpr hpos
  rcases ht.2.eq_or_lt with rfl | hlt
  · refine ⟨count - 1, by omega, ?_, ?_⟩
    · rw [div_le_one hpos', Nat.cast_le]
      omega
    · rw [Nat.sub_add_cancel hpos, div_self hpos'.ne']
  · refine ⟨⌊t * count⌋₊, ?_, ?_, ?_⟩
    · rw [Nat.floor_lt (mul_nonneg ht.1 hpos'.le)]
      exact mul_lt_of_lt_one_left hpos' hlt
    · rw [div_le_iff₀ hpos']
      exact Nat.floor_le (mul_nonneg ht.1 hpos'.le)
    · rw [le_div_iff₀ hpos']
      push_cast
      exact (Nat.lt_floor_add_one _).le

/-- The chords stay near the curve, and the curve near its chords. -/
theorem curve_near_chords (hr : c.radiusMm = some radius) (h : linearizeCurve c chordTolerance = .ok points) :
    WithinOf chordTolerance (pathPoints (chords points)) (Point2D.toComplex '' c.points) ∧
      WithinOf chordTolerance (Point2D.toComplex '' c.points) (pathPoints (chords points)) := by
  obtain ⟨count, hcount, rfl⟩ := linearizeCurve_ok h
  obtain ⟨-, hpos, hturn, hsagitta⟩ := chordSegmentCount_spec hr hcount
  have hradius := (c.radius_pos hr).le
  have hpos' : (0 : ℝ) < count := Nat.cast_pos.mpr hpos
  have hstep (i : ℕ) : angleAt c ((i + 1 : ℕ) / count) - angleAt c (i / count) = radians c.sweepDeg / count := by
    rw [angleAt_sub]
    push_cast
    field_simp
    ring
  have hbound (i : ℕ) : sagitta radius (angleAt c (i / count)) (angleAt c ((i + 1 : ℕ) / count)) ≤ chordTolerance := by
    rw [sagitta, hstep]
    exact hsagitta
  have hchord (i : ℕ) : segmentPoints (c.pointAt (i / count), c.pointAt ((i + 1 : ℕ) / count)) =
      segment ℝ (circleMap c.center.toComplex radius (angleAt c (i / count)))
        (circleMap c.center.toComplex radius (angleAt c ((i + 1 : ℕ) / count))) := by
    rw [segmentPoints, toComplex_pointAt_angle hr, toComplex_pointAt_angle hr]
  constructor
  · rintro z ⟨s, hs, hz⟩
    obtain ⟨i, hi, rfl⟩ := mem_chords_iff.mp hs
    simp only [List.length_map, List.length_range] at hi
    simp only [List.getElem_map, List.getElem_range] at hz
    rw [hchord] at hz
    obtain ⟨w, hw, hdist⟩ := chord_near_arc hradius (by rw [hstep]; exact hturn) hz
    have hfraction {i : ℕ} (hi : i ≤ count) : (i / count : ℝ) ∈ Icc (0 : ℝ) 1 :=
      ⟨by positivity, (div_le_one hpos').mpr (Nat.cast_le.mpr hi)⟩
    exact ⟨w, circleArc_subset hr (hfraction (by omega)) (hfraction (by omega)) hw, hdist.trans (hbound i)⟩
  · rintro _ ⟨p, hp, rfl⟩
    obtain ⟨t, ht, rfl⟩ := CurveParams.mem_points.mp hp
    obtain ⟨i, hi, hlow, hhigh⟩ := exists_index hpos ht
    obtain ⟨z, hz, hdist⟩ := arc_near_chord hradius (by rw [hstep]; exact hturn) (pointAt_mem_circleArc hr hlow hhigh)
    rw [← hchord] at hz
    refine ⟨z, ⟨_, mem_chords_iff.mpr ⟨i, ?_, ?_⟩, hz⟩, hdist.trans (hbound i)⟩
    · simp only [List.length_map, List.length_range]
      omega
    · simp only [List.getElem_map, List.getElem_range]

/-- The chords of a curve run from its start to its end. -/
theorem linearizeCurve_ends (h : linearizeCurve c chordTolerance = .ok points) :
    points.head? = some c.startPoint ∧ points.getLast? = some c.endPoint := by
  obtain ⟨count, hcount, rfl⟩ := linearizeCurve_ok h
  have hpos : (count : ℝ) ≠ 0 := (Nat.cast_pos.mpr (chordSegmentCount_pos hcount)).ne'
  constructor
  · simp [List.head?_range, CurveParams.startPoint]
  · simp [List.getLast?_range, CurveParams.endPoint, hpos]

/-! ## The chords of several edges -/

theorem chords_append (xs : List Point2D) (y : Point2D) (ys : List Point2D) :
    chords (xs ++ y :: ys) = chords (xs ++ [y]) ++ chords (y :: ys) := by
  induction xs with
  | nil => simp [chords]
  | cons x xs ih =>
      cases xs with
      | nil => simp [chords]
      | cons x' xs => simpa [chords] using ih

/-- A list of points goes on where another one ends. -/
def GoesOn (first second : List Point2D) : Prop := ∃ xs y ys, first = xs ++ [y] ∧ second = y :: ys

theorem chords_joinPoints {acc : List Point2D} {rest : List (List Point2D)} (h : (acc :: rest).IsChain GoesOn) :
    chords (joinPoints acc rest) = (acc :: rest).flatMap chords ∧ (joinPoints acc rest).head? = acc.head? ∧
      (joinPoints acc rest).getLast? = ((acc :: rest).getLast (List.cons_ne_nil _ _)).getLast? := by
  induction rest generalizing acc with
  | nil => simp [joinPoints]
  | cons next rest ih =>
      rw [List.isChain_cons_cons] at h
      obtain ⟨⟨xs, y, ys, rfl, rfl⟩, h⟩ := h
      rw [joinPoints, if_neg (by simp), List.tail_cons]
      have hacc : xs ++ [y] ++ ys = xs ++ y :: ys := by simp
      have hchain : ((xs ++ [y] ++ ys) :: rest).IsChain GoesOn := by
        cases rest with
        | nil => exact .singleton _
        | cons next rest =>
            rw [List.isChain_cons_cons] at h ⊢
            obtain ⟨⟨xs', y', ys', heq, rfl⟩, h⟩ := h
            exact ⟨⟨xs ++ xs', y', ys', by rw [hacc, heq, List.append_assoc], rfl⟩, h⟩
      obtain ⟨hchords, hhead, hlast⟩ := ih hchain
      refine ⟨?_, ?_, ?_⟩
      · rw [hchords, List.flatMap_cons, hacc, chords_append]
        simp [List.flatMap_cons]
      · rw [hhead]
        simp
      · rw [hlast]
        cases rest with
        | nil => exact hacc ▸ List.getLast?_append_of_ne_nil xs (List.cons_ne_nil y ys)
        | cons next rest => simp

/-! ## Closed contours -/

theorem chords_concat (xs : List Point2D) (y z : Point2D) : chords (xs ++ [y] ++ [z]) = chords (xs ++ [y]) ++ [(y, z)] := by
  rw [List.append_assoc, List.singleton_append, chords_append]
  rfl

theorem Polyline2D.checked_ok {points : List Point2D} {closed : Bool} {polyline : Polyline2D}
    (h : Polyline2D.checked points closed = .ok polyline) : polyline.vertices = points ∧ polyline.closed = closed := by
  unfold Polyline2D.checked at h
  split at h
  · obtain rfl := Except.ok.inj h
    exact ⟨rfl, rfl⟩
  · cases h

/-- The segments of a closed polyline are its chords and the closing one. -/
theorem closed_segments {polyline : Polyline2D} {first last : Point2D} (hclosed : polyline.closed = true)
    (hfirst : polyline.vertices.head? = some first) (hlast : polyline.vertices.getLast? = some last) :
    polyline.segments = chords polyline.vertices ++ [(last, first)] := by
  obtain ⟨rest, hrest⟩ := List.head?_eq_some_iff.mp hfirst
  obtain ⟨front, hfront⟩ := List.getLast?_eq_some_iff.mp hlast
  have hlength : (first :: rest).length = (rest ++ [first]).length := by simp
  have hzip := @List.zip_append _ _ _ [first] _ [] hlength
  rw [List.append_nil, List.zip_nil_right, List.append_nil] at hzip
  rw [Polyline2D.segments, hclosed, hfront, ← chords_concat, ← hfront, hrest]
  exact hzip.symm

/-! ## Edges -/

/-- The points of an edge in the complex plane. -/
def ContourEdge.region : ContourEdge → Set ℂ
  | .line edge => segmentPoints (edge.start, edge.endPoint)
  | .curve c => Point2D.toComplex '' c.points

/-- The ends of an edge. -/
noncomputable def ContourEdge.ends : ContourEdge → Point2D × Point2D
  | .line edge => (edge.start, edge.endPoint)
  | .curve c => (c.startPoint, c.endPoint)

section

variable {edge : ContourEdge} {edges : List ContourEdge} {lists : List (List Point2D)}

theorem edge_near_chords (hcircular : edge.Circular) (hpos : 0 ≤ chordTolerance)
    (h : edge.points chordTolerance = .ok points) :
    WithinOf chordTolerance (pathPoints (chords points)) edge.region ∧
      WithinOf chordTolerance edge.region (pathPoints (chords points)) := by
  cases hcircular with
  | line edge =>
      obtain rfl := Except.ok.inj h
      have hself : pathPoints (chords [edge.start, edge.endPoint]) = (ContourEdge.line edge).region := by
        ext z
        simp [pathPoints, chords, ContourEdge.region]
      rw [hself]
      have hwithin (S : Set ℂ) : WithinOf chordTolerance S S := fun z hz => ⟨z, hz, by rwa [dist_self]⟩
      exact ⟨hwithin _, hwithin _⟩
  | curve c radius hr => exact curve_near_chords hr h

theorem edge_points_ends (h : edge.points chordTolerance = .ok points) :
    points.head? = some edge.ends.1 ∧ points.getLast? = some edge.ends.2 := by
  cases edge with
  | line edge =>
      obtain rfl := Except.ok.inj h
      exact ⟨rfl, rfl⟩
  | curve c => exact linearizeCurve_ends h

/-- The edges of a chain are cut into lists that go on one from the other. -/
theorem goesOn_of_ends (h : edges.IsChain fun edge next => edge.ends.2 = next.ends.1)
    (hlists : List.Forall₂ (fun edge points => edge.points chordTolerance = .ok points) edges lists) :
    lists.IsChain GoesOn := by
  induction hlists with
  | nil => exact .nil
  | cons hpoints hlists ih =>
      cases hlists with
      | nil => exact .singleton _
      | cons hnext hrest =>
          rw [List.isChain_cons_cons] at h ⊢
          refine ⟨?_, ih h.2⟩
          obtain ⟨-, hlast⟩ := edge_points_ends hpoints
          obtain ⟨hhead, -⟩ := edge_points_ends hnext
          obtain ⟨xs, hxs⟩ := List.getLast?_eq_some_iff.mp hlast
          obtain ⟨ys, hys⟩ := List.head?_eq_some_iff.mp hhead
          exact ⟨xs, _, ys, hxs, h.1 ▸ hys⟩

/-- The points of several edges. -/
def edgesRegion (edges : List ContourEdge) : Set ℂ := {z | ∃ edge ∈ edges, z ∈ edge.region}

theorem edges_near_chords (hcircular : ∀ edge ∈ edges, edge.Circular) (hpos : 0 ≤ chordTolerance)
    (hlists : List.Forall₂ (fun edge points => edge.points chordTolerance = .ok points) edges lists) :
    WithinOf chordTolerance (pathPoints (lists.flatMap chords)) (edgesRegion edges) ∧
      WithinOf chordTolerance (edgesRegion edges) (pathPoints (lists.flatMap chords)) := by
  constructor
  · rintro z ⟨s, hs, hz⟩
    obtain ⟨points, hpoints, hs⟩ := List.mem_flatMap.mp hs
    obtain ⟨edge, hedge, h⟩ := Fallible.mem_of_forall₂ hlists hpoints
    obtain ⟨w, hw, hdist⟩ := (edge_near_chords (hcircular edge hedge) hpos h).1 z ⟨s, hs, hz⟩
    exact ⟨w, ⟨edge, hedge, hw⟩, hdist⟩
  · rintro z ⟨edge, hedge, hz⟩
    obtain ⟨points, hpoints, h⟩ := Fallible.mem_of_forall₂ hlists.flip hedge
    obtain ⟨w, ⟨s, hs, hw⟩, hdist⟩ := (edge_near_chords (hcircular edge hedge) hpos h).2 z hz
    exact ⟨w, ⟨s, List.mem_flatMap.mpr ⟨points, hpoints, hs⟩, hw⟩, hdist⟩

end

/-! ## Ellipses -/

/-- The point of a circle around the origin, moved to the ellipse that the circle is squeezed to. -/
noncomputable def squeeze (c : CurveParams) (major minor : ℝ) (p : Point2D) : Point2D :=
  let rotation := radians c.rotationDeg
  let localY := minor / major * p.y
  ⟨c.center.x + p.x * Real.cos rotation - localY * Real.sin rotation,
    c.center.y + p.x * Real.sin rotation + localY * Real.cos rotation⟩

section
variable {major minor : ℝ}

/-- The circle around the origin over the long axis. -/
noncomputable def overMajor (c : CurveParams) (hmajor : 0 < major) : CurveParams where
  kind := .circle
  center := ⟨0, 0⟩
  startAngleDeg := c.startAngleDeg
  sweepDeg := c.sweepDeg
  radiusMm := some major
  sweep_ne := c.sweep_ne
  sweep_le := c.sweep_le
  shape := .circular major rfl hmajor rfl rfl

theorem pointAt_squeeze (hr : c.radiusMm = none) (ha : c.semiMajorMm = some major) (hb : c.semiMinorMm = some minor)
    (hmajor : 0 < major) (t : ℝ) : c.pointAt t = squeeze c major minor ((overMajor c hmajor).pointAt t) := by
  have hmajor' := hmajor.ne'
  unfold CurveParams.pointAt squeeze
  rw [hr, ha, hb]
  simp only [overMajor, Option.getD_some, zero_add]
  congr 1 <;> field_simp

theorem chordSegmentCount_overMajor (hr : c.radiusMm = none) (ha : c.semiMajorMm = some major) (hmajor : 0 < major) :
    chordSegmentCount (overMajor c hmajor) chordTolerance = chordSegmentCount c chordTolerance := by
  rw [chordSegmentCount, chordSegmentCount, CurveParams.maximumRadiusMm, CurveParams.maximumRadiusMm, hr, ha]
  rfl

theorem linearizeCurve_squeeze (hr : c.radiusMm = none) (ha : c.semiMajorMm = some major)
    (hb : c.semiMinorMm = some minor) (hmajor : 0 < major) (h : linearizeCurve c chordTolerance = .ok points) :
    ∃ round, linearizeCurve (overMajor c hmajor) chordTolerance = .ok round ∧
      points = round.map (squeeze c major minor) := by
  obtain ⟨count, hcount, rfl⟩ := linearizeCurve_ok h
  refine ⟨_, by rw [linearizeCurve, chordSegmentCount_overMajor hr ha, hcount]; rfl, ?_⟩
  simp only [bind_pure_comp, List.map_eq_map, List.map_map, Function.comp_def]
  exact List.map_congr_left fun i _ => pointAt_squeeze hr ha hb hmajor _

/-- Squeezing brings no points apart. -/
theorem dist_squeeze_le (hpos : 0 < minor) (hle : minor ≤ major) (p q : Point2D) :
    dist (squeeze c major minor p).toComplex (squeeze c major minor q).toComplex ≤ dist p.toComplex q.toComplex := by
  have hratio : 0 < minor / major ∧ minor / major ≤ 1 :=
    ⟨div_pos hpos (hpos.trans_le hle), (div_le_one (hpos.trans_le hle)).mpr hle⟩
  rw [← Point2D.distanceTo_eq_dist, ← Point2D.distanceTo_eq_dist, Point2D.distanceTo, Point2D.distanceTo]
  apply Real.sqrt_le_sqrt
  have hturn := Real.sin_sq_add_cos_sq (radians c.rotationDeg)
  have hsquares : ((squeeze c major minor p).x - (squeeze c major minor q).x) ^ 2 +
      ((squeeze c major minor p).y - (squeeze c major minor q).y) ^ 2 =
      (p.x - q.x) ^ 2 + (minor / major) ^ 2 * (p.y - q.y) ^ 2 := by
    simp only [squeeze]
    linear_combination ((p.x - q.x) ^ 2 + (minor / major) ^ 2 * (p.y - q.y) ^ 2) * hturn
  have hsquare : (minor / major) ^ 2 ≤ 1 := pow_le_one₀ hratio.1.le hratio.2
  rw [hsquares]
  exact add_le_add_right (mul_le_of_le_one_left (sq_nonneg _) hsquare) _

/-- A segment is squeezed to the segment between its squeezed ends. -/
theorem toComplex_squeeze_segment {s : Point2D × Point2D} (hz : z ∈ segmentPoints s) :
    ∃ p : Point2D, p.toComplex = z ∧
      (squeeze c major minor p).toComplex ∈ segmentPoints (squeeze c major minor s.1, squeeze c major minor s.2) := by
  rw [segmentPoints, segment_eq_image'] at hz
  obtain ⟨t, ht, rfl⟩ := hz
  refine ⟨⟨s.1.x + t * (s.2.x - s.1.x), s.1.y + t * (s.2.y - s.1.y)⟩, ?_, ?_⟩
  · apply Complex.ext <;> simp [Point2D.toComplex]
  · rw [segmentPoints, segment_eq_image']
    refine ⟨t, ht, ?_⟩
    apply Complex.ext <;> simp [Point2D.toComplex, squeeze] <;> ring

end

/-- The error that is said to come with a number of chords is within the tolerance they were counted for. -/
theorem chordErrorBound_le (h : chordSegmentCount c chordTolerance = .ok count) :
    ∃ error, chordErrorBound c count = .ok error ∧ error ≤ chordTolerance := by
  refine ⟨_, if_neg (Nat.not_lt.mpr (chordSegmentCount_pos h)), ?_⟩
  have hstep : |radians c.sweepDeg| / (2 * count) = |radians c.sweepDeg / count / 2| := by
    rw [abs_div, abs_div, Nat.abs_cast, abs_two, div_div, mul_comm]
  rw [hstep, Real.cos_abs]
  cases c.shape with
  | circular radius hr =>
      rw [CurveParams.maximumRadiusMm, hr]
      exact (chordSegmentCount_spec hr h).2.2.2
  | elliptic major minor ha _ hpos hle hr =>
      have hmajor := hpos.trans_le hle
      rw [← chordSegmentCount_overMajor hr ha hmajor] at h
      rw [CurveParams.maximumRadiusMm, hr, ha]
      exact (@chordSegmentCount_spec (overMajor c hmajor) _ _ _ rfl h).2.2.2

/-- No point of a curve is further from its chords than the tolerance. -/
theorem linearizeCurve_near (h : linearizeCurve c chordTolerance = .ok points) :
    WithinOf chordTolerance (Point2D.toComplex '' c.points) (pathPoints (chords points)) := by
  cases c.shape with
  | circular radius hr => exact (curve_near_chords hr h).2
  | elliptic major minor ha hb hpos hle hr =>
      have hmajor := hpos.trans_le hle
      obtain ⟨round, hround, rfl⟩ := linearizeCurve_squeeze hr ha hb hmajor h
      rintro _ ⟨p, hp, rfl⟩
      obtain ⟨t, ht, rfl⟩ := CurveParams.mem_points.mp hp
      have hmem : ((overMajor c hmajor).pointAt t).toComplex ∈ Point2D.toComplex '' (overMajor c hmajor).points :=
        ⟨_, CurveParams.mem_points.mpr ⟨t, ht, rfl⟩, rfl⟩
      obtain ⟨w, ⟨s, hs, hw⟩, hdist⟩ := (curve_near_chords rfl hround).2 _ hmem
      obtain ⟨q, rfl, hq⟩ := @toComplex_squeeze_segment c _ major minor s hw
      refine ⟨_, ⟨_, ?_, hq⟩, ?_⟩
      · obtain ⟨i, hi, rfl⟩ := mem_chords_iff.mp hs
        exact mem_chords_iff.mpr ⟨i, by rwa [List.length_map], by simp⟩
      · rw [pointAt_squeeze hr ha hb hmajor]
        exact (dist_squeeze_le hpos hle _ _).trans hdist

/-! ## Bulges -/

section
variable {start finish : Point2D} {bulge : ℝ} {c' : CurveParams}

theorem circleMap_sub_congr {center : ℂ} {a b : ℝ} (h : circleMap center radius a = circleMap center radius b) (d : ℝ) :
    circleMap center radius (a - d) = circleMap center radius (b - d) := by
  have hsub (θ : ℝ) : circleMap center radius (θ - d) =
      center + (circleMap center radius θ - center) * Complex.exp (-(d * Complex.I)) := by
    rw [circleMap_sub_center, circleMap_zero, circleMap, Complex.ofReal_sub, sub_mul, sub_eq_add_neg (_ * _),
      Complex.exp_add, mul_assoc]
  rw [hsub, hsub, h]

/-- The arc of the negated bulge between the swapped vertices is the same one, run through backwards. -/
theorem normalizeBulge_reversed (h : normalizeBulge start finish bulge = .ok c)
    (h' : normalizeBulge finish start (-bulge) = .ok c') (t : ℝ) : c'.pointAt t = c.pointAt (1 - t) := by
  have hends := (normalizeBulge_ends h).2.trans (normalizeBulge_ends h').1.symm
  have hcomm : finish.distanceTo start = start.distanceTo finish := by
    rw [Point2D.distanceTo_eq_dist, Point2D.distanceTo_eq_dist, dist_comm]
  unfold normalizeBulge at h h'
  dsimp only at h h'
  split at h
  · cases h
  split at h'
  · cases h'
  have hfields := CurveFields.checked_ok h
  have hfields' := CurveFields.checked_ok h'
  have hradius : c.radiusMm = some (start.distanceTo finish * (1 + bulge * bulge) / (4 * |bulge|)) := by rw [hfields]
  have hradius' : c'.radiusMm = some (start.distanceTo finish * (1 + bulge * bulge) / (4 * |bulge|)) := by
    rw [hfields', hcomm, neg_mul_neg, abs_neg]
  have hcenter : c'.center = c.center := by
    rw [hfields, hfields', hcomm]
    ext
    · simp only
      ring
    · simp only
      ring
  have hsweep : radians c'.sweepDeg = -radians c.sweepDeg := by
    rw [hfields, hfields', Real.arctan_neg]
    simp only [radians, degrees]
    ring
  have hmeet : circleMap c.center.toComplex (start.distanceTo finish * (1 + bulge * bulge) / (4 * |bulge|)) (angleAt c 1) =
      circleMap c.center.toComplex (start.distanceTo finish * (1 + bulge * bulge) / (4 * |bulge|)) (angleAt c' 0) := by
    rw [← toComplex_pointAt_angle hradius, ← hcenter, ← toComplex_pointAt_angle hradius']
    exact congrArg Point2D.toComplex hends
  apply Point2D.toComplex_injective
  rw [toComplex_pointAt_angle hradius', toComplex_pointAt_angle hradius, hcenter]
  have hturn := angleAt_sub c 1 (1 - t)
  have hturn' := angleAt_sub c' 0 t
  have hangle : angleAt c (1 - t) = angleAt c 1 - radians c.sweepDeg * t := by linarith
  have hangle' : angleAt c' t = angleAt c' 0 - radians c.sweepDeg * t := by
    rw [hsweep] at hturn'
    linarith
  rw [hangle, hangle', circleMap_sub_congr hmeet]

end

/-- The chords of every curve are within the tolerance of it and meet its ends, and every bulge that is not taken for
straight gives an arc from vertex to vertex that the negated one runs through backwards. -/
theorem chords_within_and_bulges_reversible :
    (∀ (c : CurveParams) (chordTolerance : ℝ), 0 < chordTolerance →
      ∃ points, linearizeCurve c chordTolerance = .ok points ∧ points.head? = some c.startPoint ∧
        points.getLast? = some c.endPoint ∧
        ∀ p ∈ c.points, ∃ z ∈ pathPoints (chords points), dist p.toComplex z ≤ chordTolerance) ∧
      ∀ (start finish : Point2D) (bulge : ℝ), start ≠ finish → 1e-15 < |bulge| →
        ∃ c c', normalizeBulge start finish bulge = .ok c ∧ normalizeBulge finish start (-bulge) = .ok c' ∧
          c.startPoint = start ∧ c.endPoint = finish ∧
          ∀ t ∈ Icc (0 : ℝ) 1, c'.pointAtFraction t = c.pointAtFraction (1 - t) := by
  constructor
  · intro c chordTolerance hpos
    obtain ⟨points, hpoints, -⟩ := linearizeCurve_isOk hpos c
    obtain ⟨hhead, hlast⟩ := linearizeCurve_ends hpoints
    exact ⟨points, hpoints, hhead, hlast, fun p hp => linearizeCurve_near hpoints _ ⟨p, hp, rfl⟩⟩
  · intro start finish bulge hne hbulge
    have hdistance {p q : Point2D} (h : p ≠ q) : 0 < p.distanceTo q := by
      rw [Point2D.distanceTo_eq_dist, dist_pos]
      exact Point2D.toComplex_injective.ne h
    have hclose {b : ℝ} (h : |b| = |bulge|) : ¬ IsClose b 0 1e-15 := by
      rw [IsClose, sub_zero, h, not_le]
      exact hbulge
    obtain ⟨c, hc⟩ := normalizeBulge_isOk (hdistance hne) (hclose rfl)
    obtain ⟨c', hc'⟩ := normalizeBulge_isOk (hdistance hne.symm) (hclose (abs_neg bulge))
    refine ⟨c, c', hc, hc', (normalizeBulge_ends hc).1, (normalizeBulge_ends hc).2, fun t ht => ?_⟩
    rw [CurveParams.pointAtFraction, CurveParams.pointAtFraction, if_pos ⟨ht.1, ht.2⟩,
      if_pos ⟨sub_nonneg.mpr ht.2, sub_le_self 1 ht.1⟩, normalizeBulge_reversed hc hc']

/-- Half of an ellipse that is turned by a right angle. -/
noncomputable def halfEllipse : CurveParams where
  kind := .ellipse
  center := ⟨1, 0⟩
  startAngleDeg := 0
  sweepDeg := -180
  semiMajorMm := some 5
  semiMinorMm := some 2
  rotationDeg := 90
  sweep_ne := by norm_num
  sweep_le := by norm_num
  shape := .elliptic 5 2 rfl rfl (by norm_num) (by norm_num) rfl

theorem halfEllipse_chords_and_semicircle :
    (∃ points, linearizeCurve halfEllipse 1 = .ok points ∧ points.head? = some halfEllipse.startPoint ∧
      points.getLast? = some halfEllipse.endPoint ∧
      ∀ p ∈ halfEllipse.points, ∃ z ∈ pathPoints (chords points), dist p.toComplex z ≤ 1) ∧
      ∃ c c', normalizeBulge ⟨0, 0⟩ ⟨2, 0⟩ 1 = .ok c ∧ normalizeBulge ⟨2, 0⟩ ⟨0, 0⟩ (-1) = .ok c' ∧
        c.startPoint = ⟨0, 0⟩ ∧ c.endPoint = ⟨2, 0⟩ ∧
        ∀ t ∈ Icc (0 : ℝ) 1, c'.pointAtFraction t = c.pointAtFraction (1 - t) := by
  constructor
  · exact chords_within_and_bulges_reversible.1 halfEllipse 1 one_pos
  · apply chords_within_and_bulges_reversible.2 ⟨0, 0⟩ ⟨2, 0⟩ 1
    · simp
    · norm_num

/-- A bulge of almost nothing is taken for straight. -/
theorem normalizeBulge_tiny : (1e-16 : ℝ) ≠ 0 ∧ normalizeBulge ⟨0, 0⟩ ⟨2, 0⟩ 1e-16 =
    .error (invalidGeometry "A bulge needs distinct endpoints and a non-zero factor") := by
  refine ⟨by norm_num, if_pos (.inr ?_)⟩
  rw [IsClose, sub_zero, abs_of_pos (by norm_num)]
  norm_num

end CadHarness.Geometry
