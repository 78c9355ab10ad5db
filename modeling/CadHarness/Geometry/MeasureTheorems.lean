import CadHarness.Geometry.CrossingTheorems
import CadHarness.Geometry.Extents
import CadHarness.Geometry.FilletTheorems
import CadHarness.Geometry.Measure
import CadHarness.Lib.Fallible
import CadHarness.Lib.PlaneDistance
import Mathlib.Analysis.Complex.Norm
import Mathlib.Analysis.Convex.Jensen
import Mathlib.Analysis.Normed.Module.Connected
import Mathlib.LinearAlgebra.Complex.FiniteDimensional

/-!
# Distances between boundaries

The distance of two entities is that of their boundaries, but a circle counts as the disc inside it, and segments that are
nearly parallel do not cross.
-/

namespace CadHarness.Geometry
open CadHarness.Lib Metric

/-! ## Segments and paths -/

/-- The points of a segment in the complex plane. -/
def segmentPoints (s : Point2D × Point2D) : Set ℂ := segment ℝ s.1.toComplex s.2.toComplex

/-- The points of several segments. -/
def pathPoints (segments : List (Point2D × Point2D)) : Set ℂ := {z | ∃ s ∈ segments, z ∈ segmentPoints s}

variable {s a b : Point2D × Point2D} {p : Point2D} {segments others : List (Point2D × Point2D)}

theorem start_mem_segmentPoints : s.1.toComplex ∈ segmentPoints s := left_mem_segment ℝ _ _

theorem end_mem_segmentPoints : s.2.toComplex ∈ segmentPoints s := right_mem_segment ℝ _ _

theorem segmentPoints_nonempty (s : Point2D × Point2D) : (segmentPoints s).Nonempty := ⟨_, start_mem_segmentPoints⟩

theorem mem_segmentPoints : p.toComplex ∈ segmentPoints s ↔ p ∈ edgePoints s := by
  rw [segmentPoints, segment_eq_image', edgePoints]
  constructor
  · rintro ⟨t, ht, heq⟩
    refine ⟨t, ht.1, ht.2, Point2D.toComplex_injective ?_⟩
    rw [← heq]
    apply Complex.ext <;> simp [Point2D.toComplex, mul_comm]
  · rintro ⟨t, h0, h1, rfl⟩
    refine ⟨t, ⟨h0, h1⟩, ?_⟩
    apply Complex.ext <;> simp [Point2D.toComplex, mul_comm]

theorem exists_toComplex (z : ℂ) : ∃ p : Point2D, p.toComplex = z := ⟨⟨z.re, z.im⟩, rfl⟩

theorem disjoint_segmentPoints :
    Disjoint (segmentPoints a) (segmentPoints b) ↔ ¬ (edgePoints a ∩ edgePoints b).Nonempty := by
  rw [Set.disjoint_left]
  constructor
  · rintro h ⟨p, ha, hb⟩
    exact h (mem_segmentPoints.mpr ha) (mem_segmentPoints.mpr hb)
  · intro h z ha hb
    obtain ⟨p, rfl⟩ := exists_toComplex z
    exact h ⟨p, mem_segmentPoints.mp ha, mem_segmentPoints.mp hb⟩

theorem pointToSegmentDistance_eq (p : Point2D) (s : Point2D × Point2D) :
    pointToSegmentDistance p s.1 s.2 = infDist p.toComplex (segmentPoints s) := by
  have hfoot (t : ℝ) : s.1.toComplex + t • (s.2.toComplex - s.1.toComplex) =
      (⟨s.1.x + (s.2.x - s.1.x) * t, s.1.y + (s.2.y - s.1.y) * t⟩ : Point2D).toComplex := by
    apply Complex.ext <;> simp [Point2D.toComplex, mul_comm]
  rw [segmentPoints, infDist_segment, hfoot, ← Point2D.distanceTo_eq_dist, pointToSegmentDistance]
  dsimp only
  split
  · rename_i hzero
    have hx : s.2.x - s.1.x = 0 := by
      simp only [Point2D.vectorTo] at hzero
      nlinarith [sq_nonneg (s.2.x - s.1.x), sq_nonneg (s.2.y - s.1.y)]
    have hy : s.2.y - s.1.y = 0 := by
      simp only [Point2D.vectorTo] at hzero
      nlinarith [sq_nonneg (s.2.x - s.1.x), sq_nonneg (s.2.y - s.1.y)]
    rw [hx, hy, zero_mul, add_zero, add_zero]
  · rfl

/-- The distances to the segments have the distance to the path as the least one. -/
theorem minimumOf_pointToSegmentDistance (p : Point2D) (hne : segments ≠ []) :
    minimumOf (segments.map fun s => pointToSegmentDistance p s.1 s.2) = infDist p.toComplex (pathPoints segments) := by
  obtain ⟨hmem, hle⟩ := minimumOf_mem (l := segments.map fun s => pointToSegmentDistance p s.1 s.2) (by simpa using hne)
  obtain ⟨s, hs, heq⟩ := List.mem_map.mp hmem
  apply le_antisymm
  · rw [le_infDist (s := pathPoints segments) ⟨_, s, hs, start_mem_segmentPoints⟩]
    rintro z ⟨s', hs', hz⟩
    calc minimumOf (segments.map fun s => pointToSegmentDistance p s.1 s.2)
        ≤ pointToSegmentDistance p s'.1 s'.2 := hle _ (List.mem_map_of_mem hs')
      _ = infDist p.toComplex (segmentPoints s') := pointToSegmentDistance_eq p s'
      _ ≤ dist p.toComplex z := infDist_le_dist_of_mem hz
  · rw [← heq, pointToSegmentDistance_eq]
    apply infDist_le_infDist_of_subset _ (segmentPoints_nonempty s)
    intro z hz
    exact ⟨s, hs, hz⟩

/-- Each segment begins where the one before it ends. -/
def Joined (segments : List (Point2D × Point2D)) : Prop := segments.IsChain fun s next => s.2 = next.1

theorem isPreconnected_pathPoints (h : Joined segments) : IsPreconnected (pathPoints segments) := by
  induction segments with
  | nil => simp [pathPoints, isPreconnected_empty]
  | cons s rest ih =>
      have hunion : pathPoints (s :: rest) = segmentPoints s ∪ pathPoints rest := by
        ext z
        simp [pathPoints]
      rw [hunion]
      cases rest with
      | nil =>
          have hempty : pathPoints [] = ∅ := by simp [pathPoints]
          rw [hempty, Set.union_empty]
          exact (convex_segment _ _).isPreconnected
      | cons next rest =>
          rw [Joined, List.isChain_cons_cons] at h
          have hend : s.2.toComplex ∈ pathPoints (next :: rest) :=
            ⟨next, List.mem_cons_self, h.1 ▸ start_mem_segmentPoints⟩
          exact (convex_segment _ _).isPreconnected.union _ end_mem_segmentPoints hend (ih h.2)

theorem joined_zip (points : List Point2D) : Joined (points.zip points.tail) := by
  induction points with
  | nil => exact .nil
  | cons p points ih =>
      cases points with
      | nil => exact .nil
      | cons q points =>
          cases points with
          | nil => exact .singleton _
          | cons r points => exact .cons_cons rfl ih

theorem Polyline2D.joined (polyline : Polyline2D) : Joined polyline.segments := by
  rw [Polyline2D.segments]
  cases polyline.vertices with
  | nil => exact .nil
  | cons first rest =>
      cases hclosed : polyline.closed with
      | false => exact joined_zip (first :: rest)
      | true =>
          have hlength : (first :: rest).length = (rest ++ [first]).length := by simp
          have hzip := @List.zip_append _ _ _ [first] _ [] hlength
          rw [List.append_nil, List.zip_nil_right, List.append_nil] at hzip
          show Joined ((first :: rest).zip (rest ++ [first]))
          rw [← hzip]
          exact joined_zip (first :: rest ++ [first])

theorem chordSegmentCount_pos {c : CurveParams} {chordTolerance : ℝ} {count : Nat}
    (h : chordSegmentCount c chordTolerance = .ok count) : 0 < count := by
  unfold chordSegmentCount at h
  split at h
  · cases h
  · obtain rfl := Except.ok.inj h
    exact lt_max_of_lt_left one_pos

theorem linearizeCurve_ok {c : CurveParams} {chordTolerance : ℝ} {points : List Point2D}
    (h : linearizeCurve c chordTolerance = .ok points) : ∃ count, chordSegmentCount c chordTolerance = .ok count ∧
      points = (List.range (count + 1)).map fun i : ℕ => c.pointAt ((i : ℝ) / count) := by
  obtain ⟨count, hcount, h⟩ := bind_ok h
  obtain rfl := Except.ok.inj h
  refine ⟨count, hcount, ?_⟩
  simp only [bind_pure_comp, List.map_eq_map, List.map_map, Function.comp_def]

theorem ne_nil_of_linearizeCurve {c : CurveParams} {chordTolerance : ℝ} {points : List Point2D}
    (h : linearizeCurve c chordTolerance = .ok points) : points.zip points.tail ≠ [] := by
  obtain ⟨count, hcount, rfl⟩ := linearizeCurve_ok h
  have hpos := chordSegmentCount_pos hcount
  refine List.ne_nil_of_length_pos ?_
  rw [List.length_zip, List.length_tail, List.length_map, List.length_range]
  omega

/-- What is measured of an entity is a path. -/
theorem MeasurableEntity.segments_ok {tolerance : ToleranceProfile} {entity : MeasurableEntity}
    (h : entity.segments tolerance = .ok segments) : segments ≠ [] ∧ Joined segments := by
  cases entity with
  | circle circle => cases h
  | polyline polyline =>
      obtain rfl := Except.ok.inj h
      exact ⟨polyline.segments_ne_nil, polyline.joined⟩
  | line edge =>
      obtain rfl := Except.ok.inj h
      exact ⟨List.cons_ne_nil _ _, .singleton _⟩
  | curve c =>
      obtain ⟨points, hpoints, h⟩ := bind_ok h
      obtain rfl := Except.ok.inj h
      exact ⟨ne_nil_of_linearizeCurve hpoints, joined_zip points⟩
  | contour contour =>
      obtain ⟨points, hpoints, h⟩ := bind_ok h
      obtain ⟨polyline, hpolyline, h⟩ := bind_ok h
      obtain rfl := Except.ok.inj h
      exact ⟨polyline.segments_ne_nil, polyline.joined⟩

theorem leastOf_eq {l : List ℝ} (h : l ≠ []) : leastOf l = .ok (minimumOf l) := by
  cases l with
  | nil => exact absurd rfl h
  | cons => rfl

/-! ## The distance of two segments -/

variable {tolerance : ToleranceProfile}

/-- An end of one of two segments is within the tolerance of the other. -/
def EndNear (tolerance : ToleranceProfile) (a b : Point2D × Point2D) : Prop :=
  ∃ v ∈ [pointToSegmentDistance a.1 b.1 b.2, pointToSegmentDistance a.2 b.1 b.2, pointToSegmentDistance b.1 a.1 a.2,
    pointToSegmentDistance b.2 a.1 a.2], tolerance.IsZeroLength v

/-- What the kernel takes for a contact of two segments. -/
def Touching (tolerance : ToleranceProfile) (a b : Point2D × Point2D) : Prop :=
  (¬ Parallel a b ∧ (edgePoints a ∩ edgePoints b).Nonempty) ∨ EndNear tolerance a b

theorem snap_le_iff {v : ℝ} (h : 0 ≤ tolerance.absoluteLengthMm) :
    tolerance.snap v ≤ tolerance.absoluteLengthMm ↔ v ≤ tolerance.absoluteLengthMm := by
  unfold ToleranceProfile.snap
  split
  · rename_i hzero
    exact iff_of_true h hzero
  · rfl

theorem snap_nonneg {v : ℝ} (h : 0 ≤ tolerance.absoluteLengthMm) : 0 ≤ tolerance.snap v := by
  unfold ToleranceProfile.snap
  split
  · rfl
  · rename_i hlong
    exact h.trans (not_le.mp hlong).le

/-- A snapped length is off by at most the tolerance. -/
theorem abs_snap_sub_le {v : ℝ} (h : 0 ≤ tolerance.absoluteLengthMm) (hv : 0 ≤ v) :
    |tolerance.snap v - v| ≤ tolerance.absoluteLengthMm := by
  unfold ToleranceProfile.snap
  split
  · rename_i hzero
    rwa [zero_sub, abs_neg, abs_of_nonneg hv]
  · rwa [sub_self, abs_zero]

theorem segmentDistance_nonneg (h : 0 ≤ tolerance.absoluteLengthMm) (a b : Point2D × Point2D) :
    0 ≤ segmentDistance a b tolerance := by
  unfold segmentDistance
  split
  · rfl
  · exact snap_nonneg h

theorem segmentDistance_comm (a b : Point2D × Point2D) : segmentDistance a b tolerance = segmentDistance b a tolerance := by
  have hcross : (segmentIntersection a.1 a.2 b.1 b.2).isSome = (segmentIntersection b.1 b.2 a.1 a.2).isSome := by
    rw [Bool.eq_iff_iff, segmentIntersection_isSome_iff, segmentIntersection_isSome_iff, Set.inter_comm, Parallel, Parallel]
    have hswap : (direction b).cross (direction a) = -(direction a).cross (direction b) := by
      simp only [Vector2D.cross]
      ring
    rw [hswap, abs_neg]
  unfold segmentDistance
  rw [hcross]
  congr 2
  simp only [minimumOf, List.foldl]
  rw [min_assoc, min_comm, ← min_assoc]

theorem segmentDistance_le_iff (h : 0 ≤ tolerance.absoluteLengthMm) :
    segmentDistance a b tolerance ≤ tolerance.absoluteLengthMm ↔ Touching tolerance a b := by
  unfold segmentDistance
  split
  · rename_i hcross
    exact iff_of_true h (.inl (segmentIntersection_isSome_iff.mp hcross))
  · rename_i hcross
    rw [snap_le_iff h, Touching, ← segmentIntersection_isSome_iff, or_iff_right hcross]
    simp [EndNear, minimumOf, ToleranceProfile.IsZeroLength, or_assoc]

theorem setDist_le_of_touching (h : Touching tolerance a b) (hpos : 0 ≤ tolerance.absoluteLengthMm) :
    setDist (segmentPoints a) (segmentPoints b) ≤ tolerance.absoluteLengthMm := by
  rcases h with ⟨-, p, ha, hb⟩ | ⟨v, hv, hzero⟩
  · rw [setDist_of_meets (mem_segmentPoints.mpr ha) (mem_segmentPoints.mpr hb)]
    exact hpos
  · refine le_trans ?_ hzero
    simp only [List.mem_cons, List.not_mem_nil, or_false] at hv
    rcases hv with rfl | rfl | rfl | rfl
    · rw [pointToSegmentDistance_eq]
      exact setDist_le_infDist start_mem_segmentPoints (segmentPoints_nonempty b)
    · rw [pointToSegmentDistance_eq]
      exact setDist_le_infDist end_mem_segmentPoints (segmentPoints_nonempty b)
    · rw [pointToSegmentDistance_eq, setDist_comm]
      exact setDist_le_infDist start_mem_segmentPoints (segmentPoints_nonempty a)
    · rw [pointToSegmentDistance_eq, setDist_comm]
      exact setDist_le_infDist end_mem_segmentPoints (segmentPoints_nonempty a)

/-- Segments without contact are measured exactly. -/
theorem segmentDistance_eq (hdisjoint : ¬ (edgePoints a ∩ edgePoints b).Nonempty) (h : ¬ Touching tolerance a b) :
    segmentDistance a b tolerance = setDist (segmentPoints a) (segmentPoints b) := by
  have hcross : ¬ (segmentIntersection a.1 a.2 b.1 b.2).isSome = true := fun hcross =>
    hdisjoint (segmentIntersection_isSome_iff.mp hcross).2
  have hfar : ¬ tolerance.IsZeroLength (minimumOf
      [pointToSegmentDistance a.1 b.1 b.2, pointToSegmentDistance a.2 b.1 b.2, pointToSegmentDistance b.1 a.1 a.2,
        pointToSegmentDistance b.2 a.1 a.2]) := fun hzero => h (.inr ⟨_, (minimumOf_mem (List.cons_ne_nil _ _)).1, hzero⟩)
  rw [segmentDistance, if_neg hcross, ToleranceProfile.snap, if_neg hfar]
  simp only [pointToSegmentDistance_eq, minimumOf, List.foldl]
  rw [segmentPoints, segmentPoints, setDist_segment_of_disjoint (disjoint_segmentPoints.mpr hdisjoint), min_assoc]

/-! ## The distance of two paths -/

/-- Two of the segments have a common point. -/
def Meeting (segments others : List (Point2D × Point2D)) : Prop :=
  ∃ a ∈ segments, ∃ b ∈ others, (edgePoints a ∩ edgePoints b).Nonempty

/-- The distances of the segments of two paths, as the source takes them. -/
noncomputable def pairDistances (segments others : List (Point2D × Point2D)) (tolerance : ToleranceProfile) : List ℝ :=
  segments.flatMap fun a => others.map fun b => segmentDistance a b tolerance

theorem mem_pairDistances {v : ℝ} :
    v ∈ pairDistances segments others tolerance ↔ ∃ a ∈ segments, ∃ b ∈ others, segmentDistance a b tolerance = v := by
  simp [pairDistances]

theorem pairDistances_ne_nil (h : segments ≠ []) (h' : others ≠ []) : pairDistances segments others tolerance ≠ [] := by
  obtain ⟨a, ha⟩ := List.exists_mem_of_ne_nil _ h
  obtain ⟨b, hb⟩ := List.exists_mem_of_ne_nil _ h'
  exact List.ne_nil_of_mem (mem_pairDistances.mpr ⟨a, ha, b, hb, rfl⟩)

theorem minimumOf_pairDistances_comm (h : segments ≠ []) (h' : others ≠ []) :
    minimumOf (pairDistances segments others tolerance) = minimumOf (pairDistances others segments tolerance) := by
  obtain ⟨hmem, hle⟩ := minimumOf_mem (@pairDistances_ne_nil _ _ tolerance h h')
  obtain ⟨hmem', hle'⟩ := minimumOf_mem (@pairDistances_ne_nil _ _ tolerance h' h)
  obtain ⟨a, ha, b, hb, heq⟩ := mem_pairDistances.mp hmem
  obtain ⟨b', hb', a', ha', heq'⟩ := mem_pairDistances.mp hmem'
  apply le_antisymm
  · exact hle _ (mem_pairDistances.mpr ⟨a', ha', b', hb', segmentDistance_comm a' b' ▸ heq'⟩)
  · exact hle' _ (mem_pairDistances.mpr ⟨b, hb, a, ha, segmentDistance_comm b a ▸ heq⟩)

theorem pathPoints_nonempty (h : segments ≠ []) : (pathPoints segments).Nonempty := by
  obtain ⟨s, hs⟩ := List.exists_mem_of_ne_nil _ h
  exact ⟨_, s, hs, start_mem_segmentPoints⟩

theorem segmentPoints_subset (h : s ∈ segments) : segmentPoints s ⊆ pathPoints segments := fun _ hz => ⟨s, h, hz⟩

/-- Paths are measured up to the tolerance unless a contact is missed. -/
theorem abs_pairDistances_sub_le_iff (h : segments ≠ []) (h' : others ≠ []) :
    |minimumOf (pairDistances segments others tolerance) - setDist (pathPoints segments) (pathPoints others)| ≤
        tolerance.absoluteLengthMm ↔
      0 ≤ tolerance.absoluteLengthMm ∧
        (Meeting segments others → ∃ a ∈ segments, ∃ b ∈ others, Touching tolerance a b) := by
  obtain ⟨hmem, hle⟩ := minimumOf_mem (@pairDistances_ne_nil _ _ tolerance h h')
  obtain ⟨a, ha, b, hb, heq⟩ := mem_pairDistances.mp hmem
  have hpath {a b : Point2D × Point2D} (ha : a ∈ segments) (hb : b ∈ others) :
      setDist (pathPoints segments) (pathPoints others) ≤ setDist (segmentPoints a) (segmentPoints b) :=
    setDist_anti (segmentPoints_subset ha) (segmentPoints_subset hb) (segmentPoints_nonempty a) (segmentPoints_nonempty b)
  have hnonneg := setDist_nonneg (pathPoints_nonempty h) (pathPoints_nonempty h')
  constructor
  · intro hclose
    have hpos := (abs_nonneg _).trans hclose
    refine ⟨hpos, ?_⟩
    rintro ⟨a', ha', b', hb', p, hp, hp'⟩
    have hzero : setDist (pathPoints segments) (pathPoints others) = 0 :=
      setDist_of_meets (segmentPoints_subset ha' (mem_segmentPoints.mpr hp))
        (segmentPoints_subset hb' (mem_segmentPoints.mpr hp'))
    rw [hzero, sub_zero, ← heq] at hclose
    exact ⟨a, ha, b, hb, (segmentDistance_le_iff hpos).mp ((le_abs_self _).trans hclose)⟩
  · rintro ⟨hpos, hseen⟩
    by_cases htouching : ∃ a ∈ segments, ∃ b ∈ others, Touching tolerance a b
    · obtain ⟨a', ha', b', hb', htouching⟩ := htouching
      have hsmall := (hle _ (mem_pairDistances.mpr ⟨a', ha', b', hb', rfl⟩)).trans ((segmentDistance_le_iff hpos).mpr htouching)
      have hnear := (hpath ha' hb').trans (setDist_le_of_touching htouching hpos)
      have hleast := segmentDistance_nonneg hpos a b
      rw [abs_sub_le_iff]
      constructor
      · linarith
      · linarith
    · have hapart {a b : Point2D × Point2D} (ha : a ∈ segments) (hb : b ∈ others) :
          segmentDistance a b tolerance = setDist (segmentPoints a) (segmentPoints b) :=
        segmentDistance_eq (fun hmeet => htouching (hseen ⟨a, ha, b, hb, hmeet⟩)) fun h => htouching ⟨a, ha, b, hb, h⟩
      have hexact : minimumOf (pairDistances segments others tolerance) = setDist (pathPoints segments) (pathPoints others) := by
        apply le_antisymm
        · apply le_setDist (pathPoints_nonempty h) (pathPoints_nonempty h')
          rintro x ⟨a', ha', hx⟩ y ⟨b', hb', hy⟩
          refine (hle _ (mem_pairDistances.mpr ⟨a', ha', b', hb', rfl⟩)).trans ?_
          rw [hapart ha' hb']
          exact setDist_le hx hy
        · rw [← heq, hapart ha hb]
          exact hpath ha hb
      rwa [hexact, sub_self, abs_zero]

/-- Parallel segments that meet have an end within a thousandth of a micrometre of the other one. -/
theorem endNear_of_parallel (hparallel : Parallel a b) (hmeet : (edgePoints a ∩ edgePoints b).Nonempty) :
    ∃ v ∈ [pointToSegmentDistance a.1 b.1 b.2, pointToSegmentDistance a.2 b.1 b.2, pointToSegmentDistance b.1 a.1 a.2,
      pointToSegmentDistance b.2 a.1 a.2], v ≤ 1e-6 := by
  obtain ⟨p, ha, hb⟩ := hmeet
  have hsmall : |(a.2.toComplex - a.1.toComplex).im * (b.2.toComplex - b.1.toComplex).re -
      (a.2.toComplex - a.1.toComplex).re * (b.2.toComplex - b.1.toComplex).im| ≤ (1e-6 : ℝ) * 1e-6 := by
    have hcross : (a.2.toComplex - a.1.toComplex).im * (b.2.toComplex - b.1.toComplex).re -
        (a.2.toComplex - a.1.toComplex).re * (b.2.toComplex - b.1.toComplex).im = -(direction a).cross (direction b) := by
      simp only [Vector2D.cross, direction, Point2D.vectorTo, Point2D.toComplex, Complex.sub_re, Complex.sub_im]
      ring
    rw [hcross, abs_neg]
    refine hparallel.le.trans ?_
    norm_num
  obtain ⟨x, hx, y, hy, hend, hdist⟩ := exists_end_near (by norm_num : (0 : ℝ) < 1e-6) (mem_segmentPoints.mpr ha)
    (mem_segmentPoints.mpr hb) hsmall
  simp only [pointToSegmentDistance_eq]
  rcases hend with rfl | rfl | rfl | rfl
  · exact ⟨infDist a.1.toComplex (segmentPoints b), by simp, (infDist_le_dist_of_mem hy).trans hdist⟩
  · exact ⟨infDist a.2.toComplex (segmentPoints b), by simp, (infDist_le_dist_of_mem hy).trans hdist⟩
  · exact ⟨infDist b.1.toComplex (segmentPoints a), by simp, (infDist_le_dist_of_mem hx).trans (dist_comm x _ ▸ hdist)⟩
  · exact ⟨infDist b.2.toComplex (segmentPoints a), by simp, (infDist_le_dist_of_mem hx).trans (dist_comm x _ ▸ hdist)⟩

/-- A snapped length is off by at most the tolerance, whatever its sign. -/
theorem abs_snap_sub_max_le (v : ℝ) : |tolerance.snap v - max 0 v| ≤ |tolerance.absoluteLengthMm| := by
  unfold ToleranceProfile.snap
  split
  · rename_i hzero
    rw [zero_sub, abs_neg, abs_of_nonneg (le_max_left 0 v)]
    exact max_le (abs_nonneg _) (hzero.trans (le_abs_self _))
  · rename_i hlong
    rcases le_total 0 v with hpos | hneg
    · rw [max_eq_right hpos, sub_self, abs_zero]
      exact abs_nonneg _
    · rw [max_eq_left hneg, sub_zero]
      have hless := not_le.mp hlong
      rw [abs_of_nonpos hneg, abs_of_nonpos (hless.le.trans hneg)]
      linarith

theorem abs_segmentDistance_sub_le (a b : Point2D × Point2D) :
    |segmentDistance a b tolerance - setDist (segmentPoints a) (segmentPoints b)| ≤
      max |tolerance.absoluteLengthMm| 1e-6 := by
  have hnonneg := setDist_nonneg (segmentPoints_nonempty a) (segmentPoints_nonempty b)
  unfold segmentDistance
  split
  · rename_i hcross
    obtain ⟨-, p, ha, hb⟩ := segmentIntersection_isSome_iff.mp hcross
    rw [setDist_of_meets (mem_segmentPoints.mpr ha) (mem_segmentPoints.mpr hb), sub_zero, abs_zero]
    exact le_max_of_le_left (abs_nonneg _)
  · rename_i hcross
    by_cases hmeet : (edgePoints a ∩ edgePoints b).Nonempty
    · have hparallel : Parallel a b := by
        by_contra hparallel
        exact hcross (segmentIntersection_isSome_iff.mpr ⟨hparallel, hmeet⟩)
      obtain ⟨v, hv, hsmall⟩ := endNear_of_parallel hparallel hmeet
      obtain ⟨hmem, hle⟩ := minimumOf_mem (List.ne_nil_of_mem hv)
      obtain ⟨p, ha, hb⟩ := hmeet
      rw [setDist_of_meets (mem_segmentPoints.mpr ha) (mem_segmentPoints.mpr hb), sub_zero]
      refine le_max_of_le_right (le_trans ?_ ((hle v hv).trans hsmall))
      have hleast : 0 ≤ minimumOf [pointToSegmentDistance a.1 b.1 b.2, pointToSegmentDistance a.2 b.1 b.2,
          pointToSegmentDistance b.1 a.1 a.2, pointToSegmentDistance b.2 a.1 a.2] := by
        simp only [pointToSegmentDistance_eq] at hmem ⊢
        simp only [List.mem_cons, List.not_mem_nil, or_false] at hmem
        rcases hmem with h | h | h | h <;> rw [h] <;> exact infDist_nonneg
      unfold ToleranceProfile.snap
      split
      · rwa [abs_zero]
      · rw [abs_of_nonneg hleast]
    · have hends : minimumOf [pointToSegmentDistance a.1 b.1 b.2, pointToSegmentDistance a.2 b.1 b.2,
          pointToSegmentDistance b.1 a.1 a.2, pointToSegmentDistance b.2 a.1 a.2] =
          setDist (segmentPoints a) (segmentPoints b) := by
        simp only [pointToSegmentDistance_eq, minimumOf, List.foldl]
        rw [segmentPoints, segmentPoints, setDist_segment_of_disjoint (disjoint_segmentPoints.mpr hmeet), min_assoc]
      have hsnap := @abs_snap_sub_max_le tolerance (setDist (segmentPoints a) (segmentPoints b))
      rw [max_eq_right hnonneg] at hsnap
      rw [hends]
      exact le_max_of_le_left hsnap

/-- Paths are measured up to the tolerance, or the length below which segments count as parallel. -/
theorem abs_pairDistances_sub_le (h : segments ≠ []) (h' : others ≠ []) :
    |minimumOf (pairDistances segments others tolerance) - setDist (pathPoints segments) (pathPoints others)| ≤
      max |tolerance.absoluteLengthMm| 1e-6 := by
  obtain ⟨hmem, hle⟩ := minimumOf_mem (@pairDistances_ne_nil _ _ tolerance h h')
  obtain ⟨a, ha, b, hb, heq⟩ := mem_pairDistances.mp hmem
  rw [abs_sub_le_iff]
  constructor
  · rw [sub_le_iff_le_add, ← sub_le_iff_le_add']
    apply le_setDist (pathPoints_nonempty h) (pathPoints_nonempty h')
    rintro x ⟨a', ha', hx⟩ y ⟨b', hb', hy⟩
    have hleast := hle _ (mem_pairDistances.mpr ⟨a', ha', b', hb', rfl⟩)
    have hclose := (abs_sub_le_iff.mp (@abs_segmentDistance_sub_le tolerance a' b')).1
    linarith [setDist_le hx hy]
  · have hclose := (abs_sub_le_iff.mp (@abs_segmentDistance_sub_le tolerance a b)).2
    have hpath := setDist_anti (segmentPoints_subset ha) (segmentPoints_subset hb) (segmentPoints_nonempty a)
      (segmentPoints_nonempty b)
    linarith

/-! ## Circles -/

theorem Circle2D.radiusMm_pos (circle : Circle2D) : 0 < circle.radiusMm := half_pos circle.diameter_pos

/-- The points of a circle in the complex plane. -/
def Circle2D.boundary (circle : Circle2D) : Set ℂ := sphere circle.center.toComplex circle.radiusMm

theorem Circle2D.boundary_nonempty (circle : Circle2D) : circle.boundary.Nonempty := by
  obtain ⟨p, hp, -⟩ := exists_mem_sphere circle.center.toComplex 0 circle.radiusMm_pos.le
  exact ⟨p, hp⟩

/-- An end of a segment is outside a circle, or inside it by at most the tolerance. -/
def ReachesOut (tolerance : ToleranceProfile) (circle : Circle2D) (segments : List (Point2D × Point2D)) : Prop :=
  ∃ s ∈ segments, ∃ v ∈ [s.1, s.2], circle.radiusMm - tolerance.absoluteLengthMm ≤ v.distanceTo circle.center

/-- No point of a path is farther from a point than an end of a segment. -/
theorem exists_farthest (c : ℂ) (h : segments ≠ []) : ∃ s ∈ segments, ∃ v ∈ [s.1, s.2], v.toComplex ∈ pathPoints segments ∧
    ∀ z ∈ pathPoints segments, dist z c ≤ dist v.toComplex c := by
  have hends : (segments.flatMap fun s => [s.1, s.2]) ≠ [] := by
    obtain ⟨s, hs⟩ := List.exists_mem_of_ne_nil _ h
    exact List.ne_nil_of_mem (List.mem_flatMap.mpr ⟨s, hs, List.mem_cons_self⟩)
  obtain ⟨hmem, hle⟩ := maximumOf_mem (l := (segments.flatMap fun s => [s.1, s.2]).map fun v => dist v.toComplex c)
    (by simpa using hends)
  obtain ⟨v, hv, heq⟩ := List.mem_map.mp hmem
  obtain ⟨s, hs, hv⟩ := List.mem_flatMap.mp hv
  have hend : v.toComplex ∈ segmentPoints s := by
    simp only [List.mem_cons, List.not_mem_nil, or_false] at hv
    rcases hv with rfl | rfl
    · exact start_mem_segmentPoints
    · exact end_mem_segmentPoints
  refine ⟨s, hs, v, hv, segmentPoints_subset hs hend, ?_⟩
  rintro z ⟨s', hs', hz⟩
  have hbound (w : Point2D) (hw : w ∈ [s'.1, s'.2]) : dist w.toComplex c ≤ dist v.toComplex c :=
    heq ▸ hle _ (List.mem_map_of_mem (List.mem_flatMap.mpr ⟨s', hs', hw⟩))
  refine ((convexOn_dist c convex_univ).le_max_of_mem_segment trivial trivial hz).trans (max_le ?_ ?_)
  · exact hbound s'.1 (by simp)
  · exact hbound s'.2 (by simp)

/-- A circle and a path are measured up to the tolerance unless the path is in the disc. -/
theorem abs_snap_sub_le_iff (circle : Circle2D) (hne : segments ≠ []) (hjoined : Joined segments) :
    |tolerance.snap (infDist circle.center.toComplex (pathPoints segments) - circle.radiusMm) -
        setDist circle.boundary (pathPoints segments)| ≤ tolerance.absoluteLengthMm ↔
      0 ≤ tolerance.absoluteLengthMm ∧ ReachesOut tolerance circle segments := by
  have hr := circle.radiusMm_pos.le
  obtain ⟨s, hs, v, hv, hmem, hmax⟩ := exists_farthest circle.center.toComplex hne
  have hreaches : ReachesOut tolerance circle segments ↔
      circle.radiusMm - tolerance.absoluteLengthMm ≤ dist v.toComplex circle.center.toComplex := by
    constructor
    · rintro ⟨s', hs', w, hw, hout⟩
      rw [Point2D.distanceTo_eq_dist] at hout
      refine hout.trans (hmax _ (segmentPoints_subset hs' ?_))
      simp only [List.mem_cons, List.not_mem_nil, or_false] at hw
      rcases hw with rfl | rfl
      · exact start_mem_segmentPoints
      · exact end_mem_segmentPoints
    · intro hout
      exact ⟨s, hs, v, hv, by rwa [Point2D.distanceTo_eq_dist]⟩
  rw [hreaches]
  by_cases hpos : 0 ≤ tolerance.absoluteLengthMm
  · rw [and_iff_right hpos]
    by_cases houtside : ∀ z ∈ pathPoints segments, circle.radiusMm ≤ dist z circle.center.toComplex
    · have hdist := setDist_sphere_of_outside hr ⟨_, hmem⟩ houtside
      have hnonneg := setDist_nonneg circle.boundary_nonempty ⟨_, hmem⟩
      rw [Circle2D.boundary, hdist] at hnonneg ⊢
      exact iff_of_true (abs_snap_sub_le hpos hnonneg) (by linarith [houtside _ hmem])
    · push Not at houtside
      obtain ⟨z, hz, hinside⟩ := houtside
      have hsnap : tolerance.snap (infDist circle.center.toComplex (pathPoints segments) - circle.radiusMm) = 0 := by
        have hnear := infDist_le_dist_of_mem (x := circle.center.toComplex) hz
        rw [dist_comm] at hnear
        exact if_pos (by unfold ToleranceProfile.IsZeroLength; linarith)
      rw [hsnap, zero_sub, abs_neg]
      rcases le_total circle.radiusMm (dist v.toComplex circle.center.toComplex) with hout | hin
      · rw [Circle2D.boundary, setDist_sphere_of_crossing (isPreconnected_pathPoints hjoined) hz hmem hinside.le hout, abs_zero]
        exact iff_of_true hpos (by linarith)
      · rw [Circle2D.boundary, setDist_sphere_of_inside hr hmem hmax hin, abs_of_nonneg (sub_nonneg.mpr hin), sub_le_comm]
  · exact iff_of_false (fun h => hpos ((abs_nonneg _).trans h)) fun h => hpos h.1

/-- Two circles are measured up to the tolerance unless one is in the disc of the other. -/
theorem abs_snap_circles_sub_le_iff (first second : Circle2D) :
    |tolerance.snap (first.center.distanceTo second.center - first.radiusMm - second.radiusMm) -
        setDist first.boundary second.boundary| ≤ tolerance.absoluteLengthMm ↔
      0 ≤ tolerance.absoluteLengthMm ∧
        |first.radiusMm - second.radiusMm| ≤ first.center.distanceTo second.center + tolerance.absoluteLengthMm := by
  have hr := first.radiusMm_pos.le
  have hr' := second.radiusMm_pos.le
  have hcenters := dist_nonneg (x := first.center.toComplex) (y := second.center.toComplex)
  obtain ⟨near, hnear, hnearest⟩ := exists_mem_sphere second.center.toComplex first.center.toComplex hr'
  obtain ⟨far, hfar, hfarthest⟩ := exists_farthest_mem_sphere second.center.toComplex first.center.toComplex hr'
  have hbounds (z : ℂ) (hz : z ∈ second.boundary) :
      |dist first.center.toComplex second.center.toComplex - second.radiusMm| ≤ dist z first.center.toComplex ∧
        dist z first.center.toComplex ≤ dist far first.center.toComplex := by
    have hz' : dist z second.center.toComplex = second.radiusMm := hz
    rw [dist_comm far, hfarthest]
    constructor
    · rw [← hz', dist_comm z first.center.toComplex]
      exact abs_dist_sub_le first.center.toComplex z second.center.toComplex
    · have htriangle := dist_triangle z second.center.toComplex first.center.toComplex
      rw [dist_comm second.center.toComplex] at htriangle
      linarith
  rw [dist_comm] at hnearest hfarthest
  have hzero {v : ℝ} (hpos : 0 ≤ tolerance.absoluteLengthMm) (hv : v ≤ 0) : tolerance.snap v = 0 := if_pos (hv.trans hpos)
  rw [Point2D.distanceTo_eq_dist]
  by_cases hpos : 0 ≤ tolerance.absoluteLengthMm
  · rw [and_iff_right hpos, abs_sub_le_iff (a := first.radiusMm)]
    rcases le_or_gt first.radiusMm |dist first.center.toComplex second.center.toComplex - second.radiusMm| with hout | hin
    · have hdist := setDist_sphere_of_outside hr ⟨_, hnear⟩ fun z hz => hout.trans (hbounds z hz).1
      rw [infDist_sphere _ _ hr'] at hdist
      rw [Circle2D.boundary, Circle2D.boundary, hdist]
      rcases le_total second.radiusMm (dist first.center.toComplex second.center.toComplex) with hapart | hinside
      · rw [abs_of_nonneg (sub_nonneg.mpr hapart)] at hout ⊢
        rw [sub_right_comm]
        exact iff_of_true (abs_snap_sub_le hpos (by linarith)) ⟨by linarith, by linarith⟩
      · rw [abs_of_nonpos (sub_nonpos.mpr hinside)] at hout ⊢
        rw [hzero hpos (by linarith), zero_sub, abs_neg, abs_of_nonneg (by linarith)]
        constructor
        · intro hsmall
          exact ⟨by linarith, by linarith⟩
        · intro hsmall
          linarith [hsmall.2]
    · have hnested := abs_lt.mp hin
      rw [hzero hpos (by linarith), zero_sub, abs_neg]
      rcases le_total first.radiusMm (dist far first.center.toComplex) with hout | hinside
      · have hpreconnected : IsPreconnected second.boundary :=
          isPreconnected_sphere (by rw [Complex.rank_real_complex]; exact Cardinal.one_lt_two) _ _
        rw [hfarthest] at hout
        rw [Circle2D.boundary, setDist_sphere_of_crossing hpreconnected hnear hfar (hnearest ▸ hin.le) (hfarthest ▸ hout),
          abs_zero]
        exact iff_of_true hpos ⟨by linarith, by linarith⟩
      · rw [Circle2D.boundary, Circle2D.boundary, setDist_sphere_of_inside hr hfar (fun z hz => (hbounds z hz).2) hinside,
          abs_of_nonneg (sub_nonneg.mpr hinside), hfarthest]
        rw [hfarthest] at hinside
        constructor
        · intro hsmall
          exact ⟨by linarith, by linarith⟩
        · intro hsmall
          linarith [hsmall.1]
  · exact iff_of_false (fun h => hpos ((abs_nonneg _).trans h)) fun h => hpos h.1

/-! ## Main result -/

/-- The boundary of an entity as it is measured: curves stand for their chords. -/
noncomputable def MeasurableEntity.boundary (tolerance : ToleranceProfile) : MeasurableEntity → Except KernelError (Set ℂ)
  | .circle c => .ok c.boundary
  | entity => pathPoints <$> entity.segments tolerance

/-- The infimum of the distances that points of a set have to an entity. -/
noncomputable def leastPointDistance (S : Set ℂ) (entity : MeasurableEntity) (tolerance : ToleranceProfile) : ℝ :=
  sInf {v | ∃ p : Point2D, p.toComplex ∈ S ∧ pointEntityDistance p entity tolerance = .ok v}

/-- The distance of two entities is the same both ways, and up to the tolerance that of their boundaries. -/
def MeasuresBoundaries (first second : MeasurableEntity) (tolerance : ToleranceProfile) : Prop :=
  ∃ S d, first.boundary tolerance = .ok S ∧ entityEntityDistance first second tolerance = .ok d ∧
    entityEntityDistance second first tolerance = .ok d ∧
    |d - leastPointDistance S second tolerance| ≤ tolerance.absoluteLengthMm

/-- Neither entity is inside a circle that is the other one, and of paths that meet some contact is seen. -/
def Discerned (tolerance : ToleranceProfile) : MeasurableEntity → MeasurableEntity → Prop
  | .circle first, .circle second =>
      |first.radiusMm - second.radiusMm| ≤ first.center.distanceTo second.center + tolerance.absoluteLengthMm
  | .circle circle, entity => ∃ segments, entity.segments tolerance = .ok segments ∧ ReachesOut tolerance circle segments
  | entity, .circle circle => ∃ segments, entity.segments tolerance = .ok segments ∧ ReachesOut tolerance circle segments
  | first, second => ∀ segments others, first.segments tolerance = .ok segments → second.segments tolerance = .ok others →
      Meeting segments others → ∃ a ∈ segments, ∃ b ∈ others, Touching tolerance a b

section

variable {entity first second : MeasurableEntity} {circle : Circle2D} {S T : Set ℂ}

theorem boundary_cases (h : entity.boundary tolerance = .ok S) :
    (∃ circle, entity = .circle circle ∧ S = circle.boundary) ∨
      ∃ segments, entity.segments tolerance = .ok segments ∧ S = pathPoints segments := by
  cases entity with
  | circle circle => exact .inl ⟨circle, rfl, (Except.ok.inj h).symm⟩
  | polyline polyline => exact .inr ⟨_, rfl, (Except.ok.inj h).symm⟩
  | line edge => exact .inr ⟨_, rfl, (Except.ok.inj h).symm⟩
  | curve c =>
      obtain ⟨segments, hsegments, rfl⟩ := Fallible.map_eq_ok.mp h
      exact .inr ⟨segments, hsegments, rfl⟩
  | contour contour =>
      obtain ⟨segments, hsegments, rfl⟩ := Fallible.map_eq_ok.mp h
      exact .inr ⟨segments, hsegments, rfl⟩

theorem pointEntityDistance_path (h : entity.segments tolerance = .ok segments) (p : Point2D) :
    pointEntityDistance p entity tolerance = .ok (infDist p.toComplex (pathPoints segments)) := by
  have hne := (MeasurableEntity.segments_ok h).1
  have hleast : leastOf (segments.map fun s => pointToSegmentDistance p s.1 s.2) =
      .ok (infDist p.toComplex (pathPoints segments)) := by
    rw [leastOf_eq (by simpa using hne), minimumOf_pointToSegmentDistance p hne]
  cases entity with
  | circle => cases h
  | polyline => exact (congrArg (· >>= _) h).trans hleast
  | line => exact (congrArg (· >>= _) h).trans hleast
  | curve => exact (congrArg (· >>= _) h).trans hleast
  | contour => exact (congrArg (· >>= _) h).trans hleast

/-- The distance of a point to an entity is that to its boundary. -/
theorem pointEntityDistance_eq (h : entity.boundary tolerance = .ok S) (p : Point2D) :
    pointEntityDistance p entity tolerance = .ok (infDist p.toComplex S) := by
  rcases boundary_cases h with ⟨circle, rfl, rfl⟩ | ⟨segments, hsegments, rfl⟩
  · rw [Circle2D.boundary, infDist_sphere _ _ circle.radiusMm_pos.le, ← Point2D.distanceTo_eq_dist]
    rfl
  · exact pointEntityDistance_path hsegments p

theorem boundary_nonempty (h : entity.boundary tolerance = .ok S) : S.Nonempty := by
  rcases boundary_cases h with ⟨circle, rfl, rfl⟩ | ⟨segments, hsegments, rfl⟩
  · exact circle.boundary_nonempty
  · exact pathPoints_nonempty (MeasurableEntity.segments_ok hsegments).1

theorem leastPointDistance_eq (hfirst : first.boundary tolerance = .ok S) (hsecond : second.boundary tolerance = .ok T) :
    leastPointDistance S second tolerance = setDist S T := by
  rw [← sInf_infDist (boundary_nonempty hfirst) (boundary_nonempty hsecond), leastPointDistance]
  congr 1
  ext v
  constructor
  · rintro ⟨p, hp, hv⟩
    rw [pointEntityDistance_eq hsecond] at hv
    exact ⟨p.toComplex, hp, Except.ok.inj hv⟩
  · rintro ⟨z, hz, rfl⟩
    obtain ⟨p, rfl⟩ := exists_toComplex z
    exact ⟨p, hz, pointEntityDistance_eq hsecond p⟩

theorem circleEntityDistance_path (h : entity.segments tolerance = .ok segments) :
    circleEntityDistance circle entity tolerance =
      .ok (tolerance.snap (infDist circle.center.toComplex (pathPoints segments) - circle.radiusMm)) := by
  rw [circleEntityDistance, pointEntityDistance_path h]
  rfl

theorem entityEntityDistance_circle (h : entity.segments tolerance = .ok segments) :
    entityEntityDistance (.circle circle) entity tolerance = circleEntityDistance circle entity tolerance ∧
      entityEntityDistance entity (.circle circle) tolerance = circleEntityDistance circle entity tolerance := by
  cases entity with
  | circle => cases h
  | polyline => exact ⟨rfl, rfl⟩
  | line => exact ⟨rfl, rfl⟩
  | curve => exact ⟨rfl, rfl⟩
  | contour => exact ⟨rfl, rfl⟩

theorem discerned_circle (h : entity.segments tolerance = .ok segments) :
    (Discerned tolerance (.circle circle) entity ↔ ReachesOut tolerance circle segments) ∧
      (Discerned tolerance entity (.circle circle) ↔ ReachesOut tolerance circle segments) := by
  have hiff : (∃ segments, entity.segments tolerance = .ok segments ∧ ReachesOut tolerance circle segments) ↔
      ReachesOut tolerance circle segments := by
    constructor
    · rintro ⟨segments', h', hreaches⟩
      obtain rfl := Except.ok.inj (h.symm.trans h')
      exact hreaches
    · intro hreaches
      exact ⟨segments, h, hreaches⟩
  cases entity with
  | circle => cases h
  | polyline => exact ⟨hiff, hiff⟩
  | line => exact ⟨hiff, hiff⟩
  | curve => exact ⟨hiff, hiff⟩
  | contour => exact ⟨hiff, hiff⟩

theorem entityEntityDistance_paths (h : first.segments tolerance = .ok segments)
    (h' : second.segments tolerance = .ok others) :
    entityEntityDistance first second tolerance = .ok (minimumOf (pairDistances segments others tolerance)) := by
  have hleast : (first.segments tolerance >>= fun segments => second.segments tolerance >>= fun others =>
      leastOf (pairDistances segments others tolerance)) = .ok (minimumOf (pairDistances segments others tolerance)) := by
    rw [h, Fallible.ok_bind, h', Fallible.ok_bind]
    exact leastOf_eq (pairDistances_ne_nil (MeasurableEntity.segments_ok h).1 (MeasurableEntity.segments_ok h').1)
  cases first <;> cases second <;> first | exact hleast | cases h <;> done | cases h'

theorem discerned_paths (h : first.segments tolerance = .ok segments) (h' : second.segments tolerance = .ok others) :
    Discerned tolerance first second ↔
      (Meeting segments others → ∃ a ∈ segments, ∃ b ∈ others, Touching tolerance a b) := by
  have hiff : (∀ segments others, first.segments tolerance = .ok segments → second.segments tolerance = .ok others →
      Meeting segments others → ∃ a ∈ segments, ∃ b ∈ others, Touching tolerance a b) ↔
      (Meeting segments others → ∃ a ∈ segments, ∃ b ∈ others, Touching tolerance a b) := by
    constructor
    · intro hall
      exact hall segments others h h'
    · intro hseen segments' others' h₁ h₂
      obtain rfl := Except.ok.inj (h.symm.trans h₁)
      obtain rfl := Except.ok.inj (h'.symm.trans h₂)
      exact hseen
  cases first <;> cases second <;> first | exact hiff | cases h <;> done | cases h'

theorem measuresBoundaries_iff (hfirst : first.boundary tolerance = .ok S) (hsecond : second.boundary tolerance = .ok T)
    {d : ℝ} (h : entityEntityDistance first second tolerance = .ok d)
    (h' : entityEntityDistance second first tolerance = .ok d) :
    MeasuresBoundaries first second tolerance ↔ |d - setDist S T| ≤ tolerance.absoluteLengthMm := by
  rw [← leastPointDistance_eq hfirst hsecond]
  constructor
  · rintro ⟨S', d', hS, hd, -, hclose⟩
    obtain rfl := Except.ok.inj (hfirst.symm.trans hS)
    obtain rfl := Except.ok.inj (h.symm.trans hd)
    exact hclose
  · intro hclose
    exact ⟨S, d, hfirst, h, h', hclose⟩

/-- Two entities are measured by their boundaries just when none is inside a circle and no contact of paths is missed. -/
theorem entityDistance_boundaries_iff (hfirst : first.boundary tolerance = .ok S)
    (hsecond : second.boundary tolerance = .ok T) :
    MeasuresBoundaries first second tolerance ↔ 0 ≤ tolerance.absoluteLengthMm ∧ Discerned tolerance first second := by
  rcases boundary_cases hfirst with ⟨circle, rfl, rfl⟩ | ⟨segments, hsegments, rfl⟩
  · rcases boundary_cases hsecond with ⟨other, rfl, rfl⟩ | ⟨others, hothers, rfl⟩
    · have hswap : entityEntityDistance (.circle other) (.circle circle) tolerance =
          .ok (tolerance.snap (circle.center.distanceTo other.center - circle.radiusMm - other.radiusMm)) := by
        rw [Point2D.distanceTo_comm, sub_right_comm]
        rfl
      rw [measuresBoundaries_iff hfirst hsecond rfl hswap]
      exact abs_snap_circles_sub_le_iff circle other
    · obtain ⟨hne, hjoined⟩ := MeasurableEntity.segments_ok hothers
      obtain ⟨hdist, hdist'⟩ := @entityEntityDistance_circle _ _ _ circle hothers
      rw [circleEntityDistance_path hothers] at hdist hdist'
      rw [measuresBoundaries_iff hfirst hsecond hdist hdist', (discerned_circle hothers).1]
      exact abs_snap_sub_le_iff circle hne hjoined
  · obtain ⟨hne, hjoined⟩ := MeasurableEntity.segments_ok hsegments
    rcases boundary_cases hsecond with ⟨circle, rfl, rfl⟩ | ⟨others, hothers, rfl⟩
    · obtain ⟨hdist, hdist'⟩ := @entityEntityDistance_circle _ _ _ circle hsegments
      rw [circleEntityDistance_path hsegments] at hdist hdist'
      rw [measuresBoundaries_iff hfirst hsecond hdist' hdist, (discerned_circle hsegments).2, setDist_comm]
      exact abs_snap_sub_le_iff circle hne hjoined
    · have hne' := (MeasurableEntity.segments_ok hothers).1
      have hdist := entityEntityDistance_paths hsegments hothers
      have hdist' := entityEntityDistance_paths hothers hsegments
      rw [minimumOf_pairDistances_comm hne' hne] at hdist'
      rw [measuresBoundaries_iff hfirst hsecond hdist hdist', discerned_paths hsegments hothers]
      exact abs_pairDistances_sub_le_iff hne hne'

/-! ## A line in a circle -/

theorem rim_pos : (0 : ℝ) < 20 := by norm_num

/-- A circle of radius 10. -/
def rim : Circle2D := ⟨⟨0, 0⟩, 20, rim_pos⟩

def spoke : LineEdge := ⟨⟨0, 0⟩, ⟨1, 0⟩⟩

theorem entityDistance_boundaries_iff_rim :
    MeasuresBoundaries (.circle rim) (.line spoke) {} ↔
      (0 : ℝ) ≤ ToleranceProfile.absoluteLengthMm {} ∧ Discerned {} (.circle rim) (.line spoke) :=
  entityDistance_boundaries_iff rfl rfl

theorem spoke_within {z : ℂ} (h : z ∈ segmentPoints (spoke.start, spoke.endPoint)) : dist z rim.center.toComplex ≤ 1 := by
  refine ((convexOn_dist _ convex_univ).le_max_of_mem_segment trivial trivial h).trans (max_le ?_ ?_)
  · rw [← Point2D.distanceTo_eq_dist]
    simp [spoke, rim, Point2D.distanceTo]
  · rw [← Point2D.distanceTo_eq_dist]
    simp [spoke, rim, Point2D.distanceTo]

/-- A line at the center of a circle is nine millimetres inside it and is said to touch it. -/
theorem spoke_touches : entityEntityDistance (.circle rim) (.line spoke) {} = .ok 0 ∧
    (∀ p : Point2D, p.toComplex ∈ segmentPoints (spoke.start, spoke.endPoint) →
      ∃ d, pointEntityDistance p (.circle rim) {} = .ok d ∧ 9 ≤ d) ∧
    ¬ MeasuresBoundaries (.circle rim) (.line spoke) {} := by
  have hradius : rim.radiusMm = 10 := by norm_num [rim, Circle2D.radiusMm]
  have hpath : MeasurableEntity.segments {} (.line spoke) = .ok [(spoke.start, spoke.endPoint)] := rfl
  have hmem : spoke.start.toComplex ∈ pathPoints [(spoke.start, spoke.endPoint)] :=
    ⟨_, List.mem_singleton_self _, start_mem_segmentPoints⟩
  have hzero : ToleranceProfile.snap {} (infDist rim.center.toComplex (pathPoints [(spoke.start, spoke.endPoint)]) -
      rim.radiusMm) = 0 := by
    have hnear := infDist_le_dist_of_mem (x := rim.center.toComplex) hmem
    have hcenter : dist rim.center.toComplex spoke.start.toComplex = 0 := dist_self _
    refine if_pos ?_
    simp only [ToleranceProfile.IsZeroLength]
    linarith
  obtain ⟨hdist, hdist'⟩ := @entityEntityDistance_circle _ _ _ rim hpath
  rw [circleEntityDistance_path hpath] at hdist hdist'
  refine ⟨hdist.trans (congrArg _ hzero), ?_, ?_⟩
  · intro p hp
    have hnear := spoke_within hp
    refine ⟨_, rfl, ?_⟩
    rw [Point2D.distanceTo_eq_dist, hradius, abs_sub_comm]
    exact le_trans (by linarith) (le_abs_self _)
  · rw [measuresBoundaries_iff rfl rfl hdist hdist']
    intro hclose
    obtain ⟨-, s, hs, v, hv, hout⟩ := (abs_snap_sub_le_iff rim (List.cons_ne_nil _ _) (.singleton _)).mp hclose
    obtain rfl := List.mem_singleton.mp hs
    have hinside : v.distanceTo rim.center ≤ 1 := by
      rw [Point2D.distanceTo_eq_dist]
      apply spoke_within
      simp only [List.mem_cons, List.not_mem_nil, or_false] at hv
      rcases hv with rfl | rfl
      · exact start_mem_segmentPoints
      · exact end_mem_segmentPoints
    rw [hradius] at hout
    norm_num at hout
    linarith

end

end CadHarness.Geometry
