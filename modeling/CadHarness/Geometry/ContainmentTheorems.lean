import CadHarness.Geometry.CrossingTheorems
import CadHarness.Geometry.Extents
import Mathlib.Algebra.CharP.Two
import Mathlib.Algebra.Field.ZMod
import Mathlib.Topology.Algebra.Order.Field
import Mathlib.Topology.Order.IntermediateValue

/-!
# Containment of contours

Whether a point is inside does not change along a path that stays off the boundary. A contour whose vertices and
midpoints are inside can leave only by crossing the boundary and coming back between two of them.
-/

namespace CadHarness.Geometry
open Filter Topology

/-! ## The parity of crossings -/

open Classical in
/-- One for what holds. -/
noncomputable def bit (P : Prop) : ZMod 2 := if P then 1 else 0

@[simp] theorem bit_of {P : Prop} (h : P) : bit P = 1 := if_pos h

@[simp] theorem bit_not {P : Prop} (h : ¬ P) : bit P = 0 := if_neg h

/-- A crossing at one end changes with that end, and leaves the other. -/
theorem bit_crossing (A B right : Prop) : bit (¬ (A ↔ B) ∧ right) + bit (right ∧ A) = bit (right ∧ B) := by
  by_cases hA : A <;> by_cases hB : B <;> by_cases hright : right <;> simp [hA, hB, hright, CharTwo.add_self_eq_zero]

theorem bit_crossing_second (A B right : Prop) (other : ZMod 2) :
    bit (¬ (A ↔ B) ∧ right) + other + bit (right ∧ B) = bit (right ∧ A) + other := by
  rw [add_right_comm, iff_comm, bit_crossing]

/-- The parity of those segments that have a property. -/
noncomputable def parity (P : Point2D × Point2D → Prop) (segments : List (Point2D × Point2D)) : ZMod 2 :=
  (segments.map fun s => bit (P s)).sum

open Classical in
theorem foldl_not_eq (P : Point2D × Point2D → Prop) (segments : List (Point2D × Point2D)) (inside : Bool) :
    segments.foldl (fun inside s => if P s then !inside else inside) inside = true ↔
      bit (inside = true) + parity P segments = 1 := by
  induction segments generalizing inside with
  | nil => cases inside <;> simp [parity]
  | cons s segments ih =>
      rw [List.foldl_cons, ih, parity, parity, List.map_cons, List.sum_cons, ← add_assoc]
      have hstep : bit ((if P s then !inside else inside) = true) = bit (inside = true) + bit (P s) := by
        by_cases hs : P s <;> cases inside <;> simp [hs]
        decide
      rw [hstep]

variable {contour : Polyline2D} {p : Point2D} {tolerance : ToleranceProfile}

theorem containsPoint_iff : ContainsPoint contour p tolerance ↔
    PointOnBoundary p contour tolerance ∨ parity (fun s => RayCrosses p s.1 s.2) contour.segments = 1 := by
  rw [ContainsPoint, foldl_not_eq]
  simp

/-- Each vertex of a closed contour starts one segment and ends another. -/
theorem segments_fst_perm_snd (hclosed : contour.closed = true) :
    (contour.segments.map Prod.fst).Perm (contour.segments.map Prod.snd) := by
  unfold Polyline2D.segments
  split
  · exact .refl _
  next first rest _ =>
    rw [if_pos hclosed, List.map_fst_zip (by simp), List.map_snd_zip (by simp)]
    exact (List.perm_append_singleton first rest).symm

theorem parity_fst_eq_snd (hclosed : contour.closed = true) (P : Point2D → Prop) :
    parity (fun s => P s.1) contour.segments = parity (fun s => P s.2) contour.segments := by
  have hperm := ((segments_fst_perm_snd hclosed).map fun v => bit (P v)).sum_eq
  rwa [List.map_map, List.map_map] at hperm

/-- A segment is counted with those of its ends that are above a point and to the right of another. -/
noncomputable def crossingTerm (x : ℝ) (p : Point2D) (s : Point2D × Point2D) : ZMod 2 :=
  bit (RayCrosses p s.1 s.2) + bit (s.1.x > x ∧ s.1.y > p.y) + bit (s.2.x > x ∧ s.2.y > p.y)

/-- The ends of the segments of a closed contour cancel. -/
theorem sum_crossingTerm (hclosed : contour.closed = true) (x : ℝ) (p : Point2D) :
    (contour.segments.map (crossingTerm x p)).sum = parity (fun s => RayCrosses p s.1 s.2) contour.segments := by
  have hends := parity_fst_eq_snd hclosed fun v => v.x > x ∧ v.y > p.y
  unfold parity at hends ⊢
  unfold crossingTerm
  simp only [List.sum_map_add, hends, add_assoc, CharTwo.add_self_eq_zero, add_zero]

/-! ## Along a path -/

/-- Where the line of a segment is at a height. -/
noncomputable def lineAt (s : Point2D × Point2D) (y : ℝ) : ℝ := s.1.x + (y - s.1.y) * (s.2.x - s.1.x) / (s.2.y - s.1.y)

theorem rayCrosses_iff (p : Point2D) (s : Point2D × Point2D) :
    RayCrosses p s.1 s.2 ↔ ¬ (s.1.y > p.y ↔ s.2.y > p.y) ∧ lineAt s p.y > p.x := Iff.rfl

/-- A segment that is not level has a point at each height between its ends. -/
theorem lineAt_mem {s : Point2D × Point2D} {y : ℝ} (hne : s.1.y ≠ s.2.y)
    (hbetween : ¬ (s.1.y < y ∧ s.2.y < y) ∧ ¬ (y < s.1.y ∧ y < s.2.y)) : ⟨lineAt s y, y⟩ ∈ edgePoints s := by
  have hd : s.2.y - s.1.y ≠ 0 := sub_ne_zero.mpr hne.symm
  have hpoint : (⟨lineAt s y, y⟩ : Point2D) = ⟨s.1.x + (s.2.x - s.1.x) * ((y - s.1.y) / (s.2.y - s.1.y)),
      s.1.y + (s.2.y - s.1.y) * ((y - s.1.y) / (s.2.y - s.1.y))⟩ := by
    rw [Point2D.mk.injEq, lineAt]
    constructor
    · field_simp
    · field_simp
      ring
  refine ⟨(y - s.1.y) / (s.2.y - s.1.y), ?_, ?_, hpoint⟩
  · rcases lt_or_gt_of_ne hne with hlt | hgt
    · exact div_nonneg (by by_contra h; exact hbetween.2 ⟨by linarith, by linarith⟩) (by linarith)
    · exact div_nonneg_of_nonpos (by by_contra h; exact hbetween.1 ⟨by linarith, by linarith⟩) (by linarith)
  · rcases lt_or_gt_of_ne hne with hlt | hgt
    · rw [div_le_one (by linarith)]
      by_contra h
      exact hbetween.1 ⟨by linarith, by linarith⟩
    · rw [div_le_one_of_neg (by linarith)]
      by_contra h
      exact hbetween.2 ⟨by linarith, by linarith⟩

section path

variable {x y : ℝ → ℝ} {t₀ : ℝ} {s : Point2D × Point2D}

/-- What is apart from a value stays on its side nearby. -/
theorem eventually_lt_iff {f : ℝ → ℝ} (hf : ContinuousAt f t₀) {c : ℝ} (hne : c ≠ f t₀) :
    ∀ᶠ t in 𝓝 t₀, (c > f t ↔ c > f t₀) := by
  rcases lt_or_gt_of_ne hne with hlt | hgt
  · filter_upwards [hf.eventually_const_lt hlt] with t ht
    exact iff_of_false (not_lt.mpr ht.le) (not_lt.mpr hlt.le)
  · filter_upwards [hf.eventually_lt_const hgt] with t ht
    exact iff_of_true ht hgt

theorem eventually_lineAt_iff (hx : ContinuousAt x t₀) (hy : ContinuousAt y t₀) (hne : lineAt s (y t₀) ≠ x t₀) :
    ∀ᶠ t in 𝓝 t₀, (lineAt s (y t) > x t ↔ lineAt s (y t₀) > x t₀) := by
  have hcontinuous : ContinuousAt (fun t => x t - lineAt s (y t)) t₀ := by
    unfold lineAt
    fun_prop
  filter_upwards [eventually_lt_iff hcontinuous (c := 0) (sub_ne_zero.mpr hne.symm).symm] with t ht
  simpa using ht

/-- The ends of a level segment at the height of a point are on one side of it. -/
theorem level_same_side {p : Point2D} (hlevel : s.1.y = s.2.y) (hheight : s.1.y = p.y) (hoff : p ∉ edgePoints s) :
    s.1.x > p.x ↔ s.2.x > p.x := by
  have hmem (t : ℝ) (h0 : 0 ≤ t) (h1 : t ≤ 1) (hx : p.x = s.1.x + (s.2.x - s.1.x) * t) : p ∈ edgePoints s :=
    ⟨t, h0, h1, Point2D.ext hx (by rw [← hlevel, hheight]; ring)⟩
  by_contra hsides
  by_cases hfirst : s.1.x > p.x
  · have hsecond : s.2.x ≤ p.x := not_lt.mp fun h => hsides (iff_of_true hfirst h)
    have hd : s.2.x - s.1.x < 0 := by linarith
    exact hoff (hmem ((p.x - s.1.x) / (s.2.x - s.1.x)) (div_nonneg_of_nonpos (by linarith) hd.le)
      ((div_le_one_of_neg hd).mpr (by linarith)) (by rw [mul_div_cancel₀ _ hd.ne, add_sub_cancel]))
  · have hsecond : s.2.x > p.x := by
      by_contra h
      exact hsides (iff_of_false hfirst h)
    have hd : 0 < s.2.x - s.1.x := by linarith
    exact hoff (hmem ((p.x - s.1.x) / (s.2.x - s.1.x)) (div_nonneg (by linarith) hd.le)
      ((div_le_one hd).mpr (by linarith)) (by rw [mul_div_cancel₀ _ hd.ne', add_sub_cancel]))

/-- Off a segment its crossing and its ends change together. -/
theorem eventually_crossingTerm (hx : ContinuousAt x t₀) (hy : ContinuousAt y t₀)
    (hoff : ⟨x t₀, y t₀⟩ ∉ edgePoints s) :
    ∀ᶠ t in 𝓝 t₀, crossingTerm (x t₀) ⟨x t, y t⟩ s = crossingTerm (x t₀) ⟨x t₀, y t₀⟩ s := by
  unfold crossingTerm
  simp only [rayCrosses_iff]
  by_cases hlevel : s.1.y = s.2.y
  · by_cases hheight : s.1.y = y t₀
    · have hsame := level_same_side hlevel hheight hoff
      refine .of_forall fun t => ?_
      simp only [hlevel, hsame, not_true_eq_false, false_and, add_assoc, CharTwo.add_self_eq_zero]
    · filter_upwards [eventually_lt_iff hy hheight] with t ha
      rw [hlevel] at ha
      simp only [hlevel, ha, not_true_eq_false, false_and]
  by_cases hside : (s.1.y < y t₀ ∧ s.2.y < y t₀) ∨ (y t₀ < s.1.y ∧ y t₀ < s.2.y)
  · have hfirst : s.1.y ≠ y t₀ := by rcases hside with h | h; exacts [h.1.ne, h.1.ne']
    have hsecond : s.2.y ≠ y t₀ := by rcases hside with h | h; exacts [h.2.ne, h.2.ne']
    have hsame : s.1.y > y t₀ ↔ s.2.y > y t₀ := by
      rcases hside with h | h
      · exact iff_of_false (not_lt.mpr h.1.le) (not_lt.mpr h.2.le)
      · exact iff_of_true h.1 h.2
    filter_upwards [eventually_lt_iff hy hfirst, eventually_lt_iff hy hsecond] with t ha hb
    simp only [ha, hb, hsame, not_true_eq_false, false_and]
  have hmem := lineAt_mem hlevel (not_or.mp hside)
  have hline : lineAt s (y t₀) ≠ x t₀ := fun heq => hoff (heq ▸ hmem)
  have hσ := eventually_lineAt_iff hx hy hline
  by_cases hfirst : s.1.y = y t₀
  · -- The crossing is at the first end, so that it is to the right where that end is.
    have hend : lineAt s (y t₀) = s.1.x := by rw [lineAt, hfirst, sub_self, zero_mul, zero_div, add_zero]
    have hsecond : s.2.y ≠ y t₀ := fun h => hlevel (hfirst.trans h.symm)
    filter_upwards [hσ, eventually_lt_iff hy hsecond] with t hσ hb
    rw [hend] at hσ
    simp only [hσ, hb, hend, bit_crossing]
  by_cases hsecond : s.2.y = y t₀
  · have hend : lineAt s (y t₀) = s.2.x := by
      rw [lineAt, ← hsecond, mul_comm, mul_div_assoc, div_self (sub_ne_zero.mpr (Ne.symm hlevel)), mul_one, add_sub_cancel]
    filter_upwards [hσ, eventually_lt_iff hy hfirst] with t hσ ha
    rw [hend] at hσ
    simp only [hσ, ha, hend, bit_crossing_second]
  · filter_upwards [hσ, eventually_lt_iff hy hfirst, eventually_lt_iff hy hsecond] with t hσ ha hb
    simp only [hσ, ha, hb]

end path

/-- Off the boundary the parity of a point stays as it is nearby. -/
theorem eventually_parity (hclosed : contour.closed = true) {x y : ℝ → ℝ} {t₀ : ℝ} (hx : ContinuousAt x t₀)
    (hy : ContinuousAt y t₀) (hoff : ∀ s ∈ contour.segments, ⟨x t₀, y t₀⟩ ∉ edgePoints s) :
    ∀ᶠ t in 𝓝 t₀, parity (fun s => RayCrosses ⟨x t, y t⟩ s.1 s.2) contour.segments =
      parity (fun s => RayCrosses ⟨x t₀, y t₀⟩ s.1 s.2) contour.segments := by
  have hterms : ∀ᶠ t in 𝓝 t₀, ∀ s ∈ contour.segments,
      crossingTerm (x t₀) ⟨x t, y t⟩ s = crossingTerm (x t₀) ⟨x t₀, y t₀⟩ s :=
    (eventually_all_finite (List.finite_toSet contour.segments)).mpr fun s hs =>
      eventually_crossingTerm hx hy (hoff s hs)
  filter_upwards [hterms] with t ht
  rw [← sum_crossingTerm hclosed (x t₀), ← sum_crossingTerm hclosed (x t₀), List.map_congr_left ht]

/-- Along a path that stays off the boundary it does not change. -/
theorem parity_eq_of_path (hclosed : contour.closed = true) {x y : ℝ → ℝ} (hx : Continuous x) (hy : Continuous y)
    {u v : ℝ} (huv : u ≤ v) (hoff : ∀ t ∈ Set.Icc u v, ∀ s ∈ contour.segments, ⟨x t, y t⟩ ∉ edgePoints s) :
    parity (fun s => RayCrosses ⟨x u, y u⟩ s.1 s.2) contour.segments =
      parity (fun s => RayCrosses ⟨x v, y v⟩ s.1 s.2) contour.segments := by
  refine isPreconnected_Icc.induction₂ (fun t t' => parity (fun s => RayCrosses ⟨x t, y t⟩ s.1 s.2) contour.segments =
    parity (fun s => RayCrosses ⟨x t', y t'⟩ s.1 s.2) contour.segments) ?_ ?_ ?_ (Set.left_mem_Icc.mpr huv)
    (Set.right_mem_Icc.mpr huv)
  · intro t ht
    have hnear := eventually_parity hclosed hx.continuousAt hy.continuousAt (hoff t ht)
    exact (hnear.mono fun _ h => h.symm).filter_mono nhdsWithin_le_nhds
  · intro a b c _ _ _ hab hbc
    exact hab.trans hbc
  · intro a b _ _ h
    exact h.symm

/-! ## Leaving a contour -/

/-- The point at a fraction of an edge. -/
noncomputable def edgePoint (edge : Point2D × Point2D) (t : ℝ) : Point2D :=
  ⟨edge.1.x + (edge.2.x - edge.1.x) * t, edge.1.y + (edge.2.y - edge.1.y) * t⟩

/-- A part of an edge leaves a contour between two points that are on its boundary. -/
inductive Leaves (outer : Polyline2D) (tolerance : ToleranceProfile) (edge : Point2D × Point2D) (low high : ℝ) : Prop
  | mk (u v : ℝ) (hlow : low ≤ u) (huv : u < v) (hhigh : v ≤ high)
      (hu : PointOnBoundary (edgePoint edge u) outer tolerance) (hv : PointOnBoundary (edgePoint edge v) outer tolerance)
      (hout : ∀ t, u < t → t < v → ¬ ContainsPoint outer (edgePoint edge t) tolerance)

/-- The segment lies in the band around it. -/
theorem pointToSegmentDistance_of_mem {p : Point2D} {s : Point2D × Point2D} (h : p ∈ edgePoints s) :
    pointToSegmentDistance p s.1 s.2 = 0 := by
  obtain ⟨t, h0, h1, rfl⟩ := h
  unfold pointToSegmentDistance
  dsimp only [Point2D.vectorTo, Vector2D.dot]
  split
  · next hle =>
    have hx : s.2.x - s.1.x = 0 := by nlinarith [sq_nonneg (s.2.y - s.1.y)]
    have hy : s.2.y - s.1.y = 0 := by nlinarith [sq_nonneg (s.2.x - s.1.x)]
    simp [hx, hy]
  · next hpos =>
    have hfraction : ((s.1.x + (s.2.x - s.1.x) * t - s.1.x) * (s.2.x - s.1.x) +
        (s.1.y + (s.2.y - s.1.y) * t - s.1.y) * (s.2.y - s.1.y)) / ((s.2.x - s.1.x) ^ 2 + (s.2.y - s.1.y) ^ 2) = t := by
      rw [div_eq_iff (fun h => hpos h.le)]
      ring
    rw [hfraction, min_eq_right h1, max_eq_right h0]
    exact Point2D.distanceTo_self _

theorem continuous_pointToSegmentDistance (edge : Point2D × Point2D) (a b : Point2D) :
    Continuous fun t => pointToSegmentDistance (edgePoint edge t) a b := by
  unfold pointToSegmentDistance
  dsimp only [edgePoint, Point2D.vectorTo, Vector2D.dot, Point2D.distanceTo]
  split <;> fun_prop

variable {outer : Polyline2D} {edge : Point2D × Point2D}

theorem isClosed_onBoundary : IsClosed {t | PointOnBoundary (edgePoint edge t) outer tolerance} := by
  have hunion : {t | PointOnBoundary (edgePoint edge t) outer tolerance} =
      ⋃ s ∈ {s | s ∈ outer.segments}, {t | pointToSegmentDistance (edgePoint edge t) s.1 s.2 ≤ tolerance.coincidenceMm} := by
    ext t
    simp [PointOnBoundary, ToleranceProfile.IsCoincident]
  rw [hunion]
  exact (List.finite_toSet outer.segments).isClosed_biUnion fun s _ =>
    isClosed_le (continuous_pointToSegmentDistance edge s.1 s.2) continuous_const

theorem not_mem_edgePoints (htolerance : 0 ≤ tolerance.coincidenceMm) {p : Point2D}
    (h : ¬ PointOnBoundary p outer tolerance) : ∀ s ∈ outer.segments, p ∉ edgePoints s := by
  intro s hs hp
  refine h ⟨s, hs, ?_⟩
  rw [ToleranceProfile.IsCoincident, pointToSegmentDistance_of_mem hp]
  exact htolerance

/-- Off the band nothing changes between two points of an edge. -/
theorem containsPoint_iff_of_off (htolerance : 0 ≤ tolerance.coincidenceMm) (hclosed : outer.closed = true) {u v : ℝ}
    (huv : u ≤ v) (hoff : ∀ t ∈ Set.Icc u v, ¬ PointOnBoundary (edgePoint edge t) outer tolerance) :
    ContainsPoint outer (edgePoint edge u) tolerance ↔ ContainsPoint outer (edgePoint edge v) tolerance := by
  have hparity := parity_eq_of_path hclosed (x := fun t => edge.1.x + (edge.2.x - edge.1.x) * t)
    (y := fun t => edge.1.y + (edge.2.y - edge.1.y) * t) (by fun_prop) (by fun_prop) huv
    fun t ht => not_mem_edgePoints htolerance (hoff t ht)
  rw [containsPoint_iff, containsPoint_iff, or_iff_right (hoff u (Set.left_mem_Icc.mpr huv)),
    or_iff_right (hoff v (Set.right_mem_Icc.mpr huv))]
  exact iff_of_eq (congrArg (· = 1) hparity)

/-- A part of an edge with its ends inside and a point outside leaves the contour and comes back. -/
theorem leaves_of_outside (htolerance : 0 ≤ tolerance.coincidenceMm) (hclosed : outer.closed = true) {low high w : ℝ}
    (hlow : ContainsPoint outer (edgePoint edge low) tolerance)
    (hhigh : ContainsPoint outer (edgePoint edge high) tolerance) (hw : w ∈ Set.Icc low high)
    (hout : ¬ ContainsPoint outer (edgePoint edge w) tolerance) : Leaves outer tolerance edge low high := by
  set band := {t | PointOnBoundary (edgePoint edge t) outer tolerance} with hband
  have hwband : w ∉ band := fun h => hout (.inl h)
  have hbefore : (Set.Icc low w ∩ band).Nonempty := by
    by_contra hempty
    refine hout ((containsPoint_iff_of_off htolerance hclosed hw.1 ?_).mp hlow)
    exact fun t ht hon => hempty ⟨t, ht, hon⟩
  have hafter : (Set.Icc w high ∩ band).Nonempty := by
    by_contra hempty
    refine hout ((containsPoint_iff_of_off htolerance hclosed hw.2 ?_).mpr hhigh)
    exact fun t ht hon => hempty ⟨t, ht, hon⟩
  obtain ⟨u, ⟨⟨hulow, huw⟩, hu⟩, hlast⟩ := (isCompact_Icc.inter_right isClosed_onBoundary).exists_isGreatest hbefore
  obtain ⟨v, ⟨⟨hwv, hvhigh⟩, hv⟩, hfirst⟩ := (isCompact_Icc.inter_right isClosed_onBoundary).exists_isLeast hafter
  have huw' : u < w := huw.lt_of_ne fun h => hwband (h ▸ hu)
  have hwv' : w < v := hwv.lt_of_ne fun h => hwband (h ▸ hv)
  have hoff (t : ℝ) (htu : u < t) (htv : t < v) : t ∉ band := by
    intro hon
    rcases le_total t w with htw | hwt
    · exact not_lt.mpr (hlast ⟨⟨hulow.trans htu.le, htw⟩, hon⟩) htu
    · exact not_lt.mpr (hfirst ⟨⟨hwt, htv.le.trans hvhigh⟩, hon⟩) htv
  refine ⟨u, v, hulow, huw'.trans hwv', hvhigh, hu, hv, fun t htu htv hin => hout ?_⟩
  rcases le_total t w with htw | hwt
  · exact (containsPoint_iff_of_off htolerance hclosed htw fun t' ht' =>
      hoff t' (htu.trans_le ht'.1) (ht'.2.trans_lt hwv')).mp hin
  · exact (containsPoint_iff_of_off htolerance hclosed hwt fun t' ht' =>
      hoff t' (huw'.trans_le ht'.1) (ht'.2.trans_lt htv)).mpr hin

/-! ## Probes -/

variable {inner : Polyline2D}

theorem closedWithin (h : outer.closed = true) : IsClosedWithin outer tolerance := .inl h

theorem containsContour_iff (houter : outer.closed = true) (hinner : inner.closed = true) :
    ContainsContour outer inner tolerance ↔ ∀ p ∈ probes inner, ContainsPoint outer p tolerance := by
  rw [ContainsContour, and_iff_right (closedWithin houter), and_iff_right (closedWithin hinner)]

/-- The overflow is zero just when no probe is outside. -/
theorem contourOverflowMm_eq_zero_iff (htolerance : 0 ≤ tolerance.coincidenceMm) :
    contourOverflowMm outer inner tolerance = 0 ↔ ∀ p ∈ probes inner, ContainsPoint outer p tolerance := by
  classical
  constructor
  · intro hzero p hp
    by_contra hout
    have hpos : 0 < boundaryDistance outer p := by
      have hmem := (minimumOf_mem (l := outer.segments.map fun s => pointToSegmentDistance p s.1 s.2)
        (by simpa using outer.segments_ne_nil)).1
      obtain ⟨s, hs, heq⟩ := List.mem_map.mp hmem
      rw [boundaryDistance, ← heq]
      exact lt_of_le_of_lt htolerance (not_le.mp fun hle => hout (.inl ⟨s, hs, hle⟩))
    have hmem : boundaryDistance outer p ∈
        ((probes inner).filter fun p => ¬ ContainsPoint outer p tolerance).map (boundaryDistance outer) :=
      List.mem_map.mpr ⟨p, List.mem_filter.mpr ⟨hp, by simpa using hout⟩, rfl⟩
    have hle := (maximumOf_mem (List.ne_nil_of_mem hmem)).2 _ hmem
    rw [contourOverflowMm] at hzero
    linarith
  · intro hall
    have hnone : (probes inner).filter (fun p => ¬ ContainsPoint outer p tolerance) = [] := by
      simpa [List.filter_eq_nil_iff] using hall
    rw [contourOverflowMm, hnone]
    rfl

/-- The ends and the middle of an edge are probes. -/
theorem edgePoint_mem_probes {edge : Point2D × Point2D} (h : edge ∈ inner.segments) :
    edgePoint edge 0 ∈ probes inner ∧ edgePoint edge (1 / 2) ∈ probes inner ∧ edgePoint edge 1 ∈ probes inner := by
  have hvertices := Polyline2D.endpoints_mem h
  refine ⟨List.mem_append_left _ ?_, List.mem_append_right _ (List.mem_map.mpr ⟨edge, h, ?_⟩), List.mem_append_left _ ?_⟩
  · simpa [edgePoint] using hvertices.1
  · rw [edgePoint, Point2D.mk.injEq]
    constructor <;> ring
  · simpa [edgePoint] using hvertices.2

/-! ## Main result -/

/-- Every point of every edge of a contour is in another one or within the tolerance of its boundary. -/
def Within (outer inner : Polyline2D) (tolerance : ToleranceProfile) : Prop :=
  ∀ edge ∈ inner.segments, ∀ p ∈ edgePoints edge, ContainsPoint outer p tolerance

/-- What the probes accept is inside, except where an edge leaves the outer contour and comes back between two
neighbouring probes. -/
theorem containsContour_sound_iff (htolerance : 0 ≤ tolerance.coincidenceMm) (houter : outer.closed = true)
    (hinner : inner.closed = true) :
    ((ContainsContour outer inner tolerance → Within outer inner tolerance) ∧
        (contourOverflowMm outer inner tolerance = 0 → Within outer inner tolerance)) ↔
      (∃ p ∈ probes inner, ¬ ContainsPoint outer p tolerance) ∨ ∀ edge ∈ inner.segments,
        ¬ Leaves outer tolerance edge 0 (1 / 2) ∧ ¬ Leaves outer tolerance edge (1 / 2) 1 := by
  rw [containsContour_iff houter hinner, contourOverflowMm_eq_zero_iff htolerance, and_self]
  have hleaves {edge : Point2D × Point2D} {low high : ℝ} (hedge : edge ∈ inner.segments) (hlow : 0 ≤ low) (hhigh : high ≤ 1)
      (hwithin : Within outer inner tolerance) : ¬ Leaves outer tolerance edge low high := by
    rintro ⟨u, v, hlu, huv, hvh, -, -, hout⟩
    exact hout ((u + v) / 2) (by linarith) (by linarith)
      (hwithin edge hedge _ ⟨(u + v) / 2, by linarith, by linarith, rfl⟩)
  constructor
  · intro hsound
    by_cases hall : ∀ p ∈ probes inner, ContainsPoint outer p tolerance
    · refine .inr fun edge hedge => ⟨hleaves hedge le_rfl (by norm_num) (hsound hall), ?_⟩
      exact hleaves hedge (by norm_num) le_rfl (hsound hall)
    · push Not at hall
      exact .inl hall
  · rintro (⟨p, hp, hout⟩ | hstay) hall edge hedge p ⟨t, h0, h1, rfl⟩
    · exact absurd (hall p hp) hout
    · obtain ⟨hstart, hmiddle, hend⟩ := edgePoint_mem_probes hedge
      by_contra hout
      rcases le_total t (1 / 2) with hle | hge
      · exact (hstay edge hedge).1 (leaves_of_outside htolerance houter (hall _ hstart) (hall _ hmiddle) ⟨h0, hle⟩ hout)
      · exact (hstay edge hedge).2 (leaves_of_outside htolerance houter (hall _ hmiddle) (hall _ hend) ⟨hge, h1⟩ hout)

/-! ## A notch -/

/-- A segment on the far side of a line is at least as far away as the line. -/
theorem le_pointToSegmentDistance {p a b : Point2D} {nx ny k : ℝ} (hn : nx ^ 2 + ny ^ 2 ≤ 1)
    (ha : k ≤ nx * (a.x - p.x) + ny * (a.y - p.y)) (hb : k ≤ nx * (b.x - p.x) + ny * (b.y - p.y)) :
    k ≤ pointToSegmentDistance p a b := by
  have hpoint (q : Point2D) (hq : k ≤ nx * (q.x - p.x) + ny * (q.y - p.y)) : k ≤ p.distanceTo q := by
    refine hq.trans (Real.le_sqrt_of_sq_le ?_)
    nlinarith [sq_nonneg (nx * (q.y - p.y) - ny * (q.x - p.x)), sq_nonneg (p.x - q.x), sq_nonneg (p.y - q.y)]
  unfold pointToSegmentDistance
  dsimp only
  split
  · exact hpoint a ha
  · generalize (a.vectorTo p).dot (a.vectorTo b) / _ = fraction
    have h0 : 0 ≤ max 0 (min 1 fraction) := le_max_left _ _
    have h1 : max 0 (min 1 fraction) ≤ 1 := max_le zero_le_one (min_le_left _ _)
    generalize max 0 (min 1 fraction) = t at h0 h1 ⊢
    refine hpoint _ ?_
    simp only [Point2D.vectorTo]
    nlinarith [mul_le_mul_of_nonneg_left ha (sub_nonneg.mpr h1), mul_le_mul_of_nonneg_left hb h0]

theorem notched_two_le : 2 ≤ ([⟨0, 0⟩, ⟨18, 0⟩, ⟨18, 18⟩, ⟨3, 2⟩, ⟨0, 18⟩] : List Point2D).length := by
  decide

theorem bridge_two_le : 2 ≤ ([⟨1, 4⟩, ⟨17, 4⟩, ⟨9, 1⟩] : List Point2D).length := by
  decide

/-- A square with a notch from above. -/
def notched : Polyline2D := ⟨[⟨0, 0⟩, ⟨18, 0⟩, ⟨18, 18⟩, ⟨3, 2⟩, ⟨0, 18⟩], true, notched_two_le⟩

/-- A triangle with an edge across the notch, whose middle is beyond it. -/
def bridge : Polyline2D := ⟨[⟨1, 4⟩, ⟨17, 4⟩, ⟨9, 1⟩], true, bridge_two_le⟩

theorem notched_segments : notched.segments = [(⟨0, 0⟩, ⟨18, 0⟩), (⟨18, 0⟩, ⟨18, 18⟩), (⟨18, 18⟩, ⟨3, 2⟩),
    (⟨3, 2⟩, ⟨0, 18⟩), (⟨0, 18⟩, ⟨0, 0⟩)] := rfl

theorem bridge_segments : bridge.segments = [(⟨1, 4⟩, ⟨17, 4⟩), (⟨17, 4⟩, ⟨9, 1⟩), (⟨9, 1⟩, ⟨1, 4⟩)] := rfl

theorem bridge_probes : ∀ p ∈ probes bridge, ContainsPoint notched p {} := by
  intro p hp
  rw [containsPoint_iff]
  refine .inr ?_
  rw [parity, notched_segments]
  rw [probes, bridge_segments] at hp
  simp only [bridge, List.map_cons, List.map_nil, List.cons_append, List.nil_append, List.mem_cons, List.not_mem_nil,
    or_false] at hp
  rcases hp with rfl | rfl | rfl | rfl | rfl | rfl <;> norm_num [RayCrosses, bit]
  rfl

/-- The point of the triangle in the notch is off every edge of the square. -/
theorem notch_outside : ¬ ContainsPoint notched ⟨3, 4⟩ {} := by
  rw [containsPoint_iff, not_or]
  constructor
  · rintro ⟨s, hs, hle⟩
    rw [ToleranceProfile.IsCoincident] at hle
    simp only [notched_segments, List.mem_cons, List.not_mem_nil, or_false] at hs
    have hfar : 1 / 10 ≤ pointToSegmentDistance ⟨3, 4⟩ s.1 s.2 := by
      rcases hs with rfl | rfl | rfl | rfl | rfl
      · exact @le_pointToSegmentDistance _ _ _ 0 (-1) _ (by norm_num) (by norm_num) (by norm_num)
      · exact @le_pointToSegmentDistance _ _ _ 1 0 _ (by norm_num) (by norm_num) (by norm_num)
      · exact @le_pointToSegmentDistance _ _ _ (16 / 22) (-15 / 22) _ (by norm_num) (by norm_num) (by norm_num)
      · exact @le_pointToSegmentDistance _ _ _ (-16 / 17) (-3 / 17) _ (by norm_num) (by norm_num) (by norm_num)
      · exact @le_pointToSegmentDistance _ _ _ (-1) 0 _ (by norm_num) (by norm_num) (by norm_num)
    norm_num at hle
    linarith
  · rw [parity, notched_segments]
    norm_num [RayCrosses, bit]
    decide

theorem containsContour_sound_iff_notched :
    ((ContainsContour notched bridge {} → Within notched bridge {}) ∧
        (contourOverflowMm notched bridge {} = 0 → Within notched bridge {})) ↔
      (∃ p ∈ probes bridge, ¬ ContainsPoint notched p {}) ∨ ∀ edge ∈ bridge.segments,
        ¬ Leaves notched {} edge 0 (1 / 2) ∧ ¬ Leaves notched {} edge (1 / 2) 1 :=
  containsContour_sound_iff (by norm_num) rfl rfl

/-- All probes of the triangle are in the notched square, and a point of its edge is in the notch. -/
theorem bridge_accepted : ContainsContour notched bridge {} ∧ contourOverflowMm notched bridge {} = 0 ∧
    ¬ Within notched bridge {} := by
  refine ⟨(containsContour_iff rfl rfl).mpr bridge_probes, ?_, ?_⟩
  · exact (contourOverflowMm_eq_zero_iff (by norm_num)).mpr bridge_probes
  · intro hwithin
    refine notch_outside (hwithin (⟨1, 4⟩, ⟨17, 4⟩) ?_ ⟨3, 4⟩ ⟨1 / 8, by norm_num, by norm_num, ?_⟩)
    · rw [bridge_segments]
      exact List.mem_cons_self
    · norm_num

end CadHarness.Geometry
