import CadHarness.Geometry.PolylineTheorems
import CadHarness.Takeoff.Welds
import Mathlib.Analysis.SpecialFunctions.Trigonometric.Bounds

/-!
# Lengths of polylines

The length of a declared polyline is that of its chords. The contour analysis takes an arc for each segment that
bulges, and an arc is longer than its chord.
-/

namespace CadHarness.Takeoff
open CadHarness.Geometry

noncomputable section

/-! ## Arcs and chords -/

theorem arctan_gt {b : ℝ} (hb : 0 < b) : b / (1 + b ^ 2) < Real.arctan b := by
  have hpos : 0 < Real.arctan b := Real.arctan_pos.mpr hb
  have hsin : Real.sin (2 * Real.arctan b) < 2 * Real.arctan b := Real.sin_lt (by linarith)
  have hroot : √(1 + b ^ 2) * √(1 + b ^ 2) = 1 + b ^ 2 := Real.mul_self_sqrt (by positivity)
  have hdouble : Real.sin (2 * Real.arctan b) = 2 * (b / (1 + b ^ 2)) := by
    rw [Real.sin_two_mul, Real.sin_arctan, Real.cos_arctan, mul_assoc, div_mul_div_comm, mul_one, hroot]
  linarith

theorem abs_arctan (b : ℝ) : |Real.arctan b| = Real.arctan |b| := by
  rcases le_total 0 b with hb | hb
  · rw [abs_of_nonneg hb, abs_of_nonneg (Real.arctan_nonneg.mpr hb)]
  · rw [abs_of_nonpos hb, Real.arctan_neg, abs_of_nonpos]
    exact Real.arctan_le_zero.mpr hb

theorem distanceTo_nonneg (p q : Point2D) : 0 ≤ p.distanceTo q := Real.sqrt_nonneg _

/-- An arc of a bulge is longer than its chord. -/
theorem normalizeBulge_longer {start finish : Point2D} {bulge : ℝ} {c : CurveParams}
    (h : normalizeBulge start finish bulge = .ok c) : start.distanceTo finish < curveLength c := by
  unfold normalizeBulge at h
  dsimp only at h
  split at h
  · cases h
  rename_i hchord
  rw [not_or, not_le] at hchord
  obtain ⟨hpos, hbulge⟩ := hchord
  have hfields := CurveFields.checked_ok h
  have hradius : c.radiusMm = some (start.distanceTo finish * (1 + bulge * bulge) / (4 * |bulge|)) := by
    rw [hfields]
  have hsweep : c.sweepDeg = degrees (4 * Real.arctan bulge) := by
    rw [hfields]
  have hne : bulge ≠ 0 := by
    rintro rfl
    exact hbulge (by unfold IsClose; norm_num)
  have habs : 0 < |bulge| := abs_pos.mpr hne
  have hturn : |radians c.sweepDeg| = 4 * Real.arctan |bulge| := by
    rw [hsweep, radians, degrees]
    have hcancel : 4 * Real.arctan bulge * (180 / Real.pi) * (Real.pi / 180) = 4 * Real.arctan bulge := by
      field_simp
    rw [hcancel, abs_mul, abs_of_pos (by norm_num : (0 : ℝ) < 4), abs_arctan]
  have hlength : curveLength c = start.distanceTo finish * ((1 + |bulge| ^ 2) / |bulge| * Real.arctan |bulge|) := by
    rw [curveLength, hradius]
    dsimp only
    rw [hturn, ← abs_mul_abs_self bulge]
    field_simp
  have hone : 1 < (1 + |bulge| ^ 2) / |bulge| * Real.arctan |bulge| := by
    have hfactor : 0 < (1 + |bulge| ^ 2) / |bulge| := by positivity
    have hlt := mul_lt_mul_of_pos_left (arctan_gt habs) hfactor
    have hcancel : (1 + |bulge| ^ 2) / |bulge| * (|bulge| / (1 + |bulge| ^ 2)) = 1 := by
      field_simp
    rwa [hcancel] at hlt
  rw [hlength]
  exact lt_mul_of_one_lt_right hpos hone

/-! ## Segments -/

/-- The edge of a segment is as long as its chord just when it is straight. -/
theorem segmentEdge_length {start finish : Geometry.PolylineVertex} {edge : ContourEdge}
    (h : segmentEdge start finish = .ok edge) :
    start.pointMm.distanceTo finish.pointMm ≤ edge.length ∧
      (start.pointMm.distanceTo finish.pointMm = edge.length ↔ |start.bulge| ≤ 1e-15) := by
  unfold segmentEdge at h
  split at h
  · rename_i hstraight
    cases h
    exact ⟨le_refl _, by simp [ContourEdge.length, hstraight]⟩
  · rename_i hbulge
    cases hcurve : normalizeBulge start.pointMm finish.pointMm start.bulge with
    | error e =>
        rw [hcurve] at h
        cases h
    | ok c =>
        rw [hcurve] at h
        cases h
        have hlonger := normalizeBulge_longer hcurve
        exact ⟨hlonger.le, iff_of_false hlonger.ne hbulge⟩

theorem segmentEdge_straight {start finish : Geometry.PolylineVertex} (h : |start.bulge| ≤ 1e-15) :
    segmentEdge start finish = .ok (.line ⟨start.pointMm, finish.pointMm⟩) := if_pos h

/-- The edges of segments are as long as the chords just when all of them are straight. -/
theorem mapM_segmentEdge_length {segs : List (Geometry.PolylineVertex × Geometry.PolylineVertex)}
    {edges : List ContourEdge} (h : segs.mapM (fun s => segmentEdge s.1 s.2) = .ok edges) :
    (segs.map fun s => s.1.pointMm.distanceTo s.2.pointMm).sum ≤ (edges.map ContourEdge.length).sum ∧
      ((segs.map fun s => s.1.pointMm.distanceTo s.2.pointMm).sum = (edges.map ContourEdge.length).sum ↔
        ∀ s ∈ segs, |s.1.bulge| ≤ 1e-15) := by
  induction segs generalizing edges with
  | nil =>
      cases h
      simp
  | cons s segs ih =>
      rw [List.mapM_cons] at h
      obtain ⟨edge, hedge, h⟩ := bind_ok h
      obtain ⟨rest, hrest, h⟩ := bind_ok h
      cases h
      obtain ⟨hle, heq⟩ := segmentEdge_length hedge
      obtain ⟨hrestle, hresteq⟩ := ih hrest
      rw [List.forall_mem_cons, ← heq, ← hresteq, List.map_cons, List.map_cons, List.sum_cons, List.sum_cons]
      refine ⟨add_le_add hle hrestle, ?_⟩
      constructor
      · intro hsum
        constructor <;> linarith
      · rintro ⟨hfirst, hlater⟩
        rw [hfirst, hlater]

theorem mapM_segmentEdge_straight {segs : List (Geometry.PolylineVertex × Geometry.PolylineVertex)}
    (h : ∀ s ∈ segs, |s.1.bulge| ≤ 1e-15) :
    ∃ edges, segs.mapM (fun s => segmentEdge s.1 s.2) = .ok edges := by
  induction segs with
  | nil => exact ⟨[], rfl⟩
  | cons s segs ih =>
      obtain ⟨hfirst, hlater⟩ := List.forall_mem_cons.mp h
      obtain ⟨rest, hrest⟩ := ih hlater
      rw [List.mapM_cons, segmentEdge_straight hfirst, hrest]
      exact ⟨_, rfl⟩

/-! ## Polylines -/

/-- Both paths go through the same segments. -/
theorem segments_points (vertices : List Geometry.PolylineVertex) (closed : Bool)
    (h : 2 ≤ (vertices.map Geometry.PolylineVertex.pointMm).length) :
    (Polyline2D.mk (vertices.map Geometry.PolylineVertex.pointMm) closed h).segments =
      (segments vertices closed).map (fun s => (s.1.pointMm, s.2.pointMm)) := by
  cases vertices with
  | nil => rfl
  | cons first rest =>
      have hzip : ∀ l l' : List Geometry.PolylineVertex,
          (l.zip l').map (fun s => (s.1.pointMm, s.2.pointMm)) =
            (l.map Geometry.PolylineVertex.pointMm).zip (l'.map Geometry.PolylineVertex.pointMm) := by
        intro l l'
        rw [List.zip_map, Prod.map_def]
      cases closed with
      | false => simp [Polyline2D.segments, segments, hzip]
      | true => simp [Polyline2D.segments, segments, hzip]

theorem boundaryEdges_polyline (entityRef : String) (vertices : List Drawing.PolylineVertex) (closed : Bool) :
    boundaryEdges entityRef (.polyline vertices closed) =
      ((segments (vertices.map boundaryVertex) closed).mapM fun s => segmentEdge s.1 s.2).map
        (fun edges => (edges.map (fun edge => ⟨edge, entityRef⟩), false)) := by
  unfold boundaryEdges boundaryGeometry entityEdges
  dsimp only
  cases (segments (vertices.map boundaryVertex) closed).mapM (fun s => segmentEdge s.1 s.2) <;> rfl

theorem entityLength_polyline (vertices : List Drawing.PolylineVertex) (closed : Bool) (h : 2 ≤ vertices.length) :
    entityLength (.polyline vertices closed) = .ok (some
      ((segments (vertices.map boundaryVertex) closed).map fun s => s.1.pointMm.distanceTo s.2.pointMm).sum) := by
  have hpoints : vertices.map (fun vertex => point vertex.pointMm) =
      (vertices.map boundaryVertex).map Geometry.PolylineVertex.pointMm := by
    rw [List.map_map]
    rfl
  have hlength : 2 ≤ ((vertices.map boundaryVertex).map Geometry.PolylineVertex.pointMm).length := by simpa using h
  have hchecked : Polyline2D.checked ((vertices.map boundaryVertex).map Geometry.PolylineVertex.pointMm) closed =
    .ok ⟨(vertices.map boundaryVertex).map Geometry.PolylineVertex.pointMm, closed, hlength⟩ := dif_pos hlength
  rw [entityLength, hpoints, hchecked]
  change Except.ok (some (Polyline2D.perimeter _)) = _
  rw [Polyline2D.perimeter, segments_points _ _ hlength, List.map_map]
  rfl

/-- A polyline is as long as its edges just when it has two vertices and no segment of it bulges. -/
theorem polyline_lengths_agree_iff (entityRef : String) (vertices : List Drawing.PolylineVertex) (closed : Bool) :
    (∃ length edges, entityLength (.polyline vertices closed) = .ok (some length) ∧
      boundaryEdges entityRef (.polyline vertices closed) = .ok (edges, false) ∧
      length = (edges.map fun record => record.edge.length).sum) ↔
    2 ≤ vertices.length ∧ ∀ s ∈ segments (vertices.map boundaryVertex) closed, |s.1.bulge| ≤ 1e-15 := by
  constructor
  · rintro ⟨length, records, hlength, hrecords, hsum⟩
    have htwo : 2 ≤ vertices.length := by
      by_contra hfew
      have hchecked : Polyline2D.checked (vertices.map fun vertex => point vertex.pointMm) closed =
        .error _ := dif_neg (by simpa using hfew)
      rw [entityLength, hchecked] at hlength
      cases hlength
    refine ⟨htwo, ?_⟩
    rw [entityLength_polyline vertices closed htwo] at hlength
    rw [boundaryEdges_polyline] at hrecords
    cases hedges : (segments (vertices.map boundaryVertex) closed).mapM (fun s => segmentEdge s.1 s.2) with
    | error e =>
        rw [hedges] at hrecords
        cases hrecords
    | ok edges =>
        rw [hedges] at hrecords
        cases hlength
        cases hrecords
        rw [List.map_map] at hsum
        exact (mapM_segmentEdge_length hedges).2.mp hsum
  · rintro ⟨htwo, hstraight⟩
    obtain ⟨edges, hedges⟩ := mapM_segmentEdge_straight hstraight
    refine ⟨_, edges.map (fun edge => ⟨edge, entityRef⟩), entityLength_polyline vertices closed htwo, ?_, ?_⟩
    · rw [boundaryEdges_polyline, hedges]
      rfl
    · rw [List.map_map]
      exact (mapM_segmentEdge_length hedges).2.mpr hstraight

/-- A half circle over a chord of one millimetre. -/
def halfCircle : List Drawing.PolylineVertex := [⟨(0, 0), 1⟩, ⟨(1, 0), 0⟩]

/-- A declared half circle counts less than the edge that is cut. -/
theorem half_circle_counts_less : ¬ ∀ (entityRef : String) (vertices : List Drawing.PolylineVertex) (closed : Bool)
    (length : ℝ) (edges : List EdgeRecord), entityLength (.polyline vertices closed) = .ok (some length) →
      boundaryEdges entityRef (.polyline vertices closed) = .ok (edges, false) →
      length = (edges.map fun record => record.edge.length).sum := by
  intro h
  have hchord : 0 < (Point2D.mk 0 0).distanceTo ⟨1, 0⟩ := by
    unfold Point2D.distanceTo
    norm_num
  have hbulge : ¬ IsClose 1 0 1e-15 := by
    unfold IsClose
    norm_num
  obtain ⟨c, hc⟩ := normalizeBulge_isOk hchord hbulge
  have hedge : segmentEdge ⟨⟨0, 0⟩, 1⟩ ⟨⟨1, 0⟩, 0⟩ = .ok (.curve c) := by
    unfold segmentEdge
    rw [if_neg (by norm_num)]
    dsimp only
    rw [hc]
    rfl
  have hedges : boundaryEdges "e" (.polyline halfCircle false) = .ok ([⟨.curve c, "e"⟩], false) := by
    rw [boundaryEdges_polyline]
    have hmap : (segments (halfCircle.map boundaryVertex) false).mapM (fun s => segmentEdge s.1 s.2) =
        .ok [.curve c] := by
      change [(Geometry.PolylineVertex.mk ⟨0, 0⟩ 1, Geometry.PolylineVertex.mk ⟨1, 0⟩ 0)].mapM _ = _
      rw [List.mapM_cons, hedge]
      rfl
    rw [hmap]
    rfl
  have hsum := h "e" halfCircle false _ _ (entityLength_polyline halfCircle false (by simp [halfCircle])) hedges
  have hlonger := normalizeBulge_longer hc
  have hchords : ((segments (halfCircle.map boundaryVertex) false).map fun s =>
      s.1.pointMm.distanceTo s.2.pointMm).sum = (Point2D.mk 0 0).distanceTo ⟨1, 0⟩ := by
    simp [segments, halfCircle, boundaryVertex, point]
  rw [hchords, List.map_singleton, List.sum_singleton] at hsum
  exact hlonger.ne hsum

end

end CadHarness.Takeoff
