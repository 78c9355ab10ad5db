import CadHarness.Comprehension.RingTheorems
import CadHarness.Geometry.ContainmentTheorems
import CadHarness.Geometry.AreaTheorems
import CadHarness.Geometry.PolylineTheorems
import CadHarness.Lib.Fallible

/-!
# Recognized patterns and their holes

The holes of a pattern that a drawing is reported to have, and those that its parameters generate.
-/

namespace CadHarness.Comprehension
open CadHarness.Geometry CadHarness.Lib

noncomputable section
open Classical

variable (tolerance : ToleranceProfile) (entities : List EntityRecord)

/-- The circles that a feature names. -/
def members (feature : RecognizedFeature) : List CircleDatum := feature.entityRefs.filterMap (circleByRef entities)

/-- The parameters generate the centers of the members again, one to one. -/
def Regenerates (feature : RecognizedFeature) : Prop := ∃ points, feature.generatedCenters = .ok points ∧
  Matches tolerance ((members entities feature).map CircleDatum.center) points

/-- The spacing that a pattern needs: even columns and rows, or even ranks. -/
def IsEven (feature : RecognizedFeature) : Prop :=
  match feature.featureType with
  | .circularHole => True
  | .rectangularHolePattern => OnEvenGrid tolerance (members entities feature)
  | .boltCirclePattern => OnEvenRing tolerance (members entities feature)

/-- Rings whose places lie further apart than twice the tolerance. Grids always do. -/
def IsSpread (feature : RecognizedFeature) : Prop :=
  feature.featureType = .boltCirclePattern → IsSparse tolerance (members entities feature)

/-- The features of a report, those of ambiguous groups with them. -/
def RecognitionReport.reported (report : RecognitionReport) : List RecognizedFeature :=
  report.features ++ report.ambiguousGroups.flatten

/-! ## Groups of circles -/

variable {tolerance entities}

theorem joinGroup_subset {circle : CircleDatum} {groups : List (List CircleDatum)} :
    ∀ group ∈ joinGroup tolerance circle groups, ∀ hole ∈ group, hole = circle ∨ ∃ g ∈ groups, hole ∈ g := by
  induction groups with
  | nil => simp [joinGroup]
  | cons first rest ih =>
      intro group hgroup hole hhole
      rw [joinGroup] at hgroup
      split at hgroup
      · cases hgroup with
        | head =>
            rcases List.mem_append.mp hhole with hold | hnew
            · exact .inr ⟨first, List.mem_cons_self, hold⟩
            · exact .inl (List.mem_singleton.mp hnew)
        | tail _ hrest => exact .inr ⟨group, List.mem_cons_of_mem _ hrest, hhole⟩
      · cases hgroup with
        | head => exact .inr ⟨first, List.mem_cons_self, hhole⟩
        | tail _ hrest =>
            rcases ih group hrest hole hhole with heq | ⟨g, hg, hmem⟩
            · exact .inl heq
            · exact .inr ⟨g, List.mem_cons_of_mem _ hg, hmem⟩

theorem sameRadiusGroups_subset {circles : List CircleDatum} :
    ∀ group ∈ sameRadiusGroups tolerance circles, ∀ hole ∈ group, hole ∈ circles := by
  have hfold (pending : List CircleDatum) : ∀ groups : List (List CircleDatum),
      (∀ g ∈ groups, ∀ hole ∈ g, hole ∈ circles) → (∀ hole ∈ pending, hole ∈ circles) →
      ∀ g ∈ pending.foldl (fun groups circle => joinGroup tolerance circle groups) groups, ∀ hole ∈ g, hole ∈ circles := by
    induction pending with
    | nil => exact fun groups hgroups _ => hgroups
    | cons circle rest ih =>
        intro groups hgroups hpending
        refine ih _ (fun g hg hole hhole => ?_) fun hole hhole => hpending hole (List.mem_cons_of_mem _ hhole)
        rcases joinGroup_subset g hg hole hhole with rfl | ⟨g', hg', hmem⟩
        · exact hpending _ List.mem_cons_self
        · exact hgroups g' hg' hole hmem
  exact hfold circles [] (by simp) fun _ h => h

theorem circleByRef_ref {ref : String} {circle : CircleDatum} (h : circleByRef entities ref = some circle) :
    circle.entityRef = ref := by
  have := List.find?_some h
  simpa using this

theorem rootedHoles_named {analysis : ContourAnalysis} {forest : ContourForest} :
    ∀ hole ∈ rootedHoles entities analysis forest, circleByRef entities hole.2.entityRef = some hole.2 := by
  intro hole hhole
  obtain ⟨entry, -, hentry⟩ := List.mem_filterMap.mp hhole
  split at hentry
  · obtain ⟨circle, hcircle, rfl⟩ := Option.map_eq_some_iff.mp hentry
    obtain ⟨ref, -, hfound⟩ := Option.bind_eq_some_iff.mp hcircle
    dsimp only
    rw [circleByRef_ref hfound, hfound]
  · cases hentry

/-- The way to a root ends there. -/
theorem rootIndex_root {forest : ContourForest} {contours : List Geometry.Contour} {areas : List ℝ} {polylines : List Polyline2D}
    (h : forest.BuiltFrom contours tolerance areas polylines) {i : Nat} (hi : i < forest.nodes.length) :
    forest.nodes[rootIndex forest forest.nodes.length i]?.bind ContourNode.parentIndex = none := by
  have hparent {i : Nat} (hi : i < forest.nodes.length) : forest.nodes[i]?.bind ContourNode.parentIndex =
      (ContourForest.parentsOf areas polylines tolerance).getD i none := by
    rw [List.getElem?_eq_getElem hi, ← h.parent_eq ⟨i, hi⟩]
    rfl
  have hgrow := h.length_eq ▸ parentsOf_grow areas polylines tolerance
  have hway (steps : Nat) : ∀ i < forest.nodes.length, rank areas forest.nodes.length i ≤ steps →
      forest.nodes[rootIndex forest steps i]?.bind ContourNode.parentIndex = none := by
    induction steps with
    | zero => exact fun i hi hrank => absurd (rank_pos hi) (not_lt.mpr hrank)
    | succ steps ih =>
        intro i hi hrank
        rw [rootIndex]
        split
        · assumption
        · next parent hsome =>
          rw [hparent hi] at hsome
          obtain ⟨hlt, harea⟩ := hgrow i parent hsome
          exact ih parent hlt (Nat.le_of_lt_succ ((rank_lt hi harea).trans_le hrank))
  exact hway _ i hi rank_le

theorem circlesByRoot_subset {holes : List (Nat × CircleDatum)} :
    ∀ circles ∈ circlesByRoot holes, ∀ circle ∈ circles, ∃ root, (root, circle) ∈ holes := by
  intro circles hcircles circle hcircle
  obtain ⟨root, -, rfl⟩ := List.mem_map.mp hcircles
  obtain ⟨hole, hhole, rfl⟩ := List.mem_map.mp hcircle
  exact ⟨hole.1, (List.mem_filter.mp hhole).1⟩

/-- A pattern that is reported comes from a group of circles, which it names. -/
theorem reported_candidate {report : RecognitionReport} (h : recognize tolerance entities = .ok report)
    {made : RecognizedFeature} (hmade : made ∈ report.reported) (htype : made.featureType ≠ .circularHole) :
    ∃ group, made ∈ candidates tolerance group ∧ ∀ hole ∈ group, circleByRef entities hole.entityRef = some hole := by
  unfold recognize at h
  obtain ⟨⟨analysis, forest⟩, -, h⟩ := Fallible.bind_eq_ok.mp h
  obtain ⟨rfl⟩ := h
  set roots := circlesByRoot (rootedHoles entities analysis forest) with hroots
  set found := (roots.flatMap (sameRadiusGroups tolerance)).map (candidates tolerance) with hfound
  have hcandidates : ∃ made' ∈ found, made ∈ made' := by
    rcases List.mem_append.mp hmade with hfeature | hambiguous
    · rcases List.mem_append.mp hfeature with hcircle | hsingle
      · obtain ⟨circle, -, rfl⟩ := List.mem_map.mp hcircle
        exact absurd rfl htype
      · obtain ⟨made', hmade', hmem⟩ := List.mem_flatten.mp hsingle
        exact ⟨made', (List.mem_filter.mp hmade').1, hmem⟩
    · obtain ⟨made', hmade', hmem⟩ := List.mem_flatten.mp hambiguous
      exact ⟨made', (List.mem_filter.mp hmade').1, hmem⟩
  obtain ⟨made', hmade', hmem⟩ := hcandidates
  obtain ⟨group, hgroup, rfl⟩ := List.mem_map.mp hmade'
  obtain ⟨circles, hcircles, hgroup⟩ := List.mem_flatMap.mp hgroup
  refine ⟨group, hmem, fun hole hhole => ?_⟩
  obtain ⟨root, hroot⟩ := circlesByRoot_subset circles hcircles hole (sameRadiusGroups_subset group hgroup hole hhole)
  exact rootedHoles_named _ hroot

theorem members_group {group : List CircleDatum} {made : RecognizedFeature}
    (hrefs : made.entityRefs = group.map CircleDatum.entityRef)
    (hnamed : ∀ hole ∈ group, circleByRef entities hole.entityRef = some hole) : members entities made = group := by
  rw [members, hrefs, List.filterMap_map]
  calc group.filterMap (circleByRef entities ∘ CircleDatum.entityRef)
      = group.filterMap some := List.filterMap_congr hnamed
    _ = group := List.filterMap_some

/-- A reported pattern comes again if it is even. A grid that comes again is even, and a ring as well whose places lie
further apart than the tolerance. -/
theorem recognize_regenerates_iff {report : RecognitionReport} (h : recognize tolerance entities = .ok report)
    {made : RecognizedFeature} (hmade : made ∈ report.reported) (htype : made.featureType ≠ .circularHole) :
    (IsEven tolerance entities made → Regenerates tolerance entities made) ∧
      (IsSpread tolerance entities made → (Regenerates tolerance entities made ↔ IsEven tolerance entities made)) := by
  obtain ⟨group, hgroup, hnamed⟩ := reported_candidate h hmade htype
  rcases List.mem_append.mp hgroup with hgrid | hring
  · obtain ⟨hgrid, hkind, hrefs, hgenerated⟩ := rectangularPattern_some (Option.mem_toList.mp hgrid)
    have hiff : Regenerates tolerance entities made ↔ IsEven tolerance entities made := by
      rw [Regenerates, IsEven, hkind, members_group hrefs hnamed, hgenerated]
      simpa using hgrid.matches_iff
    exact ⟨hiff.mpr, fun _ => hiff⟩
  · obtain ⟨hlength, hgap, hkind, hrefs, hgenerated⟩ := boltPattern_some (Option.mem_toList.mp hring)
    have heven : IsEven tolerance entities made ↔ OnEvenRing tolerance group := by
      rw [IsEven, hkind, members_group hrefs hnamed]
    have hagain : IsEven tolerance entities made → Regenerates tolerance entities made := by
      intro hring
      rw [heven] at hring
      rw [Regenerates, members_group hrefs hnamed, hgenerated, boltCircle_places hring.1 (by omega)]
      exact ⟨_, rfl, hring.matches hgap⟩
    refine ⟨hagain, fun hspread => ⟨fun hregenerates => ?_, hagain⟩⟩
    obtain ⟨points, hpoints, hmatches⟩ := hregenerates
    rw [hgenerated] at hpoints
    rw [members_group hrefs hnamed] at hmatches
    have hsparse : IsSparse tolerance group := by
      rw [← members_group hrefs hnamed]
      exact hspread hkind
    have hpos : 0 < pitchRadius group := by
      by_contra hflat
      exact boltCircle_flat hflat hpoints
    rw [boltCircle_places hpos (by omega)] at hpoints
    cases hpoints
    exact heven.mpr (onEvenRing_of_matches hgap hpos hlength hsparse hmatches)

/-! ## A plate with uneven columns -/

theorem fullTurn_sweep : 0 < |(360 : ℝ)| ∧ |(360 : ℝ)| ≤ 360 := by
  norm_num

theorem roundHole_shape (center : Point2D) : CurveFields.Shape
    { kind := .circle, center, startAngleDeg := 0, sweepDeg := 360, radiusMm := some 2 } :=
  .circular 2 rfl two_pos rfl rfl

/-- A circle of radius two. -/
def roundHole (center : Point2D) : CurveParams where
  kind := .circle
  center := center
  startAngleDeg := 0
  sweepDeg := 360
  radiusMm := some 2
  sweep_ne := fullTurn_sweep.1
  sweep_le := fullTurn_sweep.2
  shape := roundHole_shape center

theorem normalizeCircle_roundHole (center : Point2D) : normalizeCircle center 2 = .ok (roundHole center) := by
  unfold normalizeCircle CurveFields.checked
  rw [dif_pos fullTurn_sweep]
  exact dif_pos two_pos

def holeContour (ref : String) (center : Point2D) : AssembledContour := circleContour ⟨.curve (roundHole center), ref⟩

theorem roundHole_pointAt (center : Point2D) (t : ℝ) :
    |((roundHole center).pointAt t).x - center.x| ≤ 2 ∧ |((roundHole center).pointAt t).y - center.y| ≤ 2 := by
  have hbound {c : ℝ} (hc : |c| ≤ 1) : |2 * c| ≤ 2 := by
    rw [abs_mul, abs_two]
    linarith
  constructor
  · rw [CurveParams.pointAt, roundHole, add_sub_cancel_left]
    exact hbound (Real.abs_cos_le_one _)
  · rw [CurveParams.pointAt, roundHole, add_sub_cancel_left]
    exact hbound (Real.abs_sin_le_one _)

theorem roundHole_closed (center : Point2D) : (roundHole center).endPoint = (roundHole center).startPoint := by
  have hturn : radians (0 + 360 * 1) = radians (0 + 360 * 0) + 2 * Real.pi := by
    rw [radians, radians]
    ring
  rw [CurveParams.endPoint, CurveParams.startPoint, CurveParams.pointAt, CurveParams.pointAt]
  simp only [roundHole]
  rw [hturn, Real.cos_add_two_pi, Real.sin_add_two_pi]

theorem holeContour_area (ref : String) (center : Point2D) :
    Geometry.Contour.area (.curves (holeContour ref center).contour) = .ok (4 * Real.pi) := by
  have harea : (ContourEdge.curve (roundHole center)).signedArea = 4 * Real.pi := by
    rw [ContourEdge.signedArea_curve, roundHole_closed, sub_self]
    simp only [CurveParams.axisProduct, roundHole, radians_full]
    ring
  rw [Geometry.Contour.area, signedContourArea, CurveContour.signedArea]
  simp only [holeContour, circleContour, List.map_cons, List.map_nil, List.sum_cons, List.sum_nil, add_zero, harea]
  exact congrArg Except.ok (abs_of_pos (by positivity))

theorem dropClosing_subset {points : List Point2D} {chordTolerance : ℝ} :
    ∀ v ∈ dropClosing points chordTolerance, v ∈ points := by
  intro v hv
  unfold dropClosing at hv
  split at hv
  · split at hv
    · exact List.mem_of_mem_dropLast hv
    · exact hv
  · exact hv

/-- The polygon of a hole lies in a square around it. -/
theorem holeContour_polygon (ref : String) (center : Point2D) : ∃ polygon : Polyline2D,
    asPolyline {} (.curves (holeContour ref center).contour) = .ok polygon ∧ polygon.closed = true ∧
      ∀ v ∈ polygon.vertices, |v.x - center.x| ≤ 2 ∧ |v.y - center.y| ≤ 2 := by
  obtain ⟨points, hpoints, hlength⟩ := @linearizeCurve_circle (ToleranceProfile.arcChordToleranceMm {}) (by norm_num)
    center 2 _ (normalizeCircle_roundHole center)
  have hvertices : (holeContour ref center).contour.vertices (ToleranceProfile.arcChordToleranceMm {}) =
      .ok (dropClosing points (ToleranceProfile.arcChordToleranceMm {})) := by
    have hmap : (holeContour ref center).contour.edges.mapM
        (ContourEdge.points (ToleranceProfile.arcChordToleranceMm {})) = .ok [points] :=
      Fallible.mapM_ok (g := fun _ => points) (List.forall_mem_singleton.mpr hpoints)
    rw [CurveContour.vertices, hmap, Fallible.ok_bind, joinPoints, if_pos rfl, joinPoints]
    rfl
  have htwo : 2 ≤ (dropClosing points (ToleranceProfile.arcChordToleranceMm {})).length := by
    have := @dropClosing_length (ToleranceProfile.arcChordToleranceMm {}) points
    omega
  refine ⟨⟨_, true, htwo⟩, ?_, rfl, ?_⟩
  · rw [asPolyline, hvertices, Fallible.ok_bind, Polyline2D.checked, dif_pos htwo]
  · intro v hv
    have hmem : v ∈ points := dropClosing_subset v hv
    unfold linearizeCurve at hpoints
    obtain ⟨count, -, hpoints⟩ := Fallible.bind_eq_ok.mp hpoints
    obtain ⟨rfl⟩ := hpoints
    obtain ⟨k, -, rfl⟩ := List.mem_map.mp hmem
    exact roundHole_pointAt center _

/-- The corners of the plate. -/
def corners : List Point2D := [⟨0, 0⟩, ⟨40, 0⟩, ⟨40, 20⟩, ⟨0, 20⟩]

theorem corners_two_le : 2 ≤ corners.length := by decide

def outlinePolygon : Polyline2D := ⟨corners, true, corners_two_le⟩

theorem outlinePolygon_segments : outlinePolygon.segments =
    [(⟨0, 0⟩, ⟨40, 0⟩), (⟨40, 0⟩, ⟨40, 20⟩), (⟨40, 20⟩, ⟨0, 20⟩), (⟨0, 20⟩, ⟨0, 0⟩)] := rfl

theorem outlinePolygon_contains {p : Point2D} (hx : 0 < p.x ∧ p.x < 40) (hy : 0 < p.y ∧ p.y < 20) :
    ContainsPoint outlinePolygon p {} := by
  rw [containsPoint_iff]
  refine .inr ?_
  rw [parity, outlinePolygon_segments]
  simp [RayCrosses, hx.1.le, hx.2, hy.1.le, hy.2]

/-- The holes that the plate has room for lie in its outline. -/
theorem outlinePolygon_containsContour {polygon : Polyline2D} {center : Point2D} (hclosed : polygon.closed = true)
    (hx : 2 < center.x ∧ center.x < 38) (hy : 2 < center.y ∧ center.y < 18)
    (h : ∀ v ∈ polygon.vertices, |v.x - center.x| ≤ 2 ∧ |v.y - center.y| ≤ 2) :
    ContainsContour outlinePolygon polygon {} := by
  rw [containsContour_iff rfl hclosed]
  have hinside {p : Point2D} (hp : |p.x - center.x| ≤ 2 ∧ |p.y - center.y| ≤ 2) : ContainsPoint outlinePolygon p {} := by
    rw [abs_le, abs_le] at hp
    exact outlinePolygon_contains ⟨by linarith, by linarith⟩ ⟨by linarith, by linarith⟩
  intro p hp
  rcases List.mem_append.mp hp with hvertex | hmiddle
  · exact hinside (h p hvertex)
  · obtain ⟨s, hs, rfl⟩ := List.mem_map.mp hmiddle
    obtain ⟨hstart, hend⟩ := Polyline2D.endpoints_mem hs
    have hstart := h _ hstart
    have hend := h _ hend
    rw [abs_le, abs_le] at hstart hend
    refine hinside ⟨abs_le.mpr ⟨?_, ?_⟩, abs_le.mpr ⟨?_, ?_⟩⟩ <;> dsimp only <;> linarith

def outlineEdges : List EdgeRecord :=
  [⟨.line ⟨⟨0, 0⟩, ⟨40, 0⟩⟩, "L1"⟩, ⟨.line ⟨⟨40, 0⟩, ⟨40, 20⟩⟩, "L2"⟩, ⟨.line ⟨⟨40, 20⟩, ⟨0, 20⟩⟩, "L3"⟩,
    ⟨.line ⟨⟨0, 20⟩, ⟨0, 0⟩⟩, "L4"⟩]

theorem outlineEdges_ne : outlineEdges ≠ [] := List.cons_ne_nil _ _

def outline : Chain := ⟨outlineEdges, outlineEdges_ne⟩

def outlineVertices : List PolylineVertex := [⟨⟨0, 0⟩, 0⟩, ⟨⟨40, 0⟩, 0⟩, ⟨⟨40, 20⟩, 0⟩, ⟨⟨0, 20⟩, 0⟩]

theorem outlineVertices_apart : outlineVertices.Pairwise fun v w =>
    ¬ ToleranceProfile.IsCoincident {} (v.pointMm.distanceTo w.pointMm) := by
  have hx {p q : Point2D} (h : 1 ≤ |p.x - q.x|) : ¬ ToleranceProfile.IsCoincident {} (p.distanceTo q) := by
    intro hle
    have := (h.trans (Point2D.abs_x_sub_le p q)).trans hle
    norm_num at this
  have hy {p q : Point2D} (h : 1 ≤ |p.y - q.y|) : ¬ ToleranceProfile.IsCoincident {} (p.distanceTo q) := by
    intro hle
    have := (h.trans (Point2D.abs_y_sub_le p q)).trans hle
    norm_num at this
  simp only [outlineVertices, List.pairwise_cons, List.mem_cons, List.not_mem_nil, or_false, forall_eq_or_imp, forall_eq,
    List.Pairwise.nil, and_true, false_implies, implies_true]
  refine ⟨⟨hx ?_, hx ?_, hy ?_⟩, ⟨hy ?_, hx ?_⟩, hx ?_⟩ <;> norm_num

theorem outline_traced : traceChains {} outlineEdges = ([outline], []) := by
  have hspans : List.Forall₂ Spans (segments outlineVertices true) outlineEdges := by
    refine .cons ⟨rfl, rfl⟩ (.cons ⟨rfl, rfl⟩ (.cons ⟨rfl, rfl⟩ (.cons ⟨rfl, rfl⟩ .nil)))
  obtain ⟨hedges, hrest, hclosed⟩ := @traceChain_polyline {} outlineEdges.tail (by norm_num) outlineVertices
    ⟨.line ⟨⟨0, 0⟩, ⟨40, 0⟩⟩, "L1"⟩ [] (by simp [outlineVertices]) outlineVertices_apart hspans
  rw [List.append_nil] at hedges hrest hclosed
  have htraced : traceChain {} ⟨.line ⟨⟨0, 0⟩, ⟨40, 0⟩⟩, "L1"⟩ outlineEdges.tail = (outline, []) := by
    refine Prod.ext ?_ hrest
    exact (Chain.mk.injEq _ _ _ _).mpr hedges
  rw [htraced] at hclosed
  rw [show outlineEdges = ⟨.line ⟨⟨0, 0⟩, ⟨40, 0⟩⟩, "L1"⟩ :: outlineEdges.tail from rfl, traceChains, htraced]
  simp only [traceChains, if_pos hclosed]

theorem outline_area : Geometry.Contour.area (.curves outline.assembled.contour) = .ok 800 := by
  have hsum : outline.assembled.contour.signedArea = 800 := by
    simp [CurveContour.signedArea, Chain.assembled, outline, outlineEdges, ContourEdge.signedArea, Geometry.crossProduct]
    norm_num
  rw [Geometry.Contour.area, signedContourArea, hsum]
  exact congrArg Except.ok (abs_of_pos (by norm_num))

theorem outline_polygon : asPolyline {} (.curves outline.assembled.contour) = .ok outlinePolygon := by
  have hmap : outline.assembled.contour.edges.mapM (ContourEdge.points (ToleranceProfile.arcChordToleranceMm {})) =
      .ok [[⟨0, 0⟩, ⟨40, 0⟩], [⟨40, 0⟩, ⟨40, 20⟩], [⟨40, 20⟩, ⟨0, 20⟩], [⟨0, 20⟩, ⟨0, 0⟩]] := rfl
  have hvertices : outline.assembled.contour.vertices (ToleranceProfile.arcChordToleranceMm {}) = .ok corners := by
    rw [CurveContour.vertices, hmap, Fallible.ok_bind]
    simp [joinPoints, dropClosing, corners]
    norm_num
  rw [asPolyline, hvertices]
  rfl

/-- Six holes in three columns, which are ten and twenty apart. -/
def unevenHoles : List CircleDatum :=
  [⟨"H1", ⟨5, 5⟩, 2⟩, ⟨"H2", ⟨15, 5⟩, 2⟩, ⟨"H3", ⟨35, 5⟩, 2⟩, ⟨"H4", ⟨5, 15⟩, 2⟩, ⟨"H5", ⟨15, 15⟩, 2⟩, ⟨"H6", ⟨35, 15⟩, 2⟩]

def unevenPlate : List EntityRecord :=
  [⟨"L1", .line ⟨0, 0⟩ ⟨40, 0⟩⟩, ⟨"L2", .line ⟨40, 0⟩ ⟨40, 20⟩⟩, ⟨"L3", .line ⟨40, 20⟩ ⟨0, 20⟩⟩,
    ⟨"L4", .line ⟨0, 20⟩ ⟨0, 0⟩⟩] ++ unevenHoles.map fun hole => ⟨hole.entityRef, .circle hole.center 2⟩

theorem unevenPlate_edges : modelEdges unevenPlate =
    .ok (outlineEdges, unevenHoles.map fun hole => ⟨.curve (roundHole hole.center), hole.entityRef⟩) := by
  have hcircle (ref : String) (center : Point2D) : entityEdges ⟨ref, .circle center 2⟩ =
      .ok ([⟨.curve (roundHole center), ref⟩], true) := by
    unfold entityEdges
    dsimp only
    rw [normalizeCircle_roundHole]
    rfl
  simp only [modelEdges, unevenPlate, unevenHoles, List.map_cons, List.map_nil, List.cons_append, List.nil_append,
    List.mapM_cons, List.mapM_nil, hcircle]
  rfl

theorem unevenPlate_analysis : analyzeContours {} unevenPlate =
    .ok ⟨unevenHoles.map (fun hole => holeContour hole.entityRef hole.center) ++ [outline.assembled], []⟩ := by
  rw [analyzeContours, unevenPlate_edges, Fallible.ok_bind]
  dsimp only
  rw [outline_traced, List.map_map]
  rfl

/-- The contours of the plate: the holes, and the outline last. -/
def plateContours : List Geometry.Contour :=
  (unevenHoles.map fun hole => .curves (holeContour hole.entityRef hole.center).contour) ++
    [.curves outline.assembled.contour]

def plateAreas : List ℝ := List.replicate 6 (4 * Real.pi) ++ [800]

theorem plateContours_areas : plateContours.mapM Geometry.Contour.area = .ok plateAreas := by
  rw [Fallible.mapM_eq_ok]
  exact .cons (holeContour_area _ _) (.cons (holeContour_area _ _) (.cons (holeContour_area _ _)
    (.cons (holeContour_area _ _) (.cons (holeContour_area _ _) (.cons (holeContour_area _ _)
      (.cons outline_area .nil))))))

theorem plateAreas_hole {i : Nat} (hi : i < 6) : plateAreas.getD i 0 = 4 * Real.pi := by
  rw [plateAreas, List.getD_eq_getElem?_getD, List.getElem?_append_left (by simpa using hi),
    List.getElem?_replicate, if_pos hi, Option.getD_some]

theorem plateAreas_outline : plateAreas.getD 6 0 = 800 := by
  simp [plateAreas]

/-- The parents in the plate: the outline for each hole. -/
theorem plate_parents {polygons : List Polyline2D} (hlength : polygons.length = 7)
    (hcontains : ∀ i < 6, ContainsContour outlinePolygon (polygons.getD i outlinePolygon) {})
    (houtline : polygons[6]? = some outlinePolygon) (i : Nat) :
    (ContourForest.parentsOf plateAreas polygons {}).getD i none = if i < 6 then some 6 else none := by
  have hsmall : 4 * Real.pi < 800 := by linarith [Real.pi_le_four]
  have harea {p : Nat} (hp : p < 7) : plateAreas.getD p 0 ≤ 800 ∧ (plateAreas.getD p 0 = 800 → p = 6) ∧
      (p < 6 → plateAreas.getD p 0 = 4 * Real.pi) := by
    rcases Nat.lt_or_ge p 6 with h | h
    · rw [plateAreas_hole h]
      exact ⟨hsmall.le, fun heq => absurd heq hsmall.ne, fun _ => rfl⟩
    · obtain rfl : p = 6 := by omega
      rw [plateAreas_outline]
      exact ⟨le_refl _, fun _ => rfl, fun hlt => absurd hlt (lt_irrefl _)⟩
  have hlarger {p : Nat} (h : Inside plateAreas polygons {} i p) : p = 6 ∧ i < 6 := by
    have hlt := h.area_lt
    obtain ⟨child, parent, hi, hp, -⟩ := h
    have hi := hlength ▸ (List.getElem?_eq_some_iff.mp hi).1
    have hp := hlength ▸ (List.getElem?_eq_some_iff.mp hp).1
    constructor
    · by_contra hne
      rw [(harea hp).2.2 (by omega)] at hlt
      rcases Nat.lt_or_ge i 6 with h | h
      · rw [(harea hi).2.2 h] at hlt
        exact lt_irrefl _ hlt
      · obtain rfl : i = 6 := by omega
        rw [plateAreas_outline] at hlt
        exact absurd hlt hsmall.not_gt
    · by_contra hge
      obtain rfl : i = 6 := by omega
      rw [plateAreas_outline] at hlt
      exact absurd hlt (not_lt.mpr (harea hp).1)
  cases hparent : (ContourForest.parentsOf plateAreas polygons {}).getD i none with
  | some p =>
      obtain ⟨rfl, hi⟩ := hlarger (parentsOf_some hparent).1
      rw [if_pos hi]
  | none =>
      rw [if_neg]
      intro hi
      refine parentsOf_none hparent 6 ⟨polygons.getD i outlinePolygon, outlinePolygon, ?_, houtline, ?_, hcontains i hi⟩
      · rw [List.getD_eq_getElem?_getD, List.getElem?_eq_getElem (by omega), Option.getD_some]
      · rw [plateAreas_hole hi, plateAreas_outline]
        exact hsmall

/-- The nodes of the forest of the plate. -/
theorem plate_forest : ∃ forest, ContourForest.build plateContours {} = .ok forest ∧
    forest.nodes.map (fun node => (node.parentIndex, node.depth)) = List.replicate 6 (some 6, 1) ++ [(none, 0)] := by
  have hpolygon : ∀ hole : CircleDatum, ∃ polygon : Polyline2D,
      asPolyline {} (.curves (holeContour hole.entityRef hole.center).contour) = .ok polygon ∧ polygon.closed = true ∧
        ∀ v ∈ polygon.vertices, |v.x - hole.center.x| ≤ 2 ∧ |v.y - hole.center.y| ≤ 2 :=
    fun hole => holeContour_polygon hole.entityRef hole.center
  choose polygon hpolygon hclosed hvertices using hpolygon
  set polygons := unevenHoles.map polygon ++ [outlinePolygon] with hpolygons
  have hmap : plateContours.mapM (asPolyline {}) = .ok polygons := by
    rw [Fallible.mapM_eq_ok, plateContours, hpolygons, unevenHoles]
    exact .cons (hpolygon _) (.cons (hpolygon _) (.cons (hpolygon _) (.cons (hpolygon _) (.cons (hpolygon _)
      (.cons (hpolygon _) (.cons outline_polygon .nil))))))
  have hcontains : ∀ hole ∈ unevenHoles, ContainsContour outlinePolygon (polygon hole) {} := by
    intro hole hhole
    refine outlinePolygon_containsContour (hclosed hole) ?_ ?_ (hvertices hole)
    · simp only [unevenHoles, List.mem_cons, List.not_mem_nil, or_false] at hhole
      rcases hhole with rfl | rfl | rfl | rfl | rfl | rfl <;> norm_num
    · simp only [unevenHoles, List.mem_cons, List.not_mem_nil, or_false] at hhole
      rcases hhole with rfl | rfl | rfl | rfl | rfl | rfl <;> norm_num
  have hparents := @plate_parents polygons rfl (by
    intro i hi
    have hi' : i < unevenHoles.length := hi
    rw [hpolygons, List.getD_eq_getElem?_getD, List.getElem?_append_left (by rwa [List.length_map]), List.getElem?_map,
      List.getElem?_eq_getElem hi', Option.map_some, Option.getD_some]
    exact hcontains _ (List.getElem_mem hi')) rfl
  have hopen : ∀ polyline, Geometry.Contour.polyline polyline ∈ plateContours → polyline.closed = true := by
    simp [plateContours]
  obtain ⟨depths, hbuild, hdepth⟩ := ContourForest.build_eq hopen plateContours_areas hmap
  have hdepth := hdepth (fun i => if i < 6 then 1 else 0) (by
    intro i
    rw [hparents]
    by_cases hi : i < 6 <;> simp [hi])
  refine ⟨_, hbuild, ?_⟩
  have hnodes : plateContours.zipIdx.map (fun entry =>
      ((ContourForest.parentsOf plateAreas polygons {}).getD entry.2 none, depths.getD entry.2 0)) =
        plateContours.zipIdx.map (fun entry => (if entry.2 < 6 then some 6 else none, if entry.2 < 6 then 1 else 0)) := by
    refine List.map_congr_left fun entry hentry => ?_
    have hlt := (List.mem_zipIdx hentry).2.1
    rw [hparents, hdepth entry.2 (by omega)]
  rw [List.map_map]
  exact hnodes

theorem plate_analyzed : ∃ forest, analyzeDrawing {} unevenPlate =
      .ok (⟨unevenHoles.map (fun hole => holeContour hole.entityRef hole.center) ++ [outline.assembled], []⟩, forest) ∧
    forest.nodes.map (fun node => (node.parentIndex, node.depth)) = List.replicate 6 (some 6, 1) ++ [(none, 0)] := by
  obtain ⟨forest, hbuild, hnodes⟩ := plate_forest
  refine ⟨forest, ?_, hnodes⟩
  rw [analyzeDrawing, unevenPlate_analysis, Fallible.ok_bind]
  have hcontours : (unevenHoles.map (fun hole => holeContour hole.entityRef hole.center) ++ [outline.assembled]).map
      (fun item : AssembledContour => Geometry.Contour.curves item.contour) = plateContours := rfl
  rw [hcontours, hbuild]
  rfl

theorem circleData_unevenPlate : circleData unevenPlate = unevenHoles := rfl

theorem circleByRef_unevenPlate : ∀ hole ∈ unevenHoles, circleByRef unevenPlate hole.entityRef = some hole := by
  intro hole hhole
  rw [circleByRef, circleData_unevenPlate]
  simp only [unevenHoles, List.mem_cons, List.not_mem_nil, or_false] at hhole
  rcases hhole with rfl | rfl | rfl | rfl | rfl | rfl <;> simp [unevenHoles]

/-- The holes of the plate are those of its outline. -/
theorem plate_holes {forest : ContourForest}
    (hnodes : forest.nodes.map (fun node => (node.parentIndex, node.depth)) = List.replicate 6 (some 6, 1) ++ [(none, 0)]) :
    rootedHoles unevenPlate
        ⟨unevenHoles.map (fun hole => holeContour hole.entityRef hole.center) ++ [outline.assembled], []⟩ forest =
      unevenHoles.map fun hole => (6, hole) := by
  obtain ⟨nodes⟩ := forest
  simp only [List.replicate_succ, List.replicate_zero, List.cons_append, List.nil_append, List.map_eq_cons_iff,
    List.map_eq_nil_iff, Prod.mk.injEq] at hnodes
  obtain ⟨n₀, _, rfl, h₀, n₁, _, rfl, h₁, n₂, _, rfl, h₂, n₃, _, rfl, h₃, n₄, _, rfl, h₄, n₅, _, rfl, h₅, n₆, _, rfl, h₆, rfl⟩ :=
    hnodes
  have hnamed := circleByRef_unevenPlate
  simp only [unevenHoles, List.mem_cons, List.not_mem_nil, or_false, forall_eq_or_imp, forall_eq] at hnamed
  obtain ⟨r₀, r₁, r₂, r₃, r₄, r₅⟩ := hnamed
  simp [rootedHoles, unevenHoles, holeContour, circleContour, Chain.assembled, rootIndex, *]

theorem runs_eq {gap : ℝ} {values : List ℝ} {groups : List (List ℝ)} (hperm : values.Perm groups.flatten)
    (hsorted : groups.flatten.Pairwise (· ≤ ·)) (hne : [] ∉ groups)
    (hwithin : ∀ run ∈ groups, run.IsChain fun a b => decide (|b - a| ≤ gap) = true)
    (hbetween : groups.IsChain fun run run' => ∃ h h', decide (|run'.head h' - run.getLast h| ≤ gap) = false) :
    runs gap values = groups := by
  have hsort : values.insertionSort (· ≤ ·) = groups.flatten :=
    List.Perm.eq_of_pairwise' (List.pairwise_insertionSort _ _) hsorted ((List.perm_insertionSort _ _).trans hperm)
  rw [runs, hsort]
  exact List.splitBy_eq_iff.mpr ⟨rfl, hne, hwithin, hbetween⟩

theorem unevenHoles_columns : columns {} unevenHoles = [[5, 5], [15, 15], [35, 35]] := by
  refine runs_eq ?_ ?_ ?_ ?_ ?_
  · have : ([5, 15, 35, 5, 15, 35] : List ℕ).Perm [5, 5, 15, 15, 35, 35] := by decide
    simpa [unevenHoles] using this.map (Nat.cast : ℕ → ℝ)
  · norm_num
  · simp
  · norm_num
  · have hfirst : decide (|(15 : ℝ) - 5| ≤ ToleranceProfile.coincidenceMm {}) = false := by norm_num
    have hsecond : decide (|(35 : ℝ) - 15| ≤ ToleranceProfile.coincidenceMm {}) = false := by norm_num
    exact .cons_cons ⟨List.cons_ne_nil _ _, List.cons_ne_nil _ _, hfirst⟩
      (.cons_cons ⟨List.cons_ne_nil _ _, List.cons_ne_nil _ _, hsecond⟩ (.singleton _))

theorem unevenHoles_rows : rows {} unevenHoles = [[5, 5, 5], [15, 15, 15]] := by
  refine runs_eq ?_ ?_ ?_ ?_ ?_
  · simp [unevenHoles]
  · norm_num
  · simp
  · norm_num
  · have hfirst : decide (|(15 : ℝ) - 5| ≤ ToleranceProfile.coincidenceMm {}) = false := by norm_num
    exact .cons_cons ⟨List.cons_ne_nil _ _, List.cons_ne_nil _ _, hfirst⟩ (.singleton _)

theorem unevenHoles_pattern : ∃ made, rectangularPattern {} unevenHoles = some made := by
  have hx : axisLevels {} (unevenHoles.map fun item => item.center.x) = [5, 15, 35] := by
    rw [axisLevels, ← columns, unevenHoles_columns]
    norm_num [mean]
  have hy : axisLevels {} (unevenHoles.map fun item => item.center.y) = [5, 15] := by
    rw [axisLevels, ← rows, unevenHoles_rows]
    norm_num [mean]
  have hplaced : ∀ x ∈ ([5, 15, 35] : List ℝ), ∀ y ∈ ([5, 15] : List ℝ), ∃ item ∈ unevenHoles,
      ToleranceProfile.IsCoincident {} (item.center.distanceTo ⟨x, y⟩) := by
    intro x hx y hy
    have hmem : ∃ item ∈ unevenHoles, item.center = ⟨x, y⟩ := by
      simp only [List.mem_cons, List.not_mem_nil, or_false] at hx hy
      rcases hx with rfl | rfl | rfl <;> rcases hy with rfl | rfl <;> simp [unevenHoles]
    obtain ⟨item, hitem, hcenter⟩ := hmem
    refine ⟨item, hitem, ?_⟩
    rw [hcenter, ToleranceProfile.IsCoincident, Point2D.distanceTo_self]
    norm_num
  have hlength : unevenHoles.length = 6 := rfl
  rw [show unevenHoles = ⟨"H1", ⟨5, 5⟩, 2⟩ :: unevenHoles.tail from rfl] at hx hy hplaced hlength ⊢
  unfold rectangularPattern
  dsimp only
  rw [hx, hy, if_neg (by rw [hlength]; decide), if_neg (by rw [hlength]; decide), if_neg (not_not.mpr hplaced)]
  exact ⟨_, rfl⟩

/-- The pattern of the plate is reported. -/
theorem unevenPlate_reported : ∃ report made, recognize {} unevenPlate = .ok report ∧ made ∈ report.reported ∧
    rectangularPattern {} unevenHoles = some made := by
  obtain ⟨made, hmade⟩ := unevenHoles_pattern
  obtain ⟨forest, hanalysis, hnodes⟩ := plate_analyzed
  have hroots : circlesByRoot (unevenHoles.map fun hole => (6, hole)) = [unevenHoles] := by
    have hroot : ([6, 6, 6, 6, 6, 6] : List ℕ).eraseDups = [6] := by decide
    rw [circlesByRoot, List.map_map, show unevenHoles.map (Prod.fst ∘ fun hole => (6, hole)) = [6, 6, 6, 6, 6, 6] from rfl,
      hroot]
    simp [unevenHoles]
  have hgroups : sameRadiusGroups {} unevenHoles = [unevenHoles] := by
    have hsame : ToleranceProfile.LengthClose {} 2 2 := by norm_num [ToleranceProfile.LengthClose]
    simp [sameRadiusGroups, joinGroup, unevenHoles, hsame]
  have hcandidates : candidates {} unevenHoles = made :: (boltPattern {} unevenHoles).toList := by
    rw [candidates, hmade]
    rfl
  have hreport : ∃ report, recognize {} unevenPlate = .ok report := by
    rw [recognize, hanalysis, Fallible.ok_bind]
    exact ⟨_, rfl⟩
  obtain ⟨report, hreport⟩ := hreport
  refine ⟨report, made, hreport, ?_, hmade⟩
  rw [recognize, hanalysis, Fallible.ok_bind] at hreport
  obtain ⟨rfl⟩ := hreport
  rw [RecognitionReport.reported, plate_holes hnodes, hroots, List.flatMap_singleton, hgroups, List.map_cons,
    List.map_nil, hcandidates]
  cases boltPattern {} unevenHoles with
  | none => simp
  | some ring => simp

/-- The holes of the second column are not where the mean pitch puts them. -/
theorem unevenHoles_uneven : ¬ OnEvenGrid {} unevenHoles := by
  intro heven
  have hcell : InCell {} unevenHoles ⟨"H2", ⟨15, 5⟩, 2⟩ (1, 0) := by
    rw [InCell, unevenHoles_columns, unevenHoles_rows]
    exact ⟨⟨_, rfl, by simp⟩, _, rfl, by simp⟩
  have hclose := heven ⟨"H2", ⟨15, 5⟩, 2⟩ (by simp [unevenHoles]) _ hcell
  have hx := (Point2D.abs_x_sub_le _ _).trans hclose
  rw [evenPoint, unevenHoles_columns] at hx
  norm_num [evenLevel, mean] at hx

/-- The grid that is reported puts its second column in the middle. -/
theorem unevenPlate_regenerates_elsewhere : ∃ report made, recognize {} unevenPlate = .ok report ∧
    made ∈ report.reported ∧ made.featureType = .rectangularHolePattern ∧ ¬ Regenerates {} unevenPlate made := by
  obtain ⟨report, made, hreport, hmade, hpattern⟩ := unevenPlate_reported
  obtain ⟨hgrid, hkind, hrefs, hgenerated⟩ := rectangularPattern_some hpattern
  refine ⟨report, made, hreport, hmade, hkind, ?_⟩
  rintro ⟨points, hpoints, hmatches⟩
  rw [hgenerated] at hpoints
  cases hpoints
  rw [members_group hrefs circleByRef_unevenPlate] at hmatches
  exact unevenHoles_uneven (hgrid.matches_iff.mp hmatches)

/-- The plate with uneven columns. -/
theorem recognize_regenerates_iff_unevenPlate : ∃ report made, recognize {} unevenPlate = .ok report ∧
    (IsEven {} unevenPlate made → Regenerates {} unevenPlate made) ∧
      (IsSpread {} unevenPlate made → (Regenerates {} unevenPlate made ↔ IsEven {} unevenPlate made)) := by
  obtain ⟨report, made, hreport, hmade, hpattern⟩ := unevenPlate_reported
  have hkind := (rectangularPattern_some hpattern).2.1
  refine ⟨report, made, hreport, recognize_regenerates_iff hreport hmade ?_⟩
  rw [hkind]
  exact RecognizedFeatureType.noConfusion

end

end CadHarness.Comprehension
