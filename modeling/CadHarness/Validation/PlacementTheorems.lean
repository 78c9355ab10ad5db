import CadHarness.Catalog.Lemmas.Compilers
import CadHarness.Validation.HoleTheorems

/-!
# Holes in the material

What the rule about the placement of holes says about the outline that a plan draws.
-/

namespace CadHarness.Validation
open CadHarness.Annotation CadHarness.Catalog CadHarness.Geometry CadHarness.Plan
open CadHarness.Lib

noncomputable section
open Classical

/-! ## Patterns of a plate -/

/-- A feature of a specification, at any depth. -/
inductive Within : List FeatureSpec → FeatureSpec → Prop
  | here {features : List FeatureSpec} {feature : FeatureSpec} (h : feature ∈ features) : Within features feature
  | child {features : List FeatureSpec} {parent feature : FeatureSpec} (hparent : Within features parent)
      (h : feature ∈ parent.children) : Within features feature

def holePatternTypes : List String := ["rectangular_hole_pattern", "bolt_circle_pattern", "linear_hole_pattern"]

/-- A pattern that is declared as a child of a plate. -/
inductive PlatePattern (spec : DrawingSpec) : String → String → Prop
  | mk {plate pattern : FeatureSpec} (hplate : Within spec.features plate) (htype : plate.type = "rectangular_plate")
      (hpattern : pattern ∈ plate.children) (hholes : pattern.type ∈ holePatternTypes) :
      PlatePattern spec plate.featureId pattern.featureId

/-- The ids that a feature has in the views of a specification, or its own. -/
def drawnNames (spec : DrawingSpec) : List (String → String) :=
  if spec.views.isEmpty then [id] else spec.views.map fun view featureId => viewFeatureId featureId view

/-- The operation draws the holes of a pattern, the other one the outline of its plate, in one view. -/
structure DrawnOn (spec : DrawingSpec) (context : RuleContext) (holes outline : Plan.Operation) : Prop where
  holes_mem : holes ∈ context.plan.operations
  outline_mem : outline ∈ context.plan.operations
  holes_type : holes.type = .createCircles
  outline_type : outline.type = .createClosedPolyline
  names : ∃ plate pattern, PlatePattern spec plate pattern ∧ ∃ name ∈ drawnNames spec,
    holes.featureId = name pattern ∧ outline.featureId = name plate

/-- What an outline encloses, its boundary within the tolerance. -/
def materialOf (tolerance : ToleranceProfile) (outline : Plan.Operation) : Set Point2D :=
  {p | ∃ contour, closedPolyline outline = .ok contour ∧ ContainsPoint contour p tolerance}

/-- The part of the bounding box of an outline that it leaves out. -/
def cutAway (tolerance : ToleranceProfile) (outline : Plan.Operation) : Set Point2D :=
  {p | ∃ contour, closedPolyline outline = .ok contour ∧ p ∈ contour.boundingBox.region} \ materialOf tolerance outline

/-- Every hole of a plate's pattern lies in the material. -/
def HolesInMaterial (spec : DrawingSpec) (context : RuleContext) : Prop :=
  ∀ holes outline, DrawnOn spec context holes outline → ∀ hole ∈ holesOf context holes,
    hole ⊆ materialOf context.tolerance outline

variable {spec : DrawingSpec} {context : RuleContext} {operation outline : Plan.Operation}

/-! ## The rule -/

theorem clean_holePlacementFindings {tolerance : ToleranceProfile} {minimumEdge : Option ℝ} {box : BoundingBox}
    {radius : ℝ} {index : Nat} {center : Point2D}
    (h : ∀ finding ∈ holePlacementFindings tolerance minimumEdge box radius index center, ¬ finding.Stops) :
    radius ≤ box.distanceToEdge center := by
  by_contra hlt
  have hclearance : box.distanceToEdge center - radius < 0 := by linarith
  simp [holePlacementFindings, hclearance, Finding.Stops] at h

/-- The holes of a pattern lie in the bounding box of the outline that the rule finds for them. -/
theorem subset_box_of_clean_placement (hclean : Clean (placementFindings context operation))
    (htype : operation.type = .createCircles) (hparent : context.parentOutline operation.featureId = some outline) :
    ∃ contour, closedPolyline outline = .ok contour ∧
      ∀ hole ∈ holesOf context operation, hole ⊆ contour.boundingBox.region := by
  obtain ⟨findings, hrun, hstops⟩ := hclean
  rw [placementFindings, hparent] at hrun
  simp only [Fallible.bind_eq_ok, Fallible.pure_eq_ok] at hrun
  obtain ⟨centers, hcenters, diameter, hdiameter, contour, hcontour, rfl⟩ := hrun
  have hcircles : patternCircles operation = .ok (centers.map fun center => (center, diameter)) := by
    rw [patternCircles, hcenters, hdiameter]
    rfl
  refine ⟨contour, hcontour, ?_⟩
  intro hole hhole
  have hholes : holesOf context operation = centers.map fun center => disc center diameter := by
    simp [holesOf, IsHole, enclosedRegions, drawnCircles, htype, hcircles, Except.toOption]
  rw [hholes] at hhole
  obtain ⟨center, hcenter, rfl⟩ := List.mem_map.mp hhole
  obtain ⟨index, hindex⟩ := List.mem_iff_getElem?.mp hcenter
  apply BoundingBox.disc_subset_region
  apply clean_holePlacementFindings
  intro finding hfinding
  have hmem : finding ∈ centers.zipIdx.flatMap fun c => holePlacementFindings context.tolerance
      context.profile.minimumHoleEdgeDistanceMm contour.boundingBox (diameter / 2) c.2 c.1 :=
    List.mem_flatMap.mpr ⟨(center, index), List.mem_zipIdx_iff_getElem?.mpr hindex, hfinding⟩
  exact hstops (Finding.about operation finding) (List.mem_map_of_mem hmem)

/-- The outline is the one that the rule finds for the pattern. -/
def Linked (context : RuleContext) (holes outline : Plan.Operation) : Prop :=
  context.parentOutline holes.featureId = some outline

/-- The holes of a plan that the rules have passed lie in the material where those do that the rule links to no
outline, and the linked ones stay out of what is cut away. -/
theorem validated_holes_in_material_iff (spec : DrawingSpec) (context : RuleContext) (hpasses : PassesPreCommit context) :
    HolesInMaterial spec context ↔ ∀ holes outline, DrawnOn spec context holes outline →
      ∀ hole ∈ holesOf context holes,
        (Linked context holes outline → Disjoint hole (cutAway context.tolerance outline)) ∧
        (¬ Linked context holes outline → hole ⊆ materialOf context.tolerance outline) := by
  have hclean := passesPreCommit_iff.mp hpasses holePlacementRule (by simp [preCommitRules])
  constructor
  · intro h holes outline hdrawn hole hhole
    have hinside := h holes outline hdrawn hole hhole
    exact ⟨fun _ => Set.disjoint_left.mpr fun p hp hcut => hcut.2 (hinside hp), fun _ => hinside⟩
  · intro h holes outline hdrawn hole hhole
    obtain ⟨hlinked, hunlinked⟩ := h holes outline hdrawn hole hhole
    by_cases hlink : Linked context holes outline
    · obtain ⟨contour, hcontour, hbox⟩ := subset_box_of_clean_placement
        (clean_forOperations.mp hclean holes hdrawn.holes_mem hdrawn.holes_type) hdrawn.holes_type hlink
      intro p hp
      by_contra hout
      exact Set.disjoint_left.mp (hlinked hlink) hp ⟨⟨contour, hcontour, hbox hole hhole hp⟩, hout⟩
    · exact hunlinked hlink

/-! ## A bolt circle around a plate -/

def plateProfile : CompanyProfile where
  profileId := "plates"
  version := "1"
  layers := ["PART", "HOLE"]
  layerMap := [("outline", "PART"), ("hole", "HOLE")]

def plateService : PlanCompilerService where
  profile := plateProfile
  tolerance := {}

def boltParameters : Dict := [("hole_diameter_mm", real 10), ("pcd_mm", real 300), ("count", count 1)]

def plateParameters : Dict :=
  [("width_mm", real 100), ("height_mm", real 100), ("thickness_mm", real 5), ("origin_mm", pair 0 0)]

def boltPattern : FeatureSpec := .mk "bolts" "bolt_circle_pattern" boltParameters [] []

def plateFeature : FeatureSpec := .mk "plate" "rectangular_plate" plateParameters [] [boltPattern]

/-- A plate of a hundred millimetres, with one bolt on a circle of three hundred. -/
def plateSpec : DrawingSpec where
  documentId := "drawing"
  features := [plateFeature]

def square : Polyline2D := plateOutline ⟨0, 0⟩ 100 100

def plateOperation : Plan.Operation :=
  outlineOperation "plate" "outline" "PART" square
    [("closed", .bool true), ("vertex_count", count 4), ("width_mm", real 100), ("height_mm", real 100),
      ("area_mm2", real 10000)]

def plateExpectation : Plan.ValidationExpectation where
  ruleId := "GEO-PLATE-OUTLINE"
  featureId := some "plate"
  operationId := some (operationId "plate" "outline")
  expected := [("orthogonal_rectangle", .bool true), ("width_mm", real 100), ("height_mm", real 100),
    ("area_mm2", real 10000)]

def boltOperation : Plan.Operation := circlesOperation "bolts" "holes" "HOLE" [⟨200, 50⟩] (count 1) 10

def boltExpectation : Plan.ValidationExpectation where
  ruleId := "GEO-HOLE-PATTERN-BOLT-CIRCLE"
  featureId := some "bolts"
  operationId := some (operationId "bolts" "holes")
  expected := [("count", count 1), ("diameter_mm", real 10), ("pcd_mm", real 300), ("center_mm", pair 50 50),
    ("angular_spacing_deg", real 360), ("centers_mm", points [⟨200, 50⟩])]

theorem layerFor_outline : plateProfile.layerFor "outline" = .ok "PART" := by
  simp [CompanyProfile.layerFor, plateProfile]

theorem layerFor_hole : plateProfile.layerFor "hole" = .ok "HOLE" := by
  simp [CompanyProfile.layerFor, plateProfile, Assoc.lookup_cons]

theorem boundingBox_square : square.boundingBox = ⟨0, 0, 100, 100⟩ := by
  simp [square, plateOutline, Polyline2D.boundingBox, BoundingBox.around]

theorem area_square : square.area = 10000 := by
  simp [square, plateOutline, Polyline2D.area, Polyline2D.signedArea]
  norm_num

theorem missing_plate (context : Catalog.CompileContext) :
    missingPlateParameters "plate" plateParameters context = .ok [] := by
  have hsize : ¬ (100 : ℝ) ≤ 0 := by norm_num
  have hthickness : ¬ (5 : ℝ) ≤ 0 := by norm_num
  simp [missingPlateParameters, plateParameters, positive, number, Plan.get, Assoc.lookup_cons, require, real, pair,
    Number.toReal, hsize, hthickness, bind, Except.bind, pure, Except.pure]

theorem compilePlate_square {context : Catalog.CompileContext} (hprofile : context.profile = plateProfile) :
    compilePlate "plate" plateParameters [] context =
      .ok ⟨⟨"plate", [plateOperation], [plateExpectation]⟩, square.boundingBox, square⟩ := by
  have harea : (plateOutline ⟨0, 0⟩ 100 100).area = 10000 := area_square
  rw [compilePlate, missing_plate]
  simp [plateParameters, Plan.get, entry, complete, float, real, pair, placed, rawPoint, Number.toReal,
    Catalog.CompileContext.layerFor, hprofile, layerFor_outline, applyModifiers, Assoc.lookup_cons, bind, Except.bind,
    pure, Except.pure, plateOperation, plateExpectation, square, harea]
  simp [plateOutline, count]

theorem compileBolts {context : Catalog.CompileContext} (hprofile : context.profile = plateProfile)
    (hbox : context.parentBox = some square.boundingBox) :
    compileBoltCirclePattern "bolts" boltParameters context = .ok ⟨"bolts", [boltOperation], [boltExpectation]⟩ := by
  simp [compileBoltCirclePattern, boltParameters, missingBoltCircleInputs, number, Plan.get, entry, require, complete,
    float, real, pair, Number.toReal, Catalog.CompileContext.layerFor, hprofile, hbox, layerFor_hole, isInteger,
    Catalog.int, boltCircleCenter, boltCircle, requestedCentermarks, truth, boundingBox_square,
    Assoc.lookup_cons, bind, Except.bind, pure, Except.pure, boltOperation, boltExpectation, radians, count]
  norm_num [Point2D.asTuple, pair, real]

theorem missing_bolts {context : Catalog.CompileContext} {box : BoundingBox} (hbox : context.parentBox = some box) :
    missingBoltCircleInputs "bolts" boltParameters context = .ok [] := by
  simp [missingBoltCircleInputs, boltParameters, number, Plan.get, Assoc.lookup_cons, require, real, count, isInteger,
    Number.toReal, hbox, bind, Except.bind, pure, Except.pure]

theorem getCompiler_plate : getCompiler "rectangular_plate" = .ok .rectangularPlate := by
  simp [getCompiler, supportedTypes, internalTypes, Assoc.lookup_cons]

theorem getCompiler_bolts : getCompiler "bolt_circle_pattern" = .ok .boltCirclePattern := by
  simp [getCompiler, supportedTypes, internalTypes]

theorem collectMissing_plateSpec :
    plateSpec.features.mapM (fun feature => plateService.collectMissing feature (plateService.context plateSpec)) =
      .ok [[]] := by
  rw [plateSpec, List.mapM_cons, List.mapM_nil, plateFeature, PlanCompilerService.collectMissing,
    if_neg (by simp [acceptedRasterFeature]), getCompiler_plate, boltPattern]
  simp [PlanCompilerService.collectChildren, PlanCompilerService.collectMissing, missingInputs, FeatureSpec.featureId,
    FeatureSpec.parameters, missing_plate, getCompiler_bolts, acceptedRasterFeature, missing_bolts,
    Catalog.CompileContext.forChild, bind, Except.bind, pure, Except.pure]

theorem compile_plateFeature {context : Catalog.CompileContext} (hprofile : context.profile = plateProfile) :
    compileFeature plateFeature context =
      .ok ⟨"plate", [plateOperation, boltOperation], [plateExpectation, boltExpectation]⟩ := by
  rw [plateFeature, compileFeature, getCompiler_plate]
  simp only [Fallible.ok_bind, compilePlate_square hprofile]
  rw [compileChildren, boltPattern, compileFeature, getCompiler_bolts]
  simp [compileLeaf, FeatureSpec.featureId, FeatureSpec.parameters, compileBolts, hprofile,
    Catalog.CompileContext.forChild, changesOutline, FeatureSpec.type, compileChildren, CompiledFeature.merge,
    bind, Except.bind]

def platePlan : OperationPlan where
  jobId := "job"
  documentId := "drawing"
  expectedRevision := "revision"
  profileRef := plateProfile.asRef
  operations := [plateOperation, boltOperation]
  validationExpectations := [plateExpectation, boltExpectation]

theorem compile_plateSpec : plateService.compile plateSpec "job" "revision" = .ok { plan := some platePlan } := by
  have hcompiled : plateSpec.features.mapM (plateService.compileTopLevel (plateService.context plateSpec)) =
      .ok [⟨"plate", [plateOperation, boltOperation], [plateExpectation, boltExpectation]⟩] := by
    rw [plateSpec, List.mapM_cons, List.mapM_nil, PlanCompilerService.compileTopLevel,
      if_neg (by simp [plateFeature, FeatureSpec.type, acceptedRasterFeature]), compile_plateFeature rfl]
    rfl
  have hreject : rejectRedundantStandaloneKeyways plateService.tolerance plateSpec = .ok () := by
    simp [rejectRedundantStandaloneKeyways, plateSpec, plateFeature, FeatureSpec.type]
  rw [PlanCompilerService.compile, hreject, collectMissing_plateSpec, hcompiled]
  simp [PlanCompilerService.geometryOperations, plateSpec, plateOperation, boltOperation, outlineOperation,
    circlesOperation, PlanCompilerService.IsCenterEntity, annotate, draftAnnotations, hasNonDimensionAnnotations,
    placeDrafts, plateService, platePlan, bind, Except.bind, pure, Except.pure]

def plateContext : RuleContext := ⟨plateProfile, {}, platePlan⟩

theorem closedPolyline_plate : closedPolyline plateOperation = .ok square := by
  rw [closedPolyline, plateOperation, geometryPoints_outline]
  exact checked_vertices square rfl

theorem segments_square : square.segments =
    [(⟨0, 0⟩, ⟨100, 0⟩), (⟨100, 0⟩, ⟨100, 100⟩), (⟨100, 100⟩, ⟨0, 100⟩), (⟨0, 100⟩, ⟨0, 0⟩)] := by
  simp [Polyline2D.segments, square, plateOutline]

theorem length_square : ∀ s ∈ square.segments, s.1.distanceTo s.2 = 100 := by
  have hsqrt : √((100 : ℝ) ^ 2) = 100 := Real.sqrt_sq (by norm_num)
  simp [segments_square, Point2D.distanceTo, hsqrt]

theorem not_adjacent {i j : Nat} (hij : i < j) (hj : j < 4) (h : ¬ (j = i + 1 ∨ (i = 0 ∧ j = 3))) :
    (i = 0 ∧ j = 2) ∨ (i = 1 ∧ j = 3) := by
  omega

theorem not_selfIntersects_square : ¬ PolylineSelfIntersects square := by
  rintro ⟨i, j, a, b, hij, ha, hb, hapart, hcross⟩
  rw [segments_square] at ha hb hapart
  obtain ⟨hj, rfl⟩ := List.getElem?_eq_some_iff.mp hb
  obtain ⟨hi, rfl⟩ := List.getElem?_eq_some_iff.mp ha
  simp only [List.length_cons, List.length_nil] at hi hj hapart
  have hpair : (i = 0 ∧ j = 2) ∨ (i = 1 ∧ j = 3) := by
    have hclosed : square.closed = true := rfl
    simp only [hclosed, and_true] at hapart
    exact not_adjacent hij hj hapart
  rcases hpair with ⟨rfl, rfl⟩ | ⟨rfl, rfl⟩
  · simp [segmentIntersection, Point2D.vectorTo, Vector2D.cross] at hcross
    norm_num at hcross
  · simp [segmentIntersection, Point2D.vectorTo, Vector2D.cross] at hcross
    norm_num at hcross

theorem clean_outline_plate : Clean (outlineFindings {} plateOperation) := by
  have hzero : ¬ square.HasZeroLengthSegment {} := by
    rintro ⟨segment, hsegment, hlength⟩
    rw [length_square segment hsegment, ToleranceProfile.IsZeroLength] at hlength
    norm_num at hlength
  have hrectangle : IsOrthogonalRectangle square {} := by
    refine ⟨rfl, rfl, ?_⟩
    rw [segments_square]
    norm_num [ToleranceProfile.IsZeroLength]
  have harea : ToleranceProfile.AreaClose {} 10000 square.area := by
    rw [area_square, ToleranceProfile.AreaClose]
    norm_num
  have hvertices : geometryPoints plateOperation.geometry "vertices_mm" = .ok square.vertices :=
    geometryPoints_outline ..
  rw [outlineFindings, hvertices]
  simp only [Fallible.ok_bind]
  rw [if_neg (by simp [square, plateOutline]), checked_vertices square rfl]
  apply clean_ok.mpr
  simp [zeroLengthFindings, hzero, selfIntersectionFindings, not_selfIntersects_square, areaFindings, rectangleFindings,
    plateOperation, outlineOperation, Assoc.lookup_cons, asNumber, real, Number.toReal, harea, hrectangle]

theorem clean_placement_bolts : Clean (placementFindings plateContext boltOperation) := by
  have hparent : plateContext.parentOf boltOperation.featureId = none := by
    simp [RuleContext.parentOf, plateContext, platePlan, boltOperation, circlesOperation, plateExpectation,
      boltExpectation, Assoc.lookup_cons]
  have hcenters : geometryPoints boltOperation.geometry "centers_mm" = .ok [⟨200, 50⟩] := geometryPoints_circles ..
  have hdiameter : numberAt boltOperation.geometry "diameter_mm" = .ok 10 := by
    simp [numberAt, boltOperation, circlesOperation, Assoc.lookup_cons]
  rw [placementFindings, hcenters, hdiameter]
  simp only [Fallible.ok_bind, RuleContext.parentOutline, hparent]
  apply clean_ok.mpr
  simp [Finding.Stops, Finding.about]

theorem clean_spacing_bolts : Clean (spacingFindings plateContext boltOperation) := by
  refine clean_spacing.mpr ⟨[⟨200, 50⟩], 10, geometryPoints_circles .., ?_, List.pairwise_singleton _ _⟩
  simp [numberAt, boltOperation, circlesOperation, Assoc.lookup_cons]

theorem operationId_ne : operationId "bolts" "holes" ≠ operationId "plate" "outline" := by decide

theorem clean_patterns_plate : Clean (patternIntegrityRule plateContext) := by
  have hplate : plateContext.operationNamed plateExpectation.operationId = some plateOperation := by
    simp [RuleContext.operationNamed, plateContext, platePlan, plateExpectation, plateOperation, boltOperation,
      outlineOperation, circlesOperation, operationId_ne]
  have hbolts : plateContext.operationNamed boltExpectation.operationId = some boltOperation := by
    simp [RuleContext.operationNamed, plateContext, platePlan, boltExpectation, plateOperation, boltOperation,
      outlineOperation, circlesOperation, operationId_ne.symm]
  have hcenters : geometryPoints boltOperation.geometry "centers_mm" = .ok [⟨200, 50⟩] := geometryPoints_circles ..
  have hcircle : ToleranceProfile.LengthClose {} (300 / 2) (Point2D.distanceTo ⟨50, 50⟩ ⟨200, 50⟩) := by
    have hdistance : Point2D.distanceTo ⟨50, 50⟩ ⟨200, 50⟩ = 150 := by
      rw [Point2D.distanceTo, Real.sqrt_eq_iff_mul_self_eq] <;> norm_num
    rw [hdistance, ToleranceProfile.LengthClose]
    norm_num
  have honCircle : pitchCircleFindings plateContext.tolerance (some 300) (some (pair 50 50)) [⟨200, 50⟩] = .ok [] := by
    simp [plateContext, pitchCircleFindings, pair, real, pointItem, float, Number.toReal, hcircle, pure, Except.pure]
  apply clean_collect.mpr
  intro expectation hexpectation
  simp only [plateContext, platePlan, List.mem_cons, List.not_mem_nil, or_false] at hexpectation
  rcases hexpectation with rfl | rfl
  · have htype : plateOperation.type ≠ .createCircles := by simp [plateOperation, outlineOperation]
    simp only [patternFindings, hplate, htype, ne_eq, not_false_eq_true, if_true]
    exact Clean.ok_nil
  · have htype : boltOperation.type = .createCircles := rfl
    have hcount : (boltExpectation.expected.lookup "count").bind asInteger = some 1 := by
      simp [boltExpectation, count, asInteger]
    have hpcd : (boltExpectation.expected.lookup "pcd_mm").bind asNumber = some 300 := by
      simp [boltExpectation, Assoc.lookup_cons, asNumber, real, Number.toReal]
    have hcenter : boltExpectation.expected.lookup "center_mm" = some (pair 50 50) := by
      simp [boltExpectation, Assoc.lookup_cons]
    simp only [patternFindings, hbolts, htype, ne_eq, not_true_eq_false, if_false, hcenters, hcount, hpcd, hcenter,
      honCircle, Fallible.ok_bind]
    apply clean_ok.mpr
    simp [patternCountFindings]

theorem forall_plateOperations {p : Plan.Operation → Prop} (hplate : p plateOperation) (hbolts : p boltOperation) :
    ∀ operation ∈ plateContext.plan.operations, p operation := by
  simp [plateContext, platePlan, hplate, hbolts]

theorem clean_forExpectations_plate {ruleId : String} (hplate : ruleId ≠ "GEO-PLATE-OUTLINE")
    (hbolts : ruleId ≠ "GEO-HOLE-PATTERN-BOLT-CIRCLE")
    (evaluate : Plan.ValidationExpectation → Except KernelError (List Finding)) :
    Clean (forExpectations plateContext ruleId evaluate) := by
  apply clean_forExpectations.mpr
  simp [plateContext, platePlan, plateExpectation, boltExpectation, hplate.symm, hbolts.symm]

theorem clean_noUndeclaredContourIntersection_plate : Clean (noUndeclaredContourIntersectionRule plateContext) := by
  have hcontours : plateContext.plan.operations.filter (·.type = .createClosedPolyline) = [plateOperation] := by
    simp [plateContext, platePlan, plateOperation, boltOperation, outlineOperation, circlesOperation]
  have hvertices : geometryPoints plateOperation.geometry "vertices_mm" = .ok square.vertices :=
    geometryPoints_outline ..
  have hcontour : contourOf plateOperation = .ok (some (plateOperation, square)) := by
    rw [contourOf, hvertices]
    simp only [Fallible.ok_bind]
    rw [if_neg (by simp [square, plateOutline]), checked_vertices square rfl]
    rfl
  rw [noUndeclaredContourIntersectionRule, hcontours]
  simp [hcontour, pure, Except.pure]

/-- Where no operation has an entry of some kind, a rule has collected nothing. -/
theorem mapM_none_plate {α : Type} {f : Plan.Operation → Except KernelError (Option α)}
    (hplate : f plateOperation = .ok none) (hbolts : f boltOperation = .ok none) :
    plateContext.plan.operations.mapM f = .ok [none, none] := by
  simp [plateContext, platePlan, hplate, hbolts, pure, Except.pure]

theorem clean_annotationOverlap_plate : Clean (annotationOverlapRule plateContext) := by
  have hboxes : plateContext.plan.operations.mapM textBoxOf = .ok [none, none] :=
    mapM_none_plate (by simp [textBoxOf, plateOperation, outlineOperation, Assoc.lookup_cons])
      (by simp [textBoxOf, boltOperation, circlesOperation, Assoc.lookup_cons])
  simp only [annotationOverlapRule, hboxes, Fallible.ok_bind]
  apply clean_ok.mpr
  simp [orderedPairs]

theorem clean_annotationProfile_plate : Clean (annotationProfileRule plateContext) := by
  apply clean_collect.mpr
  apply forall_plateOperations
  · rw [annotationProfileFindings, if_pos (by simp [Plan.get, plateOperation, outlineOperation, Assoc.lookup_cons])]
    exact Clean.ok_nil
  · rw [annotationProfileFindings, if_pos (by simp [Plan.get, boltOperation, circlesOperation, Assoc.lookup_cons])]
    exact Clean.ok_nil

theorem clean_gdtDatumExists_plate : Clean (gdtDatumExistsRule plateContext) := by
  have hframes : plateContext.plan.operations.mapM frameReferences = .ok [none, none] :=
    mapM_none_plate (by simp [frameReferences, Plan.get, plateOperation, outlineOperation, Assoc.lookup_cons])
      (by simp [frameReferences, Plan.get, boltOperation, circlesOperation, Assoc.lookup_cons])
  simp only [gdtDatumExistsRule, hframes, Fallible.ok_bind]
  apply clean_ok.mpr
  simp

theorem clean_viewProjectionAlignment_plate : Clean (viewProjectionAlignmentRule plateContext) := by
  have hviews : plateContext.plan.operations.mapM viewOf = .ok [none, none] :=
    mapM_none_plate (by simp [viewOf, plateOperation, outlineOperation, Assoc.lookup_cons])
      (by simp [viewOf, boltOperation, circlesOperation, Assoc.lookup_cons])
  simp only [viewProjectionAlignmentRule, hviews, Fallible.ok_bind]
  exact Clean.ok_nil

theorem passesPreCommit_plate : PassesPreCommit plateContext := by
  rw [passesPreCommit_iff]
  simp only [preCommitRules, List.forall_mem_cons]
  refine ⟨?_, ?_, ?_, clean_patterns_plate,
    clean_forExpectations_plate (by decide) (by decide) _, clean_forExpectations_plate (by decide) (by decide) _,
    clean_forExpectations_plate (by decide) (by decide) _, clean_forExpectations_plate (by decide) (by decide) _,
    ?_, clean_forExpectations_plate (by decide) (by decide) _, Clean.ok_nil, ?_, ?_, ?_, ?_, ?_, ?_, ?_, ?_, by simp⟩
  · apply clean_forOperations.mpr
    exact forall_plateOperations (fun _ => clean_outline_plate) (fun htype => by cases htype)
  · apply clean_forOperations.mpr
    exact forall_plateOperations (fun htype => by cases htype) (fun _ => clean_placement_bolts)
  · apply clean_forOperations.mpr
    exact forall_plateOperations (fun htype => by cases htype) (fun _ => clean_spacing_bolts)
  · exact clean_noUndeclaredContourIntersection_plate
  · apply clean_ok.mpr
    simp [plateContext, platePlan, layerFindings, plateOperation, boltOperation, outlineOperation, circlesOperation,
      plateProfile]
  · apply clean_ok.mpr
    simp [plateContext, platePlan, plateProfile, Finding.Stops]
  · apply clean_ok.mpr
    simp [Finding.Stops]
  · exact clean_annotationOverlap_plate
  · exact clean_annotationProfile_plate
  · exact clean_gdtDatumExists_plate
  · apply clean_ok.mpr
    simp [plateContext, platePlan, plateOperation, boltOperation, outlineOperation, circlesOperation, plateProfile]
  · exact clean_viewProjectionAlignment_plate

/-- A point to the right of a segment is as far from it as from the vertical line that it stays left of. -/
theorem sub_le_pointToSegmentDistance {p a b : Point2D} {m : ℝ} (ha : a.x ≤ m) (hb : b.x ≤ m) :
    p.x - m ≤ pointToSegmentDistance p a b := by
  rw [pointToSegmentDistance]
  split
  · have hdistance := Point2D.abs_x_sub_le p a
    linarith [le_abs_self (p.x - a.x)]
  · set t := max 0 (min 1 ((a.vectorTo p).dot (a.vectorTo b) / ((a.vectorTo b).dx ^ 2 + (a.vectorTo b).dy ^ 2)))
    have hnonneg : 0 ≤ t := le_max_left ..
    have hle : t ≤ 1 := max_le (by norm_num) (min_le_left ..)
    have hnearest : a.x + (a.vectorTo b).dx * t ≤ m := by
      simp only [Point2D.vectorTo]
      nlinarith
    have hdistance := Point2D.abs_x_sub_le p ⟨a.x + (a.vectorTo b).dx * t, a.y + (a.vectorTo b).dy * t⟩
    linarith [le_abs_self (p.x - (a.x + (a.vectorTo b).dx * t))]

theorem not_containsPoint_square : ¬ ContainsPoint square ⟨200, 50⟩ {} := by
  rintro (⟨segment, hsegment, hcoincident⟩ | hcrossings)
  · have hleft : segment.1.x ≤ 100 ∧ segment.2.x ≤ 100 := by
      rw [segments_square] at hsegment
      simp only [List.mem_cons, List.not_mem_nil, or_false] at hsegment
      rcases hsegment with rfl | rfl | rfl | rfl <;> norm_num
    have hdistance := sub_le_pointToSegmentDistance (p := ⟨200, 50⟩) hleft.1 hleft.2
    rw [ToleranceProfile.IsCoincident] at hcoincident
    norm_num at hcoincident hdistance
    linarith
  · rw [segments_square] at hcrossings
    norm_num [RayCrosses] at hcrossings

theorem platePattern_bolts : PlatePattern plateSpec plateFeature.featureId boltPattern.featureId :=
  .mk (.here (by simp [plateSpec, plateFeature])) rfl (by simp [plateFeature, FeatureSpec.children]) (by decide)

theorem drawnOn_plate : DrawnOn plateSpec plateContext boltOperation plateOperation where
  holes_mem := by simp [plateContext, platePlan]
  outline_mem := by simp [plateContext, platePlan]
  holes_type := rfl
  outline_type := rfl
  names := ⟨_, _, platePattern_bolts, id, by simp [drawnNames, plateSpec], rfl, rfl⟩

theorem holesOf_bolts : holesOf plateContext boltOperation = [disc ⟨200, 50⟩ 10] := by
  have hcenters : geometryPoints boltOperation.geometry "centers_mm" = .ok [⟨200, 50⟩] := geometryPoints_circles ..
  have hdiameter : numberAt boltOperation.geometry "diameter_mm" = .ok 10 := by
    simp [numberAt, boltOperation, circlesOperation, Assoc.lookup_cons]
  have htype : boltOperation.type = .createCircles := rfl
  simp [holesOf, IsHole, enclosedRegions, drawnCircles, patternCircles, htype, hcenters, hdiameter, Except.toOption,
    Fallible.ok_bind, pure, Except.pure]

/-- The rules pass a plate with its bolt outside. -/
theorem validated_holes_outside :
    plateService.compile plateSpec "job" "revision" = .ok { plan := some platePlan } ∧
    PassesPreCommit plateContext ∧ ¬ HolesInMaterial plateSpec plateContext := by
  refine ⟨compile_plateSpec, passesPreCommit_plate, ?_⟩
  intro hinside
  have hbolt : disc ⟨200, 50⟩ 10 ⊆ materialOf plateContext.tolerance plateOperation :=
    hinside boltOperation plateOperation drawnOn_plate _ (by simp [holesOf_bolts])
  have hcenter : (⟨200, 50⟩ : Point2D) ∈ disc ⟨200, 50⟩ 10 := by simp [disc]
  obtain ⟨contour, hcontour, hcontains⟩ := hbolt hcenter
  rw [closedPolyline_plate] at hcontour
  cases hcontour
  exact not_containsPoint_square hcontains

/-- The linked and the unlinked holes of this plate. -/
theorem validated_holes_in_material_plate :
    HolesInMaterial plateSpec plateContext ↔ ∀ holes outline, DrawnOn plateSpec plateContext holes outline →
      ∀ hole ∈ holesOf plateContext holes,
        (Linked plateContext holes outline → Disjoint hole (cutAway plateContext.tolerance outline)) ∧
        (¬ Linked plateContext holes outline → hole ⊆ materialOf plateContext.tolerance outline) :=
  validated_holes_in_material_iff plateSpec plateContext passesPreCommit_plate

end

end CadHarness.Validation
