import CadHarness.Validation.Engine

/-!
# Geometry rules

`cad_harness.validation.rules.geometry_rules`, but for the rule that coordinates are finite: exact numbers are.
-/

namespace CadHarness.Validation
open CadHarness.Catalog CadHarness.Geometry CadHarness.Plan

noncomputable section
open Classical

/-! ## Closed outlines -/

def outlineRuleId : String := "GEO-OUTLINE-CLOSED"

def zeroLengthFindings (tolerance : ToleranceProfile) (polyline : Polyline2D) : List Finding :=
  if polyline.HasZeroLengthSegment tolerance then
    [{ ruleId := outlineRuleId, severity := .blocking, message := "Outline contains a zero-length segment"
       expected := .value (.str "all segments longer than tolerance")
       actual := .value (.str "zero-length segment present"), tolerance := some tolerance.absoluteLengthMm }]
  else []

def selfIntersectionFindings (polyline : Polyline2D) : List Finding :=
  if PolylineSelfIntersects polyline then
    [{ ruleId := outlineRuleId, severity := .blocking, message := "Outline is self-intersecting"
       expected := .value (.str "simple closed polyline"), actual := .value (.str "self-intersecting")
       suggestedFix := some "Check vertex ordering in the feature compiler" }]
  else []

def areaFindings (tolerance : ToleranceProfile) (expected : Option ℝ) (actual : ℝ) : List Finding :=
  match expected with
  | none => []
  | some area =>
      if tolerance.AreaClose area actual then []
      else [{ ruleId := outlineRuleId, severity := .error
              message := "Outline area does not match the compiled expectation"
              expected := .value (real area), actual := .value (real actual), tolerance := some tolerance.areaMm2
              measurement := [("area_mm2", real actual)] }]

def rectangleFindings (tolerance : ToleranceProfile) (vertexCount : Option ℝ) (polyline : Polyline2D) : List Finding :=
  if vertexCount = some 4 ∧ ¬ IsOrthogonalRectangle polyline tolerance then
    [{ ruleId := outlineRuleId, severity := .error
       message := "Outline was expected to be an axis-aligned rectangle"
       expected := .value (.str "4 orthogonal edges"), actual := .value (.str "non-orthogonal edge present")
       tolerance := some tolerance.absoluteLengthMm }]
  else []

def outlineFindings (tolerance : ToleranceProfile) (operation : Plan.Operation) : Except KernelError (List Finding) := do
  let vertices ← geometryPoints operation.geometry "vertices_mm"
  if vertices.length < 3 then
    return [Finding.about operation
      { ruleId := outlineRuleId, severity := .blocking, message := "A closed outline needs at least three vertices"
        expected := .value (.str ">= 3 vertices"), actual := .value (count vertices.length) }]
  else do
    let polyline ← Polyline2D.checked vertices true
    return (zeroLengthFindings tolerance polyline ++ selfIntersectionFindings polyline ++
      areaFindings tolerance ((operation.expected.lookup "area_mm2").bind asNumber) polyline.area ++
      rectangleFindings tolerance ((operation.expected.lookup "vertex_count").bind asNumber) polyline).map
        (Finding.about operation)

/-- `ClosedOutlineRule` -/
def closedOutlineRule : Rule := fun context =>
  forOperations context.plan.operations .createClosedPolyline (outlineFindings context.tolerance)

/-! ## Holes -/

namespace RuleContext

variable (context : RuleContext)

/-- `_outline_operations`: of the closed outlines of a feature, the last -/
def outlineOf (featureId : String) : Option Plan.Operation :=
  (context.plan.operations.filter fun operation =>
    operation.type = .createClosedPolyline ∧ operation.featureId = featureId).getLast?

/-- `_parent_of`: the first parent that an expectation of the feature names -/
def parentOf (featureId : String) : Option String :=
  context.plan.validationExpectations.findSome? fun expectation =>
    if expectation.featureId = some featureId then (expectation.expected.lookup "parent_feature_id").bind asText
    else none

/-- The outline of the parent. The empty id is like none. -/
def parentOutline (featureId : String) : Option Plan.Operation :=
  match context.parentOf featureId with
  | none => none
  | some parent => if parent = "" then none else context.outlineOf parent

end RuleContext

def placementRuleId : String := "GEO-HOLE-PLACEMENT"

def holePlacementFindings (tolerance : ToleranceProfile) (minimumEdge : Option ℝ) (box : BoundingBox) (radius : ℝ)
    (index : Nat) (center : Point2D) : List Finding :=
  let clearance := box.distanceToEdge center - radius
  if clearance < 0 then
    [{ ruleId := placementRuleId, severity := .blocking
       message := s!"Hole {index} crosses or lies outside the part boundary"
       expected := .value (.str "hole fully inside the outline")
       actual := .value (.obj [("clearance_mm", real clearance)]), tolerance := some tolerance.absoluteLengthMm
       measurement := [("center_mm", center.asTuple)] }]
  else
    match minimumEdge with
    | none => []
    | some minimum =>
        if clearance < minimum then
          [{ ruleId := placementRuleId, severity := .error
             message := s!"Hole {index} is closer to the edge than the profile minimum"
             expected := .value (.obj [("minimum_edge_distance_mm", real minimum)])
             actual := .value (.obj [("edge_distance_mm", real clearance)])
             tolerance := some tolerance.absoluteLengthMm
             suggestedFix := some "Increase the edge offset or reduce the hole diameter" }]
        else []

def placementFindings (context : RuleContext) (operation : Plan.Operation) : Except KernelError (List Finding) := do
  let centers ← geometryPoints operation.geometry "centers_mm"
  let diameter ← numberAt operation.geometry "diameter_mm"
  match context.parentOutline operation.featureId with
  | none => return [Finding.about operation
      { ruleId := placementRuleId, severity := .info
        message := "Hole pattern has no parent outline in this plan; containment not checked"
        expected := .value (.str "parent outline present")
        actual := .value (optional (context.parentOf operation.featureId)) }]
  | some parent => do
      let outline ← closedPolyline parent
      return (centers.zipIdx.flatMap fun c => holePlacementFindings context.tolerance
        context.profile.minimumHoleEdgeDistanceMm outline.boundingBox (diameter / 2) c.2 c.1).map
          (Finding.about operation)

/-- `HolePlacementRule`: the clearance is measured to the bounding box of the parent's outline -/
def holePlacementRule : Rule := fun context =>
  forOperations context.plan.operations .createCircles (placementFindings context)

/-- The pairs of different positions of a list. -/
def orderedPairs {α : Type} (l : List α) : List ((α × Nat) × (α × Nat)) :=
  l.zipIdx.flatMap fun first => (l.zipIdx.filter fun second => first.2 < second.2).map fun second => (first, second)

def ligamentFindings (tolerance : ToleranceProfile) (ligament diameter : ℝ) (pair : (Point2D × Nat) × (Point2D × Nat)) :
    List Finding :=
  let (first, second) := pair
  let distance := first.1.distanceTo second.1
  if CirclesOverlap first.1 diameter second.1 diameter ligament then
    [{ ruleId := "GEO-HOLE-LIGAMENT", severity := if distance < diameter then .blocking else .error
       message := s!"Holes {first.2} and {second.2} are too close together"
       expected := .value (.obj [("minimum_center_distance_mm", real (diameter + ligament))])
       actual := .value (.obj [("center_distance_mm", real distance)])
       tolerance := some tolerance.absoluteLengthMm }]
  else []

def spacingFindings (context : RuleContext) (operation : Plan.Operation) : Except KernelError (List Finding) := do
  let centers ← geometryPoints operation.geometry "centers_mm"
  let diameter ← numberAt operation.geometry "diameter_mm"
  return ((orderedPairs centers).flatMap (ligamentFindings context.tolerance
    (context.profile.minimumHoleLigamentMm.getD 0) diameter)).map (Finding.about operation)

/-- `HoleSpacingRule`: the pairs of holes of one operation -/
def holeSpacingRule : Rule := fun context =>
  forOperations context.plan.operations .createCircles (spacingFindings context)

/-! ## Patterns -/

def patternRuleId : String := "GEO-PATTERN-INTEGRITY"

def patternCountFindings (expected : Option ℤ) (centers : List Point2D) : List Finding :=
  match expected with
  | none => []
  | some n =>
      if (centers.length : ℤ) ≠ n then
        [{ ruleId := patternRuleId, severity := .blocking
           message := "Pattern hole count does not match the specification"
           expected := .value (.num (.int n)), actual := .value (count centers.length) }]
      else []

def pitchCircleFindings (tolerance : ToleranceProfile) (pcd : Option ℝ) (center : Option Value) (centers : List Point2D) :
    Except KernelError (List Finding) :=
  match pcd, center with
  | some pcd, some (.arr items) => do
      let patternCenter ← pointItem (.arr items)
      let expectedRadius := pcd / 2
      return centers.zipIdx.flatMap fun hole =>
        let actualRadius := patternCenter.distanceTo hole.1
        if tolerance.LengthClose expectedRadius actualRadius then []
        else [{ ruleId := patternRuleId, severity := .error
                message := s!"Hole {hole.2} does not lie on the pitch circle"
                expected := .value (.obj [("radius_mm", real expectedRadius)])
                actual := .value (.obj [("radius_mm", real actualRadius)])
                tolerance := some tolerance.absoluteLengthMm }]
  | _, _ => .ok []

def patternFindings (context : RuleContext) (expectation : Plan.ValidationExpectation) :
    Except KernelError (List Finding) :=
  match context.operationNamed expectation.operationId with
  | none => .ok []
  | some operation =>
      if operation.type ≠ .createCircles then .ok []
      else do
        let centers ← geometryPoints operation.geometry "centers_mm"
        let expected := expectation.expected
        let onCircle ← pitchCircleFindings context.tolerance ((expected.lookup "pcd_mm").bind asNumber)
          (expected.lookup "center_mm") centers
        return (patternCountFindings ((expected.lookup "count").bind asInteger) centers ++ onCircle).map
          (Finding.about operation)

/-- `PatternIntegrityRule` -/
def patternIntegrityRule : Rule := fun context => do
  return (← context.plan.validationExpectations.mapM (patternFindings context)).flatten

end

end CadHarness.Validation
