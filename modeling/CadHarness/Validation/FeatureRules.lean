import CadHarness.Validation.GeometryRules

/-!
# Feature rules

`cad_harness.validation.rules.feature_rules`.
-/

namespace CadHarness.Validation
open CadHarness.Catalog CadHarness.Geometry CadHarness.Plan

/-- Conditions that are evaluated up to the first one that fails. -/
def holdAll : List (Except KernelError Bool) → Except KernelError Bool
  | [] => .ok true
  | condition :: conditions => do
      if ← condition then holdAll conditions else return false

noncomputable section
open Classical

/-- The findings of the expectations of one rule. -/
def forExpectations (context : RuleContext) (ruleId : String)
    (evaluate : Plan.ValidationExpectation → Except KernelError (List Finding)) : Except KernelError (List Finding) := do
  return (← (context.plan.validationExpectations.filter (·.ruleId = ruleId)).mapM evaluate).flatten

/-- A finding about an expectation and an operation. -/
def Finding.expecting (expectation : Plan.ValidationExpectation) (operationId : Option String) (finding : Finding) :
    Finding :=
  { finding with featureId := expectation.featureId, operationId }

/-- `_point` -/
def pointAt (operation : Plan.Operation) (key : String) : Except KernelError Point2D := do
  pointItem (← entry operation.geometry key)

/-- A number that an expectation has. -/
def expectedNumber (expected : Dict) (key : String) : Except KernelError ℝ := do
  float (← entry expected key)

/-! ## Reference circles -/

def referenceCircleRuleId : String := "REFERENCE_CIRCLE_GEOMETRY"

/-- The conditions on a reference circle. -/
def referenceCircleMatches (tolerance : ToleranceProfile) (operation : Plan.Operation) (expected : Dict)
    (center target : Point2D) (diameter : ℝ) : Except KernelError Bool :=
  let radius := diameter / 2
  let close (key : String) (value : ℝ) : Except KernelError Bool := do
    return decide (tolerance.LengthClose value (← expectedNumber expected key))
  holdAll [
    do return decide ((← entry expected "layer") = .str operation.layer),
    .ok (decide (tolerance.LengthClose (center.distanceTo target) 0)),
    close "radius_mm" radius,
    close "diameter_mm" diameter,
    close "circumference_mm" (2 * Real.pi * radius),
    do return decide (tolerance.AreaClose (Real.pi * radius * radius) (← expectedNumber expected "area_mm2"))]

def referenceCircleFindings (context : RuleContext) (expectation : Plan.ValidationExpectation) :
    Except KernelError (List Finding) := do
  let operation := context.operationNamed expectation.operationId
  match operation.filter (·.type = .createCircle) with
  | none => return [Finding.expecting expectation expectation.operationId
      { ruleId := referenceCircleRuleId, severity := .blocking
        message := "Reference-circle expectation has no matching circle operation"
        expected := .value (.str Domain.OperationType.createCircle.value)
        actual := .value (optional (operation.map fun operation => operation.type.value)) }]
  | some operation => do
      let expected := expectation.expected
      let expectedCenter ← entry expected "center_mm"
      let center ← pointAt operation "center_mm"
      let target ← pointItem expectedCenter
      let diameter ← float (← entry operation.geometry "diameter_mm")
      if ← referenceCircleMatches context.tolerance operation expected center target diameter then return []
      else return [Finding.expecting expectation (some operation.operationId)
        { ruleId := referenceCircleRuleId, severity := .error
          message := "Reference-circle geometry differs from its compiled expectation"
          expected := .value (.obj expected)
          actual := .value (.obj [("layer", .str operation.layer), ("center_mm", center.asTuple),
            ("radius_mm", real (diameter / 2)), ("diameter_mm", real diameter),
            ("circumference_mm", real (2 * Real.pi * (diameter / 2))),
            ("area_mm2", real (Real.pi * (diameter / 2) * (diameter / 2)))])
          tolerance := some context.tolerance.absoluteLengthMm }]

/-- `ReferenceCircleGeometryRule` -/
def referenceCircleGeometryRule : Rule := fun context =>
  forExpectations context referenceCircleRuleId (referenceCircleFindings context)

/-! ## Flanges -/

def flangeClearanceRuleId : String := "FLANGE_OUTER_DIAMETER_CLEARANCE"

def flangeClearanceFindings (context : RuleContext) (expectation : Plan.ValidationExpectation) :
    Except KernelError (List Finding) := do
  let outer ← expectedNumber expectation.expected "outer_diameter_mm"
  let pcd ← expectedNumber expectation.expected "pcd_mm"
  let hole ← expectedNumber expectation.expected "bolt_hole_diameter_mm"
  match context.profile.minimumHoleLigamentMm with
  | none => return [Finding.expecting expectation expectation.operationId
      { ruleId := flangeClearanceRuleId, severity := .blocking
        message := "The profile does not declare a minimum flange ligament"
        expected := .value (.str "minimum_hole_ligament_mm declared")
        tolerance := some context.tolerance.absoluteLengthMm }]
  | some ligament =>
      let minimum := pcd + hole + 2 * ligament
      if outer ≤ minimum + context.tolerance.absoluteLengthMm then
        return [Finding.expecting expectation expectation.operationId
          { ruleId := flangeClearanceRuleId, severity := .error
            message := "Flange outer diameter leaves insufficient material outside bolt holes"
            expected := .above "outer_diameter_mm" minimum
            actual := .value (.obj [("outer_diameter_mm", real outer)])
            tolerance := some context.tolerance.absoluteLengthMm
            suggestedFix := some "Increase the outer diameter or reduce the PCD or hole diameter" }]
      else return []

/-- `FlangeOuterDiameterClearanceRule` -/
def flangeOuterDiameterClearanceRule : Rule := fun context =>
  forExpectations context flangeClearanceRuleId (flangeClearanceFindings context)

def flangeHolesRuleId : String := "FLANGE_HOLES_ON_PCD"

/-- The angular gaps between the holes of a flange, if there are several. -/
def flangeSpacingFindings (tolerance : ToleranceProfile) (center : Point2D) (centers : List Point2D) (expected : Dict) :
    Except KernelError (List Finding) :=
  if centers.length ≤ 1 then .ok []
  else do
    let spacing ← expectedNumber expected "angular_spacing_deg"
    return (angularSpacingDeg center centers).zipIdx.flatMap fun actual =>
      if tolerance.AngleCloseDeg actual.1 spacing then []
      else [{ ruleId := flangeHolesRuleId, severity := .error
              message := s!"Flange angular spacing {actual.2} is non-uniform"
              expected := .value (.obj [("angular_spacing_deg", real spacing)])
              actual := .value (.obj [("angular_spacing_deg", real actual.1)])
              tolerance := some tolerance.angularDeg }]

def flangeHolesFindings (context : RuleContext) (expectation : Plan.ValidationExpectation) :
    Except KernelError (List Finding) := do
  match context.operationNamed expectation.operationId with
  | none => return []
  | some operation => do
      let centers ← geometryPoints operation.geometry "centers_mm"
      let expected := expectation.expected
      let center ← pointItem (← entry expected "center_mm")
      let expectedRadius := (← expectedNumber expected "pcd_mm") / 2
      let offCircle := centers.zipIdx.flatMap fun hole =>
        let actualRadius := center.distanceTo hole.1
        if context.tolerance.LengthClose actualRadius expectedRadius then []
        else [{ ruleId := flangeHolesRuleId, severity := .error
                message := s!"Flange hole {hole.2} is not on the pitch circle"
                expected := .value (.obj [("radius_mm", real expectedRadius)])
                actual := .value (.obj [("radius_mm", real actualRadius)])
                tolerance := some context.tolerance.absoluteLengthMm : Finding }]
      let expectedCount ← int (← entry expected "bolt_hole_count")
      let wrongCount : List Finding :=
        if (centers.length : ℤ) ≠ expectedCount then
          [{ ruleId := flangeHolesRuleId, severity := .blocking
             message := "Flange bolt-hole count differs from the specification"
             expected := .value (.num (.int expectedCount)), actual := .value (count centers.length)
             tolerance := some context.tolerance.absoluteLengthMm }]
        else []
      let spacing ← flangeSpacingFindings context.tolerance center centers expected
      return (offCircle ++ wrongCount ++ spacing).map (Finding.expecting expectation (some operation.operationId))

/-- `FlangeHolesOnPcdRule` -/
def flangeHolesOnPcdRule : Rule := fun context =>
  forExpectations context flangeHolesRuleId (flangeHolesFindings context)

/-! ## Slots -/

def tangencyRuleId : String := "SLOT_ARC_TANGENCY"

/-- The operations that are named in a list of an expectation. -/
def namedOperations (context : RuleContext) (expected : Dict) (key : String) :
    Except KernelError (List Plan.Operation) :=
  match expected.lookup key with
  | none => .ok []
  | some (.arr ids) => .ok (ids.filterMap fun id => (asText id).bind fun id => context.operationNamed (some id))
  | some _ => .error .typeError

/-- `_arc_endpoints`: the center and the two ends -/
def arcEndpoints (operation : Plan.Operation) : Except KernelError (Point2D × List Point2D) := do
  let center ← pointAt operation "center_mm"
  let radius ← float (← entry operation.geometry "radius_mm")
  let startAngle ← float (← entry operation.geometry "start_angle_deg")
  let endAngle ← float (← entry operation.geometry "end_angle_deg")
  let curve ← normalizeArc center radius startAngle (some endAngle) none
  return (center, [curve.startPoint, curve.endPoint])

/-- A line with its distance to an end of an arc. -/
def lineDistance (endpoint : Point2D) (line : Plan.Operation) : Except KernelError (ℝ × Point2D × Point2D) := do
  let start ← pointAt line "start_mm"
  let endPoint ← pointAt line "end_mm"
  return (min (endpoint.distanceTo start) (endpoint.distanceTo endPoint), start, endPoint)

def endpointFindings (context : RuleContext) (lines : List Plan.Operation) (arcId : String) (center : Point2D)
    (endpoint : Point2D × Nat) : Except KernelError (List Finding) := do
  let candidates ← lines.mapM (lineDistance endpoint.1)
  match candidates.argmin (·.1) with
  | none => return []
  | some (_, start, endPoint) => do
      let angle ← lineAngleDeg start endPoint center endpoint.1 context.tolerance
      if context.tolerance.AngleCloseDeg angle 90 then return []
      else return [{ ruleId := tangencyRuleId, severity := .error
                     message := s!"Slot arc endpoint {endpoint.2} is not tangent to its flank"
                     operationId := some arcId
                     expected := .value (.obj [("tangent_angle_deg", real 90)])
                     actual := .value (.obj [("tangent_angle_deg", real angle)])
                     tolerance := some context.tolerance.angularDeg }]

def arcFindings (context : RuleContext) (lines : List Plan.Operation) (arc : Plan.Operation) :
    Except KernelError (List Finding) := do
  let (center, endpoints) ← arcEndpoints arc
  return (← endpoints.zipIdx.mapM (endpointFindings context lines arc.operationId center)).flatten

def tangencyFindings (context : RuleContext) (expectation : Plan.ValidationExpectation) :
    Except KernelError (List Finding) := do
  let lines ← namedOperations context expectation.expected "line_operation_ids"
  let arcs ← namedOperations context expectation.expected "arc_operation_ids"
  let found := (← arcs.mapM (arcFindings context lines)).flatten
  return found.map fun finding => { finding with featureId := expectation.featureId }

/-- `SlotArcTangencyRule` -/
def slotArcTangencyRule : Rule := fun context =>
  forExpectations context tangencyRuleId (tangencyFindings context)

/-! ## Brackets -/

def perpendicularityRuleId : String := "LBRACKET_LEG_PERPENDICULARITY"

def perpendicularityFindings (context : RuleContext) (expectation : Plan.ValidationExpectation) :
    Except KernelError (List Finding) := do
  match context.operationNamed expectation.operationId with
  | none => return []
  | some operation => do
      let vertices ← geometryPoints operation.geometry "vertices_mm"
      let notClosed : List Finding :=
        if operation.type = .createClosedPolyline then []
        else [{ ruleId := perpendicularityRuleId, severity := .blocking
                message := "L-bracket outline is not a closed polyline"
                expected := .value (.obj [("closed", .bool true)])
                actual := .value (.obj [("closed", .bool false)])
                tolerance := some context.tolerance.coincidenceMm }]
      let askew : List Finding ←
        match vertices, vertices.getLast? with
        | first :: second :: _ :: _, some last => do
            let angle ← lineAngleDeg first second first last context.tolerance
            if context.tolerance.AngleCloseDeg angle 90 then pure []
            else pure [{ ruleId := perpendicularityRuleId, severity := .error
                         message := "L-bracket legs are not perpendicular"
                         expected := .value (.obj [("leg_angle_deg", real 90)])
                         actual := .value (.obj [("leg_angle_deg", real angle)])
                         tolerance := some context.tolerance.angularDeg }]
        | _, _ => pure []
      return (notClosed ++ askew).map (Finding.expecting expectation (some operation.operationId))

/-- `LBracketLegPerpendicularityRule` -/
def lBracketLegPerpendicularityRule : Rule := fun context =>
  forExpectations context perpendicularityRuleId (perpendicularityFindings context)

/-! ## Contour intersections -/

/-- A closed polyline of at least three points. -/
def contourOf (operation : Plan.Operation) : Except KernelError (Option (Plan.Operation × Polyline2D)) := do
  let vertices ← geometryPoints operation.geometry "vertices_mm"
  if vertices.length < 3 then return none
  else return some (operation, ← Polyline2D.checked vertices true)

/-- One contour names the other as its parent. -/
def Related (first second : Plan.Operation) : Prop :=
  let parent (operation : Plan.Operation) := get operation.expected "parent_feature_id"
  let declared := [(first.featureId, parent first), (second.featureId, parent second)]
  (first.featureId, some (.str second.featureId)) ∈ declared ∨ (second.featureId, some (.str first.featureId)) ∈ declared

def parentIndex (parents : List (Option Nat)) (index : Nat) : Value :=
  match parents.getD index none with
  | some parent => count parent
  | none => .null

def intersectionFindings (tolerance : ToleranceProfile) (parents : List (Option Nat))
    (pair : ((Plan.Operation × Polyline2D) × Nat) × ((Plan.Operation × Polyline2D) × Nat)) : List Finding :=
  let ((first, firstContour), firstIndex) := pair.1
  let ((second, secondContour), secondIndex) := pair.2
  let crossings := contourIntersections firstContour secondContour tolerance
  if crossings.isEmpty ∨ Related first second then []
  else [Finding.about second
    { ruleId := "NO_UNDECLARED_CONTOUR_INTERSECTION", severity := .blocking
      message := "Contours intersect without a declared parent-child relationship"
      expected := .value (.obj [("intersection_count", count 0), ("declared_relationship", .bool true)])
      actual := .value (.obj [("intersection_count", count crossings.length), ("declared_relationship", .bool false),
        ("first_feature_id", .str first.featureId),
        ("derived_parent_indices", .arr [parentIndex parents firstIndex, parentIndex parents secondIndex])])
      tolerance := some tolerance.coincidenceMm
      suggestedFix := some "Declare the parent-child relationship or separate the contours" }]

/-- `NoUndeclaredContourIntersectionRule` -/
def noUndeclaredContourIntersectionRule : Rule := fun context => do
  let operations := context.plan.operations.filter (·.type = .createClosedPolyline)
  let contours := (← operations.mapM contourOf).filterMap id
  if contours.length < 2 then return []
  else do
    let parents ← buildForest (contours.map Prod.snd) context.tolerance
    return (orderedPairs contours).flatMap (intersectionFindings context.tolerance parents)

end

end CadHarness.Validation
