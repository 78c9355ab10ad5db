import CadHarness.Drawing.Model
import CadHarness.Geometry.Compile
import CadHarness.Geometry.Patterns
import CadHarness.Plan.Model
import Mathlib.Data.List.Basic
import Mathlib.Data.String.Basic

/-!
# The remediation compiler

`cad_harness.application.services.remediation_service`: selected findings of a drawing audit become the operations of
a plan. Numbers are exact; the identifier and the hash of a plan are left out.
-/

namespace CadHarness.Remediation
open CadHarness.Drawing CadHarness.Plan
open CadHarness.Geometry (Point2D CurveParams KernelError Detail ToleranceProfile normalizeArc filletVertex radians
  operationId invalidParameters)

abbrev Shape := EntityGeometry EntityRecord

/-- `(rule_id, entity_ref)` -/
abbrev FindingRef := String × String

/-- What the compiler reads of a finding. -/
structure Finding where
  ruleId : String
  entityRef : Option String := none
  expected : Value := .null
  actual : Value := .null

structure AuditReport where
  profileRef : Option String := none
  findings : List Finding := []

structure DrawingAuditEvidence where
  auditId : String
  documentId : String
  revision : String
  report : AuditReport

/-- One operation, and the finding that caused it. -/
structure OperationSource where
  operationId : String
  ruleId : String
  entityRef : String

structure RemediationResult where
  plan : OperationPlan
  auditId : String
  operationSources : List OperationSource
  selectedFindings : List FindingRef
  technicalInputs : List (String × Dict)

/-! ## Rules -/

def deleteRules : List String := ["DUPLICATE_ENTITY", "ZERO_LENGTH_ENTITY"]

/-- The rules that need a decision, with the paths that are missing. -/
def nonAutomaticRules : List (String × List String) :=
  [("HOLE_EDGE_DISTANCE_MIN", ["remediation.hole.center_or_diameter"]),
    ("HOLE_LIGAMENT_MIN", ["remediation.hole.center_or_diameter"]), ("HOLE_OUTSIDE_PART", ["remediation.hole.center"])]

def directRules : List String :=
  ["OPEN_CONTOUR", "DUPLICATE_ENTITY", "ZERO_LENGTH_ENTITY", "ENTITY_ON_EXPECTED_LAYER", "DIMSTYLE_IN_PROFILE",
    "TEXTSTYLE_IN_PROFILE", "DIMENSION_TEXT_MATCHES_GEOMETRY", "FILLET_NOT_TANGENT", "OVERLAPPING_ENTITY"]

/-! ## Errors -/

/-- `_missing` -/
def missing (ruleId entityRef : String) (paths : List String) : KernelError :=
  .harness .missingRequiredInputs "The selected finding needs an engineering decision before it can be repaired"
    (some "Supply the listed technical value and compile a new remediation plan")
    [("rule_id", .value (.str ruleId)), ("entity_ref", .value (.str entityRef)), ("missing_paths", .paths paths)]

def geometryKind : Shape → String
  | .point _ => "point"
  | .line _ _ => "line"
  | .arc _ _ _ _ => "arc"
  | .circle _ _ => "circle"
  | .ellipse _ _ _ _ => "ellipse"
  | .polyline _ _ => "polyline"
  | .text _ _ _ _ => "text"
  | .dimension _ _ _ _ => "dimension"
  | .hatch _ _ => "hatch"
  | .blockReference _ => "block_reference"

noncomputable section
open Classical

/-! ## Endpoints -/

def point (p : Drawing.Point) : Point2D := ⟨p.1, p.2⟩

/-- `_curve_geometry`; the source asserts the radius -/
def curveGeometry (curve : CurveParams) : Except KernelError Dict :=
  match curve.radiusMm with
  | none => .error .assertionError
  | some radius => .ok [("center_mm", pair curve.center.x curve.center.y), ("radius_mm", real radius),
      ("start_angle_deg", real curve.startAngleDeg), ("end_angle_deg", real curve.endAngleDeg)]

/-- `_entity_endpoints` -/
def entityEndpoints (entity : EntityRecord) : Except KernelError (Point2D × Point2D) :=
  match entity.geometry with
  | .line start finish => .ok (point start, point finish)
  | .arc center radius startAngle endAngle => do
      let curve ← normalizeArc (point center) radius startAngle (some endAngle) none
      return (curve.startPoint, curve.endPoint)
  | .polyline (first :: rest) _ => .ok (point first.pointMm, point (rest.getLastD first).pointMm)
  | geometry => .error (.harness .invalidFeatureParameters
      "The open-contour finding does not reference endpoint geometry"
      (some "Audit the drawing again and select a supported open contour")
      [("entity_ref", .value (.str entity.entityRef)), ("entity_type", .value (.str (geometryKind geometry)))])

/-- The nearest of the pairs, the first of those that are equally near. -/
def nearest (first : Point2D × Point2D) : List (Point2D × Point2D) → Point2D × Point2D
  | [] => first
  | next :: rest =>
      if next.1.distanceTo next.2 < first.1.distanceTo first.2 then nearest next rest else nearest first rest

/-- `_nearest_endpoint_pair` -/
def nearestEndpointPair (first second : EntityRecord) : Except KernelError (Point2D × Point2D) := do
  let (a, b) ← entityEndpoints first
  let (c, d) ← entityEndpoints second
  return nearest (a, c) [(a, d), (b, c), (b, d)]

/-! ## Operations -/

/-- `_update` -/
def update (entity : EntityRecord) (featureId suffix layer : String) (properties expected : Dict) : Operation where
  operationId := operationId featureId suffix
  featureId
  type := .updateEntity
  layer
  geometry := [("properties", .obj properties)]
  expected
  targetEntityRef := some entity.entityRef

def deletion (entity : EntityRecord) (featureId suffix : String) (expected : Dict) : Operation where
  operationId := operationId featureId suffix
  featureId
  type := .deleteEntity
  layer := entity.layer
  expected
  targetEntityRef := some entity.entityRef

/-- The endpoints that a closing line has to join. -/
def openEnds (model : DrawingModel) (finding : Finding) (entity : EntityRecord) :
    Except KernelError (Point2D × Point2D) :=
  let otherRef := match finding.actual with
    | .obj members => members.lookup "other_entity_ref"
    | _ => none
  match entity.geometry, otherRef with
  | .polyline _ false, _ => entityEndpoints entity
  | _, some (.str otherRef) =>
      match model.entities.find? fun candidate => candidate.entityRef = otherRef with
      | some other => nearestEndpointPair entity other
      | none => .error (missing "OPEN_CONTOUR" entity.entityRef ["remediation.open_contour.strategy"])
  | _, _ => .error (missing "OPEN_CONTOUR" entity.entityRef ["remediation.open_contour.strategy"])

variable (tolerance : ToleranceProfile)

/-- `_close_contour` -/
def closeContour (model : DrawingModel) (finding : Finding) (entity : EntityRecord) (featureId : String) :
    Except KernelError (List Operation) := do
  let (start, finish) ← openEnds model finding entity
  let gap := start.distanceTo finish
  if tolerance.IsCoincident gap then
    .error (invalidParameters "The selected contour is already closed within tolerance"
      [("entity_ref", .value (.str entity.entityRef)), ("gap_mm", .number gap)])
  else
    return [{
      operationId := operationId featureId "closure"
      featureId
      type := .createLine
      layer := entity.layer
      geometry := [("start_mm", pair start.x start.y), ("end_mm", pair finish.x finish.y)]
      expected := [("length_mm", real gap), ("remediates_rule_id", .str "OPEN_CONTOUR")] }]

/-- `line_intersection`: where two unbounded lines meet, unless they are nearly parallel -/
def lineIntersection (a₁ a₂ b₁ b₂ : Point2D) : Option Point2D :=
  let first := a₁.vectorTo a₂
  let second := b₁.vectorTo b₂
  if tolerance.IsZeroLength first.length ∨ tolerance.IsZeroLength second.length then none
  else
    let denominator := first.cross second
    if |denominator| / (first.length * second.length) ≤ Real.sin (radians tolerance.angularDeg) then none
    else
      let parameter := (a₁.vectorTo b₁).cross second / denominator
      some ⟨a₁.x + first.dx * parameter, a₁.y + first.dy * parameter⟩

/-- The endpoint that is farther from the vertex, and the name of the other one. -/
def farEnd (vertex start finish : Point2D) : Point2D × String :=
  (if start.distanceTo vertex < finish.distanceTo vertex then finish else start,
    if start.distanceTo vertex ≤ finish.distanceTo vertex then "StartPoint" else "EndPoint")

/-- The records before and after a position. -/
def neighbours (entities : List EntityRecord) : Nat → Option (EntityRecord × EntityRecord)
  | 0 => none
  | index + 1 => entities[index]? >>= fun previous => entities[index + 2]?.map fun following => (previous, following)

/-- `_rebuild_fillet` -/
def rebuildFillet (model : DrawingModel) (index : Nat) (arcEntity : EntityRecord) (featureId : String) (radiusMm : ℝ) :
    Except KernelError (List Operation) :=
  if radiusMm ≤ 0 then
    .error (invalidParameters "Fillet radius must be positive" [("radius_mm", .number radiusMm)])
  else
    match neighbours model.entities index with
    | none => .error (missing "FILLET_NOT_TANGENT" arcEntity.entityRef ["fillet.adjacent_lines"])
    | some (previous, following) =>
        match previous.geometry, following.geometry with
        | .line a b, .line c d => do
            let vertex ← ((lineIntersection tolerance (point a) (point b) (point c) (point d)).elim
              (.error (missing "FILLET_NOT_TANGENT" arcEntity.entityRef ["fillet.vertex"])) .ok)
            let (previousFar, previousProperty) := farEnd vertex (point a) (point b)
            let (followingFar, followingProperty) := farEnd vertex (point c) (point d)
            let rebuilt ← filletVertex previousFar vertex followingFar radiusMm tolerance
            let arc ← curveGeometry rebuilt.arc
            return [
              update previous featureId "previous-tangent" previous.layer
                [(previousProperty, .arr [real rebuilt.tangentIn.x, real rebuilt.tangentIn.y, real 0])]
                [("endpoint_mm", pair rebuilt.tangentIn.x rebuilt.tangentIn.y)],
              deletion arcEntity featureId "delete-old-arc" [("remediates_rule_id", .str "FILLET_NOT_TANGENT")],
              update following featureId "following-tangent" following.layer
                [(followingProperty, .arr [real rebuilt.tangentOut.x, real rebuilt.tangentOut.y, real 0])]
                [("endpoint_mm", pair rebuilt.tangentOut.x rebuilt.tangentOut.y)],
              { operationId := operationId featureId "replacement-arc"
                featureId
                type := .createArc
                layer := arcEntity.layer
                geometry := arc
                expected := [("radius_mm", real radiusMm), ("tangent", .bool true)] }]
        | _, _ => .error (missing "FILLET_NOT_TANGENT" arcEntity.entityRef ["fillet.adjacent_lines"])

/-- The rules that change an entity in place: the suffix of the operation, its layer, what it sets and what it expects. -/
structure Change where
  suffix : String
  layer : String
  properties : Dict := []
  expected : Dict

def expectedLayer (finding : Finding) (entity : EntityRecord) : Except KernelError Change :=
  match finding.expected with
  | .str layer =>
      if layer = "" then .error (missing finding.ruleId entity.entityRef ["finding.expected_layer"])
      else .ok { suffix := "layer", layer, expected := [("layer", .str layer)] }
  | _ => .error (missing finding.ruleId entity.entityRef ["finding.expected_layer"])

def expectedStyle (finding : Finding) (entity : EntityRecord) : Except KernelError Change :=
  match finding.expected with
  | .arr (.str style :: _) => .ok {
      suffix := "style", layer := entity.layer, properties := [("StyleName", .str style)]
      expected := [("style_name", .str style)] }
  | _ => .error (missing finding.ruleId entity.entityRef ["finding.expected_style"])

def expectedMeasurement (finding : Finding) (entity : EntityRecord) : Except KernelError Change :=
  match asNumber finding.expected with
  | some measurement => .ok {
      suffix := "text-override", layer := entity.layer, properties := [("TextOverride", .str "")]
      expected := [("measurement_mm", real measurement)] }
  | none => .error (missing finding.ruleId entity.entityRef ["finding.expected_measurement"])

def Change.operation (change : Change) (entity : EntityRecord) (featureId : String) : Operation :=
  update entity featureId change.suffix change.layer change.properties change.expected

def findingFeature (ref : FindingRef) : String := s!"remediation:{ref.1}:{ref.2}"

/-- `_compile_finding` of the entity at a position -/
def compileFinding (model : DrawingModel) (finding : Finding) (index : Nat) (entity : EntityRecord) (technical : Dict) :
    Except KernelError (List Operation) :=
  let ruleId := finding.ruleId
  let featureId := findingFeature (ruleId, entity.entityRef)
  if ruleId ∈ deleteRules then
    .ok [deletion entity featureId "delete" [("remediates_rule_id", .str ruleId)]]
  else if ruleId = "OVERLAPPING_ENTITY" then
    match technical.lookup "strategy" with
    | some (.str "delete_selected") => .ok [deletion entity featureId "delete-selected"
        [("remediates_rule_id", .str ruleId), ("strategy", .str "delete_selected")]]
    | _ => .error (missing ruleId entity.entityRef ["remediation.overlap.strategy"])
  else if ruleId = "OPEN_CONTOUR" then closeContour tolerance model finding entity featureId
  else if ruleId = "ENTITY_ON_EXPECTED_LAYER" then do
    let change ← expectedLayer finding entity
    return [change.operation entity featureId]
  else if ruleId = "DIMSTYLE_IN_PROFILE" ∨ ruleId = "TEXTSTYLE_IN_PROFILE" then do
    let change ← expectedStyle finding entity
    return [change.operation entity featureId]
  else if ruleId = "DIMENSION_TEXT_MATCHES_GEOMETRY" then do
    let change ← expectedMeasurement finding entity
    return [change.operation entity featureId]
  else if ruleId = "FILLET_NOT_TANGENT" then
    match (technical.lookup "radius_mm").bind asNumber with
    | some radius => rebuildFillet tolerance model index entity featureId radius
    | none => .error (missing ruleId entity.entityRef ["remediation.fillet.radius_mm"])
  else .error .assertionError

/-! ## The plan -/

/-- The finding that a reference stands for: the first of the report. -/
def findingByRef (report : AuditReport) (ref : FindingRef) : Option Finding :=
  report.findings.find? fun finding => finding.ruleId = ref.1 ∧ finding.entityRef = some ref.2

/-- The record of an entity with its position: the last in the drawing. -/
def entityByRef (entities : List EntityRecord) (entityRef : String) : Option (Nat × EntityRecord) :=
  (entities.zipIdx.reverse.find? fun entry => entry.1.entityRef = entityRef).map Prod.swap

/-- The technical values that a selected finding may be given. -/
def allowedTechnical : FindingRef → List (String × List String)
  | ("FILLET_NOT_TANGENT", entityRef) => [(s!"FILLET_NOT_TANGENT:{entityRef}", ["radius_mm"])]
  | ("OVERLAPPING_ENTITY", entityRef) => [(s!"OVERLAPPING_ENTITY:{entityRef}", ["strategy"])]
  | _ => []

/-- The entries that no selected finding asks for. -/
def unexpectedTechnical (selected : List FindingRef) (technical : List (String × Dict)) : List (String × Dict) :=
  let allowed := (selected.flatMap allowedTechnical).reverse
  technical.filter fun entry => match allowed.lookup entry.1 with
    | none => true
    | some keys => entry.2.any fun value => value.1 ∉ keys

/-- The operations of one selected finding. -/
def compileSelected (model : DrawingModel) (report : AuditReport) (technical : List (String × Dict)) (ref : FindingRef) :
    Except KernelError (List Operation) :=
  match findingByRef report ref, entityByRef model.entities ref.2 with
  | none, _ => .error .keyError
  | _, none => .error (invalidParameters "The selected finding references an entity absent from the drawing revision"
      [("rule_id", .value (.str ref.1)), ("entity_ref", .value (.str ref.2))])
  | some finding, some (index, entity) =>
      match nonAutomaticRules.lookup ref.1 with
      | some paths => .error (missing ref.1 ref.2 paths)
      | none =>
          if ref.1 ∉ directRules then .error (missing ref.1 ref.2 [s!"remediation.{ref.1.toLower}.strategy"])
          else compileFinding tolerance model finding index entity ((technical.lookup s!"{ref.1}:{ref.2}").getD [])

def sourcesOf (ref : FindingRef) (operations : List Operation) : List OperationSource :=
  operations.map fun operation => ⟨operation.operationId, ref.1, ref.2⟩

def resolution (ref : FindingRef) : ValidationExpectation where
  ruleId := ref.1
  featureId := some (findingFeature ref)
  expected := [("resolved", .bool true), ("entity_ref", .str ref.2)]

/-- A check that raises. -/
def refuse (p : Prop) (e : KernelError) : Except KernelError Unit := if p then .error e else .ok ()

/-- The checks of `compile_plan` before the findings are compiled; the profile that the report names. -/
def checkSelection (model : DrawingModel) (auditId : String) (evidence : Option DrawingAuditEvidence)
    (selected : List FindingRef) (technical : List (String × Dict)) :
    Except KernelError (DrawingAuditEvidence × String) := do
  refuse (model.geometryNormalized = false)
    (invalidParameters "Remediation requires geometry normalized to millimetres"
      [("geometry_normalized", .value (.bool false))])
  let evidence ← evidence.elim
    (.error (.harness .documentNotFound "The persisted drawing audit does not exist"
      (some "Run and persist a new drawing audit before remediation") [("audit_id", .value (.str auditId))])) .ok
  refuse (evidence.documentId ≠ model.documentId ∨ evidence.revision ≠ model.revision)
    (.harness .staleDocumentRevision "The drawing revision no longer matches the audited revision"
      (some "Audit the current drawing revision before compiling remediation")
      [("audit_id", .value (.str auditId)), ("audit_document_id", .value (.str evidence.documentId)),
        ("audit_revision", .value (.str evidence.revision)), ("drawing_document_id", .value (.str model.documentId)),
        ("drawing_revision", .value (.str model.revision))])
  refuse (selected = [])
    (.harness .invalidFeatureParameters "At least one concrete audit finding must be selected"
      (some "Select findings by (rule_id, entity_ref)") [])
  refuse (¬ selected.Nodup)
    (invalidParameters "A remediation selection cannot contain duplicate finding references")
  let profileRef := evidence.report.profileRef.getD ""
  refuse (profileRef = "") (missing "AUDIT_PROFILE" "document" ["remediation.profile_ref"])
  let unknown := selected.filter fun ref => (findingByRef evidence.report ref).isNone
  refuse (unknown ≠ [])
    (.harness .invalidFeatureParameters "A selected finding is not present in the supplied audit report"
      (some "Audit again and select a finding from that exact report")
      [("unknown_findings", .value (.arr (unknown.map fun ref => .arr [.str ref.1, .str ref.2])))])
  let unexpected := unexpectedTechnical selected technical
  refuse (unexpected ≠ [])
    (.harness .invalidFeatureParameters
      "Remediation accepts only the documented engineering values, never coordinates"
      (some "Remove unrequested technical inputs and compile again")
      [("unexpected_technical_inputs", .value (.obj (unexpected.map fun entry =>
        (entry.1, strings ((entry.2.map Prod.fst).mergeSort (fun a b => decide (a ≤ b)))))))])
  return (evidence, profileRef)

/-- `compile_plan`; the evidence is what the store of the audits holds -/
def compilePlan (jobId : String) (model : DrawingModel) (auditId : String) (evidence : Option DrawingAuditEvidence)
    (selected : List FindingRef) (technical : List (String × Dict)) : Except KernelError RemediationResult := do
  let (evidence, profileRef) ← checkSelection model auditId evidence selected technical
  let generated ← selected.mapM (compileSelected tolerance model evidence.report technical)
  return {
    plan := {
      jobId
      documentId := model.documentId
      expectedRevision := evidence.revision
      profileRef
      operations := generated.flatten
      validationExpectations := selected.map resolution }
    auditId
    operationSources := (selected.zip generated).flatMap fun pair => sourcesOf pair.1 pair.2
    selectedFindings := selected
    technicalInputs := technical }

end

end CadHarness.Remediation
