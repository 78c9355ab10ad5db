import CadHarness.Domain.Errors

/-!
# Operation plans

`cad_harness.domain.models.operation_plan`: the instructions that an adapter carries out, and the hash
that preview, approval and commit share. SHA-256 is a parameter.
-/

namespace CadHarness.Domain
open CadHarness.Lib CadHarness.Canonical

def schemaVersion : String := "1.13"

inductive OperationType where
  | createLine
  | createPolyline
  | createClosedPolyline
  | createCircle
  | createCircles
  | createArc
  | createText
  | createCenterline
  | createCentermark
  | createLinearDimension
  | createAlignedDimension
  | createDiameterDimension
  | createRadiusDimension
  | createAngularDimension
  | createHatch
  | updateEntity
  | deleteEntity
  deriving DecidableEq

def OperationType.value : OperationType → String
  | .createLine => "create_line"
  | .createPolyline => "create_polyline"
  | .createClosedPolyline => "create_closed_polyline"
  | .createCircle => "create_circle"
  | .createCircles => "create_circles"
  | .createArc => "create_arc"
  | .createText => "create_text"
  | .createCenterline => "create_centerline"
  | .createCentermark => "create_centermark"
  | .createLinearDimension => "create_linear_dimension"
  | .createAlignedDimension => "create_aligned_dimension"
  | .createDiameterDimension => "create_diameter_dimension"
  | .createRadiusDimension => "create_radius_dimension"
  | .createAngularDimension => "create_angular_dimension"
  | .createHatch => "create_hatch"
  | .updateEntity => "update_entity"
  | .deleteEntity => "delete_entity"

structure Operation where
  operationId : String
  featureId : String
  type : OperationType
  layer : String
  geometry : List (String × Value) := []
  expected : List (String × Value) := []
  targetEntityRef : Option String := none

structure ValidationExpectation where
  ruleId : String
  featureId : Option String := none
  operationId : Option String := none
  expected : List (String × Value) := []

structure OperationPlan where
  schemaVersion : String
  planId : String
  jobId : String
  documentId : String
  expectedRevision : String
  canonicalUnits : String
  profileRef : String
  operations : List Operation := []
  validationExpectations : List ValidationExpectation := []
  planHash : Option String := none

/-! ## The plan in JSON mode -/

def Operation.dump (o : Operation) : Value :=
  .obj [("operation_id", .str o.operationId), ("feature_id", .str o.featureId),
    ("type", .str o.type.value), ("layer", .str o.layer), ("geometry", .obj o.geometry),
    ("expected", .obj o.expected), ("target_entity_ref", optional o.targetEntityRef)]

def ValidationExpectation.dump (e : ValidationExpectation) : Value :=
  .obj [("rule_id", .str e.ruleId), ("feature_id", optional e.featureId),
    ("operation_id", optional e.operationId), ("expected", .obj e.expected)]

/-- `model_dump(mode="json")` -/
def OperationPlan.dump (plan : OperationPlan) : Value :=
  .obj [("schema_version", .str plan.schemaVersion), ("plan_id", .str plan.planId),
    ("job_id", .str plan.jobId), ("document_id", .str plan.documentId),
    ("expected_revision", .str plan.expectedRevision), ("canonical_units", .str plan.canonicalUnits),
    ("profile_ref", .str plan.profileRef), ("operations", .arr (plan.operations.map Operation.dump)),
    ("validation_expectations", .arr (plan.validationExpectations.map ValidationExpectation.dump)),
    ("plan_hash", optional plan.planHash)]

/-- `sha256_of` -/
def sha256Of (sha256 : String → String) (value : Value) : String :=
  "sha256:" ++ sha256 (canonicalJson value)

/-- `compute_plan_hash` of the plan in JSON mode. -/
def OperationPlan.computeHash (sha256 : String → String) (plan : OperationPlan) : String :=
  sha256Of sha256 (stripVolatile (volatileFields ++ planIdentityFields) plan.dump)

def OperationPlan.verifyHash (sha256 : String → String) (plan : OperationPlan) (expected : String) : Bool :=
  plan.computeHash sha256 = expected

end CadHarness.Domain
