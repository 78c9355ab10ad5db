import CadHarness.Domain.Plan
import Mathlib.Tactic.Linarith
import Mathlib.Tactic.Positivity

/-!
# Reports, approvals and receipts

The records that pass between the service, its store and its adapter.
-/

namespace CadHarness.Domain
open CadHarness.Lib

/-- Microseconds since the epoch. -/
abbrev Time := Int

/-! ## Validation -/

inductive Severity where
  | info
  | warning
  | error
  | blocking
  deriving DecidableEq

def Severity.value : Severity → String
  | .info => "info"
  | .warning => "warning"
  | .error => "error"
  | .blocking => "blocking"

inductive ValidationStage where
  | schema
  | semanticInput
  | plan
  | previewGeometry
  | companyStandard
  | preCommit
  | postCommit
  | drawingAudit
  | drawingStandard
  deriving DecidableEq

def ValidationStage.value : ValidationStage → String
  | .schema => "schema"
  | .semanticInput => "semantic_input"
  | .plan => "plan"
  | .previewGeometry => "preview_geometry"
  | .companyStandard => "company_standard"
  | .preCommit => "pre_commit"
  | .postCommit => "post_commit"
  | .drawingAudit => "drawing_audit"
  | .drawingStandard => "drawing_standard"

structure Finding where
  ruleId : String
  severity : Severity
  message : String
  featureId : Option String := none
  entityRef : Option String := none
  operationId : Option String := none
  expected : Value := .null
  actual : Value := .null
  suggestedFix : Option String := none

def Finding.dump (f : Finding) : Value :=
  .obj [("rule_id", .str f.ruleId), ("severity", .str f.severity.value), ("message", .str f.message),
    ("feature_id", optional f.featureId), ("entity_ref", optional f.entityRef),
    ("operation_id", optional f.operationId), ("expected", f.expected), ("actual", f.actual),
    ("suggested_fix", optional f.suggestedFix)]

/-- A report. The counts are derived from the findings. -/
structure ValidationReport where
  schemaVersion : String
  validationId : String
  jobId : String
  stage : ValidationStage
  planHash : Option String := none
  findings : List Finding := []
  entitiesExamined : Nat := 0
  companyApproved : Bool := false
  profileRef : Option String := none

namespace ValidationReport

def count (r : ValidationReport) (severity : Severity) : Nat :=
  (r.findings.filter (fun f => decide (f.severity = severity))).length

def blockingCount (r : ValidationReport) : Nat := r.count .blocking
def errorCount (r : ValidationReport) : Nat := r.count .error
def warningCount (r : ValidationReport) : Nat := r.count .warning

def hasBlocking (r : ValidationReport) : Bool := 0 < r.blockingCount

def gateAllowsCommit (r : ValidationReport) : Bool :=
  if r.hasBlocking then false else !decide (0 < r.errorCount)

/-- The rules of the findings that are warnings. -/
def warningRuleIds (r : ValidationReport) : List String :=
  (r.findings.filter (fun f => decide (f.severity = .warning))).map Finding.ruleId

/-- `_validation_decision_digest` hashes the report without its identifier. -/
def decision (r : ValidationReport) : Value :=
  .obj [("schema_version", .str r.schemaVersion), ("job_id", .str r.jobId), ("stage", .str r.stage.value),
    ("plan_hash", optional r.planHash), ("findings", .arr (r.findings.map Finding.dump)),
    ("entities_examined", natural r.entitiesExamined), ("company_approved", .bool r.companyApproved),
    ("profile_ref", optional r.profileRef), ("blocking_count", natural r.blockingCount),
    ("error_count", natural r.errorCount), ("warning_count", natural r.warningCount),
    ("info_count", natural (r.count .info))]

end ValidationReport

/-- A persisted drawing audit. -/
structure DrawingAuditEvidence where
  auditId : String
  documentId : String
  revision : String
  report : ValidationReport

/-! ## Approval -/

structure ApprovalRecord where
  approvalId : String
  jobId : String
  documentId : String
  expectedRevision : String
  planHash : String
  approvedBy : String
  approvedAt : Time
  expiresAt : Time
  warningsAcknowledged : List String := []
  deriving DecidableEq

def ApprovalRecord.isExpired (a : ApprovalRecord) (now : Time) : Bool := now > a.expiresAt

def ApprovalRecord.matches (a : ApprovalRecord) (jobId planHash revision : String) : Bool :=
  a.jobId = jobId && a.planHash = planHash && a.expectedRevision = revision

/-! ## Results -/

inductive CommitStatus where
  | committed
  | aborted
  | unknown
  deriving DecidableEq

structure EntityResult where
  operationId : String
  featureId : String
  entityRef : String
  entityType : String
  measurements : List (String × Value) := []

structure CommitResult where
  jobId : String
  planHash : String
  status : CommitStatus
  entityResults : List EntityResult := []
  previousRevision : String
  newRevision : String
  checkpointId : Option String := none
  undoGroup : Option String := none

structure EntityMappingRecord where
  documentId : String
  featureId : String
  operationId : String
  entityRef : String
  lastRevision : String
  expectedLayer : Option String := none
  deriving DecidableEq

structure Checkpoint where
  checkpointId : String
  jobId : String
  revision : String
  artifactRef : String
  deriving DecidableEq

structure RollbackResult where
  jobId : String
  restoredRevision : String
  checkpointId : Option String := none
  method : String

/-! ## Documents and specifications -/

structure DocumentSnapshot where
  documentId : String
  revision : String
  units : String
  layers : List String
  dimensionStyles : List String
  textStyles : List String

structure Feature where
  type : String
  parameters : List (String × Value)

structure DrawingSpec where
  specId : String
  documentId : String
  features : List Feature

structure RemediationResult where
  plan : OperationPlan
  auditId : String
  selectedFindings : List (String × String)
  technicalInputs : Value

end CadHarness.Domain

/-!
## Writer leases

`cad_harness.domain.models.lease`, and the settings from which a lease service takes its time to live.
-/

namespace CadHarness.Domain
open CadHarness.Lib

/-- Exclusive, expiring ownership of one document's write path. -/
structure WriterLease where
  leaseId : String
  documentId : String
  ownerId : String
  acquiredAt : Time
  expiresAt : Time
  heartbeatAt : Time
  deriving DecidableEq

/-- `_timestamps_are_ordered` -/
def WriterLease.validated (lease : WriterLease) : Except Exc WriterLease :=
  if lease.expiresAt ≤ lease.acquiredAt then
    .error (.valueError "expires_at must be later than acquired_at")
  else if ¬ (lease.acquiredAt ≤ lease.heartbeatAt ∧ lease.heartbeatAt < lease.expiresAt) then
    .error (.valueError "heartbeat_at must fall within the lease interval")
  else .ok lease

theorem WriterLease.validated_eq_ok {lease : WriterLease} (h : lease.acquiredAt ≤ lease.heartbeatAt)
    (h' : lease.heartbeatAt < lease.expiresAt) : lease.validated = .ok lease := by
  rw [validated, if_neg (not_le.mpr (lt_of_le_of_lt h h')), if_neg (not_not_intro ⟨h, h'⟩)]

/-- The settings of a lease service, as they are validated. -/
structure LeaseSettings where
  ttlSeconds : Nat := 30
  heartbeatIntervalSeconds : Nat := 5
  minimumRemainingSeconds : Nat := 15
  ttlRange : 5 ≤ ttlSeconds ∧ ttlSeconds ≤ 3600 := by decide
  intervalRange : 1 ≤ heartbeatIntervalSeconds ∧ heartbeatIntervalSeconds ≤ 600 := by decide
  remainingRange : 1 ≤ minimumRemainingSeconds ∧ minimumRemainingSeconds ≤ 3600 := by decide
  budget : minimumRemainingSeconds + heartbeatIntervalSeconds ≤ ttlSeconds := by decide

/-- `timedelta(seconds=ttl_seconds)` -/
def LeaseSettings.ttl (settings : LeaseSettings) : Time := settings.ttlSeconds * 1000000

theorem LeaseSettings.ttl_pos (settings : LeaseSettings) : 0 < settings.ttl := by
  have h : 0 < settings.ttlSeconds := lt_of_lt_of_le (by decide) settings.ttlRange.1
  unfold ttl
  positivity

end CadHarness.Domain
