import CadHarness.Domain.Job
import CadHarness.Domain.Records
import CadHarness.Lib.Assoc
import CadHarness.Lib.Prog

/-!
# The job store port

What the service asks of its store. A store answers each request at one moment of a clock, and a request
that it refuses leaves it as it is.
-/

namespace CadHarness.Persistence
open CadHarness.Lib CadHarness.Domain

/-- What a successful or proven failed write leaves behind, in one transaction. -/
structure Finalization where
  job : CadJob
  leaseId : String
  now : Time
  mappings : List EntityMappingRecord
  idempotencyKey : String
  requestDigest : String
  result : CommitResult
  checkpoint : Option Checkpoint := none

inductive StoreOp where
  | saveJob (job : CadJob)
  | getJob (jobId : String)
  | saveSpec (jobId : String) (spec : DrawingSpec)
  | savePlan (plan : OperationPlan)
  | getPlan (jobId : String)
  | saveRemediation (jobId planHash : String) (payload : RemediationResult)
  | getRemediation (jobId : String)
  | saveValidation (report : ValidationReport)
  | getValidation (jobId : String)
  | saveApproval (approval : ApprovalRecord)
  | getApproval (approvalId : String)
  | revokeApprovalsForJob (jobId : String)
  | findExecution (jobId idempotencyKey : String)
  | entityMappingsFor (documentId : String)
  | finalizeJob (job : CadJob) (leaseId : String) (now : Time) (mappings : List EntityMappingRecord)
  | finalizeCommit (f : Finalization)

namespace StoreOp

/-- What a request returns. A finalization tells whether it released the lease. -/
@[reducible] def Answer : StoreOp → Type
  | saveJob _ | savePlan _ | saveRemediation _ _ _ | saveValidation _ | saveApproval _
  | revokeApprovalsForJob _ => Unit
  | getJob _ => Option CadJob
  | saveSpec _ _ => Nat
  | getPlan _ => Option OperationPlan
  | getRemediation _ => Option (String × RemediationResult)
  | getValidation _ => Option ValidationReport
  | getApproval _ => Option ApprovalRecord
  | findExecution _ _ => Option (String × CommitResult)
  | entityMappingsFor _ => List EntityMappingRecord
  | finalizeJob _ _ _ _ | finalizeCommit _ => Bool

/-- The job that a request persists. -/
def job? : StoreOp → Option CadJob
  | saveJob job => some job
  | finalizeJob job _ _ _ => some job
  | finalizeCommit f => some f.job
  | _ => none

end StoreOp

/-- A store of jobs: how it answers a request at a given time. -/
structure JobStore (σ : Type) where
  handle : Time → σ → (o : StoreOp) → Except Exc (o.Answer × σ)

end CadHarness.Persistence

/-!
## The store in memory

`cad_harness.persistence.memory_store`: a dictionary for each kind of record. It has no clock, and it
never releases a lease.
-/

namespace CadHarness.Persistence
open CadHarness.Lib CadHarness.Domain

structure InMemoryJobStore where
  jobs : List (String × CadJob) := []
  specs : List (String × List DrawingSpec) := []
  plans : List (String × OperationPlan) := []
  remediations : List (String × (String × RemediationResult)) := []
  validations : List (String × ValidationReport) := []
  approvals : List (String × ApprovalRecord) := []
  /-- `(job_id, idempotency_key)` to `(request_digest, result)` -/
  executions : List ((String × String) × (String × CommitResult)) := []
  entityMappings : List EntityMappingRecord := []
  checkpoints : List (String × Checkpoint) := []

namespace InMemoryJobStore

def saveJob (s : InMemoryJobStore) (job : CadJob) : InMemoryJobStore :=
  { s with jobs := Assoc.set s.jobs job.jobId job }

def getJob (s : InMemoryJobStore) (jobId : String) : Option CadJob := s.jobs.lookup jobId

def saveSpec (s : InMemoryJobStore) (jobId : String) (spec : DrawingSpec) : Nat × InMemoryJobStore :=
  let versions := (s.specs.lookup jobId).getD [] ++ [spec]
  (versions.length, { s with specs := Assoc.set s.specs jobId versions })

def savePlan (s : InMemoryJobStore) (plan : OperationPlan) : InMemoryJobStore :=
  { s with plans := Assoc.set s.plans plan.jobId plan }

def saveRemediation (s : InMemoryJobStore) (jobId planHash : String) (payload : RemediationResult) :
    Except Exc InMemoryJobStore :=
  if (s.remediations.lookup jobId).isSome then
    .error (.valueError "remediation evidence is append-only per job")
  else .ok { s with remediations := Assoc.set s.remediations jobId (planHash, payload) }

def saveValidation (s : InMemoryJobStore) (report : ValidationReport) : InMemoryJobStore :=
  { s with validations := Assoc.set s.validations report.jobId report }

def saveApproval (s : InMemoryJobStore) (approval : ApprovalRecord) : InMemoryJobStore :=
  { s with approvals := Assoc.set s.approvals approval.approvalId approval }

def revokeApprovalsForJob (s : InMemoryJobStore) (jobId : String) : InMemoryJobStore :=
  { s with approvals := s.approvals.filter (fun a => decide (a.2.jobId ≠ jobId)) }

def entityMappingsFor (s : InMemoryJobStore) (documentId : String) : List EntityMappingRecord :=
  s.entityMappings.filter (fun m => decide (m.documentId = documentId))

def saveCheckpoint (s : InMemoryJobStore) (checkpoint : Checkpoint) : InMemoryJobStore :=
  { s with checkpoints := Assoc.set s.checkpoints checkpoint.checkpointId checkpoint }

def recordExecution (s : InMemoryJobStore) (jobId idempotencyKey requestDigest : String)
    (result : CommitResult) : InMemoryJobStore :=
  { s with executions := Assoc.set s.executions (jobId, idempotencyKey) (requestDigest, result) }

def finalizeJob (s : InMemoryJobStore) (job : CadJob) (mappings : List EntityMappingRecord) :
    InMemoryJobStore :=
  { s.saveJob job with entityMappings := s.entityMappings ++ mappings }

def finalizeCommit (s : InMemoryJobStore) (f : Finalization) : InMemoryJobStore :=
  let s := s.finalizeJob f.job f.mappings
  let s := match f.checkpoint with
    | some checkpoint => s.saveCheckpoint checkpoint
    | none => s
  s.recordExecution f.job.jobId f.idempotencyKey f.requestDigest f.result

def handle (s : InMemoryJobStore) : (o : StoreOp) → Except Exc (o.Answer × InMemoryJobStore)
  | .saveJob job => .ok ((), s.saveJob job)
  | .getJob jobId => .ok (s.getJob jobId, s)
  | .saveSpec jobId spec => .ok (s.saveSpec jobId spec)
  | .savePlan plan => .ok ((), s.savePlan plan)
  | .getPlan jobId => .ok (s.plans.lookup jobId, s)
  | .saveRemediation jobId planHash payload =>
      (s.saveRemediation jobId planHash payload).map (fun s => ((), s))
  | .getRemediation jobId => .ok (s.remediations.lookup jobId, s)
  | .saveValidation report => .ok ((), s.saveValidation report)
  | .getValidation jobId => .ok (s.validations.lookup jobId, s)
  | .saveApproval approval => .ok ((), s.saveApproval approval)
  | .getApproval approvalId => .ok (s.approvals.lookup approvalId, s)
  | .revokeApprovalsForJob jobId => .ok ((), s.revokeApprovalsForJob jobId)
  | .findExecution jobId key => .ok (s.executions.lookup (jobId, key), s)
  | .entityMappingsFor documentId => .ok (s.entityMappingsFor documentId, s)
  | .finalizeJob job _ _ mappings => .ok (false, s.finalizeJob job mappings)
  | .finalizeCommit f => .ok (false, s.finalizeCommit f)

def port : JobStore InMemoryJobStore where
  handle _ s o := s.handle o

end InMemoryJobStore

end CadHarness.Persistence
