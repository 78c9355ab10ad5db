import CadHarness.Service.HarnessService

/-!
# Commit and rollback

`HarnessService.commit`, `approve_rollback` and `rollback`. A commit passes its gates, takes the writer
lease, calls the adapter and leaves one terminal state behind.
-/

namespace CadHarness.Service
open CadHarness.Lib CadHarness.Domain CadHarness.Persistence

variable (cfg : Config)

/-- `with self.lease_service.hold(...)`: the lease is left however the block ends. -/
def hold {α : Type} (documentId ownerId : String) (body : WriterLease → HarnessM α) : HarnessM α := do
  let lease ← task (.acquireLease documentId ownerId)
  let r ← attempt (body lease)
  task (.leaveHold lease.leaseId)
  ofExcept r

/-! ## The gates of a commit -/

structure CommitArgs where
  jobId : String
  idempotencyKey : String
  expectedRevision : String
  planHash : String
  approvalToken : String

/-- What the first gates of a commit establish. -/
structure Authorized where
  job : CadJob
  plan : OperationPlan
  requestDigest : String
  approval : Option ApprovalRecord
  previous : Option (String × CommitResult)

def requestDigest (c : CommitArgs) : String :=
  sha256Of cfg.sha256 (.obj [("job_id", .str c.jobId), ("plan_hash", .str c.planHash),
    ("expected_revision", .str c.expectedRevision)])

/-- The approval of a job, with its token verified, where approval is required. -/
def requireApproval (c : CommitArgs) (job : CadJob) : HarnessM (Option ApprovalRecord) := do
  if cfg.settings.requireCommitApproval then
    let approval ← match job.approvalId with
      | some approvalId => store (.getApproval approvalId)
      | none => pure none
    match approval with
    | none =>
        throw (raised .approvalRequired "No valid approval recorded for this job"
          "Have an engineer approve the current preview" [])
    | some approval =>
        verifyApprovalToken cfg c.approvalToken approval cfg.settings.approvalSecret c.jobId c.planHash
          c.expectedRevision
        return some approval
  else
    return none

/-- Steps 1 to 3: a conflicting key, the exact plan, and the approval. -/
def authorizeCommit (c : CommitArgs) : HarnessM Authorized := do
  let job ← requireJob c.jobId
  let plan ← requirePlan cfg c.jobId
  requireCurrentPlanSchema plan
  let digest := requestDigest cfg c
  let previous ← store (.findExecution c.jobId c.idempotencyKey)
  if previous.any (fun p => decide (p.1 ≠ digest)) then
    throw (raised .idempotencyKeyReused "Idempotency key was already used for a different request"
      "Generate a new idempotency key for this request" [("idempotency_key", .str c.idempotencyKey)])
  if plan.planHash ≠ some c.planHash then
    throw (raised .planHashMismatch "The approved preview does not match the submitted commit plan"
      "Generate a new preview and request approval"
      [("approved_plan_hash", optional plan.planHash), ("submitted_plan_hash", .str c.planHash)])
  let approval ← requireApproval cfg c job
  return ⟨job, plan, digest, approval, previous⟩

/-- Whether a report allows the commit of a plan. Without an approval every warning counts as seen. -/
def reportAllows (report : ValidationReport) (plan : OperationPlan) (jobId : String)
    (approval : Option ApprovalRecord) : Bool :=
  validationMatchesPlan report plan jobId && report.gateAllowsCommit &&
  match approval with
  | some approval => report.warningRuleIds.all (fun i => decide (i ∈ approval.warningsAcknowledged))
  | none => true

/-- The warnings that an approval does not acknowledge. -/
def unacknowledged (report : ValidationReport) (approval : Option ApprovalRecord) : List String :=
  match approval with
  | some approval =>
      sortedSet (report.warningRuleIds.filter (fun i => decide (i ∉ approval.warningsAcknowledged)))
  | none => []

/-- `_load_remediation_for_plan` -/
def loadRemediationForPlan (jobId : String) (plan : OperationPlan) : HarnessM (Option RemediationResult) := do
  let cached ← host (.getRemediationJob jobId)
  match ← store (.getRemediation jobId) with
  | none =>
      if plan.operations.any (fun o => "remediation:".isPrefixOf o.featureId) then
        throw (raised .documentNotFound "Persisted remediation selection is missing"
          "Do not commit this job; create a new job from a current audit" [("job_id", .str jobId)])
      return none
  | some (storedPlanHash, remediation) =>
      if plan.planHash ≠ some storedPlanHash ∨ remediation.plan.planHash ≠ plan.planHash ∨
          remediation.plan.jobId ≠ jobId ∨ cached.any (fun c =>
            decide (c.auditId ≠ remediation.auditId ∨ c.selectedFindings ≠ remediation.selectedFindings ∨
              c.plan.planHash ≠ remediation.plan.planHash)) then
        throw (raised .planHashMismatch "Persisted remediation evidence does not match the current plan"
          "Do not commit this job; create a new job from a current audit" [("job_id", .str jobId)])
      host (.setRemediationJob jobId remediation)
      return some remediation

/-- The report that was approved still allows the commit. -/
def requireApprovedReport (c : CommitArgs) (a : Authorized) : HarnessM Unit := do
  let approvedReport ← store (.getValidation c.jobId)
  if !approvedReport.any (fun report => reportAllows report a.plan c.jobId a.approval) then
    throw (raised .approvalRequired "Approved validation evidence no longer allows this commit"
      "Review the current PRE_COMMIT findings and approve again"
      [("validation_present", .bool approvedReport.isSome),
        ("unacknowledged_warning_rule_ids",
          strings ((approvedReport.map (fun r => unacknowledged r a.approval)).getD []))])

/-- The gates that only a fresh commit passes: the evidence, the writer and the live document. -/
def requireEvidence (c : CommitArgs) (a : Authorized) : HarnessM (Option RemediationResult) := do
  if a.job.state = .unknownCommitState then
    throw (raised .unknownCommitState
      "This job has an unknown commit outcome and cannot be committed automatically"
      "Reconcile stored mappings against the drawing; do not retry"
      [("job_id", .str c.jobId), ("document_id", .str a.job.documentId)])
  requireApprovedReport c a
  let remediation ← loadRemediationForPlan c.jobId a.plan
  requireWriterCompatible
  let _ ← inspectDocument (some a.job.documentId)
  let report ← validateWith cfg c.jobId .preCommit true
  if !reportAllows report a.plan c.jobId a.approval then
    throw (raised .approvalRequired "Current validation evidence does not allow this commit"
      "Resolve findings, re-validate and approve the exact current plan"
      [("validation_present", .bool true), ("stage", .str report.stage.value),
        ("blocking", natural report.blockingCount), ("errors", natural report.errorCount),
        ("unacknowledged_warning_rule_ids", strings (unacknowledged report a.approval))])
  if !(← adapter (.validateRevision a.job.documentId c.expectedRevision)) then
    throw (raised .staleDocumentRevision "Document changed since the plan was approved"
      "Re-inspect, regenerate preview, validate and approve again"
      [("expected_revision", .str c.expectedRevision)])
  return remediation

/-! ## The write -/

/-- The lease was lost before the outcome was known. -/
def leaseLost (message jobId documentId : String) : Exc :=
  raised .unknownCommitState message "Reconcile stored mappings against the drawing; do not retry"
    [("job_id", .str jobId), ("document_id", .str documentId)]

/-- The mappings of the entities that a commit left in the drawing. -/
def entityMappings (job : CadJob) (plan : OperationPlan) (result : CommitResult) :
    List EntityMappingRecord :=
  let operation? (operationId : String) : Option Operation :=
    plan.operations.findRev? (fun o => decide (o.operationId = operationId))
  (result.entityResults.filter (fun entity =>
    decide ((operation? entity.operationId).map Operation.type ≠ some .deleteEntity))).map (fun entity =>
      { documentId := job.documentId, featureId := entity.featureId, operationId := entity.operationId,
        entityRef := entity.entityRef, lastRevision := result.newRevision,
        expectedLayer := (operation? entity.operationId).map Operation.layer })

/-- The checkpoint of a commit, if the adapter made one. -/
def checkpointOf (jobId : String) (result : CommitResult) : Option Checkpoint :=
  result.checkpointId.map (fun checkpointId =>
    { checkpointId, jobId, revision := result.previousRevision,
      artifactRef := "adapter-checkpoint://" ++ checkpointId })

/-- A commit as it stands after the adapter answered. -/
structure Written where
  job : CadJob
  plan : OperationPlan
  lease : WriterLease
  requestDigest : String
  result : CommitResult

/-- Call the adapter. What it raises leaves the job failed, or unknown. -/
def applyPlan (c : CommitArgs) (a : Authorized) (job : CadJob) (lease : WriterLease) :
    HarnessM CommitResult := do
  let outcome ← attempt (do
    let result ← adapter (.commit
      { plan := a.plan, idempotencyKey := c.idempotencyKey, expectedRevision := c.expectedRevision,
        approvalToken := c.approvalToken, createCheckpoint := true })
    match result.undoGroup with
    | some undoGroup => host (.setUndoReceipt c.jobId undoGroup result.newRevision)
    | none => pure ()
    return result)
  match outcome with
  | .ok result => return result
  | .error exc =>
      let now ← task .leaseClock
      let leaseUnknown := !(← host (.leaseIsValidAt lease.leaseId now))
      let target := if exc.isUnknownCommitState || leaseUnknown then JobState.unknownCommitState
        else JobState.failed
      let terminal ← ofExcept (job.transitionTo target)
      let released ← store (.finalizeJob terminal lease.leaseId now [])
      host (.noteReleased lease.leaseId released)
      audit "COMMIT_FAILED" (some c.jobId)
        [("error", .str exc.typeName), ("outcome", .str target.value)]
      if leaseUnknown && !exc.isUnknownCommitState then
        throw (leaseLost "Writer lease was lost before the commit outcome was known" c.jobId job.documentId)
      throw exc

/-- Persist the outcome of a commit together with its receipt. -/
def finalizeCommit (c : CommitArgs) (w : Written) (terminal : CadJob) (now : Time) : HarnessM Unit := do
  let released ← store (.finalizeCommit
    { job := terminal, leaseId := w.lease.leaseId, now, mappings := entityMappings w.job w.plan w.result,
      idempotencyKey := c.idempotencyKey, requestDigest := w.requestDigest, result := w.result,
      checkpoint := checkpointOf c.jobId w.result })
  host (.noteReleased w.lease.leaseId released)

/-- The job with the checkpoint and the revision of its receipt. -/
def withReceipt (result : CommitResult) (job : CadJob) : CadJob :=
  { job with checkpointId := result.checkpointId, expectedRevision := result.newRevision }

/-- A commit that was made but does not stand. -/
def failWritten (c : CommitArgs) (w : Written) (payload : List (String × Value)) (exc : Exc) :
    HarnessM Unit := do
  let terminal ← ofExcept (w.job.transitionTo .failed (withReceipt w.result))
  finalizeCommit c w terminal (← task .leaseClock)
  audit "COMMIT_FAILED" (some c.jobId) payload
  throw exc

/-- Read the geometry back through the rules. -/
def requirePostReport (c : CommitArgs) (w : Written) : HarnessM Unit := do
  let postReport ← task (.runRules .postCommit w.plan (some w.result) c.jobId)
  store (.saveValidation postReport)
  if postReport.hasBlocking then
    failWritten c w
      [("reason", .str "post_commit_validation"), ("findings", natural postReport.blockingCount)]
      (raised .postCommitValidationFailed "Committed geometry does not match the approved plan"
        "Roll back to the checkpoint and re-plan"
        [("blocking_findings", .arr ((postReport.findings.filter (fun f =>
            decide (f.severity = .blocking))).map Finding.dump)),
          ("checkpoint_id", optional w.result.checkpointId)])

/-- The rule and the entity of each finding. -/
def findingKeys (report : ValidationReport) : List (String × Option String) :=
  report.findings.map (fun f => (f.ruleId, f.entityRef))

/-- `key=lambda item: (item[0], item[1] or "")` -/
def findingOrder (a b : String × Option String) : Prop :=
  a.1 < b.1 ∨ a.1 = b.1 ∧ a.2.getD "" ≤ b.2.getD ""

instance (a b : String × Option String) : Decidable (findingOrder a b) := by
  unfold findingOrder
  infer_instance

/-- Read the drawing back and audit it: the selected findings that remain, and the findings that are new. -/
def reaudit (c : CommitArgs) (w : Written) (remediation : RemediationResult) :
    HarnessM (List (String × String) × List (String × Option String)) := do
  if !(← host .hasDrawingModelReader) then throw .assertionError
  let readback ← task (.readDrawing w.job.documentId)
  if readback.revision ≠ w.result.newRevision then
    throw (raised .staleDocumentRevision "Post-remediation readback did not match the committed revision" ""
      [("committed_revision", .str w.result.newRevision), ("readback_revision", .str readback.revision)])
  let mappings ← store (.entityMappingsFor w.job.documentId)
  let layers := mappings.filterMap (fun m => m.expectedLayer.map (fun layer => (m.entityRef, layer)))
  let report ← task (.auditDrawing readback c.jobId layers)
  store (.saveValidation report)
  let current := findingKeys report
  let remaining := remediation.selectedFindings.filter (fun i => decide ((i.1, some i.2) ∈ current))
  if !(← host .hasDrawingAuditStore) then throw .assertionError
  match ← task (.getDrawingAudit remediation.auditId) with
  | none => throw (raised .documentNotFound "Persisted remediation audit disappeared" "" [])
  | some baseline =>
      let known := findingKeys baseline.report
      let introduced := (current.filter (fun i => decide (i ∉ known))).dedup
      return (remaining, introduced.insertionSort (fun a b => decide (findingOrder a b)))

/-- A finding as a pair in JSON. -/
def findingPair (item : String × Option String) : Value := .arr [.str item.1, optional item.2]

/-- The commit of a remediation stands only if the new audit finds nothing selected and nothing new. -/
def requireRemediated (c : CommitArgs) (w : Written) (remediation : RemediationResult) : HarnessM Unit := do
  let outcome ← attempt (reaudit c w remediation)
  let (remaining, introduced, readbackError) := match outcome with
    | .ok (remaining, introduced) => (remaining, introduced, none)
    | .error exc => (remediation.selectedFindings, [], some exc.typeName)
  let resolved := remediation.selectedFindings.filter (fun i => decide (i ∉ remaining))
  audit "DRAWING_AUDITED" (some c.jobId)
    [("document_id", .str w.job.documentId), ("revision", .str w.result.newRevision),
      ("selected_count", natural remediation.selectedFindings.dedup.length),
      ("resolved_count", natural resolved.length), ("remaining_count", natural remaining.length),
      ("introduced_count", natural introduced.length), ("readback_error", optional readbackError)]
  if remaining ≠ [] ∨ introduced ≠ [] then
    let remainingPairs := remaining.map (fun i => (i.1, some i.2))
    failWritten c w
      [("reason", .str "remediation_reaudit"), ("remaining_findings", natural remaining.length),
        ("introduced_findings", natural introduced.length), ("readback_error", optional readbackError)]
      (raised .postCommitValidationFailed "One or more selected audit findings remain after remediation"
        "Roll back to the checkpoint, audit again and re-plan"
        [("resolved_findings", .arr (resolved.map (fun i => findingPair (i.1, some i.2)))),
          ("remaining_findings", .arr (remainingPairs.map findingPair)),
          ("introduced_findings", .arr (introduced.map findingPair)),
          ("remaining_rule_ids", strings (sortedSet ((remainingPairs ++ introduced).map Prod.fst))),
          ("checkpoint_id", optional w.result.checkpointId), ("readback_error", optional readbackError)])

/-- The end of a commit that stands, if the lease is still held. -/
def concludeCommit (c : CommitArgs) (w : Written) : HarnessM CommitResult := do
  let now ← task .leaseClock
  if !(← host (.leaseIsValidAt w.lease.leaseId now)) then
    let terminal ← ofExcept (w.job.transitionTo .unknownCommitState)
    let released ← store (.finalizeJob terminal w.lease.leaseId now (entityMappings w.job w.plan w.result))
    host (.noteReleased w.lease.leaseId released)
    throw (leaseLost "Writer lease expired or could not be renewed while commit was running" c.jobId
      w.job.documentId)
  else
    let committed ← ofExcept (w.job.transitionTo .committed (withReceipt w.result))
    finalizeCommit c w committed now
    audit "COMMIT_SUCCEEDED" (some c.jobId)
      [("plan_hash", .str c.planHash), ("entities", natural w.result.entityResults.length),
        ("new_revision", .str w.result.newRevision)]
    return w.result

/-- The part of a commit under the writer lease. -/
def commitUnderLease (c : CommitArgs) (a : Authorized) (remediation : Option RemediationResult)
    (lease : WriterLease) : HarnessM CommitResult := do
  let job ← ofExcept (a.job.transitionTo .committing)
  store (.saveJob job)
  audit "COMMIT_STARTED" (some c.jobId)
    [("plan_hash", .str c.planHash), ("idempotency_key", .str c.idempotencyKey)]
  let result ← applyPlan c a job lease
  let w : Written := ⟨job, a.plan, lease, a.requestDigest, result⟩
  requirePostReport c w
  match remediation with
  | some remediation => requireRemediated c w remediation
  | none => pure ()
  concludeCommit c w

def commit (c : CommitArgs) : HarnessM CommitResult := do
  let a ← authorizeCommit cfg c
  match a.previous with
  | some (_, result) => return result
  | none =>
      let remediation ← requireEvidence cfg c a
      hold a.job.documentId c.jobId (commitUnderLease c a remediation)

/-! ## Rollback -/

/-- A job with a proven checkpoint to go back to. -/
def requireCheckpoint (job : CadJob) : HarnessM String :=
  match job.checkpointId with
  | some checkpointId =>
      if job.state = .committed ∨ job.state = .failed then pure checkpointId
      else throw (raised .rollbackNotAvailable "This job has no proven post-commit checkpoint to restore"
        "Reconcile the commit outcome or choose a committed job checkpoint"
        [("job_state", .str job.state.value)])
  | none => throw (raised .rollbackNotAvailable "This job has no proven post-commit checkpoint to restore"
      "Reconcile the commit outcome or choose a committed job checkpoint"
      [("job_state", .str job.state.value)])

def rollbackScope (jobId : String) : HarnessM RollbackScope := do
  let job ← requireJob jobId
  let checkpointId ← requireCheckpoint job
  let currentRevision ← match ← host (.getUndoReceipt jobId) with
    | some (_, revision) => pure revision
    | none => DocumentSnapshot.revision <$> inspectDocument (some job.documentId)
  return ⟨job.jobId, job.documentId, checkpointId, currentRevision⟩

def approveRollback (jobId approvedBy displayedCheckpointId displayedCurrentRevision : String) :
    HarnessM (RollbackApprovalRecord × String) := do
  let scope ← rollbackScope jobId
  if scope.checkpointId ≠ displayedCheckpointId ∨ scope.currentRevision ≠ displayedCurrentRevision then
    throw (raised .staleDocumentRevision "The rollback scope changed after it was displayed"
      "Review the current revision and checkpoint again"
      [("displayed_checkpoint_id", .str displayedCheckpointId),
        ("current_checkpoint_id", .str scope.checkpointId),
        ("displayed_revision", .str displayedCurrentRevision),
        ("current_revision", .str scope.currentRevision)])
  let now ← host .clock
  let approvalId ← host (.newId "approval")
  let approval : RollbackApprovalRecord :=
    { approvalId, jobId := scope.jobId, documentId := scope.documentId, checkpointId := scope.checkpointId,
      currentRevision := scope.currentRevision, approvedBy, approvedAt := now,
      expiresAt := now + cfg.settings.rollbackApprovalTtl }
  audit "ROLLBACK_APPROVAL_GRANTED" (some jobId)
    [("approval_id", .str approval.approvalId), ("document_id", .str approval.documentId),
      ("checkpoint_id", .str approval.checkpointId), ("current_revision", .str approval.currentRevision),
      ("expires_at", .num (.int approval.expiresAt))] "engineer" approvedBy
  return (approval, cfg.makeRollbackApprovalToken approval cfg.settings.approvalSecret)

structure RollbackArgs where
  jobId : String
  checkpointId : String
  currentRevision : String
  rollbackApprovalToken : String

/-- `rollback_approval_token_digest` -/
def tokenDigest (token : String) : String := cfg.sha256 token

/-- The recovery that is pending for a job, if any, must be this very attempt. -/
def requireExactRecovery (r : RollbackArgs) (job : CadJob) (undoReceipt : Option (String × String))
    (recovery : Option DurableRollbackRecovery) : HarnessM Unit := do
  match recovery with
  | none => return
  | some recovery =>
      let isExact := recovery.jobId = job.jobId && recovery.documentId = job.documentId &&
        recovery.checkpointId = r.checkpointId && recovery.currentRevision = r.currentRevision &&
        recovery.approvalTokenDigest = tokenDigest cfg r.rollbackApprovalToken
      let allows ← adapter .allowsExpiredCheckpointRecovery
      if undoReceipt.isSome ∨ !allows ∨ !isExact then
        throw (raised .approvalScopeMismatch
          "Rollback recovery does not match the exact journaled attempt"
          "Retry with the original in-memory approval and unchanged rollback scope" [])

/-- The approval of a rollback, and whether it is one that only the adapter's journal can prove. -/
def requireRollbackApproval (r : RollbackArgs) (job : CadJob) (undoReceipt : Option (String × String)) :
    HarnessM (RollbackApprovalRecord × Bool) := do
  let scope : RollbackScope := ⟨job.jobId, job.documentId, r.checkpointId, r.currentRevision⟩
  let now ← host .clock
  match cfg.verifyRollbackApprovalToken r.rollbackApprovalToken cfg.settings.approvalSecret scope now with
  | .ok approval => return (approval, false)
  | .error exc =>
      if exc.code? ≠ some .approvalExpired then
        throw exc
      let allows ← adapter .allowsExpiredCheckpointRecovery
      if undoReceipt.isSome ∨ !allows then
        throw exc
      let approval ← ofExcept
        (cfg.verifyRollbackRecoveryToken r.rollbackApprovalToken cfg.settings.approvalSecret scope)
      return (approval, true)

/-- Call the adapter. A rollback that must be resumed is remembered, any other failure is not. -/
def applyRollback (r : RollbackArgs) (job : CadJob) (undoReceipt : Option (String × String)) :
    HarnessM RollbackResult := do
  let outcome ← attempt (adapter (.rollback
    { jobId := r.jobId, documentId := job.documentId, checkpointId := r.checkpointId,
      currentRevision := r.currentRevision, rollbackApprovalToken := r.rollbackApprovalToken,
      undoGroup := undoReceipt.map Prod.fst }))
  match outcome with
  | .ok result => return result
  | .error exc =>
      if exc.code? = some .rollbackRecoveryRequired then
        let allows ← adapter .allowsExpiredCheckpointRecovery
        if undoReceipt.isNone ∧ allows then
          host (.setRecovery r.jobId
            ⟨job.jobId, job.documentId, r.checkpointId, r.currentRevision,
              tokenDigest cfg r.rollbackApprovalToken⟩)
        else
          host (.popRecovery r.jobId)
      else
        host (.popRecovery r.jobId)
      throw exc

/-- The part of a rollback under the writer lease. -/
def rollbackUnderLease (r : RollbackArgs) (job : CadJob) (undoReceipt : Option (String × String))
    (approval : RollbackApprovalRecord) (live : Bool) : HarnessM RollbackResult := do
  if live then
    if !(← adapter (.validateRevision job.documentId r.currentRevision)) then
      throw (raised .staleDocumentRevision "Document changed after rollback approval"
        "Review the current revision and approve rollback again"
        [("approved_revision", .str r.currentRevision)])
  audit "ROLLBACK_STARTED" (some r.jobId)
    [("approval_id", .str approval.approvalId), ("checkpoint_id", .str r.checkpointId),
      ("current_revision", .str r.currentRevision)] "engineer" approval.approvedBy
  let result ← applyRollback cfg r job undoReceipt
  let job ← ofExcept (job.transitionTo .rolledBack)
  store (.saveJob job)
  host (.popUndoReceipt r.jobId)
  host (.popRecovery r.jobId)
  return result

def rollback (r : RollbackArgs) : HarnessM RollbackResult := do
  let job ← requireJob r.jobId
  let undoReceipt ← host (.getUndoReceipt r.jobId)
  let recovery ← host (.getRecovery r.jobId)
  requireExactRecovery cfg r job undoReceipt recovery
  let (approval, durableRecoveryCandidate) ← requireRollbackApproval cfg r job undoReceipt
  let checkpointId ← requireCheckpoint job
  if checkpointId ≠ r.checkpointId then
    throw (raised .rollbackNotAvailable
      "The requested checkpoint is not the checkpoint recorded for this job"
      "Review and approve the job's exact checkpoint" [("job_checkpoint_id", .str checkpointId)])
  if undoReceipt.any (fun u => decide (u.2 ≠ r.currentRevision)) then
    throw (raised .staleDocumentRevision "The session undo receipt does not match the approved revision"
      "Review the current rollback scope again" [("approved_revision", .str r.currentRevision)])
  let live := undoReceipt.isNone && recovery.isNone && !durableRecoveryCandidate
  if live then requireWriterCompatible
  let result ← hold job.documentId ("rollback:" ++ r.jobId) (fun _ =>
    rollbackUnderLease cfg r job undoReceipt approval live)
  audit "ROLLBACK_SUCCEEDED" (some r.jobId)
    [("restored_revision", .str result.restoredRevision), ("method", .str result.method)]
  return result

end CadHarness.Service
