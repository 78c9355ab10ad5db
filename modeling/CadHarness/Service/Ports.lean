import CadHarness.Persistence.JobStore

/-!
# Ports of the service

The service is a program over three kinds of operations: requests to its store, calls of its CAD adapter,
and everything else it asks of the process it runs in: clocks, identifiers, leases, audit, rules, the
compiler, and the dictionaries of the service instance.
-/

namespace CadHarness.Service
open CadHarness.Lib CadHarness.Domain CadHarness.Persistence

structure CommitRequest where
  plan : OperationPlan
  idempotencyKey : String
  expectedRevision : String
  approvalToken : String
  createCheckpoint : Bool

structure RollbackRequest where
  jobId : String
  documentId : String
  checkpointId : String
  currentRevision : String
  rollbackApprovalToken : String
  undoGroup : Option String

/-! ## The adapter -/

inductive AdapterOp where
  | adapterType
  | allowsExpiredCheckpointRecovery
  | inspectDocument (documentId : Option String)
  | validateRevision (documentId expectedRevision : String)
  | commit (request : CommitRequest)
  | rollback (request : RollbackRequest)

@[reducible] def AdapterOp.Answer : AdapterOp → Type
  | adapterType => String
  | allowsExpiredCheckpointRecovery => Bool
  | inspectDocument _ => DocumentSnapshot
  | validateRevision _ _ => Bool
  | commit _ => CommitResult
  | rollback _ => RollbackResult

/-! ## The process -/

structure AuditEvent where
  eventType : String
  jobId : Option String
  actorType : String
  actorId : String
  payload : List (String × Value)

/-- A `DrawingSpec` as it is submitted. -/
structure SpecPayload where
  specId : Option String
  documentId : Option String
  standardProfile : Option (String × String)
  schemaVersion : Option String
  features : List Feature

/-- What the compiler makes of a spec. -/
inductive CompilationResult where
  | needsInput (missingInputs : List Value)
  | compiled (plan : OperationPlan) (defaultsApplied assumptions : List Value)

/-- A `_DurableRollbackRecovery`. -/
structure DurableRollbackRecovery where
  jobId : String
  documentId : String
  checkpointId : String
  currentRevision : String
  approvalTokenDigest : String

structure RollbackScope where
  jobId : String
  documentId : String
  checkpointId : String
  currentRevision : String
  deriving DecidableEq

structure PreviewFiles where
  artifacts : List Value
  gaps : List Value
  companyApproved : Bool

/-- A drawing that is read back. The rest of it is for the auditor and the compiler alone. -/
structure Readback where
  revision : String

/-- What the service asks of the process it runs in, and cannot fail. -/
inductive HostOp where
  | clock
  | newId (prefixValue : String)
  | getSnapshot (documentId : String)
  | setSnapshot (snapshot : DocumentSnapshot)
  | getUndoReceipt (jobId : String)
  | setUndoReceipt (jobId undoGroup revision : String)
  | popUndoReceipt (jobId : String)
  | getRemediationJob (jobId : String)
  | setRemediationJob (jobId : String) (remediation : RemediationResult)
  | getRecovery (jobId : String)
  | setRecovery (jobId : String) (recovery : DurableRollbackRecovery)
  | popRecovery (jobId : String)
  /-- `lease.is_valid_at(now)`: the heartbeat may have renewed the lease or failed to. -/
  | leaseIsValidAt (leaseId : String) (now : Time)
  /-- `if released: lease.mark_released()` -/
  | noteReleased (leaseId : String) (released : Bool)
  | hasDrawingModelReader
  | hasDrawingAuditStore
  | semanticDiff (plan : OperationPlan) (snapshot : DocumentSnapshot)

@[reducible] def HostOp.Answer : HostOp → Type
  | clock => Time
  | newId _ => String
  | setSnapshot _ | setUndoReceipt _ _ _ | popUndoReceipt _ | setRemediationJob _ _
  | setRecovery _ _ | popRecovery _ | noteReleased _ _ => Unit
  | getSnapshot _ => Option DocumentSnapshot
  | getUndoReceipt _ => Option (String × String)
  | getRemediationJob _ => Option RemediationResult
  | getRecovery _ => Option DurableRollbackRecovery
  | leaseIsValidAt _ _ | hasDrawingModelReader | hasDrawingAuditStore => Bool
  | semanticDiff _ _ => Value

/-- What the service asks of the process it runs in, and may fail. -/
inductive TaskOp where
  | audit (event : AuditEvent)
  /-- `try_acquire` and the start of the heartbeat. -/
  | acquireLease (documentId ownerId : String)
  /-- The end of `hold`: stop the heartbeat, and release the lease unless it is marked released. -/
  | leaveHold (leaseId : String)
  /-- `self.lease_service.clock()` -/
  | leaseClock
  | requireWriterCompatible
  | modelValidate (payload : SpecPayload)
  | compile (spec : DrawingSpec) (jobId expectedRevision : String)
  | preflight (plan : OperationPlan)
  | renderPreview (plan : OperationPlan)
  | runRules (stage : ValidationStage) (plan : OperationPlan) (result : Option CommitResult)
      (jobId : String)
  | readDrawing (documentId : String)
  | auditDrawing (readback : Readback) (jobId : String) (expectedLayersByRef : List (String × String))
  | getDrawingAudit (auditId : String)
  | compileRemediation (jobId : String) (model : Readback) (auditId : String)
      (selected : List (String × String)) (technicalInputs : Value)

@[reducible] def TaskOp.Answer : TaskOp → Type
  | acquireLease _ _ => WriterLease
  | leaseClock => Time
  | audit _ | leaveHold _ | requireWriterCompatible | preflight _ => Unit
  | modelValidate _ => DrawingSpec
  | compile _ _ _ => CompilationResult
  | renderPreview _ => PreviewFiles
  | runRules _ _ _ _ | auditDrawing _ _ _ => ValidationReport
  | readDrawing _ => Readback
  | getDrawingAudit _ => Option DrawingAuditEvidence
  | compileRemediation _ _ _ _ _ => RemediationResult

/-! ## Programs of the service -/

inductive HarnessOp where
  | store (o : StoreOp)
  | adapter (o : AdapterOp)
  | task (o : TaskOp)
  | host (o : HostOp)

@[reducible] def HarnessOp.Answer : HarnessOp → Type
  | store o => Except Exc o.Answer
  | adapter o => Except Exc o.Answer
  | task o => Except Exc o.Answer
  | host o => o.Answer

@[reducible] def harnessSig : Sig := ⟨HarnessOp, HarnessOp.Answer⟩

/-- A method of the service: a program that returns or raises. -/
abbrev HarnessM := ExceptT Exc (Prog harnessSig)

def store (o : StoreOp) : HarnessM o.Answer := ExceptT.mk (Prog.perform (S := harnessSig) (.store o))

def adapter (o : AdapterOp) : HarnessM o.Answer := ExceptT.mk (Prog.perform (S := harnessSig) (.adapter o))

def task (o : TaskOp) : HarnessM o.Answer := ExceptT.mk (Prog.perform (S := harnessSig) (.task o))

def host (o : HostOp) : HarnessM o.Answer := ExceptT.lift (Prog.perform (S := harnessSig) (.host o))

end CadHarness.Service
