import CadHarness.Lib.Assoc
import CadHarness.Service.Approval

/-!
# The service

`cad_harness.application.services.harness_service`, from the creation of a job to its approval.
-/

namespace CadHarness.Service
open CadHarness.Lib CadHarness.Domain CadHarness.Persistence

variable (cfg : Config)

/-- Run a block and keep what it raises. -/
def attempt {α : Type} (m : HarnessM α) : HarnessM (Except Exc α) := ExceptT.lift m.run

def ofExcept {α : Type} (r : Except Exc α) : HarnessM α := ExceptT.mk (.ret r)

/-- The strings of a set, in order. -/
def sortedSet (l : List String) : List String := l.dedup.insertionSort (fun a b => decide (a ≤ b))

/-- An audit event of the harness itself. -/
def audit (eventType : String) (jobId : Option String) (payload : List (String × Value))
    (actorType : String := "system") (actorId : String := "harness") : HarnessM Unit :=
  task (.audit { eventType, jobId, actorType, actorId, payload })

/-! ## Internals -/

def requireJob (jobId : String) : HarnessM CadJob := do
  match ← store (.getJob jobId) with
  | some job => return job
  | none =>
      throw (raised .documentNotFound ("Unknown job '" ++ jobId ++ "'")
        "Create a job with cad_job_create first" [])

def requireCurrentPlanSchema (plan : OperationPlan) : HarnessM Unit := do
  if plan.schemaVersion ≠ schemaVersion then
    throw (raised .unsupportedSchemaVersion "The stored plan uses an obsolete schema version"
      "Create a new job and regenerate the plan with the current schema"
      [("plan_schema_version", .str plan.schemaVersion), ("required_schema_version", .str schemaVersion)])

/-- The states in which a plan is pinned to the revision of its job. -/
def pinnedStates : List JobState := [.planned, .previewed, .validated, .approved, .committing]

/-- Whether a stored plan is the one its job stands for. -/
def planIsBound (plan : OperationPlan) (job : CadJob) (jobId : String) : Bool :=
  match plan.planHash with
  | none => false
  | some planHash =>
      plan.verifyHash cfg.sha256 planHash && plan.jobId = jobId && some plan.planId = job.planId &&
      some planHash = job.planHash && plan.documentId = job.documentId &&
      !(decide (job.state ∈ pinnedStates) && plan.expectedRevision ≠ job.expectedRevision) &&
      plan.profileRef = cfg.profile.asRef

def requirePlan (jobId : String) : HarnessM OperationPlan := do
  match ← store (.getPlan jobId) with
  | none =>
      throw (raised .approvalRequired "No compiled plan for this job"
        "Submit a spec with cad_spec_submit first" [])
  | some plan =>
      requireCurrentPlanSchema plan
      let job ← requireJob jobId
      if !planIsBound cfg plan job jobId then
        throw (raised .planHashMismatch
          "The stored plan body or job binding does not match its immutable plan hash"
          "Create a new job and regenerate the preview and approval" [("job_id", .str jobId)])
      return plan

def validationMatchesPlan (report : ValidationReport) (plan : OperationPlan) (jobId : String) : Bool :=
  report.schemaVersion = schemaVersion && report.jobId = jobId && report.stage = .preCommit &&
  report.planHash = plan.planHash && report.profileRef = some plan.profileRef

def validationDecisionDigest (report : ValidationReport) : String := sha256Of cfg.sha256 report.decision

/-- Fail closed before a drawing is changed by a live adapter. -/
def requireWriterCompatible : HarnessM Unit := do
  let adapterType ← adapter .adapterType
  if adapterType = "com" ∨ adapterType = "dotnet_bridge" then task .requireWriterCompatible

/-! ## Reading and creating -/

def inspectDocument (documentId : Option String) : HarnessM DocumentSnapshot := do
  let snapshot ← adapter (.inspectDocument documentId)
  host (.setSnapshot snapshot)
  audit "DOCUMENT_INSPECTED" none
    [("document_id", .str snapshot.documentId), ("revision", .str snapshot.revision)]
  return snapshot

def createJob (documentId : Option String) : HarnessM CadJob := do
  let snapshot ← inspectDocument documentId
  let jobId ← host (.newId "job")
  let job : CadJob :=
    { jobId, documentId := snapshot.documentId, expectedRevision := snapshot.revision }
  store (.saveJob job)
  audit "JOB_CREATED" (some job.jobId)
    [("document_id", .str job.documentId), ("expected_revision", .str job.expectedRevision)]
  return job

/-! ## Specifications -/

def acceptedRasterFeature : String := "_accepted_raster_trace"

def redactFeature (f : Feature) : Feature :=
  if f.type ≠ acceptedRasterFeature ∨ (f.parameters.lookup "acceptance_token").isNone then f
  else
    let parameters := Assoc.remove f.parameters "acceptance_token"
    { f with parameters := Assoc.set parameters "acceptance_token_redacted" (.bool true) }

/-- `_redact_raster_acceptance_tokens` -/
def redactRasterAcceptanceTokens (spec : DrawingSpec) : DrawingSpec :=
  { spec with features := spec.features.map redactFeature }

/-- What `submit_spec` returns. -/
inductive SubmitResult where
  | needsInput (jobId : String) (missingInputs : List Value)
  | ok (jobId : String) (planHash : Option String) (operationCount : Nat)
      (defaultsApplied assumptions : List Value)

/-- The payload with its defaults. -/
def specDefaults (job : CadJob) (payload : SpecPayload) (specId : String) : SpecPayload :=
  { payload with
    specId := some (payload.specId.getD specId),
    documentId := some (payload.documentId.getD job.documentId),
    standardProfile := some (payload.standardProfile.getD (cfg.profile.profileId, cfg.profile.version)) }

/-- The job as it takes a new specification: a plan that was made or approved is given up. -/
def acceptSpec (jobId : String) (job : CadJob) : HarnessM CadJob := do
  if job.state ≠ .created ∧ job.state ≠ .specAccepted then
    let job ← ofExcept (job.transitionTo .specAccepted)
    store (.revokeApprovalsForJob jobId)
    return job.invalidateApproval
  else if job.state = .created then
    ofExcept (job.transitionTo .specAccepted)
  else
    return job

def submitSpec (jobId : String) (specPayload : SpecPayload) : HarnessM SubmitResult := do
  let job ← requireJob jobId
  if (← store (.getRemediation jobId)).isSome then
    throw (raised .invalidFeatureParameters
      "A remediation job cannot be repurposed as a revised specification"
      "Create a new job for the revised DrawingSpec" [("job_id", .str jobId)])
  let priorSpecVersion := job.specVersion
  let specId ← host (.newId "spec")
  let payload := specDefaults cfg job specPayload specId
  let submittedSchema := payload.schemaVersion.getD schemaVersion
  if submittedSchema ≠ schemaVersion then
    throw (raised .unsupportedSchemaVersion
      "The DrawingSpec schema version is not supported by this harness"
      "Regenerate the specification with the current MCP contract"
      [("received_schema_version", .str submittedSchema), ("required_schema_version", .str schemaVersion)])
  let spec ← task (.modelValidate payload)
  let job ← acceptSpec jobId job
  let version ← store (.saveSpec jobId (redactRasterAcceptanceTokens spec))
  let job := { job with specId := some spec.specId, specVersion := version }
  store (.saveJob job)
  audit "SPEC_CHANGED" (some jobId)
    [("previous_spec_version", natural priorSpecVersion), ("spec_version", natural version),
      ("spec_id", .str spec.specId)] "ai_client" "unknown"
  audit "SPEC_SUBMITTED" (some jobId)
    [("spec_id", .str spec.specId), ("spec_version", natural version)] "ai_client" "unknown"
  match ← task (.compile spec jobId job.expectedRevision) with
  | .needsInput missingInputs => return .needsInput jobId missingInputs
  | .compiled plan defaultsApplied assumptions =>
      store (.savePlan plan)
      let job ← ofExcept (job.transitionTo .planned
        (fun job => { job with planId := some plan.planId, planHash := plan.planHash }))
      store (.saveJob job)
      audit "PLAN_COMPILED" (some jobId)
        [("plan_hash", optional plan.planHash), ("operations", natural plan.operations.length)]
      return .ok jobId plan.planHash plan.operations.length defaultsApplied assumptions

/-! ## Remediation -/

/-- What `register_remediation_plan` returns. -/
structure RemediationRegistered where
  jobId : String
  planHash : String
  operationCount : Nat
  selectedFindingCount : Nat

def requireReadback (message : String) : HarnessM Unit := do
  if !(← host .hasDrawingModelReader) then
    throw (raised .adapterCapabilityMissing message
      "Configure a DrawingModel reader before compiling remediation"
      [("missing_capability", .str "drawing_model_readback")])
  if !(← host .hasDrawingAuditStore) then
    throw (raised .adapterCapabilityMissing
      "A remediation workflow requires persisted drawing-audit evidence"
      "Configure the DrawingAuditStore used by DrawingAuditService"
      [("missing_capability", .str "drawing_audit_store")])

/-- Whether the evidence is of the plan's document, revision and profile, and has every selected finding. -/
def evidenceCovers (evidence : DrawingAuditEvidence) (remediation : RemediationResult) : Bool :=
  evidence.documentId = remediation.plan.documentId &&
  evidence.revision = remediation.plan.expectedRevision &&
  evidence.report.profileRef = some remediation.plan.profileRef &&
  evidence.report.profileRef = some cfg.profile.asRef &&
  remediation.selectedFindings.all (fun item =>
    evidence.report.findings.any (fun f => f.ruleId = item.1 && f.entityRef = some item.2))

/-- The checks of a remediation plan against its persisted audit and its job. -/
def requireRemediationEvidence (remediation : RemediationResult) (job : CadJob) : HarnessM Unit := do
  match ← task (.getDrawingAudit remediation.auditId) with
  | none =>
      throw (raised .documentNotFound "The remediation plan's persisted audit evidence does not exist"
        "Run and persist a new drawing audit before remediation" [("audit_id", .str remediation.auditId)])
  | some evidence =>
      if !evidenceCovers cfg evidence remediation then
        throw (raised .staleDocumentRevision
          "The remediation plan does not match its persisted audit evidence"
          "Compile a new remediation plan from the persisted current audit"
          [("audit_id", .str remediation.auditId)])
      if remediation.plan.documentId ≠ job.documentId ∨
          remediation.plan.expectedRevision ≠ job.expectedRevision then
        throw (raised .staleDocumentRevision
          "The remediation plan is not pinned to the job's inspected document revision"
          "Create a new job from the audited drawing revision"
          [("job_document_id", .str job.documentId), ("plan_document_id", .str remediation.plan.documentId),
            ("job_expected_revision", .str job.expectedRevision),
            ("plan_expected_revision", .str remediation.plan.expectedRevision)])
      if job.state ≠ .created then
        throw (raised .staleDocumentRevision "A remediation plan can only be registered on a fresh job"
          "Create a new job and compile remediation from the current audit"
          [("job_state", .str job.state.value)])

def registerRemediationPlan (remediation : RemediationResult) : HarnessM RemediationRegistered := do
  let job ← requireJob remediation.plan.jobId
  requireReadback "A remediation workflow requires post-commit structured drawing readback"
  requireRemediationEvidence cfg remediation job
  let currentModel ← task (.readDrawing job.documentId)
  -- The plan is compiled anew; the body that the caller passes is not used.
  let remediation ← task (.compileRemediation job.jobId currentModel remediation.auditId
    remediation.selectedFindings remediation.technicalInputs)
  let plan := remediation.plan
  task (.preflight plan)
  let accepted ← ofExcept (job.transitionTo .specAccepted)
  audit "SPEC_SUBMITTED" (some job.jobId)
    [("kind", .str "remediation_selection"),
      ("selected_findings", natural remediation.selectedFindings.length)] "ai_client" "unknown"
  store (.savePlan plan)
  match plan.planHash with
  | none => throw .assertionError
  | some planHash =>
      store (.saveRemediation job.jobId planHash remediation)
      let planned ← ofExcept (accepted.transitionTo .planned
        (fun job => { job with planId := some plan.planId, planHash := some planHash }))
      store (.saveJob planned)
      host (.setRemediationJob job.jobId remediation)
      audit "PLAN_COMPILED" (some job.jobId)
        [("plan_hash", .str planHash), ("operations", natural plan.operations.length),
          ("kind", .str "remediation")]
      return ⟨job.jobId, planHash, plan.operations.length, remediation.selectedFindings.length⟩

def submitRemediationSelection (jobId auditId : String) (selectedFindings : List (String × String))
    (technicalInputs : Value) : HarnessM RemediationRegistered := do
  let job ← requireJob jobId
  requireReadback "A remediation workflow requires structured drawing readback"
  let currentModel ← task (.readDrawing job.documentId)
  let remediation ← task (.compileRemediation job.jobId currentModel auditId selectedFindings technicalInputs)
  registerRemediationPlan cfg remediation

/-! ## Preview and validation -/

/-- What `preview` returns. -/
structure PreviewResult where
  jobId : String
  planHash : Option String
  artifacts : List Value
  semanticDiff : Option Value
  unrenderableOperations : List Value
  companyApproved : Bool

def preview (jobId : String) : HarnessM PreviewResult := do
  let job ← requireJob jobId
  let plan ← requirePlan cfg jobId
  requireCurrentPlanSchema plan
  task (.preflight plan)
  let files ← task (.renderPreview plan)
  let diff ← match ← host (.getSnapshot job.documentId) with
    | some snapshot => some <$> host (.semanticDiff plan snapshot)
    | none => pure none
  if job.state = .planned then
    let job ← ofExcept (job.transitionTo .previewed)
    store (.saveJob job)
  audit "PREVIEW_GENERATED" (some jobId)
    [("plan_hash", optional plan.planHash), ("artifacts", natural files.artifacts.length)]
  return ⟨jobId, plan.planHash, files.artifacts, diff, files.gaps, files.companyApproved⟩

/-- The names that a plan requires, each with the first operation that requires it, in order. -/
def required (names : Operation → Option String) (plan : OperationPlan) : List (String × String) :=
  let add (l : List (String × String)) (o : Operation) : List (String × String) :=
    match names o with
    | some name => if (l.lookup name).isSome then l else l ++ [(name, o.operationId)]
    | none => l
  (plan.operations.foldl add []).insertionSort (fun a b => decide (a.1 ≤ b.1))

/-- The name of a style in the geometry of an operation. -/
def styleOf (field : String) (o : Operation) : Option String :=
  match o.geometry.lookup field with
  | some (.str s) => if s = "" then none else some s
  | _ => none

def templateFix (what : String) : String :=
  "Load the approved DWT/DWS " ++ what ++ ", then inspect, preview, validate and approve again."

/-- A blocking finding for each required name that the drawing lacks. -/
def missingFindings (ruleId message what : String) (needed : List (String × String))
    (available : List String) : List Finding :=
  (needed.filter (fun n => decide (n.1 ∉ available))).map (fun n =>
    { ruleId, severity := .blocking, message, operationId := some n.2, expected := .str n.1,
      actual := strings (sortedSet available), suggestedFix := some (templateFix what) })

/-- `_missing_live_style_findings` -/
def missingLiveStyleFindings (plan : OperationPlan) (snapshot : DocumentSnapshot) : List Finding :=
  missingFindings "LIVE_LAYER_MISSING" "Required layer is not present in the live drawing." "layers"
    (required (fun o => some o.layer) plan) snapshot.layers ++
  (if snapshot.units ≠ cfg.profile.canonicalUnit then
    [{ ruleId := "LIVE_DOCUMENT_UNITS_MISMATCH", severity := .blocking,
       message := "Live drawing units do not match the company profile.",
       expected := .str cfg.profile.canonicalUnit, actual := .str snapshot.units,
       suggestedFix := some ("Set the disposable drawing units from the approved template, " ++
        "then inspect, preview, validate and approve again.") }]
  else []) ++
  missingFindings "LIVE_DIMSTYLE_MISSING" "Required dimension style is not present in the live drawing."
    "styles" (required (styleOf "dimstyle") plan) snapshot.dimensionStyles ++
  missingFindings "LIVE_TEXTSTYLE_MISSING" "Required text style is not present in the live drawing."
    "styles" (required (styleOf "textstyle") plan) snapshot.textStyles

/-- The report with what the live drawing lacks. -/
def withLiveStyles (stage : ValidationStage) (plan : OperationPlan) (report : ValidationReport)
    (snapshot : Option DocumentSnapshot) : ValidationReport :=
  match stage, snapshot with
  | .preCommit, some snapshot =>
      { report with findings := report.findings ++ missingLiveStyleFindings cfg plan snapshot }
  | _, _ => report

/-- `_validate` -/
def validateWith (jobId : String) (stage : ValidationStage) (allowApproved : Bool) :
    HarnessM ValidationReport := do
  let job ← requireJob jobId
  let plan ← requirePlan cfg jobId
  if job.state = .approved ∧ !allowApproved then
    throw (raised .approvalRequired
      "An approved job cannot replace its reviewed validation through a public tool"
      "Create a new job for revised validation or apply the approved plan" [])
  let report ← task (.runRules stage plan none jobId)
  let snapshot ← host (.getSnapshot job.documentId)
  let report := withLiveStyles cfg stage plan report snapshot
  store (.saveValidation report)
  if stage = .preCommit ∧ job.state = .previewed ∧ !report.hasBlocking then
    let job ← ofExcept (job.transitionTo .validated)
    store (.saveJob job)
  audit "VALIDATION_COMPLETED" (some jobId)
    [("stage", .str stage.value), ("blocking", natural report.blockingCount),
      ("errors", natural report.errorCount), ("warnings", natural report.warningCount)]
  return report

def validate (jobId : String) (stage : ValidationStage) : HarnessM ValidationReport :=
  validateWith cfg jobId stage false

/-! ## Approval -/

structure ApproveArgs where
  jobId : String
  approvedBy : String
  warningsAcknowledged : List String := []
  displayedPlanHash : Option String := none
  displayedRevision : Option String := none

/-- The checks of what the engineer was shown. -/
def requireDisplayed (a : ApproveArgs) (job : CadJob) (plan : OperationPlan) : HarnessM Unit := do
  if a.displayedPlanHash.isSome ∧ plan.planHash ≠ a.displayedPlanHash then
    throw (raised .planHashMismatch "The plan changed after the approval screen was opened"
      "Regenerate the preview and review the new plan"
      [("displayed_plan_hash", optional a.displayedPlanHash), ("current_plan_hash", optional plan.planHash)])
  match a.displayedRevision with
  | none => return
  | some displayed =>
      let current ← if job.expectedRevision ≠ displayed then pure false
        else adapter (.validateRevision job.documentId displayed)
      if !current then
        throw (raised .staleDocumentRevision "The drawing revision changed after the approval screen was opened"
          "Regenerate the preview from the current drawing revision" [("displayed_revision", .str displayed)])

/-- The checks of the report that the approval rests on. -/
def requireApprovable (a : ApproveArgs) (displayed report : ValidationReport) : HarnessM Unit := do
  if validationDecisionDigest cfg report ≠ validationDecisionDigest cfg displayed then
    throw (raised .approvalRequired "Live validation evidence changed after the approval view was prepared"
      "Review the refreshed PRE_COMMIT findings and approve again" [])
  if !report.gateAllowsCommit then
    throw (raised .approvalRequired "Validation findings block this plan"
      "Resolve blocking and error findings, then re-validate"
      [("blocking", natural report.blockingCount), ("errors", natural report.errorCount)])
  let missing := report.warningRuleIds.filter (fun i => decide (i ∉ a.warningsAcknowledged))
  if missing ≠ [] then
    throw (raised .approvalRequired "Every validation warning must be acknowledged before approval"
      "Acknowledge each listed warning rule in the engineer desktop"
      [("missing_warning_rule_ids", strings (sortedSet missing))])

def approve (a : ApproveArgs) : HarnessM (String × String) := do
  let job ← requireJob a.jobId
  let plan ← requirePlan cfg a.jobId
  requireDisplayed a job plan
  let displayed ← store (.getValidation a.jobId)
  match displayed.filter (fun displayed => validationMatchesPlan displayed plan a.jobId) with
  | none =>
      throw (raised .approvalRequired
        "Cannot approve validation evidence for another plan, profile or stage"
        "Regenerate the preview and PRE_COMMIT validation" [])
  | some displayed =>
    let _ ← inspectDocument (some job.documentId)
    let report ← validateWith cfg a.jobId .preCommit false
    requireApprovable cfg a displayed report
    match plan.planHash with
    | none => throw .assertionError
    | some planHash =>
        let (approval, token) ← issueApproval cfg a.jobId job.documentId planHash job.expectedRevision
          a.approvedBy cfg.settings.approvalSecret cfg.settings.approvalTtl
          (sortedSet a.warningsAcknowledged)
        store (.saveApproval approval)
        let job ← ofExcept (job.transitionTo .approved
          (fun job => { job with approvalId := some approval.approvalId }))
        store (.saveJob job)
        audit "APPROVAL_GRANTED" (some a.jobId)
          [("approval_id", .str approval.approvalId), ("plan_hash", .str planHash)] "engineer" a.approvedBy
        return (approval.approvalId, token)

end CadHarness.Service
