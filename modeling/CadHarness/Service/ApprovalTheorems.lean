import CadHarness.Service.Lemmas.StoreRuns

/-!
# Approval is not atomic

An approval that raises should leave the stored approvals and its job as they were. It does so just when
its validation does not move the job on, and when nothing raises behind the saving of the approval.
-/

namespace CadHarness.Service
open CadHarness.Lib CadHarness.Domain CadHarness.Persistence Prog Surroundings

/-! ## The jobs of the store -/

/-- Every job is stored under its identifier. -/
def Keyed (s : InMemoryJobStore) : Prop := ∀ jobId job, s.getJob jobId = some job → job.jobId = jobId

theorem Keyed.saveJob {s : InMemoryJobStore} (h : Keyed s) (job : CadJob) : Keyed (s.saveJob job) := by
  intro jobId found hfound
  unfold InMemoryJobStore.saveJob InMemoryJobStore.getJob at hfound
  rw [Assoc.lookup_set] at hfound
  split at hfound
  · rename_i heq
    rw [heq, ← Option.some.inj hfound]
  · exact h jobId found hfound

theorem Keyed.finalizeJob {s : InMemoryJobStore} (h : Keyed s) (job : CadJob)
    (mappings : List EntityMappingRecord) : Keyed (s.finalizeJob job mappings) := h.saveJob job

theorem Keyed.handle {s s' : InMemoryJobStore} {o : StoreOp} {r : o.Answer} (h : Keyed s)
    (ho : s.handle o = .ok (r, s')) : Keyed s' := by
  cases o with
  | saveJob job =>
      obtain ⟨-, rfl⟩ := Prod.mk.inj (Except.ok.inj ho)
      exact h.saveJob job
  | finalizeJob job leaseId now mappings =>
      obtain ⟨-, rfl⟩ := Prod.mk.inj (Except.ok.inj ho)
      exact h.finalizeJob job mappings
  | finalizeCommit f =>
      obtain ⟨-, rfl⟩ := Prod.mk.inj (Except.ok.inj ho)
      unfold InMemoryJobStore.finalizeCommit
      cases f.checkpoint with
      | none => exact h.finalizeJob f.job f.mappings
      | some checkpoint => exact h.finalizeJob f.job f.mappings
  | saveRemediation jobId planHash payload =>
      have hsaved : (s.saveRemediation jobId planHash payload).map (fun s => ((), s)) = .ok (r, s') := ho
      unfold InMemoryJobStore.saveRemediation at hsaved
      split at hsaved
      · cases hsaved
      · obtain ⟨-, rfl⟩ := Prod.mk.inj (Except.ok.inj hsaved)
        exact h
  | _ =>
      obtain ⟨-, rfl⟩ := Prod.mk.inj (Except.ok.inj ho)
      exact h

theorem Keyed.operate {s : InMemoryJobStore} (h : Keyed s) (env : Surroundings) (o : HarnessOp) :
    Keyed (env.operate s o).2 := by
  cases o with
  | store o =>
      unfold Surroundings.operate request
      dsimp only
      cases env.refusal o with
      | some e => exact h
      | none =>
          cases hanswer : s.handle o with
          | error e => exact h
          | ok result => exact h.handle hanswer
  | _ => exact h

theorem Keyed.leads {α : Type} {p : Prog harnessSig α} {s s' : InMemoryJobStore} (h : Keyed s)
    (hp : Leads p s s') : Keyed s' := by
  induction hp with
  | ret a s => exact h
  | op env hk ih => exact ih (h.operate env _)

theorem reachable_keyed {cfg : Config} {s : InMemoryJobStore} (h : Reachable cfg s) : Keyed s := by
  induction h with
  | initial => simp [Keyed, InMemoryJobStore.getJob]
  | call h c hc ih => exact ih.leads hc

/-! ## What an approval leaves -/

/-- The approvals are the same, and the job is in the same state with the same approval. -/
structure SameApproval (jobId : String) (s s' : InMemoryJobStore) : Prop where
  approvals : s'.approvals = s.approvals
  job : (s'.getJob jobId).map (fun job => (job.state, job.approvalId)) =
    (s.getJob jobId).map (fun job => (job.state, job.approvalId))

variable (cfg : Config) (env : Surroundings) (s : InMemoryJobStore) (a : ApproveArgs)

def inspectionEvent (snapshot : DocumentSnapshot) : AuditEvent :=
  ⟨"DOCUMENT_INSPECTED", none, "system", "harness",
    [("document_id", .str snapshot.documentId), ("revision", .str snapshot.revision)]⟩

def validationEvent (jobId : String) (report : ValidationReport) : AuditEvent :=
  ⟨"VALIDATION_COMPLETED", some jobId, "system", "harness",
    [("stage", .str ValidationStage.preCommit.value), ("blocking", natural report.blockingCount),
      ("errors", natural report.errorCount), ("warnings", natural report.warningCount)]⟩

def approvalEvent (approval : ApprovalRecord) : AuditEvent :=
  ⟨"APPROVAL_GRANTED", some approval.jobId, "engineer", approval.approvedBy,
    [("approval_id", .str approval.approvalId), ("plan_hash", .str approval.planHash)]⟩

/-- The approval that would be issued. -/
def issued (job : CadJob) (planHash : String) : ApprovalRecord :=
  { approvalId := env.hostAnswer (.newId "approval"), jobId := a.jobId, documentId := job.documentId,
    expectedRevision := job.expectedRevision, planHash, approvedBy := a.approvedBy,
    approvedAt := env.hostAnswer .clock, expiresAt := env.hostAnswer .clock + cfg.settings.approvalTtl,
    warningsAcknowledged := sortedSet a.warningsAcknowledged }

/-- The call comes to validate the plan of its job. -/
structure Prepares (job : CadJob) (plan : OperationPlan) (displayed : ValidationReport) : Prop where
  jobRead : env.refusal (.getJob a.jobId) = none
  jobFound : s.getJob a.jobId = some job
  planRead : env.refusal (.getPlan a.jobId) = none
  planFound : s.plans.lookup a.jobId = some plan
  current : plan.schemaVersion = schemaVersion
  bound : planIsBound cfg plan job a.jobId = true
  displayedPlan : a.displayedPlanHash.isSome → plan.planHash = a.displayedPlanHash
  displayedRevision : ∀ revision, a.displayedRevision = some revision → job.expectedRevision = revision ∧
    env.adapterAnswer (.validateRevision job.documentId revision) = .ok true
  displayedRead : env.refusal (.getValidation a.jobId) = none
  displayedFound : s.validations.lookup a.jobId = some displayed
  matched : validationMatchesPlan displayed plan a.jobId = true
  inspected : ∃ snapshot, env.adapterAnswer (.inspectDocument (some job.documentId)) = .ok snapshot ∧
    env.taskAnswer (.audit (inspectionEvent snapshot)) = .ok ()

/-- The call validates the plan of its job, and saves the report. -/
structure Reviews (job : CadJob) (plan : OperationPlan) (displayed report : ValidationReport) : Prop
    extends Prepares cfg env s a job plan displayed where
  pending : job.state ≠ .approved
  validated : ∃ rules, env.taskAnswer (.runRules .preCommit plan none a.jobId) = .ok rules ∧
    report = withLiveStyles cfg .preCommit plan rules (env.hostAnswer (.getSnapshot job.documentId))
  saved : env.refusal (.saveValidation report) = none

/-- The report is the displayed one, it has no blocking finding and no error, and its warnings are
acknowledged. -/
structure Approvable (displayed report : ValidationReport) : Prop where
  same : validationDecisionDigest cfg report = validationDecisionDigest cfg displayed
  allowed : report.gateAllowsCommit = true
  acknowledged : ∀ rule ∈ report.warningRuleIds, rule ∈ a.warningsAcknowledged

/-- The report allows the approval, and the approval can be issued and saved. -/
structure Grants (job : CadJob) (plan : OperationPlan) (displayed report : ValidationReport)
    (planHash : String) : Prop where
  recorded : env.taskAnswer (.audit (validationEvent a.jobId report)) = .ok ()
  approvable : Approvable cfg a displayed report
  hashed : plan.planHash = some planHash
  signed : cfg.settings.approvalSecret ≠ ""
  saved : env.refusal (.saveApproval (issued cfg env a job planHash)) = none

/-- A call that comes to its validation does not move a previewed job on. If it then comes to save its
approval, the job is validated, can be saved as approved, and the approval is audited. -/
def Harmless : Prop := ∀ job plan displayed report, Reviews cfg env s a job plan displayed report →
  (job.state = .previewed →
    report.hasBlocking = true ∨ env.refusal (.saveJob { job with state := .validated }) ≠ none) ∧
  ∀ planHash, job.state ≠ .previewed → Grants cfg env a job plan displayed report planHash →
    job.state = .validated ∧
    env.refusal (.saveJob { job with state := .approved, approvalId := some (env.hostAnswer (.newId "approval")) }) =
      none ∧
    env.taskAnswer (.audit (approvalEvent (issued cfg env a job planHash))) = .ok ()

/-! ## The checks -/

variable {cfg env s a}

theorem reads_requireDisplayed (job : CadJob) (plan : OperationPlan) : Reads (requireDisplayed a job plan) := by
  unfold requireDisplayed
  dsimp only
  split
  · exact trivial
  · split
    · exact reads_pure _
    · rename_i displayed _
      split
      · exact trivial
      · apply (reads_adapter (.validateRevision job.documentId displayed)).bind
        intro current
        exact (reads_throw _).ite (reads_pure _)

theorem requireDisplayed_eq_ok {job : CadJob} {plan : OperationPlan} :
    env.call (requireDisplayed a job plan) s = (.ok (), s) ↔
      (a.displayedPlanHash.isSome → plan.planHash = a.displayedPlanHash) ∧
      ∀ revision, a.displayedRevision = some revision → job.expectedRevision = revision ∧
        env.adapterAnswer (.validateRevision job.documentId revision) = .ok true := by
  unfold requireDisplayed
  by_cases hplan : a.displayedPlanHash.isSome ∧ plan.planHash ≠ a.displayedPlanHash
  · rw [if_pos hplan]
    simp [call_bind, hplan]
  · rw [if_neg hplan]
    cases a.displayedRevision with
    | none => simpa using hplan
    | some displayed =>
        by_cases hjob : job.expectedRevision = displayed
        · have hcall : env.call (adapter (.validateRevision job.documentId displayed) : HarnessM Bool) s =
              (env.adapterAnswer (.validateRevision job.documentId displayed), s) := rfl
          cases hcurrent : env.adapterAnswer (.validateRevision job.documentId displayed) with
          | error e => simp [call_bind, hjob, hcall, hcurrent]
          | ok current =>
              cases current with
              | false => simp [call_bind, hjob, hcall, hcurrent]
              | true => simpa [call_bind, hjob, hcall, hcurrent] using hplan
        · simp [call_bind, hjob]

theorem requireApprovable_call (displayed report : ValidationReport) :
    (Approvable cfg a displayed report ∧ env.call (requireApprovable cfg a displayed report) s = (.ok (), s)) ∨
    (¬ Approvable cfg a displayed report ∧
      ∃ e, env.call (requireApprovable cfg a displayed report) s = (.error e, s)) := by
  unfold requireApprovable
  by_cases hsame : validationDecisionDigest cfg report = validationDecisionDigest cfg displayed
  · rw [if_neg (not_not_intro hsame)]
    by_cases hallowed : report.gateAllowsCommit = true
    · rw [if_neg (by simp [hallowed])]
      dsimp only
      split
      · rename_i hmissing
        right
        constructor
        · intro h
          exact hmissing (by simpa using h.acknowledged)
        · exact ⟨_, rfl⟩
      · rename_i hmissing
        left
        exact ⟨⟨hsame, hallowed, by simpa using hmissing⟩, rfl⟩
    · right
      refine ⟨fun h => hallowed h.allowed, ?_⟩
      simp [hallowed, call_bind]
  · right
    refine ⟨fun h => hsame h.same, ?_⟩
    simp [hsame, call_bind]

/-- The claims are signed, or no secret is configured. -/
theorem issueApproval_call (job : CadJob) (planHash : String) :
    (cfg.settings.approvalSecret ≠ "" ∧ ∃ token,
      env.call (issueApproval cfg a.jobId job.documentId planHash job.expectedRevision a.approvedBy
        cfg.settings.approvalSecret cfg.settings.approvalTtl (sortedSet a.warningsAcknowledged)) s =
        (.ok (issued cfg env a job planHash, token), s)) ∨
    (cfg.settings.approvalSecret = "" ∧ ∃ e,
      env.call (issueApproval cfg a.jobId job.documentId planHash job.expectedRevision a.approvedBy
        cfg.settings.approvalSecret cfg.settings.approvalTtl (sortedSet a.warningsAcknowledged)) s =
        (.error e, s)) := by
  have hclock : env.call (host .clock : HarnessM Time) s = (.ok (env.hostAnswer .clock), s) := rfl
  have hid : env.call (host (.newId "approval") : HarnessM String) s =
    (.ok (env.hostAnswer (.newId "approval")), s) := rfl
  unfold issueApproval makeApprovalToken
  by_cases hsecret : cfg.settings.approvalSecret = ""
  · right
    simp [call_bind, hclock, hid, hsecret]
  · left
    refine ⟨hsecret, ?_⟩
    simp [call_bind, hclock, hid, hsecret, issued]

/-! ## The parts of an approval -/

/-- An approval from the end of its validation on. -/
def grant (cfg : Config) (a : ApproveArgs) (job : CadJob) (plan : OperationPlan) (displayed report : ValidationReport) :
    HarnessM (String × String) := do
  requireApprovable cfg a displayed report
  match plan.planHash with
  | none => throw .assertionError
  | some planHash =>
      let (approval, token) ← issueApproval cfg a.jobId job.documentId planHash job.expectedRevision
        a.approvedBy cfg.settings.approvalSecret cfg.settings.approvalTtl
        (sortedSet a.warningsAcknowledged)
      store (.saveApproval approval)
      let job ← ofExcept (job.transitionTo .approved
        (fun job => { job with approvalId := some approval.approvalId }))
      store (.saveJob job)
      audit "APPROVAL_GRANTED" (some a.jobId)
        [("approval_id", .str approval.approvalId), ("plan_hash", .str planHash)] "engineer" a.approvedBy
      return (approval.approvalId, token)

theorem approve_eq : approve cfg a = (do
    let job ← requireJob a.jobId
    let plan ← requirePlan cfg a.jobId
    requireDisplayed a job plan
    let displayed ← store (.getValidation a.jobId)
    match displayed.filter (fun displayed => validationMatchesPlan displayed plan a.jobId) with
    | none =>
        throw (raised .approvalRequired
          "Cannot approve validation evidence for another plan, profile or stage"
          "Regenerate the preview and PRE_COMMIT validation" [])
    | some displayed => do
        let _ ← inspectDocument (some job.documentId)
        let report ← validateWith cfg a.jobId .preCommit false
        grant cfg a job plan displayed report) := rfl

theorem approve_onRaise_iff {F : InMemoryJobStore → Prop} (hF : F s) :
    env.OnRaise (approve cfg a) s F ↔ ∀ job plan displayed, Prepares cfg env s a job plan displayed →
      env.OnRaise (do
        let report ← validateWith cfg a.jobId .preCommit false
        grant cfg a job plan displayed report) s F := by
  rw [approve_eq, onRaise_reading (reads_requireJob a.jobId) hF]
  constructor
  · intro h job plan displayed hp
    have hplan := h job (requireJob_eq_ok.mpr ⟨hp.jobRead, hp.jobFound⟩)
    rw [onRaise_reading (reads_requirePlan cfg a.jobId) hF] at hplan
    have hshown := hplan plan (requirePlan_eq_ok.mpr
      ⟨hp.planRead, hp.planFound, hp.current, hp.jobRead, job, hp.jobFound, hp.bound⟩)
    rw [onRaise_reading (reads_requireDisplayed job plan) hF] at hshown
    have hreport := hshown () (requireDisplayed_eq_ok.mpr ⟨hp.displayedPlan, hp.displayedRevision⟩)
    rw [onRaise_reading (reads_getValidation a.jobId) hF] at hreport
    have hmatched := hreport (some displayed) (getValidation_eq_ok.mpr ⟨hp.displayedRead, hp.displayedFound⟩)
    simp only [Option.filter_some, hp.matched, if_true] at hmatched
    rw [onRaise_reading (reads_inspectDocument _) hF] at hmatched
    obtain ⟨snapshot, hinspected⟩ := hp.inspected
    exact hmatched snapshot (inspectDocument_eq_ok.mpr hinspected)
  · intro h job hjob
    obtain ⟨hjobRead, hjobFound⟩ := requireJob_eq_ok.mp hjob
    rw [onRaise_reading (reads_requirePlan cfg a.jobId) hF]
    intro plan hplan
    obtain ⟨hplanRead, hplanFound, hcurrent, -, found, hfound, hbound⟩ := requirePlan_eq_ok.mp hplan
    obtain rfl : found = job := Option.some.inj (hfound.symm.trans hjobFound)
    rw [onRaise_reading (reads_requireDisplayed found plan) hF]
    intro u hshown
    obtain ⟨hshownPlan, hshownRevision⟩ := requireDisplayed_eq_ok.mp hshown
    rw [onRaise_reading (reads_getValidation a.jobId) hF]
    intro displayed hdisplayed
    obtain ⟨hdisplayedRead, hdisplayedFound⟩ := getValidation_eq_ok.mp hdisplayed
    cases displayed with
    | none => simpa using hF
    | some displayed =>
        cases hmatched : validationMatchesPlan displayed plan a.jobId with
        | false =>
            have hnone : (some displayed).filter (fun displayed => validationMatchesPlan displayed plan a.jobId) =
                none := by
              simp [hmatched]
            rw [hnone]
            exact (onRaise_throw _).mpr hF
        | true =>
            simp only [Option.filter_some, hmatched, if_true]
            rw [onRaise_reading (reads_inspectDocument _) hF]
            intro snapshot hinspected
            exact h found plan displayed
              { jobRead := hjobRead, jobFound := hjobFound, planRead := hplanRead, planFound := hplanFound,
                current := hcurrent, bound := hbound, displayedPlan := hshownPlan,
                displayedRevision := hshownRevision, displayedRead := hdisplayedRead,
                displayedFound := hdisplayedFound, matched := hmatched,
                inspected := ⟨snapshot, inspectDocument_eq_ok.mp hinspected⟩ }

theorem validationEvent_call (jobId : String) (report : ValidationReport) :
    env.call (do
      audit "VALIDATION_COMPLETED" (some jobId)
        [("stage", .str ValidationStage.preCommit.value), ("blocking", natural report.blockingCount),
          ("errors", natural report.errorCount), ("warnings", natural report.warningCount)]
      return report) s =
      ((env.taskAnswer (.audit (validationEvent jobId report))).map (fun _ => report), s) := by
  have hcall : env.call (audit "VALIDATION_COMPLETED" (some jobId)
      [("stage", .str ValidationStage.preCommit.value), ("blocking", natural report.blockingCount),
        ("errors", natural report.errorCount), ("warnings", natural report.warningCount)]) s =
      (env.taskAnswer (.audit (validationEvent jobId report)), s) := rfl
  rw [call_bind, hcall]
  cases env.taskAnswer (.audit (validationEvent jobId report)) <;> rfl

theorem validateWith_call {job : CadJob} {plan : OperationPlan} {displayed : ValidationReport}
    (hp : Prepares cfg env s a job plan displayed) :
    ((¬ ∃ report, Reviews cfg env s a job plan displayed report) ∧
      ∃ e, env.call (validateWith cfg a.jobId .preCommit false) s = (.error e, s)) ∨
    ∃ report, Reviews cfg env s a job plan displayed report ∧
      env.call (validateWith cfg a.jobId .preCommit false) s =
        env.call (do
          if job.state = .previewed ∧ !report.hasBlocking then
            let job ← ofExcept (job.transitionTo .validated)
            store (.saveJob job)
          audit "VALIDATION_COMPLETED" (some a.jobId)
            [("stage", .str ValidationStage.preCommit.value), ("blocking", natural report.blockingCount),
              ("errors", natural report.errorCount), ("warnings", natural report.warningCount)]
          return report) (s.saveValidation report) := by
  have hsnapshot : env.call (host (.getSnapshot job.documentId) : HarnessM (Option DocumentSnapshot)) s =
    (.ok (env.hostAnswer (.getSnapshot job.documentId)), s) := rfl
  have hrules : env.call (task (.runRules .preCommit plan none a.jobId) : HarnessM ValidationReport) s =
    (env.taskAnswer (.runRules .preCommit plan none a.jobId), s) := rfl
  unfold validateWith
  rw [call_bind_of env (requireJob_eq_ok.mpr ⟨hp.jobRead, hp.jobFound⟩),
    call_bind_of env (requirePlan_eq_ok.mpr
      ⟨hp.planRead, hp.planFound, hp.current, hp.jobRead, job, hp.jobFound, hp.bound⟩)]
  by_cases happroved : job.state = .approved
  · left
    constructor
    · rintro ⟨report, hr⟩
      exact hr.pending happroved
    · simp [happroved, call_bind]
  · rw [if_neg (by simp [happroved]), call_bind, hrules]
    cases hanswer : env.taskAnswer (.runRules .preCommit plan none a.jobId) with
    | error e =>
        left
        constructor
        · rintro ⟨report, hr⟩
          obtain ⟨rules, hok, -⟩ := hr.validated
          rw [hanswer] at hok
          cases hok
        · exact ⟨e, rfl⟩
    | ok rules =>
        dsimp only
        rw [call_bind_of env hsnapshot, call_bind, call_store]
        generalize hreport : withLiveStyles cfg .preCommit plan rules _ = report
        have hsaved : s.handle (.saveValidation report) = .ok ((), s.saveValidation report) := rfl
        unfold request
        rw [hsaved]
        cases hrefusal : env.refusal (.saveValidation report) with
        | some e =>
            left
            constructor
            · rintro ⟨other, hr⟩
              obtain ⟨found, hok, hother⟩ := hr.validated
              obtain rfl : found = rules := Except.ok.inj (hok.symm.trans hanswer)
              obtain rfl : other = report := hother.trans hreport
              have hgranted := hr.saved
              rw [hrefusal] at hgranted
              cases hgranted
            · exact ⟨e, rfl⟩
        | none =>
            right
            have hreviews : Reviews cfg env s a job plan displayed report :=
              ⟨hp, happroved, ⟨rules, hanswer, hreport.symm⟩, hrefusal⟩
            exact ⟨report, hreviews, by simp only [true_and]⟩

theorem saveApproval_handle (approval : ApprovalRecord) :
    s.handle (.saveApproval approval) = .ok ((), s.saveApproval approval) := rfl

theorem call_saveJob (job : CadJob) : env.call (store (.saveJob job)) s = match env.refusal (.saveJob job) with
    | some e => (.error e, s)
    | none => (.ok (), s.saveJob job) := by
  rw [call_store]
  unfold request
  cases env.refusal (.saveJob job) <;> rfl

/-- An approval from the saving of its record on. -/
def conclude (approval : ApprovalRecord) (job : CadJob) (token : String) : HarnessM (String × String) := do
  store (.saveApproval approval)
  let job ← ofExcept (job.transitionTo .approved (fun job => { job with approvalId := some approval.approvalId }))
  store (.saveJob job)
  audit "APPROVAL_GRANTED" (some approval.jobId)
    [("approval_id", .str approval.approvalId), ("plan_hash", .str approval.planHash)] "engineer"
    approval.approvedBy
  return (approval.approvalId, token)

theorem grant_call {job : CadJob} {plan : OperationPlan} {displayed report : ValidationReport} :
    ((∃ e, env.call (grant cfg a job plan displayed report) s = (.error e, s)) ∧
      ∀ planHash, ¬ (Approvable cfg a displayed report ∧ plan.planHash = some planHash ∧
        cfg.settings.approvalSecret ≠ "")) ∨
    ∃ planHash token, (Approvable cfg a displayed report ∧ plan.planHash = some planHash ∧
        cfg.settings.approvalSecret ≠ "") ∧
      env.call (grant cfg a job plan displayed report) s = env.call (conclude (issued cfg env a job planHash) job token) s := by
  unfold grant
  rw [call_bind]
  rcases @requireApprovable_call cfg env s a displayed report with
    ⟨happrovable, hcall⟩ | ⟨hnot, e, hcall⟩
  · rw [hcall]
    cases hhash : plan.planHash with
    | none =>
        left
        exact ⟨⟨_, rfl⟩, by simp⟩
    | some planHash =>
        dsimp only
        rw [call_bind]
        rcases @issueApproval_call cfg env s a job planHash with
          ⟨hsecret, token, hissued⟩ | ⟨hsecret, e, hissued⟩
        · right
          rw [hissued]
          exact ⟨planHash, token, ⟨happrovable, rfl, hsecret⟩, rfl⟩
        · left
          rw [hissued]
          exact ⟨⟨e, rfl⟩, by simp [hsecret]⟩
  · left
    rw [hcall]
    exact ⟨⟨e, rfl⟩, fun planHash h => hnot h.1⟩

/-- A job that is not validated is not approved, although its approval may be saved. -/
theorem conclude_raises {job : CadJob} (hjob : job.state ≠ .validated) (approval : ApprovalRecord)
    (token : String) :
    ∃ e, (env.call (conclude approval job token) s).1 = .error e ∧
      (env.call (conclude approval job token) s).2.jobs = s.jobs := by
  obtain ⟨e, htransition⟩ := CadJob.transitionTo_refused (mt JobState.approved_mem_allowed.mp hjob)
    (fun job => { job with approvalId := some approval.approvalId })
  unfold conclude
  rw [call_bind, call_store, htransition]
  unfold request
  rw [saveApproval_handle]
  cases env.refusal (.saveApproval approval) with
  | some refused => exact ⟨refused, rfl, rfl⟩
  | none => exact ⟨e, rfl, rfl⟩

/-- Behind the validation nothing but the approval is saved, unless the job is validated. -/
theorem grant_raises {job : CadJob} {plan : OperationPlan} {displayed report : ValidationReport}
    (hjob : job.state ≠ .validated) :
    ∃ e, (env.call (grant cfg a job plan displayed report) s).1 = .error e ∧
      (env.call (grant cfg a job plan displayed report) s).2.jobs = s.jobs := by
  rcases @grant_call cfg env s a job plan displayed report with ⟨⟨e, hcall⟩, -⟩ | ⟨planHash, token, -, hcall⟩
  · rw [hcall]
    exact ⟨e, rfl, rfl⟩
  · rw [hcall]
    exact conclude_raises hjob _ token

/-- Once the approval is saved, all is well only if nothing raises any more. -/
theorem conclude_onRaise_iff {job : CadJob} {approval : ApprovalRecord} {token : String}
    {F : InMemoryJobStore → Prop} (hF : F s)
    (hfresh : ∀ s' : InMemoryJobStore, F s' → s'.approvals.lookup approval.approvalId = none) :
    env.OnRaise (conclude approval job token) s F ↔
      (env.refusal (.saveApproval approval) = none →
        job.state = .validated ∧
        env.refusal (.saveJob { job with state := .approved, approvalId := some approval.approvalId }) = none ∧
        env.taskAnswer (.audit (approvalEvent approval)) = .ok ()) := by
  have hstored : ∀ s' : InMemoryJobStore, s'.approvals = (s.saveApproval approval).approvals → ¬ F s' := by
    intro s' happrovals h
    have hnone := hfresh s' h
    rw [happrovals] at hnone
    exact absurd hnone (by simp [InMemoryJobStore.saveApproval])
  unfold conclude
  rw [onRaise_write (saveApproval_handle _) hF]
  apply imp_congr_right
  intro hsaved
  by_cases hjob : job.state = .validated
  · have hallowed : JobState.approved ∈ job.state.allowed := JobState.approved_mem_allowed.mpr hjob
    rw [CadJob.transitionTo_eq_ok.mpr ⟨hallowed, rfl⟩]
    dsimp only
    generalize { job with state := .approved, approvalId := some approval.approvalId } = approved
    have hevent : ∀ s' : InMemoryJobStore, env.call (audit "APPROVAL_GRANTED" (some approval.jobId)
        [("approval_id", .str approval.approvalId), ("plan_hash", .str approval.planHash)] "engineer"
        approval.approvedBy) s' = (env.taskAnswer (.audit (approvalEvent approval)), s') := fun _ => rfl
    rw [onRaise_ofExcept]
    unfold OnRaise
    rw [call_bind, call_saveJob]
    cases env.refusal (.saveJob approved) with
    | some e =>
        constructor
        · intro h
          exact absurd (h e rfl) (hstored _ rfl)
        · rintro ⟨-, hnone, -⟩
          cases hnone
    | none =>
        dsimp only
        rw [call_bind, hevent]
        cases env.taskAnswer (.audit (approvalEvent approval)) with
        | error e =>
            constructor
            · intro h
              exact absurd (h e rfl) (hstored _ rfl)
            · rintro ⟨-, -, hok⟩
              cases hok
        | ok u =>
            constructor
            · intro _
              exact ⟨hjob, rfl, rfl⟩
            · intro _ e he
              cases he
  · obtain ⟨e, htransition⟩ := CadJob.transitionTo_refused (mt JobState.approved_mem_allowed.mp hjob)
      (fun job => { job with approvalId := some approval.approvalId })
    rw [htransition, onRaise_bind]
    constructor
    · rintro ⟨hraise, -⟩
      exact absurd (hraise e rfl) (hstored _ rfl)
    · rintro ⟨hvalidated, -⟩
      exact absurd hvalidated hjob

theorem grant_onRaise_iff {job : CadJob} {plan : OperationPlan} {displayed report : ValidationReport}
    {F : InMemoryJobStore → Prop} (hF : F s)
    (hfresh : ∀ s' : InMemoryJobStore, F s' → s'.approvals.lookup (env.hostAnswer (.newId "approval")) = none) :
    env.OnRaise (grant cfg a job plan displayed report) s F ↔
      ∀ planHash, (Approvable cfg a displayed report ∧ plan.planHash = some planHash ∧
          cfg.settings.approvalSecret ≠ "") →
        env.refusal (.saveApproval (issued cfg env a job planHash)) = none →
        job.state = .validated ∧
        env.refusal (.saveJob
          { job with state := .approved, approvalId := some (env.hostAnswer (.newId "approval")) }) = none ∧
        env.taskAnswer (.audit (approvalEvent (issued cfg env a job planHash))) = .ok () := by
  rcases @grant_call cfg env s a job plan displayed report with ⟨⟨e, hcall⟩, hnone⟩ | ⟨planHash, token, hmay, hcall⟩
  · constructor
    · intro _ planHash hmay
      exact absurd hmay (hnone planHash)
    · intro _ e' _
      rw [hcall]
      exact hF
  · have hconclude := @conclude_onRaise_iff env s job (issued cfg env a job planHash) token F hF hfresh
    have hgrant : env.OnRaise (grant cfg a job plan displayed report) s F ↔
        env.OnRaise (conclude (issued cfg env a job planHash) job token) s F := by
      unfold OnRaise
      rw [hcall]
    rw [hgrant, hconclude]
    constructor
    · intro h other hother
      obtain rfl : planHash = other := Option.some.inj (hmay.2.1.symm.trans hother.2.1)
      exact h
    · intro h
      exact h planHash hmay

/-! ## The condition -/

theorem SameApproval.refl (jobId : String) (s : InMemoryJobStore) : SameApproval jobId s s := ⟨rfl, rfl⟩

/-- A previewed job that was saved as validated is not as it was. -/
theorem not_sameApproval_of_validated {job : CadJob} {s' : InMemoryJobStore} (hkey : job.jobId = a.jobId)
    (hjob : s.getJob a.jobId = some job) (hstate : job.state = .previewed)
    (hjobs : s'.jobs = (s.saveJob { job with state := .validated }).jobs) : ¬ SameApproval a.jobId s s' := by
  intro hsame
  have hlater : s'.getJob a.jobId = some { job with state := .validated } := by
    unfold InMemoryJobStore.getJob
    rw [hjobs]
    unfold InMemoryJobStore.saveJob
    rw [← hkey]
    exact Assoc.lookup_set_self _ _ _
  have hpair := hsame.job
  rw [hlater, hjob] at hpair
  simp [hstate] at hpair

/-- The validation of a job that it does not move on. -/
theorem review_onRaise_iff {job : CadJob} {plan : OperationPlan} {displayed report : ValidationReport}
    (hcall : env.call (validateWith cfg a.jobId .preCommit false) s =
      ((env.taskAnswer (.audit (validationEvent a.jobId report))).map (fun _ => report), s.saveValidation report))
    (hfresh : s.approvals.lookup (env.hostAnswer (.newId "approval")) = none) :
    env.OnRaise (do
        let report ← validateWith cfg a.jobId .preCommit false
        grant cfg a job plan displayed report) s (SameApproval a.jobId s) ↔
      ∀ planHash, Grants cfg env a job plan displayed report planHash →
        job.state = .validated ∧
        env.refusal (.saveJob
          { job with state := .approved, approvalId := some (env.hostAnswer (.newId "approval")) }) = none ∧
        env.taskAnswer (.audit (approvalEvent (issued cfg env a job planHash))) = .ok () := by
  have hsame : SameApproval a.jobId s (s.saveValidation report) := ⟨rfl, rfl⟩
  cases hrecorded : env.taskAnswer (.audit (validationEvent a.jobId report)) with
  | error e =>
      rw [hrecorded] at hcall
      constructor
      · intro _ planHash hgrants
        have hok := hgrants.recorded
        rw [hrecorded] at hok
        cases hok
      · intro _ e' _
        rw [call_bind, hcall]
        exact hsame
  | ok u =>
      rw [hrecorded] at hcall
      have hgrant : env.OnRaise (do
            let report ← validateWith cfg a.jobId .preCommit false
            grant cfg a job plan displayed report) s (SameApproval a.jobId s) ↔
          env.OnRaise (grant cfg a job plan displayed report) (s.saveValidation report)
            (SameApproval a.jobId s) := by
        unfold OnRaise
        rw [call_bind_of env hcall]
      rw [hgrant, grant_onRaise_iff hsame (fun s' h => by rw [h.approvals]; exact hfresh)]
      constructor
      · intro hpost planHash hgrants
        exact hpost planHash ⟨hgrants.approvable, hgrants.hashed, hgrants.signed⟩ hgrants.saved
      · intro hpost planHash hmay hsaved
        exact hpost planHash ⟨hrecorded, hmay.1, hmay.2.1, hmay.2.2, hsaved⟩

/-- The validation of a previewed job that it moves on. -/
theorem promotion_onRaise_iff {job : CadJob} {plan : OperationPlan} {displayed report : ValidationReport}
    (hcall : env.call (validateWith cfg a.jobId .preCommit false) s =
      env.call (do
        let job ← ofExcept (job.transitionTo .validated)
        store (.saveJob job)
        audit "VALIDATION_COMPLETED" (some a.jobId)
          [("stage", .str ValidationStage.preCommit.value), ("blocking", natural report.blockingCount),
            ("errors", natural report.errorCount), ("warnings", natural report.warningCount)]
        return report) (s.saveValidation report))
    (hkey : job.jobId = a.jobId) (hjob : s.getJob a.jobId = some job) (hstate : job.state = .previewed) :
    env.OnRaise (do
        let report ← validateWith cfg a.jobId .preCommit false
        grant cfg a job plan displayed report) s (SameApproval a.jobId s) ↔
      env.refusal (.saveJob { job with state := .validated }) ≠ none := by
  have hallowed : JobState.validated ∈ job.state.allowed := JobState.validated_mem_allowed.mpr hstate
  have hmoved : ∀ s' : InMemoryJobStore, s'.jobs = (s.saveJob { job with state := .validated }).jobs →
      ¬ SameApproval a.jobId s s' := fun s' => not_sameApproval_of_validated hkey hjob hstate
  rw [CadJob.transitionTo_eq_ok.mpr ⟨hallowed, rfl⟩, call_bind, call_ofExcept] at hcall
  dsimp only [id] at hcall
  rw [call_bind, call_saveJob] at hcall
  unfold OnRaise
  rw [call_bind]
  cases hrefusal : env.refusal (.saveJob { job with state := .validated }) with
  | some e =>
      rw [hrefusal] at hcall
      rw [hcall]
      refine iff_of_true ?_ (by simp)
      intro e' _
      exact ⟨rfl, rfl⟩
  | none =>
      rw [hrefusal] at hcall
      dsimp only at hcall
      rw [validationEvent_call] at hcall
      rw [hcall]
      refine iff_of_false ?_ (by simp)
      cases env.taskAnswer (.audit (validationEvent a.jobId report)) with
      | error e =>
          intro hsame
          apply hmoved _ _ (hsame e rfl)
          rfl
      | ok u =>
          intro hsame
          dsimp only [Except.map] at hsame
          obtain ⟨e, hraised, hjobs⟩ := @grant_raises cfg env
            ((s.saveValidation report).saveJob { job with state := .validated }) a job plan displayed report
            (by simp [hstate])
          exact hmoved _ hjobs (hsame e hraised)

/-- The report of a call is determined by its surroundings. -/
theorem Reviews.unique {job : CadJob} {plan : OperationPlan} {displayed report other : ValidationReport}
    (hr : Reviews cfg env s a job plan displayed report) (ho : Reviews cfg env s a job plan displayed other) :
    report = other := by
  obtain ⟨rules, hrules, hreport⟩ := hr.validated
  obtain ⟨rules', hrules', hother⟩ := ho.validated
  obtain rfl : rules = rules' := Except.ok.inj (hrules.symm.trans hrules')
  exact hreport.trans hother.symm

theorem reviewed_onRaise_iff {job : CadJob} {plan : OperationPlan} {displayed report : ValidationReport}
    (hcall : env.call (validateWith cfg a.jobId .preCommit false) s =
      env.call (do
        if job.state = .previewed ∧ !report.hasBlocking then
          let job ← ofExcept (job.transitionTo .validated)
          store (.saveJob job)
        audit "VALIDATION_COMPLETED" (some a.jobId)
          [("stage", .str ValidationStage.preCommit.value), ("blocking", natural report.blockingCount),
            ("errors", natural report.errorCount), ("warnings", natural report.warningCount)]
        return report) (s.saveValidation report))
    (hkey : job.jobId = a.jobId) (hjob : s.getJob a.jobId = some job)
    (hfresh : s.approvals.lookup (env.hostAnswer (.newId "approval")) = none) :
    env.OnRaise (do
        let report ← validateWith cfg a.jobId .preCommit false
        grant cfg a job plan displayed report) s (SameApproval a.jobId s) ↔
      (job.state = .previewed →
        report.hasBlocking = true ∨ env.refusal (.saveJob { job with state := .validated }) ≠ none) ∧
      ∀ planHash, job.state ≠ .previewed → Grants cfg env a job plan displayed report planHash →
        job.state = .validated ∧
        env.refusal (.saveJob
          { job with state := .approved, approvalId := some (env.hostAnswer (.newId "approval")) }) = none ∧
        env.taskAnswer (.audit (approvalEvent (issued cfg env a job planHash))) = .ok () := by
  by_cases hmoves : job.state = .previewed ∧ (!report.hasBlocking) = true
  · rw [if_pos hmoves] at hcall
    rw [promotion_onRaise_iff hcall hkey hjob hmoves.1]
    have hclean : report.hasBlocking = false := by simpa using hmoves.2
    simp [hmoves.1, hclean]
  · rw [if_neg hmoves, validationEvent_call] at hcall
    rw [review_onRaise_iff hcall hfresh]
    by_cases hstate : job.state = .previewed
    · -- A plan with a blocking finding is not approved.
      have hblocking : report.hasBlocking = true := by simpa [hstate] using hmoves
      have hnot : ∀ planHash, ¬ Grants cfg env a job plan displayed report planHash := by
        intro planHash hgrants
        have hallowed := hgrants.approvable.allowed
        simp [ValidationReport.gateAllowsCommit, hblocking] at hallowed
      simp [hstate, hblocking, hnot]
    · simp [hstate]

/-- In a store that the service has reached, an approval is atomic just when it is harmless. The identifiers
that are made anew are not in use. -/
theorem approve_atomic_iff (h : Reachable cfg s)
    (hfresh : s.approvals.lookup (env.hostAnswer (.newId "approval")) = none) :
    env.OnRaise (approve cfg a) s (SameApproval a.jobId s) ↔ Harmless cfg env s a := by
  rw [approve_onRaise_iff (SameApproval.refl a.jobId s)]
  have hkey : ∀ job, s.getJob a.jobId = some job → job.jobId = a.jobId := reachable_keyed h a.jobId
  constructor
  · intro hon job plan displayed report hr
    rcases validateWith_call hr.toPrepares with ⟨hnone, -⟩ | ⟨found, hfound, hcall⟩
    · exact absurd ⟨report, hr⟩ hnone
    · obtain rfl : found = report := hfound.unique hr
      exact (reviewed_onRaise_iff hcall (hkey job hr.jobFound) hr.jobFound hfresh).mp
        (hon job plan displayed hr.toPrepares)
  · intro hharmless job plan displayed hp
    rcases validateWith_call hp with ⟨-, e, hcall⟩ | ⟨report, hr, hcall⟩
    · intro e' _
      rw [call_bind, hcall]
      exact SameApproval.refl a.jobId s
    · exact (reviewed_onRaise_iff hcall (hkey job hr.jobFound) hr.jobFound hfresh).mpr
        (hharmless job plan displayed report hr)

/-! ## An approval that is refused and stays -/

/-- Nothing fails. The compiler makes a plan without operations, and the rules find nothing. -/
def calmSurroundings : Surroundings where
  refusal _ := none
  adapterAnswer
    | .adapterType => .ok "fake"
    | .inspectDocument _ => .ok ⟨"doc_1", "rev_1", "mm", [], [], []⟩
    | .validateRevision _ _ => .ok true
    | .allowsExpiredCheckpointRecovery => .ok false
    | .commit _ | .rollback _ => .error .assertionError
  taskAnswer
    | .audit _ | .leaveHold _ | .requireWriterCompatible | .preflight _ => .ok ()
    | .modelValidate _ => .ok ⟨"spec_1", "doc_1", []⟩
    | .compile _ _ _ =>
        .ok (.compiled
          { schemaVersion, planId := "plan_1", jobId := "job_1", documentId := "doc_1",
            expectedRevision := "rev_1", canonicalUnits := "mm", profileRef := "default@1",
            planHash := some "sha256:" } [] [])
    | .renderPreview _ => .ok ⟨[], [], false⟩
    | .runRules stage _ _ _ =>
        .ok { schemaVersion, validationId := "validation_1", jobId := "job_1", stage,
              planHash := some "sha256:", profileRef := some "default@1" }
    | _ => .error .assertionError
  hostAnswer
    | .clock => 1
    | .newId prefixValue => prefixValue ++ "_1"
    | .setSnapshot _ | .setUndoReceipt _ _ _ | .popUndoReceipt _ | .setRemediationJob _ _ | .setRecovery _ _
    | .popRecovery _ | .noteReleased _ _ => ()
    | .getSnapshot _ => some ⟨"doc_1", "rev_1", "mm", [], [], []⟩
    | .getUndoReceipt _ | .getRemediationJob _ | .getRecovery _ => none
    | .leaseIsValidAt _ _ => true
    | .hasDrawingModelReader | .hasDrawingAuditStore => false
    | .semanticDiff _ _ => .null

/-- A configuration with a secret. Every digest is empty. -/
def secretConfig : Config where
  settings :=
    { requireCommitApproval := true, approvalSecret := "secret", approvalTtl := 30, rollbackApprovalTtl := 30 }
  profile := { profileId := "default", version := "1", canonicalUnit := "mm", companyApproved := false }
  sha256 _ := ""
  hmacSha256 _ _ := ""
  encodeClaims _ := ""
  decodeClaims _ := none
  makeRollbackApprovalToken _ _ := ""
  verifyRollbackApprovalToken _ _ _ _ := .error .assertionError
  verifyRollbackRecoveryToken _ _ _ := .error .assertionError

def callAll (cfg : Config) (env : Surroundings) (calls : List Call) (s : InMemoryJobStore) : InMemoryJobStore :=
  calls.foldl (fun s c => (env.run (c.program cfg) s).2) s

theorem callAll_reachable (calls : List Call) (h : Reachable cfg s) : Reachable cfg (callAll cfg env calls s) := by
  induction calls generalizing s with
  | nil => exact h
  | cons c calls ih => exact ih (h.call c (env.run_leads _ s))

/-- The plan of a job is validated before it is previewed. -/
def earlyValidated : InMemoryJobStore :=
  callAll secretConfig calmSurroundings
    [.createJob none, .submitSpec "job_1" ⟨none, none, none, none, []⟩, .validate "job_1" .preCommit,
      .preview "job_1"] {}

theorem approve_atomic_iff_earlyValidated :
    calmSurroundings.OnRaise (approve secretConfig { jobId := "job_1", approvedBy := "engineer" }) earlyValidated
        (SameApproval "job_1" earlyValidated) ↔
      Harmless secretConfig calmSurroundings earlyValidated { jobId := "job_1", approvedBy := "engineer" } :=
  approve_atomic_iff (callAll_reachable _ .initial) (by decide)

/-- The job is previewed, and its report was made before that. The approval validates it once more, saves its
record, and cannot move the job it has read at first. -/
theorem approve_leaves_approval :
    ¬ ∀ (cfg : Config) (env : Surroundings) (s : InMemoryJobStore) (a : ApproveArgs), Reachable cfg s →
      s.approvals.lookup (env.hostAnswer (.newId "approval")) = none →
      env.OnRaise (approve cfg a) s (SameApproval a.jobId s) := by
  intro h
  have hatomic := h secretConfig calmSurroundings earlyValidated { jobId := "job_1", approvedBy := "engineer" }
    (callAll_reachable _ .initial) (by decide)
  have happrovals : (calmSurroundings.call (approve secretConfig { jobId := "job_1", approvedBy := "engineer" })
      earlyValidated).2.approvals.length = 1 := by decide
  cases hresult : (calmSurroundings.call
      (approve secretConfig { jobId := "job_1", approvedBy := "engineer" }) earlyValidated).1 with
  | ok result =>
      have hraises : (calmSurroundings.call (approve secretConfig { jobId := "job_1", approvedBy := "engineer" })
          earlyValidated).1.toOption.isNone = true := by decide
      rw [hresult] at hraises
      cases hraises
  | error e =>
      have hsame := (hatomic e hresult).approvals
      rw [hsame] at happrovals
      exact absurd happrovals (by decide)

end CadHarness.Service
