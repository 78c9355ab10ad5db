import CadHarness.Service.Lemmas.Outcome

/-!
# What a commit leaves behind

Once a commit has persisted that it is committing, it ends with the job committed, failed or unknown,
unless one of a few exceptions is raised.
-/

namespace CadHarness.Service
open CadHarness.Lib CadHarness.Domain CadHarness.Persistence Prog

variable {cfg : Config} {tr : List HarnessEvent}

/-! ## The blocks of a commit -/

variable (c : CommitArgs)

theorem applyPlan_continues (a : Authorized) {job : CadJob} (hjob : job.state = .committing)
    (lease : WriterLease) : Continues (applyPlan c a job lease) := by
  intro tr h
  unfold applyPlan
  apply Ends.seq (F := fun tr r => Running tr ∧ ∃ o, r = .ok o)
  · rw [ends_attempt]
    apply Ends.seq (F := fun tr _ => Running tr)
    · rw [ends_adapter]
      intro r
      exact h.idle (idle_adapter _ r)
    · intro tr result h
      dsimp only
      cases result.undoGroup with
      | none => exact ⟨h, _, rfl⟩
      | some undoGroup =>
          rw [ends_bind, ends_host]
          intro r
          exact ⟨h.idle (idle_host _ r), _, rfl⟩
    · intro tr e h
      exact ⟨h, _, rfl⟩
  · rintro tr outcome ⟨h, -⟩
    cases outcome with
    | ok result => exact h
    | error exc =>
        dsimp only
        rw [ends_bind, ends_task]
        intro now
        cases now with
        | error e => exact h.decided rfl rfl
        | ok now =>
            dsimp only
            rw [ends_bind, ends_host]
            intro valid
            dsimp only
            generalize htarget : (if exc.isUnknownCommitState || !valid then JobState.unknownCommitState
              else JobState.failed) = target
            have hstate : target = .committed ∨ target = .failed ∨ target = .unknownCommitState := by
              subst htarget
              split
              · exact .inr (.inr rfl)
              · exact .inr (.inl rfl)
            rw [ends_bind, ends_ofExcept, transitionTo_committing hjob hstate id]
            have hnext : Running (tr ++ [⟨.task .leaseClock, .ok now⟩] ++
                [⟨.host (.leaseIsValidAt lease.leaseId now), valid⟩]) :=
              (h.idle (idle_task_ok _ _)).idle (idle_host _ _)
            apply (hnext.raises (o := .finalizeJob _ lease.leaseId now []) rfl hstate ?_).mono
            · rintro tr r ⟨htr, e, rfl⟩
              exact htr
            · intro released
              apply Raises.noteReleased
              apply Raises.audit _ rfl
              exact (Raises.throw _).ite (Raises.throw exc)
  · rintro tr e ⟨-, o, ho⟩
    cases ho

/-- The outcome of a written commit is persisted. -/
theorem finalizeCommit_decided {w : Written} {terminal : CadJob} {now : Time} (h : Running tr)
    (hstate : terminal.state = .committed ∨ terminal.state = .failed ∨ terminal.state = .unknownCommitState) :
    Ends StoreWrites (finalizeCommit c w terminal now) tr (fun tr r => Decided tr ∧ r = .ok ()) := by
  unfold finalizeCommit
  rw [ends_bind, ends_store]
  intro r hr
  have hdecided := h.settled hr rfl hstate
  obtain ⟨released, rfl⟩ := hr rfl
  dsimp only
  rw [ends_host]
  intro u
  exact ⟨hdecided.idle (idle_host _ u), rfl⟩

theorem failWritten_raises {w : Written} (hjob : w.job.state = .committing) (payload : List (String × Value))
    (exc : Exc) (h : Running tr) :
    Ends StoreWrites (failWritten c w payload exc) tr (fun tr r => Decided tr ∧ ∃ e, r = .error e) := by
  unfold failWritten
  rw [ends_bind, ends_ofExcept, transitionTo_committing hjob (.inr (.inl rfl))]
  dsimp only
  rw [ends_bind, ends_task]
  intro now
  cases now with
  | error e => exact ⟨h.decided rfl rfl, e, rfl⟩
  | ok now =>
      have hnext : Running (tr ++ [⟨.task .leaseClock, .ok now⟩]) := h.idle (idle_task_ok _ _)
      apply (finalizeCommit_decided c hnext (.inr (.inl rfl))).seq
      · rintro tr u ⟨htr, -⟩
        exact Raises.audit (Raises.throw exc) rfl tr htr
      · rintro tr e ⟨htr, -⟩
        exact ⟨htr, e, rfl⟩

theorem requirePostReport_continues {w : Written} (hjob : w.job.state = .committing) :
    Continues (requirePostReport c w) := by
  intro tr h
  unfold requirePostReport
  rw [ends_bind, ends_task]
  intro r
  cases r with
  | error e => exact h.decided rfl rfl
  | ok postReport =>
      have hrun : Running (tr ++ [⟨.task (.runRules .postCommit w.plan (some w.result) c.jobId), .ok postReport⟩]) :=
        h.idle (idle_task_ok _ _)
      dsimp only
      rw [ends_bind, ends_store]
      intro saved _
      cases saved with
      | error e => exact hrun.decided rfl (by rw [List.getLast?_concat]; rfl)
      | ok u =>
          have hsaved := hrun.step (e := ⟨.store (.saveValidation postReport), .ok u⟩) rfl rfl
          dsimp only
          rw [ends_ite]
          constructor
          · intro _
            apply (failWritten_raises c hjob _ _ hsaved).mono
            rintro tr r ⟨htr, e, rfl⟩
            exact htr
          · intro _
            exact hsaved

/-- The new audit, whatever becomes of it, leaves the commit running. -/
theorem reaudit_keeps (w : Written) (remediation : RemediationResult) : Keeps (reaudit c w remediation) := by
  unfold reaudit
  apply (Keeps.host _).bind
  intro reader
  apply Keeps.ite (Keeps.throw _)
  apply (Keeps.task fun _ _ => rfl).bind
  intro readback
  apply Keeps.ite (Keeps.throw _)
  apply (Keeps.store rfl fun _ r => by cases r <;> rfl).bind
  intro mappings
  apply Keeps.audited
  intro report
  apply (Keeps.host _).bind
  intro auditStore
  apply Keeps.ite (Keeps.throw _)
  apply (Keeps.task fun _ _ => rfl).bind
  intro baseline
  cases baseline with
  | none => exact Keeps.throw _
  | some baseline => exact Keeps.pure _

/-- The audit of a remediation is recorded, and its exception strands the job. -/
theorem auditedDrawing_continues {event : AuditEvent} (hevent : event.eventType = "DRAWING_AUDITED")
    {m : HarnessM Unit} (hm : Continues m) : Continues (do task (.audit event); m) := by
  intro tr h
  rw [ends_bind, ends_task]
  intro r
  cases r with
  | error e => exact h.decided rfl (by simp [strands, hevent])
  | ok u => exact hm _ (h.idle (idle_task_ok _ u))

theorem failWritten_continues {w : Written} (hjob : w.job.state = .committing)
    (payload : List (String × Value)) (exc : Exc) : Continues (failWritten c w payload exc) := by
  intro tr h
  apply (failWritten_raises c hjob payload exc h).mono
  rintro tr r ⟨htr, e, rfl⟩
  exact htr

theorem requireRemediated_continues {w : Written} (hjob : w.job.state = .committing)
    (remediation : RemediationResult) : Continues (requireRemediated c w remediation) := by
  intro tr h
  unfold requireRemediated
  rw [ends_bind, ends_attempt]
  apply (reaudit_keeps c w remediation tr h).mono
  intro tr outcome h
  cases outcome with
  | ok found =>
      obtain ⟨remaining, introduced⟩ := found
      exact auditedDrawing_continues rfl ((failWritten_continues c hjob _ _).ite (Continues.pure ())) tr h
  | error exc =>
      exact auditedDrawing_continues rfl ((failWritten_continues c hjob _ _).ite (Continues.pure ())) tr h

theorem concludeCommit_decided {w : Written} (hjob : w.job.state = .committing) (h : Running tr) :
    Ends StoreWrites (concludeCommit c w) tr (fun tr _ => Decided tr) := by
  unfold concludeCommit
  rw [ends_bind, ends_task]
  intro now
  cases now with
  | error e => exact h.decided rfl rfl
  | ok now =>
      have hclock := h.idle (idle_task_ok .leaseClock now)
      dsimp only
      rw [ends_bind, ends_host]
      intro valid
      have hnext := hclock.idle (idle_host (.leaseIsValidAt w.lease.leaseId now) valid)
      dsimp only
      rw [ends_ite]
      constructor
      · intro _
        rw [ends_bind, ends_ofExcept, transitionTo_committing hjob (.inr (.inr rfl))]
        dsimp only
        apply (hnext.raises rfl (.inr (.inr rfl)) ?_).mono
        · rintro tr r ⟨htr, -⟩
          exact htr
        · intro released
          exact Raises.noteReleased (Raises.throw _) w.lease.leaseId released
      · intro _
        rw [ends_bind, ends_ofExcept, transitionTo_committing hjob (.inl rfl)]
        dsimp only
        apply (finalizeCommit_decided c hnext (.inl rfl)).seq
        · rintro tr u ⟨htr, -⟩
          unfold audit
          rw [ends_bind, ends_task]
          intro r
          cases r with
          | ok a => exact htr.idle (idle_audit (by simp) (by simp) _)
          | error e => exact htr.idle (idle_audit (by simp) (by simp) _)
        · rintro tr e ⟨htr, -⟩
          exact htr

/-! ## Before the job is committing -/

/-- An operation of a commit before it persists that it is committing. -/
def Preliminary : HarnessOp → Prop
  | .store o => ∀ job, o.job? = some job → job.state ≠ .committing
  | .task (.audit event) => event.eventType ≠ "COMMIT_STARTED" ∧ event.eventType ≠ "DRAWING_AUDITED"
  | .task .leaseClock => False
  | .task (.runRules stage _ _ _) => stage ≠ .postCommit
  | _ => True

/-- The call has persisted that its job is committing. -/
def PersistedCommitting (tr : List HarnessEvent) : Prop :=
  ∃ e ∈ tr, ∃ job, persisted? e = some job ∧ job.state = .committing

theorem persistedCommitting_of_state (h : persistedState tr = some .committing) : PersistedCommitting tr := by
  unfold persistedState at h
  obtain ⟨job, hjob, hstate⟩ := Option.map_eq_some_iff.mp h
  obtain ⟨e, he, hpersisted⟩ := List.mem_filterMap.mp (List.mem_of_getLast? hjob)
  exact ⟨e, he, job, hpersisted, hstate⟩

theorem not_persistedCommitting (h : ∀ e ∈ tr, Preliminary e.op) : ¬ PersistedCommitting tr := by
  rintro ⟨⟨o, r⟩, he, job, hjob, hstate⟩
  have hpre := h _ he
  cases o with
  | store o =>
      cases r with
      | ok a => exact hpre job hjob hstate
      | error e => cases hjob
  | _ => cases hjob

theorem ranPostCommit_of_preliminary {e : HarnessEvent} (h : Preliminary e.op) : ranPostCommit e = false := by
  obtain ⟨o, r⟩ := e
  cases o with
  | task o =>
      cases o with
      | runRules stage plan result jobId =>
          cases stage with
          | postCommit => exact absurd rfl h
          | _ => rfl
      | _ => rfl
  | _ => rfl

theorem not_stranded_of_preliminary (h : ∀ e ∈ tr, Preliminary e.op) : ¬ Stranded tr := by
  rintro ⟨before, ⟨o, r⟩, after, rfl, hs⟩
  have hpre := h ⟨o, r⟩ (by simp)
  have hlast : before.getLast?.any ranPostCommit = false := by
    cases hb : before.getLast? with
    | none => rfl
    | some e => exact ranPostCommit_of_preliminary (h e (by simp [List.mem_of_getLast? hb]))
  cases o with
  | task o =>
      cases o with
      | audit event => cases r <;> simp_all [strands, Preliminary]
      | leaseClock => exact hpre
      | runRules stage plan result jobId =>
          cases stage with
          | postCommit => exact absurd rfl hpre
          | _ => cases r <;> cases hs
      | _ => cases r <;> cases hs
  | store o =>
      cases o with
      | saveValidation report =>
          cases r with
          | ok a => cases hs
          | error e => exact absurd hs (by simp [strands, hlast])
      | _ => cases r <;> cases hs
  | _ => cases hs

abbrev Prelude {α : Type} (m : HarnessM α) : Prop := PerformsOnly Preliminary m

section
variable {α : Type}

theorem prelude_store {o : StoreOp} (h : Preliminary (.store o)) : Prelude (store o) := ⟨h, fun _ => trivial⟩

theorem prelude_task {o : TaskOp} (h : Preliminary (.task o)) : Prelude (task o) := ⟨h, fun _ => trivial⟩

theorem prelude_audit {event : AuditEvent} (h : event.eventType ≠ "COMMIT_STARTED")
    (h' : event.eventType ≠ "DRAWING_AUDITED") : Prelude (task (.audit event)) :=
  prelude_task ⟨h, h'⟩

theorem prelude_adapter (o : AdapterOp) : Prelude (adapter o) := ⟨trivial, fun _ => trivial⟩

theorem prelude_host (o : HostOp) : Prelude (host o) := ⟨trivial, fun _ => trivial⟩

theorem prelude_ofExcept (r : Except Exc α) : Prelude (ofExcept r) := trivial

theorem prelude_pure (a : α) : Prelude (pure a : HarnessM α) := trivial

theorem prelude_throw (e : Exc) : Prelude (throw e : HarnessM α) := trivial

/-- A request that writes no job. -/
theorem prelude_read {o : StoreOp} (h : o.job? = none) : Prelude (store o) :=
  prelude_store (fun job hjob => by simp [h] at hjob)

end

theorem requireJob_prelude (jobId : String) : Prelude (requireJob jobId) := by
  apply (prelude_read rfl).bind
  intro job
  cases job with
  | none => exact prelude_throw _
  | some job => exact prelude_pure job

theorem requireCurrentPlanSchema_prelude (plan : OperationPlan) : Prelude (requireCurrentPlanSchema plan) :=
  (prelude_throw _).ite (prelude_pure _)

theorem requirePlan_prelude (jobId : String) : Prelude (requirePlan cfg jobId) := by
  apply (prelude_read rfl).bind
  intro plan
  cases plan with
  | none => exact prelude_throw _
  | some plan =>
      apply (requireCurrentPlanSchema_prelude plan).bind
      intro u
      apply (requireJob_prelude jobId).bind
      intro job
      exact (prelude_throw _).ite (prelude_pure _)

theorem verifyApprovalToken_prelude (token : String) (approval : ApprovalRecord)
    (secret jobId planHash expectedRevision : String) :
    Prelude (verifyApprovalToken cfg token approval secret jobId planHash expectedRevision) := by
  unfold verifyApprovalToken
  apply PerformsOnly.ite (prelude_throw _)
  generalize cfg.decodeClaims _ = claims
  cases claims with
  | none => exact prelude_throw _
  | some claims =>
      apply PerformsOnly.ite (prelude_throw _)
      apply (prelude_host .clock).bind
      intro now
      apply PerformsOnly.ite (prelude_throw _)
      exact (prelude_throw _).ite (prelude_pure _)

theorem requireApproval_prelude (job : CadJob) : Prelude (requireApproval cfg c job) := by
  unfold requireApproval
  apply PerformsOnly.ite _ (prelude_pure _)
  dsimp only
  cases job.approvalId with
  | none => exact prelude_throw _
  | some approvalId =>
      apply (prelude_read rfl).bind
      intro approval
      cases approval with
      | none => exact prelude_throw _
      | some approval => exact (verifyApprovalToken_prelude _ _ _ _ _ _).bind (fun _ => prelude_pure _)

theorem authorizeCommit_prelude : Prelude (authorizeCommit cfg c) := by
  apply (requireJob_prelude c.jobId).bind
  intro job
  apply (requirePlan_prelude c.jobId).bind
  intro plan
  apply (requireCurrentPlanSchema_prelude plan).bind
  intro u
  apply (prelude_read rfl).bind
  intro previous
  apply PerformsOnly.ite (prelude_throw _)
  apply PerformsOnly.ite (prelude_throw _)
  exact (requireApproval_prelude c job).bind (fun _ => prelude_pure _)

theorem requireApprovedReport_prelude (a : Authorized) : Prelude (requireApprovedReport c a) := by
  apply (prelude_read rfl).bind
  intro report
  exact (prelude_throw _).ite (prelude_pure _)

theorem loadRemediationForPlan_prelude (jobId : String) (plan : OperationPlan) :
    Prelude (loadRemediationForPlan jobId plan) := by
  apply (prelude_host _).bind
  intro cached
  apply (prelude_read rfl).bind
  intro stored
  cases stored with
  | none => exact (prelude_throw _).ite (prelude_pure _)
  | some found =>
      apply PerformsOnly.ite (prelude_throw _)
      exact (prelude_host _).bind (fun _ => prelude_pure _)

theorem requireWriterCompatible_prelude : Prelude requireWriterCompatible := by
  apply (prelude_adapter .adapterType).bind
  intro adapterType
  exact (prelude_task (o := .requireWriterCompatible) trivial).ite (prelude_pure _)

theorem inspectDocument_prelude (documentId : Option String) : Prelude (inspectDocument documentId) := by
  apply (prelude_adapter _).bind
  intro snapshot
  apply (prelude_host _).bind
  intro u
  exact (prelude_audit (by simp) (by simp)).bind (fun _ => prelude_pure _)

theorem validateWith_prelude (jobId : String) (allowApproved : Bool) :
    Prelude (validateWith cfg jobId .preCommit allowApproved) := by
  apply (requireJob_prelude jobId).bind
  intro job
  apply (requirePlan_prelude jobId).bind
  intro plan
  apply PerformsOnly.ite (prelude_throw _)
  apply (prelude_task (by simp [Preliminary])).bind
  intro report
  apply (prelude_host _).bind
  intro snapshot
  apply (prelude_read rfl).bind
  intro u
  have haudit : ∀ u : Unit, Prelude (do
      audit "VALIDATION_COMPLETED" (some jobId)
        [("stage", .str ValidationStage.preCommit.value),
          ("blocking", natural (withLiveStyles cfg .preCommit plan report snapshot).blockingCount),
          ("errors", natural (withLiveStyles cfg .preCommit plan report snapshot).errorCount),
          ("warnings", natural (withLiveStyles cfg .preCommit plan report snapshot).warningCount)]
      return withLiveStyles cfg .preCommit plan report snapshot) :=
    fun _ => (prelude_audit (by simp) (by simp)).bind (fun _ => prelude_pure _)
  apply PerformsOnly.ite _ (haudit ())
  cases hvalidated : job.transitionTo .validated with
  | error e => exact trivial
  | ok validated =>
      have hwritten : Preliminary (.store (.saveJob validated)) := by
        rintro _ ⟨⟩
        rw [transitionTo_terminal hvalidated]
        decide
      exact (prelude_store hwritten).bind haudit

theorem requireEvidence_prelude (a : Authorized) : Prelude (requireEvidence cfg c a) := by
  apply PerformsOnly.ite (prelude_throw _)
  apply (requireApprovedReport_prelude c a).bind
  intro u
  apply (loadRemediationForPlan_prelude c.jobId a.plan).bind
  intro remediation
  apply requireWriterCompatible_prelude.bind
  intro u
  apply (inspectDocument_prelude _).bind
  intro snapshot
  apply (validateWith_prelude c.jobId true).bind
  intro report
  apply PerformsOnly.ite (prelude_throw _)
  apply (prelude_adapter _).bind
  intro current
  exact (prelude_throw _).ite (prelude_pure _)

/-! ## The commit -/

/-- Where a commit stands when it ends: it never persisted that the job is committing, or it is decided. -/
def Concluded (tr : List HarnessEvent) : Prop := ¬ PersistedCommitting tr ∨ Decided tr

theorem commitUnderLease_concluded (a : Authorized) (remediation : Option RemediationResult)
    (lease : WriterLease) (h : ∀ e ∈ tr, Preliminary e.op) :
    Ends StoreWrites (commitUnderLease c a remediation lease) tr (fun tr _ => Concluded tr) := by
  unfold commitUnderLease
  rw [ends_bind, ends_ofExcept]
  cases hjob : a.job.transitionTo .committing with
  | error e => exact .inl (not_persistedCommitting h)
  | ok job =>
      have hstate := transitionTo_terminal hjob
      dsimp only
      rw [ends_bind, ends_store]
      intro r hr
      obtain ⟨u, rfl⟩ := hr rfl
      have hsaved : Running (tr ++ [⟨.store (.saveJob job), .ok u⟩]) := by
        have hp : persisted? ⟨.store (.saveJob job), .ok u⟩ = some job := rfl
        constructor
        · rw [persistedState_concat, hp, ← hstate]
          rfl
        · rw [stranded_concat]
          simpa [strands] using not_stranded_of_preliminary h
      dsimp only
      unfold audit
      rw [ends_bind, ends_task]
      intro started
      cases started with
      | error e => exact .inr (hsaved.decided rfl rfl)
      | ok u =>
          have hstarted := hsaved.idle (idle_task_ok _ u)
          apply (applyPlan_continues c a hstate lease _ hstarted).seq
          · intro tr result htr
            apply (requirePostReport_continues c (w := ⟨job, a.plan, lease, a.requestDigest, result⟩) hstate tr htr).seq
            · intro tr u htr
              have hconclude : ∀ tr, Running tr → Ends StoreWrites
                  (concludeCommit c ⟨job, a.plan, lease, a.requestDigest, result⟩) tr (fun tr _ => Concluded tr) :=
                fun tr htr => (concludeCommit_decided c hstate htr).mono (fun _ _ h => .inr h)
              cases remediation with
              | none => exact hconclude tr htr
              | some remediation =>
                  apply (requireRemediated_continues c hstate remediation tr htr).seq
                  · intro tr u htr
                    exact hconclude tr htr
                  · intro tr e htr
                    exact .inr htr
            · intro tr e htr
              exact .inr htr
          · intro tr e htr
            exact .inr htr

theorem Concluded.idle {e : HarnessEvent} (h : Concluded tr) (he : Idle e) : Concluded (tr ++ [e]) := by
  rcases h with h | h
  · left
    rintro ⟨e', he', job, hjob, hstate⟩
    rcases List.mem_append.mp he' with he' | he'
    · exact h ⟨e', he', job, hjob, hstate⟩
    · rw [List.mem_singleton.mp he', he.1] at hjob
      cases hjob
  · exact .inr (h.idle he)

/-- What is preliminary stays so. -/
theorem prelude_ends {α : Type} {m : HarnessM α} (hm : Prelude m) (h : ∀ e ∈ tr, Preliminary e.op) :
    Ends StoreWrites m tr (fun tr _ => ∀ e ∈ tr, Preliminary e.op) := by
  apply (hm.ends tr).mono
  rintro _ _ ⟨es, rfl, hes⟩ e he
  rcases List.mem_append.mp he with he | he
  · exact h e he
  · exact (hes e he).1

theorem hold_concluded {α : Type} {documentId ownerId : String} {body : WriterLease → HarnessM α}
    (h : ∀ e ∈ tr, Preliminary e.op)
    (hbody : ∀ lease tr, (∀ e ∈ tr, Preliminary e.op) →
      Ends StoreWrites (body lease) tr (fun tr _ => Concluded tr)) :
    Ends StoreWrites (hold documentId ownerId body) tr (fun tr _ => Concluded tr) := by
  apply (prelude_ends (prelude_task (o := .acquireLease documentId ownerId) trivial) h).seq
  · intro tr lease h
    rw [ends_bind, ends_attempt]
    apply (hbody lease tr h).mono
    intro tr r htr
    dsimp only
    rw [ends_bind, ends_task]
    intro left
    have hlast : Concluded (tr ++ [⟨.task (.leaveHold lease.leaseId), left⟩]) := by
      apply htr.idle
      cases left <;> exact ⟨rfl, fun _ => rfl⟩
    cases left with
    | error e => exact hlast
    | ok u => exact hlast
  · intro tr e h
    exact .inl (not_persistedCommitting h)

theorem commit_concluded : Ends StoreWrites (commit cfg c) [] (fun tr _ => Concluded tr) := by
  apply (prelude_ends (@authorizeCommit_prelude cfg c) (by simp)).seq
  · intro tr a h
    cases a.previous with
    | some previous => exact .inl (not_persistedCommitting h)
    | none =>
        apply (prelude_ends (@requireEvidence_prelude cfg c a) h).seq
        · intro tr remediation h
          apply hold_concluded h
          intro lease tr h
          exact commitUnderLease_concluded c a remediation lease h
        · intro tr e h
          exact .inl (not_persistedCommitting h)
  · intro tr e h
    exact .inl (not_persistedCommitting h)

variable (cfg) in
/-- A commit that has persisted that its job is committing ends with the job committed, failed or unknown, just
when nothing has stranded it. -/
theorem commit_settles_iff :
    Ends StoreWrites (commit cfg c) []
      (fun tr _ => PersistedCommitting tr → (Settled tr ↔ ¬ Stranded tr)) := by
  apply (commit_concluded c).mono
  rintro tr r (h | h) hcommitting
  · exact absurd hcommitting h
  · exact h.settled_iff

/-! ## A commit that is stranded -/

/-- A configuration without approvals. Every digest is empty. -/
def plainConfig : Config where
  settings := { requireCommitApproval := false, approvalSecret := "", approvalTtl := 0, rollbackApprovalTtl := 0 }
  profile := { profileId := "default", version := "1", canonicalUnit := "mm", companyApproved := false }
  sha256 _ := ""
  hmacSha256 _ _ := ""
  encodeClaims _ := ""
  decodeClaims _ := none
  makeRollbackApprovalToken _ _ := ""
  verifyRollbackApprovalToken _ _ _ _ := .error .assertionError
  verifyRollbackRecoveryToken _ _ _ := .error .assertionError

def plainPlan : OperationPlan :=
  { schemaVersion, planId := "plan_1", jobId := "job_1", documentId := "doc_1", expectedRevision := "rev_1",
    canonicalUnits := "mm", profileRef := "default@1", planHash := some "sha256:" }

def plainReport (stage : ValidationStage) : ValidationReport :=
  { schemaVersion, validationId := "validation_1", jobId := "job_1", stage, planHash := some "sha256:",
    profileRef := some "default@1" }

def plainJob : CadJob :=
  { jobId := "job_1", documentId := "doc_1", expectedRevision := "rev_1", state := .approved,
    planId := some "plan_1", planHash := some "sha256:" }

/-- The store cannot save the report of a stage. -/
def lockedAt (failing : ValidationStage) : (o : StoreOp) → Except Exc o.Answer
  | .getJob _ => .ok (some plainJob)
  | .getPlan _ => .ok (some plainPlan)
  | .getValidation _ => .ok (some (plainReport .preCommit))
  | .saveValidation report =>
      if report.stage = failing then
        .error (raised .internalError "SQLite remained locked after the bounded retry policy was exhausted"
          "Close other processes holding the harness database and retry the operation" [])
      else .ok ()
  | .saveJob _ | .savePlan _ | .saveRemediation _ _ _ | .saveApproval _ | .revokeApprovalsForJob _ => .ok ()
  | .saveSpec _ _ => .ok 1
  | .getRemediation _ | .getApproval _ | .findExecution _ _ => .ok none
  | .entityMappingsFor _ => .ok []
  | .finalizeJob _ _ _ _ | .finalizeCommit _ => .ok true

def plainAdapter : (o : AdapterOp) → Except Exc o.Answer
  | .adapterType => .ok "fake"
  | .allowsExpiredCheckpointRecovery => .ok false
  | .inspectDocument _ => .ok ⟨"doc_1", "rev_1", "mm", [], [], []⟩
  | .validateRevision _ _ => .ok true
  | .commit request => .ok ⟨request.plan.jobId, "sha256:", .committed, [], "rev_1", "rev_2", none, none⟩
  | .rollback _ => .error .assertionError

def plainTask : (o : TaskOp) → Except Exc o.Answer
  | .audit _ | .leaveHold _ | .requireWriterCompatible | .preflight _ => .ok ()
  | .acquireLease _ _ => .ok ⟨"lease_1", "doc_1", "job_1", 0, 30, 0⟩
  | .leaseClock => .ok 1
  | .runRules stage _ _ _ => .ok (plainReport stage)
  | _ => .error .assertionError

def plainHost : (o : HostOp) → o.Answer
  | .clock => 1
  | .newId prefixValue => prefixValue
  | .setSnapshot _ | .setUndoReceipt _ _ _ | .popUndoReceipt _ | .setRemediationJob _ _ | .setRecovery _ _
  | .popRecovery _ | .noteReleased _ _ => ()
  | .getSnapshot _ | .getUndoReceipt _ | .getRemediationJob _ | .getRecovery _ => none
  | .leaseIsValidAt _ _ => true
  | .hasDrawingModelReader | .hasDrawingAuditStore => false
  | .semanticDiff _ _ => .null

/-- A world in which everything succeeds but the saving of the reports of one stage. -/
def lockedWorld (failing : ValidationStage) : (o : HarnessOp) → o.Answer
  | .store o => lockedAt failing o
  | .adapter o => plainAdapter o
  | .task o => plainTask o
  | .host o => plainHost o

theorem lockedWorld_writes (failing : ValidationStage) (o : HarnessOp) :
    StoreWrites o (lockedWorld failing o) := by
  cases o with
  | store o =>
      intro h
      cases o with
      | saveJob job => exact ⟨(), rfl⟩
      | finalizeJob job leaseId now mappings => exact ⟨true, rfl⟩
      | finalizeCommit f => exact ⟨true, rfl⟩
      | _ => cases h
  | _ => trivial

def plainCommit : CommitArgs :=
  { jobId := "job_1", idempotencyKey := "key_1", expectedRevision := "rev_1", planHash := "sha256:",
    approvalToken := "" }

/-- The adapter has written the plan, the report on it cannot be saved, and the job stays committing. -/
theorem commit_strands_job :
    ¬ ∀ (cfg : Config) (c : CommitArgs),
      Ends StoreWrites (commit cfg c) [] (fun tr _ => PersistedCommitting tr → Settled tr) := by
  intro h
  have hrun := (h plainConfig plainCommit).exec (fun _ => lockedWorld .postCommit)
    (fun _ => lockedWorld_writes .postCommit)
  have hstate : persistedState (exec (fun _ => lockedWorld .postCommit) (commit plainConfig plainCommit) []).1 =
      some .committing := by
    decide
  have hsettled := hrun (persistedCommitting_of_state hstate)
  simp [Settled, hstate] at hsettled

end CadHarness.Service
