import CadHarness.Lib.Trace
import CadHarness.Persistence.JobStore
import CadHarness.Service.Commit

/-!
# What a call does to the store in memory

A program is run from a store. The rules say what is left of the store when the program raises.
-/

/-!
## Calls of a service and the store between them

The service over its store in memory. What the store refuses and what everything else answers is the
surroundings of a call; a store that is reached by calls was reached in whatever surroundings.
-/

namespace CadHarness.Service
open CadHarness.Lib CadHarness.Domain CadHarness.Persistence

/-- What the store refuses, leaving everything as it is, and what everything else answers. -/
structure Surroundings where
  refusal : StoreOp → Option Exc
  adapterAnswer : (o : AdapterOp) → Except Exc o.Answer
  taskAnswer : (o : TaskOp) → Except Exc o.Answer
  hostAnswer : (o : HostOp) → o.Answer

variable {α β : Type}

/-- A request to the store, and the store after it. -/
def Surroundings.request (env : Surroundings) (s : InMemoryJobStore) (o : StoreOp) :
    Except Exc o.Answer × InMemoryJobStore :=
  match env.refusal o with
  | some e => (.error e, s)
  | none =>
      match s.handle o with
      | .ok (r, s') => (.ok r, s')
      | .error e => (.error e, s)

/-- An operation, and the store after it. -/
def Surroundings.operate (env : Surroundings) (s : InMemoryJobStore) : (o : HarnessOp) → o.Answer × InMemoryJobStore
  | .store o => env.request s o
  | .adapter o => (env.adapterAnswer o, s)
  | .task o => (env.taskAnswer o, s)
  | .host o => (env.hostAnswer o, s)

/-- A program in surroundings that do not change while it runs. An approval asks for nothing twice but its job
and its plan. -/
def Surroundings.run (env : Surroundings) : Prog harnessSig α → InMemoryJobStore → α × InMemoryJobStore
  | .ret a, s => (a, s)
  | .op o k, s => env.run (k (env.operate s o).1) (env.operate s o).2

/-- A program may take one store to another, in surroundings that change as they like. -/
inductive Leads : Prog harnessSig α → InMemoryJobStore → InMemoryJobStore → Prop
  | ret (a : α) (s : InMemoryJobStore) : Leads (.ret a) s s
  | op (env : Surroundings) {o : HarnessOp} {k : o.Answer → Prog harnessSig α} {s s' : InMemoryJobStore}
      (h : Leads (k (env.operate s o).1) (env.operate s o).2 s') : Leads (.op o k) s s'

theorem Surroundings.run_leads (env : Surroundings) (p : Prog harnessSig α) (s : InMemoryJobStore) :
    Leads p s (env.run p s).2 := by
  induction p generalizing s with
  | ret a => exact .ret a s
  | op o k ih => exact .op env (ih _ _)

/-! ## Calls -/

/-- The methods of the service that may write to its store, and those that prepare them. -/
inductive Call where
  | inspectDocument (documentId : Option String)
  | createJob (documentId : Option String)
  | submitSpec (jobId : String) (payload : SpecPayload)
  | registerRemediationPlan (remediation : RemediationResult)
  | submitRemediationSelection (jobId auditId : String) (selected : List (String × String))
      (technicalInputs : Value)
  | preview (jobId : String)
  | validate (jobId : String) (stage : ValidationStage)
  | approve (a : ApproveArgs)
  | commit (c : CommitArgs)
  | rollbackScope (jobId : String)
  | approveRollback (jobId approvedBy checkpointId currentRevision : String)
  | rollback (r : RollbackArgs)

def Call.program (cfg : Config) : Call → Prog harnessSig Unit
  | .inspectDocument documentId => do let _ ← (Service.inspectDocument documentId).run
  | .createJob documentId => do let _ ← (Service.createJob documentId).run
  | .submitSpec jobId payload => do let _ ← (Service.submitSpec cfg jobId payload).run
  | .registerRemediationPlan remediation => do let _ ← (Service.registerRemediationPlan cfg remediation).run
  | .submitRemediationSelection jobId auditId selected technicalInputs => do
      let _ ← (Service.submitRemediationSelection cfg jobId auditId selected technicalInputs).run
  | .preview jobId => do let _ ← (Service.preview cfg jobId).run
  | .validate jobId stage => do let _ ← (Service.validate cfg jobId stage).run
  | .approve a => do let _ ← (Service.approve cfg a).run
  | .commit c => do let _ ← (Service.commit cfg c).run
  | .rollbackScope jobId => do let _ ← (Service.rollbackScope jobId).run
  | .approveRollback jobId approvedBy checkpointId currentRevision => do
      let _ ← (Service.approveRollback cfg jobId approvedBy checkpointId currentRevision).run
  | .rollback r => do let _ ← (Service.rollback cfg r).run

/-- The stores that calls reach from an empty one. -/
inductive Reachable (cfg : Config) : InMemoryJobStore → Prop
  | initial : Reachable cfg {}
  | call {s s' : InMemoryJobStore} (h : Reachable cfg s) (c : Call) (hc : Leads (c.program cfg) s s') :
      Reachable cfg s'

end CadHarness.Service

namespace CadHarness.Service
open CadHarness.Lib CadHarness.Domain CadHarness.Persistence Prog

namespace Surroundings

variable {α β : Type} (env : Surroundings)

/-- A method of the service in surroundings that do not change while it runs. -/
def call (m : HarnessM α) (s : InMemoryJobStore) : Except Exc α × InMemoryJobStore := env.run m.run s

theorem run_bind (p : Prog harnessSig α) (f : α → Prog harnessSig β) (s : InMemoryJobStore) :
    env.run (p >>= f) s = env.run (f (env.run p s).1) (env.run p s).2 := by
  induction p generalizing s with
  | ret a => rfl
  | op o k ih =>
      rw [op_bind]
      exact ih _ _

@[simp] theorem call_pure (a : α) (s : InMemoryJobStore) : env.call (pure a) s = (.ok a, s) := rfl

@[simp] theorem call_throw (e : Exc) (s : InMemoryJobStore) :
    env.call (throw e : HarnessM α) s = (.error e, s) := rfl

@[simp] theorem call_ofExcept (r : Except Exc α) (s : InMemoryJobStore) : env.call (ofExcept r) s = (r, s) := rfl

@[simp] theorem call_store (o : StoreOp) (s : InMemoryJobStore) : env.call (store o) s = env.request s o := rfl

@[simp] theorem call_adapter (o : AdapterOp) (s : InMemoryJobStore) :
    env.call (adapter o) s = (env.adapterAnswer o, s) := rfl

@[simp] theorem call_task (o : TaskOp) (s : InMemoryJobStore) : env.call (task o) s = (env.taskAnswer o, s) := rfl

@[simp] theorem call_host (o : HostOp) (s : InMemoryJobStore) : env.call (host o) s = (.ok (env.hostAnswer o), s) := rfl

theorem call_bind (m : HarnessM α) (f : α → HarnessM β) (s : InMemoryJobStore) :
    env.call (m >>= f) s = match env.call m s with
      | (.ok a, s) => env.call (f a) s
      | (.error e, s) => (.error e, s) := by
  unfold call
  rw [ExceptT.run_bind, run_bind]
  rcases env.run m.run s with ⟨_ | _, s⟩ <;> rfl

theorem call_bind_of {m : HarnessM α} {f : α → HarnessM β} {s s' : InMemoryJobStore} {a : α}
    (h : env.call m s = (.ok a, s')) : env.call (m >>= f) s = env.call (f a) s' := by
  rw [call_bind, h]

theorem call_bind_eq_ok {m : HarnessM α} {f : α → HarnessM β} {s s' : InMemoryJobStore} {b : β} :
    env.call (m >>= f) s = (.ok b, s') ↔ ∃ a s₁, env.call m s = (.ok a, s₁) ∧ env.call (f a) s₁ = (.ok b, s') := by
  rw [call_bind]
  rcases env.call m s with ⟨e | a, s₁⟩ <;> simp

/-! ## What is left when a program raises -/

/-- Whenever the program raises, it leaves a store that meets `F`. -/
def OnRaise (m : HarnessM α) (s : InMemoryJobStore) (F : InMemoryJobStore → Prop) : Prop :=
  ∀ e, (env.call m s).1 = .error e → F (env.call m s).2

variable {env} {F : InMemoryJobStore → Prop} {s : InMemoryJobStore}

@[simp] theorem onRaise_pure (a : α) : env.OnRaise (pure a) s F ↔ True := by simp [OnRaise]

@[simp] theorem onRaise_throw (e : Exc) : env.OnRaise (throw e : HarnessM α) s F ↔ F s := by simp [OnRaise]

theorem onRaise_bind {m : HarnessM α} {f : α → HarnessM β} :
    env.OnRaise (m >>= f) s F ↔
      env.OnRaise m s F ∧ ∀ a, (env.call m s).1 = .ok a → env.OnRaise (f a) (env.call m s).2 F := by
  unfold OnRaise
  rw [call_bind]
  rcases env.call m s with ⟨e | a, s'⟩ <;> simp

theorem onRaise_ofExcept {a : α} {f : α → HarnessM β} :
    env.OnRaise (ofExcept (.ok a) >>= f) s F ↔ env.OnRaise (f a) s F := Iff.rfl

theorem onRaise_ite {p : Prop} [Decidable p] {m n : HarnessM α} :
    env.OnRaise (if p then m else n) s F ↔ (p → env.OnRaise m s F) ∧ (¬ p → env.OnRaise n s F) := by
  by_cases h : p <;> simp [h]

/-- A request that the store in memory always grants. -/
theorem onRaise_write {o : StoreOp} {r : o.Answer} {s' : InMemoryJobStore} (ho : s.handle o = .ok (r, s'))
    (hF : F s) {f : o.Answer → HarnessM β} :
    env.OnRaise (store o >>= f) s F ↔ (env.refusal o = none → env.OnRaise (f r) s' F) := by
  rw [onRaise_bind]
  unfold OnRaise
  rw [call_store]
  unfold request
  rw [ho]
  cases env.refusal o with
  | none => simp
  | some e => simp [hF]

/-! ## Programs that only read -/

end Surroundings

/-- An operation that leaves the store as it is. -/
def Reading : HarnessOp → Prop
  | .store o => ∀ (s : InMemoryJobStore) r s', s.handle o = .ok (r, s') → s' = s
  | _ => True

/-- A method that leaves the store as it is. -/
abbrev Reads {α : Type} (m : HarnessM α) : Prop := PerformsOnly Reading m

namespace Surroundings

variable {α β : Type} {env : Surroundings} {s : InMemoryJobStore}

theorem operate_reading {o : HarnessOp} (h : Reading o) : (env.operate s o).2 = s := by
  cases o with
  | store o =>
      unfold operate request
      dsimp only
      cases env.refusal o with
      | some e => rfl
      | none =>
          cases hanswer : s.handle o with
          | error e => rfl
          | ok result => exact h s result.1 result.2 hanswer
  | _ => rfl

theorem run_reading {p : Prog harnessSig α} (h : p.Performs Reading) : (env.run p s).2 = s := by
  induction p with
  | ret a => rfl
  | op o k ih =>
      unfold run
      rw [operate_reading h.1]
      exact ih _ (h.2 _)

theorem call_reading {m : HarnessM α} (h : Reads m) : (env.call m s).2 = s := run_reading h

theorem call_eq_ok {m : HarnessM α} (h : Reads m) {a : α} :
    (env.call m s).1 = .ok a ↔ env.call m s = (.ok a, s) := by
  rw [Prod.ext_iff]
  simp [call_reading h]

theorem call_reading_bind {m : HarnessM α} (h : Reads m) {f : α → HarnessM β} {b : β} :
    env.call (m >>= f) s = (.ok b, s) ↔ ∃ a, env.call m s = (.ok a, s) ∧ env.call (f a) s = (.ok b, s) := by
  rw [call_bind_eq_ok]
  constructor
  · rintro ⟨a, s₁, hm, hf⟩
    have hsame : (env.call m s).2 = s := call_reading h
    obtain rfl : s₁ = s := by rw [← hsame, hm]
    exact ⟨a, hm, hf⟩
  · rintro ⟨a, hm, hf⟩
    exact ⟨a, s, hm, hf⟩

/-- What is left does not depend on a part that only reads, but on what it returns. -/
theorem onRaise_reading {m : HarnessM α} (hm : Reads m) {F : InMemoryJobStore → Prop} (hF : F s)
    {f : α → HarnessM β} :
    env.OnRaise (m >>= f) s F ↔ ∀ a, env.call m s = (.ok a, s) → env.OnRaise (f a) s F := by
  rw [onRaise_bind, call_reading hm]
  simp only [call_eq_ok hm]
  apply and_iff_right
  intro e _
  rw [call_reading hm]
  exact hF

end Surroundings

/-! ## The readers of the service -/

open Surroundings

variable {env : Surroundings} {s : InMemoryJobStore}

theorem reads_getJob (jobId : String) : Reads (store (.getJob jobId)) := by
  refine ⟨?_, fun _ => trivial⟩
  rintro s r s' ⟨⟩
  rfl

theorem reads_getPlan (jobId : String) : Reads (store (.getPlan jobId)) := by
  refine ⟨?_, fun _ => trivial⟩
  rintro s r s' ⟨⟩
  rfl

theorem reads_getValidation (jobId : String) : Reads (store (.getValidation jobId)) := by
  refine ⟨?_, fun _ => trivial⟩
  rintro s r s' ⟨⟩
  rfl

theorem reads_adapter (o : AdapterOp) : Reads (adapter o) := ⟨trivial, fun _ => trivial⟩

theorem reads_task (o : TaskOp) : Reads (task o) := ⟨trivial, fun _ => trivial⟩

theorem reads_host (o : HostOp) : Reads (host o) := ⟨trivial, fun _ => trivial⟩

theorem reads_pure {α : Type} (a : α) : Reads (pure a : HarnessM α) := trivial

theorem reads_throw {α : Type} (e : Exc) : Reads (throw e : HarnessM α) := trivial

theorem reads_requireJob (jobId : String) : Reads (requireJob jobId) := by
  apply (reads_getJob jobId).bind
  intro job
  cases job with
  | none => exact reads_throw _
  | some job => exact reads_pure job

theorem reads_requireCurrentPlanSchema (plan : OperationPlan) : Reads (requireCurrentPlanSchema plan) :=
  (reads_throw _).ite (reads_pure _)

theorem reads_requirePlan (cfg : Config) (jobId : String) : Reads (requirePlan cfg jobId) := by
  apply (reads_getPlan jobId).bind
  intro plan
  cases plan with
  | none => exact reads_throw _
  | some plan =>
      apply (reads_requireCurrentPlanSchema plan).bind
      intro u
      apply (reads_requireJob jobId).bind
      intro job
      exact (reads_throw _).ite (reads_pure _)

theorem reads_inspectDocument (documentId : Option String) : Reads (inspectDocument documentId) := by
  apply (reads_adapter _).bind
  intro snapshot
  apply (reads_host _).bind
  intro u
  exact (reads_task _).bind (fun _ => reads_pure _)

theorem getPlan_eq_ok {jobId : String} {plan : Option OperationPlan} :
    env.call (store (.getPlan jobId)) s = (.ok plan, s) ↔
      env.refusal (.getPlan jobId) = none ∧ s.plans.lookup jobId = plan := by
  rw [call_store]
  unfold request
  cases env.refusal (.getPlan jobId) with
  | some e => simp
  | none =>
      have hanswer : s.handle (.getPlan jobId) = .ok (s.plans.lookup jobId, s) := rfl
      simp [hanswer]

theorem getValidation_eq_ok {jobId : String} {report : Option ValidationReport} :
    env.call (store (.getValidation jobId)) s = (.ok report, s) ↔
      env.refusal (.getValidation jobId) = none ∧ s.validations.lookup jobId = report := by
  rw [call_store]
  unfold request
  cases env.refusal (.getValidation jobId) with
  | some e => simp
  | none =>
      have hanswer : s.handle (.getValidation jobId) = .ok (s.validations.lookup jobId, s) := rfl
      simp [hanswer]

theorem requireJob_eq_ok {jobId : String} {job : CadJob} :
    env.call (requireJob jobId) s = (.ok job, s) ↔
      env.refusal (.getJob jobId) = none ∧ s.getJob jobId = some job := by
  unfold requireJob
  rw [call_bind, call_store]
  unfold request
  cases env.refusal (.getJob jobId) with
  | some e => simp
  | none =>
      have hanswer : s.handle (.getJob jobId) = .ok (s.getJob jobId, s) := rfl
      rw [hanswer]
      cases s.getJob jobId with
      | none => simp
      | some found => simp

theorem requireCurrentPlanSchema_eq_ok {plan : OperationPlan} :
    env.call (requireCurrentPlanSchema plan) s = (.ok (), s) ↔ plan.schemaVersion = schemaVersion := by
  unfold requireCurrentPlanSchema
  by_cases h : plan.schemaVersion = schemaVersion
  · simp [h]
  · simp [h]

theorem requirePlan_eq_ok {cfg : Config} {jobId : String} {plan : OperationPlan} :
    env.call (requirePlan cfg jobId) s = (.ok plan, s) ↔
      env.refusal (.getPlan jobId) = none ∧ s.plans.lookup jobId = some plan ∧
      plan.schemaVersion = schemaVersion ∧ env.refusal (.getJob jobId) = none ∧
      ∃ job, s.getJob jobId = some job ∧ planIsBound cfg plan job jobId = true := by
  unfold requirePlan
  rw [call_reading_bind (reads_getPlan jobId)]
  constructor
  · rintro ⟨found, hfound, h⟩
    obtain ⟨hread, hlookup⟩ := getPlan_eq_ok.mp hfound
    cases found with
    | none => cases h
    | some found =>
        rw [call_reading_bind (reads_requireCurrentPlanSchema found)] at h
        obtain ⟨u, hschema, h⟩ := h
        rw [call_reading_bind (reads_requireJob jobId)] at h
        obtain ⟨job, hjob, h⟩ := h
        obtain ⟨hreadJob, hjob⟩ := requireJob_eq_ok.mp hjob
        cases hbound : planIsBound cfg found job jobId with
        | false => simp [hbound, call_bind] at h
        | true =>
            have hplan : found = plan := by simpa [hbound] using h
            subst hplan
            exact ⟨hread, hlookup, requireCurrentPlanSchema_eq_ok.mp hschema, hreadJob, job, hjob, hbound⟩
  · rintro ⟨hread, hlookup, hschema, hreadJob, job, hjob, hbound⟩
    refine ⟨some plan, getPlan_eq_ok.mpr ⟨hread, hlookup⟩, ?_⟩
    dsimp only
    rw [call_bind_of env (requireCurrentPlanSchema_eq_ok.mpr hschema),
      call_bind_of env (requireJob_eq_ok.mpr ⟨hreadJob, hjob⟩)]
    simp [hbound]

theorem inspectDocument_eq_ok {documentId : Option String} {snapshot : DocumentSnapshot} :
    env.call (inspectDocument documentId) s = (.ok snapshot, s) ↔
      env.adapterAnswer (.inspectDocument documentId) = .ok snapshot ∧
      env.taskAnswer (.audit ⟨"DOCUMENT_INSPECTED", none, "system", "harness",
        [("document_id", .str snapshot.documentId), ("revision", .str snapshot.revision)]⟩) = .ok () := by
  unfold inspectDocument audit
  rw [call_bind, call_adapter]
  cases env.adapterAnswer (.inspectDocument documentId) with
  | error e => simp
  | ok found =>
      dsimp only
      rw [call_bind, call_host]
      dsimp only
      rw [call_bind, call_task]
      generalize hevent : env.taskAnswer _ = recorded
      cases recorded with
      | error e =>
          simp only [Prod.mk.injEq, reduceCtorEq, false_and, Except.ok.injEq, false_iff, not_and]
          rintro rfl
          simp [hevent]
      | ok u =>
          simp only [call_pure, Prod.mk.injEq, Except.ok.injEq, and_true, iff_self_and]
          rintro rfl
          exact hevent

end CadHarness.Service
