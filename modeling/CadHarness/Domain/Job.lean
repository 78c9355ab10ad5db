import CadHarness.Domain.Errors

/-!
# Jobs

`cad_harness.domain.models.job`: the state machine of a job. A job keeps no time stamps here.
-/

namespace CadHarness.Domain
open CadHarness.Lib

inductive JobState where
  | created
  | specAccepted
  | planned
  | previewed
  | validated
  | approved
  | committing
  | committed
  | unknownCommitState
  | failed
  | rolledBack
  | cancelled
  deriving DecidableEq

namespace JobState

def value : JobState → String
  | .created => "CREATED"
  | .specAccepted => "SPEC_ACCEPTED"
  | .planned => "PLANNED"
  | .previewed => "PREVIEWED"
  | .validated => "VALIDATED"
  | .approved => "APPROVED"
  | .committing => "COMMITTING"
  | .committed => "COMMITTED"
  | .unknownCommitState => "UNKNOWN_COMMIT_STATE"
  | .failed => "FAILED"
  | .rolledBack => "ROLLED_BACK"
  | .cancelled => "CANCELLED"

/-- `ALLOWED_TRANSITIONS`, in the order of the values. -/
def allowed : JobState → List JobState
  | .created => [.cancelled, .specAccepted]
  | .specAccepted => [.cancelled, .planned]
  | .planned => [.cancelled, .previewed, .specAccepted]
  | .previewed => [.cancelled, .specAccepted, .validated]
  | .validated => [.approved, .cancelled, .specAccepted]
  | .approved => [.committing, .specAccepted]
  | .committing => [.committed, .failed, .unknownCommitState]
  | .committed => [.rolledBack]
  | .unknownCommitState => []
  | .failed => [.cancelled, .planned, .rolledBack]
  | .rolledBack => []
  | .cancelled => []

/-- The only way into a commit is an approved job. -/
theorem committing_mem_allowed {s : JobState} : .committing ∈ s.allowed ↔ s = .approved := by
  cases s <;> decide

theorem committed_mem_allowed {s : JobState} : .committed ∈ s.allowed ↔ s = .committing := by
  cases s <;> decide

theorem unknown_mem_allowed {s : JobState} : .unknownCommitState ∈ s.allowed ↔ s = .committing := by
  cases s <;> decide

theorem failed_mem_allowed {s : JobState} : .failed ∈ s.allowed ↔ s = .committing := by
  cases s <;> decide

theorem validated_mem_allowed {s : JobState} : .validated ∈ s.allowed ↔ s = .previewed := by
  cases s <;> decide

theorem approved_mem_allowed {s : JobState} : .approved ∈ s.allowed ↔ s = .validated := by
  cases s <;> decide

end JobState

structure CadJob where
  jobId : String
  documentId : String
  expectedRevision : String
  state : JobState := .created
  specId : Option String := none
  specVersion : Nat := 0
  planId : Option String := none
  planHash : Option String := none
  approvalId : Option String := none
  checkpointId : Option String := none
  deriving DecidableEq

def assertTransition (current target : JobState) : Except Exc Unit :=
  if target ∉ current.allowed then
    .error (raised .invalidJobTransition
      ("Job cannot move from " ++ current.value ++ " to " ++ target.value)
      "Restart the workflow from the last valid stage"
      [("current_state", .str current.value), ("requested_state", .str target.value),
        ("allowed", strings (current.allowed.map JobState.value))])
  else .ok ()

/-- `transition_to`, with the updates as a function on the job. -/
def CadJob.transitionTo (job : CadJob) (target : JobState) (updates : CadJob → CadJob := id) :
    Except Exc CadJob := do
  assertTransition job.state target
  return { updates job with state := target }

def CadJob.invalidateApproval (job : CadJob) : CadJob := { job with approvalId := none }

theorem CadJob.transitionTo_eq_ok {job job' : CadJob} {target : JobState} {updates : CadJob → CadJob} :
    job.transitionTo target updates = .ok job' ↔
      target ∈ job.state.allowed ∧ { updates job with state := target } = job' := by
  unfold transitionTo assertTransition
  by_cases h : target ∈ job.state.allowed
  · simp [h, bind, Except.bind, pure, Except.pure]
  · simp [h, bind, Except.bind]

theorem CadJob.transitionTo_refused {job : CadJob} {target : JobState} (h : target ∉ job.state.allowed)
    (updates : CadJob → CadJob) : ∃ e, job.transitionTo target updates = .error e := by
  unfold transitionTo assertTransition
  rw [if_pos h]
  exact ⟨_, rfl⟩

end CadHarness.Domain
