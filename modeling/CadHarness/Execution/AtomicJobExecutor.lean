import CadHarness.Lib.Trace

/-!
# The atomic job executor

`CadBridge.Execution.AtomicJobExecutor`: one document lock, one undo group and one transaction for a whole job.
The host and the caller's callbacks are operations that may raise; the token of a cancellation is asked at each
checkpoint.
-/

namespace CadHarness.Execution
open CadHarness.Lib

inductive AtomicExecutionOutcome where
  | committed
  | failed
  | unknownCommitState
  deriving DecidableEq

inductive AtomicExecutionStage where
  | commandContext
  | documentLock
  | lockedDocumentValidation
  | undoGroup
  | transaction
  | operation
  | validation
  | commit
  | postCommitInspection
  | undoCompletion
  | completed
  deriving DecidableEq

inductive AtomicFailureKind where
  | none
  | cancelled
  | hostFailure
  | operationFailure
  | validationFailure
  | rollbackFailure
  | unknownCommitState
  deriving DecidableEq

/-- What a callback or the host raises. -/
inductive Fault where
  | operationCanceled
  | other

/-! ## The host -/

inductive Scope where
  | documentLock
  | undoGroup
  | transaction
  deriving DecidableEq

/-- What is done, or fails. -/
inductive HostAction (Operation : Type) where
  /-- the marshaller takes the callback into the command context, and comes back from it -/
  | enterContext
  | leaveContext
  | validateLockedDocument
  | dispatch (operation : Operation)
  | validate
  | commit
  | observeCommittedDocument
  | complete
  | abort
  | rollback
  | dispose (scope : Scope)

inductive HostCall (Operation : Type) where
  | acquire (scope : Scope)
  | isCancellationRequested
  | act (action : HostAction Operation)

/-- An acquisition may return no scope. -/
@[reducible] def HostCall.Answer {Operation : Type} : HostCall Operation → Type
  | acquire _ => Except Fault Bool
  | isCancellationRequested => Bool
  | act _ => Except Fault Unit

@[reducible] def hostSig (Operation : Type) : Sig := ⟨HostCall Operation, HostCall.Answer⟩

/-! ## The state of an execution -/

structure ExecutionState where
  stage : AtomicExecutionStage := .commandContext
  commandContextEntries : Nat := 0
  documentLocksAcquired : Nat := 0
  undoGroupsStarted : Nat := 0
  transactionsStarted : Nat := 0
  operationsDispatched : Nat := 0
  cancellationCheckpoints : Nat := 0
  transactionCommitsStarted : Nat := 0
  transactionCommitsCompleted : Nat := 0
  transactionAborts : Nat := 0
  undoGroupsCompleted : Nat := 0
  undoGroupsRolledBack : Nat := 0
  commitStarted : Bool := false
  /-- the locals of the callback: whether each scope is held -/
  documentLock : Bool := false
  undoGroup : Bool := false
  transaction : Bool := false

structure IpcError where
  code : String
  message : String
  retryable : Bool
  requiredAction : Option String

structure AtomicExecutionResult where
  outcome : AtomicExecutionOutcome
  failureKind : AtomicFailureKind
  /-- `state.Snapshot()` -/
  trace : ExecutionState
  error : Option IpcError

/-- A part of the executor: what it raises, it raises in a state. -/
abbrev ExecutorM (Operation : Type) := ExceptT Fault (StateT ExecutionState (Prog (hostSig Operation)))

variable {Operation : Type} {α : Type}

/-- The host is asked for something. -/
def ask (o : HostCall Operation) : ExecutorM Operation o.Answer :=
  ExceptT.lift (StateT.lift (Prog.perform (S := hostSig Operation) o))

def invoke (action : HostAction Operation) : ExecutorM Operation Unit := do
  match ← ask (.act action) with
  | .ok () => return
  | .error fault => throw fault

def update (f : ExecutionState → ExecutionState) : ExecutorM Operation Unit := modify f

/-- `try { … } catch (Exception) { … }` -/
def catching (m : ExecutorM Operation α) (handler : Fault → ExecutorM Operation α) : ExecutorM Operation α :=
  ExceptT.mk (m.run >>= fun r => match r with
    | .ok a => pure (.ok a)
    | .error fault => (handler fault).run)

/-- `try { … } finally { … }`: what the second part raises replaces the outcome of the first. -/
def tryFinally (m : ExecutorM Operation α) (cleanup : ExecutorM Operation Unit) : ExecutorM Operation α :=
  ExceptT.mk (m.run >>= fun r => cleanup.run >>= fun c => match c with
    | .ok () => pure r
    | .error fault => pure (.error fault))

/-! ## Results -/

/-- `ClassifyPreCommitFailure` -/
def classifyPreCommitFailure (stage : AtomicExecutionStage) : Fault → AtomicFailureKind
  | .operationCanceled => .cancelled
  | .other =>
      match stage with
      | .operation => .operationFailure
      | .lockedDocumentValidation | .validation => .validationFailure
      | _ => .hostFailure

def failedCode : String := "ATOMIC_JOB_FAILED"

def cancelledCode : String := "IPC_TIMEOUT"

def unknownCommitCode : String := "UNKNOWN_COMMIT_STATE"

def safeMessage (code : String) : String :=
  if code = cancelledCode then "The atomic job was cancelled before commit."
  else if code = unknownCommitCode then "The commit outcome is unknown and requires reconciliation."
  else "The atomic job failed safely before commit."

/-- `Failure` -/
def failure (state : ExecutionState) (failureKind : AtomicFailureKind) (code : String) (retryable : Bool := false) :
    AtomicExecutionResult where
  outcome := if code = unknownCommitCode then .unknownCommitState else .failed
  failureKind
  trace := state
  error := some
    { code, message := safeMessage code, retryable,
      requiredAction :=
        if code = unknownCommitCode then some "Reconcile the job before any further commit attempt." else none }

/-- `Unknown` -/
def unknown (state : ExecutionState) : AtomicExecutionResult :=
  failure state .unknownCommitState unknownCommitCode

/-! ## The callback -/

/-- `Checkpoint` -/
def checkpoint : ExecutorM Operation Unit := do
  update fun s => { s with cancellationCheckpoints := s.cancellationCheckpoints + 1 }
  if ← ask .isCancellationRequested then throw .operationCanceled

def setStage (stage : AtomicExecutionStage) : ExecutorM Operation Unit := update fun s => { s with stage }

/-- A scope is acquired, or the host returned none. -/
def acquire (scope : Scope) (held : ExecutionState → ExecutionState) : ExecutorM Operation Unit := do
  match ← ask (.acquire scope) with
  | .ok true => update held
  | .ok false => throw .other
  | .error fault => throw fault

def acquireDocumentLock : ExecutorM Operation Unit :=
  acquire .documentLock fun s => { s with documentLock := true, documentLocksAcquired := s.documentLocksAcquired + 1 }

def beginUndoGroup : ExecutorM Operation Unit :=
  acquire .undoGroup fun s => { s with undoGroup := true, undoGroupsStarted := s.undoGroupsStarted + 1 }

def beginTransaction : ExecutorM Operation Unit :=
  acquire .transaction fun s => { s with transaction := true, transactionsStarted := s.transactionsStarted + 1 }

/-- `foreach (var operation in operations)` -/
def dispatchAll : List Operation → ExecutorM Operation Unit
  | [] => return
  | operation :: operations => do
      setStage .operation
      checkpoint
      invoke (.dispatch operation)
      update fun s => { s with operationsDispatched := s.operationsDispatched + 1 }
      dispatchAll operations

/-- What the caller passes beside the operations: whether there is a validator of the locked document, and an
observer of the committed one. -/
structure Callbacks where
  validateLockedDocument : Bool
  observeCommittedDocument : Bool

def validateLocked (callbacks : Callbacks) : ExecutorM Operation Unit :=
  if callbacks.validateLockedDocument then do
    setStage .lockedDocumentValidation
    checkpoint
    invoke .validateLockedDocument
  else pure ()

/-- The commit, which is known to have started before it is invoked. -/
def commitTransaction : ExecutorM Operation Unit := do
  update fun s => { s with commitStarted := true, transactionCommitsStarted := s.transactionCommitsStarted + 1 }
  invoke .commit

def observeCommitted (callbacks : Callbacks) : ExecutorM Operation Unit :=
  if callbacks.observeCommittedDocument then do
    setStage .postCommitInspection
    invoke .observeCommittedDocument
  else pure ()

/-- The `try` of `ExecuteInCommandContextAsync`. -/
def runJob (operations : List Operation) (callbacks : Callbacks) : ExecutorM Operation AtomicExecutionResult := do
  setStage .documentLock
  acquireDocumentLock
  validateLocked callbacks
  setStage .undoGroup
  beginUndoGroup
  setStage .transaction
  beginTransaction
  dispatchAll operations
  setStage .validation
  checkpoint
  invoke .validate
  setStage .commit
  checkpoint
  commitTransaction
  update fun s => { s with transactionCommitsCompleted := s.transactionCommitsCompleted + 1 }
  observeCommitted callbacks
  setStage .undoCompletion
  invoke .complete
  update fun s => { s with undoGroupsCompleted := s.undoGroupsCompleted + 1 }
  setStage .completed
  return { outcome := .committed, failureKind := .none, trace := ← get, error := none }

/-- One step of the clean-up: whether it failed. -/
def undo (held : Bool) (action : HostAction Operation) (count : ExecutionState → ExecutionState) :
    ExecutorM Operation Bool := do
  if held then
    match ← ask (.act action) with
    | .ok () => do
        update count
        return false
    | .error _ => return true
  else return false

/-- `RollBackBeforeCommit` -/
def rollBackBeforeCommit (failureKind : AtomicFailureKind) : ExecutorM Operation AtomicExecutionResult := do
  let abortFailed ← undo (← get).transaction .abort
    fun s => { s with transactionAborts := s.transactionAborts + 1 }
  let rollbackFailed ← undo (← get).undoGroup .rollback
    fun s => { s with undoGroupsRolledBack := s.undoGroupsRolledBack + 1 }
  if abortFailed || rollbackFailed then
    return failure (← get) .rollbackFailure failedCode
  else
    return failure (← get) failureKind (if failureKind = .cancelled then cancelledCode else failedCode)
      (decide (failureKind = .cancelled))

/-- `scope?.Dispose()` -/
def dispose (held : Bool) (scope : Scope) : ExecutorM Operation Unit :=
  if held then invoke (.dispose scope) else pure ()

/-- The `finally` of `ExecuteInCommandContextAsync`. -/
def disposeScopes : ExecutorM Operation Unit := do
  let state ← get
  tryFinally (dispose state.transaction .transaction)
    (tryFinally (dispose state.undoGroup .undoGroup) (dispose state.documentLock .documentLock))

/-- The `catch`es of `ExecuteInCommandContextAsync`. -/
def recover (fault : Fault) : ExecutorM Operation AtomicExecutionResult := do
  let state ← get
  if !state.commitStarted then rollBackBeforeCommit (classifyPreCommitFailure state.stage fault)
  else return unknown state

/-- `ExecuteInCommandContextAsync` -/
def executeInCommandContext (operations : List Operation) (callbacks : Callbacks) :
    ExecutorM Operation AtomicExecutionResult := do
  update fun s => { s with commandContextEntries := s.commandContextEntries + 1 }
  tryFinally (catching (runJob operations callbacks) recover) disposeScopes

/-! ## The executor -/

/-- What a fault that leaves the command context is reported as. -/
def report (fault : Fault) : ExecutorM Operation AtomicExecutionResult := do
  let state ← get
  if state.commitStarted then return unknown state
  else match fault with
    | .operationCanceled => return failure state .cancelled cancelledCode true
    | .other => return failure state .hostFailure failedCode

/-- `_commandContext.ExecuteAsync` of the callback. -/
def marshal (callback : ExecutorM Operation α) : ExecutorM Operation α := do
  invoke .enterContext
  let result ← callback
  invoke .leaveContext
  return result

/-- `ExecuteAsync` -/
def execute (operations : List Operation) (callbacks : Callbacks) : ExecutorM Operation AtomicExecutionResult :=
  catching (marshal (executeInCommandContext operations callbacks)) report

end CadHarness.Execution
