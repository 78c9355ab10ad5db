import CadHarness.Canonical.Harness

/-!
# Errors of the harness

`cad_harness.domain.errors`: the errors that callers see. The class of an error decides what the service
does with it, so that a class stands for itself; `IpcTimeoutError` is the only one with a subclass.
-/

namespace CadHarness.Domain
open CadHarness.Lib
open CadHarness.Canonical (Number)

/-- A JSON value of Python. -/
abbrev Value := Json Number

def natural (n : Nat) : Value := .num (.int n)

def strings (l : List String) : Value := .arr (l.map .str)

/-- A string, or `None`. -/
def optional : Option String → Value
  | some s => .str s
  | none => .null

inductive ErrorCode where
  | missingRequiredInputs
  | unsupportedSchemaVersion
  | unsupportedFeature
  | invalidFeatureParameters
  | invalidGeometry
  | standardProfileNotFound
  | documentNotFound
  | staleDocumentRevision
  | planHashMismatch
  | approvalRequired
  | approvalExpired
  | approvalScopeMismatch
  | writerLeaseConflict
  | idempotencyKeyReused
  | autocadNotRunning
  | autocadBusy
  | adapterCapabilityMissing
  | ipcTimeout
  | comCallFailed
  | postCommitValidationFailed
  | unknownCommitState
  | exportPathNotAllowed
  | rollbackNotAvailable
  | rollbackRecoveryRequired
  | invalidJobTransition
  | toolNotAllowed
  | unsupportedInputFormat
  | readScopeTooLarge
  | internalError
  deriving DecidableEq

/-- A `HarnessError`. Every class but the subclass of `IpcTimeoutError` has a code of its own. -/
structure HarnessError where
  code : ErrorCode
  message : String
  requiredAction : Option String
  details : List (String × Value)

/-- What a call may raise. -/
inductive Exc where
  | harness (e : HarnessError)
  | terminalCancellationUnconfirmed (e : HarnessError)
  | typeError (message : String)
  | valueError (message : String)
  | assertionError
  | other (name : String)

/-- The error's class, as `isinstance` sees it. -/
def Exc.code? : Exc → Option ErrorCode
  | .harness e | .terminalCancellationUnconfirmed e => some e.code
  | _ => none

/-- Raise an error of one class, with an action of its own. -/
def raised (code : ErrorCode) (message requiredAction : String) (details : List (String × Value)) : Exc :=
  .harness { code, message, requiredAction := some requiredAction, details }

/-- `isinstance(exc, UnknownCommitStateError)` -/
def Exc.isUnknownCommitState (e : Exc) : Bool := e.code? = some .unknownCommitState

/-- `type(exc).__name__` -/
def Exc.typeName : Exc → String
  | .harness e => match e.code with
    | .missingRequiredInputs => "MissingRequiredInputsError"
    | .unsupportedSchemaVersion => "UnsupportedSchemaVersionError"
    | .unsupportedFeature => "UnsupportedFeatureError"
    | .invalidFeatureParameters => "InvalidFeatureParametersError"
    | .invalidGeometry => "InvalidGeometryError"
    | .standardProfileNotFound => "StandardProfileNotFoundError"
    | .documentNotFound => "DocumentNotFoundError"
    | .staleDocumentRevision => "StaleDocumentRevisionError"
    | .planHashMismatch => "PlanHashMismatchError"
    | .approvalRequired => "ApprovalRequiredError"
    | .approvalExpired => "ApprovalExpiredError"
    | .approvalScopeMismatch => "ApprovalScopeMismatchError"
    | .writerLeaseConflict => "WriterLeaseConflictError"
    | .idempotencyKeyReused => "IdempotencyKeyReusedError"
    | .autocadNotRunning => "AutoCADNotRunningError"
    | .autocadBusy => "AutoCADBusyError"
    | .adapterCapabilityMissing => "AdapterCapabilityMissingError"
    | .ipcTimeout => "IpcTimeoutError"
    | .comCallFailed => "ComCallFailedError"
    | .postCommitValidationFailed => "PostCommitValidationFailedError"
    | .unknownCommitState => "UnknownCommitStateError"
    | .exportPathNotAllowed => "ExportPathNotAllowedError"
    | .rollbackNotAvailable => "RollbackNotAvailableError"
    | .rollbackRecoveryRequired => "RollbackRecoveryRequiredError"
    | .invalidJobTransition => "InvalidJobTransitionError"
    | .toolNotAllowed => "ToolNotAllowedError"
    | .unsupportedInputFormat => "UnsupportedInputFormatError"
    | .readScopeTooLarge => "ReadScopeTooLargeError"
    | .internalError => "HarnessError"
  | .terminalCancellationUnconfirmed _ => "TerminalCancellationUnconfirmedError"
  | .typeError _ => "TypeError"
  | .valueError _ => "ValueError"
  | .assertionError => "AssertionError"
  | .other name => name

end CadHarness.Domain
