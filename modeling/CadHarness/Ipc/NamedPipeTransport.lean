import CadHarness.Domain.Plan
import CadHarness.Ipc.Framing
import CadHarness.Lib.Trace

/-!
# The client of the bridge pipe

`NamedPipeTransport.request` of `cad_harness.adapters.named_pipe_transport` over any driver. The request goes over a pipe
of its own; when its deadline passes, so does each attempt to cancel it.
-/

namespace CadHarness.Ipc
open CadHarness.Lib CadHarness.Domain

/-! ## The driver -/

/-- What is raised. -/
inductive Raised where
  /-- `NamedPipeDeadlineExceededError` -/
  | deadline
  | exception (name : String) (isValueOrTypeError : Bool)
  /-- A `BaseException` that is no `Exception`. -/
  | base (name : String)
  deriving DecidableEq

/-- `ValueError` -/
def Raised.valueError : Raised := .exception "ValueError" true

/-- `type(error).__name__` -/
def Raised.typeName : Raised → String
  | .deadline => "NamedPipeDeadlineExceededError"
  | .exception name _ => name
  | .base name => name

def Raised.ofExc : Exc → Raised
  | .valueError message => .exception (Exc.valueError message).typeName true
  | .typeError message => .exception (Exc.typeError message).typeName true
  | e => .exception e.typeName false

/-- A handle, by what it was opened for. -/
inductive PipeHandle where
  | primary
  | attempt (index : Nat)
  deriving DecidableEq

/-- What a request asks of the driver and of its surroundings. -/
inductive PipeOp where
  | clock
  | connect (handle : PipeHandle) (pipeName : String) (deadline : ℚ)
  | serverProcessId (handle : PipeHandle)
  | write (handle : PipeHandle) (data : List UInt8) (deadline : ℚ)
  | readExact (handle : PipeHandle) (size : Nat) (deadline : ℚ)
  | cancelPending (handle : PipeHandle)
  | waitPendingTerminal (handle : PipeHandle) (deadline : ℚ)
  | close (handle : PipeHandle)
  | requestId
  | uuid4
  | sleep (seconds : ℚ)
  deriving DecidableEq

/-- The process id is `none` for a value that is no `int`. A driver need not be able to tell it. -/
abbrev PipeSig : Sig where
  Op := PipeOp
  Res
    | .clock => ℚ
    | .connect _ _ _ => Except Raised Unit
    | .serverProcessId _ => Option (Except Raised (Option Int))
    | .write _ _ _ => Except Raised Unit
    | .readExact _ _ _ => Except Raised (List UInt8)
    | .cancelPending _ => Except Raised Unit
    | .waitPendingTerminal _ _ => Except Raised Unit
    | .close _ => Except Raised Unit
    | .requestId => Except Raised String
    | .uuid4 => String
    | .sleep _ => Except Raised Unit

abbrev PipeM := ExceptT Raised (Prog PipeSig)

def callPipe {α : Type} (o : PipeOp) (read : PipeSig.Res o → Except Raised α) : PipeM α :=
  ExceptT.mk (Prog.op o fun answer => .ret (read answer))

def clock : PipeM ℚ := callPipe .clock .ok

/-- What a program raises, as a value. -/
def caught {δ ε α : Type} (m : ExceptT δ (Prog PipeSig) α) : ExceptT ε (Prog PipeSig) (Except δ α) :=
  ExceptT.mk (m.run >>= fun r => pure (.ok r))

/-! ## Frames -/

abbrev PipeResponse := List (String × Json Scalar)

/-- The arguments of a transport. `loads` is `json.loads` of a frame's body. -/
structure NamedPipeTransport where
  pipeName : String
  cancellationGraceSeconds : ℚ
  cancellationRetrySeconds : ℚ
  maxFrameBytes : Nat
  loads : List UInt8 → Except Raised (Json Scalar)
  grace_pos : 0 < cancellationGraceSeconds
  retry_pos : 0 < cancellationRetrySeconds
  maxFrameBytes_le : 0 < maxFrameBytes ∧ maxFrameBytes ≤ Ipc.maxFrameBytes

/-- `struct.Struct(">I").unpack` -/
def unpackLength : List UInt8 → Except Raised Nat
  | [a, b, c, d] => .ok (a.toNat * 2 ^ 24 + b.toNat * 2 ^ 16 + c.toNat * 2 ^ 8 + d.toNat)
  | _ => .error (.exception "error" false)

/-- A field that is this text. -/
def isText (text : String) : Option (Json Scalar) → Bool
  | some (.str s) => s = text
  | _ => false

/-- A field that is `True`. -/
def isTrue : Option (Json Scalar) → Bool
  | some (.bool b) => b
  | _ => false

namespace NamedPipeTransport

variable (t : NamedPipeTransport)

/-- `decode_frame` -/
def decodeFrame (frame : List UInt8) : Except Raised PipeResponse := do
  if frame.length < 4 then throw .valueError
  let length ← unpackLength (frame.take 4)
  if Ipc.maxFrameBytes < length then throw .valueError
  let body := (frame.drop 4).take length
  if body.length ≠ length then throw .valueError
  match ← t.loads body with
  | .obj fields =>
      match validateJsonTree (.obj fields) with
      | .ok () => return fields
      | .error e => throw (.ofExc e)
  | _ => throw .valueError

/-- `_encode_checked` -/
def encodeChecked (envelope : PipeResponse) : Except Raised (List UInt8) :=
  match encodeFrame envelope with
  | .error e => .error (.ofExc e)
  | .ok frame => if t.maxFrameBytes < frame.length - 4 then .error .valueError else .ok frame

/-- `_validate_response` -/
def validateResponse (response : PipeResponse) (requestId : String) : Except Raised Unit := do
  if !isText schemaVersion (response.lookup "schema_version") then throw .valueError
  if !isText requestId (response.lookup "request_id") then throw .valueError

/-! ## One connection -/

/-- `_check_deadline` -/
def checkDeadline (deadline : ℚ) : PipeM Unit := do
  if deadline < (← clock) then throw .deadline

/-- `_read_response` -/
def readResponse (handle : PipeHandle) (deadline : ℚ) : PipeM PipeResponse := do
  let framePrefix ← callPipe (.readExact handle 4 deadline) id
  let bodyLength ← unpackLength framePrefix
  if t.maxFrameBytes < bodyLength then throw .valueError
  let body ← callPipe (.readExact handle bodyLength deadline) id
  t.decodeFrame (framePrefix ++ body)

/-- `_cancel_wait_close` -/
def cancelWaitClose (handle : PipeHandle) (deadline : ℚ) : PipeM Unit := do
  let outcome ← caught do
    callPipe (.cancelPending handle) id
    callPipe (.waitPendingTerminal handle deadline) id
  callPipe (.close handle) id
  outcome

/-- What a `finally` does that closes the handle, and what comes of it. -/
def closing {α : Type} (handle : PipeHandle) (outcome : Except Raised α) : PipeM α := do
  callPipe (.close handle) id
  outcome

/-! ## Cancel attempts -/

/-- A reply to a cancel request says that the request has ended. -/
def confirms (target : String) (response : PipeResponse) : Bool :=
  isText "ok" (response.lookup "status") &&
    match response.lookup "data" with
    | some (.obj data) => isTrue (data.lookup "terminal") && isText target (data.lookup "cancelled_request_id")
    | _ => false

def cancelEnvelope (cancelRequestId target : String) : PipeResponse :=
  [("schema_version", .str schemaVersion), ("method", .str "cancel"), ("request_id", .str cancelRequestId),
    ("job_id", .null), ("idempotency_key", .null), ("params", .obj [("target_request_id", .str target)])]

/-- The id of a cancel request: never that of its target, unless `uuid4` repeats it. -/
def newCancelRequestId (target : String) : PipeM String := do
  let cancelRequestId ← callPipe .requestId id
  if cancelRequestId = "" ∨ cancelRequestId = target then callPipe .uuid4 .ok
  else return cancelRequestId

/-- The `try` of a cancel attempt behind its `connect`. -/
def cancelExchange (handle : PipeHandle) (cancelRequestId target : String) (deadline : ℚ) : PipeM Bool := do
  let frame ← t.encodeChecked (cancelEnvelope cancelRequestId target)
  callPipe (.write handle frame deadline) id
  let response ← t.readResponse handle deadline
  checkDeadline deadline
  validateResponse response cancelRequestId
  return confirms target response

/-- How a cancel attempt goes on. -/
inductive Attempted where
  | returned (confirmed : Bool) (error : Option String)
  | broke (lastError : String)
  | retries (lastError : String)

/-- Where an `Exception` of a cancel attempt leads. -/
def Attempted.failed (name : String) (isValueOrTypeError : Bool) : Attempted :=
  if isValueOrTypeError then .broke name else .retries name

/-- The `try` statement of a cancel attempt. -/
def cancelAttempt (handle : PipeHandle) (cancelRequestId target : String) (deadline : ℚ) : PipeM Attempted := do
  match ← caught (callPipe (.connect handle t.pipeName deadline) id) with
  | .error .deadline => return .broke Raised.deadline.typeName
  | .error (.exception name isValueOrTypeError) => return .failed name isValueOrTypeError
  | .error (.base name) => throw (.base name)
  | .ok () =>
      match ← caught (t.cancelExchange handle cancelRequestId target deadline) with
      | .ok true => closing handle (.ok (.returned true none))
      | .ok false => closing handle (.ok (.retries "terminal acknowledgement was not confirmed"))
      | .error .deadline =>
          -- The handle is forgotten before it is cancelled, so that nothing closes it once more.
          match ← caught (cancelWaitClose handle deadline) with
          | .ok () => return .broke Raised.deadline.typeName
          | .error (.base name) => throw (.base name)
          | .error error => return .returned false (some error.typeName)
      | .error (.exception name isValueOrTypeError) => closing handle (.ok (.failed name isValueOrTypeError))
      | .error (.base name) => closing handle (.error (.base name))

/-- The loop of `_request_terminal_cancel`, with the attempts left and the number of the next one. -/
def cancelAttempts (target : String) (deadline : ℚ) : Nat → Nat → String → PipeM (Bool × Option String)
  | 0, _, lastError => return (false, some lastError)
  | left + 1, index, lastError => do
      if deadline < (← clock) then return (false, some lastError)
      let cancelRequestId ← newCancelRequestId target
      match ← t.cancelAttempt (.attempt index) cancelRequestId target deadline with
      | .returned confirmed error => return (confirmed, error)
      | .broke lastError => return (false, some lastError)
      | .retries lastError =>
          let remaining := deadline - (← clock)
          if remaining ≤ 0 then return (false, some lastError)
          callPipe (.sleep (min t.cancellationRetrySeconds remaining)) id
          cancelAttempts target deadline left (index + 1) lastError

def maximumAttempts : Nat := max 1 (⌈t.cancellationGraceSeconds / t.cancellationRetrySeconds⌉₊ + 1)

/-- `_request_terminal_cancel` -/
def requestTerminalCancel (target : String) : PipeM (Bool × Option String) := do
  let deadline := (← clock) + t.cancellationGraceSeconds
  t.cancelAttempts target deadline t.maximumAttempts 0 "terminal acknowledgement was not confirmed"

/-! ## The request -/

inductive TransportStage where
  | connect
  | write
  | readResponse
  deriving DecidableEq

/-- What `IpcTimeoutError` and `TerminalCancellationUnconfirmedError` are raised with. -/
structure TimeoutDetails where
  operation : Json Scalar
  requestId : String
  timeoutSeconds : ℚ
  terminalCancelConfirmed : Bool
  transportStage : TransportStage
  cancellationError : Option String
  primaryIoCancelError : Option String

/-- What a request raises. With a confirmed cancellation `timedOut` is the plain `IpcTimeoutError`. -/
inductive RequestError where
  | raised (error : Raised)
  | timedOut (details : TimeoutDetails)

/-- An exception with the stage it was raised in. -/
def atStage {α : Type} (stage : TransportStage) (m : PipeM α) : ExceptT (TransportStage × Raised) (Prog PipeSig) α :=
  ExceptT.mk (m.run >>= fun r => pure (r.mapError fun error => (stage, error)))

/-- What the driver tells of the server. -/
def readServerProcessId (handle : PipeHandle) : PipeM Unit :=
  callPipe (.serverProcessId handle) fun
    | none => .ok ()
    | some (.error error) => .error error
    | some (.ok none) => .error (.exception "OSError" false)
    | some (.ok (some n)) => if n ≤ 0 then .error (.exception "OSError" false) else .ok ()

/-- The `try` of the request behind its `connect`. -/
def exchange (requestFrame : List UInt8) (requestId : String) (deadline : ℚ) :
    ExceptT (TransportStage × Raised) (Prog PipeSig) PipeResponse := do
  atStage .connect do
    readServerProcessId .primary
    checkDeadline deadline
  atStage .write do
    callPipe (.write .primary requestFrame deadline) id
    checkDeadline deadline
  atStage .readResponse do
    let response ← t.readResponse .primary deadline
    checkDeadline deadline
    validateResponse response requestId
    return response

/-- An exception of a part of the request that nothing there catches. -/
def uncaught {α : Type} (m : PipeM α) : ExceptT RequestError (Prog PipeSig) α :=
  ExceptT.mk (m.run >>= fun r => pure (r.mapError .raised))

/-- `_cancel_wait_close` of the request's own handle: the name of the `Exception` that was caught -/
def cancelPrimary : PipeM (Option String) := do
  let deadline := (← clock) + t.cancellationGraceSeconds
  match ← caught (cancelWaitClose .primary deadline) with
  | .ok () => return none
  -- The handle is still set where the outer `finally` comes to it.
  | .error (.base name) => closing .primary (.error (.base name))
  | .error error => return some error.typeName

/-- The handler of the passed deadline, once the handle is gone. -/
def reportDeadline (envelope : PipeResponse) (requestId : String) (timeoutSeconds : ℚ) (transportStage : TransportStage)
    (primaryIoCancelError : Option String) : ExceptT RequestError (Prog PipeSig) PipeResponse := do
  let (terminalCancelConfirmed, cancellationError) ← uncaught (t.requestTerminalCancel requestId)
  throw (.timedOut
    { operation := (envelope.lookup "method").getD (.str "ipc_request")
      requestId
      timeoutSeconds
      terminalCancelConfirmed
      transportStage
      cancellationError
      primaryIoCancelError })

/-- `request`, without a broker -/
def request (envelope : PipeResponse) (timeoutSeconds : ℚ) : ExceptT RequestError (Prog PipeSig) PipeResponse := do
  if timeoutSeconds ≤ 0 then throw (.raised .valueError)
  match envelope.lookup "request_id" with
  | some (.str requestId) =>
      if requestId = "" then throw (.raised .valueError)
      if !isText schemaVersion (envelope.lookup "schema_version") then throw (.raised .valueError)
      let requestFrame ← uncaught (t.encodeChecked envelope)
      let deadline := (← uncaught clock) + timeoutSeconds
      match ← caught (callPipe (.connect .primary t.pipeName deadline) id) with
      | .error .deadline => t.reportDeadline envelope requestId timeoutSeconds .connect none
      | .error error => throw (.raised error)
      | .ok () =>
          match ← caught (t.exchange requestFrame requestId deadline) with
          | .ok response => uncaught (closing .primary (.ok response))
          | .error (stage, .deadline) =>
              let primaryIoCancelError ← uncaught t.cancelPrimary
              t.reportDeadline envelope requestId timeoutSeconds stage primaryIoCancelError
          | .error (_, error) => uncaught (closing .primary (.error error))
  | _ => throw (.raised .valueError)

end NamedPipeTransport

end CadHarness.Ipc
