import CadHarness.Domain.Errors
import CadHarness.Ipc.Framing
import CadHarness.Lib.JsonReader
import CadHarness.Lib.PythonText

/-!
# The process runner

`cad_harness.application.process_runner`: a request goes as JSON to a worker process of its own, or to the broker that
was started before. No deadline expires and nobody kills a process, so that a caller waits for the answer or for the
end of the process. The drawings, the contracts and the file system are the host's.
-/

namespace CadHarness.Process
open CadHarness.Lib CadHarness.Domain
open CadHarness.Canonical (Double Number numberRepr)
open CadHarness.Ipc (Scalar utf8)

abbrev JsonValue := Json Scalar

abbrev Dict := List (String × JsonValue)

abbrev Bytes := List UInt8

def maxEnvelopeBytes : Nat := 16777216

def maxRequestBytes : Nat := maxEnvelopeBytes - 1024

def maxJsonDepth : Nat := 32

inductive ProcessWorkerCommand where
  | echoJson
  | sleep
  | writeJsonMarker
  | dxfCurrentRevision
  | dxfSummary
  | dxfModel
  | loadMaterialTable
  | computeTakeoff
  | measure
  | bridgeRequest
  deriving DecidableEq

namespace ProcessWorkerCommand

def value : ProcessWorkerCommand → String
  | echoJson => "echo_json"
  | sleep => "sleep"
  | writeJsonMarker => "write_json_marker"
  | dxfCurrentRevision => "dxf_current_revision"
  | dxfSummary => "dxf_summary"
  | dxfModel => "dxf_model"
  | loadMaterialTable => "load_material_table"
  | computeTakeoff => "compute_takeoff"
  | measure => "measure"
  | bridgeRequest => "bridge_request"

def all : List ProcessWorkerCommand :=
  [echoJson, sleep, writeJsonMarker, dxfCurrentRevision, dxfSummary, dxfModel, loadMaterialTable, computeTakeoff,
    measure, bridgeRequest]

/-- `ProcessWorkerCommand(command_value)` -/
def ofValue? (commandValue : String) : Option ProcessWorkerCommand := all.find? fun c => c.value = commandValue

end ProcessWorkerCommand

def invalidParameters (message : String) : Exc :=
  .harness { code := .invalidFeatureParameters, message, requiredAction := none, details := [] }

/-- A `HarnessError` of no subclass. -/
def harnessError (message : String) (requiredAction : Option String) (details : List (String × Value)) : Exc :=
  .harness { code := .internalError, message, requiredAction, details }

/-! ## JSON -/

mutual
def validateJsonValue (depth : Nat) : JsonValue → Except Exc Unit
  | .null | .bool _ | .str _ | .num (.number _) =>
      if maxJsonDepth < depth then .error (.valueError "JSON nesting is too deep") else .ok ()
  | .num .nonFinite =>
      if maxJsonDepth < depth then .error (.valueError "JSON nesting is too deep")
      else .error (.valueError "non-finite JSON number")
  | .num .other =>
      if maxJsonDepth < depth then .error (.valueError "JSON nesting is too deep")
      else .error (.typeError "not a JSON value")
  | .arr xs =>
      if maxJsonDepth < depth then .error (.valueError "JSON nesting is too deep")
      else validateItems (depth + 1) xs
  | .obj ms =>
      if maxJsonDepth < depth then .error (.valueError "JSON nesting is too deep")
      else validateMembers (depth + 1) ms

def validateItems (depth : Nat) : List JsonValue → Except Exc Unit
  | [] => .ok ()
  | x :: xs => do
      validateJsonValue depth x
      validateItems depth xs

def validateMembers (depth : Nat) : Dict → Except Exc Unit
  | [] => .ok ()
  | (_, x) :: ms => do
      validateJsonValue depth x
      validateMembers depth ms
end

/-- The digits that `int.__repr__` writes at most. -/
def maxStrDigits : Nat := 4300

/-- The text of a number in `json.dumps`. -/
def numberText : Scalar → Option NumberText
  | .number (.int i) =>
      if maxStrDigits < (Nat.toDigits 10 i.natAbs).length then none else some (numberRepr (.int i))
  | .number (.double x) => some (numberRepr (.double x))
  | .nonFinite | .other => none

/-- `json.dumps`, with `sort_keys` -/
def dumps (value : JsonValue) : Option (List Char) := (value.sortKeys.traverse numberText).map Json.render

def encodeJson (value : JsonValue) : Except Exc Bytes :=
  match validateJsonValue 0 value, dumps value with
  | .ok (), some text =>
      if maxEnvelopeBytes < (utf8 (.ofList text)).length then
        .error (invalidParameters "Process worker JSON envelope is too large")
      else .ok (utf8 (.ofList text))
  | _, _ => .error (invalidParameters "Process worker payload must contain bounded JSON values")

def readSign : List Char → Bool × List Char
  | '-' :: s => (true, s)
  | s => (false, s)

/-- The number of a literal: an `int` where it has digits only. -/
def readUnsigned (negative : Bool) (digits : List Char) : Scalar :=
  if digits.all Char.isDigit then
    let n : Int := Nat.ofDigitChars 10 digits 0
    .number (.int (if negative then -n else n))
  else
    let x := Binary64.nearest negative (Decimal.read digits)
    if h : x.IsFinite then .number (.double ⟨x, h⟩) else .nonFinite

def readScalar (literal : NumberText) : Scalar :=
  readUnsigned (readSign literal.text).1 (readSign literal.text).2

/-- `json.loads` -/
def loads (encoded : Bytes) : Option JsonValue := do
  let text ← String.fromUTF8? ⟨encoded.toArray⟩
  let value ← Json.read text.toList
  value.traverse fun literal => some (readScalar literal)

def decodeJsonObject (encoded : Bytes) : Except Exc Dict :=
  if maxEnvelopeBytes < encoded.length then
    .error (invalidParameters "Process worker JSON envelope is too large")
  else
    match loads encoded with
    | none => .error (invalidParameters "Process worker returned invalid JSON")
    | some decoded =>
        match validateJsonValue 0 decoded, decoded with
        | .ok (), .obj ms => .ok ms
        | .ok (), _ => .error (invalidParameters "Process worker JSON envelope must be an object")
        | .error _, _ => .error (invalidParameters "Process worker returned invalid JSON")

/-! ## Requests -/

inductive Contract where
  | drawingModel
  | takeoffRequest
  | materialTable
  | measurementRequest
  deriving DecidableEq

/-- The source of a `DrawingReadRequest`. -/
structure DrawingSource where
  kind : String
  format : String
  ref : String

/-- What the runner is given: the wire contracts, the file system, and the commands that go beyond this module. -/
structure Host (World : Type) where
  casefold : String → String
  lower : String → String
  drawingReadRequest : JsonValue → Option DrawingSource
  isContract : Contract → JsonValue → Bool
  isTolerance : JsonValue → Bool
  /-- The resolved name of a directory that is no symlink. -/
  outputRoot : String → World → Option String
  /-- `_validate_local_input_file` -/
  inputRoot : String → String → World → Option String
  /-- Create a file that is not there yet. -/
  writeMarker : String → String → Bytes → World → Option World
  execute : ProcessWorkerCommand → Dict → Option String → Option String → World → Except Exc JsonValue × World

variable {World : Type}

/-- One call of `run_process_worker`. -/
structure Call where
  operation : String
  command : ProcessWorkerCommand
  payload : Dict
  allowedOutputRoot : Option String := none
  allowedInputRoot : Option String := none

structure Prepared where
  command : ProcessWorkerCommand
  requestJson : Bytes
  normalizedPayload : Dict
  normalizedOutputRoot : Option String
  normalizedInputRoot : Option String

def requireExactKeys (payload : Dict) (required optional : List String) : Except Exc Unit :=
  if payload.all (fun m => m.1 ∈ required ++ optional) && required.all (fun k => k ∈ payload.map Prod.fst) then .ok ()
  else .error (.harness
    { code := .invalidFeatureParameters, message := "Process worker payload has missing or unknown fields",
      requiredAction := none,
      details := [("required_fields", strings (required.mergeSort fun a b => a ≤ b)),
                  ("optional_fields", strings (optional.mergeSort fun a b => a ≤ b))] })

def requireDuration : JsonValue → Except Exc Unit
  | .num (.number (.int i)) =>
      if (Binary64.nearest (i < 0) (i.natAbs : ℚ)).IsFinite then
        if 0 ≤ i ∧ i ≤ 86400 then .ok () else .error (invalidParameters "Process worker duration is out of range")
      else .error (.other "OverflowError")
  | .num (.number (.double x)) =>
      if (x.1.neg = false ∨ x.1.mant = 0) ∧ x.1.mag ≤ 86400 then .ok ()
      else .error (invalidParameters "Process worker duration is out of range")
  | _ => .error (invalidParameters "Process worker duration must be a number")

/-- A check of the payload that fails with this message. -/
def require (condition : Bool) (message : String) : Except Exc Unit :=
  if condition then .ok () else .error (invalidParameters message)

/-- `normalized_payload[name]` -/
def field (payload : Dict) (name : String) : Except Exc JsonValue :=
  match payload.lookup name with
  | some v => .ok v
  | none => .error (.other "KeyError")

def text? : JsonValue → Option String
  | .str s => some s
  | _ => none

def isMarkerFilename (casefold : String → String) (filename : String) : Bool :=
  filename ≠ "" && filename ∉ [".", ".."] && '/' ∉ filename.toList && '\\' ∉ filename.toList &&
    ['.', 'j', 's', 'o', 'n'].isSuffixOf (casefold filename).toList

/-- A `DrawingReadRequest` of one DXF file. -/
def isDxfSource (lower : String → String) (source : DrawingSource) : Bool :=
  source.kind = "file" &&
    (lower (Python.strip source.format)).toList.dropWhile (· = '.') = ['d', 'x', 'f']

def validateLocalInputFile (host : Host World) (documentId : String) (root : Option String) (w : World) :
    Except Exc (Option String) :=
  match root with
  | none => .error (invalidParameters "DXF command requires an allowlisted input root")
  | some root =>
      match host.inputRoot documentId root w with
      | none => .error (invalidParameters "DXF input is not an allowlisted local file")
      | some resolved => .ok (some resolved)

/-- What `_prepare_request` demands of the payload of a command, with the normalized roots. -/
def checkPayload (host : Host World) (c : Call) (payload : Dict) (w : World) :
    Except Exc (Option String × Option String) :=
  match c.command with
  | .echoJson => do
      requireExactKeys payload ["value"] []
      return (none, none)
  | .sleep => do
      requireExactKeys payload ["seconds"] ["result"]
      requireDuration (← field payload "seconds")
      require ((payload.lookup "result").all Json.isObject) "Sleep result must be a JSON object"
      return (none, none)
  | .writeJsonMarker => do
      requireExactKeys payload ["delay_seconds", "filename", "document"] []
      requireDuration (← field payload "delay_seconds")
      require ((text? (← field payload "filename")).any (isMarkerFilename host.casefold))
        "Marker filename must be one local .json filename"
      match c.allowedOutputRoot with
      | none => .error (invalidParameters "Marker command requires an allowlisted output root")
      | some root =>
          match host.outputRoot root w with
          | none => .error (invalidParameters "Allowlisted output root must be an existing non-symlink directory")
          | some resolved => return (some resolved, none)
  | .dxfCurrentRevision => do
      requireExactKeys payload ["document_id"] []
      match text? (← field payload "document_id") with
      | none => .error (invalidParameters "DXF document identifier must be a string")
      | some documentId => return (none, ← validateLocalInputFile host documentId c.allowedInputRoot w)
  | .dxfSummary | .dxfModel => do
      requireExactKeys payload ["request", "tolerance"] []
      match host.drawingReadRequest (← field payload "request") with
      | none => .error (invalidParameters "Process worker contract is invalid")
      | some source =>
          require (host.isTolerance (← field payload "tolerance")) "Process worker tolerance is invalid"
          require (isDxfSource host.lower source) "DXF worker requires one local DXF source"
          return (none, ← validateLocalInputFile host source.ref c.allowedInputRoot w)
  | .loadMaterialTable => do
      requireExactKeys payload ["profile_ref"] []
      require (text? (← field payload "profile_ref")).isSome "Material profile reference must be a string"
      return (none, none)
  | .computeTakeoff => do
      requireExactKeys payload ["model", "request", "materials", "tolerance"] []
      require (host.isContract .drawingModel (← field payload "model")) "Process worker contract is invalid"
      require (host.isContract .takeoffRequest (← field payload "request")) "Process worker contract is invalid"
      require (host.isContract .materialTable (← field payload "materials")) "Process worker contract is invalid"
      require (host.isTolerance (← field payload "tolerance")) "Process worker tolerance is invalid"
      return (none, none)
  | .measure => do
      requireExactKeys payload ["model", "request", "tolerance"] []
      require (host.isContract .drawingModel (← field payload "model")) "Process worker contract is invalid"
      require (host.isContract .measurementRequest (← field payload "request")) "Process worker contract is invalid"
      require (host.isTolerance (← field payload "tolerance")) "Process worker tolerance is invalid"
      return (none, none)
  | .bridgeRequest => do
      requireExactKeys payload ["pipe_name", "envelope", "timeout_seconds", "max_frame_bytes"] []
      require (text? (← field payload "pipe_name")).isSome "Bridge pipe name must be a string"
      require (← field payload "envelope").isObject "Bridge envelope must be a JSON object"
      requireDuration (← field payload "timeout_seconds")
      match ← field payload "max_frame_bytes" with
      | .num (.number (.int n)) =>
          require (4 ≤ n && n ≤ (maxEnvelopeBytes : Int)) "Bridge frame limit is out of range"
          return (none, none)
      | _ => .error (invalidParameters "Bridge frame limit is out of range")

def prepareRequest (host : Host World) (c : Call) (w : World) : Except Exc Prepared := do
  let payload ← decodeJsonObject (← encodeJson (.obj c.payload))
  let roots ← checkPayload host c payload w
  let requestJson ← encodeJson (.obj payload)
  if maxRequestBytes < requestJson.length then
    .error (invalidParameters "Process worker JSON payload is too large")
  else
    return { command := c.command, requestJson, normalizedPayload := payload, normalizedOutputRoot := roots.1,
             normalizedInputRoot := roots.2 }

/-! ## The worker -/

def executeCommand (host : Host World) (command : ProcessWorkerCommand) (payload : Dict)
    (allowedOutputRoot allowedInputRoot : Option String) (w : World) : Except Exc JsonValue × World :=
  match command with
  | .echoJson =>
      match payload.lookup "value" with
      | none => (.error (.other "KeyError"), w)
      | some value => (.ok (.obj [("value", value)]), w)
  | .sleep => (.ok ((payload.lookup "result").getD (.obj [])), w)
  | .writeJsonMarker =>
      match allowedOutputRoot, payload.lookup "filename", payload.lookup "document" with
      | none, _, _ => (.error (.valueError "missing allowlisted root"), w)
      | some root, some (.str filename), some document =>
          match encodeJson document with
          | .error e => (.error e, w)
          | .ok bytes =>
              match host.writeMarker root filename bytes w with
              | none => (.error (.valueError "invalid marker target"), w)
              | some w => (.ok (.obj [("filename", .str filename), ("written", .bool true)]), w)
      | _, _, _ => (.error (.other "KeyError"), w)
  | command => host.execute command payload allowedOutputRoot allowedInputRoot w

def okEnvelope (command : ProcessWorkerCommand) (result : JsonValue) : JsonValue :=
  .obj [("ok", .bool true), ("command", .str command.value), ("result", result)]

def errorEnvelope (commandValue : String) : JsonValue :=
  .obj [("ok", .bool false), ("command", .str commandValue),
    ("error", .obj [("code", .str "INTERNAL_ERROR"), ("message", .str "Isolated process worker failed"),
      ("retryable", .bool false), ("required_action", .null), ("details", .obj [])])]

/-- The response to a command, and what it leaves of the world. -/
def respond (host : Host World) (command : ProcessWorkerCommand) (payload : Dict)
    (allowedOutputRoot allowedInputRoot : Option String) (w : World) : JsonValue × World :=
  match executeCommand host command payload allowedOutputRoot allowedInputRoot w with
  | (.ok result, w) => (okEnvelope command result, w)
  | (.error _, w) => (errorEnvelope command.value, w)

/-- `_worker_main`: a response that cannot be encoded is left out -/
def workerMain (host : Host World) (commandValue : String) (requestJson : Bytes)
    (allowedOutputRoot allowedInputRoot : Option String) (w : World) : Option Bytes × World :=
  match ProcessWorkerCommand.ofValue? commandValue, decodeJsonObject requestJson with
  | some command, .ok payload =>
      let (response, w) := respond host command payload allowedOutputRoot allowedInputRoot w
      ((encodeJson response).toOption, w)
  | _, _ => ((encodeJson (errorEnvelope commandValue)).toOption, w)

def unwrapResponse (envelope : Dict) (command : ProcessWorkerCommand) : Except Exc Dict :=
  match envelope.lookup "command", envelope.lookup "ok" with
  | some (.str commandValue), some (.bool ok) =>
      if commandValue ≠ command.value then
        .error (harnessError "Isolated process worker returned an invalid envelope" none
          [("command", .str command.value)])
      else if ok then
        match envelope.lookup "result" with
        | some (.obj result) => .ok result
        | _ => .error (harnessError "Isolated process worker returned an invalid result" none
            [("command", .str command.value)])
      else
        .error (harnessError "Isolated process worker failed" none
          [("command", .str command.value), ("worker_terminal", .bool true)])
  | _, _ => .error (harnessError "Isolated process worker returned an invalid envelope" none
      [("command", .str command.value)])

/-- `_run_one_shot_worker` -/
def runOneShotWorker (host : Host World) (p : Prepared) (w : World) : Except Exc Dict × World :=
  match workerMain host p.command.value p.requestJson p.normalizedOutputRoot p.normalizedInputRoot w with
  | (none, w) =>
      (.error (harnessError "Isolated process worker failed" none
        [("command", .str p.command.value), ("worker_terminal", .bool true)]), w)
  | (some response, w) => (decodeJsonObject response >>= (unwrapResponse · p.command), w)

/-! ## The broker -/

/-- The broker with its process and the two directions of its connection. -/
structure ProcessWorkerBroker where
  terminal : Bool := false
  alive : Bool := true
  requests : List Bytes := []
  responses : List Bytes := []
  deriving DecidableEq

/-- A root of a broker request: a string or nothing. -/
def root? : Option JsonValue → Option (Option String)
  | none | some .null => some none
  | some (.str s) => some (some s)
  | some _ => none

/-- What one turn of the loop of `_broker_main` comes to. -/
inductive Turn where
  | replied (response : Bytes)
  | returned
  /-- An exception left the loop. -/
  | died

def brokerTurn (host : Host World) (rawRequest : Bytes) (w : World) : Turn × World :=
  match decodeJsonObject rawRequest with
  | .error _ => (.died, w)
  | .ok [("shutdown", .bool true)] => (.returned, w)
  | .ok request =>
      let (response, w) :=
        match request.lookup "command" with
        | some (.str commandValue) =>
            match ProcessWorkerCommand.ofValue? commandValue, request.lookup "payload",
              root? (request.lookup "allowed_output_root"), root? (request.lookup "allowed_input_root") with
            | some command, some (.obj payload), some outputRoot, some inputRoot =>
                respond host command payload outputRoot inputRoot w
            | _, _, _, _ => (errorEnvelope commandValue, w)
        | _ => (errorEnvelope "invalid", w)
      match encodeJson response with
      | .ok bytes => (.replied bytes, w)
      | .error _ => (.died, w)

/-- `_broker_main` until it waits for a request or is at its end. -/
def brokerMain (host : Host World) : List Bytes → World → List Bytes × Bool × World
  | [], w => ([], true, w)
  | rawRequest :: rest, w =>
      match brokerTurn host rawRequest w with
      | (.replied response, w) =>
          let (responses, alive, w) := brokerMain host rest w
          (response :: responses, alive, w)
      | (.returned, w) | (.died, w) => ([], false, w)

def brokerRequest (command : ProcessWorkerCommand) (payload : Dict) (outputRoot inputRoot : Option String) : JsonValue :=
  .obj [("command", .str command.value), ("payload", .obj payload),
    ("allowed_output_root", outputRoot.elim .null .str), ("allowed_input_root", inputRoot.elim .null .str)]

namespace ProcessWorkerBroker

/-- The process answers what was sent to it. -/
def serve (host : Host World) (b : ProcessWorkerBroker) (w : World) : ProcessWorkerBroker × World :=
  let (responses, alive, w) := brokerMain host b.requests w
  ({ b with requests := [], responses := b.responses ++ responses, alive }, w)

/-- `_terminate` -/
def terminate (b : ProcessWorkerBroker) : ProcessWorkerBroker := { b with terminal := true, alive := false }

/-- The times of the details are left out. -/
def timeoutError (operation : String) : Exc :=
  .harness
    { code := .ipcTimeout, message := "Operation '" ++ operation ++ "' exceeded its configured timeout",
      requiredAction := some "Reduce the operation scope or increase its configured timeout, then retry safely",
      details := [("operation", .str operation), ("cancelled", .bool true), ("worker_terminal", .bool true)] }

def run (host : Host World) (operation : String) (p : Prepared) (b : ProcessWorkerBroker) (w : World) :
    Except Exc Dict × ProcessWorkerBroker × World :=
  if b.terminal || !b.alive then
    (.error (harnessError "Isolated process broker is unavailable"
      (some "Restart the MCP server before retrying the operation")
      [("command", .str p.command.value), ("worker_terminal", .bool true)]), b, w)
  else
    match decodeJsonObject p.requestJson >>= fun payload =>
      encodeJson (brokerRequest p.command payload p.normalizedOutputRoot p.normalizedInputRoot) with
    | .error e => (.error e, b, w)
    | .ok request =>
        let (b, w) := serve host { b with requests := b.requests ++ [request] } w
        match b.responses with
        | [] => (.error (timeoutError operation), b.terminate, w)
        | response :: responses =>
            (decodeJsonObject response >>= (unwrapResponse · p.command), { b with responses }, w)

end ProcessWorkerBroker

/-! ## Calls -/

/-- `run_process_worker` without a registered broker. -/
def runOneShot (host : Host World) (c : Call) (w : World) : Except Exc Dict × World :=
  match prepareRequest host c w with
  | .error e => (.error e, w)
  | .ok p => runOneShotWorker host p w

/-- `run_process_worker` with a registered broker. -/
def runBrokered (host : Host World) (c : Call) (b : ProcessWorkerBroker) (w : World) :
    Except Exc Dict × ProcessWorkerBroker × World :=
  match prepareRequest host c w with
  | .error e => (.error e, b, w)
  | .ok p => b.run host c.operation p w

end CadHarness.Process
