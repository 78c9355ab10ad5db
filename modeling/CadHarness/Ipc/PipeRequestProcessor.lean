import CadHarness.Lib.Assoc
import CadHarness.Lib.DotNet
import CadHarness.Lib.Json
import CadHarness.Lib.System
import Mathlib.Logic.Function.Basic

/-!
# Requests and their cancellation

`PipeRequestProcessor` from the validated request on. The registry runs under one lock, so each of its
methods is one step; entries and pending cancellations are objects, named by their place on a heap. Whoever
waits for one of them goes on by a step of its own.
-/

namespace CadHarness.Ipc
open CadHarness.Lib

/-! ## Responses -/

abbrev JsonObject := List (String × Json String)

structure IpcError where
  code : String
  message : String
  retryable : Bool := false
  details : JsonObject := []
  requiredAction : Option String := none

inductive IpcResponseStatus where
  | ok
  | rejected
  | conflict
  | failed
  deriving DecidableEq

structure PipeHandlerResult where
  status : IpcResponseStatus
  data : Option JsonObject
  error : Option IpcError

inductive Response where
  | success (requestId : String) (data : JsonObject)
  | error (requestId : String) (status : IpcResponseStatus) (error : IpcError)

namespace Response

/-- `Error` with the status that it has by default. -/
def rejected (requestId code message : String) : Response :=
  .error requestId .rejected { code, message }

def failed (requestId code message : String) : Response :=
  .error requestId .failed { code, message }

def timeout (requestId : String) : Response :=
  .error requestId .failed
    { code := "IPC_TIMEOUT", message := "The IPC request was cancelled or timed out.", retryable := true }

end Response

def handlerResponse (requestId : String) : Option PipeHandlerResult → Response
  | none => .failed requestId "INTERNAL_ERROR" "The bridge handler returned an invalid result."
  | some result =>
      match result.status, result.data, result.error with
      | .ok, data, none => .success requestId (data.getD [])
      | .rejected, none, some error => .error requestId .rejected error
      | .conflict, none, some error => .error requestId .conflict error
      | .failed, none, some error => .error requestId .failed error
      | _, _, _ => .failed requestId "INTERNAL_ERROR" "The bridge handler returned an invalid result."

/-! ## The registry -/

/-- A cancellation that waits for its request. The source of its terminal task is empty until it is set, and
its timer fires at most once. -/
structure PendingCancellation where
  requestId : String
  boundOrExpired : Bool := false
  terminal : Option Bool := none
  fired : Bool := false

namespace PendingCancellation

def bind (p : PendingCancellation) : PendingCancellation := { p with boundOrExpired := true }

def completeTerminal (p : PendingCancellation) : PendingCancellation :=
  { p with terminal := p.terminal.or (some true) }

def expire (p : PendingCancellation) : PendingCancellation :=
  if p.boundOrExpired then p else { p with boundOrExpired := true, terminal := p.terminal.or (some false) }

end PendingCancellation

/-- An active request; its terminal task completes when `terminal` is set. -/
structure RequestEntry where
  pendingCancellation : Option Nat
  cancelled : Bool
  terminal : Bool := false

structure RequestCancellationRegistry where
  active : List (String × Nat) := []
  pending : List (String × Nat) := []
  entries : List RequestEntry := []
  pendings : List PendingCancellation := []

/-- What a cancellation waits for. -/
inductive Terminal where
  | entry (e : Nat)
  | pending (p : Nat)
  deriving DecidableEq

def maximumPendingCancellations : Nat := 256

namespace RequestCancellationRegistry

def bindPending (g : RequestCancellationRegistry) (requestId : String) (p : Nat) : RequestCancellationRegistry :=
  { g with
    pending := Assoc.remove g.pending requestId
    pendings := g.pendings.modify p (·.bind) }

/-- A new entry, active under this id. -/
def addEntry (g : RequestCancellationRegistry) (requestId : String) (pendingCancellation : Option Nat) :
    RequestCancellationRegistry :=
  { g with
    active := Assoc.set g.active requestId g.entries.length
    entries := g.entries ++ [⟨pendingCancellation, pendingCancellation.isSome, false⟩] }

def tryRegister (g : RequestCancellationRegistry) (requestId : String) : Option Nat × RequestCancellationRegistry :=
  if (g.active.lookup requestId).isSome then (none, g)
  else
    match g.pending.lookup requestId with
    | some p => (some g.entries.length, (g.bindPending requestId p).addEntry requestId (some p))
    | none => (some g.entries.length, g.addEntry requestId none)

/-- Whether the entry is there and not terminal. -/
def live (g : RequestCancellationRegistry) (e : Nat) : Bool := g.entries[e]?.any fun entry => !entry.terminal

/-- `RequestEntry.TryCancel` on the entry of that place. -/
def cancelEntry (g : RequestCancellationRegistry) (e : Nat) : RequestCancellationRegistry :=
  { g with entries := g.entries.modify e fun entry => { entry with cancelled := true } }

def tryCancel (g : RequestCancellationRegistry) (requestId : String) : Bool × RequestCancellationRegistry :=
  match g.active.lookup requestId with
  | some e => if g.live e then (true, g.cancelEntry e) else (false, g)
  | none => (false, g)

/-- A new pending cancellation of this id. -/
def addPending (g : RequestCancellationRegistry) (requestId : String) : RequestCancellationRegistry :=
  { g with
    pending := Assoc.set g.pending requestId g.pendings.length
    pendings := g.pendings ++ [{ requestId }] }

/-- `TryCancelAndWaitForTerminalAsync` up to the task that it waits for. -/
def tryCancelAndWaitForTerminal (g : RequestCancellationRegistry) (requestId : String) :
    Option Terminal × RequestCancellationRegistry :=
  match g.active.lookup requestId with
  | some e => if g.live e then (some (.entry e), g.cancelEntry e) else (none, g)
  | none =>
      match g.pending.lookup requestId with
      | some existing => (some (.pending existing), g)
      | none =>
          if maximumPendingCancellations ≤ g.pending.length then (none, g)
          else (some (.pending g.pendings.length), g.addPending requestId)

/-- `RequestEntry.Complete` on the entry of that place. -/
def completeEntry (g : RequestCancellationRegistry) (e : Nat) : RequestCancellationRegistry :=
  match g.entries[e]? with
  | none => g
  | some entry =>
      if entry.terminal then g
      else
        { g with
          entries := g.entries.set e { entry with terminal := true }
          pendings := match entry.pendingCancellation with
            | some p => g.pendings.modify p (·.completeTerminal)
            | none => g.pendings }

def complete (g : RequestCancellationRegistry) (requestId : String) (e : Nat) : RequestCancellationRegistry :=
  let g := g.completeEntry e
  if g.active.lookup requestId = some e then { g with active := Assoc.remove g.active requestId } else g

def expire (g : RequestCancellationRegistry) (requestId : String) : RequestCancellationRegistry :=
  match g.pending.lookup requestId with
  | some p =>
      { g with
        pending := Assoc.remove g.pending requestId
        pendings := g.pendings.modify p (·.expire) }
  | none => g

/-- Whether the token of that entry is cancelled. -/
def cancelled (g : RequestCancellationRegistry) (e : Nat) : Bool := g.entries[e]?.any (·.cancelled)

/-- The result of the task that a cancellation waits for. -/
def result? (g : RequestCancellationRegistry) : Terminal → Option Bool
  | .entry e => if g.entries[e]?.any (·.terminal) then some true else none
  | .pending p => g.pendings[p]?.bind (·.terminal)

end RequestCancellationRegistry

/-! ## The processor -/

/-- A request that has passed `TryValidateRequest`. -/
structure Request where
  requestId : String
  method : String
  params : JsonObject

/-- `TryGetBoundedString`; of a property that occurs twice it is the last occurrence that counts. -/
def tryGetBoundedString (value : JsonObject) (propertyName : String) (minimumLength maximumLength : Nat) :
    Option String :=
  match value.reverse.lookup propertyName with
  | some (.str text) =>
      if minimumLength ≤ DotNet.length text ∧ DotNet.length text ≤ maximumLength then some text else none
  | _ => none

/-- Where a call of `ProcessPayloadAsync` is. -/
inductive Phase where
  /-- registered, the handler not yet invoked -/
  | registered (requestId : String) (e : Nat)
  | handling (requestId : String) (e : Nat)
  /-- about to dispose of the lease -/
  | ending (requestId : String) (e : Nat) (response : Response)
  | completed (requestId : String) (e : Nat) (response : Response)
  /-- a cancel request that awaits the terminal task of its target -/
  | waiting (requestId target : String) (terminal : Terminal)
  | answered (response : Response)

def processCancellation (g : RequestCancellationRegistry) (request : Request) :
    Phase × RequestCancellationRegistry :=
  match tryGetBoundedString request.params "target_request_id" 1 64 with
  | none =>
      (.answered (.rejected request.requestId "INVALID_FEATURE_PARAMETERS"
        "A cancel request requires a distinct active target_request_id."), g)
  | some target =>
      if request.requestId = target then
        (.answered (.rejected request.requestId "INVALID_FEATURE_PARAMETERS"
          "A cancel request requires a distinct active target_request_id."), g)
      else
        match g.tryCancelAndWaitForTerminal target with
        | (some terminal, g) => (.waiting request.requestId target terminal, g)
        | (none, g) =>
            (.answered (.rejected request.requestId "INVALID_FEATURE_PARAMETERS"
              "The target request is not active."), g)

/-- `ProcessPayloadAsync` up to the first task that it waits for. -/
def processRequest (g : RequestCancellationRegistry) (request : Request) : Phase × RequestCancellationRegistry :=
  if request.method = "cancel" then processCancellation g request
  else
    match g.tryRegister request.requestId with
    | (some e, g) => (.registered request.requestId e, g)
    | (none, g) =>
        (.answered (.rejected request.requestId "INVALID_FEATURE_PARAMETERS"
          "A request with this request_id is already active."), g)

/-- The reply to a cancel request whose target has got a terminal result. -/
def cancellationResponse (requestId target : String) (terminal : Bool) : Response :=
  if terminal then
    .success requestId [("cancelled_request_id", .str target), ("terminal", .bool true)]
  else .rejected requestId "INVALID_FEATURE_PARAMETERS" "The target request is not active."

/-- How the handler ends. -/
inductive HandlerOutcome where
  | returned (result : Option PipeHandlerResult)
  | operationCanceled
  | failed

/-- The response to a request whose handler has ended. -/
def handledResponse (requestId : String) (cancellationRequested : Bool) : HandlerOutcome → Response
  | .returned result => if cancellationRequested then .timeout requestId else handlerResponse requestId result
  | .operationCanceled =>
      if cancellationRequested then .timeout requestId
      else .failed requestId "INTERNAL_ERROR" "The bridge handler failed safely."
  | .failed => .failed requestId "INTERNAL_ERROR" "The bridge handler failed safely."

/-- The registry and the calls, numbered by who makes them. -/
structure Processor where
  registry : RequestCancellationRegistry := {}
  calls : Nat → Option Phase := fun _ => none

inductive ProcessorEvent where
  | requested (n : Nat) (request : Request)
  | invoked (n : Nat)
  | notInvoked (n : Nat)
  | terminated (n : Nat)
  | completed (n : Nat)
  | replied (n : Nat) (response : Response)
  | cancel (requestId : String) (result : Bool)
  | fired (p : Nat)

/-- One step, under any timing: a connection may be cancelled at any moment, and a timer that was disposed of
may still fire. -/
inductive Processor.Step : Processor → ProcessorEvent → Processor → Prop
  | requested {S : Processor} {n : Nat} {request : Request} : S.calls n = none →
      Step S (.requested n request) ⟨(processRequest S.registry request).2,
        Function.update S.calls n (some (processRequest S.registry request).1)⟩
  | invoked {S : Processor} {n : Nat} {requestId : String} {e : Nat} :
      S.calls n = some (.registered requestId e) → S.registry.cancelled e = false →
      Step S (.invoked n) ⟨S.registry, Function.update S.calls n (some (.handling requestId e))⟩
  | notInvoked {S : Processor} {n : Nat} {requestId : String} {e : Nat} {connectionCancelled : Bool} :
      S.calls n = some (.registered requestId e) → (S.registry.cancelled e || connectionCancelled) = true →
      Step S (.notInvoked n)
        ⟨S.registry, Function.update S.calls n (some (.ending requestId e (.timeout requestId)))⟩
  | terminated {S : Processor} {n : Nat} {requestId : String} {e : Nat} {connectionCancelled : Bool}
      {outcome : HandlerOutcome} : S.calls n = some (.handling requestId e) →
      Step S (.terminated n) ⟨S.registry, Function.update S.calls n (some (.ending requestId e
        (handledResponse requestId (S.registry.cancelled e || connectionCancelled) outcome)))⟩
  | completed {S : Processor} {n : Nat} {requestId : String} {e : Nat} {response : Response} :
      S.calls n = some (.ending requestId e response) →
      Step S (.completed n) ⟨S.registry.complete requestId e,
        Function.update S.calls n (some (.completed requestId e response))⟩
  | awaited {S : Processor} {n : Nat} {requestId target : String} {terminal : Terminal} {result : Bool} :
      S.calls n = some (.waiting requestId target terminal) → S.registry.result? terminal = some result →
      Step S (.replied n (cancellationResponse requestId target result)) ⟨S.registry,
        Function.update S.calls n (some (.answered (cancellationResponse requestId target result)))⟩
  | abandoned {S : Processor} {n : Nat} {requestId target : String} {terminal : Terminal} :
      S.calls n = some (.waiting requestId target terminal) →
      Step S (.replied n (.timeout requestId))
        ⟨S.registry, Function.update S.calls n (some (.answered (.timeout requestId)))⟩
  | cancel {S : Processor} {requestId : String} :
      Step S (.cancel requestId (S.registry.tryCancel requestId).1) ⟨(S.registry.tryCancel requestId).2, S.calls⟩
  | fired {S : Processor} {p : Nat} {pending : PendingCancellation} : S.registry.pendings[p]? = some pending →
      pending.fired = false →
      Step S (.fired p) ⟨({ S.registry with
        pendings := S.registry.pendings.set p { pending with fired := true } } :
          RequestCancellationRegistry).expire pending.requestId, S.calls⟩

/-- Every interleaving of requests over one processor. -/
def processorSystem : System Processor ProcessorEvent where
  init S := S = {}
  step := Processor.Step

end CadHarness.Ipc
