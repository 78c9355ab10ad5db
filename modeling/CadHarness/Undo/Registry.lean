import Mathlib.Logic.Function.Basic
import CadHarness.Lib.DotNet
import CadHarness.Lib.Json
import CadHarness.Lib.System

/-!
# The undo rollback registry

`UndoRollbackRegistry.cs`: the process-local record of which AutoCAD undo group may still restore a
commit. A dictionary is a function to `Option`. Each method takes the lock for its whole body, so a
call is one step, and a call that throws changes nothing.
-/

namespace CadHarness.Undo
open CadHarness.Lib

/-- `JsonElement`; a number keeps its raw text. -/
abbrev JsonElement := Json String

inductive UndoRollbackState where
  | available
  | executing
  | consumed
  | quarantined
  | superseded
  deriving DecidableEq, Repr

inductive UndoRollbackBeginKind where
  | execute
  | replay
  | rejected
  | conflict
  deriving DecidableEq, Repr

structure UndoRollbackReceipt where
  receiptId : String
  undoGroup : String
  jobId : String
  documentId : String
  checkpointId : String
  previousRevision : String
  newRevision : String
  processEpoch : String
  deriving DecidableEq, Repr

/-- The approval id is the idempotency key. -/
structure UndoRollbackRequest where
  receiptId : String
  undoGroup : String
  jobId : String
  documentId : String
  checkpointId : String
  currentRevision : String
  processEpoch : String
  approvalId : String
  requestDigest : String
  deriving DecidableEq, Repr

structure UndoRollbackResult where
  receiptId : String
  jobId : String
  documentId : String
  checkpointId : String
  previousRevision : String
  newRevision : String
  data : JsonElement
  deriving DecidableEq

structure UndoRollbackBegin where
  kind : UndoRollbackBeginKind
  receipt : Option UndoRollbackReceipt := none
  result : Option UndoRollbackResult := none
  deriving DecidableEq

structure Entry where
  receipt : UndoRollbackReceipt
  state : UndoRollbackState := .available

structure ApprovalAttempt where
  request : UndoRollbackRequest
  result : Option UndoRollbackResult

def ApprovalAttempt.requestDigest (a : ApprovalAttempt) : String :=
  a.request.requestDigest

structure UndoRollbackRegistry where
  processEpoch : String
  entriesByReceipt : String → Option Entry
  activeReceiptByDocument : String → Option String
  attemptByApprovalId : String → Option ApprovalAttempt

/-- `ArgumentException` and `InvalidOperationException`. -/
inductive RegistryError where
  | argument (message name : String)
  | invalidOperation (message : String)
  deriving DecidableEq, Repr

/-! ## Argument checks -/

def validateText (value name : String) : Except RegistryError Unit :=
  if DotNet.isNullOrWhiteSpace value || value.toList.any DotNet.isControl then
    .error (.argument "Rollback state identifiers must be non-empty safe text." name)
  else .ok ()

def validateReceipt (receipt : UndoRollbackReceipt) : Except RegistryError Unit := do
  validateText receipt.receiptId "ReceiptId"
  validateText receipt.undoGroup "UndoGroup"
  validateText receipt.jobId "JobId"
  validateText receipt.documentId "DocumentId"
  validateText receipt.checkpointId "CheckpointId"
  validateText receipt.previousRevision "PreviousRevision"
  validateText receipt.newRevision "NewRevision"
  validateText receipt.processEpoch "ProcessEpoch"

def validateRequest (request : UndoRollbackRequest) : Except RegistryError Unit := do
  validateText request.receiptId "ReceiptId"
  validateText request.undoGroup "UndoGroup"
  validateText request.jobId "JobId"
  validateText request.documentId "DocumentId"
  validateText request.checkpointId "CheckpointId"
  validateText request.currentRevision "CurrentRevision"
  validateText request.processEpoch "ProcessEpoch"
  validateText request.approvalId "ApprovalId"
  validateText request.requestDigest "RequestDigest"

/-- The receipt is the one the request asks to undo, at the revision the commit left. -/
def matchesReceipt (receipt : UndoRollbackReceipt) (request : UndoRollbackRequest) : Bool :=
  receipt.receiptId = request.receiptId && receipt.undoGroup = request.undoGroup &&
  receipt.jobId = request.jobId && receipt.documentId = request.documentId &&
  receipt.checkpointId = request.checkpointId && receipt.newRevision = request.currentRevision &&
  receipt.processEpoch = request.processEpoch

def matchesScope (left right : UndoRollbackRequest) : Bool :=
  left.receiptId = right.receiptId && left.undoGroup = right.undoGroup &&
  left.jobId = right.jobId && left.documentId = right.documentId &&
  left.checkpointId = right.checkpointId && left.currentRevision = right.currentRevision &&
  left.processEpoch = right.processEpoch && left.approvalId = right.approvalId

namespace UndoRollbackRegistry

/-! ## The methods -/

def new (processEpoch : String) : Except RegistryError UndoRollbackRegistry := do
  validateText processEpoch "processEpoch"
  return ⟨processEpoch, fun _ => none, fun _ => none, fun _ => none⟩

/-- Assigns the state of the entry of that receipt, where there is one. -/
def setState (g : UndoRollbackRegistry) (receiptId : String) (state : UndoRollbackState) :
    UndoRollbackRegistry :=
  { g with
    entriesByReceipt := Function.update g.entriesByReceipt receiptId
      ((g.entriesByReceipt receiptId).map fun e => { e with state }) }

def setAttempt (g : UndoRollbackRegistry) (approvalId : String) (attempt : Option ApprovalAttempt) :
    UndoRollbackRegistry :=
  { g with attemptByApprovalId := Function.update g.attemptByApprovalId approvalId attempt }

/-- Adds a receipt and makes it the active one of its document. -/
def addEntry (g : UndoRollbackRegistry) (receipt : UndoRollbackReceipt) : UndoRollbackRegistry :=
  { g with
    entriesByReceipt := Function.update g.entriesByReceipt receipt.receiptId (some { receipt })
    activeReceiptByDocument :=
      Function.update g.activeReceiptByDocument receipt.documentId (some receipt.receiptId) }

/-- The active receipt of a document with its entry. -/
def activeEntry (g : UndoRollbackRegistry) (documentId : String) : Option (String × Entry) := do
  let receiptId ← g.activeReceiptByDocument documentId
  let entry ← g.entriesByReceipt receiptId
  return (receiptId, entry)

def register (g : UndoRollbackRegistry) (receipt : UndoRollbackReceipt) :
    Except RegistryError (UndoRollbackReceipt × UndoRollbackRegistry) := do
  validateReceipt receipt
  if receipt.processEpoch ≠ g.processEpoch then
    throw (.argument "Receipt belongs to a different process epoch." "receipt")
  match g.entriesByReceipt receipt.receiptId with
  | some existing =>
      if existing.receipt ≠ receipt then
        throw (.invalidOperation "Rollback receipt id is already bound to another scope.")
      return (existing.receipt, g)
  | none =>
      match g.activeEntry receipt.documentId with
      | some (previousReceiptId, previous) =>
          if previous.state = .executing then
            throw (.invalidOperation
              "Cannot supersede a rollback while its undo command is executing.")
          return (receipt, (g.setState previousReceiptId .superseded).addEntry receipt)
      | none => return (receipt, g.addEntry receipt)

def begin (g : UndoRollbackRegistry) (request : UndoRollbackRequest) :
    Except RegistryError (UndoRollbackBegin × UndoRollbackRegistry) := do
  validateRequest request
  match g.attemptByApprovalId request.approvalId with
  | some priorAttempt =>
      if priorAttempt.requestDigest ≠ request.requestDigest then
        return ({ kind := .conflict }, g)
      if !matchesScope priorAttempt.request request then
        return ({ kind := .rejected }, g)
      match priorAttempt.result with
      | some replay => return ({ kind := .replay, result := some replay }, g)
      | none => return ({ kind := .rejected }, g)
  | none =>
      match g.entriesByReceipt request.receiptId with
      | none => return ({ kind := .rejected }, g)
      | some entry =>
          if !matchesReceipt entry.receipt request || entry.state ≠ .available then
            return ({ kind := .rejected }, g)
          return ({ kind := .execute, receipt := some entry.receipt },
            (g.setState request.receiptId .executing).setAttempt request.approvalId
              (some ⟨request, none⟩))

def requireExecutingAttempt (g : UndoRollbackRegistry) (request : UndoRollbackRequest) :
    Except RegistryError Entry :=
  match g.entriesByReceipt request.receiptId, g.attemptByApprovalId request.approvalId with
  | some entry, some attempt =>
      if entry.state = .executing && matchesReceipt entry.receipt request &&
          attempt.requestDigest = request.requestDigest && matchesScope attempt.request request then
        .ok entry
      else .error (.invalidOperation "Rollback attempt is not executing for this exact scope.")
  | _, _ => .error (.invalidOperation "Rollback attempt is not executing for this exact scope.")

def completeSuccess (g : UndoRollbackRegistry) (request : UndoRollbackRequest)
    (resultData : JsonElement) : Except RegistryError (UndoRollbackResult × UndoRollbackRegistry) := do
  validateRequest request
  if !resultData.isObject then
    throw (.argument "Rollback result data must be an object." "resultData")
  let entry ← g.requireExecutingAttempt request
  let receipt := entry.receipt
  let result : UndoRollbackResult :=
    { receiptId := receipt.receiptId
      jobId := receipt.jobId
      documentId := receipt.documentId
      checkpointId := receipt.checkpointId
      previousRevision := receipt.previousRevision
      newRevision := receipt.newRevision
      data := resultData }
  return (result, (g.setState request.receiptId .consumed).setAttempt request.approvalId
    (some ⟨request, some result⟩))

def quarantineAfterCommandUncertainty (g : UndoRollbackRegistry) (request : UndoRollbackRequest) :
    Except RegistryError UndoRollbackRegistry := do
  validateRequest request
  let _ ← g.requireExecutingAttempt request
  return g.setState request.receiptId .quarantined

def cancelBeforeCommand (g : UndoRollbackRegistry) (request : UndoRollbackRequest) :
    Except RegistryError UndoRollbackRegistry := do
  validateRequest request
  let _ ← g.requireExecutingAttempt request
  return (g.setState request.receiptId .available).setAttempt request.approvalId none

def invalidateAvailableForDocument (g : UndoRollbackRegistry) (documentId : String) :
    Except RegistryError (Bool × UndoRollbackRegistry) := do
  validateText documentId "documentId"
  match g.activeEntry documentId with
  | some (receiptId, entry) =>
      if entry.state ≠ .available then return (false, g)
      return (true, g.setState receiptId .superseded)
  | none => return (false, g)

/-- The state of a receipt, `none` for an unknown one. -/
def stateOf (g : UndoRollbackRegistry) (receiptId : String) : Option UndoRollbackState :=
  (g.entriesByReceipt receiptId).map (·.state)

def getState (g : UndoRollbackRegistry) (receiptId : String) :
    Except RegistryError (Option UndoRollbackState) := do
  validateText receiptId "receiptId"
  return g.stateOf receiptId

end UndoRollbackRegistry

/-! ## Sequences of calls -/

/-- A call of one of the public methods. -/
inductive Call where
  | register (receipt : UndoRollbackReceipt)
  | begin (request : UndoRollbackRequest)
  | completeSuccess (request : UndoRollbackRequest) (resultData : JsonElement)
  | quarantineAfterCommandUncertainty (request : UndoRollbackRequest)
  | cancelBeforeCommand (request : UndoRollbackRequest)
  | invalidateAvailableForDocument (documentId : String)
  | getState (receiptId : String)

/-- What the call returned or threw. -/
inductive Answer where
  | registered (receipt : UndoRollbackReceipt)
  | began (begin : UndoRollbackBegin)
  | completed (result : UndoRollbackResult)
  | quarantined
  | cancelled
  | invalidated (any : Bool)
  | state (state : Option UndoRollbackState)
  | threw (error : RegistryError)

namespace UndoRollbackRegistry

/-- One call: what it answers and the registry after it. -/
def call (g : UndoRollbackRegistry) : Call → Answer × UndoRollbackRegistry
  | .register receipt =>
      match g.register receipt with
      | .ok (receipt, g') => (.registered receipt, g')
      | .error e => (.threw e, g)
  | .begin request =>
      match g.begin request with
      | .ok (begin, g') => (.began begin, g')
      | .error e => (.threw e, g)
  | .completeSuccess request resultData =>
      match g.completeSuccess request resultData with
      | .ok (result, g') => (.completed result, g')
      | .error e => (.threw e, g)
  | .quarantineAfterCommandUncertainty request =>
      match g.quarantineAfterCommandUncertainty request with
      | .ok g' => (.quarantined, g')
      | .error e => (.threw e, g)
  | .cancelBeforeCommand request =>
      match g.cancelBeforeCommand request with
      | .ok g' => (.cancelled, g')
      | .error e => (.threw e, g)
  | .invalidateAvailableForDocument documentId =>
      match g.invalidateAvailableForDocument documentId with
      | .ok (any, g') => (.invalidated any, g')
      | .error e => (.threw e, g)
  | .getState receiptId =>
      match g.getState receiptId with
      | .ok state => (.state state, g)
      | .error e => (.threw e, g)

/-- The registry of one process, from its construction on. -/
def system : System UndoRollbackRegistry (Call × Answer) where
  init g := ∃ processEpoch, new processEpoch = .ok g
  step g a g' := g.call a.1 = (a.2, g')

end UndoRollbackRegistry

end CadHarness.Undo
