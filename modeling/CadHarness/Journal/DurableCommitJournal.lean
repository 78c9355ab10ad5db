import CadHarness.Lib.Assoc
import CadHarness.Lib.DotNet
import CadHarness.Lib.Json
import Mathlib.Data.List.Sort

/-!
# The durable commit journal

The journal of the bridge's commits: one file for each reserved (job, idempotency key), which every
process of the bridge reads and replaces under one lock. A method is a function of what the operating
system answers during the call, the entries the process has cached, and the directory of files. The
changes it has made stay when it throws.
-/

namespace CadHarness.Journal
open CadHarness.Lib

inductive CommitJournalState where
  | prepared
  | committed
  | unknown
  deriving DecidableEq, Repr

inductive CommitJournalDecisionKind where
  | execute
  | replayCommitted
  | unknown
  | idempotencyKeyReused
  deriving DecidableEq, Repr

inductive BridgeHostOutcome where
  | ok
  | rejected
  | conflict
  | idempotencyKeyReused
  | failed
  | staleDocumentRevision
  | unknownCommitState
  | rollbackRecoveryRequired
  deriving DecidableEq, Repr

/-- The members of a JSON object. -/
abbrev JsonObject := List (String × Json String)

structure BridgeHostResult where
  outcome : BridgeHostOutcome
  data : Option JsonObject
  deriving DecidableEq

namespace BridgeHostResult

def success (data : JsonObject) : BridgeHostResult := ⟨.ok, some data⟩

end BridgeHostResult

structure CommitJournalDecision where
  kind : CommitJournalDecisionKind
  result : Option BridgeHostResult
  reservationId : Option String
  deriving DecidableEq

structure CommitJournalProcessIdentity where
  processId : Int
  startTimeUtcTicks : Int
  deriving DecidableEq

inductive CommitJournalProcessLiveness where
  | alive
  | dead
  | unknown
  deriving DecidableEq, Repr

structure JournalRecord where
  version : Int
  keyHash : String
  digest : String
  state : CommitJournalState
  ownerProcessId : Int
  ownerStartTimeUtcTicks : Int
  reservationId : String
  resultData : Option JsonObject
  deriving DecidableEq

structure JournalEnvelope where
  payload : JournalRecord
  authenticationTag : String
  deriving DecidableEq

inductive Exception where
  | argument (message : String)
  | invalidData (message : String)
  | invalidOperation (message : String)
  | io (message : String)
  deriving DecidableEq

/-- The files of the journal's root, by name. -/
abbrev Directory := List (String × JournalEnvelope)

/-- What a method works on: the entries the process has cached, and the files. -/
structure Session where
  records : List (String × JournalRecord)
  files : Directory
  deriving DecidableEq

abbrev JournalM := EStateM Exception Session

/-! ## What the journal is given -/

def isLowerHex (value : String) (length : Nat) : Bool :=
  DotNet.length value = length &&
    value.toList.all (fun c => ('0' ≤ c && c ≤ '9') || ('a' ≤ c && c ≤ 'f'))

/-- The hash of a text, the authentication tag of a record under the key of the root, and the number of
bytes of an entry. -/
structure Primitives where
  sha256 : String → String
  hmac : JournalRecord → String
  payloadLength : JournalEnvelope → Nat
  sha256_hex : ∀ s, isLowerHex (sha256 s) 64
  hmac_hex : ∀ r, isLowerHex (hmac r) 64

/-- How far the replacement of an entry's file gets. -/
inductive PersistOutcome where
  | failed
  | replacedThenFailed
  | done
  deriving DecidableEq, Repr

/-- What the operating system answers during one call. -/
structure Io where
  lockAcquired : Bool
  readable : String → Bool
  liveness : CommitJournalProcessIdentity → CommitJournalProcessLiveness
  currentKnown : Bool
  newGuid : String
  persist : String → PersistOutcome
  deleted : Bool
  newGuid_hex : isLowerHex newGuid 32

/-- Nothing fails during the call. -/
structure Io.Faultless (io : Io) : Prop where
  lockAcquired : io.lockAcquired = true
  readable : ∀ name, io.readable name = true
  currentKnown : io.currentKnown = true
  persist : ∀ name, io.persist name = .done
  deleted : io.deleted = true

/-! ## Constants and checks -/

def journalVersion : Int := 1

def maximumJournalBytes : Nat := 4 * 1024 * 1024

def maximumJournalEntries : Nat := 100000

def validateIdentity (jobId idempotencyKey digest : String) : JournalM Unit :=
  if DotNet.isNullOrWhiteSpace jobId || decide (64 < DotNet.length jobId) ||
      DotNet.isNullOrWhiteSpace idempotencyKey || decide (128 < DotNet.length idempotencyKey) ||
      !isLowerHex digest 64 then
    throw (.argument "The commit journal identity is invalid.")
  else
    pure ()

def validateLoadedRecord (fileName : String) (record : JournalRecord) : JournalM Unit :=
  if record.version ≠ journalVersion || record.keyHash ≠ fileName || !isLowerHex record.keyHash 64 ||
      !isLowerHex record.digest 64 || decide (record.ownerProcessId ≤ 0) ||
      decide (record.ownerStartTimeUtcTicks ≤ 0) || !isLowerHex record.reservationId 32 ||
      (decide (record.state = .committed) != record.resultData.isSome) then
    throw (.invalidData "The commit journal entry failed validation.")
  else
    pure ()

def computeKeyHash (P : Primitives) (jobId idempotencyKey : String) : String :=
  P.sha256 (jobId ++ "\x1f" ++ idempotencyKey)

/-- The data of a result without the job it was computed for. -/
def sanitizeData (data : JsonObject) : JsonObject := Assoc.remove data "job_id"

def sanitizeResultData (result : BridgeHostResult) : JournalM JsonObject :=
  match result.data with
  | some data => pure (sanitizeData data)
  | none => throw (.argument "The commit result has no data.")

def restoreResultData (persisted : JsonObject) (jobId : String) : JsonObject :=
  Assoc.set persisted "job_id" (.str jobId)

/-! ## Files -/

def acquireInterprocessLock (io : Io) : JournalM Unit :=
  if io.lockAcquired then pure ()
  else throw (.io "The commit journal lock could not be acquired.")

def validateAuthentication (P : Primitives) (envelope : JournalEnvelope) : JournalM Unit :=
  if !isLowerHex envelope.authenticationTag 64 then
    throw (.invalidData "The commit journal authentication tag is invalid.")
  else if P.hmac envelope.payload ≠ envelope.authenticationTag then
    throw (.invalidData "The commit journal entry failed authentication.")
  else
    pure ()

def readRecord (P : Primitives) (io : Io) (fileName : String) (envelope : JournalEnvelope) :
    JournalM JournalRecord := do
  if !isLowerHex fileName 64 then
    throw (.invalidData "The commit journal contains an unsafe entry name.")
  if P.payloadLength envelope = 0 || decide (maximumJournalBytes < P.payloadLength envelope) then
    throw (.invalidData "The commit journal entry size is invalid.")
  if !io.readable fileName then
    throw (.io "The commit journal entry could not be read.")
  validateAuthentication P envelope
  validateLoadedRecord fileName envelope.payload
  return envelope.payload

def refreshRecord (P : Primitives) (io : Io) (keyHash : String) : JournalM Unit := do
  match (← get).files.lookup keyHash with
  | none => modify (fun s => { s with records := Assoc.remove s.records keyHash })
  | some envelope =>
      let record ← readRecord P io keyHash envelope
      modify (fun s => { s with records := Assoc.set s.records keyHash record })

/-- The file of a record. -/
def envelope (P : Primitives) (record : JournalRecord) : JournalEnvelope := ⟨record, P.hmac record⟩

def persist (P : Primitives) (io : Io) (record : JournalRecord) : JournalM Unit := do
  let size := P.payloadLength (envelope P record)
  if size = 0 || decide (maximumJournalBytes < size) then
    throw (.invalidData "The commit journal entry size is invalid.")
  match io.persist record.keyHash with
  | .failed => throw (.io "The commit journal entry could not be written.")
  | .replacedThenFailed =>
      modify (fun s => { s with files := Assoc.set s.files record.keyHash (envelope P record) })
      throw (.io "The commit journal entry could not be flushed.")
  | .done => modify (fun s => { s with files := Assoc.set s.files record.keyHash (envelope P record) })

/-! ## Owners -/

def owner (record : JournalRecord) : CommitJournalProcessIdentity :=
  ⟨record.ownerProcessId, record.ownerStartTimeUtcTicks⟩

def isOwnerProvenDead (io : Io) (record : JournalRecord) : Bool :=
  io.liveness (owner record) = .dead

def current (io : Io) (process : CommitJournalProcessIdentity) : JournalM CommitJournalProcessIdentity :=
  if io.currentKnown then pure process
  else throw (.invalidOperation "The current process could not be inspected.")

def isOwnedReservation (io : Io) (process : CommitJournalProcessIdentity) (record : JournalRecord)
    (reservationId : String) : JournalM Bool := do
  let self ← current io process
  return record.reservationId = reservationId && record.ownerProcessId = self.processId &&
    record.ownerStartTimeUtcTicks = self.startTimeUtcTicks

def recoverAsUnknown (P : Primitives) (io : Io) (prepared : JournalRecord) : JournalM JournalRecord := do
  let unknown := { prepared with state := .unknown, resultData := none }
  persist P io unknown
  modify (fun s => { s with records := Assoc.set s.records unknown.keyHash unknown })
  return unknown

def requireMatchingRecord (keyHash digest : String) : JournalM JournalRecord := do
  match (← get).records.lookup keyHash with
  | none => throw (.invalidOperation "The commit was not prepared in the journal.")
  | some existing =>
      if existing.digest ≠ digest then
        throw (.invalidOperation "The idempotency key was prepared for another request digest.")
      return existing

/-! ## The methods -/

namespace DurableCommitJournal

/-- The decision on an entry that is there already. -/
def decideExisting (P : Primitives) (io : Io) (jobId digest : String) (existing : JournalRecord) :
    JournalM CommitJournalDecision := do
  if existing.digest ≠ digest then
    return ⟨.idempotencyKeyReused, none, none⟩
  let existing ←
    if existing.state = .prepared && isOwnerProvenDead io existing then recoverAsUnknown P io existing
    else pure existing
  match existing.state, existing.resultData with
  | .committed, some data =>
      return ⟨.replayCommitted, some (.success (restoreResultData data jobId)), none⟩
  | .prepared, _ | .unknown, _ => return ⟨.unknown, none, none⟩
  | .committed, none =>
      throw (.invalidData "The commit journal contains an invalid terminal record.")

/-- The record of a new reservation. -/
def preparedRecord (keyHash digest : String) (owner : CommitJournalProcessIdentity)
    (reservationId : String) : JournalRecord :=
  { version := journalVersion, keyHash := keyHash, digest := digest, state := .prepared,
    ownerProcessId := owner.processId, ownerStartTimeUtcTicks := owner.startTimeUtcTicks,
    reservationId := reservationId, resultData := none }

def begin (P : Primitives) (io : Io) (process : CommitJournalProcessIdentity)
    (jobId idempotencyKey digest : String) : JournalM CommitJournalDecision := do
  validateIdentity jobId idempotencyKey digest
  let keyHash := computeKeyHash P jobId idempotencyKey
  acquireInterprocessLock io
  refreshRecord P io keyHash
  match (← get).records.lookup keyHash with
  | some existing => decideExisting P io jobId digest existing
  | none =>
      let owner ← current io process
      let prepared := preparedRecord keyHash digest owner io.newGuid
      persist P io prepared
      modify (fun s => { s with records := Assoc.set s.records keyHash prepared })
      return ⟨.execute, none, some io.newGuid⟩

def transition (P : Primitives) (io : Io) (process : CommitJournalProcessIdentity)
    (jobId idempotencyKey digest reservationId : String) (state : CommitJournalState)
    (result : Option BridgeHostResult) : JournalM Unit := do
  validateIdentity jobId idempotencyKey digest
  let keyHash := computeKeyHash P jobId idempotencyKey
  acquireInterprocessLock io
  refreshRecord P io keyHash
  let existing ← requireMatchingRecord keyHash digest
  if existing.state ≠ .prepared then
    throw (.invalidOperation "Only the owning process can complete its prepared reservation.")
  if !(← isOwnedReservation io process existing reservationId) then
    throw (.invalidOperation "Only the owning process can complete its prepared reservation.")
  let resultData ← match result with
    | none => pure none
    | some result => some <$> sanitizeResultData result
  let replacement := { existing with state := state, resultData := resultData }
  persist P io replacement
  modify (fun s => { s with records := Assoc.set s.records keyHash replacement })

def markCommitted (P : Primitives) (io : Io) (process : CommitJournalProcessIdentity)
    (jobId idempotencyKey digest reservationId : String) (result : BridgeHostResult) : JournalM Unit := do
  if result.outcome ≠ .ok || result.data.isNone then
    throw (.argument "Only a successful commit receipt can be journaled as committed.")
  transition P io process jobId idempotencyKey digest reservationId .committed (some result)

def markUnknown (P : Primitives) (io : Io) (process : CommitJournalProcessIdentity)
    (jobId idempotencyKey digest reservationId : String) : JournalM Unit :=
  transition P io process jobId idempotencyKey digest reservationId .unknown none

def abandon (P : Primitives) (io : Io) (process : CommitJournalProcessIdentity)
    (jobId idempotencyKey digest reservationId : String) : JournalM Unit := do
  validateIdentity jobId idempotencyKey digest
  let keyHash := computeKeyHash P jobId idempotencyKey
  acquireInterprocessLock io
  refreshRecord P io keyHash
  let existing ← requireMatchingRecord keyHash digest
  if existing.state ≠ .prepared then
    throw (.invalidOperation "Only the owning process can abandon its prepared reservation.")
  if !(← isOwnedReservation io process existing reservationId) then
    throw (.invalidOperation "Only the owning process can abandon its prepared reservation.")
  if !io.deleted then
    throw (.io "The commit journal entry could not be deleted.")
  modify (fun s => { s with
    files := Assoc.remove s.files keyHash
    records := Assoc.remove s.records keyHash })

/-- The entries of the files of these names, read into the cache in that order. -/
def loadRecords (P : Primitives) (io : Io) : List String → JournalM Unit
  | [] => pure ()
  | name :: rest => do
      match (← get).files.lookup name with
      | none => throw (.io "The commit journal entry could not be read.")
      | some envelope =>
          let record ← readRecord P io name envelope
          if ((← get).records.lookup record.keyHash).isSome then
            throw (.invalidData "The commit journal contains a duplicate entry.")
          modify (fun s => { s with records := Assoc.set s.records record.keyHash record })
          loadRecords P io rest

def recoverRecords (P : Primitives) (io : Io) : List (String × JournalRecord) → JournalM Unit
  | [] => pure ()
  | (_, record) :: rest => do
      if record.state = .prepared && isOwnerProvenDead io record then
        let _ ← recoverAsUnknown P io record
      recoverRecords P io rest

def loadAndRecover (P : Primitives) (io : Io) : JournalM Unit := do
  let names := ((← get).files.map Prod.fst).insertionSort (· ≤ ·)
  if maximumJournalEntries < names.length then
    throw (.invalidData "The commit journal entry limit was exceeded.")
  loadRecords P io names
  recoverRecords P io (← get).records

/-- The constructor: what a process does with the journal before its first request. -/
def new (P : Primitives) (io : Io) : JournalM Unit := do
  acquireInterprocessLock io
  loadAndRecover P io

end DurableCommitJournal

end CadHarness.Journal
