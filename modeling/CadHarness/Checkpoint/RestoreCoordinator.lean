import CadHarness.Checkpoint.CatalogStore
import CadHarness.Lib.Pool

/-!
# The durable restore coordinator

The coordinator puts the drawing of a checkpoint in the place of the drawing that is open. A journal entry
for each approval says how far it has come. Any number of calls run in any number of processes, and each of
them may die between two operations: the next call goes on from the entry and from the files it finds.
-/

namespace CadHarness.Checkpoint
open CadHarness.Lib

inductive DurableCheckpointRestoreState where
  | prepared
  | replaced
  | verified
  | committed
  | quarantined
  deriving DecidableEq, Repr

inductive DurableCheckpointRestoreOutcome where
  | completed
  | replayed
  | cancelled
  | rejected
  | scopeConflict
  | recoveryRequired
  | quarantined
  deriving DecidableEq, Repr

structure ValidatedRollbackAuthorization where
  approvalId : String
  approvalTokenDigest : String
  jobId : String
  documentId : String
  checkpointId : String
  preRevision : String
  postRevision : String
  deriving DecidableEq

/-- A file by its directory and its name there. Spellings that the platform takes for one path are one path. -/
structure FilePath where
  directory : String
  fileName : String
  deriving DecidableEq

/-- `ResolveDirectChild` of the directory of a path; a safe artifact name has no directory. -/
def FilePath.sibling (path : FilePath) (fileName : String) : FilePath := ⟨path.directory, fileName⟩

structure DurableCheckpointRestoreRequest where
  authorization : ValidatedRollbackAuthorization
  targetPath : FilePath
  deriving DecidableEq

structure DurableCheckpointRestoreResult where
  outcome : DurableCheckpointRestoreOutcome
  state : Option DurableCheckpointRestoreState := none
  restoredRevision : Option String := none
  deriving DecidableEq

structure DurableRestoreDocumentSnapshot where
  documentId : String
  revision : String
  originalPathHash : String
  isOpen : Bool
  deriving DecidableEq

structure FileFacts where
  sha256 : String
  byteLength : Int
  deriving DecidableEq

structure RestoreJournalRecord where
  version : Int
  approvalKeyHash : String
  scopeDigest : String
  state : DurableCheckpointRestoreState
  checkpointSha256 : String
  checkpointByteLength : Int
  postSha256 : String
  postByteLength : Int
  stageFileName : String
  backupFileName : String
  protectedTargetLocator : String
  deriving DecidableEq

/-- The classes of exceptions that the coordinator tells apart. -/
inductive RestoreException where
  | argument (message : String)
  | io
  | invalidData (message : String)
  | invalidOperation (message : String)
  | unauthorizedAccess
  | operationCanceled
  | other
  deriving DecidableEq

namespace RestoreException

/-- `ObjectDisposedException` is an `InvalidOperationException`. -/
def ofCatalog : Exception → RestoreException
  | .argument message => .argument message
  | .invalidData message => .invalidData message
  | .invalidOperation message => .invalidOperation message
  | .keyNotFound _ | .overflow => .other
  | .io _ => .io
  | .objectDisposed => .invalidOperation "Cannot access a disposed object."

/-- `IOException or InvalidDataException` -/
def isFileError : RestoreException → Bool
  | .io | .invalidData _ => true
  | _ => false

/-- `IOException or InvalidDataException or UnauthorizedAccessException` -/
def isAccessError : RestoreException → Bool
  | .unauthorizedAccess => true
  | e => e.isFileError

/-- `IOException or InvalidDataException or InvalidOperationException` -/
def isAttemptError : RestoreException → Bool
  | .invalidOperation _ => true
  | e => e.isFileError

end RestoreException

/-! ## Digests and names -/

/-- What the coordinator is given: SHA-256 in lower-case hexadecimal digits, and the hash of a path. -/
structure RestorePrimitives where
  catalog : Primitives
  sha256 : String → String
  originalPathHash : FilePath → String
  sha256_length : ∀ text, (sha256 text).length = 64

variable (P : RestorePrimitives)

def computeApprovalKeyHash (approvalId : String) : String :=
  P.sha256 ("cad-harness-restore-approval-v1\x00" ++ approvalId)

def computeRecordedScopeDigest (authorization : ValidatedRollbackAuthorization) (checkpoint : DurableCheckpointRecord)
    (pathHash : String) : Except RestoreException String :=
  if authorization.jobId ≠ checkpoint.jobId ∨ authorization.documentId ≠ checkpoint.documentId ∨
      authorization.checkpointId ≠ checkpoint.checkpointId ∨ authorization.preRevision ≠ checkpoint.preRevision then
    .error (.argument "The validated rollback authorization does not match the checkpoint scope.")
  else if pathHash ≠ checkpoint.originalPathHash then
    .error (.argument "The recorded restore path hash does not match the checkpoint scope.")
  else
    .ok (P.sha256 ("\x1f".intercalate ["cad-harness-checkpoint-restore-v1", authorization.approvalId,
      authorization.approvalTokenDigest, authorization.jobId, authorization.documentId, authorization.checkpointId,
      authorization.preRevision, authorization.postRevision, checkpoint.sha256, toString checkpoint.byteLength,
      checkpoint.dwgVersion, pathHash]))

def computeScopeDigest (authorization : ValidatedRollbackAuthorization) (checkpoint : DurableCheckpointRecord)
    (targetPath : FilePath) : Except RestoreException String :=
  if P.originalPathHash targetPath ≠ checkpoint.originalPathHash then
    .error (.argument "The restore target does not match the checkpoint document path.")
  else computeRecordedScopeDigest P authorization checkpoint (P.originalPathHash targetPath)

/-- `text[..count]` -/
def firstChars (text : String) (count : Nat) : String := String.ofList (text.toList.take count)

/-- What the names of all restore artifacts begin with. -/
def artifactPrefix : String := ".cad-harness-restore-"

def artifactFileName (approvalKeyHash scopeDigest suffix : String) : String :=
  artifactPrefix ++ firstChars approvalKeyHash 24 ++ "-" ++ firstChars scopeDigest 16 ++ suffix

def stageFileName (approvalKeyHash scopeDigest : String) : String :=
  artifactFileName approvalKeyHash scopeDigest ".stage.dwg"

def backupFileName (approvalKeyHash scopeDigest : String) : String :=
  artifactFileName approvalKeyHash scopeDigest ".backup.dwg"

/-! ## Checks -/

def validateRestoreIdentifier (value : String) : Except RestoreException Unit :=
  if isIdentifier value then .ok () else .error (.argument "A restore identifier is invalid.")

def validateRestoreRevision (value : String) : Except RestoreException Unit :=
  if DotNet.isNullOrWhiteSpace value ∨ 256 < DotNet.length value ∨ value.toList.any DotNet.isControl = true then
    .error (.argument "A restore revision is invalid.")
  else .ok ()

def validateAuthorization (authorization : ValidatedRollbackAuthorization) : Except RestoreException Unit := do
  validateRestoreIdentifier authorization.approvalId
  if !isLowerHex authorization.approvalTokenDigest 64 then
    throw (.argument "The rollback approval token digest is invalid.")
  validateRestoreIdentifier authorization.jobId
  validateRestoreIdentifier authorization.documentId
  validateRestoreIdentifier authorization.checkpointId
  validateRestoreRevision authorization.preRevision
  validateRestoreRevision authorization.postRevision
  if authorization.preRevision = authorization.postRevision then
    throw (.argument "Restore revisions must describe an actual change.")

def snapshotMatches (snapshot : DurableRestoreDocumentSnapshot) (documentId revision originalPathHash : String) : Bool :=
  snapshot.isOpen && snapshot.documentId = documentId && snapshot.revision = revision &&
    snapshot.originalPathHash = originalPathHash

/-- The facts of the checkpoint that an entry restores. -/
def RestoreJournalRecord.checkpointFacts (journal : RestoreJournalRecord) : FileFacts :=
  ⟨journal.checkpointSha256, journal.checkpointByteLength⟩

/-- The facts of the drawing that it replaces. -/
def RestoreJournalRecord.postFacts (journal : RestoreJournalRecord) : FileFacts :=
  ⟨journal.postSha256, journal.postByteLength⟩

/-! ## The journal -/

namespace RestoreJournal

def isAllowedTransition : DurableCheckpointRestoreState → DurableCheckpointRestoreState → Bool
  | .prepared, .replaced | .prepared, .quarantined | .replaced, .verified | .replaced, .quarantined
  | .verified, .committed | .verified, .quarantined => true
  | _, _ => false

/-- What `Transition` makes of the entry it reads. -/
def transition (current : RestoreJournalRecord) (scopeDigest : String)
    (expected next : DurableCheckpointRestoreState) : Except RestoreException RestoreJournalRecord :=
  if current.scopeDigest ≠ scopeDigest then .error (.invalidOperation "The restore scope digest changed.")
  else if current.state = next then .ok current
  else if current.state ≠ expected ∨ isAllowedTransition expected next = false then
    .error (.invalidOperation "The restore journal transition is invalid.")
  else .ok { current with state := next }

/-- What `Quarantine` makes of the entry it reads. -/
def quarantine (current : RestoreJournalRecord) (scopeDigest : String) :
    Except RestoreException RestoreJournalRecord :=
  if current.scopeDigest ≠ scopeDigest then .error (.invalidOperation "The restore scope digest changed.")
  else if current.state = .quarantined then .ok current
  else if current.state = .committed then .error (.invalidOperation "A committed restore is terminal.")
  else .ok { current with state := .quarantined }

def currentVersion : Int := 1

end RestoreJournal

/-! ## Operations -/

/-- What a call does outside itself: the file system, the catalog, the journal, and the open document. -/
inductive RestoreOp where
  | validateTargetPath (path : FilePath)
  | catalog (call : CatalogCall)
  | acquireExecutionLock
  | releaseExecutionLock
  | tryGet (approvalId : String)
  | createPrepared (approvalId : String) (record : RestoreJournalRecord)
  | transition (approvalId scopeDigest : String) (expected next : DurableCheckpointRestoreState)
  | quarantine (approvalId scopeDigest : String)
  | protectTargetLocator (path : FilePath) (approvalKeyHash scopeDigest : String)
  | readDwgFacts (path : FilePath)
  | readArtifactFacts (fileName : String)
  | fileExists (path : FilePath)
  | copyDurably (artifactFileName : String) (destination : FilePath)
  | replaceDurably (stagePath targetPath backupPath : FilePath)
  | delete (path : FilePath)
  | inspect (path : FilePath)
  | closeWithoutSave (path : FilePath)
  | reopen (path : FilePath)
  | isCancellationRequested

abbrev RestoreOp.Value : RestoreOp → Type
  | .catalog _ => CatalogReply
  | .tryGet _ => Option RestoreJournalRecord
  | .transition .. | .quarantine .. => RestoreJournalRecord
  | .protectTargetLocator .. => String
  | .readDwgFacts _ | .readArtifactFacts _ => FileFacts
  | .fileExists _ | .isCancellationRequested => Bool
  | .inspect _ => DurableRestoreDocumentSnapshot
  | _ => Unit

def restoreSig : Sig := ⟨RestoreOp, fun o => Except RestoreException o.Value⟩

abbrev RestoreM := ExceptT RestoreException (Prog restoreSig)

namespace DurableCheckpointRestoreCoordinator

def task (o : RestoreOp) : RestoreM o.Value := ExceptT.mk (Prog.perform (S := restoreSig) o)

def ofExcept {α : Type} (r : Except RestoreException α) : RestoreM α := ExceptT.mk (.ret r)

/-- A call on the catalog that returns a record. -/
def catalogRecord (call : CatalogCall) : RestoreM DurableCheckpointRecord := do
  match ← task (.catalog call) with
  | .record record => return record
  | .records _ => throw .other

/-! ## Files -/

def tryReadDwgFacts (path : FilePath) : RestoreM (Option FileFacts) := do
  if ← task (.fileExists path) then
    tryCatch (some <$> task (.readDwgFacts path)) fun e =>
      if e.isAccessError then return none else throw e
  else return none

/-- `FactsMatch` of what is read of a file -/
def hasFacts (path : FilePath) (facts : FileFacts) : RestoreM Bool := do
  let actual ← task (.readDwgFacts path)
  return actual = facts

/-- A document that matches, with a file of these facts; the file is read only where the document matches. -/
def matchesFacts (live : Bool) (path : FilePath) (facts : FileFacts) : RestoreM Bool :=
  if live then hasFacts path facts else return false

def deleteExisting (path : FilePath) : RestoreM Unit := do
  if ← task (.fileExists path) then
    task (.delete path)

def tryDelete (path : FilePath) : RestoreM Unit := tryCatch (deleteExisting path) fun _ => return ()

def deleteCommittedArtifact (path : FilePath) : RestoreM Unit := do
  deleteExisting path
  if ← task (.fileExists path) then
    throw .io

def tryCleanupCommittedArtifacts (stagePath backupPath : FilePath) : RestoreM Bool :=
  tryCatch
    (do
      deleteCommittedArtifact stagePath
      deleteCommittedArtifact backupPath
      let stageExists ← task (.fileExists stagePath)
      let backupExists ← task (.fileExists backupPath)
      return !stageExists && !backupExists)
    (fun e => if e.isAccessError then return false else throw e)

def ensureAbsentOrMatchingStage (stagePath : FilePath) (expected : FileFacts) : RestoreM Unit := do
  if ← task (.fileExists stagePath) then
    let facts ← task (.readDwgFacts stagePath)
    if facts ≠ expected then
      throw (.invalidData "An existing restore stage does not match the checkpoint.")

inductive PreparedEvidence where
  | notReplaced
  | replaced
  | ambiguous
  deriving DecidableEq

def classify (journal : RestoreJournalRecord) (target stage backup : Option FileFacts) : PreparedEvidence :=
  if target = some journal.postFacts ∧ stage = some journal.checkpointFacts ∧ backup = none then .notReplaced
  else if target = some journal.checkpointFacts ∧ stage = none ∧ backup = some journal.postFacts then .replaced
  else .ambiguous

def classifyPreparedEvidence (targetPath : FilePath) (journal : RestoreJournalRecord) : RestoreM PreparedEvidence := do
  let target ← tryReadDwgFacts targetPath
  let stage ← tryReadDwgFacts (targetPath.sibling journal.stageFileName)
  let backup ← tryReadDwgFacts (targetPath.sibling journal.backupFileName)
  return classify journal target stage backup

def replacementFactsMatch (targetPath : FilePath) (journal : RestoreJournalRecord) : RestoreM Bool := do
  let target ← tryReadDwgFacts targetPath
  let backup ← tryReadDwgFacts (targetPath.sibling journal.backupFileName)
  return target = some journal.checkpointFacts && backup = some journal.postFacts

/-! ## Quarantine and replay -/

def tryQuarantineCatalog (checkpointId : String) : RestoreM Unit :=
  tryCatch
    (do
      let record ← catalogRecord (.getRequired checkpointId)
      if record.Active then
        let _ ← catalogRecord (.quarantine checkpointId))
    (fun _ => return ())

def quarantineAttempt (approvalId checkpointId : String) (journal : RestoreJournalRecord) :
    RestoreM DurableCheckpointRestoreResult := do
  tryCatch
    (do
      if journal.state ≠ .quarantined then
        let _ ← task (.quarantine approvalId journal.scopeDigest))
    (fun _ => return ())
  tryQuarantineCatalog checkpointId
  return { outcome := .quarantined, state := some .quarantined }

def quarantineBeforeReplacement (approvalId checkpointId : String) (journal : RestoreJournalRecord)
    (stagePath : FilePath) : RestoreM DurableCheckpointRestoreResult := do
  let quarantined ← tryCatch
    (do
      let _ ← task (.quarantine approvalId journal.scopeDigest)
      return true)
    (fun _ => return false)
  if quarantined then
    tryQuarantineCatalog checkpointId
    tryDelete stagePath
    return { outcome := .quarantined, state := some .quarantined }
  else return { outcome := .recoveryRequired, state := some journal.state }

def replayCommitted (authorization : ValidatedRollbackAuthorization) (targetPath : FilePath)
    (journal : RestoreJournalRecord) : RestoreM DurableCheckpointRestoreResult := do
  if ← tryCleanupCommittedArtifacts (targetPath.sibling journal.stageFileName)
      (targetPath.sibling journal.backupFileName) then
    return { outcome := .replayed, state := some .committed, restoredRevision := some authorization.preRevision }
  else return { outcome := .recoveryRequired, state := some .committed }

/-! ## The phases of an attempt -/

/-- A phase ends the call, or hands its journal entry to the next one. -/
abbrev Phase := RestoreM (DurableCheckpointRestoreResult ⊕ RestoreJournalRecord)

/-- A transition of the entry, or the end of the call when it fails with an exception that is caught. -/
def advance (approvalId : String) (journal : RestoreJournalRecord) (expected next : DurableCheckpointRestoreState)
    (caught : RestoreException → Bool) : Phase :=
  tryCatch (.inr <$> task (.transition approvalId journal.scopeDigest expected next))
    (fun e =>
      if caught e then return .inl { outcome := .recoveryRequired, state := some expected } else throw e)

/-- A prepared entry whose replacement is on the disk already. -/
def settlePrepared (request : DurableCheckpointRestoreRequest) (checkpoint : DurableCheckpointRecord)
    (journal : RestoreJournalRecord) : Phase := do
  if journal.state ≠ .prepared then return .inr journal
  let approvalId := request.authorization.approvalId
  match ← classifyPreparedEvidence request.targetPath journal with
  | .replaced => advance approvalId journal .prepared .replaced (· = .io)
  | .notReplaced => return .inr journal
  | .ambiguous => .inl <$> quarantineAttempt approvalId checkpoint.checkpointId journal

/-- Inspect the document, reopening it first where it is closed. An exception ends the call. -/
def inspectOpen (targetPath : FilePath) (journal : RestoreJournalRecord) :
    RestoreM (DurableCheckpointRestoreResult ⊕ DurableRestoreDocumentSnapshot) :=
  tryCatch
    (do
      let before ← task (.inspect targetPath)
      if before.isOpen then return .inr before
      task (.reopen targetPath)
      .inr <$> task (.inspect targetPath))
    (fun e =>
      let outcome := if e = .operationCanceled then .cancelled else .recoveryRequired
      return .inl { outcome, state := some journal.state })

/-- Close the document and replace its file. `none` when that is done, as far as the files tell. -/
def closeAndReplace (request : DurableCheckpointRestoreRequest) (checkpoint : DurableCheckpointRecord)
    (journal : RestoreJournalRecord) : RestoreM (Option DurableCheckpointRestoreResult) :=
  let targetPath := request.targetPath
  tryCatch
    (do
      task (.closeWithoutSave targetPath)
      task (.replaceDurably (targetPath.sibling journal.stageFileName) targetPath
        (targetPath.sibling journal.backupFileName))
      return none)
    (fun _ => do
      match ← classifyPreparedEvidence targetPath journal with
      | .replaced => return none
      | .notReplaced => return some { outcome := .recoveryRequired, state := some journal.state }
      | .ambiguous => some <$> quarantineAttempt request.authorization.approvalId checkpoint.checkpointId journal)

def reopenAndInspect (targetPath : FilePath) : RestoreM DurableRestoreDocumentSnapshot := do
  task (.reopen targetPath)
  task (.inspect targetPath)

/-- What an inspection finds, or `none` when the host fails. -/
def tryInspect (inspection : RestoreM DurableRestoreDocumentSnapshot) :
    RestoreM (Option DurableRestoreDocumentSnapshot) :=
  tryCatch (some <$> inspection) fun _ => return none

def replacePrepared (request : DurableCheckpointRestoreRequest) (checkpoint : DurableCheckpointRecord)
    (journal : RestoreJournalRecord) : Phase := do
  if journal.state ≠ .prepared then return .inr journal
  let authorization := request.authorization
  let targetPath := request.targetPath
  if ¬ checkpoint.Active then
    return .inl (← quarantineAttempt authorization.approvalId checkpoint.checkpointId journal)
  let _ ← catalogRecord (.beginRestore checkpoint.checkpointId)
  match ← inspectOpen targetPath journal with
  | .inl result => return .inl result
  | .inr before =>
      let live := snapshotMatches before authorization.documentId authorization.postRevision checkpoint.originalPathHash
      if !(← matchesFacts live targetPath journal.postFacts) then
        return .inl (← quarantineBeforeReplacement authorization.approvalId checkpoint.checkpointId journal
          (targetPath.sibling journal.stageFileName))
      if ← task .isCancellationRequested then
        return .inl { outcome := .cancelled, state := some journal.state }
      match ← closeAndReplace request checkpoint journal with
      | some result => return .inl result
      | none => advance authorization.approvalId journal .prepared .replaced (fun _ => true)

def verifyReplaced (request : DurableCheckpointRestoreRequest) (checkpoint : DurableCheckpointRecord)
    (journal : RestoreJournalRecord) : Phase := do
  if journal.state ≠ .replaced then return .inr journal
  let authorization := request.authorization
  let targetPath := request.targetPath
  if !(← replacementFactsMatch targetPath journal) then
    return .inl (← quarantineAttempt authorization.approvalId checkpoint.checkpointId journal)
  match ← tryInspect (reopenAndInspect targetPath) with
  | none => return .inl { outcome := .recoveryRequired, state := some journal.state }
  | some after =>
      let live := snapshotMatches after authorization.documentId authorization.preRevision checkpoint.originalPathHash
      if !(← matchesFacts live targetPath journal.checkpointFacts) then
        return .inl (← quarantineAttempt authorization.approvalId checkpoint.checkpointId journal)
      advance authorization.approvalId journal .replaced .verified (fun _ => true)

/-- Consume the checkpoint; false when it can be consumed no more. -/
def consume (checkpointId : String) : RestoreM Bool := do
  let current ← catalogRecord (.getRequired checkpointId)
  if current.state = .restoring then
    let _ ← catalogRecord (.complete checkpointId)
    return true
  else return current.state = .consumed

/-- Consume the checkpoint and commit the entry: the entry that results, or nothing when the attempt is to be
quarantined; any exception asks for recovery. -/
def commitEntry (authorization : ValidatedRollbackAuthorization) (checkpointId : String)
    (journal : RestoreJournalRecord) : RestoreM (DurableCheckpointRestoreResult ⊕ Option RestoreJournalRecord) :=
  tryCatch
    (do
      if ← consume checkpointId then
        let committed ← task (.transition authorization.approvalId journal.scopeDigest .verified .committed)
        return .inr (some committed)
      else return .inr none)
    (fun _ => return .inl { outcome := .recoveryRequired, state := some .verified })

def commitVerified (request : DurableCheckpointRestoreRequest) (checkpoint : DurableCheckpointRecord)
    (journal : RestoreJournalRecord) : RestoreM DurableCheckpointRestoreResult := do
  let authorization := request.authorization
  let targetPath := request.targetPath
  let quarantine := quarantineAttempt authorization.approvalId checkpoint.checkpointId journal
  if journal.state ≠ .verified then
    if journal.state = .committed then replayCommitted authorization targetPath journal else quarantine
  else
    if !(← hasFacts targetPath journal.checkpointFacts) then quarantine
    else
      match ← tryInspect (task (.inspect targetPath)) with
      | none => return { outcome := .recoveryRequired, state := some journal.state }
      | some verified =>
          if !snapshotMatches verified authorization.documentId authorization.preRevision
              checkpoint.originalPathHash then quarantine
          else
            match ← commitEntry authorization checkpoint.checkpointId journal with
            | .inl result => return result
            | .inr none => quarantine
            | .inr (some committed) =>
                if ← tryCleanupCommittedArtifacts (targetPath.sibling journal.stageFileName)
                    (targetPath.sibling journal.backupFileName) then
                  return { outcome := .completed, state := some committed.state,
                           restoredRevision := some authorization.preRevision }
                else return { outcome := .recoveryRequired, state := some .committed }

def resumeAsync (request : DurableCheckpointRestoreRequest) (checkpoint : DurableCheckpointRecord)
    (journal : RestoreJournalRecord) : RestoreM DurableCheckpointRestoreResult := do
  match ← settlePrepared request checkpoint journal with
  | .inl result => return result
  | .inr journal =>
      match ← replacePrepared request checkpoint journal with
      | .inl result => return result
      | .inr journal =>
          match ← verifyReplaced request checkpoint journal with
          | .inl result => return result
          | .inr journal => commitVerified request checkpoint journal

/-! ## Calls -/

/-- The facts of a file, or `none` when it cannot be read or is no drawing. -/
def readFacts (read : RestoreM FileFacts) : RestoreM (Option FileFacts) :=
  tryCatch (some <$> read) (fun e => if e.isFileError then return none else throw e)

/-- The entry that a reservation writes. -/
def preparedRecord (approvalId scopeDigest : String) (checkpoint : DurableCheckpointRecord) (targetFacts : FileFacts)
    (protectedTargetLocator : String) : RestoreJournalRecord where
  version := RestoreJournal.currentVersion
  approvalKeyHash := computeApprovalKeyHash P approvalId
  scopeDigest := scopeDigest
  state := .prepared
  checkpointSha256 := checkpoint.sha256
  checkpointByteLength := checkpoint.byteLength
  postSha256 := targetFacts.sha256
  postByteLength := targetFacts.byteLength
  stageFileName := stageFileName (computeApprovalKeyHash P approvalId) scopeDigest
  backupFileName := backupFileName (computeApprovalKeyHash P approvalId) scopeDigest
  protectedTargetLocator := protectedTargetLocator

def copyWhereAbsent (artifactFileName : String) (path : FilePath) : RestoreM Unit := do
  if !(← task (.fileExists path)) then
    task (.copyDurably artifactFileName path)

/-- Stage the checkpoint beside the target. -/
def stage (checkpoint : DurableCheckpointRecord) (checkpointFacts : FileFacts) (stagePath backupPath : FilePath) :
    RestoreM Unit := do
  ensureAbsentOrMatchingStage stagePath checkpointFacts
  if ← task (.fileExists backupPath) then
    throw (.invalidData "A restore backup already exists before reservation.")
  copyWhereAbsent checkpoint.checkpointFileName stagePath
  let staged ← task (.readDwgFacts stagePath)
  if ¬ staged = checkpointFacts then
    throw (.invalidData "The staged checkpoint failed hash verification.")

/-- The handlers of an attempt: what is left of it decides between recovery and rejection. -/
def failedAttempt (approvalId : String) (stagePath : FilePath) (e : RestoreException) :
    RestoreM DurableCheckpointRestoreResult := do
  if e = .operationCanceled then
    let prepared ← task (.tryGet approvalId)
    return { outcome := .cancelled, state := prepared.map (·.state) }
  else if e.isAttemptError then
    match ← task (.tryGet approvalId) with
    | some journal => return { outcome := .recoveryRequired, state := some journal.state }
    | none =>
        tryDelete stagePath
        return { outcome := .rejected }
  else throw e

def prepareAndRestoreAsync (request : DurableCheckpointRestoreRequest) (checkpoint : DurableCheckpointRecord)
    (scopeDigest : String) : RestoreM DurableCheckpointRestoreResult := do
  let approvalId := request.authorization.approvalId
  let targetPath := request.targetPath
  match ← readFacts (task (.readDwgFacts targetPath)) with
  | none => return { outcome := .rejected }
  | some targetFacts =>
      let checkpointFacts : FileFacts := ⟨checkpoint.sha256, checkpoint.byteLength⟩
      if (← readFacts (task (.readArtifactFacts checkpoint.checkpointFileName))) ≠ some checkpointFacts then
        tryQuarantineCatalog checkpoint.checkpointId
        return { outcome := .quarantined, state := some .quarantined }
      let keyHash := computeApprovalKeyHash P approvalId
      let stagePath := targetPath.sibling (stageFileName keyHash scopeDigest)
      let backupPath := targetPath.sibling (backupFileName keyHash scopeDigest)
      tryCatch
        (do
          stage checkpoint checkpointFacts stagePath backupPath
          let locator ← task (.protectTargetLocator targetPath keyHash scopeDigest)
          let prepared := preparedRecord P approvalId scopeDigest checkpoint targetFacts locator
          task (.createPrepared approvalId prepared)
          let _ ← catalogRecord (.beginRestore checkpoint.checkpointId)
          resumeAsync request checkpoint prepared)
        (failedAttempt approvalId stagePath)

/-- What a call does while it holds the lock. -/
def restoreUnderLock (request : DurableCheckpointRestoreRequest) (checkpoint : DurableCheckpointRecord)
    (scopeDigest : String) : RestoreM DurableCheckpointRestoreResult := do
  match ← task (.tryGet request.authorization.approvalId) with
  | some existing =>
      if existing.scopeDigest ≠ scopeDigest then
        return { outcome := .scopeConflict, state := some existing.state }
      if existing.state = .committed then
        replayCommitted request.authorization request.targetPath existing
      else if existing.state = .quarantined then
        tryQuarantineCatalog checkpoint.checkpointId
        return { outcome := .quarantined, state := some existing.state }
      else resumeAsync request checkpoint existing
  | none =>
      if checkpoint.state ≠ .available then return { outcome := .rejected }
      if ← task .isCancellationRequested then return { outcome := .cancelled }
      prepareAndRestoreAsync P request checkpoint scopeDigest

/-- `await using` the lock: it is released however the body ends. -/
def holdingLock {α : Type} (body : RestoreM α) : RestoreM α := ExceptT.mk do
  let result ← body.run
  let _ ← (task .releaseExecutionLock).run
  return result

/-- False when another call holds the lock. -/
def tryAcquireExecutionLock : RestoreM Bool :=
  tryCatch
    (do
      task .acquireExecutionLock
      return true)
    (fun e => if e = .io then return false else throw e)

def restoreAsync (request : DurableCheckpointRestoreRequest) : RestoreM DurableCheckpointRestoreResult := do
  ofExcept (validateAuthorization request.authorization)
  task (.validateTargetPath request.targetPath)
  let checkpoint ← catalogRecord (.getRequired request.authorization.checkpointId)
  let scopeDigest ← ofExcept (computeScopeDigest P request.authorization checkpoint request.targetPath)
  if !(← tryAcquireExecutionLock) then return { outcome := .recoveryRequired }
  holdingLock (restoreUnderLock P request checkpoint scopeDigest)

end DurableCheckpointRestoreCoordinator

/-! ## Processes over one root -/

inductive ProcessStatus where
  | absent
  | running
  | exited

/-- A replacement of a drawing: who made it, the files it moved, and the bytes that it took out of place. -/
structure Replacement (β : Type) where
  approvalId : String
  stagePath : FilePath
  targetPath : FilePath
  backupPath : FilePath
  displaced : β

/-- What the calls share: the store of the catalog, the files by path, the entries by the hash of their
approval, the execution lock, and the processes. The replacements so far are recorded for the record; nothing
reads them. -/
structure RestoreSite (β : Type) where
  store : Store
  files : FilePath → Option β
  journal : String → Option RestoreJournalRecord
  lock : Option Nat
  process : Nat → ProcessStatus
  replaced : List (Replacement β)

/-- A request, and the process that serves it. -/
structure RestoreCall where
  process : Nat
  request : DurableCheckpointRestoreRequest

namespace RestoreSite

variable {β : Type} (view : β → Option FileFacts)

def Alive (s : RestoreSite β) (p : Nat) : Prop := s.process p = .running

def setFile (s : RestoreSite β) (path : FilePath) (content : Option β) : RestoreSite β :=
  { s with files := Function.update s.files path content }

def setEntry (s : RestoreSite β) (key : String) (record : RestoreJournalRecord) : RestoreSite β :=
  { s with journal := Function.update s.journal key (some record) }

def setLock (s : RestoreSite β) (lock : Option Nat) : RestoreSite β := { s with lock := lock }

/-- The operation failed. Only the document's host observes a cancellation. -/
def Failed {α : Type} (r : Except RestoreException α) : Prop := ∃ e, r = .error e ∧ e ≠ .operationCanceled

/-- What reading a staged checkpoint comes to: the catalog calls a file of six bytes no drawing, the coordinator
does not. -/
def Reads (artifact : Artifact) (facts : FileFacts) : Prop :=
  match artifact with
  | .dwg known => facts = ⟨known.sha256, known.byteLength⟩
  | .notDwg => facts.byteLength ≤ 6
  | .unreadable => False

/-- An entry is read, changed by `f`, and persisted: it is on the disk as a whole or not at all. -/
def Updates (s : RestoreSite β) (key : String)
    (f : RestoreJournalRecord → Except RestoreException RestoreJournalRecord)
    (r : Except RestoreException RestoreJournalRecord) (s' : RestoreSite β) : Prop :=
  (s' = s ∧ Failed r) ∨ ∃ current, s.journal key = some current ∧
    match f current with
    | .error e => r = .error e ∧ s' = s
    | .ok record => s' = s.setEntry key record ∧ (r = .ok record ∨ Failed r)

/-- An entry is created where there is none. -/
def Creates (s : RestoreSite β) (key : String) (record : RestoreJournalRecord) (r : Except RestoreException Unit)
    (s' : RestoreSite β) : Prop :=
  match s.journal key with
  | some existing => s' = s ∧ (existing = record ∧ r = .ok () ∨ Failed r)
  | none => s' = s ∧ Failed r ∨ s' = s.setEntry key record ∧ (r = .ok () ∨ Failed r)

/-- The staged checkpoint is copied, or a part of it when the copying fails. -/
def Copies (s : RestoreSite β) (artifactFileName : String) (destination : FilePath)
    (r : Except RestoreException Unit) (s' : RestoreSite β) : Prop :=
  s' = s ∧ Failed r ∨ s.files destination = none ∧ ∃ content, s' = s.setFile destination (some content) ∧
    (Failed r ∨ r = .ok () ∧ ∃ artifact facts, s.store.disk.artifact? P.catalog artifactFileName = some artifact ∧
      Reads artifact facts ∧ view content = some facts)

/-- `File.Replace` moves both files at once; what fails after it is the flushing. -/
def Replaces (s : RestoreSite β) (approvalId : String) (stagePath targetPath backupPath : FilePath)
    (r : Except RestoreException Unit) (s' : RestoreSite β) : Prop :=
  s' = s ∧ Failed r ∨ s.files backupPath = none ∧ ∃ staged displaced, s.files stagePath = some staged ∧
    s.files targetPath = some displaced ∧ (r = .ok () ∨ Failed r) ∧
    s' = { (((s.setFile targetPath (some staged)).setFile backupPath (some displaced)).setFile stagePath none) with
      replaced := s.replaced ++ [⟨approvalId, stagePath, targetPath, backupPath, displaced⟩] }

/-- What an operation of a call does at the site. -/
def Act (s : RestoreSite β) (c : RestoreCall) :
    (o : RestoreOp) → Except RestoreException o.Value → RestoreSite β → Prop
  | .validateTargetPath _, r, s' => s' = s ∧ (r = .ok () ∨ Failed r)
  | .catalog call, r, s' => ∃ r' written store', Store.Step P.catalog s.store (.called c.process call r' written) store' ∧
      r = r'.mapError RestoreException.ofCatalog ∧ s' = { s with store := store' }
  | .acquireExecutionLock, r, s' =>
      s' = s ∧ Failed r ∨ s.lock = none ∧ r = .ok () ∧ s' = s.setLock (some c.process)
  | .releaseExecutionLock, r, s' => r = .ok () ∧ s' = s.setLock none
  | .tryGet approvalId, r, s' => s' = s ∧ (r = .ok (s.journal (computeApprovalKeyHash P approvalId)) ∨ Failed r)
  | .createPrepared approvalId record, r, s' => s.Creates (computeApprovalKeyHash P approvalId) record r s'
  | .transition approvalId scopeDigest expected next, r, s' =>
      s.Updates (computeApprovalKeyHash P approvalId)
        (fun current => RestoreJournal.transition current scopeDigest expected next) r s'
  | .quarantine approvalId scopeDigest, r, s' =>
      s.Updates (computeApprovalKeyHash P approvalId) (fun current => RestoreJournal.quarantine current scopeDigest) r s'
  | .protectTargetLocator .., r, s' => s' = s ∧ ((∃ locator, r = .ok locator) ∨ Failed r)
  | .readDwgFacts path, r, s' =>
      s' = s ∧ (Failed r ∨ ∃ content facts, s.files path = some content ∧ view content = some facts ∧ r = .ok facts)
  | .readArtifactFacts fileName, r, s' =>
      s' = s ∧ (Failed r ∨ ∃ artifact facts, s.store.disk.artifact? P.catalog fileName = some artifact ∧
        Reads artifact facts ∧ r = .ok facts)
  | .fileExists path, r, s' => s' = s ∧ r = .ok (s.files path).isSome
  | .copyDurably name destination, r, s' => s.Copies P view name destination r s'
  | .replaceDurably stagePath targetPath backupPath, r, s' =>
      s.Replaces c.request.authorization.approvalId stagePath targetPath backupPath r s'
  | .delete path, r, s' => s' = s ∧ Failed r ∨ s' = s.setFile path none ∧ r = .ok ()
  | .inspect _, _, s' => s' = s
  | .closeWithoutSave _, _, s' | .reopen _, _, s' => s' = s
  | .isCancellationRequested, r, s' => s' = s ∧ ∃ requested, r = .ok requested

end RestoreSite

inductive RestoreEvent where
  | started (p : Nat)
  | crashed (p : Nat)
  | stored (e : StoreEvent)
  | written (path : FilePath)

/-- The file is one of the artifacts of a restore. -/
def FilePath.IsArtifact (path : FilePath) : Prop := artifactPrefix.toList <+: path.fileName.toList

/-- Processes start and die at any time, and the system closes the lock of one that dies. Others use the catalog,
and change every file that is not an artifact of a restore, the target included. -/
inductive RestoreSite.Env {β : Type} (s : RestoreSite β) : RestoreEvent → RestoreSite β → Prop
  | started {p : Nat} : s.process p = .absent →
      Env s (.started p) { s with process := Function.update s.process p .running }
  | crashed {p : Nat} : s.Alive p →
      Env s (.crashed p)
        { s with process := Function.update s.process p .exited, lock := if s.lock = some p then none else s.lock }
  | stored {e : StoreEvent} {store : Store} : Store.Step P.catalog s.store e store →
      Env s (.stored e) { s with store := store }
  | written {path : FilePath} {content : Option β} : ¬ path.IsArtifact → Env s (.written path) (s.setFile path content)

variable {β : Type} (view : β → Option FileFacts)

def RestoreSite.world : World restoreSig RestoreCall (RestoreSite β) RestoreEvent where
  alive s c := s.Alive c.process
  act := RestoreSite.Act P view
  env := RestoreSite.Env P

def RestoreSite.Initial (s : RestoreSite β) : Prop :=
  (storeSystem P.catalog).init s.store ∧ (∀ key, s.journal key = none) ∧ s.lock = none ∧
    (∀ p, s.process p = .absent) ∧ s.replaced = []

def RestoreCall.run (c : RestoreCall) : Prog restoreSig (Except RestoreException DurableCheckpointRestoreResult) :=
  (DurableCheckpointRestoreCoordinator.restoreAsync P c.request).run

abbrev RestorePoolEvent :=
  Event restoreSig RestoreCall (Except RestoreException DurableCheckpointRestoreResult) RestoreEvent

abbrev RestorePool (β : Type) :=
  Pool restoreSig RestoreCall (Except RestoreException DurableCheckpointRestoreResult) (RestoreSite β)

/-- Every interleaving of any number of restore calls in any number of processes. -/
def restoreSystem : System (RestorePool β) RestorePoolEvent :=
  Pool.system (RestoreSite.world P view) (RestoreCall.run P) (RestoreSite.Initial P)

end CadHarness.Checkpoint
