import CadHarness.Lib.DotNet
import Mathlib.Data.List.Sort
import Mathlib.Data.String.Basic
import Mathlib.Order.Basic

/-!
# The durable checkpoint catalog

The catalog of the bridge's whole-drawing checkpoints: one authenticated file, and a second one, the
watermark, that names the version of the first. A method is a function of what the operating system answers
during the call, the generation that the instance has seen, and the disk. The files it has replaced stay
replaced when it throws.
-/

namespace CadHarness.Checkpoint
open CadHarness.Lib

inductive DurableCheckpointState where
  | available
  | restoring
  | consumed
  | quarantined
  | expired
  deriving DecidableEq, Repr

/-- An instant with the offset that it was written with. -/
structure DateTimeOffset where
  utcTicks : Int
  offset : Int
  deriving DecidableEq

structure DurableCheckpointRecord where
  catalogSchema : Int
  checkpointId : String
  jobId : String
  documentId : String
  preRevision : String
  originalPathHash : String
  checkpointFileName : String
  sha256 : String
  byteLength : Int
  dwgVersion : String
  createdUtc : DateTimeOffset
  state : DurableCheckpointState
  deriving DecidableEq

/-- Restoring it is still possible. -/
def DurableCheckpointRecord.Active (record : DurableCheckpointRecord) : Prop :=
  record.state = .available ∨ record.state = .restoring

instance (record : DurableCheckpointRecord) : Decidable record.Active := inferInstanceAs (Decidable (_ ∨ _))

structure CatalogPayload where
  catalogSchema : Int
  generation : Int
  records : List DurableCheckpointRecord
  deriving DecidableEq

structure CatalogEnvelope where
  payload : CatalogPayload
  authenticationTag : String
  deriving DecidableEq

structure WatermarkPayload where
  catalogSchema : Int
  generation : Int
  catalogEnvelopeSha256 : String
  deriving DecidableEq

structure WatermarkEnvelope where
  payload : WatermarkPayload
  authenticationTag : String
  deriving DecidableEq

structure AuthenticatedCatalog where
  payload : CatalogPayload
  envelopeSha256 : String

structure ArtifactFacts where
  sha256 : String
  byteLength : Int
  dwgVersion : String
  deriving DecidableEq

/-- What reading a staged file comes to. -/
inductive Artifact where
  | dwg (facts : ArtifactFacts)
  | notDwg
  | unreadable
  deriving DecidableEq

inductive Exception where
  | argument (message : String)
  | invalidData (message : String)
  | invalidOperation (message : String)
  | keyNotFound (message : String)
  | io (message : String)
  | overflow
  | objectDisposed
  deriving DecidableEq

/-- The root of the catalog: its two files, and the staged checkpoints by name. -/
structure Disk where
  catalog : Option CatalogEnvelope := none
  watermark : Option WatermarkEnvelope := none
  artifacts : List (String × Artifact) := []
  deriving DecidableEq

inductive CatalogFile where
  | catalog
  | watermark
  deriving DecidableEq

/-- What a method works on: the highest generation that the instance has seen, the disk, and the
replacements of files so far with the disk that each has left. -/
structure Session where
  highestObservedGeneration : Int
  disk : Disk
  written : List (CatalogFile × Disk) := []
  deriving DecidableEq

abbrev CatalogM := EStateM Exception Session

/-! ## What the catalog is given -/

def isLowerHex (value : String) (expectedLength : Nat) : Bool :=
  DotNet.length value = expectedLength &&
    value.toList.all (fun c => ('0' ≤ c && c ≤ '9') || ('a' ≤ c && c ≤ 'f'))

def maximumGeneration : Int := 9223372036854775807

def maximumWatermarkBytes : Nat := 16 * 1024

abbrev Key := List UInt8

/-- The hash of a catalog file, the authentication tags under a key, the sizes of the files, the hash of a
path that is absolute, and the form in which the platform compares file names. -/
structure Primitives where
  envelopeSha256 : CatalogEnvelope → String
  catalogTag : Key → CatalogPayload → String
  watermarkTag : Key → WatermarkPayload → String
  catalogLength : CatalogEnvelope → Nat
  watermarkLength : WatermarkEnvelope → Nat
  pathHash : String → Option String
  fileNameKey : String → String
  envelopeSha256_hex : ∀ e, isLowerHex (envelopeSha256 e) 64
  catalogTag_hex : ∀ k p, isLowerHex (catalogTag k p) 64
  watermarkTag_hex : ∀ k p, isLowerHex (watermarkTag k p) 64
  watermarkLength_mem : ∀ w, isLowerHex w.payload.catalogEnvelopeSha256 64 → isLowerHex w.authenticationTag 64 →
    0 ≤ w.payload.generation → w.payload.generation ≤ maximumGeneration →
    0 < watermarkLength w ∧ watermarkLength w ≤ maximumWatermarkBytes

/-- How far the replacement of a file gets. -/
inductive WriteOutcome where
  | failed
  | replacedThenFailed
  | done
  deriving DecidableEq

/-- What the operating system answers during one call; the files by the number of replacements before. -/
structure Io where
  rootSafe : Bool := true
  lockAcquired : Bool := true
  catalogReadable : Nat → Bool := fun _ => true
  watermarkReadable : Nat → Bool := fun _ => true
  write : Nat → WriteOutcome := fun _ => .done

/-- Nothing fails. -/
def Io.faultless : Io := {}

/-! ## Constants and checks -/

def currentCatalogSchema : Int := 1

def maximumCatalogBytes : Nat := 16 * 1024 * 1024

def maximumRecords : Nat := 100000

def isSafeFileNameCharacter (c : Char) : Bool :=
  ('a' ≤ c && c ≤ 'z') || ('A' ≤ c && c ≤ 'Z') || ('0' ≤ c && c ≤ '9') || c = '_' || c = '-' || c = '.'

def isSafeIdentifierCharacter (c : Char) : Bool := isSafeFileNameCharacter c || c = ':'

/-- A text that is not blank, not longer than the maximum, and made of these characters. -/
def isBoundedText (maximum : Nat) (allowed : Char → Bool) (value : String) : Bool :=
  !DotNet.isNullOrWhiteSpace value && DotNet.length value ≤ maximum && value.toList.all allowed

def isIdentifier (value : String) : Bool := isBoundedText 128 isSafeIdentifierCharacter value

def isRevision (value : String) : Bool := isBoundedText 256 (fun c => '!' ≤ c && c ≤ '~') value

/-- Whether a name ends with `.dwg`, upper or lower case. -/
def isDwgName (name : String) : Bool :=
  (name.toList.reverse.take 4).map Char.toLower = ['g', 'w', 'd', '.']

/-- The characters allowed leave no separator in the name, so that it names a file of the root. -/
def isCheckpointFileName (value : String) : Bool :=
  isBoundedText 128 isSafeFileNameCharacter value && isDwgName value

def isDwgVersion (value : String) : Bool :=
  match value.toList with
  | ['A', 'C', a, b, c, d] => [a, b, c, d].all (fun digit => '0' ≤ digit && digit ≤ '9')
  | _ => false

def validateIdentifier (value : String) : CatalogM Unit :=
  if isIdentifier value then pure () else throw (.argument "The checkpoint identity is invalid.")

def validateRevision (value : String) : CatalogM Unit :=
  if isRevision value then pure () else throw (.argument "The checkpoint revision is invalid.")

def validateCheckpointFileName (value : String) : CatalogM Unit :=
  if isCheckpointFileName value then pure ()
  else throw (.argument "The checkpoint filename is not allowlisted.")

/-- `ValidateLoadedRecord` -/
def isLoadedRecord (record : DurableCheckpointRecord) : Bool :=
  record.catalogSchema = currentCatalogSchema && isLowerHex record.originalPathHash 64 &&
    isLowerHex record.sha256 64 && decide (6 < record.byteLength) && isDwgVersion record.dwgVersion &&
    record.createdUtc.offset = 0 && isIdentifier record.checkpointId && isIdentifier record.jobId &&
    isIdentifier record.documentId && isRevision record.preRevision &&
    isCheckpointFileName record.checkpointFileName

/-- The loop of `ValidateCatalogStructure`: the records not yet seen are valid, and neither an id nor a file
name occurs twice. -/
def validateRecords (P : Primitives) (ids fileNames : List String) : List DurableCheckpointRecord → CatalogM Unit
  | [] => pure ()
  | record :: rest => do
      if !isLoadedRecord record then
        throw (.invalidData "The checkpoint record failed validation.")
      if record.checkpointId ∈ ids ∨ P.fileNameKey record.checkpointFileName ∈ fileNames then
        throw (.invalidData "The checkpoint catalog contains a duplicate record.")
      validateRecords P (record.checkpointId :: ids) (P.fileNameKey record.checkpointFileName :: fileNames) rest

def validateCatalogStructure (P : Primitives) (payload : CatalogPayload) : CatalogM Unit := do
  if payload.catalogSchema ≠ currentCatalogSchema ∨ payload.generation < 0 ∨
      maximumRecords < payload.records.length then
    throw (.invalidData "The checkpoint catalog schema is invalid.")
  validateRecords P [] [] payload.records

/-! ## Files -/

def acquireInterprocessLock (io : Io) : CatalogM Unit :=
  if io.lockAcquired then pure ()
  else throw (.io "The checkpoint catalog lock could not be acquired.")

def readCatalogFile (P : Primitives) (io : Io) (key : Key) : CatalogM AuthenticatedCatalog := do
  let s ← get
  match s.disk.catalog with
  | none => throw (.io "The checkpoint catalog file could not be read.")
  | some envelope =>
      if P.catalogLength envelope = 0 ∨ maximumCatalogBytes < P.catalogLength envelope then
        throw (.invalidData "The checkpoint catalog file is invalid.")
      if !io.catalogReadable s.written.length then
        throw (.io "The checkpoint catalog file could not be read.")
      if !isLowerHex envelope.authenticationTag 64 then
        throw (.invalidData "The checkpoint catalog envelope is invalid.")
      if P.catalogTag key envelope.payload ≠ envelope.authenticationTag then
        throw (.invalidData "The checkpoint catalog failed authentication.")
      return ⟨envelope.payload, P.envelopeSha256 envelope⟩

def validateWatermark (P : Primitives) (io : Io) (key : Key) (catalog : AuthenticatedCatalog) : CatalogM Unit := do
  let s ← get
  match s.disk.watermark with
  | none => throw (.io "The checkpoint catalog watermark could not be read.")
  | some envelope =>
      if P.watermarkLength envelope = 0 ∨ maximumWatermarkBytes < P.watermarkLength envelope then
        throw (.invalidData "The checkpoint catalog watermark is invalid.")
      if !io.watermarkReadable s.written.length then
        throw (.io "The checkpoint catalog watermark could not be read.")
      if !isLowerHex envelope.authenticationTag 64 then
        throw (.invalidData "The checkpoint catalog watermark envelope is invalid.")
      if P.watermarkTag key envelope.payload ≠ envelope.authenticationTag ∨
          envelope.payload.catalogSchema ≠ currentCatalogSchema ∨
          envelope.payload.generation ≠ catalog.payload.generation ∨
          envelope.payload.catalogEnvelopeSha256 ≠ catalog.envelopeSha256 then
        throw (.invalidData "The checkpoint catalog watermark does not match the catalog.")

/-- `WriteDurableAtomic`: one replacement, flushed afterwards -/
def writeDurableAtomic (io : Io) (file : CatalogFile) (replace : Disk → Disk) : CatalogM Unit := do
  let s ← get
  let replaced := { s with disk := replace s.disk, written := s.written ++ [(file, replace s.disk)] }
  match io.write s.written.length with
  | .failed => throw (.io "The file could not be written.")
  | .replacedThenFailed =>
      set replaced
      throw (.io "The file could not be flushed.")
  | .done => set replaced

/-- The file of a payload. -/
def catalogEnvelope (P : Primitives) (key : Key) (payload : CatalogPayload) : CatalogEnvelope :=
  ⟨payload, P.catalogTag key payload⟩

/-- The watermark of that file. -/
def watermarkEnvelope (P : Primitives) (key : Key) (payload : CatalogPayload) : WatermarkEnvelope :=
  let watermark := ⟨currentCatalogSchema, payload.generation, P.envelopeSha256 (catalogEnvelope P key payload)⟩
  ⟨watermark, P.watermarkTag key watermark⟩

def persistUnderLock (P : Primitives) (io : Io) (key : Key) (payload : CatalogPayload) : CatalogM Unit := do
  validateCatalogStructure P payload
  let envelope := catalogEnvelope P key payload
  if P.catalogLength envelope = 0 ∨ maximumCatalogBytes < P.catalogLength envelope then
    throw (.invalidData "The checkpoint catalog size is invalid.")
  writeDurableAtomic io .catalog (fun disk => { disk with catalog := some envelope })
  let watermark := watermarkEnvelope P key payload
  if P.watermarkLength watermark = 0 ∨ maximumWatermarkBytes < P.watermarkLength watermark then
    throw (.invalidData "The checkpoint catalog watermark size is invalid.")
  writeDurableAtomic io .watermark (fun disk => { disk with watermark := some watermark })
  let readBack ← readCatalogFile P io key
  validateWatermark P io key readBack
  if payload ≠ readBack.payload then
    throw (.io "The checkpoint catalog write could not be verified.")

/-! ## Artifacts -/

def Disk.artifact? (P : Primitives) (disk : Disk) (name : String) : Option Artifact :=
  (disk.artifacts.find? fun file => P.fileNameKey file.1 = P.fileNameKey name).map Prod.snd

def readArtifactFacts (P : Primitives) (checkpointFileName : String) : CatalogM ArtifactFacts := do
  match (← get).disk.artifact? P checkpointFileName with
  | none => throw (.io "The staged checkpoint artifact is missing.")
  | some .unreadable => throw (.io "The checkpoint artifact could not be read.")
  | some .notDwg => throw (.invalidData "The checkpoint artifact is not a valid DWG file.")
  | some (.dwg facts) => return facts

/-- `ArtifactMatches`: only a failure to read counts as a mismatch, other exceptions pass -/
def artifactMatches (P : Primitives) (record : DurableCheckpointRecord) : CatalogM Bool :=
  tryCatch
    (do
      let facts ← readArtifactFacts P record.checkpointFileName
      return facts.byteLength = record.byteLength && facts.sha256 = record.sha256 &&
        facts.dwgVersion = record.dwgVersion)
    (fun
      | .io _ => return false
      | e => throw e)

/-! ## Loading -/

/-- `checked(generation + 1)` -/
def nextGeneration (generation : Int) : CatalogM Int :=
  if generation + 1 ≤ maximumGeneration then pure (generation + 1) else throw .overflow

def observe (generation : Int) : CatalogM Unit :=
  modify fun s => { s with highestObservedGeneration := max s.highestObservedGeneration generation }

/-- An active record whose artifact is gone or changed. -/
def isStale (P : Primitives) (record : DurableCheckpointRecord) : CatalogM Bool :=
  if record.Active then (! ·) <$> artifactMatches P record else pure false

/-- The records after the loop of `LoadAndRecoverUnderLock`: a stale one is quarantined. -/
def recoverRecords (P : Primitives) : List DurableCheckpointRecord → CatalogM (List DurableCheckpointRecord × Bool)
  | [] => return ([], false)
  | record :: rest => do
      let stale ← isStale P record
      let (records, recovered) ← recoverRecords P rest
      return ((if stale then { record with state := .quarantined } else record) :: records, stale || recovered)

def loadAndRecoverUnderLock (P : Primitives) (io : Io) (key : Key) : CatalogM CatalogPayload := do
  if (← get).disk.catalog.isNone then
    throw (.invalidData "The authenticated checkpoint catalog is missing.")
  let authenticated ← readCatalogFile P io key
  validateWatermark P io key authenticated
  let payload := authenticated.payload
  if payload.generation < (← get).highestObservedGeneration then
    throw (.invalidData "A checkpoint catalog replay was detected.")
  validateCatalogStructure P payload
  let (records, recovered) ← recoverRecords P payload.records
  if !recovered then
    observe payload.generation
    return payload
  let generation ← nextGeneration payload.generation
  let replacement := { payload with generation, records }
  persistUnderLock P io key replacement
  observe replacement.generation
  return replacement

/-! ## Methods -/

structure MutationResult (α : Type) where
  value : α
  catalog : CatalogPayload
  shouldPersist : Bool

def MutationResult.persist {α : Type} (value : α) (catalog : CatalogPayload) : MutationResult α :=
  ⟨value, catalog, true⟩

def MutationResult.noWrite {α : Type} (value : α) (catalog : CatalogPayload) : MutationResult α :=
  ⟨value, catalog, false⟩

def withFreshCatalog {α : Type} (P : Primitives) (io : Io) (key : Key)
    (action : CatalogPayload → CatalogM (MutationResult α)) : CatalogM α := do
  if !io.rootSafe then
    throw (.invalidData "The checkpoint root is no longer a local directory.")
  acquireInterprocessLock io
  let refreshed ← loadAndRecoverUnderLock P io key
  let mutation ← action refreshed
  if mutation.shouldPersist then
    persistUnderLock P io key mutation.catalog
  observe mutation.catalog.generation
  return mutation.value

def requireRecord (payload : CatalogPayload) (checkpointId : String) : CatalogM DurableCheckpointRecord :=
  match payload.records.filter (·.checkpointId = checkpointId) with
  | [] => throw (.keyNotFound "The checkpoint id is not registered.")
  | [record] => pure record
  | _ => throw (.invalidOperation "Sequence contains more than one matching element")

def replaceState (payload : CatalogPayload) (current : DurableCheckpointRecord)
    (nextState : DurableCheckpointState) : CatalogM (MutationResult DurableCheckpointRecord) := do
  let replacement := { current with state := nextState }
  let records := payload.records.map fun record =>
    if record.checkpointId = current.checkpointId then replacement else record
  let generation ← nextGeneration payload.generation
  return .persist replacement { payload with generation, records }

namespace DurableCheckpointCatalog

def emptyCatalog : CatalogPayload := ⟨currentCatalogSchema, 0, []⟩

/-- The constructor. -/
def new (P : Primitives) (io : Io) (key : Key) : CatalogM Unit := do
  if key.length < 32 then
    throw (.argument "The checkpoint catalog authentication key must contain at least 32 bytes.")
  if !io.rootSafe then
    throw (.invalidData "The checkpoint root must not contain reparse-point components.")
  acquireInterprocessLock io
  let disk := (← get).disk
  if disk.catalog.isSome ≠ disk.watermark.isSome then
    throw (.invalidData "The authenticated checkpoint catalog is incomplete.")
  if disk.catalog.isSome then
    let loaded ← loadAndRecoverUnderLock P io key
    observe loaded.generation
  else
    if disk.artifacts.any fun file => (P.fileNameKey ".dwg").toList.isSuffixOf (P.fileNameKey file.1).toList then
      throw (.invalidData "Checkpoint artifacts exist without an authenticated catalog.")
    persistUnderLock P io key emptyCatalog
    observe emptyCatalog.generation

/-- The arguments of a registration. -/
structure Registration where
  checkpointId : String
  jobId : String
  documentId : String
  preRevision : String
  originalPath : String
  checkpointFileName : String
  createdUtc : DateTimeOffset

/-- The record of a registration. -/
def Registration.record (r : Registration) (originalPathHash : String) (facts : ArtifactFacts) :
    DurableCheckpointRecord where
  catalogSchema := currentCatalogSchema
  checkpointId := r.checkpointId
  jobId := r.jobId
  documentId := r.documentId
  preRevision := r.preRevision
  originalPathHash := originalPathHash
  checkpointFileName := r.checkpointFileName
  sha256 := facts.sha256
  byteLength := facts.byteLength
  dwgVersion := facts.dwgVersion
  createdUtc := r.createdUtc
  state := .available

/-- What a registration does with the catalog that was loaded. -/
def register (P : Primitives) (r : Registration) (originalPathHash : String) (payload : CatalogPayload) :
    CatalogM (MutationResult DurableCheckpointRecord) := do
  if payload.records.any (·.checkpointId = r.checkpointId) then
    throw (.invalidOperation "The checkpoint id is already registered.")
  if payload.records.any fun record =>
      P.fileNameKey record.checkpointFileName = P.fileNameKey r.checkpointFileName then
    throw (.invalidOperation "The checkpoint filename is already registered.")
  let facts ← readArtifactFacts P r.checkpointFileName
  let record := r.record originalPathHash facts
  let generation ← nextGeneration payload.generation
  return .persist record { payload with generation, records := payload.records ++ [record] }

def registerCheckpoint (P : Primitives) (io : Io) (key : Key) (r : Registration) :
    CatalogM DurableCheckpointRecord := do
  validateIdentifier r.checkpointId
  validateIdentifier r.jobId
  validateIdentifier r.documentId
  validateRevision r.preRevision
  validateCheckpointFileName r.checkpointFileName
  if r.createdUtc.offset ≠ 0 then
    throw (.argument "The checkpoint creation time must be UTC.")
  match P.pathHash r.originalPath with
  | none => throw (.argument "The original drawing path must be absolute.")
  | some originalPathHash => withFreshCatalog P io key (register P r originalPathHash)

def getRequired (P : Primitives) (io : Io) (key : Key) (checkpointId : String) :
    CatalogM DurableCheckpointRecord := do
  validateIdentifier checkpointId
  withFreshCatalog P io key fun payload => do
    return .noWrite (← requireRecord payload checkpointId) payload

def snapshot (P : Primitives) (io : Io) (key : Key) : CatalogM (List DurableCheckpointRecord) :=
  withFreshCatalog P io key fun payload =>
    return .noWrite (payload.records.insertionSort (·.checkpointId ≤ ·.checkpointId)) payload

/-- What a change of state does with the catalog that was loaded. -/
def changeState (checkpointId : String) (required : List DurableCheckpointState)
    (nextState : DurableCheckpointState) (failureMessage : String) (payload : CatalogPayload) :
    CatalogM (MutationResult DurableCheckpointRecord) := do
  let current ← requireRecord payload checkpointId
  if current.state = nextState then
    return .noWrite current payload
  if current.state ∉ required then
    throw (.invalidOperation failureMessage)
  replaceState payload current nextState

/-- `Transition`; the idempotent state of every transition is the one that it leads to -/
def transition (P : Primitives) (io : Io) (key : Key) (checkpointId : String)
    (requiredState nextState : DurableCheckpointState) (failureMessage : String) :
    CatalogM DurableCheckpointRecord := do
  validateIdentifier checkpointId
  withFreshCatalog P io key (changeState checkpointId [requiredState] nextState failureMessage)

def beginRestore (P : Primitives) (io : Io) (key : Key) (checkpointId : String) :=
  transition P io key checkpointId .available .restoring "Only an available checkpoint can begin restoration."

def complete (P : Primitives) (io : Io) (key : Key) (checkpointId : String) :=
  transition P io key checkpointId .restoring .consumed "Only a restoring checkpoint can be completed."

def cancelBeforeReplacement (P : Primitives) (io : Io) (key : Key) (checkpointId : String) :=
  transition P io key checkpointId .restoring .available
    "Only a restoring checkpoint can be cancelled before replacement."

/-- `Quarantine` does not check its argument. -/
def quarantine (P : Primitives) (io : Io) (key : Key) (checkpointId : String) : CatalogM DurableCheckpointRecord :=
  withFreshCatalog P io key (changeState checkpointId [.available, .restoring] .quarantined
    "Only an active checkpoint can be quarantined.")

def expire (P : Primitives) (io : Io) (key : Key) (checkpointId : String) :=
  transition P io key checkpointId .available .expired "Only an available checkpoint can expire."

end DurableCheckpointCatalog

end CadHarness.Checkpoint
