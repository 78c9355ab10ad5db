import CadHarness.Checkpoint.Lemmas.Opening
import CadHarness.Checkpoint.RecoveryTheorems

/-!
# Damaged checkpoint files

Loading quarantines the active records whose file is gone or changed, and keeps the others, unless the file of
some active record is no drawing at all. The exception that reports such a file is not among those that count
as a mismatch, and it ends the load.
-/

/-!
## Staged checkpoint files

The staged files by their bytes, and what reading one comes to. A file too short for a drawing, or with
another header, is not read as a changed one.
-/

namespace CadHarness.Checkpoint
open CadHarness.Lib

/-- What stands in the root under the name of a checkpoint. -/
inductive StagedFile where
  | regular (bytes : List UInt8)
  | locked
  | reparsePoint
  | device
  deriving DecidableEq

/-- `Encoding.ASCII.GetString` -/
def asciiText (bytes : List UInt8) : String :=
  String.ofList (bytes.map fun byte => if byte < 128 then Char.ofNat byte.toNat else '?')

/-- The first six bytes of a drawing. -/
def dwgHeader (bytes : List UInt8) : String := asciiText (bytes.take 6)

namespace StagedFile

variable (sha256 : List UInt8 → String)

/-- `ReadArtifactFacts` on a file that is there. -/
def readArtifactFacts : StagedFile → Except Exception ArtifactFacts
  | .reparsePoint => .error (.invalidData "A checkpoint artifact must not be a reparse point.")
  | .device => .error (.invalidData "The checkpoint artifact is not a regular local file.")
  | .locked => .error (.io "The checkpoint artifact could not be read.")
  | .regular bytes =>
      if bytes.length ≤ 6 then .error (.invalidData "The checkpoint artifact is not a valid DWG file.")
      else if isDwgVersion (dwgHeader bytes) then .ok ⟨sha256 bytes, bytes.length, dwgHeader bytes⟩
      else .error (.invalidData "The checkpoint artifact has an invalid DWG version header.")

/-- What reading the file comes to for the catalog. -/
def artifact (file : StagedFile) : Artifact :=
  match file.readArtifactFacts sha256 with
  | .ok facts => .dwg facts
  | .error (.io _) => .unreadable
  | .error _ => .notDwg

/-- The file can be opened, but nobody would take it for a drawing. -/
def NotDrawing : StagedFile → Prop
  | .regular bytes => bytes.length ≤ 6 ∨ isDwgVersion (dwgHeader bytes) = false
  | .locked => False
  | .reparsePoint | .device => True

/-- The file has these facts. -/
def HasFacts (facts : ArtifactFacts) : StagedFile → Prop
  | .regular bytes => (bytes.length : Int) = facts.byteLength ∧ sha256 bytes = facts.sha256 ∧
      dwgHeader bytes = facts.dwgVersion
  | .locked | .reparsePoint | .device => False

variable {sha256} {file : StagedFile}

theorem artifact_notDwg : file.artifact sha256 = .notDwg ↔ file.NotDrawing := by
  cases file with
  | regular bytes =>
      by_cases hlen : bytes.length ≤ 6
      · simp [artifact, readArtifactFacts, NotDrawing, hlen]
      · cases hv : isDwgVersion (dwgHeader bytes) <;>
          simp [artifact, readArtifactFacts, NotDrawing, hlen, hv]
  | locked => simp [artifact, readArtifactFacts, NotDrawing]
  | reparsePoint => simp [artifact, readArtifactFacts, NotDrawing]
  | device => simp [artifact, readArtifactFacts, NotDrawing]

theorem artifact_dwg {facts : ArtifactFacts} :
    file.artifact sha256 = .dwg facts ↔ ¬ file.NotDrawing ∧ file.HasFacts sha256 facts := by
  cases file with
  | regular bytes =>
      by_cases hlen : bytes.length ≤ 6
      · simp [artifact, readArtifactFacts, NotDrawing, hlen]
      · cases hv : isDwgVersion (dwgHeader bytes)
        · simp [artifact, readArtifactFacts, NotDrawing, hlen, hv]
        · obtain ⟨sha, len, version⟩ := facts
          simp [artifact, readArtifactFacts, NotDrawing, HasFacts, hlen, hv]
          tauto
  | locked => simp [artifact, readArtifactFacts, HasFacts]
  | reparsePoint => simp [artifact, readArtifactFacts, HasFacts]
  | device => simp [artifact, readArtifactFacts, HasFacts]

end StagedFile

/-- The staged files by name. -/
abbrev StagedFiles := List (String × StagedFile)

def StagedFiles.find (P : Primitives) (files : StagedFiles) (name : String) : Option StagedFile :=
  (files.find? fun file => P.fileNameKey file.1 = P.fileNameKey name).map Prod.snd

/-- What the catalog finds on a disk with these files. -/
def StagedFiles.artifacts (sha256 : List UInt8 → String) (files : StagedFiles) : List (String × Artifact) :=
  files.map fun file => (file.1, file.2.artifact sha256)

variable {P : Primitives} {sha256 : List UInt8 → String} {files : StagedFiles} {disk : Disk}

theorem artifact?_staged (hdisk : disk.artifacts = files.artifacts sha256) (name : String) :
    disk.artifact? P name = (files.find P name).map (·.artifact sha256) := by
  unfold Disk.artifact? StagedFiles.find
  rw [hdisk, StagedFiles.artifacts, List.find?_map, Option.map_map, Option.map_map]
  rfl

namespace DurableCheckpointRecord

/-- The facts that were recorded of the artifact. -/
def facts (record : DurableCheckpointRecord) : ArtifactFacts :=
  ⟨record.sha256, record.byteLength, record.dwgVersion⟩

/-- The file of the record has its recorded facts. -/
def MatchesFile (P : Primitives) (sha256 : List UInt8 → String) (files : StagedFiles)
    (record : DurableCheckpointRecord) : Prop :=
  ∃ file, files.find P record.checkpointFileName = some file ∧ file.HasFacts sha256 record.facts

/-- An active record whose file is there and is something else than a drawing. -/
def NotDrawing (P : Primitives) (files : StagedFiles) (record : DurableCheckpointRecord) : Prop :=
  record.Active ∧ ∃ file, files.find P record.checkpointFileName = some file ∧ file.NotDrawing

variable {record : DurableCheckpointRecord}

theorem corrupt_iff (hdisk : disk.artifacts = files.artifacts sha256) :
    record.Corrupt P disk ↔ record.NotDrawing P files := by
  unfold Corrupt NotDrawing
  rw [artifact?_staged hdisk]
  simp only [Option.map_eq_some_iff, StagedFile.artifact_notDwg]

/-- The facts of a valid record are facts of a drawing. -/
theorem facts_drawing (h : isLoadedRecord record = true) {file : StagedFile} (hf : file.HasFacts sha256 record.facts) :
    ¬ file.NotDrawing := by
  simp only [isLoadedRecord, Bool.and_eq_true, decide_eq_true_eq] at h
  cases file with
  | regular bytes =>
      obtain ⟨hlen, -, hversion⟩ := hf
      rintro (hshort | hheader)
      · simp only [facts] at hlen
        omega
      · rw [hversion] at hheader
        have hv : isDwgVersion record.dwgVersion = true := by tauto
        exact absurd (hv.symm.trans hheader) Bool.noConfusion
  | locked => exact hf.elim
  | reparsePoint => exact hf.elim
  | device => exact hf.elim

theorem matches_iff (h : isLoadedRecord record = true) (hdisk : disk.artifacts = files.artifacts sha256) :
    record.Matches P disk ↔ record.MatchesFile P sha256 files := by
  unfold Matches MatchesFile
  rw [artifact?_staged hdisk]
  simp only [Option.map_eq_some_iff, StagedFile.artifact_dwg]
  constructor
  · rintro ⟨facts, ⟨file, hfind, -, hfacts⟩, hlen, hsha, hversion⟩
    refine ⟨file, hfind, ?_⟩
    have heq : record.facts = facts := by rw [DurableCheckpointRecord.facts, ← hlen, ← hsha, ← hversion]
    rw [heq]
    exact hfacts
  · rintro ⟨file, hfind, hfacts⟩
    exact ⟨record.facts, ⟨file, hfind, facts_drawing h hfacts, hfacts⟩, rfl, rfl, rfl⟩

end DurableCheckpointRecord

end CadHarness.Checkpoint

namespace CadHarness.Checkpoint
open CadHarness.Lib

variable {P : Primitives} {key : Key} {sha256 : List UInt8 → String} {files : StagedFiles} {s : Session}
  {p q : CatalogPayload} {disk : Disk}

namespace DurableCheckpointRecord

/-- An active record whose file does not match its recorded facts. -/
def Damaged (P : Primitives) (sha256 : List UInt8 → String) (files : StagedFiles)
    (record : DurableCheckpointRecord) : Prop :=
  record.Active ∧ ¬ record.MatchesFile P sha256 files

/-- `record'` is the record quarantined if it is damaged, and unchanged otherwise. -/
def Isolated (P : Primitives) (sha256 : List UInt8 → String) (files : StagedFiles)
    (record record' : DurableCheckpointRecord) : Prop :=
  (record.Damaged P sha256 files → record' = { record with state := .quarantined }) ∧
    (¬ record.Damaged P sha256 files → record' = record)

variable {record record' : DurableCheckpointRecord}

theorem stale_iff (h : isLoadedRecord record = true) (hdisk : disk.artifacts = files.artifacts sha256) :
    record.Stale P disk ↔ record.Damaged P sha256 files := by
  unfold Stale Damaged
  rw [matches_iff h hdisk]

theorem isolated_iff (h : isLoadedRecord record = true) (hdisk : disk.artifacts = files.artifacts sha256) :
    record.Isolated P sha256 files record' ↔ record' = record.recovered P disk := by
  unfold Isolated recovered
  rw [← stale_iff h hdisk]
  by_cases hs : record.Stale P disk <;> simp [hs]

end DurableCheckpointRecord

theorem forall₂_isolated {records records' : List DurableCheckpointRecord}
    (h : ∀ record ∈ records, isLoadedRecord record = true) (hdisk : disk.artifacts = files.artifacts sha256) :
    List.Forall₂ (DurableCheckpointRecord.Isolated P sha256 files) records records' ↔
      records' = records.map (·.recovered P disk) := by
  induction records generalizing records' with
  | nil => simp
  | cons record rest ih =>
      have hrecord := h record List.mem_cons_self
      have hrest := fun r hr => h r (List.mem_cons_of_mem record hr)
      rw [List.forall₂_cons_left_iff, List.map_cons]
      constructor
      · rintro ⟨record', rest', hisolated, hall, rfl⟩
        rw [(DurableCheckpointRecord.isolated_iff hrecord hdisk).mp hisolated, (ih hrest).mp hall]
      · rintro rfl
        exact ⟨_, _, (DurableCheckpointRecord.isolated_iff hrecord hdisk).mpr rfl, (ih hrest).mpr rfl, rfl⟩

/-! ## The recovered catalog -/

theorem DurableCheckpointRecord.recovered_facts (disk : Disk) (record : DurableCheckpointRecord) :
    ∃ state, record.recovered P disk = { record with state := state } := by
  unfold recovered
  split
  · exact ⟨.quarantined, rfl⟩
  · exact ⟨record.state, rfl⟩

theorem Valid.recovered (h : Valid P p) (disk : Disk) : Valid P (p.recovered P disk) where
  schema := h.schema
  generation := by
    have hgen := h.generation
    change 0 ≤ p.generation + 1
    omega
  size := by
    change (p.records.map (·.recovered P disk)).length ≤ maximumRecords
    rw [List.length_map]
    exact h.size
  loaded := by
    intro record hr
    obtain ⟨old, hold, rfl⟩ := List.mem_map.mp hr
    obtain ⟨state, heq⟩ := old.recovered_facts (P := P) disk
    rw [heq]
    exact h.loaded old hold
  ids := by
    have hmap : (p.recovered P disk).records.map (·.checkpointId) = p.records.map (·.checkpointId) := by
      simp only [CatalogPayload.recovered, List.map_map]
      refine List.map_congr_left fun record _ => ?_
      obtain ⟨state, heq⟩ := record.recovered_facts (P := P) disk
      simp only [Function.comp_apply, heq]
    rw [hmap]
    exact h.ids
  fileNames := by
    have hmap : (p.recovered P disk).records.map (fun record => P.fileNameKey record.checkpointFileName) =
        p.records.map fun record => P.fileNameKey record.checkpointFileName := by
      simp only [CatalogPayload.recovered, List.map_map]
      refine List.map_congr_left fun record _ => ?_
      obtain ⟨state, heq⟩ := record.recovered_facts (P := P) disk
      simp only [Function.comp_apply, heq]
    rw [hmap]
    exact h.fileNames

/-! ## Records of a loaded catalog -/

theorem requireRecord_mem (h : Valid P p) {record : DurableCheckpointRecord} (hr : record ∈ p.records) :
    Post (requireRecord p record.checkpointId) s (fun r s' => r = .ok record ∧ s' = s) := by
  have hid : p.records.filter (·.checkpointId = record.checkpointId) = p.records.filter (· == record) := by
    refine List.filter_congr fun other ho => ?_
    rw [Bool.eq_iff_iff, decide_eq_true_eq, beq_iff_eq]
    exact ⟨fun hid => h.eq_of_id hr ho hid, fun heq => by rw [heq]⟩
  unfold requireRecord
  rw [hid, List.filter_beq, List.count_eq_one_of_mem h.ids.of_map hr]
  exact ⟨rfl, rfl⟩

/-- A method that keeps the catalog that it has loaded. -/
theorem withFreshCatalog_clean {α : Type} {action : CatalogPayload → CatalogM (MutationResult α)} {value : α}
    (h : Verified P key s.disk p) (hgen : s.highestObservedGeneration ≤ p.generation) (hclean : Clean P s.disk p)
    (haction : ∀ t, Post (action p) t (fun r t' => r = .ok (.noWrite value p) ∧ t' = t)) :
    Post (withFreshCatalog P .faultless key action) s (fun r _ => r = .ok value) := by
  unfold withFreshCatalog acquireInterprocessLock
  refine Post.guard.mpr ⟨fun hroot => absurd hroot Bool.false_ne_true, fun _ => ?_⟩
  refine Post.step (a := ()) (R := (· = s)) ⟨rfl, rfl⟩ ?_
  rintro _ rfl
  refine (loadAndRecoverUnderLock_clean h hgen hclean).step ?_
  rintro _ rfl
  refine (haction _).step ?_
  rintro _ rfl
  exact rfl

/-- Every record of a catalog without stale ones can be got. -/
theorem DurableCheckpointCatalog.getRequired_mem (h : Verified P key s.disk p)
    (hgen : s.highestObservedGeneration ≤ p.generation) (hclean : Clean P s.disk p)
    {record : DurableCheckpointRecord} (hr : record ∈ p.records) :
    ∃ t, Ran (DurableCheckpointCatalog.getRequired P .faultless key record.checkpointId) s (.ok record) t := by
  have hid : isIdentifier record.checkpointId = true := by
    have hloaded := h.storable.valid.loaded record hr
    simp only [isLoadedRecord, Bool.and_eq_true] at hloaded
    tauto
  have hpost : Post (DurableCheckpointCatalog.getRequired P .faultless key record.checkpointId) s
      (fun r _ => r = .ok record ∧ True) := by
    unfold DurableCheckpointCatalog.getRequired
    refine Post.step (a := ()) (R := (· = s)) ?_ ?_
    · rw [validateIdentifier, if_pos hid]
      exact ⟨rfl, rfl⟩
    rintro _ rfl
    refine (withFreshCatalog_clean h hgen hclean fun t => ?_).mono fun _ _ hr => ⟨hr, trivial⟩
    refine (requireRecord_mem h.storable.valid hr).step ?_
    rintro _ rfl
    exact ⟨rfl, rfl⟩
  obtain ⟨t, hran, -⟩ := hpost.ran
  exact ⟨t, hran⟩

/-! ## Isolation -/

/-- A load from `s` isolates the damaged files of its catalog `p`: it succeeds, quarantines exactly the records
that they belong to, stores the outcome, and every record can be got from it. -/
def Isolates (P : Primitives) (key : Key) (sha256 : List UInt8 → String) (files : StagedFiles) (s : Session)
    (p : CatalogPayload) : Prop :=
  ∃ q t, Ran (loadAndRecoverUnderLock P .faultless key) s (.ok q) t ∧
    List.Forall₂ (DurableCheckpointRecord.Isolated P sha256 files) p.records q.records ∧
    Verified P key t.disk q ∧ t.disk.artifacts = s.disk.artifacts ∧
    ∀ record ∈ q.records,
      ∃ u, Ran (DurableCheckpointCatalog.getRequired P .faultless key record.checkpointId) t (.ok record) u

/-- The catalog file of this catalog can be written. -/
def Fits (P : Primitives) (key : Key) (payload : CatalogPayload) : Prop :=
  ¬ (P.catalogLength (catalogEnvelope P key payload) = 0 ∨
    maximumCatalogBytes < P.catalogLength (catalogEnvelope P key payload))

/-- There is room for the catalog with its damaged records in quarantine. -/
def Room (P : Primitives) (key : Key) (sha256 : List UInt8 → String) (files : StagedFiles) (p : CatalogPayload) :
    Prop :=
  (∃ record ∈ p.records, record.Damaged P sha256 files) →
    p.generation < maximumGeneration ∧
      ∀ records, List.Forall₂ (DurableCheckpointRecord.Isolated P sha256 files) p.records records →
        Fits P key { p with generation := p.generation + 1, records }

theorem isolates_of_room (hdisk : s.disk.artifacts = files.artifacts sha256) (h : Verified P key s.disk p)
    (hgen : s.highestObservedGeneration ≤ p.generation)
    (hdrawings : ∀ record ∈ p.records, ¬ record.NotDrawing P files) (hroom : Room P key sha256 files p) :
    Isolates P key sha256 files s p := by
  have hvalid := h.storable.valid
  have hstale : ∀ record ∈ p.records, record.Stale P s.disk ↔ record.Damaged P sha256 files :=
    fun record hr => DurableCheckpointRecord.stale_iff (hvalid.loaded record hr) hdisk
  have hcorrupt : ∀ record ∈ p.records, ¬ record.Corrupt P s.disk := fun record hr hc =>
    hdrawings record hr ((DurableCheckpointRecord.corrupt_iff hdisk).mp hc)
  by_cases hdamaged : ∃ record ∈ p.records, record.Damaged P sha256 files
  · obtain ⟨bad, hbad, hd⟩ := hdamaged
    obtain ⟨hmax, hfits⟩ := hroom ⟨bad, hbad, hd⟩
    have hall := (forall₂_isolated (P := P) hvalid.loaded hdisk).mpr rfl
    have hst : Storable P key (p.recovered P s.disk) := ⟨hvalid.recovered s.disk, hfits _ hall⟩
    have hmax' : p.generation + 1 ≤ maximumGeneration := by omega
    have hload := loadAndRecoverUnderLock_recovered h hgen hcorrupt ⟨bad, hbad, (hstale bad hbad).mpr hd⟩ hmax' hst
    obtain ⟨t, hran, rfl⟩ := Post.ran hload
    have hverified : Verified P key (s.disk.stored P key (p.recovered P s.disk)) (p.recovered P s.disk) :=
      .stored hst hmax' s.disk
    refine ⟨p.recovered P s.disk, _, hran, hall, hverified, rfl, fun record hr => ?_⟩
    refine DurableCheckpointCatalog.getRequired_mem (s := (s.wroteBoth P key
      (p.recovered P s.disk)).observed (p.generation + 1)) hverified ?_ recovered_clean hr
    change max s.highestObservedGeneration (p.generation + 1) ≤ p.generation + 1
    omega
  · have hclean : Clean P s.disk p := by
      intro record hr hactive
      by_contra hm
      exact hdamaged ⟨record, hr, (hstale record hr).mp ⟨hactive, hm⟩⟩
    obtain ⟨t, hran, rfl⟩ := Post.ran (loadAndRecoverUnderLock_clean h hgen hclean)
    refine ⟨p, _, hran, ?_, h, rfl, fun record hr => ?_⟩
    · rw [List.forall₂_same]
      exact fun record hr => ⟨fun hd => absurd ⟨record, hr, hd⟩ hdamaged, fun _ => rfl⟩
    · refine DurableCheckpointCatalog.getRequired_mem (s := s.observed p.generation) h ?_ hclean hr
      change max s.highestObservedGeneration p.generation ≤ p.generation
      omega

theorem Verified.unique (h : Verified P key disk p) (h' : Verified P key disk q) : p = q := by
  have heq := h.catalog.symm.trans h'.catalog
  simp only [catalogEnvelope, Option.some.injEq, CatalogEnvelope.mk.injEq] at heq
  exact heq.1

theorem Isolates.drawings (hdisk : s.disk.artifacts = files.artifacts sha256) (h : Verified P key s.disk p)
    (hi : Isolates P key sha256 files s p) :
    (∀ record ∈ p.records, ¬ record.NotDrawing P files) ∧ Room P key sha256 files p := by
  have hvalid := h.storable.valid
  have hstale : ∀ record ∈ p.records, record.Stale P s.disk ↔ record.Damaged P sha256 files :=
    fun record hr => DurableCheckpointRecord.stale_iff (hvalid.loaded record hr) hdisk
  obtain ⟨q, t, hran, -⟩ := hi
  have hloaded : Loaded P key s (.ok q) t := loadAndRecoverUnderLock_post.of_ran hran
  generalize hr : (Except.ok q : Except Exception CatalogPayload) = r at hloaded
  cases hloaded with
  | refused => cases hr
  | clean hv _ hclean =>
      obtain rfl := h.unique hv
      refine ⟨fun record hr hn => ?_, fun ⟨record, hr, hd⟩ => ?_⟩
      · exact hclean.not_corrupt record hr ((DurableCheckpointRecord.corrupt_iff hdisk).mpr hn)
      · exact absurd ((hstale record hr).mpr hd) (hclean.not_stale record hr)
  | @recovered _ r _ hv _ hc _ hmax hp =>
      obtain rfl := h.unique hv
      refine ⟨fun record hr hn => hc record hr ((DurableCheckpointRecord.corrupt_iff hdisk).mpr hn),
        fun _ => ⟨by omega, fun records hall => ?_⟩⟩
      obtain rfl := (forall₂_isolated hvalid.loaded hdisk).mp hall
      cases r with
      | error e => cases hr
      | ok _ =>
          cases hp with
          | both hst => exact hst.size

/-- Loading a catalog isolates its damaged files exactly when none of its active records has a file that is no
drawing, and there is room for the records in quarantine. -/
theorem isolates_iff (hdisk : s.disk.artifacts = files.artifacts sha256) (h : Verified P key s.disk p)
    (hgen : s.highestObservedGeneration ≤ p.generation) :
    Isolates P key sha256 files s p ↔
      (∀ record ∈ p.records, ¬ record.NotDrawing P files) ∧ Room P key sha256 files p :=
  ⟨fun hi => hi.drawings hdisk h, fun ⟨hdrawings, hroom⟩ => isolates_of_room hdisk h hgen hdrawings hroom⟩

/-! ## A truncated drawing -/

def stagedRecord (id fileName : String) : DurableCheckpointRecord where
  catalogSchema := currentCatalogSchema
  checkpointId := id
  jobId := "job-1"
  documentId := "doc-1"
  preRevision := "rev-1"
  originalPathHash := exampleTag
  checkpointFileName := fileName
  sha256 := exampleTag
  byteLength := 7
  dwgVersion := "AC1032"
  createdUtc := ⟨0, 0⟩
  state := .available

def stagedCatalog : CatalogPayload where
  catalogSchema := currentCatalogSchema
  generation := 2
  records := [stagedRecord "cp-1" "cp-1.dwg", stagedRecord "cp-2" "cp-2.dwg"]

theorem stagedCatalog_storable : Storable examplePrimitives exampleKey stagedCatalog :=
  ⟨⟨rfl, by decide, by decide, by decide +kernel, by decide +kernel, by decide +kernel⟩, by decide⟩

/-- The catalog over these files. -/
def stagedSession (files : StagedFiles) : Session where
  highestObservedGeneration := 0
  disk := Disk.stored examplePrimitives exampleKey stagedCatalog
    ⟨none, none, files.artifacts fun _ => exampleTag⟩

theorem stagedSession_verified (files : StagedFiles) :
    Verified examplePrimitives exampleKey (stagedSession files).disk stagedCatalog :=
  .stored stagedCatalog_storable (by decide) _

/-- `AC1032`, and one byte more. -/
def intactDrawing : List UInt8 := [65, 67, 49, 48, 51, 50, 0]

/-- The second drawing was cut to three bytes. -/
def truncatedFiles : StagedFiles :=
  [("cp-1.dwg", .regular intactDrawing), ("cp-2.dwg", .regular (intactDrawing.take 3))]

/-- The file does not have the facts recorded of it, and the load fails instead of isolating it. -/
theorem load_refuses_truncated :
    (stagedRecord "cp-2" "cp-2.dwg").Damaged examplePrimitives (fun _ => exampleTag) truncatedFiles ∧
      ¬ Isolates examplePrimitives exampleKey (fun _ => exampleTag) truncatedFiles (stagedSession truncatedFiles)
        stagedCatalog := by
  have hfind : truncatedFiles.find examplePrimitives "cp-2.dwg" = some (.regular (intactDrawing.take 3)) := by
    decide +kernel
  refine ⟨⟨.inl rfl, ?_⟩, fun hi => ?_⟩
  · rintro ⟨file, hfile, hfacts⟩
    obtain rfl := Option.some.inj (hfind.symm.trans hfile)
    exact absurd hfacts.1 (by decide)
  · refine (hi.drawings rfl (stagedSession_verified truncatedFiles)).1 (stagedRecord "cp-2" "cp-2.dwg") ?_ ?_
    · exact List.mem_cons_of_mem _ List.mem_cons_self
    · exact ⟨.inl rfl, _, hfind, .inl (by decide)⟩

/-- The second drawing was deleted. -/
def deletedFiles : StagedFiles := [("cp-1.dwg", .regular intactDrawing)]

theorem isolates_iff_deleted :
    Isolates examplePrimitives exampleKey (fun _ => exampleTag) deletedFiles (stagedSession deletedFiles)
      stagedCatalog := by
  refine (isolates_iff rfl (stagedSession_verified deletedFiles) (by decide)).mpr ⟨?_, fun _ => ⟨by decide, ?_⟩⟩
  · intro record hr
    rintro ⟨-, file, hfile, hnot⟩
    simp only [stagedCatalog, List.mem_cons, List.not_mem_nil, or_false] at hr
    rcases hr with rfl | rfl
    · have hfind : deletedFiles.find examplePrimitives "cp-1.dwg" = some (.regular intactDrawing) := by decide +kernel
      obtain rfl := Option.some.inj (hfind.symm.trans hfile)
      rcases hnot with hshort | hheader
      · exact absurd hshort (by decide)
      · exact absurd hheader (by decide +kernel)
    · have hfind : deletedFiles.find examplePrimitives "cp-2.dwg" = none := by decide +kernel
      cases hfind.symm.trans hfile
  · intro records _ hsize
    revert hsize
    simp [examplePrimitives, maximumCatalogBytes]

end CadHarness.Checkpoint
